import Redex.Proofs.Evaluation

/-!
# Enough nested calls

An evaluation may halt because its calls nest too deeply. That is a matter of the allowance alone:
for every term and every budget there is a number of nested calls from which on the outcome is
always the same and is never that halt (`evaluate_settles`).

Every call works on a smaller term or comes after a step, and the steps are bounded by the budget.
So the induction is on the steps that are left and, within it, on the term.
-/

namespace Redex.Eval

/-- From some number of nested calls on the outcome stays the same, and it is no halt for want of
them. -/
def Settles {α : Type} (budget : Int) (traced : Bool)
    (outcomes : Settings → Nat → EStateM.Result Halt Run α) : Prop :=
  ∃ enough outcome, Settled outcome ∧ ∀ settings depth, settings.maxSteps = budget →
    settings.traced = traced → enough ≤ depth → outcomes settings depth = outcome

section Settles

variable {α β : Type} {budget : Int} {traced : Bool} {run : Run}

theorem Settles.ok (a : α) (run : Run) : Settles budget traced fun _ _ => .ok a run :=
  ⟨0, .ok a run, trivial, fun _ _ _ _ _ => rfl⟩

/-- One more nested call. -/
theorem Settles.succ {outcomes : Settings → Nat → EStateM.Result Halt Run α}
    (settles : Settles budget traced fun settings depth => outcomes settings (depth + 1)) :
    Settles budget traced outcomes := by
  obtain ⟨enough, outcome, settled, reaches⟩ := settles
  refine ⟨enough + 1, outcome, settled, ?_⟩
  intro settings depth sameBudget sameTraced deep
  obtain ⟨depth, rfl⟩ := Nat.exists_eq_add_of_le' (Nat.le_trans (Nat.le_add_left 1 enough) deep)
  exact reaches settings depth sameBudget sameTraced (by omega)

theorem Settles.congr {outcomes outcomes' : Settings → Nat → EStateM.Result Halt Run α}
    (settles : Settles budget traced outcomes)
    (same : ∀ settings depth, settings.maxSteps = budget → settings.traced = traced →
      outcomes' settings depth = outcomes settings depth) :
    Settles budget traced outcomes' := by
  obtain ⟨enough, outcome, settled, reaches⟩ := settles
  refine ⟨enough, outcome, settled, ?_⟩
  intro settings depth sameBudget sameTraced deep
  rw [same settings depth sameBudget sameTraced]
  exact reaches settings depth sameBudget sameTraced deep

theorem Settles.bind {first : Settings → Nat → Action α} {rest : Settings → Nat → α → Action β}
    (settles : Settles budget traced fun settings depth => first settings depth run)
    (continues : ∀ {settings depth a run'}, settings.maxSteps = budget →
      settings.traced = traced → first settings depth run = .ok a run' →
      Settles budget traced fun settings depth => rest settings depth a run') :
    Settles budget traced fun settings depth =>
      (first settings depth >>= rest settings depth) run := by
  obtain ⟨enough, outcome, settled, reaches⟩ := settles
  rcases outcome with ⟨a, run'⟩ | ⟨halt, run'⟩
  · have sample := reaches ⟨budget, traced, 0⟩ enough rfl rfl (Nat.le_refl enough)
    obtain ⟨enough', outcome', settled', reaches'⟩ := continues rfl rfl sample
    refine ⟨max enough enough', outcome', settled', ?_⟩
    intro settings depth sameBudget sameTraced deep
    have done := reaches settings depth sameBudget sameTraced (by omega)
    exact (bind_of_ok done _).trans (reaches' settings depth sameBudget sameTraced (by omega))
  · refine ⟨enough, .error halt run', ?_, ?_⟩
    · cases halt with
      | stepLimit => trivial
      | tooDeep => exact settled
    · intro settings depth sameBudget sameTraced deep
      exact bind_of_error (reaches settings depth sameBudget sameTraced deep) _

end Settles

variable (budget : Int) (traced : Bool)

theorem contract_settles (p : Name) (body argument : Term) (run : Run) :
    Settles budget traced fun settings depth => contract settings depth p body argument run := by
  let redex := Term.app (.abs p body) argument
  let move := Move.contracting p body argument run.names
  by_cases spent : budget ≤ run.count
  · refine ⟨0, .error .stepLimit run, trivial, ?_⟩
    intro settings depth sameBudget _ _
    subst sameBudget
    simp only [contract, if_pos spent]
  · refine ⟨max redex.renderDepth (body.height + argument.height),
      .ok move.result (run.record traced move), trivial, ?_⟩
    intro settings depth sameBudget sameTraced deep
    subst sameBudget sameTraced
    have shallow : ¬depth < redex.renderDepth := by omega
    have replaced := Term.substWithin_eq_subst depth p argument body run.names (by omega)
    simp only [contract, if_neg spent, replaced]
    rw [if_neg]
    · rfl
    · simp only [Bool.and_eq_true, decide_eq_true_eq]
      exact fun deeper => shallow deeper.2

theorem count_le_of_reduce {settings : Settings} {depth : Nat} {t w : Term} {run run' : Run}
    (reduced : reduce settings depth t run = .ok w run') : run.count ≤ run'.count := by
  have ends := reduce_ends settings depth t run
  rw [reduced] at ends
  obtain ⟨redexes, u, walk, -⟩ := ends
  rw [walk.count_eq]
  exact Nat.le_add_right _ _

theorem reduce_settles_of_loop {t : Term} {run : Run}
    (settles : Settles budget traced fun settings depth =>
      reduceLoop settings depth (reduce settings depth) (budget - run.count).toNat t run) :
    Settles budget traced fun settings depth => reduce settings depth t run := by
  apply Settles.succ
  apply settles.congr
  intro settings depth sameBudget _
  rw [← sameBudget]
  rfl

theorem reduceTurn_settles {next : Settings → Nat → Term → Action Term} {function argument : Term}
    {run : Run}
    (functionSettles : ∀ run', run.count ≤ run'.count →
      Settles budget traced fun settings depth => reduce settings depth function run')
    (argumentSettles : ∀ run', run.count ≤ run'.count →
      Settles budget traced fun settings depth => reduce settings depth argument run')
    (nextSettles : ∀ contractum run', run.count < run'.count → (run'.count : Int) ≤ budget →
      Settles budget traced fun settings depth => next settings depth contractum run') :
    Settles budget traced fun settings depth =>
      reduceTurn settings depth (reduce settings depth) (next settings depth)
        (.app function argument) run := by
  unfold reduceTurn
  apply Settles.bind (functionSettles run (Nat.le_refl _))
  intro settings₁ depth₁ function' run₁ _ _ reducedFunction
  have grown₁ := count_le_of_reduce reducedFunction
  apply Settles.bind (argumentSettles run₁ grown₁)
  intro settings₂ depth₂ argument' run₂ _ _ reducedArgument
  have grown₂ := count_le_of_reduce reducedArgument
  cases function' with
  | var x => exact Settles.ok _ run₂
  | app function'' argument'' => exact Settles.ok _ run₂
  | abs p body =>
    apply Settles.bind (contract_settles budget traced p body argument' run₂)
    intro settings₃ depth₃ contractum run₃ sameBudget _ contracted
    obtain ⟨afforded, counted⟩ := contract_count contracted
    exact nextSettles contractum run₃ (by omega) (by omega)

/-- The loop settles. A contraction leaves fewer steps, which is the outer induction; the function
and the argument are smaller and leave no more steps, which is the inner one. -/
theorem reduceLoop_settles (limit : Nat) (t : Term) (run : Run) (left : Nat)
    (limited : budget - run.count ≤ limit) (enough : budget - run.count ≤ left) :
    Settles budget traced fun settings depth =>
      reduceLoop settings depth (reduce settings depth) left t run := by
  induction limit using Nat.strongRecOn generalizing t run left with
  | ind limit ih =>
    induction t generalizing run left with
    | var x => cases left <;> exact Settles.ok _ run
    | abs p body _ => cases left <;> exact Settles.ok _ run
    | app function argument ihf iha =>
      have functionSettles (run' : Run) (grown : run.count ≤ run'.count) :=
        reduce_settles_of_loop budget traced (ihf run' _ (by omega) (Int.self_le_toNat _))
      have argumentSettles (run' : Run) (grown : run.count ≤ run'.count) :=
        reduce_settles_of_loop budget traced (iha run' _ (by omega) (Int.self_le_toNat _))
      cases left with
      | zero =>
        apply reduceTurn_settles budget traced functionSettles argumentSettles
        intro contractum run' grown afforded
        omega
      | succ left =>
        apply reduceTurn_settles budget traced functionSettles argumentSettles
        intro contractum run' grown afforded
        exact ih (limit - 1) (by omega) contractum run' left (by omega) (by omega)

theorem reduce_settles (t : Term) (run : Run) :
    Settles budget traced fun settings depth => reduce settings depth t run := by
  have left := Int.self_le_toNat (budget - run.count)
  exact reduce_settles_of_loop budget traced (reduceLoop_settles budget traced _ t run _ left left)

theorem count_le_of_normalize {settings : Settings} {depth : Nat} {t r : Term} {run run' : Run}
    (normalized : normalize settings depth t run = .ok r run') : run.count ≤ run'.count := by
  have ends := normalize_ends settings depth t run
  rw [normalized] at ends
  obtain ⟨redexes, u, walk, -⟩ := ends
  rw [walk.count_eq]
  exact Nat.le_add_right _ _

/-- What `normalize` goes on with is a piece of the term itself, or it comes after a step. -/
theorem normalize_settles_of_children {limit : Nat} {t : Term} {run : Run}
    (limited : budget - run.count ≤ limit)
    (fewer : ∀ piece run', (budget - run'.count).toNat < limit →
      Settles budget traced fun settings depth => normalize settings depth piece run')
    (smaller : ∀ piece ∈ t.children, ∀ run', budget - run'.count ≤ limit →
      Settles budget traced fun settings depth => normalize settings depth piece run') :
    Settles budget traced fun settings depth => normalize settings depth t run := by
  apply Settles.succ
  unfold normalize
  apply Settles.bind (reduce_settles budget traced t run)
  intro settings depth w run₁ sameBudget sameTraced reduced
  have pieces : ∀ piece ∈ w.children, ∀ run', run₁.count ≤ run'.count →
      Settles budget traced fun settings depth => normalize settings depth piece run' := by
    have ends := reduce_ends settings depth t run
    rw [reduced, sameBudget] at ends
    obtain ⟨redexes, u, walk, rfl, -⟩ := ends
    intro piece inside run' grown
    have count := walk.count_eq
    cases redexes with
    | nil =>
      cases walk
      exact smaller piece inside run' (by omega)
    | cons redex redexes =>
      have within := walk.afforded.resolve_left (List.cons_ne_nil redex redexes)
      rw [List.length_cons] at count
      exact fewer piece run' (by omega)
  cases w with
  | var x => exact Settles.ok _ run₁
  | abs p body =>
    apply Settles.bind (pieces body (by simp [Term.children]) run₁ (Nat.le_refl _))
    intro _ _ body' run₂ _ _ _
    exact Settles.ok _ run₂
  | app function argument =>
    apply Settles.bind (pieces function (by simp [Term.children]) run₁ (Nat.le_refl _))
    intro _ _ function' run₂ _ _ normalized
    have grown := count_le_of_normalize normalized
    apply Settles.bind (pieces argument (by simp [Term.children]) run₂ grown)
    intro _ _ argument' run₃ _ _ _
    exact Settles.ok _ run₃

theorem normalize_settles (t : Term) (run : Run) :
    Settles budget traced fun settings depth => normalize settings depth t run := by
  suffices settles : ∀ (limit : Nat) (t : Term) (run : Run), budget - run.count ≤ limit →
      Settles budget traced fun settings depth => normalize settings depth t run from
    settles _ t run (Int.self_le_toNat _)
  intro limit
  induction limit using Nat.strongRecOn with
  | ind limit ih =>
    have fewer (piece : Term) (run : Run) (less : (budget - run.count).toNat < limit) :=
      ih _ less piece run (Int.self_le_toNat _)
    intro t
    induction t with
    | var x =>
      intro run limited
      apply normalize_settles_of_children budget traced limited fewer
      intro piece inside
      cases inside
    | abs p body ihBody =>
      intro run limited
      apply normalize_settles_of_children budget traced limited fewer
      intro piece inside
      rw [List.mem_singleton.1 inside]
      exact ihBody
    | app function argument ihf iha =>
      intro run limited
      apply normalize_settles_of_children budget traced limited fewer
      intro piece inside
      rcases List.mem_cons.1 inside with here | there
      · rw [here]
        exact ihf
      · rw [List.mem_singleton.1 there]
        exact iha

/-- With enough nested calls an evaluation has one outcome: a result or the step limit. -/
theorem evaluate_settles (t : Term) :
    ∃ enough outcome, Settled outcome ∧ ∀ settings : Settings, settings.maxSteps = budget →
      settings.traced = traced → enough ≤ settings.depth → evaluate settings t = outcome := by
  obtain ⟨enough, outcome, settled, reaches⟩ := normalize_settles budget traced t {}
  rcases outcome with ⟨result, run⟩ | ⟨halt, run⟩
  · refine ⟨max enough result.renderDepth, .ok result (run.conclude traced result), trivial, ?_⟩
    intro settings sameBudget sameTraced deep
    have normalized := reaches settings settings.depth sameBudget sameTraced (by omega)
    rw [evaluate_of_ok normalized, sameTraced, if_neg]
    simp only [Bool.and_eq_true, decide_eq_true_eq]
    omega
  · refine ⟨enough, .error halt run, ?_, ?_⟩
    · cases halt with
      | stepLimit => trivial
      | tooDeep => exact settled
    · intro settings sameBudget sameTraced deep
      exact evaluate_of_error (reaches settings settings.depth sameBudget sameTraced deep)

theorem exists_settled (t : Term) :
    ∃ enough, ∀ depth, enough ≤ depth → Settled (evaluate ⟨budget, traced, depth⟩ t) := by
  obtain ⟨enough, outcome, settled, reaches⟩ := evaluate_settles budget traced t
  refine ⟨enough, ?_⟩
  intro depth deep
  rw [reaches ⟨budget, traced, depth⟩ rfl rfl deep]
  exact settled

end Redex.Eval
