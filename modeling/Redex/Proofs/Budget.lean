import Redex.Interpreter
import Redex.Proofs.Depth

/-!
# Evaluation under another budget

The budget decides how far an evaluation gets and nothing else. With the same number of nested calls
an evaluation under another budget comes to the same outcome or stops at its own limit on the way
(`evaluate_curbs`). Where exactly it stops is then read off the walks: both follow the same steps,
so that one is the beginning of the other, and with it the trace (`evaluate_within_budget`).

The limit is met only in front of a step. A term that takes none is therefore evaluated under every
budget, also under a negative one.
-/

namespace Redex.Eval

/-! ## Walks under another budget -/

section Walk

variable {budget budget' : Int} {traced : Bool} {step : Stepper} {t u : Term} {run run' : Run}
  {redexes : List Term}

theorem Walk.rebudget (walk : Walk budget traced step t run redexes u run')
    (afforded : redexes = [] ∨ (run'.count : Int) ≤ budget') :
    Walk budget' traced step t run redexes u run' := by
  induction walk with
  | stay t run => exact .stay t run
  | move stepped _ rest ih =>
    have within := afforded.resolve_left (List.cons_ne_nil _ _)
    have count := rest.count_eq
    simp only [Run.record] at count
    exact .move stepped (by omega) (ih (Or.inr within))

/-- A walk to a term without a step goes on from the end of every other, whatever the budgets. -/
theorem Walk.extends_of_stuck {u' : Term} {run'' : Run} {redexes' : List Term}
    (whole : Walk budget traced step t run redexes u run') (stuck : step u run'.names = none)
    (part : Walk budget' traced step t run redexes' u' run'') :
    ∃ rest, redexes = redexes' ++ rest ∧
      Walk (max budget budget') traced step u' run'' rest u run' := by
  have wholeWalk : Walk (max budget budget') traced step t run redexes u run' :=
    whole.rebudget (whole.afforded.imp_right fun within => by omega)
  have partWalk : Walk (max budget budget') traced step t run redexes' u' run'' :=
    part.rebudget (part.afforded.imp_right fun within => by omega)
  exact wholeWalk.extends (Or.inl stuck) partWalk

theorem Walk.steps_prefix (walk : Walk budget traced step t run redexes u run') :
    run.steps.toList <+: run'.steps.toList := by
  induction walk with
  | stay t run => exact List.prefix_rfl
  | @move t u run run' redexes move _ _ _ ih =>
    refine List.IsPrefix.trans ?_ ih
    cases traced with
    | false => exact List.prefix_rfl
    | true =>
      simp only [Run.record, ↓reduceIte, Array.toList_push]
      exact List.prefix_append ..

theorem steps_prefix_conclude (traced : Bool) (run : Run) (result : Term) :
    run.steps.toList <+: (run.conclude traced result).steps.toList := by
  cases traced with
  | false => exact List.prefix_rfl
  | true =>
    simp only [Run.conclude, ↓reduceIte, Array.toList_push]
    exact List.prefix_append ..

theorem Walk.steps_untraced (walk : Walk budget false step t run redexes u run') :
    run'.steps = run.steps := by
  induction walk with
  | stay t run => rfl
  | move _ _ _ ih => exact ih

theorem Walk.length_steps (walk : Walk budget true step t {} redexes u run) :
    run.steps.toList.length = run.count := by
  rw [walk.steps_eq, walk.count_of_fresh]
  simp

/-- The trace at the end of a walk is as much of any trace that goes on from it as the walk has
steps. -/
theorem Walk.steps_eq_take (walk : Walk budget traced step t {} redexes u run) {trace : Array Step}
    (begins : run.steps.toList <+: trace.toList) (untraced : traced = false → trace = #[]) :
    run.steps = trace.take run.count := by
  rw [← Array.toList_inj]
  cases traced with
  | false =>
    rw [untraced rfl] at begins ⊢
    simpa using begins
  | true =>
    rw [← walk.length_steps]
    simpa using List.prefix_iff_eq_take.1 begins

/-- A walk that stops because its budget is spent has taken as many steps as that allows. -/
theorem Walk.count_of_spent (walk : Walk budget traced step t {} redexes u run)
    (spent : budget ≤ run.count) : run.count = budget.toNat := by
  have count := walk.count_of_fresh
  rcases walk.afforded with nothing | within
  · rw [nothing, List.length_nil] at count
    omega
  · omega

end Walk

/-! ## Outcomes under two budgets -/

/-- How an outcome under the budget `m` compares to the outcome of the same computation under the
budget `n`: it is the same or it is the step limit, and where `n` is not enough no less is. -/
def Curbs {α : Type} (n m : Int) :
    EStateM.Result Halt Run α → EStateM.Result Halt Run α → Prop
  | .ok a run, outcome => outcome = .ok a run ∨ ∃ last, outcome = .error .stepLimit last
  | .error .stepLimit _, outcome => m ≤ n → ∃ last, outcome = .error .stepLimit last
  | .error .tooDeep _, _ => True

section Curbs

variable {α β : Type} {n m : Int} {run : Run}

theorem Curbs.refl (outcome : EStateM.Result Halt Run α) : Curbs n m outcome outcome := by
  rcases outcome with ⟨a, run⟩ | ⟨_ | _, run⟩
  · exact Or.inl rfl
  · exact fun _ => ⟨run, rfl⟩
  · trivial

theorem Curbs.limit (outcome : EStateM.Result Halt Run α) (last : Run) :
    Curbs n m outcome (.error .stepLimit last) := by
  rcases outcome with ⟨a, run⟩ | ⟨_ | _, run⟩
  · exact Or.inr ⟨last, rfl⟩
  · exact fun _ => ⟨last, rfl⟩
  · trivial

theorem Curbs.bind {first first' : Action α} {rest rest' : α → Action β}
    (curbs : Curbs n m (first run) (first' run))
    (continues : ∀ {a run'}, first run = .ok a run' → first' run = .ok a run' →
      Curbs n m (rest a run') (rest' a run')) :
    Curbs n m ((first >>= rest) run) ((first' >>= rest') run) := by
  rcases outcome : first run with ⟨a, run'⟩ | ⟨_ | _, run'⟩
  · rw [outcome] at curbs
    rcases curbs with same | ⟨last, limited⟩
    · rw [bind_of_ok outcome, bind_of_ok same]
      exact continues outcome same
    · rw [bind_of_error limited]
      exact Curbs.limit _ last
  · rw [outcome] at curbs
    rw [bind_of_error outcome]
    intro fewer
    obtain ⟨last, limited⟩ := curbs fewer
    exact ⟨last, bind_of_error limited _⟩
  · rw [bind_of_error outcome]
    trivial

end Curbs

section Evaluator

variable (settings : Settings) (m : Int)

theorem contract_curbs (depth : Nat) (p : Name) (body argument : Term) (run : Run) :
    Curbs settings.maxSteps m (contract settings depth p body argument run)
      (contract { settings with maxSteps := m } depth p body argument run) := by
  by_cases spent : m ≤ run.count
  · have limited : contract { settings with maxSteps := m } depth p body argument run =
        .error .stepLimit run := if_pos spent
    rw [limited]
    exact Curbs.limit _ run
  · by_cases spent' : settings.maxSteps ≤ run.count
    · have limited : contract settings depth p body argument run = .error .stepLimit run :=
        if_pos spent'
      rw [limited]
      intro fewer
      omega
    · have same : contract { settings with maxSteps := m } depth p body argument run =
          contract settings depth p body argument run := by
        unfold contract
        simp only [if_neg spent, if_neg spent']
      rw [same]
      exact Curbs.refl _

theorem reduceTurn_curbs (depth : Nat) {part part' next next' : Term → Action Term} {t : Term}
    {run : Run}
    (partCurbs : ∀ t run, Curbs settings.maxSteps m (part t run) (part' t run))
    (partGrows : ∀ {t w run run'}, part t run = .ok w run' → run.count ≤ run'.count)
    (nextCurbs : ∀ contractum run', run.count < run'.count →
      (run'.count : Int) ≤ settings.maxSteps → (run'.count : Int) ≤ m →
      Curbs settings.maxSteps m (next contractum run') (next' contractum run')) :
    Curbs settings.maxSteps m (reduceTurn settings depth part next t run)
      (reduceTurn { settings with maxSteps := m } depth part' next' t run) := by
  cases t with
  | var x => exact Curbs.refl _
  | abs p body => exact Curbs.refl _
  | app function argument =>
    unfold reduceTurn
    refine (partCurbs function run).bind ?_
    intro function run₁ reducedFunction _
    refine (partCurbs argument run₁).bind ?_
    intro argument run₂ reducedArgument _
    cases function with
    | var x => exact Curbs.refl _
    | app function' argument' => exact Curbs.refl _
    | abs p body =>
      refine (contract_curbs settings m depth p body argument run₂).bind ?_
      intro contractum run₃ contracted contracted'
      have grown₁ := partGrows reducedFunction
      have grown₂ := partGrows reducedArgument
      obtain ⟨afforded, counted⟩ := contract_count contracted
      have afforded' : (run₂.count : Int) < m := (contract_count contracted').1
      exact nextCurbs contractum run₃ (by omega) (by omega) (by omega)

/-- The two loops count down from different numbers, each from all the steps that are left to it, so
that neither is down to zero as long as both budgets allow a step. -/
theorem reduceLoop_curbs (depth : Nat) {part part' : Term → Action Term}
    (partCurbs : ∀ t run, Curbs settings.maxSteps m (part t run) (part' t run))
    (partGrows : ∀ {t w run run'}, part t run = .ok w run' → run.count ≤ run'.count)
    (left left' : Nat) (t : Term) (run : Run) (enough : settings.maxSteps - run.count ≤ left)
    (enough' : m - run.count ≤ left') :
    Curbs settings.maxSteps m (reduceLoop settings depth part left t run)
      (reduceLoop { settings with maxSteps := m } depth part' left' t run) := by
  induction left generalizing left' t run with
  | zero =>
    cases left' <;>
      exact reduceTurn_curbs settings m depth partCurbs partGrows
        fun contractum run' grown within _ => by omega
  | succ left ih =>
    cases left' with
    | zero =>
      exact reduceTurn_curbs settings m depth partCurbs partGrows
        fun contractum run' grown _ within => by omega
    | succ left' =>
      refine reduceTurn_curbs settings m depth partCurbs partGrows ?_
      intro contractum run' grown _ _
      exact ih left' contractum run' (by omega) (by omega)

theorem reduce_curbs (depth : Nat) (t : Term) (run : Run) :
    Curbs settings.maxSteps m (reduce settings depth t run)
      (reduce { settings with maxSteps := m } depth t run) := by
  induction depth generalizing t run with
  | zero => trivial
  | succ depth ih =>
    exact reduceLoop_curbs settings m depth ih count_le_of_reduce _ _ t run (Int.self_le_toNat _)
      (Int.self_le_toNat _)

theorem normalize_curbs (depth : Nat) (t : Term) (run : Run) :
    Curbs settings.maxSteps m (normalize settings depth t run)
      (normalize { settings with maxSteps := m } depth t run) := by
  induction depth generalizing t run with
  | zero => trivial
  | succ depth ih =>
    unfold normalize
    refine (reduce_curbs settings m depth t run).bind ?_
    intro w run₁ _ _
    cases w with
    | var x => exact Curbs.refl _
    | abs p body => exact (ih body run₁).bind fun _ _ => Curbs.refl _
    | app function argument =>
      refine (ih function run₁).bind ?_
      intro function run₂ _ _
      exact (ih argument run₂).bind fun _ _ => Curbs.refl _

theorem evaluate_curbs (t : Term) :
    Curbs settings.maxSteps m (evaluate settings t)
      (evaluate { settings with maxSteps := m } t) := by
  unfold evaluate evaluateTerm
  exact (normalize_curbs settings m settings.depth t {}).bind fun _ _ => Curbs.refl _

end Evaluator

/-! ## Evaluations that are not traced -/

theorem steps_of_untraced_ok {settings : Settings} {t result : Term} {run : Run}
    (done : evaluate settings t = .ok result run) (untraced : settings.traced = false) :
    run.steps = #[] := by
  obtain ⟨redexes, last, walk, -, rfl⟩ := evaluate_ok done
  rw [untraced] at walk ⊢
  exact walk.steps_untraced

theorem steps_of_untraced_limit {settings : Settings} {t : Term} {run : Run}
    (halted : evaluate settings t = .error .stepLimit run) (untraced : settings.traced = false) :
    run.steps = #[] := by
  obtain ⟨redexes, u, walk, -, -⟩ := evaluate_limit halted
  rw [untraced] at walk
  exact walk.steps_untraced

/-! ## Where an evaluation is cut short -/

/-- Whether an evaluation is cut short at its limit: after as many steps as that allows, with a
failure that carries the limit and as many entries of the given trace. -/
def CutShort (settings : Settings) (t : Term) (trace : Array Step) : Prop :=
  (∃ run, evaluate settings t = .error .stepLimit run ∧
      run.count = settings.maxSteps.toNat) ∧
    interpret settings t = .error (.reported
      (.ofStepLimit settings.maxSteps (trace.take settings.maxSteps.toNat) none))

section CutShort

variable {settings : Settings} {m : Int} {t result : Term} {run last : Run} {trace : Array Step}

theorem cutShort_of_limit (limited : evaluate settings t = .error .stepLimit last)
    (begins : last.steps.toList <+: trace.toList)
    (untraced : settings.traced = false → trace = #[]) : CutShort settings t trace := by
  obtain ⟨redexes, u, walk, -, spent⟩ := evaluate_limit limited
  have count := walk.count_of_spent spent
  refine ⟨⟨last, limited, count⟩, ?_⟩
  rw [← count, ← walk.steps_eq_take begins untraced]
  simp only [interpret, limited]
  rfl

/-- A limit that is met on the way to a result is met before all steps to it are taken. -/
theorem lt_of_limit (done : evaluate settings t = .ok result run)
    (limited : evaluate { settings with maxSteps := m } t = .error .stepLimit last) :
    m < run.count ∧ last.count < run.count := by
  obtain ⟨redexes, run, walk, normal, rfl⟩ := evaluate_ok done
  obtain ⟨redexes', u, walk', unfinished, spent⟩ := evaluate_limit limited
  have stuck := (Term.step?_eq_none_iff result run.names).2 normal
  obtain ⟨rest, -, continued⟩ := walk.extends_of_stuck stuck walk'
  have count := continued.count_eq
  rw [count_conclude]
  change m ≤ last.count at spent
  cases rest with
  | nil =>
    cases continued
    rw [normal] at unfinished
    cases unfinished
  | cons redex rest =>
    rw [List.length_cons] at count
    omega

theorem evaluate_of_afforded (done : evaluate settings t = .ok result run)
    (afforded : (run.count : Int) ≤ m ∨ run.count = 0) :
    evaluate { settings with maxSteps := m } t = .ok result run := by
  have curbs := evaluate_curbs settings m t
  rw [done] at curbs
  rcases curbs with same | ⟨last, limited⟩
  · exact same
  · have short := lt_of_limit done limited
    omega

theorem cutShort_of_ok (done : evaluate settings t = .ok result run) (short : m < run.count)
    (stepped : 0 < run.count) : CutShort { settings with maxSteps := m } t run.steps := by
  have curbs := evaluate_curbs settings m t
  rw [done] at curbs
  rcases curbs with same | ⟨last, limited⟩
  · obtain ⟨redexes, run, walk, -, rfl⟩ := evaluate_ok same
    have count := walk.count_of_fresh
    rw [count_conclude] at short stepped
    rcases walk.afforded with nothing | within
    · rw [nothing, List.length_nil] at count
      omega
    · change (run.count : Int) ≤ m at within
      omega
  · obtain ⟨redexes, run, walk, normal, rfl⟩ := evaluate_ok done
    obtain ⟨redexes', u, walk', -, -⟩ := evaluate_limit limited
    have stuck := (Term.step?_eq_none_iff result run.names).2 normal
    obtain ⟨rest, -, continued⟩ := walk.extends_of_stuck stuck walk'
    have begins := continued.steps_prefix.trans (steps_prefix_conclude settings.traced run result)
    refine cutShort_of_limit limited begins ?_
    intro untraced
    change settings.traced = false at untraced
    rw [untraced] at walk ⊢
    exact walk.steps_untraced

end CutShort

end Redex.Eval
