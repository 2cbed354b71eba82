import Redex.Proofs.Budget

/-!
# Evaluation as single steps

What the evaluator computes is what the steps of `Term.step?` lead to. `Steps` is a sequence of them
that knows of no budget and keeps no trace: it hands one supply of names on and lists the redexes. A
budget of `n` admits exactly the sequences of at most `n` steps (`walk_iff_steps`), and the state of
the evaluation after one of them is read off its list (`Run.after`).

With enough nested calls an evaluation returns a term if and only if at most `n` steps lead to it
and none leads on, and it meets the limit if and only if more than `n` steps are possible
(`evaluate_follows_strategy`).
-/

namespace Redex.Eval

/-- Single steps from a term and a supply to another, and the redexes contracted on the way. -/
inductive Steps : Term → NameSupply → List Term → Term → NameSupply → Prop
  | refl (t : Term) (supply : NameSupply) : Steps t supply [] t supply
  | step {t u : Term} {supply supply' : NameSupply} {redexes : List Term} {move : Move} :
    t.step? supply = some move → Steps move.result move.supply redexes u supply' →
    Steps t supply (move.redex :: redexes) u supply'

/-- The state of an evaluation that has contracted the given redexes and no others. -/
def Run.after (traced : Bool) (redexes : List Term) (supply : NameSupply) : Run where
  names := supply
  count := redexes.length
  steps := if traced then (redexes.mapIdx fun i redex => ⟨i, redex.render⟩).toArray else #[]

section Steps

variable {n : Nat} {budget : Int} {traced : Bool} {t u : Term} {supply supply' : NameSupply}
  {run run' : Run} {redexes : List Term}

theorem Steps.snoc {move : Move} (steps : Steps t supply redexes u supply')
    (stepped : u.step? supply' = some move) :
    Steps t supply (redexes ++ [move.redex]) move.result move.supply := by
  induction steps with
  | refl t supply => exact .step stepped (.refl _ _)
  | step first _ ih => exact .step first (ih stepped)

/-- A sequence of more than `k` steps passes a term after `k` steps, and there is a step from it. -/
theorem Steps.take (steps : Steps t supply redexes u supply') {k : Nat}
    (more : k < redexes.length) :
    ∃ u' supply'', Steps t supply (redexes.take k) u' supply'' ∧
      (u'.step? supply'').isSome = true := by
  induction steps generalizing k with
  | refl t supply => cases more
  | @step t u supply supply' redexes move stepped _ ih =>
    cases k with
    | zero => exact ⟨t, supply, .refl _ _, by rw [stepped]; rfl⟩
    | succ k =>
      obtain ⟨u', supply'', front, unfinished⟩ := ih (Nat.lt_of_succ_lt_succ more)
      exact ⟨u', supply'', .step stepped front, unfinished⟩

/-! ## Steps and walks -/

theorem Walk.toSteps (walk : Walk budget traced Term.step? t run redexes u run') :
    Steps t run.names redexes u run'.names := by
  induction walk with
  | stay t run => exact .refl t run.names
  | move stepped _ _ ih => exact .step stepped ih

theorem Steps.toWalk (steps : Steps t supply redexes u supply') (names : run.names = supply)
    (afforded : (run.count : Int) + redexes.length ≤ budget) :
    ∃ run', Walk budget traced Term.step? t run redexes u run' ∧ run'.names = supply' := by
  induction steps generalizing run with
  | refl t supply => exact ⟨run, .stay t run, names⟩
  | @step t u supply supply' redexes move stepped _ ih =>
    subst names
    rw [List.length_cons] at afforded
    have left : ((run.record traced move).count : Int) + redexes.length ≤ budget := by
      simp only [Run.record]
      omega
    obtain ⟨run', rest, last⟩ := ih rfl left
    have here : (run.count : Int) < budget := by omega
    exact ⟨run', .move stepped here rest, last⟩

/-- The state at the end of a walk from a fresh one is fixed by the redexes and the last supply. -/
theorem Walk.eq_after (walk : Walk budget traced Term.step? t {} redexes u run) :
    run = .after traced redexes run.names := by
  have count := walk.count_of_fresh
  have trace : run.steps = (Run.after traced redexes run.names).steps := by
    cases traced with
    | false => exact walk.steps_untraced
    | true =>
      rw [← Array.toList_inj, walk.steps_eq]
      simp [Run.after]
  rcases run with ⟨names, _, _⟩
  cases count
  cases trace
  rfl

/-- Under a budget of `n` the walks from a fresh state are the sequences of at most `n` steps. -/
theorem walk_iff_steps :
    Walk n traced Term.step? t {} redexes u run ↔
      ∃ supply, Steps t {} redexes u supply ∧ redexes.length ≤ n ∧
        run = .after traced redexes supply := by
  constructor
  · intro walk
    have length : redexes.length ≤ n := by
      rcases walk.afforded with nothing | within
      · rw [nothing]
        exact Nat.zero_le n
      · rw [walk.count_of_fresh] at within
        exact Int.ofNat_le.1 within
    exact ⟨run.names, walk.toSteps, length, walk.eq_after⟩
  · intro reached
    rcases reached with ⟨supply, steps, length, rfl⟩
    have afforded : (Run.count {} : Int) + redexes.length ≤ n := by
      change ((0 : Nat) : Int) + redexes.length ≤ n
      omega
    obtain ⟨run, walk, rfl⟩ := steps.toWalk rfl afforded
    rw [← walk.eq_after]
    exact walk

end Steps

/-! ## Outcomes and steps -/

section Outcomes

variable {n : Nat} {traced : Bool} {depth : Nat} {t r : Term} {run : Run}

theorem evaluate_ok_iff_steps (settled : Settled (evaluate ⟨n, traced, depth⟩ t)) :
    evaluate ⟨n, traced, depth⟩ t = .ok r run ↔
      ∃ redexes supply, Steps t {} redexes r supply ∧ redexes.length ≤ n ∧
        r.step? supply = none ∧ run = (Run.after traced redexes supply).conclude traced r := by
  constructor
  · intro done
    obtain ⟨redexes, run, walk, normal, rfl⟩ := evaluate_ok done
    obtain ⟨supply, steps, length, rfl⟩ := walk_iff_steps.1 walk
    exact ⟨redexes, supply, steps, length, (Term.step?_eq_none_iff r supply).2 normal, rfl⟩
  · intro reached
    rcases reached with ⟨redexes, supply, steps, length, stuck, rfl⟩
    have walk : Walk n traced Term.step? t {} redexes r (.after traced redexes supply) :=
      walk_iff_steps.2 ⟨supply, steps, length, rfl⟩
    obtain ⟨redexes', u, run, walk', halted, outcome⟩ := evaluate_halts settled
    -- both walks halt, so that they are one
    obtain ⟨-, rfl, rfl⟩ := Walk.unique walk walk' (Or.inl stuck) halted
    rcases outcome with ⟨-, done⟩ | ⟨unfinished, -⟩
    · exact done
    · rw [(Term.step?_eq_none_iff r supply).1 stuck] at unfinished
      cases unfinished

theorem evaluate_limit_iff_steps (settled : Settled (evaluate ⟨n, traced, depth⟩ t)) :
    evaluate ⟨n, traced, depth⟩ t = .error .stepLimit run ↔
      ∃ redexes u supply, Steps t {} redexes u supply ∧ redexes.length = n ∧
        (u.step? supply).isSome = true ∧ run = Run.after traced redexes supply := by
  constructor
  · intro halted
    obtain ⟨redexes, u, walk, unfinished, spent⟩ := evaluate_limit halted
    obtain ⟨supply, steps, length, rfl⟩ := walk_iff_steps.1 walk
    change (n : Int) ≤ redexes.length at spent
    refine ⟨redexes, u, supply, steps, by omega, ?_, rfl⟩
    rw [Option.isSome_iff_ne_none, ne_eq, Term.step?_eq_none_iff, unfinished]
    simp
  · intro reached
    rcases reached with ⟨redexes, u, supply, steps, length, unfinished, rfl⟩
    have walk : Walk n traced Term.step? t {} redexes u (.after traced redexes supply) :=
      walk_iff_steps.2 ⟨supply, steps, Nat.le_of_eq length, rfl⟩
    obtain ⟨redexes', u', run, walk', halted, outcome⟩ := evaluate_halts settled
    have spent : (n : Int) ≤ (Run.after traced redexes supply).count := by
      change (n : Int) ≤ redexes.length
      omega
    obtain ⟨-, rfl, rfl⟩ := Walk.unique walk walk' (Or.inr spent) halted
    rcases outcome with ⟨normal, -⟩ | ⟨-, limited⟩
    · rw [(Term.step?_eq_none_iff u supply).2 normal] at unfinished
      cases unfinished
    · exact limited

theorem evaluate_limit_iff_more_steps (settled : Settled (evaluate ⟨n, traced, depth⟩ t)) :
    (∃ run, evaluate ⟨n, traced, depth⟩ t = .error .stepLimit run) ↔
      ∃ redexes u supply, Steps t {} redexes u supply ∧ n < redexes.length := by
  constructor
  · intro limited
    rcases limited with ⟨run, halted⟩
    obtain ⟨redexes, u, supply, steps, length, unfinished, -⟩ :=
      (evaluate_limit_iff_steps settled).1 halted
    obtain ⟨move, stepped⟩ := Option.isSome_iff_exists.1 unfinished
    refine ⟨_, _, _, steps.snoc stepped, ?_⟩
    rw [List.length_append, length]
    exact Nat.lt_succ_self n
  · intro possible
    rcases possible with ⟨redexes, u, supply, steps, more⟩
    obtain ⟨u', supply', front, unfinished⟩ := steps.take more
    have length : (redexes.take n).length = n := List.length_take_of_le (Nat.le_of_lt more)
    exact ⟨_, (evaluate_limit_iff_steps settled).2 ⟨_, u', supply', front, length, unfinished, rfl⟩⟩

end Outcomes

/-- The evaluator follows the strategy of `Term.step?`. With enough nested calls and a limit of `n`
it returns a term exactly if at most `n` steps lead there and none leads on; it meets the limit
exactly after `n` steps to a term that has another, and so exactly if more than `n` steps are
possible. In either case it has contracted the redexes of these steps, in their order. -/
theorem evaluate_follows_strategy (t : Term) (n : Nat) (traced : Bool) :
    ∃ enough, ∀ depth, enough ≤ depth →
      (∀ r run, evaluate ⟨n, traced, depth⟩ t = .ok r run ↔
        ∃ redexes supply, Steps t {} redexes r supply ∧ redexes.length ≤ n ∧
          r.step? supply = none ∧
          run = (Run.after traced redexes supply).conclude traced r) ∧
      (∀ run, evaluate ⟨n, traced, depth⟩ t = .error .stepLimit run ↔
        ∃ redexes u supply, Steps t {} redexes u supply ∧ redexes.length = n ∧
          (u.step? supply).isSome = true ∧ run = Run.after traced redexes supply) ∧
      ((∃ run, evaluate ⟨n, traced, depth⟩ t = .error .stepLimit run) ↔
        ∃ redexes u supply, Steps t {} redexes u supply ∧ n < redexes.length) := by
  obtain ⟨enough, settles⟩ := exists_settled n traced t
  refine ⟨enough, ?_⟩
  intro depth deep
  have settled := settles depth deep
  exact ⟨fun _ _ => evaluate_ok_iff_steps settled, fun _ => evaluate_limit_iff_steps settled,
    evaluate_limit_iff_more_steps settled⟩

/-- In `x ((λa. a) y) ((λf. λy. f) y)` the application of `x` to its first argument is outside the
weak terms, so that its redex is contracted first; the second contraction has to rename. Two steps
are enough, one is not. -/
theorem evaluate_follows_strategy_stuck :
    let first := Term.app (.abs "a" (.var "a")) (.var "y")
    let second := Term.app (.abs "f" (.abs "y" (.var "f"))) (.var "y")
    let t := Term.app (.app (.var "x") first) second
    let r := Term.app (.app (.var "x") (.var "y")) (.abs "y'" (.var "y"))
    ∃ enough, ∀ depth, enough ≤ depth →
      evaluate ⟨2, true, depth⟩ t =
        .ok r ⟨⟨["y'"]⟩, 2, #[⟨0, first.render⟩, ⟨1, second.render⟩, ⟨2, r.render⟩]⟩ ∧
      evaluate ⟨1, true, depth⟩ t = .error .stepLimit ⟨⟨[]⟩, 1, #[⟨0, first.render⟩]⟩ := by
  intro first second t r
  have step₁ : t.step? {} = some ⟨first, .app (.app (.var "x") (.var "y")) second, ⟨[]⟩⟩ := by
    decide +kernel
  have step₂ : (Term.app (.app (.var "x") (.var "y")) second).step? ⟨[]⟩ =
      some ⟨second, r, ⟨["y'"]⟩⟩ := by
    decide +kernel
  obtain ⟨enough₂, follows₂⟩ := evaluate_follows_strategy t 2 true
  obtain ⟨enough₁, follows₁⟩ := evaluate_follows_strategy t 1 true
  refine ⟨max enough₂ enough₁, ?_⟩
  intro depth deep
  have both : Steps t {} [first, second] r ⟨["y'"]⟩ := .step step₁ (.step step₂ (.refl _ _))
  have one : Steps t {} [first] (.app (.app (.var "x") (.var "y")) second) ⟨[]⟩ :=
    .step step₁ (.refl _ _)
  refine ⟨((follows₂ depth (by omega)).1 _ _).2 ?_, ((follows₁ depth (by omega)).2.1 _).2 ?_⟩
  · exact ⟨_, _, both, Nat.le_refl 2, by decide +kernel, rfl⟩
  · exact ⟨_, _, _, one, rfl, by decide +kernel, rfl⟩

end Redex.Eval
