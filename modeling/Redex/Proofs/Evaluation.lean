import Redex.Eval.Normalize
import Redex.Proofs.Walk

/-!
# Evaluation follows the strategy

The evaluator is two nested loops: `reduce` re-enters itself on functions and arguments, and
`normalize` calls it again on every piece that is left. Whatever they return, and also when they
halt at the step limit, a walk of single steps explains it: weak steps for `reduce` (`reduce_ends`),
all steps for `normalize` (`normalize_ends`). For a whole evaluation this is `evaluate_ok` and
`evaluate_limit`, or both in one, `evaluate_halts`.
-/

namespace Redex.Eval

/-! ## From a part of a term to the whole -/

section Contexts

variable {α : Type} {budget : Int} {traced : Bool} {run : Run} {function argument t : Term}
  {goal : α → Term → Prop} {outcome : EStateM.Result Halt Run α}

theorem Ends.weakFunction (argument : Term)
    (ends : Ends budget traced Term.weakStep? function run goal outcome) :
    Ends budget traced Term.weakStep? (.app function argument) run
      (fun a whole => ∃ part, whole = .app part argument ∧ goal a part) outcome :=
  ends.lift fun stepped => Term.weakStep?_function stepped argument

theorem Ends.weakArgument (weak : function.isWeak = true)
    (ends : Ends budget traced Term.weakStep? argument run goal outcome) :
    Ends budget traced Term.weakStep? (.app function argument) run
      (fun a whole => ∃ part, whole = .app function part ∧ goal a part) outcome :=
  ends.lift fun stepped => Term.weakStep?_argument weak stepped

theorem Ends.ofWeak (ends : Ends budget traced Term.weakStep? t run goal outcome) :
    Ends budget traced Term.step? t run goal outcome := by
  have lifted : Ends budget traced Term.step? t run
      (fun a whole => ∃ part, whole = part ∧ goal a part) outcome :=
    ends.lift Term.step?_of_weakStep?
  apply lifted.mono
  intro a whole inPart
  obtain ⟨part, rfl, reached⟩ := inPart
  exact reached

theorem Ends.inBody (p : Name) (ends : Ends budget traced Term.step? t run goal outcome) :
    Ends budget traced Term.step? (.abs p t) run
      (fun a whole => ∃ part, whole = .abs p part ∧ goal a part) outcome :=
  ends.lift fun stepped => Term.step?_body stepped p

theorem Ends.stuckFunction (stuck : (Term.app function argument).isWeak = true)
    (ends : Ends budget traced Term.step? function run goal outcome) :
    Ends budget traced Term.step? (.app function argument) run
      (fun a whole => ∃ part, whole = .app part argument ∧
        (Term.app part argument).isWeak = true ∧ goal a part) outcome := by
  have lift {part : Term} {supply : NameSupply} {move : Move}
      (stuck : (Term.app part argument).isWeak = true) (stepped : part.step? supply = some move) :
      (Term.app part argument).step? supply = some (move.within fun part => .app part argument) ∧
        (Term.app move.result argument).isWeak = true := by
    have whole := Term.step?_stuckFunction stuck stepped
    exact ⟨whole, (Term.isWeak_step? stuck whole).1⟩
  exact ends.within lift stuck

theorem Ends.stuckArgument (normal : function.hasRedex = false)
    (stuck : (Term.app function argument).isWeak = true)
    (ends : Ends budget traced Term.step? argument run goal outcome) :
    Ends budget traced Term.step? (.app function argument) run
      (fun a whole => ∃ part, whole = .app function part ∧
        (Term.app function part).isWeak = true ∧ goal a part) outcome := by
  have lift {part : Term} {supply : NameSupply} {move : Move}
      (stuck : (Term.app function part).isWeak = true) (stepped : part.step? supply = some move) :
      (Term.app function part).step? supply = some (move.within fun part => .app function part) ∧
        (Term.app function move.result).isWeak = true := by
    have whole := Term.step?_stuckArgument stuck normal stepped
    exact ⟨whole, (Term.isWeak_step? stuck whole).1⟩
  exact ends.within lift stuck

end Contexts

/-! ## The explanation of an outcome -/

theorem stops_weakStep? {w u : Term} : Stops Term.weakStep? w u ↔ u = w ∧ w.isWeak = true := by
  simp [Stops, Term.weakStep?_eq_none_iff]

theorem stops_step? {w u : Term} : Stops Term.step? w u ↔ u = w ∧ w.hasRedex = false := by
  simp [Stops, Term.step?_eq_none_iff]

theorem contract_ends (settings : Settings) (depth : Nat) (p : Name) (body : Term) {argument : Term}
    (weak : argument.isWeak = true) (run : Run) :
    Ends settings.maxSteps settings.traced Term.weakStep? (.app (.abs p body) argument) run
      (fun contractum u => u = contractum) (contract settings depth p body argument run) := by
  have stepped := Term.weakStep?_redex p body run.names weak
  unfold contract
  dsimp only
  split
  · next spent =>
    refine ⟨[], _, .stay _ _, ?_, spent⟩
    rw [stepped]
    rfl
  · next afforded =>
    split
    · trivial
    · split
      · trivial
      · next result names replaced =>
        have walk : Walk settings.maxSteps settings.traced Term.weakStep? _ run _ _ _ :=
          .move stepped (Int.not_le.1 afforded) (.stay _ _)
        have contractum : (result, names) = Term.subst p argument body run.names :=
          Term.eq_subst_of_substWithin replaced
        simp only [Run.record, Move.contracting, ← contractum] at walk
        exact ⟨_, result, walk, rfl⟩

theorem contract_count {settings : Settings} {depth : Nat} {p : Name} {body argument result : Term}
    {run run' : Run} (contracted : contract settings depth p body argument run = .ok result run') :
    (run.count : Int) < settings.maxSteps ∧ run'.count = run.count + 1 := by
  unfold contract at contracted
  dsimp only at contracted
  split at contracted
  · cases contracted
  · next afforded =>
    split at contracted
    · cases contracted
    · split at contracted
      · cases contracted
      · cases contracted
        exact ⟨Int.not_le.1 afforded, rfl⟩

/-- One turn of the loop is explained if its parts are and if what follows a contraction is. -/
theorem reduceTurn_ends (settings : Settings) (depth : Nat) {part next : Term → Action Term}
    {t : Term} {run : Run}
    (partEnds : ∀ t run, Ends settings.maxSteps settings.traced Term.weakStep? t run
      (Stops Term.weakStep?) (part t run))
    (nextEnds : ∀ contractum run', run.count < run'.count → (run'.count : Int) ≤ settings.maxSteps →
      Ends settings.maxSteps settings.traced Term.weakStep? contractum run'
        (Stops Term.weakStep?) (next contractum run')) :
    Ends settings.maxSteps settings.traced Term.weakStep? t run (Stops Term.weakStep?)
      (reduceTurn settings depth part next t run) := by
  cases t with
  | var x => exact ⟨[], _, .stay _ _, rfl, fun _ => rfl⟩
  | abs p body => exact ⟨[], _, .stay _ _, rfl, fun _ => rfl⟩
  | app function argument =>
    unfold reduceTurn
    refine ((partEnds function run).weakFunction argument).bind ?_
    intro _ _ run₁ redexes₁ _ walk₁ inFunction
    obtain ⟨function, rfl, reached⟩ := inFunction
    obtain ⟨rfl, weakFunction⟩ := stops_weakStep?.1 reached
    refine ((partEnds argument run₁).weakArgument weakFunction).bind ?_
    intro _ _ run₂ redexes₂ _ walk₂ inArgument
    obtain ⟨argument, rfl, reached⟩ := inArgument
    obtain ⟨rfl, weakArgument⟩ := stops_weakStep?.1 reached
    have stuck : function.isAbs = false →
        Ends settings.maxSteps settings.traced Term.weakStep? (.app function argument) run₂
          (Stops Term.weakStep?) (.ok (.app function argument) run₂) := fun notAbs =>
      ⟨[], _, .stay _ _,
        stops_weakStep?.2 ⟨rfl, Term.isWeak_app.2 ⟨weakFunction, notAbs, weakArgument⟩⟩⟩
    cases function with
    | var x => exact stuck rfl
    | app function' argument' => exact stuck rfl
    | abs p body =>
      refine (contract_ends settings depth p body weakArgument run₂).bind ?_
      intro _ contractum run₃ redexes₃ contracted walk₃ same
      subst same
      obtain ⟨afforded, counted⟩ := contract_count contracted
      have count₁ := walk₁.count_eq
      have count₂ := walk₂.count_eq
      exact nextEnds contractum run₃ (by omega) (by omega)

/-- The loop counts the steps that are left from the state in which it was entered. The state may
have moved on since, but never back, so that none is left when the count is down to zero. -/
theorem reduceLoop_ends (settings : Settings) (depth : Nat) {part : Term → Action Term}
    (partEnds : ∀ t run, Ends settings.maxSteps settings.traced Term.weakStep? t run
      (Stops Term.weakStep?) (part t run))
    (left : Nat) (t : Term) (run : Run) (enough : settings.maxSteps - run.count ≤ left) :
    Ends settings.maxSteps settings.traced Term.weakStep? t run (Stops Term.weakStep?)
      (reduceLoop settings depth part left t run) := by
  induction left generalizing t run with
  | zero =>
    refine reduceTurn_ends settings depth partEnds fun contractum run' grown within => ?_
    omega
  | succ left ih =>
    refine reduceTurn_ends settings depth partEnds fun contractum run' grown within => ?_
    exact ih contractum run' (by omega)

theorem reduce_ends (settings : Settings) (depth : Nat) (t : Term) (run : Run) :
    Ends settings.maxSteps settings.traced Term.weakStep? t run (Stops Term.weakStep?)
      (reduce settings depth t run) := by
  induction depth generalizing t run with
  | zero => trivial
  | succ depth ih => exact reduceLoop_ends settings depth ih _ t run (Int.self_le_toNat _)

theorem normalize_ends (settings : Settings) (depth : Nat) (t : Term) (run : Run) :
    Ends settings.maxSteps settings.traced Term.step? t run (Stops Term.step?)
      (normalize settings depth t run) := by
  induction depth generalizing t run with
  | zero => trivial
  | succ depth ih =>
    unfold normalize
    refine (reduce_ends settings depth t run).ofWeak.bind ?_
    intro _ w run₁ redexes₁ _ walk₁ reached
    obtain ⟨rfl, weak⟩ := stops_weakStep?.1 reached
    cases w with
    | var x => exact ⟨[], _, .stay _ _, rfl, fun _ => rfl⟩
    | abs p body =>
      refine ((ih body run₁).inBody p).bind ?_
      intro _ _ run₂ redexes₂ _ walk₂ inBody
      obtain ⟨body, rfl, reached⟩ := inBody
      obtain ⟨rfl, normal⟩ := stops_step?.1 reached
      exact ⟨[], _, .stay _ _, stops_step?.2 ⟨rfl, normal⟩⟩
    | app function argument =>
      refine ((ih function run₁).stuckFunction weak).bind ?_
      intro _ _ run₂ redexes₂ _ walk₂ inFunction
      obtain ⟨function, rfl, stuck, reached⟩ := inFunction
      obtain ⟨rfl, normalFunction⟩ := stops_step?.1 reached
      refine ((ih argument run₂).stuckArgument normalFunction stuck).bind ?_
      intro _ _ run₃ redexes₃ _ walk₃ inArgument
      obtain ⟨argument, rfl, stuck, reached⟩ := inArgument
      obtain ⟨rfl, normalArgument⟩ := stops_step?.1 reached
      obtain ⟨-, notAbs, -⟩ := Term.isWeak_app.1 stuck
      refine ⟨[], _, .stay _ _, stops_step?.2 ⟨rfl, ?_⟩⟩
      simp [Term.hasRedex, notAbs, normalFunction, normalArgument]

/-! ## Whole evaluations -/

/-- The state after the result of an evaluation is recorded. -/
def Run.conclude (traced : Bool) (run : Run) (result : Term) : Run :=
  if traced then { run with steps := run.steps.push ⟨run.count, result.render⟩ } else run

@[simp] theorem count_conclude (traced : Bool) (run : Run) (result : Term) :
    (run.conclude traced result).count = run.count := by
  cases traced <;> rfl

theorem names_conclude (traced : Bool) (run : Run) (result : Term) :
    (run.conclude traced result).names = run.names := by
  cases traced <;> rfl

theorem evaluate_of_ok {settings : Settings} {t result : Term} {run : Run}
    (normalized : normalize settings settings.depth t {} = .ok result run) :
    evaluate settings t =
      if settings.traced && settings.depth < result.renderDepth then .error .tooDeep run
      else .ok result (run.conclude settings.traced result) := by
  unfold evaluate evaluateTerm
  rw [bind_of_ok normalized]
  cases traced : settings.traced with
  | false =>
    have recorded : recordResult settings result run = .ok () run := by
      simp [recordResult, traced]
    rw [bind_of_ok recorded]
    rfl
  | true =>
    by_cases deep : settings.depth < result.renderDepth
    · have refused : recordResult settings result run = .error .tooDeep run := by
        simp [recordResult, traced, deep]
      rw [bind_of_error refused]
      simp [deep]
    · have recorded : recordResult settings result run = .ok () (run.conclude true result) := by
        simp [recordResult, traced, deep, Run.conclude]
      rw [bind_of_ok recorded]
      simp only [deep, decide_false, Bool.and_false, Bool.false_eq_true, ↓reduceIte]
      rfl

theorem evaluate_of_error {settings : Settings} {t : Term} {halt : Halt} {run : Run}
    (halted : normalize settings settings.depth t {} = .error halt run) :
    evaluate settings t = .error halt run := by
  unfold evaluate evaluateTerm
  exact bind_of_error halted _

/-- A result comes at the end of a walk and holds no redex. -/
theorem evaluate_ok {settings : Settings} {t result : Term} {run' : Run}
    (done : evaluate settings t = .ok result run') :
    ∃ redexes run, Walk settings.maxSteps settings.traced Term.step? t {} redexes result run ∧
      result.hasRedex = false ∧ run' = run.conclude settings.traced result := by
  have ends := normalize_ends settings settings.depth t {}
  rcases outcome : normalize settings settings.depth t {} with ⟨r, run⟩ | ⟨halt, run⟩
  · rw [outcome] at ends
    obtain ⟨redexes, u, walk, reached⟩ := ends
    obtain ⟨rfl, normal⟩ := stops_step?.1 reached
    rw [evaluate_of_ok outcome] at done
    split at done
    · cases done
    · cases done
      exact ⟨redexes, run, walk, normal, rfl⟩
  · rw [evaluate_of_error outcome] at done
    cases done

/-- The step limit is met at the end of a walk, on a term that has a redex left. -/
theorem evaluate_limit {settings : Settings} {t : Term} {run : Run}
    (halted : evaluate settings t = .error .stepLimit run) :
    ∃ redexes u, Walk settings.maxSteps settings.traced Term.step? t {} redexes u run ∧
      u.hasRedex = true ∧ settings.maxSteps ≤ run.count := by
  have ends := normalize_ends settings settings.depth t {}
  rcases outcome : normalize settings settings.depth t {} with ⟨r, last⟩ | ⟨halt, last⟩
  · rw [evaluate_of_ok outcome] at halted
    split at halted
    · cases halted
    · cases halted
  · rw [evaluate_of_error outcome] at halted
    cases halted
    rw [outcome] at ends
    obtain ⟨redexes, u, walk, unfinished, spent⟩ := ends
    obtain ⟨move, stepped⟩ := Option.isSome_iff_exists.1 unfinished
    exact ⟨redexes, u, walk, Term.hasRedex_of_step? stepped, spent⟩

/-- With enough nested calls an evaluation walks until it halts: on its result, or at the limit on a
term that has a redex left. -/
theorem evaluate_halts {settings : Settings} {t : Term} (settled : Settled (evaluate settings t)) :
    ∃ redexes u run, Walk settings.maxSteps settings.traced Term.step? t {} redexes u run ∧
      Halted settings.maxSteps Term.step? u run ∧
      ((u.hasRedex = false ∧ evaluate settings t = .ok u (run.conclude settings.traced u)) ∨
        (u.hasRedex = true ∧ evaluate settings t = .error .stepLimit run)) := by
  rcases outcome : evaluate settings t with ⟨result, run'⟩ | ⟨_ | _, run⟩
  · obtain ⟨redexes, run, walk, normal, rfl⟩ := evaluate_ok outcome
    have stuck := (Term.step?_eq_none_iff result run.names).2 normal
    exact ⟨redexes, result, run, walk, Or.inl stuck, Or.inl ⟨normal, rfl⟩⟩
  · obtain ⟨redexes, u, walk, unfinished, spent⟩ := evaluate_limit outcome
    exact ⟨redexes, u, run, walk, Or.inr spent, Or.inr ⟨unfinished, rfl⟩⟩
  · rw [outcome] at settled
    cases settled

end Redex.Eval
