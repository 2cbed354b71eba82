import Redex.Proofs.Evaluation
import Redex.Proofs.Soundness

/-!
# Evaluations in step

The order in which redexes are contracted does not depend on bound names: `Nameless.step?` is the
same strategy on nameless forms, and from a supply that covers the term a step of the one is a step
of the other (`step?_nameless`).

An evaluation that takes only such steps is `Faithful`. Two evaluations of terms that differ in
bound names only are in step if after every number of steps their terms still do (`InStep`). When
one of them is faithful the other one is in step with it exactly if it is faithful too
(`inStep_iff_faithful`), and then both come out alike (`agree_of_inStep`).
-/

namespace Redex

namespace Nameless

def isAbs : Nameless → Bool
  | abs _ => true
  | _ => false

def hasRedex : Nameless → Bool
  | free _ => false
  | bound _ => false
  | abs body => body.hasRedex
  | app function argument => function.isAbs || function.hasRedex || argument.hasRedex

def isWeak : Nameless → Bool
  | free _ => true
  | bound _ => true
  | abs _ => true
  | app function argument => function.isWeak && !function.isAbs && argument.isWeak

/-- The contraction of a whole application, if its function is an abstraction. -/
def contraction? : Nameless → Nameless → Option Nameless
  | abs body, argument => some (body.instantiate 0 argument)
  | _, _ => none

/-- The step that brings a form closer to a weak one. -/
def weakStep? : Nameless → Option Nameless
  | free _ => none
  | bound _ => none
  | abs _ => none
  | app function argument =>
    if !function.isWeak then function.weakStep?.map fun function => app function argument
    else if !argument.isWeak then argument.weakStep?.map fun argument => app function argument
    else contraction? function argument

/-- The step that brings a form closer to its normal form. -/
def step? : Nameless → Option Nameless
  | free _ => none
  | bound _ => none
  | abs body => body.step?.map abs
  | app function argument =>
    if !(app function argument).isWeak then (app function argument).weakStep?
    else if function.hasRedex then function.step?.map fun function => app function argument
    else argument.step?.map fun argument => app function argument

end Nameless

namespace Term

/-! ## The strategy on nameless forms -/

theorem isAbs_namelessUnder (t : Term) (binders : List Name) :
    (t.namelessUnder binders).isAbs = t.isAbs := by
  cases t with
  | var x =>
    unfold namelessUnder Nameless.resolve
    split <;> rfl
  | abs p body => rfl
  | app function argument => rfl

theorem hasRedex_namelessUnder (t : Term) (binders : List Name) :
    (t.namelessUnder binders).hasRedex = t.hasRedex := by
  induction t generalizing binders with
  | var x =>
    unfold namelessUnder Nameless.resolve
    split <;> rfl
  | abs p body ih => exact ih (p :: binders)
  | app function argument ihf iha =>
    simp only [namelessUnder, Nameless.hasRedex, hasRedex, isAbs_namelessUnder, ihf, iha]

theorem isWeak_namelessUnder (t : Term) (binders : List Name) :
    (t.namelessUnder binders).isWeak = t.isWeak := by
  induction t generalizing binders with
  | var x =>
    unfold namelessUnder Nameless.resolve
    split <;> rfl
  | abs p body _ => rfl
  | app function argument ihf iha =>
    simp only [namelessUnder, Nameless.isWeak, isWeak, isAbs_namelessUnder, ihf, iha]

theorem contraction?_namelessUnder {function argument : Term} {supply : NameSupply}
    (covers : supply.Covers (app function argument)) (binders : List Name) :
    Nameless.contraction? (function.namelessUnder binders) (argument.namelessUnder binders) =
      (contraction? function argument supply).map fun move =>
        move.result.namelessUnder binders := by
  cases function with
  | var x =>
    simp only [namelessUnder, contraction?, Option.map_none]
    unfold Nameless.resolve
    split <;> rfl
  | abs p body =>
    simp only [contraction?, Option.map_some, Move.contracting, namelessUnder_subst covers]
    rfl
  | app function' argument' => rfl

theorem weakStep?_namelessUnder {t : Term} {supply : NameSupply} (covers : supply.Covers t)
    (binders : List Name) :
    (t.namelessUnder binders).weakStep? =
      (t.weakStep? supply).map fun move => move.result.namelessUnder binders := by
  induction t with
  | var x =>
    unfold namelessUnder Nameless.resolve
    split <;> rfl
  | abs p body _ => rfl
  | app function argument ihf iha =>
    have contracted := contraction?_namelessUnder covers binders
    obtain ⟨inFunction, inArgument⟩ := NameSupply.covers_app.1 covers
    simp only [namelessUnder, Nameless.weakStep?, weakStep?, isWeak_namelessUnder]
    split
    · rw [ihf inFunction, Option.map_map, Option.map_map]
      rfl
    · split
      · rw [iha inArgument, Option.map_map, Option.map_map]
        rfl
      · exact contracted

theorem step?_namelessUnder {t : Term} {supply : NameSupply} (covers : supply.Covers t)
    (binders : List Name) :
    (t.namelessUnder binders).step? =
      (t.step? supply).map fun move => move.result.namelessUnder binders := by
  induction t generalizing binders with
  | var x =>
    unfold namelessUnder Nameless.resolve
    split <;> rfl
  | abs p body ih =>
    simp only [namelessUnder, Nameless.step?, step?]
    rw [ih (NameSupply.covers_abs.1 covers).2, Option.map_map, Option.map_map]
    rfl
  | app function argument ihf iha =>
    have weakly := weakStep?_namelessUnder covers binders
    have weak := isWeak_namelessUnder (app function argument) binders
    obtain ⟨inFunction, inArgument⟩ := NameSupply.covers_app.1 covers
    simp only [namelessUnder] at weakly weak
    simp only [namelessUnder, Nameless.step?, step?, weak, hasRedex_namelessUnder]
    split
    · exact weakly
    · split
      · rw [ihf inFunction, Option.map_map, Option.map_map]
        rfl
      · rw [iha inArgument, Option.map_map, Option.map_map]
        rfl

/-- From a supply that covers the term, a step is a step of the nameless form. -/
theorem step?_nameless {t : Term} {supply : NameSupply} (covers : supply.Covers t) :
    t.nameless.step? = (t.step? supply).map fun move => move.result.nameless :=
  step?_namelessUnder covers []

theorem hasRedex_congr {t u : Term} (same : t.alphaEq u = true) : t.hasRedex = u.hasRedex := by
  rw [alphaEq_iff] at same
  rw [← hasRedex_namelessUnder t [], ← hasRedex_namelessUnder u []]
  exact congrArg Nameless.hasRedex same

theorem exists_step? {t : Term} (unfinished : t.hasRedex = true) (supply : NameSupply) :
    ∃ move, t.step? supply = some move := by
  cases stepped : t.step? supply with
  | none =>
    rw [(step?_eq_none_iff t supply).1 stepped] at unfinished
    cases unfinished
  | some move => exact ⟨move, rfl⟩

end Term

namespace Eval

/-! ## Faithful evaluations -/

/-- Every step that the budget allows is a step of the nameless form. -/
def Faithful (budget : Int) (traced : Bool) (t : Term) (run : Run) : Prop :=
  ∀ redexes u run' move, Walk budget traced Term.step? t run redexes u run' →
    (run'.count : Int) < budget → u.step? run'.names = some move →
    u.nameless.step? = some move.result.nameless

/-- After every number of steps of the first evaluation the second one has taken as many, and their
terms differ in bound names only. -/
def InStep (budget : Int) (traced : Bool) (t : Term) (run : Run) (t' : Term) (run' : Run) : Prop :=
  ∀ redexes u last, Walk budget traced Term.step? t run redexes u last →
    ∃ redexes' u' last', Walk budget traced Term.step? t' run' redexes' u' last' ∧
      redexes'.length = redexes.length ∧ u.alphaEq u' = true

section Faithful

variable {budget : Int} {traced : Bool} {t t' : Term} {run run' : Run}

theorem faithful_of_covers (covers : run.names.Covers t) : Faithful budget traced t run := by
  intro redexes u run' move walk _ stepped
  rw [Term.step?_nameless (walk.covers covers), stepped]
  rfl

theorem Faithful.after {move : Move} (faithful : Faithful budget traced t run)
    (stepped : t.step? run.names = some move) (afforded : (run.count : Int) < budget) :
    Faithful budget traced move.result (run.record traced move) := by
  intro redexes u run' next walk
  exact faithful _ u run' next (.move stepped afforded walk)

theorem inStep_of_faithful (faithful : Faithful budget traced t run)
    (faithful' : Faithful budget traced t' run') (same : t.alphaEq t' = true)
    (counts : run.count = run'.count) : InStep budget traced t run t' run' := by
  intro redexes u last walk
  induction walk generalizing t' run' with
  | stay t run => exact ⟨[], t', run', .stay t' run', rfl, same⟩
  | @move t u run last redexes move stepped afforded rest ih =>
    have unfinished := Term.hasRedex_of_step? stepped
    rw [Term.hasRedex_congr same] at unfinished
    obtain ⟨move', stepped'⟩ := Term.exists_step? unfinished run'.names
    have afforded' : (run'.count : Int) < budget := by omega
    have form := faithful [] t run move (.stay t run) afforded stepped
    have form' := faithful' [] t' run' move' (.stay t' run') afforded' stepped'
    have sameAfter : move.result.alphaEq move'.result = true := by
      rw [Term.alphaEq_iff] at same ⊢
      rw [same, form', Option.some.injEq] at form
      exact form.symm
    have countsAfter : (run.record traced move).count = (run'.record traced move').count := by
      simp only [Run.record, counts]
    obtain ⟨redexes', u', last', walk', length, sameLast⟩ :=
      ih (faithful.after stepped afforded) (faithful'.after stepped' afforded') sameAfter
        countsAfter
    refine ⟨_, u', last', .move stepped' afforded' walk', ?_, sameLast⟩
    simp only [List.length_cons, length]

theorem faithful_of_inStep (faithful' : Faithful budget traced t' run')
    (inStep : InStep budget traced t run t' run') : Faithful budget traced t run := by
  intro redexes u last move walk afforded stepped
  obtain ⟨redexes', u', last', walk', length, same⟩ := inStep _ u last walk
  -- One step later the other evaluation has taken one step more, from the same point.
  obtain ⟨_, v', later', longer', length', sameAfter⟩ :=
    inStep _ _ _ (walk.trans (.move stepped afforded (.stay _ _)))
  obtain ⟨rest, rfl, continued⟩ := walk'.split longer' (by simp [length, length'])
  simp only [List.length_append, length, List.length_singleton, Nat.add_left_cancel_iff] at length'
  cases continued with
  | stay => cases length'
  | move stepped' afforded' tail =>
    simp only [List.length_cons, Nat.add_eq_right, List.length_eq_zero_iff] at length'
    subst length'
    cases tail
    rw [Term.alphaEq_iff] at same sameAfter
    rw [same, sameAfter]
    exact faithful' _ u' last' _ walk' afforded' stepped'

/-- Next to a faithful evaluation, to be faithful is to stay in step. -/
theorem inStep_iff_faithful (faithful' : Faithful budget traced t' run')
    (same : t.alphaEq t' = true) (counts : run.count = run'.count) :
    InStep budget traced t run t' run' ↔ Faithful budget traced t run :=
  ⟨faithful_of_inStep faithful', fun faithful =>
    inStep_of_faithful faithful faithful' same counts⟩

end Faithful

/-! ## Outcomes -/

/-- Two outcomes are alike: results that differ in bound names only, or the step limit twice. -/
inductive Agree : EStateM.Result Halt Run Term → EStateM.Result Halt Run Term → Prop
  | results {result result' : Term} (run run' : Run) :
    result.alphaEq result' = true → Agree (.ok result run) (.ok result' run')
  | limits (run run' : Run) : Agree (.error .stepLimit run) (.error .stepLimit run')

/-- Two evaluations in step halt together: after as many steps, on terms that differ in bound names
only, and both with a result or both at the limit. -/
theorem halts_of_inStep {settings : Settings} {t t' : Term}
    (inStep : InStep settings.maxSteps settings.traced t {} t' {})
    (settled : Settled (evaluate settings t)) (settled' : Settled (evaluate settings t')) :
    ∃ redexes redexes' u u' run run',
      Walk settings.maxSteps settings.traced Term.step? t {} redexes u run ∧
      Walk settings.maxSteps settings.traced Term.step? t' {} redexes' u' run' ∧
      redexes'.length = redexes.length ∧ u.alphaEq u' = true ∧
      ((evaluate settings t = .ok u (run.conclude settings.traced u) ∧
          evaluate settings t' = .ok u' (run'.conclude settings.traced u')) ∨
        (evaluate settings t = .error .stepLimit run ∧
          evaluate settings t' = .error .stepLimit run')) := by
  obtain ⟨redexes, u, run, walk, halted, outcome⟩ := evaluate_halts settled
  obtain ⟨redexes', u', run', walk', halted', outcome'⟩ := evaluate_halts settled'
  obtain ⟨redexes'', v, last, inTime, length, same⟩ := inStep redexes u run walk
  -- The second evaluation halts where it is in step with the end of the first.
  have stopped : Halted settings.maxSteps Term.step? v last := by
    rcases halted with stuck | spent
    · rw [Term.step?_eq_none_iff, Term.hasRedex_congr same] at stuck
      exact Or.inl ((Term.step?_eq_none_iff v last.names).2 stuck)
    · have count := walk.count_eq
      have count' := inTime.count_eq
      exact Or.inr (by omega)
  obtain ⟨rfl, rfl, rfl⟩ := walk'.unique inTime halted' stopped
  have redex := Term.hasRedex_congr same
  refine ⟨redexes, redexes', u, u', run, run', walk, walk', length, same, ?_⟩
  rcases outcome with ⟨normal, ended⟩ | ⟨unfinished, ended⟩ <;>
    rcases outcome' with ⟨normal', ended'⟩ | ⟨unfinished', ended'⟩
  · exact Or.inl ⟨ended, ended'⟩
  · rw [normal, unfinished'] at redex
    cases redex
  · rw [unfinished, normal'] at redex
    cases redex
  · exact Or.inr ⟨ended, ended'⟩

theorem agree_of_inStep {settings : Settings} {t t' : Term}
    (inStep : InStep settings.maxSteps settings.traced t {} t' {})
    (settled : Settled (evaluate settings t)) (settled' : Settled (evaluate settings t')) :
    Agree (evaluate settings t) (evaluate settings t') := by
  obtain ⟨-, -, u, u', run, run', -, -, -, same, ends⟩ := halts_of_inStep inStep settled settled'
  rcases ends with ⟨ended, ended'⟩ | ⟨ended, ended'⟩
  · rw [ended, ended']
    exact .results _ _ same
  · rw [ended, ended']
    exact .limits _ _

end Eval

end Redex
