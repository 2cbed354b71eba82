import Redex.Term.Render
import Redex.Term.Subst

/-!
# The state of an evaluation

An evaluation draws fresh names, counts its β-steps and, if it is traced, records the redex of each
step before it is contracted. All of this is one `Run`, which outlives the evaluation however it
ends: with a term, at the step limit, or because its calls nest too deeply.
-/

namespace Redex

/-- An entry of a trace: how many steps came before, and the text of the term at that point. An
entry that is handed in from outside may carry any number. -/
structure Step where
  index : Int
  text : String
deriving DecidableEq, Repr

namespace Eval

/-- What an evaluation is held to. -/
structure Settings where
  /-- The number of β-steps that are allowed; a negative number allows none, like zero. -/
  maxSteps : Int := 1000
  /-- Whether steps are recorded. -/
  traced : Bool := false
  /-- The number of calls that may be nested. -/
  depth : Nat := 1000
deriving DecidableEq, Repr

/-- Why an evaluation stops without a result. -/
inductive Halt where
  | stepLimit
  | tooDeep
deriving DecidableEq, Repr

/-- The state of one evaluation. -/
structure Run where
  names : NameSupply := {}
  count : Nat := 0
  steps : Array Step := #[]
deriving DecidableEq, Repr

/-- Computations inside one evaluation; the run outlives a halt. -/
abbrev Action := EStateM Halt Run

/-- Contracts the redex `(λp. body) argument`: one β-step. The limit is tested first, then the redex
is recorded, and only then is the argument substituted. -/
def contract (settings : Settings) (depth : Nat) (p : Name) (body argument : Term) : Action Term :=
  fun run =>
    let redex := Term.app (.abs p body) argument
    if settings.maxSteps ≤ run.count then .error .stepLimit run
    else if settings.traced && depth < redex.renderDepth then .error .tooDeep run
    else
      let steps :=
        if settings.traced then run.steps.push ⟨run.count, redex.render⟩ else run.steps
      let run := { run with count := run.count + 1, steps := steps }
      match Term.substWithin depth p argument body run.names with
      | none => .error .tooDeep run
      | some (result, names) => .ok result { run with names := names }

end Eval

end Redex
