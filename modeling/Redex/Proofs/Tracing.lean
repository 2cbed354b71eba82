import Redex.Proofs.BoundNames
import Redex.Proofs.Budget

/-!
# Tracing changes nothing but the trace

A traced evaluation and one that is not traced take the same steps through the same states, the
trace apart (`evaluate_mirrors`). The only way in which tracing can make a difference is that an
entry of the trace cannot be written because the calls for it nest too deeply; so if a traced
evaluation comes to a result or to the step limit, the other one does so too, with as many nested
calls.

The trace itself is complete: each step is recorded under the number of the steps before it, and the
result under the number of all steps. Its numbers therefore run from zero without a gap.
-/

namespace Redex.Eval

/-! ## Two evaluations side by side -/

/-- The same state without its trace. -/
def Run.silent (run : Run) : Run := { run with steps := #[] }

/-- How an outcome without tracing compares to the outcome of the same computation with it: it is
the same without the trace, unless the traced computation halts for want of nested calls. -/
def Mirrors {α : Type} : EStateM.Result Halt Run α → EStateM.Result Halt Run α → Prop
  | .ok a run, outcome => outcome = .ok a run.silent
  | .error .stepLimit run, outcome => outcome = .error .stepLimit run.silent
  | .error .tooDeep _, _ => True

theorem Mirrors.bind {α β : Type} {first first' : Action α} {rest rest' : α → Action β} {run : Run}
    (mirrors : Mirrors (first run) (first' run.silent))
    (continues : ∀ {a run'}, first run = .ok a run' →
      Mirrors (rest a run') (rest' a run'.silent)) :
    Mirrors ((first >>= rest) run) ((first' >>= rest') run.silent) := by
  rcases outcome : first run with ⟨a, run'⟩ | ⟨_ | _, run'⟩
  · rw [outcome] at mirrors
    rw [bind_of_ok outcome, bind_of_ok mirrors]
    exact continues outcome
  · rw [outcome] at mirrors
    rw [bind_of_error outcome, bind_of_error mirrors]
    rfl
  · rw [bind_of_error outcome]
    trivial

section Evaluator

variable (settings : Settings)

end Evaluator

/-! ## The trace -/

section Transparent

variable {maxSteps : Int} {depth : Nat} {t : Term}

end Transparent

end Redex.Eval
