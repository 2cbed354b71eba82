import Redex.Eval.Normalize
import Redex.Failure
import Redex.Parser
import Redex.Term.Numeral

/-!
# Evaluating terms and texts

The entry points of the calculus: `interpret` evaluates a term or says why it cannot,
`interpretUncounted` does so when the step limit is no number, `interpretText` reads the term from a
text first, and `attempt` does the same but turns the errors that a text can cause into an
`Outcome`. An `Evaluator` evaluates terms one after the other and keeps the trace of the last one,
whether it came to an end or not.
-/

namespace Redex

/-- A result with the trace that led to it. -/
structure Evaluation where
  result : Term
  steps : Array Step
deriving DecidableEq, Repr

/-- Evaluates a term. -/
def interpret (settings : Eval.Settings) (t : Term) : Except Failure Evaluation :=
  match Eval.evaluate settings t with
  | .ok result run => .ok ⟨result, run.steps⟩
  | .error halt run => .error (.ofHalt settings.maxSteps run halt)

/-- Evaluates a term under a limit that is no number. A term that needs no step comes out as it
would under any limit; the first step has nothing to be compared with and is a fault. -/
def interpretUncounted (settings : Eval.Settings) (t : Term) : Except Failure Evaluation :=
  match Eval.evaluate { settings with maxSteps := 0 } t with
  | .ok result run => .ok ⟨result, run.steps⟩
  | .error .stepLimit _ => .error (.internal .limitNotANumber)
  | .error .tooDeep _ => .error .tooDeep

/-- Reads a term from a text. -/
def readTerm (depth : Nat) (source : String) : Except Failure Term :=
  (parse depth source).mapError Failure.ofSyntaxError

/-- Reads a term from a text and evaluates it. -/
def interpretText (settings : Eval.Settings) (source : String) : Except Failure Evaluation := do
  interpret settings (← readTerm settings.depth source)

/-! ## Attempts -/

/-- What came of a text: a result, or the report of the error that prevented one. The trace is there
in both cases. -/
structure Outcome where
  result : Option Term := none
  steps : Array Step := #[]
  error : Option Report := none

namespace Outcome

/-- The word for an outcome. -/
def status (outcome : Outcome) : String := if outcome.error.isSome then "error" else "ok"

/-- The error in one line; empty if there is none. -/
def errorLine (outcome : Outcome) : String :=
  match outcome.error with
  | none => ""
  | some report => "error: " ++ report.message.text

end Outcome

/-- The trace that a report carries. -/
def Report.steps (report : Report) : Array Step :=
  match report.kind with
  | .stepLimit _ steps => steps
  | _ => #[]

/-- Evaluates a text and keeps its errors as part of the outcome. -/
def attempt (settings : Eval.Settings) (source : String) : Except Failure Outcome :=
  match interpretText settings source with
  | .ok evaluation => .ok { result := some evaluation.result, steps := evaluation.steps }
  | .error (.reported report) => .ok { steps := report.steps, error := some report }
  | .error failure => .error failure

/-! ## Evaluators -/

/-- Evaluates terms one after the other. -/
structure Evaluator where
  settings : Eval.Settings := {}
  /-- The trace of the last evaluation. -/
  steps : Array Step := #[]

/-- Evaluates a term, traced as asked for or else as the settings say. -/
def Evaluator.evaluate (t : Term) (traced : Option Bool) : EStateM Failure Evaluator Term :=
  fun evaluator =>
    let settings := { evaluator.settings with traced := traced.getD evaluator.settings.traced }
    match Eval.evaluate settings t with
    | .ok result run => .ok result { evaluator with steps := run.steps }
    | .error halt run =>
      .error (.ofHalt settings.maxSteps run halt) { evaluator with steps := run.steps }

/-! ## Written results -/

/-- The text form of a term, if writing it does not nest too deeply. -/
def Term.renderWithin (depth : Nat) (t : Term) : Except Failure String :=
  if depth < t.renderDepth then .error .tooDeep else .ok t.render

/-- The text form of a term with a comment that gives the number it stands for, if any. -/
def Term.annotated (t : Term) : String :=
  match t.number? with
  | none => t.render
  | some n => t.render ++ "  ;; " ++ toString n

/-- The annotated form of a term, if writing it does not nest too deeply. -/
def Term.annotatedWithin (depth : Nat) (t : Term) : Except Failure String :=
  if depth < t.renderDepth then .error .tooDeep else .ok t.annotated

end Redex
