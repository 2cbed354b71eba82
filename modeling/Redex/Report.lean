import Redex.Eval.Run
import Redex.SyntaxError
import Redex.Text.Slice
import Redex.Text.Template

/-!
# Reports

A report is what the program says about an error or a warning: a message, the text that it is
about, and the span of that text that is to blame. `Draft` is a report before its message is put
together, with a default for everything but the template.
-/

namespace Redex

/-- What a report is about. -/
inductive Report.Kind where
  /-- Anything without a kind of its own. -/
  | general
  /-- A text that is not a term. -/
  | malformed
  /-- An evaluation that ran into its step limit, with the trace up to there. -/
  | stepLimit (maxSteps : Int) (steps : Array Step)
deriving DecidableEq, Repr

/-- An error or a warning. -/
structure Report where
  kind : Report.Kind := .general
  message : Text.Message
  /-- The arguments that the message was made from, whether it shows them or not. -/
  args : List String := message.arguments
  /-- The text that the report is about. -/
  source : String := args.headD ""
  /-- Where the span to blame starts. -/
  start : Int := 0
  /-- Where the span to blame ends. -/
  stop : Int := source.length
  /-- Whether the span may be shown under the message. -/
  diagnosed : Bool := true
  /-- Whether the program itself is to blame. -/
  internal : Bool := false
deriving DecidableEq, Repr

namespace Report

/-! ## Diagnosis -/

/-- The end of the span that is shown, which holds one column at least. -/
def shownStop (report : Report) : Int := max report.stop (report.start + 1)

/-- The number of columns that are shown behind the first one of the span. -/
def tailLength (report : Report) : Int := report.shownStop - report.start - 1

/-- The source of a report with the span to blame in a colour, and a line of carets under it. -/
def diagnosis (style : Text.Style) (colour : Text.Colour) (report : Report) : String :=
  let stop := report.shownStop
  let carets := "^" ++ Text.repeated report.tailLength '~'
  "  " ++ Text.before report.source report.start ++
    style.paint colour (Text.slice report.source report.start stop) ++
    Text.after report.source stop ++ "\n" ++
    "  " ++ Text.repeated report.start ' ' ++ style.paint colour carets

/-- What is wrong with a row of characters under the source, if anything. There is always room for a
row that is no longer than the source itself. -/
def rowFault? (report : Report) (room : Nat) (count : Int) : Option Text.RepeatFault :=
  if 0 ≤ count ∧ count ≤ report.source.length then none else Text.repeatFault? room count

/-- Why a diagnosis cannot be made, if so: the blanks in front of the caret are too many, or the
columns behind it. -/
def diagnosisFault? (report : Report) (room : Nat) : Option Text.RepeatFault :=
  (report.rowFault? room report.start).or (report.rowFault? room report.tailLength)

/-- The diagnosis of a report, if there is room for it: `room` is the length of the longest row that
can be made, unless the source is longer. -/
def diagnose (style : Text.Style) (colour : Text.Colour) (report : Report)
    (room : Nat := Text.usualRoom) : Except Text.RepeatFault String :=
  match report.diagnosisFault? room with
  | some fault => .error fault
  | none => .ok (report.diagnosis style colour)

/-- Whether the diagnosis is shown under the message. -/
def showsDiagnosis (report : Report) : Bool :=
  !report.internal && !report.source.isEmpty && report.diagnosed

/-! ## Drafts -/

/-- A report whose message is still a template. -/
structure Draft where
  kind : Kind := .general
  template : String
  args : List String := []
  /-- The text that the report is about; the first argument if there is none. -/
  source : Option String := none
  start : Int := 0
  /-- The end of the span; `-1` stands for the end of the text. -/
  stop : Int := -1
  diagnosed : Bool := true
  internal : Bool := false

/-- Puts the message of a draft together. -/
def Draft.report (draft : Draft) : Except Text.Template.Fault Report := do
  let message ← Text.Template.fill draft.template draft.args
  let source := draft.source.getD (draft.args.headD "")
  return {
    kind := draft.kind
    message := message
    args := draft.args
    source := source
    start := draft.start
    stop := if draft.stop = -1 then source.length else draft.stop
    diagnosed := draft.diagnosed
    internal := draft.internal }

/-! ## The program's own reports -/

/-- An evaluation that needs more steps than it may take. -/
def ofStepLimit (maxSteps : Int) (steps : Array Step) (source : Option String) : Report :=
  let limit := toString maxSteps
  { kind := .stepLimit maxSteps steps
    message := [.words "Evaluation exceeded ", .argument limit, .words " steps"]
    source := source.getD limit
    diagnosed := false }

end Report

/-- The message of a syntax error. -/
def SyntaxError.Cause.message : SyntaxError.Cause → Text.Message
  | unexpectedCharacter c => [.words "Unexpected character: ", .argument (String.singleton c)]
  | expectedToken kind => [.words "Expected token: ", .argument kind.label]
  | expectedAtom => [.words "Expected atom"]
  | nestedTooDeeply => [.words "Term is nested too deeply"]

/-- The report of a syntax error. It is shown in the text unless the nesting is too deep. -/
def SyntaxError.report (error : SyntaxError) : Report :=
  { kind := .malformed
    message := error.cause.message
    source := error.source
    start := error.column
    stop := error.stop
    diagnosed := error.cause ≠ .nestedTooDeeply }

end Redex
