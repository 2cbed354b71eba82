import Redex.Interpreter

/-!
# The console

The console is where everything is printed. It knows which line of which file is being worked on
and puts that place in front of an error or a warning. A failure that reaches the console is
reported; if the console is fatal the program then exits, and otherwise all places are forgotten and
the program goes on.
-/

namespace Redex

/-! ## Places -/

/-- The line of a file that is being worked on, if any, with its number. -/
structure Place where
  path : String
  line : Option String := none
  number : Option Int := none
deriving DecidableEq, Repr

namespace Place

/-- The number of a place in print. -/
def numberText (place : Place) : String :=
  match place.number with
  | some number => toString number
  | none => "None"

/-- The place in front of a message. -/
def location (place : Place) : String := place.path ++ ":" ++ place.numberText ++ ": "

/-- The two lines on a place in a traceback. -/
def traced (place : Place) : String :=
  "  File '" ++ place.path ++ "', line " ++ place.numberText ++ ":\n" ++
    "    " ++ place.line.getD "" ++ "\n"

/-- Whether a line of some length is being worked on. -/
def isActive (place : Place) : Bool := place.line.any (!·.isEmpty)

end Place

/-- The places of all files, in the order in which the files were first named. -/
abbrev Traceback := List Place

namespace Traceback

/-- Sets the place of a file; a file that was named before keeps its rank. -/
def put (place : Place) : Traceback → Traceback
  | [] => [place]
  | other :: places =>
    if other.path = place.path then place :: places else other :: put place places

/-- The last place where a line is being worked on, as it stands in front of a message. -/
def location (places : Traceback) : String :=
  match places.reverse.find? (·.line.isSome) with
  | some place => place.location
  | none => ""

/-- What stands in front of an error: the place, or all of them if there is more than one. -/
def heading (style : Text.Style) (places : Traceback) : String :=
  let active := places.filter Place.isActive
  if 1 < active.length then "Traceback:\n" ++ String.join (active.map Place.traced)
  else style.bold places.location

/-- Forgets all lines. -/
def cleared (places : Traceback) : Traceback := places.map fun place => { path := place.path }

end Traceback

/-! ## Printing -/

/-- The state of the console. -/
structure Console where
  style : Text.Style := .plain
  /-- Whether an error ends the program. -/
  fatal : Bool := true
  places : Traceback := []
  /-- The length of the longest row of characters that there is room for in a diagnosis. -/
  room : Nat := Text.usualRoom
  /-- Everything that was printed. -/
  printed : String := ""

/-- An entry of a trace as it is shown. -/
def Step.shown (style : Text.Style) (step : Step) : String :=
  style.paint .cyan ("Step " ++ toString step.index ++ ":") ++ " " ++ step.text

namespace Console

/-- Prints a text. -/
def print (text : String) (console : Console) : Console :=
  { console with printed := console.printed ++ text }

/-- Prints a line. -/
def printLine (text : String) (console : Console) : Console := console.print (text ++ "\n")

/-- Names a file, at no line. -/
def enterFile (path : String) (console : Console) : Console :=
  { console with places := console.places.put { path := path } }

/-- Starts work on a line of a file. -/
def enterLine (path : String) (line : Option String) (number : Option Int) (console : Console) :
    Console :=
  { console with places := console.places.put ⟨path, line, number⟩ }

/-- Ends work on a line of a file. -/
def leaveLine (path : String) (console : Console) : Console := console.enterFile path

/-- Prints an entry of a trace. -/
def printStep (console : Console) (step : Step) : Console :=
  console.printLine (step.shown console.style)

/-- Actions of the console; what was printed outlives a failure. -/
abbrev Action := EStateM Failure Console

/-- Prints the diagnosis of a report, if it is to be shown. -/
def printDiagnosis (colour : Text.Colour) (report : Report) : Action Unit := fun console =>
  if report.showsDiagnosis then
    match report.diagnose console.style colour console.room with
    | .ok text => .ok () (console.printLine text)
    | .error fault => .error (.internal (.repetition fault)) console
  else .ok () console

/-- The line that announces a warning. -/
def warningLine (report : Report) (console : Console) : String :=
  let style := console.style
  style.bold console.places.location ++ style.paint .magenta "warning: " ++
    report.message.shown style

/-- Prints a warning and its diagnosis. -/
def warn (report : Report) : Action Unit := do
  modify fun console => console.printLine (console.warningLine report)
  printDiagnosis .magenta report

/-- The line that announces an error. -/
def errorLine (report : Report) (console : Console) : String :=
  let style := console.style
  let mark := if report.internal then style.paint .red "[internal] " else ""
  console.places.heading style ++ mark ++ style.paint .red "error: " ++ report.message.shown style

/-- Reports an error: first the trace that it carries, then the error and its diagnosis. -/
def announce (report : Report) : Action Unit := do
  modify fun console =>
    (report.steps.foldl printStep console).printLine (console.errorLine report)
  printDiagnosis .red report

/-- Reports an error. A fatal console then exits; any other forgets all lines. -/
def raise (report : Report) : Action Unit := do
  announce report
  if (← get).fatal then throw (.exit 1)
  else modify fun console => { console with places := console.places.cleared }

/-! ## Failures that reach the console -/

/-- The report of a fault of the program itself. -/
def faultReport (fault : Fault) : Report :=
  let description := fault.label ++ ": " ++ fault.text
  { message := [.words "unknown error: '", .argument description, .words "'"]
    internal := true }

/-- Deals with a failure: reports it and goes on, except that a request to exit is passed on and a
fault of the program is passed on after it has been reported. -/
def settle : Failure → Action Unit
  | .interrupted => raise { message := [.words "keyboard interrupt"] }
  | .exit code => throw (.exit code)
  | .tooDeep =>
    raise
      { message :=
          [.words "beta normal form might exist, but maximum recursion depth exceeded"] }
  | .reported report => raise report
  | .internal fault => do
    raise (faultReport fault)
    throw (.internal fault)

end Console

end Redex
