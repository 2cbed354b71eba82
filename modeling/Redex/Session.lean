import Redex.Console
import Redex.Source

/-!
# Sessions

A session reads terms as they are added and keeps them in a queue by line number until they are
run. Running evaluates them in ascending order; each is taken off the queue before it is evaluated,
so a term that fails is not tried again. A session on a file prints each result as soon as it is
known, an interactive one keeps it until it is asked for.
-/

namespace Redex

/-- A term that waits to be evaluated. -/
structure Queued where
  number : Int
  line : String
  term : Term
deriving DecidableEq, Repr

/-- Puts a term into a queue in ascending order; a term with the same number is replaced. -/
def Queued.insert (item : Queued) : List Queued → List Queued
  | [] => [item]
  | other :: queue =>
    if item.number < other.number then item :: other :: queue
    else if item.number = other.number then item :: queue
    else other :: insert item queue

/-- Takes the term with the given number off a queue, in which no number stands twice. -/
def Queued.remove (number : Int) (queue : List Queued) : List Queued :=
  queue.eraseP (·.number == number)

theorem Queued.remove_head (item : Queued) (rest : List Queued) :
    remove item.number (item :: rest) = rest :=
  List.eraseP_cons_of_pos (beq_self_eq_true item.number)

/-- The state of a session. -/
structure Session where
  console : Console
  path : String
  /-- Whether terms are typed rather than read from a file. -/
  interactive : Bool
  settings : Eval.Settings
  /-- Whether the step limit is a number. -/
  counted : Bool := true
  /-- The terms to evaluate, in ascending order of their numbers. -/
  queue : List Queued := []
  /-- The evaluations whose results have not been asked for, in order. -/
  results : List Evaluation := []

/-- The name that stands for what is typed. -/
def Session.typedPath : String := "<in>"

/-- What opening a file gives: its bytes, or nothing if it cannot be opened. -/
abbrev Files := String → Option (List UInt8)

namespace Session

/-- Changes the console of a session. -/
def withConsole (change : Console → Console) (session : Session) : Session :=
  { session with console := change session.console }

/-- Runs an action of the console. -/
def onConsole (action : Console.Action Unit) : EStateM Failure Session Unit := fun session =>
  match action session.console with
  | .ok () console => .ok () { session with console := console }
  | .error failure console => .error failure { session with console := console }

/-- Reads a line as a term and puts it into the queue. While it is read, it is the line that the
console shows with an error. -/
def add (line : String) (number : Int) : EStateM Failure Session Unit := do
  modify (withConsole (·.enterLine (← get).path (some line) (some number)))
  let session ← get
  match readTerm session.settings.depth line with
  | .error failure => throw failure
  | .ok term =>
    set { session with
      queue := Queued.insert ⟨number, line, term⟩ session.queue
      console := session.console.leaveLine session.path }

/-- Prints the trace of an evaluation. -/
def printSteps (steps : Array Step) : EStateM Failure Session Unit :=
  modify (withConsole fun console => steps.foldl Console.printStep console)

/-- Prints a result, with the number it stands for. -/
def printResult (result : Term) : EStateM Failure Session Unit := do
  match result.annotatedWithin (← get).settings.depth with
  | .error failure => throw failure
  | .ok text => modify (withConsole (·.printLine text))

/-- Evaluates a term with the settings of a session. -/
def evaluate (session : Session) (t : Term) : Except Failure Evaluation :=
  if session.counted then interpret session.settings t else interpretUncounted session.settings t

/-- Evaluates one term of the queue and takes it off the queue, whatever comes of it. -/
def runItem (item : Queued) : EStateM Failure Session Unit := do
  let session ← get
  set { session with
    queue := Queued.remove item.number session.queue
    console := session.console.enterLine session.path (some item.line) (some item.number) }
  match session.evaluate item.term with
  | .error failure => throw failure
  | .ok evaluation =>
    printSteps evaluation.steps
    if !session.interactive then
      printResult evaluation.result
    modify fun session => { session with
      results := session.results ++ [evaluation]
      console := session.console.leaveLine session.path }

/-- Evaluates terms of the queue in order. -/
def runItems : List Queued → EStateM Failure Session Unit
  | [] => return ()
  | item :: items => do
    runItem item
    runItems items

/-- Evaluates all terms in the queue. -/
def run : EStateM Failure Session Unit := do
  runItems (← get).queue

/-- Takes the last result, as it is printed. -/
def pop : EStateM Failure Session String := do
  let session ← get
  match session.results.getLast? with
  | none => throw (.internal .emptyList)
  | some evaluation =>
    set { session with results := session.results.dropLast }
    match evaluation.result.annotatedWithin session.settings.depth with
    | .error failure => throw failure
    | .ok text => return text

/-- Lets the console deal with a failure of a part of the session. -/
def protect (action : EStateM Failure Session Unit) : EStateM Failure Session Unit := fun session =>
  match action session with
  | .ok () session => .ok () session
  | .error failure session => onConsole (Console.settle failure) session

/-! ## Opening a session -/

/-- The entries of the file with a given name. -/
def openFile (files : Files) (path : String) : Except Failure (List Entry) :=
  if path.toList.contains '\x00' then .error (.internal .nullInPath)
  else match files path with
    | none =>
      .error (.reported
        { message := [.words "'", .argument path, .words "' could not be opened"]
          diagnosed := false })
    | some bytes => (Entry.ofFile bytes).mapError Failure.internal

/-- Adds the entries of a file. -/
def addEntries : List Entry → EStateM Failure Session Unit
  | [] => return ()
  | entry :: entries => do
    add entry.text entry.number
    addEntries entries

/-- Loads what a new session works on: the file it is named for, or nothing if it is typed into. -/
def load (files : Files) : EStateM Failure Session Unit := do
  let session ← get
  if session.path = typedPath then
    if !session.interactive then
      throw (.reported { message := [.words "'<in>' is a reserved filename"] })
  else
    match openFile files session.path with
    | .error failure => throw failure
    | .ok entries => addEntries entries

/-- A session before anything is loaded. An interactive one makes its console go on after errors. -/
def fresh (console : Console) (path : String) (interactive : Bool) (settings : Eval.Settings) :
    Session :=
  let console := console.enterFile path
  { console := { console with fatal := console.fatal && !interactive }
    path := path
    interactive := interactive
    settings := settings }

/-- Opens a session; if that fails, the session it would have been tells how far it came. -/
def start (files : Files) (console : Console) (path : String) (interactive : Bool)
    (settings : Eval.Settings) : EStateM.Result Failure Session Unit :=
  load files (fresh console path interactive settings)

end Session

end Redex
