import Redex.CommandLine
import Redex.Shell

/-!
# The program

The program runs a file of terms, or the shell if no file is named. `start` does everything up to
the point where lines are typed and `run` the whole of it for input that is known in advance. Output
and exit code are values; nothing here talks to the outside.
-/

namespace Redex.Program

/-- What a run of the program leaves behind. -/
structure Result where
  /-- The failure that ended the program, if it is not an exit. -/
  escaped : Option Failure := none
  exitCode : Int := 0
  output : String := ""
  errors : String := ""

/-- Ends the program after its last action: the console deals with a failure first. -/
def finish {α : Type} (console : α → Console) : EStateM.Result Failure α Unit → Result
  | .ok () state => { output := (console state).printed }
  | .error failure state =>
    match Console.settle failure (console state) with
    | .ok () console => { output := console.printed }
    | .error (.exit code) console => { exitCode := code, output := console.printed }
    | .error failure console => { escaped := some failure, output := console.printed }

/-- How the program starts: it is done, or it waits for lines to be typed. -/
inductive Start where
  | done (result : Result)
  | shell (shell : Shell)

/-- The settings that the options ask for. A limit that is no number allows no steps. -/
def settingsOf (options : CommandLine.Options) : Eval.Settings :=
  { maxSteps := options.maxSteps.getD 0, traced := options.traced }

/-- The session that the options ask for, before anything is loaded: one on a file, or one that is
typed into. -/
def sessionOf (style : Text.Style) (options : CommandLine.Options) : Session :=
  let path := options.file.getD Session.typedPath
  { Session.fresh { style := style } path options.file.isNone (settingsOf options) with
    counted := options.maxSteps.isSome }

/-- Loads a file and evaluates its terms. -/
def runFile (files : Files) : EStateM Failure Session Unit := do
  Session.load files
  Session.run

/-- The shell as it starts. -/
def openShell (session : Session) : Shell :=
  { session := session.withConsole (·.printLine Shell.introduction) }

/-- Starts the program with the given arguments. -/
def start (files : Files) (style : Text.Style) (args : List String) : Start :=
  match CommandLine.read args with
  | .help => .done { output := CommandLine.helpText }
  | .refuse message => .done { exitCode := 2, errors := CommandLine.refusal message }
  | .run options =>
    let session := sessionOf style options
    match options.file with
    | some _ => .done (finish Session.console (runFile files session))
    | none => .shell (openShell session)

/-- The console of a shell. -/
def shellConsole (shell : Shell) : Console := shell.session.console

/-- Runs the program on input that is known in advance. -/
def run (files : Files) (style : Text.Style) (args : List String) (input : String) : Result :=
  match start files style args with
  | .done result => result
  | .shell shell =>
    finish shellConsole (Shell.runLines ((Text.typedLines input.toList).map String.ofList) shell)

end Redex.Program
