import Redex.Program

/-!
# The command

The executable: it reads the named file, lets the program run, and passes lines and output between
the program and the terminal.
-/

namespace Redex

/-- The content of a file that can be read. -/
def fileContent? (path : String) : IO (Option (List UInt8)) := do
  try
    return some (← IO.FS.readBinFile path).toList
  catch _ =>
    return none

/-- Prints what the console holds and empties it. -/
def flushShell (shell : Shell) : IO Shell := do
  let console := shell.session.console
  IO.print console.printed
  (← IO.getStdout).flush
  return shell.withConsole fun console => { console with printed := "" }

/-- Writes out the result of a run and gives the exit code. -/
def conclude (result : Program.Result) : IO UInt32 := do
  IO.print result.output
  IO.eprint result.errors
  match result.escaped with
  | some _ => return 1
  | none => return UInt32.ofNat (result.exitCode % 256).toNat

/-- Reads and runs typed lines until the shell is left. -/
partial def typedLoop (shell : Shell) : IO UInt32 := do
  let input ← IO.getStdin
  match Shell.showPrompt shell with
  | .error failure shell => conclude (Program.finish Program.shellConsole (.error failure shell))
  | .ok () shell =>
    let shell ← flushShell shell
    let line ← input.getLine
    let text := if line.isEmpty then "EOF" else String.ofList (line.toList.filter (· != '\n'))
    match Shell.runLine text shell with
    | .error failure shell => conclude (Program.finish Program.shellConsole (.error failure shell))
    | .ok leave shell =>
      let shell ← flushShell shell
      if leave then return 0 else typedLoop shell

end Redex

open Redex in
/-- Runs the program. -/
def main (args : List String) : IO UInt32 := do
  let content ← match CommandLine.read args with
    | .run { file := some path, .. } => fileContent? path
    | _ => pure none
  match Program.start (fun _ => content) .plain args with
  | .done result => conclude result
  | .shell shell => typedLoop shell
