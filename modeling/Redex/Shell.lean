import Redex.Session
import Redex.Text.Digit

/-!
# The interactive shell

Each typed line is a command or a term. A command is a word that stands in front of its argument;
everything else is evaluated, once it closes all parentheses that it opens. Until then the lines are
held back as pending text and the prompt changes.
-/

namespace Redex

/-- The state of the shell. -/
structure Shell where
  session : Session
  /-- The text of an unfinished term. -/
  pending : String := ""
  /-- How many lines have been taken as terms. -/
  lineNumber : Nat := 0
  prompt : String := "λ> "

namespace Shell

/-- The prompt for the continuation of a term. -/
def continuationPrompt : String := ".. "

/-- The prompt for a new line. -/
def linePrompt : String := "λ> "

/-- The lines printed when the shell starts. -/
def introduction : String :=
  "Lambda calculus interpreter :: call-by-value\nType '?' or 'help' for more information."

/-- The help text. -/
def helpText : String :=
  "Welcome to the lambdaeval interpreter!\n\n" ++
  "Type a λ-term to reduce it to normal form with call-by-value beta reduction. " ++
  "Write \\ for λ,\n" ++
  "single lowercase letters for variables and parentheses for grouping: " ++
  "'(\\x.x) y' reduces to 'y'.\n\n" ++
  "Commands:\n" ++
  "  trace [on|off]  print every reduction step\n" ++
  "  tree TERM       print the parse tree of TERM\n" ++
  "  church N        print the Church numeral of N\n" ++
  "  exit            leave the interpreter (so does Ctrl-D)"

/-! ## Typed lines -/

/-- What a typed line asks for. -/
inductive Command where
  | nothing
  | trace (argument : String)
  | tree (argument : String)
  | church (argument : String)
  | help
  | endOfInput (argument : String)
  | exit (argument : String)
  | term (line : String)
deriving DecidableEq, Repr

/-- Whether a character can be part of a command word. -/
def isWordChar (c : Char) : Bool := c.isAlphanum || c == '_'

/-- The command with a given word and argument; any other word is the start of a term. -/
def Command.ofWord (word argument line : String) : Command :=
  if word = "trace" then trace argument
  else if word = "tree" then tree argument
  else if word = "church" then church argument
  else if word = "help" then help
  else if word = "EOF" then endOfInput argument
  else if word = "exit" then exit argument
  else term line

/-- Reads a typed line. A question mark in front asks for help, an exclamation mark makes the line a
term, and otherwise the longest row of word characters in front decides. -/
def Command.ofLine (line : String) : Command :=
  match Text.stripChars line.toList with
  | [] => nothing
  | '?' :: _ => help
  | '!' :: cs => term (String.ofList ('!' :: cs))
  | cs =>
    ofWord (String.ofList (cs.takeWhile isWordChar))
      (String.ofList (Text.stripChars (cs.dropWhile isWordChar))) (String.ofList cs)

/-! ## Running commands -/

/-- Actions of the shell; what was printed and changed outlives a failure. -/
abbrev Action := EStateM Failure Shell

/-- Changes the console. -/
def withConsole (change : Console → Console) (shell : Shell) : Shell :=
  { shell with session := shell.session.withConsole change }

/-- Runs an action of the session. -/
def onSession {α : Type} (action : EStateM Failure Session α) : Action α := fun shell =>
  match action shell.session with
  | .ok value session => .ok value { shell with session := session }
  | .error failure session => .error failure { shell with session := session }

/-- Prints a line. -/
def printLine (text : String) : Action Unit := modify (withConsole (·.printLine text))

/-- Prints a warning about an argument. -/
def warn (before argument : String) : Action Unit :=
  onSession (Session.onConsole (Console.warn
    { message := [.words before, .argument argument, .words "'"], diagnosed := false }))

/-- Evaluates one term and prints the result. -/
def evaluateLine (line : String) (number : Int) : EStateM Failure Session Unit := do
  Session.add line number
  Session.run
  if !(← get).results.isEmpty then
    let text ← Session.pop
    modify (Session.withConsole (·.printLine text))

/-- Takes a line as part of a term, and evaluates the term once it is finished. -/
def takeTerm (line : String) : Action Unit := do
  modify fun shell => { shell with lineNumber := shell.lineNumber + 1 }
  let shell ← get
  let text := tidyLine (shell.pending ++ " " ++ line)
  if isUnfinished text then
    set { shell with pending := text, prompt := continuationPrompt }
  else
    set { shell with pending := "", prompt := linePrompt }
    if !text.isEmpty then
      onSession (Session.protect (evaluateLine text shell.lineNumber))

/-- Shows or sets whether evaluations are traced. -/
def runTrace (argument : String) : Action Unit := do
  if argument = "on" ∨ argument = "off" then
    modify fun shell =>
      let session := shell.session
      let settings := { session.settings with traced := argument = "on" }
      { shell with session := { session with settings := settings } }
  if argument = "on" ∨ argument = "off" ∨ argument = "" then
    let traced := (← get).session.settings.traced
    printLine ("trace is " ++ if traced then "on" else "off")
  else
    warn "trace expects 'on' or 'off', got '" argument

/-- Prints the tree of a term. -/
def printTree (source : String) : EStateM Failure Session Unit := do
  let depth := (← get).settings.depth
  match readTerm depth source with
  | .error failure => throw failure
  | .ok term =>
    if depth < term.renderDepth then throw .tooDeep
    else modify (Session.withConsole (·.printLine term.tree))

/-- Prints the numeral of a number. -/
def runChurch (argument : String) : Action Unit := do
  if !Text.isNumber argument then
    warn "church expects a natural number, got '" argument
  else if Text.maxDigits < argument.length then
    throw (.internal (.tooManyDigits argument.length))
  else
    let numeral := Term.numeral ((Text.numberOfDigits? argument.toList).getD 0)
    match numeral.renderWithin (← get).session.settings.depth with
    | .error failure => throw failure
    | .ok text => printLine text

/-- Leaves the shell, unless something stands behind the command. -/
def runExit (argument : String) : Action Bool := do
  if argument.isEmpty then
    return true
  else
    warn "unrecognized token: '" argument
    return false

/-- Runs a command; says whether the shell is to be left. -/
def run : Command → Action Bool
  | .nothing => return false
  | .trace argument => do
    runTrace argument
    return false
  | .tree argument => do
    onSession (Session.protect (printTree argument))
    return false
  | .church argument => do
    runChurch argument
    return false
  | .help => do
    printLine helpText
    return false
  | .endOfInput argument => do
    printLine ""
    runExit argument
  | .exit argument => runExit argument
  | .term line => do
    takeTerm line
    return false

/-- Runs a typed line; says whether the shell is to be left. -/
def runLine (line : String) : Action Bool := run (Command.ofLine line)

/-- Shows the prompt. -/
def showPrompt : Action Unit := modify fun shell => shell.withConsole (·.print shell.prompt)

/-- Runs typed lines until the shell is left; the end of the input acts as a line of its own. -/
def runLines : List String → Action Unit
  | [] => do
    showPrompt
    let _ ← runLine "EOF"
  | line :: lines => do
    showPrompt
    if ← runLine line then return ()
    else runLines lines

end Shell

end Redex
