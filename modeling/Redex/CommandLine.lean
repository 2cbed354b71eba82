import Redex.Text.Integer
import Redex.Text.Quoted

/-!
# The command line

The program takes an optional file name and three options. Long options may be shortened as long as
they stay unambiguous and may carry a value behind an equals sign; two dashes alone end the options.
A single dash, a negative number and anything with a space in it are plain arguments. Arguments are
handled from left to right, so the first that asks for help or is at fault decides; arguments
without a use are collected and refused at the end. Two dashes are dropped next to the file, and so
they are as the value of the step limit, which is then left without a number.
-/

namespace Redex.CommandLine

/-- What the arguments ask for. -/
structure Options where
  file : Option String := none
  traced : Bool := false
  /-- The step limit; none if it was given without a number. -/
  maxSteps : Option Int := some 1000
deriving DecidableEq, Repr

/-- What becomes of the arguments: a run, the help text, or a refusal with its message. -/
inductive Request where
  | run (options : Options)
  | help
  | refuse (message : String)
deriving DecidableEq, Repr

/-! ## Texts -/

/-- The usage line. -/
def usage : String := "usage: lambdaeval [-h] [--trace] [--max-steps MAX_STEPS] [file]\n"

/-- The help text. -/
def helpText : String :=
  usage ++
  "\n" ++
  "Untyped lambda calculus evaluator\n" ++
  "\n" ++
  "positional arguments:\n" ++
  "  file                  file to interpret and run (if empty, goes to command-\n" ++
  "                        line mode)\n" ++
  "\n" ++
  "options:\n" ++
  "  -h, --help            show this help message and exit\n" ++
  "  --trace               print every reduction step\n" ++
  "  --max-steps MAX_STEPS\n" ++
  "                        beta reductions allowed per term (default: 1000)\n"

/-- What is printed when the arguments are refused. -/
def refusal (message : String) : String := usage ++ "lambdaeval: error: " ++ message ++ "\n"

/-! ## Kinds of arguments -/

/-- The options. -/
inductive Opt where
  | help
  | trace
  | maxSteps
deriving DecidableEq, Repr

/-- The name of an option in messages. -/
def Opt.label : Opt → String
  | help => "-h/--help"
  | trace => "--trace"
  | maxSteps => "--max-steps"

/-- The long options, in the order in which they are listed. -/
def longOptions : List (String × Opt) :=
  [("--help", .help), ("--trace", .trace), ("--max-steps", .maxSteps)]

/-- What an argument is. -/
inductive Item where
  /-- An argument that is not an option. -/
  | plain
  /-- Two dashes, which end the options. -/
  | dashes
  /-- An option, with the value behind its equals sign. -/
  | option (opt : Opt) (value : Option String)
  /-- The short help option, with the characters behind it or behind its equals sign. -/
  | shortHelp (rest : List Char)
  /-- What looks like an option and is none. -/
  | unknown
  /-- A shortened option that could be one of several. -/
  | ambiguous (names : List String)
deriving DecidableEq, Repr

/-- Splits an argument at its first equals sign. -/
def splitValue (cs : List Char) : List Char × Option String :=
  match cs.dropWhile (· != '=') with
  | [] => (cs, none)
  | _ :: value => (cs.takeWhile (· != '='), some (String.ofList value))

/-- Whether characters are a dash with digits behind it, perhaps with a point in front of the last
ones, and perhaps with a line feed at the end. -/
def isNegativeNumber (cs : List Char) : Bool :=
  match cs with
  | '-' :: number =>
    let number := if number.getLast? = some '\n' then number.dropLast else number
    let whole := number.takeWhile Text.isDigit
    match number.dropWhile Text.isDigit with
    | [] => !whole.isEmpty
    | '.' :: fraction => !fraction.isEmpty && fraction.all Text.isDigit
    | _ => false
  | _ => false

/-- Whether one list of characters starts with another. -/
def startsWith (cs start : List Char) : Bool := start.isPrefixOf cs

/-- What an argument is that starts with two dashes and has something behind them. -/
def longItem? (cs : List Char) : Option Item :=
  let (name, value) := splitValue cs
  match longOptions.find? (·.1.toList == name) with
  | some (_, opt) => some (.option opt value)
  | none =>
    match longOptions.filter fun option => startsWith option.1.toList name with
    | [] => none
    | [(_, opt)] => some (.option opt value)
    | several => some (.ambiguous (several.map (·.1)))

/-- What an argument is, if it is an option. -/
def optionItem? : List Char → Option Item
  | '-' :: '-' :: cs => longItem? ('-' :: '-' :: cs)
  | ['-', 'h'] => some (.option .help none)
  | '-' :: 'h' :: '=' :: cs => some (.shortHelp cs)
  | '-' :: 'h' :: cs => some (.shortHelp cs)
  | _ => none

/-- What an argument is, in front of the first two dashes. -/
def itemOf (arg : String) : Item :=
  match arg.toList with
  | '-' :: c :: cs =>
    match optionItem? ('-' :: c :: cs) with
    | some item => item
    | none =>
      if isNegativeNumber ('-' :: c :: cs) ∨ cs.contains ' ' ∨ c = ' ' then .plain else .unknown
  | _ => .plain

/-- What each argument is. -/
def itemsOf : List String → List (String × Item)
  | [] => []
  | "--" :: args => ("--", .dashes) :: args.map fun arg => (arg, .plain)
  | arg :: args => (arg, itemOf arg) :: itemsOf args

/-! ## Reading the arguments -/

/-- The arguments read so far. -/
structure Progress where
  options : Options := {}
  /-- Whether the place of the file is taken. -/
  fileTaken : Bool := false
  /-- The arguments without a use. -/
  extras : List String := []

namespace Progress

/-- Adds an argument without a use. -/
def addExtra (progress : Progress) (arg : String) : Progress :=
  { progress with extras := progress.extras ++ [arg] }

/-- Takes a plain argument: the first is the file. -/
def takePlain (progress : Progress) (arg : String) : Progress :=
  if progress.fileTaken then progress.addExtra arg
  else { progress with
    options := { progress.options with file := some arg }
    fileTaken := true }

/-- Takes the arguments behind the last option. Two dashes next to the file are dropped. -/
def takeRest (progress : Progress) (args : List (String × Item)) : Progress :=
  let texts := args.map (·.1)
  if progress.fileTaken then { progress with extras := progress.extras ++ texts }
  else match args with
    | (_, .dashes) :: (file, _) :: rest =>
      { progress.takePlain file with extras := progress.extras ++ rest.map (·.1) }
    | [(_, .dashes)] => progress
    | (file, _) :: (_, .dashes) :: rest =>
      { progress.takePlain file with extras := progress.extras ++ rest.map (·.1) }
    | (file, _) :: rest =>
      { progress.takePlain file with extras := progress.extras ++ rest.map (·.1) }
    | [] => progress

/-- What the arguments come to when all of them have been read. -/
def request (progress : Progress) : Request :=
  if progress.extras.isEmpty then .run progress.options
  else .refuse ("unrecognized arguments: " ++ " ".intercalate progress.extras)

end Progress

/-- The refusal of an argument. -/
def refuseArgument (opt : Opt) (message : String) : Request :=
  .refuse ("argument " ++ opt.label ++ ": " ++ message)

/-- The refusal of a value where none is taken. -/
def ignoredValue (opt : Opt) (value : String) : Request :=
  refuseArgument opt ("ignored explicit argument " ++ Text.quoted value)

/-- What a short help option with characters behind it comes to: they may be the letters of more
such options and nothing else. -/
def shortHelpRequest : List Char → Request
  | ['h'] => .help
  | 'h' :: cs => shortHelpRequest cs
  | cs => ignoredValue .help (String.ofList cs)

/-- Sets the step limit from a text and goes on. -/
def withMaxSteps (progress : Progress) (value : String) (next : Progress → Request) : Request :=
  if value = "--" then
    next { progress with options := { progress.options with maxSteps := none } }
  else match Text.readInt? value with
    | some n => next { progress with options := { progress.options with maxSteps := some n } }
    | none => refuseArgument .maxSteps ("invalid int value: " ++ Text.quoted value)

/-- Whether an argument belongs to those behind the last option. -/
def isOperand : String × Item → Bool
  | (_, .plain) => true
  | (_, .dashes) => true
  | _ => false

/-- Reads the arguments from left to right. -/
def readItems (progress : Progress) : List (String × Item) → Request
  | [] => progress.request
  | (arg, item) :: items =>
    if ((arg, item) :: items).all isOperand then (progress.takeRest ((arg, item) :: items)).request
    else match item, items with
      | .option .help none, _ => .help
      | .option .trace none, items =>
        readItems { progress with options := { progress.options with traced := true } } items
      | .option .maxSteps (some value), items =>
        withMaxSteps progress value fun progress => readItems progress items
      | .option .maxSteps none, (value, .plain) :: items =>
        withMaxSteps progress value fun progress => readItems progress items
      | .option .maxSteps none, _ => refuseArgument .maxSteps "expected one argument"
      | .option opt (some value), _ => ignoredValue opt value
      | .shortHelp rest, _ => shortHelpRequest rest
      | .unknown, items => readItems (progress.addExtra arg) items
      | _, items => readItems (progress.takePlain arg) items

/-- What the arguments ask for. An ambiguous option is refused before any argument is read. -/
def read (args : List String) : Request :=
  let items := itemsOf args
  let ambiguity := items.findSome? fun (arg, item) =>
    match item with
    | .ambiguous names =>
      some ("ambiguous option: " ++ arg ++ " could match " ++ ", ".intercalate names)
    | _ => none
  match ambiguity with
  | some message => .refuse message
  | none => readItems {} items

end Redex.CommandLine
