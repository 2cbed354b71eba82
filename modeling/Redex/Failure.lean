import Redex.Report
import Redex.Text.Digit
import Redex.Text.Utf8

/-!
# Failures

Whatever can end a command before it is done is a `Failure`. Reports, interrupts and nesting that
is too deep are the business of the console, which tells the user and goes on or gives up; a
request to exit passes through it; a `Fault` is a failure of the program itself, which the console
describes by its label and its text.
-/

namespace Redex

/-- A failure of the program itself. -/
inductive Fault where
  /-- The last element of an empty list was asked for. -/
  | emptyList
  /-- A message cannot be put together. -/
  | template (fault : Text.Template.Fault)
  /-- A number is written with too many digits. -/
  | tooManyDigits (digits : Nat)
  /-- A part of a term is missing. -/
  | notATerm
  /-- The number of steps is compared with a limit that is no number. -/
  | limitNotANumber
  /-- A row of characters cannot be made. -/
  | repetition (fault : Text.RepeatFault)
  /-- A file does not hold text. -/
  | undecodable (fault : Text.Utf8.Fault)
  /-- A file name holds a character that no file name can hold. -/
  | nullInPath
  /-- Any other fault, described from outside. -/
  | other (label text : String)

/-- The label of a fault. -/
def Fault.label : Fault → String
  | emptyList => "IndexError"
  | template (.missingArgument _) => "IndexError"
  | template (.unknownField _) => "KeyError"
  | template _ => "ValueError"
  | tooManyDigits _ => "ValueError"
  | notATerm => "TypeError"
  | limitNotANumber => "TypeError"
  | repetition .countTooWide => "OverflowError"
  | repetition .rowTooLong => "MemoryError"
  | undecodable _ => "UnicodeDecodeError"
  | nullInPath => "ValueError"
  | other label _ => label

/-- The text of a fault. -/
def Fault.text : Fault → String
  | emptyList => "pop from empty list"
  | template fault => fault.message
  | tooManyDigits digits =>
    "Exceeds the limit (" ++ toString Text.maxDigits ++
      " digits) for integer string conversion: value has " ++ toString digits ++
      " digits; use sys.set_int_max_str_digits() to increase the limit"
  | notATerm => "not a λ-term: None"
  | limitNotANumber => "'>=' not supported between instances of 'int' and 'list'"
  | repetition .countTooWide => "cannot fit 'int' into an index-sized integer"
  | repetition .rowTooLong => ""
  | undecodable fault => fault.message
  | nullInPath => "embedded null byte"
  | other _ text => text

/-- Why a command does not complete. -/
inductive Failure where
  /-- An error with a report of its own. -/
  | reported (report : Report)
  /-- Calls are nested too deeply. -/
  | tooDeep
  /-- The user interrupts the program. -/
  | interrupted
  /-- The program is to end with an exit code. -/
  | exit (code : Int)
  /-- The program itself is at fault. -/
  | internal (fault : Fault)
deriving Inhabited

namespace Failure

/-- The failure that a halted evaluation amounts to. -/
def ofHalt (maxSteps : Int) (run : Eval.Run) : Eval.Halt → Failure
  | .stepLimit => reported (Report.ofStepLimit maxSteps run.steps none)
  | .tooDeep => tooDeep

/-- The failure that a syntax error amounts to. -/
def ofSyntaxError (error : SyntaxError) : Failure := reported error.report

end Failure

end Redex
