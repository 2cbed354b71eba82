import Redex.Text.Digit
import Redex.Text.Message
import Redex.Text.Quoted

/-!
# Message templates

A template is a text with fields: an empty pair of braces stands for the next argument, a number in
braces for the argument with that index, and a doubled brace for the brace itself. Filling goes
from left to right and stops at the first fault, so an argument that is missing early hides a
brace that is misplaced later.
-/

namespace Redex.Text.Template

/-- What can be wrong with a template or its arguments. -/
inductive Fault where
  /-- An opening brace ends the template. -/
  | loneOpen
  /-- A closing brace that closes nothing and is not doubled. -/
  | loneClose
  /-- A field that the template ends in. -/
  | unclosed
  /-- An opening brace inside a field. -/
  | openInField
  /-- A field whose argument is not there. -/
  | missingArgument (index : Nat)
  /-- A numbered field after an empty one. -/
  | numberedAfterEmpty
  /-- An empty field after a numbered one. -/
  | emptyAfterNumbered
  /-- A field with a number that no index can be. -/
  | tooManyDigits
  /-- A field that is neither empty nor a number. -/
  | unknownField (name : String)
deriving DecidableEq, Repr

/-- The wording of a fault. -/
def Fault.message : Fault → String
  | loneOpen => "Single '\x7b' encountered in format string"
  | loneClose => "Single '\x7d' encountered in format string"
  | unclosed => "expected '\x7d' before end of string"
  | openInField => "unexpected '\x7b' in field name"
  | missingArgument index =>
    "Replacement index " ++ toString index ++ " out of range for positional args tuple"
  | numberedAfterEmpty =>
    "cannot switch from automatic field numbering to manual field specification"
  | emptyAfterNumbered =>
    "cannot switch from manual field specification to automatic field numbering"
  | tooManyDigits => "Too many decimal digits in format string"
  | unknownField name => quoted name

/-- A piece of a template. -/
inductive Piece where
  | char (c : Char)
  | next
  | numbered (index : Nat)
  | faulty (fault : Fault)
deriving DecidableEq, Repr

/-- The largest index that a field may hold, that of a signed word of 64 bits. -/
def maxIndex : Nat := Nat.pow 2 63 - 1

/-- The piece that a field with the given name stands for, of which the digits so far make up an
index. An index that grows too large is a fault whatever stands behind it. -/
def numberedPiece (name : String) (index : Nat) : List Char → Piece
  | [] => .numbered index
  | c :: cs =>
    match digitValue? c with
    | none => .faulty (.unknownField name)
    | some digit =>
      if maxIndex < 10 * index + digit then .faulty .tooManyDigits
      else numberedPiece name (10 * index + digit) cs

/-- The piece that a field with the given name stands for. -/
def fieldPiece (name : List Char) : Piece :=
  if name.isEmpty then .next else numberedPiece (String.ofList name) 0 name

mutual

/-- The pieces of a template, read outside a field. -/
def readText : List Char → List Piece
  | [] => []
  | ['\x7b'] => [.faulty .loneOpen]
  | '\x7b' :: '\x7b' :: cs => .char '\x7b' :: readText cs
  | '\x7b' :: cs => readField [] cs
  | '\x7d' :: '\x7d' :: cs => .char '\x7d' :: readText cs
  | '\x7d' :: _ => [.faulty .loneClose]
  | c :: cs => .char c :: readText cs

/-- The pieces of a template, read inside a field of which `name` holds the characters so far, the
last one first. -/
def readField (name : List Char) : List Char → List Piece
  | [] => [.faulty .unclosed]
  | '\x7d' :: cs => fieldPiece name.reverse :: readText cs
  | '\x7b' :: _ => [.faulty .openInField]
  | c :: cs => readField (c :: name) cs

end

/-- How the fields met so far name their arguments. -/
inductive Numbering where
  | undecided
  | automatic (next : Nat)
  | manual
deriving DecidableEq, Repr

/-- The argument with an index, as a part of a message. -/
def argumentAt (args : List String) (index : Nat) : Except Fault Span :=
  match args[index]? with
  | some arg => .ok (.argument arg)
  | none => .error (.missingArgument index)

/-- Puts the arguments into the pieces of a template. -/
def fillPieces (args : List String) : Numbering → List Piece → Except Fault Message
  | _, [] => .ok []
  | numbering, .char c :: pieces => do
    let rest ← fillPieces args numbering pieces
    return .words (String.singleton c) :: rest
  | numbering, .next :: pieces =>
    match numbering with
    | .manual => .error .emptyAfterNumbered
    | .undecided => do
      let span ← argumentAt args 0
      return span :: (← fillPieces args (.automatic 1) pieces)
    | .automatic next => do
      let span ← argumentAt args next
      return span :: (← fillPieces args (.automatic (next + 1)) pieces)
  | numbering, .numbered index :: pieces =>
    match numbering with
    | .automatic _ => .error .numberedAfterEmpty
    | _ => do
      let span ← argumentAt args index
      return span :: (← fillPieces args .manual pieces)
  | _, .faulty fault :: _ => .error fault

/-- Puts the arguments into a template. -/
def fill (template : String) (args : List String) : Except Fault Message :=
  fillPieces args .undecided (readText template.toList)

end Redex.Text.Template
