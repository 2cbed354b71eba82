import Redex.Decimal.Shortest
import Redex.Report
import Redex.Term.Numeral
import Redex.Text.Quoted

/-!
# Values that are not terms

A value handed in from outside, for a numeral or as the argument of a message, may be of any simple
kind. `written` is its text: names for the constants, digits for numbers, quotes around texts,
brackets around collections. Only a natural number has a numeral.
-/

namespace Redex

/-- A simple value. -/
inductive Literal where
  | null
  | bool (b : Bool)
  | int (n : Int)
  | float (x : Float)
  | text (s : String)
  | list (items : List Literal)
  | table (entries : List (String × Literal))
deriving Inhabited

namespace Literal

/-- The digits of a decimal with its point. A leading digit with an exponent from -4 to 15 keeps the
number positional, with at least one digit behind the point; any other is written with the point
behind the first digit and a signed exponent of at least two digits. -/
def writtenDecimal (d : Decimal) : String :=
  let digits := Nat.toDigits 10 d.coefficient
  let point := d.exponent + digits.length
  let exponent := point - 1
  String.ofList <|
    if -4 ≤ exponent ∧ exponent ≤ 15 then
      if point ≤ 0 then '0' :: '.' :: List.replicate (-point).toNat '0' ++ digits
      else if digits.length ≤ point then
        digits ++ List.replicate (point - digits.length).toNat '0' ++ ['.', '0']
      else digits.take point.toNat ++ '.' :: digits.drop point.toNat
    else
      let behind := if digits.length ≤ 1 then [] else '.' :: digits.drop 1
      let size := Nat.toDigits 10 exponent.natAbs
      digits.take 1 ++ behind ++ 'e' :: (if exponent < 0 then '-' else '+') ::
        List.replicate (2 - size.length) '0' ++ size

/-- The text of a float: the shortest decimal that names it. -/
def writtenFloat (x : Float) : String :=
  let sign := if x.toBits.toNat < Nat.pow 2 63 then "" else "-"
  if x.isNaN then "nan"
  else if x.isInf then sign ++ "inf"
  else match Decimal.Binary.ofBits? x.toBits with
    | none => sign ++ "0.0"
    | some binary => sign ++ writtenDecimal binary.shortest

mutual

/-- The text of a value. -/
def written : Literal → String
  | null => "None"
  | bool b => if b then "True" else "False"
  | int n => toString n
  | float x => writtenFloat x
  | text s => Text.quoted s
  | list items => "[" ++ ", ".intercalate (writtenItems items) ++ "]"
  | table entries => "\x7b" ++ ", ".intercalate (writtenEntries entries) ++ "\x7d"

/-- The texts of the items of a list. -/
def writtenItems : List Literal → List String
  | [] => []
  | item :: items => written item :: writtenItems items

/-- The texts of the entries of a table. -/
def writtenEntries : List (String × Literal) → List String
  | [] => []
  | (key, value) :: entries =>
    (Text.quoted key ++ ": " ++ written value) :: writtenEntries entries

end

/-- A value as the argument of a message: a text stands for itself, without quotes. -/
def argument : Literal → String
  | text s => s
  | value => value.written

/-- The numeral of a value, which has to be a natural number. -/
def numeral (value : Literal) : Except Report Term :=
  let refuse : Except Report Term := .error
    { message := [.words "expected natural number, got '", .argument value.written, .words "'"]
      internal := true }
  match value with
  | int n => if 0 ≤ n then .ok (Term.numeral n.toNat) else refuse
  | _ => refuse

end Literal

end Redex
