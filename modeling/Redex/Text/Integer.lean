import Redex.Text.Blank
import Redex.Text.Digit

/-!
# Integers as text

The written form of an integer: blanks around it, one sign, and decimal digits of any script in
which single underscores may stand between two digits.
-/

namespace Redex.Text

/-- Drops the single underscores that stand between two characters; any other underscore is left
in place. -/
def joinGroups : List Char → List Char
  | c :: '_' :: d :: cs =>
    if c = '_' ∨ d = '_' then c :: '_' :: d :: cs else c :: joinGroups (d :: cs)
  | c :: cs => c :: joinGroups cs
  | [] => []

/-- Reads the digits of a number written without a sign. -/
def readDigits? (cs : List Char) : Option Nat :=
  let digits := joinGroups cs
  if digits.isEmpty ∨ maxDigits < digits.length then none else numberOfDigits? digits

/-- The blanks that may stand around an integer: all but the four separator controls. -/
def isPadding (c : Char) : Bool := isBlank c && !(0x1C ≤ c.toNat && c.toNat ≤ 0x1F)

/-- Reads an integer. -/
def readInt? (s : String) : Option Int :=
  match trimEnds isPadding s.toList with
  | '-' :: cs => (readDigits? cs).map fun n => -(n : Int)
  | '+' :: cs => (readDigits? cs).map fun n => (n : Int)
  | cs => (readDigits? cs).map fun n => (n : Int)

end Redex.Text
