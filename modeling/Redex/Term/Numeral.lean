import Redex.Term.Basic

/-!
# Church numerals

The numeral of `n` is `λf. λx. f (f (… x))` with `n` applications. `numeral` builds it and
`number?` recognises it whatever its two parameters are called. If both have one name, the inner
one shadows the outer one and zero is the only number left.
-/

namespace Redex.Term

/-- The body of a numeral: `f` applied `n` times to `x`. -/
def iterated (f x : Name) : Nat → Term
  | 0 => var x
  | n + 1 => app (var f) (iterated f x n)

/-- The numeral of a natural number. -/
def numeral (n : Nat) : Term := abs "f" (abs "x" (iterated "f" "x" n))

/-- How often `f` is applied to `x` in the body of a numeral. -/
def iterations? (f x : Name) : Term → Option Nat
  | var y => if y = x then some 0 else none
  | app (var g) rest => if g = f ∧ f ≠ x then (iterations? f x rest).map (· + 1) else none
  | _ => none

/-- The number that a term stands for, if it is a numeral. -/
def number? : Term → Option Nat
  | abs f (abs x body) => iterations? f x body
  | _ => none

end Redex.Term
