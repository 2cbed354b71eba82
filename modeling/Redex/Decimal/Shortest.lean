/-!
# The shortest decimal of a binary number

A positive number `m · 2^q` with a significand of 53 bits is known by any decimal that lies closer
to it than to its neighbours. `shortest` finds the one with the fewest digits, and of those the
nearest to the number. Everything is exact arithmetic on natural numbers: both sides of a comparison
are multiplied by the powers of two and ten that would otherwise divide.
-/

namespace Redex

/-- The positive number `coefficient · 10^exponent`. -/
structure Decimal where
  coefficient : Nat
  exponent : Int
deriving DecidableEq, Repr

namespace Decimal

/-- The positive number `significand · 2^exponent`. -/
structure Binary where
  significand : Nat
  exponent : Int
  /-- Whether the next number below is only half as far away as the next one above. -/
  closerBelow : Bool
deriving DecidableEq, Repr

/-- The order of `a · 2^p` and `b · 10^e`. -/
def comparePowers (a : Nat) (p : Int) (b : Nat) (e : Int) : Ordering :=
  compare (a * Nat.pow 2 p.toNat * Nat.pow 10 (-e).toNat)
    (b * Nat.pow 10 e.toNat * Nat.pow 2 (-p).toNat)

/-- Whether a decimal lies between the midpoints to the two neighbours of a number. The midpoints
themselves belong to the number if its significand is even. -/
def Binary.isNamedBy (x : Binary) (d : Decimal) : Bool :=
  let below := comparePowers (4 * x.significand - if x.closerBelow then 1 else 2) (x.exponent - 2)
    d.coefficient d.exponent
  let above := comparePowers (4 * x.significand + 2) (x.exponent - 2) d.coefficient d.exponent
  if x.significand % 2 = 0 then below != .gt && above != .lt else below == .lt && above == .gt

/-- The greatest multiple of `10^e` that is at most the number, divided by `10^e`. -/
def Binary.floorAt (x : Binary) (e : Int) : Nat :=
  (x.significand * Nat.pow 2 x.exponent.toNat * Nat.pow 10 (-e).toNat) /
    (Nat.pow 10 e.toNat * Nat.pow 2 (-x.exponent).toNat)

/-- The neighbours of a number among the multiples of `10^e` that name it, the nearer one first; the
even one if both are equally near. -/
def Binary.candidates (x : Binary) (e : Int) : List Decimal :=
  let n := x.floorAt e
  let lower : Decimal := ⟨n, e⟩
  let upper : Decimal := ⟨n + 1, e⟩
  let inOrder :=
    match comparePowers (2 * x.significand) x.exponent (2 * n + 1) e with
    | .lt => [lower, upper]
    | .gt => [upper, lower]
    | .eq => if n % 2 = 0 then [lower, upper] else [upper, lower]
  inOrder.filter x.isNamedBy

/-- The exponent of the leading decimal digit, searched for downwards from `top`. -/
def Binary.leading (x : Binary) : (fuel : Nat) → (top : Int) → Int
  | 0, top => top
  | fuel + 1, top => if x.floorAt top = 0 then x.leading fuel (top - 1) else top

/-- Moves factors of ten from the coefficient of a decimal to its exponent. -/
def trim : (fuel : Nat) → Decimal → Decimal
  | 0, d => d
  | fuel + 1, d =>
    if d.coefficient % 10 = 0 ∧ d.coefficient ≠ 0 then
      trim fuel ⟨d.coefficient / 10, d.exponent + 1⟩
    else d

/-- The decimal with the fewest digits that names a number. Seventeen digits always do. -/
def Binary.shortest (x : Binary) : Decimal :=
  let top := x.leading 700 320
  let found := (List.range 17).findSome? fun (k : Nat) => (x.candidates (top - k)).head?
  (found.getD ⟨x.floorAt (top - 16), top - 16⟩).trim 20

/-- The number that the bits of a double stand for, if it is finite and not zero; the sign bit is
left aside. -/
def Binary.ofBits? (bits : UInt64) : Option Binary :=
  let n : Nat := bits.toNat % Nat.pow 2 63
  let fraction : Nat := n % Nat.pow 2 52
  let biased : Nat := n / Nat.pow 2 52
  if biased = 2047 ∨ n = 0 then none
  else if biased = 0 then some ⟨fraction, -1074, false⟩
  else some ⟨Nat.pow 2 52 + fraction, (biased : Int) - 1075, fraction = 0 ∧ biased ≠ 1⟩

end Decimal

end Redex
