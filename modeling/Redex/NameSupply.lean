import Redex.Term.Basic

/-!
# Fresh names

A supply remembers the names it has to avoid. A fresh name is made from a base name: of the
candidates `x'`, `x'1`, `x'2`, … it is the first one that the supply does not hold, and the supply
holds it from then on.
-/

namespace Redex

/-- The names that are in use already, in the order in which they were taken. -/
structure NameSupply where
  used : List Name := []
deriving DecidableEq, Repr, Inhabited

namespace NameSupply

/-- The candidates made from a base name: a prime, then a prime and a number from one on. -/
def candidate (base : Name) : Nat → Name
  | 0 => base ++ "'"
  | k + 1 => base ++ "'" ++ toString (k + 1)

/-- The first candidate from the `k`-th on that is not taken. A candidate that is taken is struck
off the list, which therefore shrinks with every one that is passed over. -/
@[semireducible]
def firstFree (base : Name) (taken : List Name) (k : Nat) : Name :=
  if candidate base k ∈ taken then firstFree base (taken.erase (candidate base k)) (k + 1)
  else candidate base k
termination_by taken.length
decreasing_by
  rename_i met
  have shrunk := List.length_erase_of_mem met
  have nonempty := List.length_pos_of_mem met
  omega

/-- Takes a fresh name made from a base name. -/
def fresh (supply : NameSupply) (base : Name) : Name × NameSupply :=
  let name := firstFree base supply.used 0
  (name, { used := supply.used ++ [name] })

/-- A supply holds the names it held before and the one it gave away. -/
@[simp] theorem used_fresh (supply : NameSupply) (base : Name) :
    (supply.fresh base).2.used = supply.used ++ [(supply.fresh base).1] := rfl

end NameSupply

end Redex
