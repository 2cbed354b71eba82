/-!
# Slices with signed bounds

A span of a text is given by two integers that need not lie inside the text: a negative bound
counts from the end, and a bound outside the text is moved to the nearest end. `slice` takes the
characters between two such bounds; `before` and `after` take everything up to, or from, one.
`repeated` makes a row of one character, for which a count may be too large: `repeatFault?`. How
long a row there is room for is not known here and is left open.
-/

namespace Redex.Text

/-- The column that a signed bound stands for in a text of `length` characters. -/
def clampBound (length : Nat) (bound : Int) : Nat :=
  if bound < 0 then (length + bound).toNat else min bound.toNat length

/-- A bound inside the text is its own column. -/
theorem clampBound_natCast {length column : Nat} (inside : column ≤ length) :
    clampBound length column = column := by
  simp only [clampBound]
  split
  · omega
  · simp only [Int.toNat_natCast]
    omega

/-- The characters from `start` up to, and not including, `stop`. -/
def slice (s : String) (start stop : Int) : String :=
  let length := s.length
  let first := clampBound length start
  String.ofList ((s.toList.drop first).take (clampBound length stop - first))

/-- The characters in front of `stop`. -/
def before (s : String) (stop : Int) : String :=
  String.ofList (s.toList.take (clampBound s.length stop))

/-- The bound `-1` leaves the last character out. -/
theorem before_concat {s last : String} (single : last.length = 1) :
    before (s ++ last) (-1) = s := by
  have bound : clampBound (s ++ last).length (-1) = s.toList.length := by
    rw [clampBound, if_pos (by decide), String.length_append, single, String.length_toList]
    omega
  rw [before, bound, String.toList_append, List.take_left, String.ofList_toList]

/-- The characters from `start` on. -/
def after (s : String) (start : Int) : String :=
  String.ofList (s.toList.drop (clampBound s.length start))

/-! ## Repetition -/

/-- A character repeated; a negative count gives the empty text. -/
def repeated (count : Int) (c : Char) : String := String.ofList (List.replicate count.toNat c)

/-- Why a character cannot be repeated. -/
inductive RepeatFault where
  /-- The count does not fit into a signed word of 64 bits. -/
  | countTooWide
  /-- The row does not fit into memory. -/
  | rowTooLong
deriving DecidableEq, Repr

/-- The length of the longest row that there is room for, where nothing else is said. -/
def usualRoom : Nat := 1 <<< 40

/-- What is wrong with a count, if anything, when there is room for a row of some length. -/
def repeatFault? (room : Nat) (count : Int) : Option RepeatFault :=
  if count < -Nat.pow 2 63 ∨ Nat.pow 2 63 ≤ count then some .countTooWide
  else if room < count then some .rowTooLong
  else none

end Redex.Text
