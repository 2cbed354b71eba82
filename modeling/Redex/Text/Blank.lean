/-!
# Blank characters

Texts are stripped of blank characters at both ends before they are read as a term or as a command.
`isBlank` is the class, a table of code point ranges; `strip` removes it at the ends and leaves it
alone inside.
-/

namespace Redex.Text

/-- The code point ranges, both ends included, of the characters that count as blank: the ASCII
blanks with the four separator controls, the next-line control, the no-break space and the space,
line and paragraph separators. -/
def blankRanges : List (Nat × Nat) :=
  [(0x9, 0xD), (0x1C, 0x20), (0x85, 0x85), (0xA0, 0xA0), (0x1680, 0x1680), (0x2000, 0x200A),
    (0x2028, 0x2029), (0x202F, 0x202F), (0x205F, 0x205F), (0x3000, 0x3000)]

/-- Whether a character is blank. -/
def isBlank (c : Char) : Bool :=
  blankRanges.any fun r => r.1 ≤ c.toNat && c.toNat ≤ r.2

/-- Removes the characters of a class at both ends of a list. -/
def trimEnds (unwanted : Char → Bool) (cs : List Char) : List Char :=
  (((cs.dropWhile unwanted).reverse).dropWhile unwanted).reverse

/-- Removes the blanks at both ends of a list of characters. -/
def stripChars (cs : List Char) : List Char := trimEnds isBlank cs

/-- Removes the blanks at both ends of a text. -/
def strip (s : String) : String := String.ofList (stripChars s.toList)

end Redex.Text
