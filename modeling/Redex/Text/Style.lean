/-!
# Terminal styles

Some parts of the output stand out, in bold or in a colour. A `Style` says how such a part is shown.
In plain output it is shown as it is. Decorated output wraps it in terminal escape sequences: one
that switches bold on, one that sets a colour, and one that resets both. An empty text is wrapped
like any other.
-/

namespace Redex.Text

/-- The colours that output uses. -/
inductive Colour where
  | red
  | magenta
  | cyan
deriving DecidableEq, Repr

/-- The parameter that selects a colour in an escape sequence. -/
def Colour.code : Colour → Nat
  | red => 31
  | magenta => 35
  | cyan => 36

/-- How texts that stand out are shown. -/
structure Style where
  /-- A text in bold. -/
  bold : String → String
  /-- A text in bold and in a colour. -/
  paint : Colour → String → String

namespace Style

/-- Nothing stands out. -/
def plain : Style where
  bold text := text
  paint _ text := text

/-- The escape sequence with one numeric parameter. -/
def escape (code : Nat) : String := "\x1b[" ++ toString code ++ "m"

/-- What stands out is wrapped in escape sequences. -/
def decorated : Style where
  bold text := escape 1 ++ text ++ escape 0
  paint colour text := escape 1 ++ escape colour.code ++ text ++ escape 0

@[simp] theorem bold_plain (text : String) : plain.bold text = text := rfl

@[simp] theorem paint_plain (colour : Colour) (text : String) : plain.paint colour text = text :=
  rfl

end Style

end Redex.Text
