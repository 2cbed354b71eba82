/-!
# Lines

Two ways to cut a text into lines. A file ends its lines in a line feed, a carriage return, or both
in that order; what is typed ends its lines in a line feed alone. Neither counts an end of line at
the end of the text as the start of another line.
-/

namespace Redex.Text

/-- Puts a character in front of the first line; starts one if there is none. -/
def consLine (c : Char) : List (List Char) → List (List Char)
  | [] => [[c]]
  | line :: lines => (c :: line) :: lines

/-- The lines of a file, without their ends. -/
def fileLines : List Char → List (List Char)
  | [] => []
  | '\r' :: '\n' :: cs => [] :: fileLines cs
  | c :: cs => if c = '\n' ∨ c = '\r' then [] :: fileLines cs else consLine c (fileLines cs)

/-- The lines of typed input, without their ends. -/
def typedLines : List Char → List (List Char)
  | [] => []
  | c :: cs => if c = '\n' then [] :: typedLines cs else consLine c (typedLines cs)

end Redex.Text
