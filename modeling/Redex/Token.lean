/-!
# Tokens

The text of a term is read as a row of tokens. Every token is a single character: a backslash or
the letter λ, a parenthesis, a dot, or a lower-case ASCII letter, which is a whole identifier. The
end of the text counts as a token too, with an empty lexeme.
-/

namespace Redex

namespace Token

/-- The kinds of tokens. -/
inductive Kind where
  | endOfText
  | lambda
  | openParen
  | closeParen
  | identifier
  | dot
deriving DecidableEq, Repr

/-- The word for a kind in error messages. -/
def Kind.label : Kind → String
  | endOfText => "EOF"
  | lambda => "LAMBDA"
  | openParen => "LPAREN"
  | closeParen => "RPAREN"
  | identifier => "LCID"
  | dot => "DOT"

/-- The kind of token that a character is. -/
def Kind.ofChar? (c : Char) : Option Kind :=
  if c = '(' then some openParen
  else if c = ')' then some closeParen
  else if c = '.' then some dot
  else if c = '\\' ∨ c = 'λ' then some lambda
  else if 'a' ≤ c ∧ c ≤ 'z' then some identifier
  else none

end Token

/-- A token with the column of its first character, counted from zero. -/
structure Token where
  kind : Token.Kind
  lexeme : String
  column : Nat
deriving DecidableEq, Repr

/-- The token at the end of a text of `length` characters. -/
def Token.atEnd (length : Nat) : Token := ⟨.endOfText, "", length⟩

end Redex
