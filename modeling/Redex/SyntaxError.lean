import Redex.Token

/-!
# Errors in the text of a term

Reading stops at the first character or token that cannot be continued, and the error names it by
the span that it takes up in the text.
-/

namespace Redex

/-- Why a text is not a term. -/
inductive SyntaxError.Cause where
  /-- A character that no token starts with. -/
  | unexpectedCharacter (c : Char)
  /-- Another token than the only one that can follow. -/
  | expectedToken (kind : Token.Kind)
  /-- Neither an identifier nor an opening parenthesis where an atom has to start. -/
  | expectedAtom
  /-- More levels of nesting than reading allows for. -/
  | nestedTooDeeply
deriving DecidableEq, Repr

/-- An error in a text, with the span that it blames. -/
structure SyntaxError where
  cause : SyntaxError.Cause
  source : String
  /-- The column that the error points at, where the span starts. -/
  column : Nat
  /-- The column behind the span. -/
  stop : Nat
deriving DecidableEq, Repr

end Redex
