import Redex.Cursor
import Redex.Term.Basic

/-!
# Reading terms

The grammar has three levels. A *term* is an abstraction, whose body runs as far right as possible,
or an application; an *application* is a row of one or more atoms, applied from left to right; an
*atom* is an identifier or a term in parentheses. Each level is a function that starts on the first
token of its phrase and stops on the first token behind it.

Reading a phrase nests calls: one for each level that is entered. The functions take the number of
calls that may still be nested and fail when it runs out.
-/

namespace Redex.Parser

open Cursor (Scan)

/-- Fails because the nesting is too deep, for which the whole text is to blame. -/
def tooDeep {α : Type} : Scan α := do
  let source := (← get).source
  throw ⟨.nestedTooDeeply, source, 0, source.length⟩

/-- Whether the cursor stands on a token that ends a row of atoms. -/
def atStop (cursor : Cursor) : Bool :=
  cursor.isAt .endOfText || cursor.isAt .closeParen || cursor.isAt .dot

/-- Applies `function` to the atoms that follow, from left to right, `count` of them at most. -/
def applyAtoms (atom : Scan Term) : Nat → Term → Scan Term
  | 0, function => return function
  | count + 1, function => do
    if atStop (← get) then
      return function
    else
      let argument ← atom
      applyAtoms atom count (.app function argument)

mutual

/-- Reads a term. -/
def term : Nat → Scan Term
  | 0 => tooDeep
  | depth + 1 => do
    if (← Cursor.skip .lambda).isSome then
      let parameter ← Cursor.expect .identifier
      let _ ← Cursor.expect .dot
      let body ← term depth
      return .abs parameter body
    else
      application depth

/-- Reads a row of atoms. Every atom but the last takes a character from the rest of the text, so
there are at most as many more atoms as characters, and one. -/
def application : Nat → Scan Term
  | 0 => tooDeep
  | depth + 1 => do
    let function ← atom depth
    let cursor ← get
    applyAtoms (atom depth) (cursor.rest.length + 1) function

/-- Reads an identifier or a term in parentheses. -/
def atom : Nat → Scan Term
  | 0 => tooDeep
  | depth + 1 => do
    if (← Cursor.skip .openParen).isSome then
      let inner ← term depth
      let _ ← Cursor.expect .closeParen
      return inner
    else
      let cursor ← get
      if cursor.isAt .identifier then
        return .var (← Cursor.expect .identifier)
      else
        throw (cursor.errorHere .expectedAtom)

end

/-- Reads a term that is the whole rest of the text. -/
def whole (depth : Nat) : Scan Term := do
  let result ← term depth
  let _ ← Cursor.expect .endOfText
  return result

end Redex.Parser

namespace Redex

/-- Reads a text as one term. -/
def parse (depth : Nat) (source : String) : Except SyntaxError Term :=
  match Cursor.start source with
  | .error error => .error error
  | .ok cursor =>
    match Parser.whole depth cursor with
    | .ok term _ => .ok term
    | .error error _ => .error error

end Redex
