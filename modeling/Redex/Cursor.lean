import Redex.SyntaxError

/-!
# A cursor over the tokens of a text

A cursor holds the token it stands on and the characters after it. Moving on skips spaces and reads
one more token. A character that starts no token is an error: the cursor moves past it and keeps
the token it stood on, so that the next move starts behind the offending character.
-/

namespace Redex

/-- A position between the tokens of a text. -/
structure Cursor where
  /-- The whole text. -/
  source : String
  /-- How many characters have been read. -/
  column : Nat
  /-- The characters that have not been read. -/
  rest : List Char
  /-- The token under the cursor. -/
  token : Token
deriving DecidableEq, Repr

namespace Cursor

/-- Computations that move a cursor and may fail; the cursor outlives a failure. -/
abbrev Scan := EStateM SyntaxError Cursor

/-- Moves on to the next token. -/
def advance : Scan Unit := fun cursor =>
  let column := cursor.column + (cursor.rest.takeWhile (· == ' ')).length
  match cursor.rest.dropWhile (· == ' ') with
  | [] => .ok () { cursor with column := column, rest := [], token := Token.atEnd column }
  | c :: rest =>
    match Token.Kind.ofChar? c with
    | some kind =>
      let token := ⟨kind, String.singleton c, column⟩
      .ok () { cursor with column := column + 1, rest := rest, token := token }
    | none =>
      .error ⟨.unexpectedCharacter c, cursor.source, column, column + 1⟩
        { cursor with column := column + 1, rest := rest }

/-- A cursor on the first token of a text. -/
def start (source : String) : Except SyntaxError Cursor :=
  match advance ⟨source, 0, source.toList, Token.atEnd 0⟩ with
  | .ok () cursor => .ok cursor
  | .error error _ => .error error

/-- Whether the cursor stands on a token of the given kind. -/
def isAt (kind : Token.Kind) (cursor : Cursor) : Bool := cursor.token.kind == kind

/-- An error that blames the token under the cursor. The end of the text has no characters and takes
up a column all the same. -/
def errorHere (cause : SyntaxError.Cause) (cursor : Cursor) : SyntaxError :=
  let column := cursor.token.column
  ⟨cause, cursor.source, column, column + max cursor.token.lexeme.length 1⟩

/-- Moves past a token of the given kind and gives its lexeme; does nothing on any other. -/
def skip (kind : Token.Kind) : Scan (Option String) := do
  let cursor ← get
  if cursor.isAt kind then
    advance
    return some cursor.token.lexeme
  else
    return none

/-- Moves past a token of the given kind and gives its lexeme; any other is an error. -/
def expect (kind : Token.Kind) : Scan String := do
  let cursor ← get
  if cursor.isAt kind then
    advance
    return cursor.token.lexeme
  else
    throw (cursor.errorHere (.expectedToken kind))

/-- The tokens from the one under the cursor up to the end of the text, or up to an error, and the
cursor after the last move. At most `moves` moves are made. -/
def drainWithin : Nat → Cursor → List Token × Option SyntaxError × Cursor
  | 0, cursor => ([cursor.token], none, cursor)
  | moves + 1, cursor =>
    if cursor.isAt .endOfText then ([cursor.token], none, cursor)
    else match advance cursor with
      | .ok () next =>
        let drained := drainWithin moves next
        (cursor.token :: drained.1, drained.2)
      | .error error next => ([cursor.token], some error, next)

/-- All tokens from the one under the cursor on. Every move but the last takes a character from
the rest of the text, so one move more than there are characters is enough. -/
def drain (cursor : Cursor) : List Token × Option SyntaxError × Cursor :=
  drainWithin (cursor.rest.length + 1) cursor

end Cursor

/-- All tokens of a text, or those in front of the first error. -/
def tokens (source : String) : List Token × Option SyntaxError :=
  match Cursor.start source with
  | .ok cursor =>
    let drained := cursor.drain
    (drained.1, drained.2.1)
  | .error error => ([], some error)

end Redex
