import Redex.Cursor
import Redex.Proofs.Grammar

/-!
# What a cursor has in front of it

A cursor `Faces` the characters from the token under it on, spaces aside; how the text was spaced
and which columns were counted plays no further part. Moving on takes one character off the front,
unless the next one starts no token.

`Yields` says what a step over a text may come to: a value with what is faced afterwards, or an
error, which may be about the nesting only under a given condition. For each step there are two
lemmas: one says what it has done if it succeeds, the other when it does.
-/

namespace Redex

open Grammar

namespace Cursor

/-- The kind of the first token of a row of characters without spaces, if there is a token. -/
def firstKind : List Char → Option Token.Kind
  | [] => some .endOfText
  | c :: _ => Token.Kind.ofChar? c

/-- Whether the token under the cursor and what comes after it are the given characters. -/
inductive Faces (cursor : Cursor) : List Char → Prop
  | atEnd : cursor.token.kind = .endOfText → spaceless cursor.rest = [] → Faces cursor []
  | onSymbol {c : Char} : Token.Kind.ofChar? c = some cursor.token.kind →
    cursor.token.lexeme = String.singleton c → Faces cursor (c :: spaceless cursor.rest)

section Faces

variable {cursor : Cursor} {c : Char} {cs : List Char} {kind : Token.Kind}

theorem Faces.firstKind_eq (faces : cursor.Faces cs) : firstKind cs = some cursor.token.kind := by
  cases faces with
  | atEnd ended _ => rw [ended]; rfl
  | onSymbol known _ => exact known

theorem Faces.readable (faces : cursor.Faces cs) : (firstKind cs).isSome = true := by
  rw [faces.firstKind_eq]
  rfl

theorem Faces.rest_eq (faces : cursor.Faces cs) : spaceless cursor.rest = cs.tail := by
  cases faces with
  | atEnd _ nothing => exact nothing
  | onSymbol _ _ => rfl

theorem Faces.lexeme_eq (faces : cursor.Faces (c :: cs)) :
    cursor.token.lexeme = String.singleton c := by
  cases faces with
  | onSymbol _ lexeme => exact lexeme

theorem Faces.isAt_iff (faces : cursor.Faces cs) :
    cursor.isAt kind = true ↔ firstKind cs = some kind := by
  rw [faces.firstKind_eq, isAt, beq_iff_eq, Option.some.injEq]

theorem Faces.length_le (faces : cursor.Faces cs) : cs.length ≤ cursor.rest.length + 1 := by
  have rest : (spaceless cursor.rest).length ≤ cursor.rest.length := List.length_filter_le ..
  have tail := congrArg List.length faces.rest_eq
  rw [List.length_tail] at tail
  omega

theorem exists_of_firstKind (here : firstKind cs = some kind) (symbol : kind ≠ .endOfText) :
    ∃ c rest, cs = c :: rest ∧ Shows kind c := by
  cases cs with
  | nil => exact absurd (Option.some.inj here).symm symbol
  | cons c rest => exact ⟨c, rest, rfl, ofChar?_eq_some_iff.1 here⟩

theorem firstKind_of_shows (kind : Token.Kind) (shows : Shows kind c) (cs : List Char) :
    firstKind (c :: cs) = some kind :=
  ofChar?_eq_some_iff.2 shows

theorem eq_nil_of_firstKind (ended : firstKind cs = some .endOfText) : cs = [] := by
  cases cs with
  | nil => rfl
  | cons c rest => cases ofChar?_eq_some_iff.1 ended

end Faces

/-! ## Moving on -/

/-- Leading spaces are no part of what is read. -/
theorem spaceless_cases (cs : List Char) :
    (cs.dropWhile (· == ' ') = [] ∧ spaceless cs = []) ∨
      ∃ c rest, cs.dropWhile (· == ' ') = c :: rest ∧ spaceless cs = c :: spaceless rest := by
  induction cs with
  | nil => exact Or.inl ⟨rfl, rfl⟩
  | cons c cs ih =>
    by_cases space : c = ' '
    · subst space
      exact ih
    · refine Or.inr ⟨c, cs, ?_, ?_⟩
      · simp [space]
      · simp [spaceless, space]

/-- Moving on gets to the next token, or else there is none and the error is not about nesting. -/
theorem advance_cases (cursor : Cursor) :
    (∃ next, advance cursor = .ok () next ∧ next.Faces (spaceless cursor.rest)) ∨
      (firstKind (spaceless cursor.rest) = none ∧
        ∃ error next, advance cursor = .error error next ∧ error.cause ≠ .nestedTooDeeply) := by
  unfold advance
  rcases spaceless_cases cursor.rest with ⟨dropped, nothing⟩ | ⟨c, rest, dropped, here⟩
  · rw [dropped, nothing]
    exact Or.inl ⟨_, rfl, .atEnd rfl rfl⟩
  · rw [dropped, here]
    cases known : Token.Kind.ofChar? c with
    | some kind => exact Or.inl ⟨_, by simp only [known]; rfl, .onSymbol known rfl⟩
    | none => exact Or.inr ⟨known, _, _, by simp only [known]; rfl, by simp⟩

/-- What a step of the parser comes to: a value and a cursor that meet the goal, or an error, which
is about the nesting only if that is `deep`. -/
def Yields {α : Type} (deep : Prop) (goal : α → List Char → Prop) :
    EStateM.Result SyntaxError Cursor α → Prop
  | .ok a cursor => ∃ cs, cursor.Faces cs ∧ goal a cs
  | .error error _ => error.cause = .nestedTooDeeply → deep

theorem bind_ok {α β : Type} {first : Scan α} {a : α} {cursor next : Cursor}
    (outcome : first cursor = .ok a next) (rest : α → Scan β) :
    (first >>= rest) cursor = rest a next := by
  change EStateM.bind first rest cursor = _
  rw [EStateM.bind, outcome]

theorem bind_error {α β : Type} {first : Scan α} {error : SyntaxError} {cursor next : Cursor}
    (outcome : first cursor = .error error next) (rest : α → Scan β) :
    (first >>= rest) cursor = .error error next := by
  change EStateM.bind first rest cursor = _
  rw [EStateM.bind, outcome]

section Yields

variable {α β : Type} {deep deep' : Prop} {goal : α → List Char → Prop}
  {goal' : β → List Char → Prop} {cursor : Cursor} {cs : List Char} {kind : Token.Kind}

theorem Yields.mono {weaker : α → List Char → Prop} {outcome : EStateM.Result SyntaxError Cursor α}
    (yields : Yields deep goal outcome) (deeper : deep → deep')
    (implies : ∀ {a cs}, goal a cs → weaker a cs) : Yields deep' weaker outcome := by
  rcases outcome with ⟨a, next⟩ | ⟨error, next⟩
  · obtain ⟨rest, faces, reached⟩ := yields
    exact ⟨rest, faces, implies reached⟩
  · intro nested
    exact deeper (yields nested)

theorem Yields.bind {first : Scan α} {rest : α → Scan β} (yields : Yields deep goal (first cursor))
    (continues : ∀ {a next ds}, next.Faces ds → goal a ds → Yields deep goal' (rest a next)) :
    Yields deep goal' ((first >>= rest) cursor) := by
  rcases outcome : first cursor with ⟨a, next⟩ | ⟨error, next⟩
  · rw [outcome] at yields
    rw [bind_ok outcome]
    obtain ⟨ds, faces, reached⟩ := yields
    exact continues faces reached
  · rw [outcome] at yields
    rw [bind_error outcome]
    exact yields

theorem advance_yields (faces : cursor.Faces cs) :
    Yields deep (fun _ rest => rest = cs.tail) (advance cursor) := by
  have moved := advance_cases cursor
  rw [faces.rest_eq] at moved
  rcases moved with ⟨next, done, ahead⟩ | ⟨-, error, next, failed, other⟩
  · rw [done]
    exact ⟨_, ahead, rfl⟩
  · rw [failed]
    exact fun nested => absurd nested other

theorem advance_of_readable (faces : cursor.Faces cs)
    (readable : (firstKind cs.tail).isSome = true) :
    ∃ next, advance cursor = .ok () next ∧ next.Faces cs.tail := by
  have moved := advance_cases cursor
  rw [faces.rest_eq] at moved
  rcases moved with done | ⟨unreadable, -⟩
  · exact done
  · rw [unreadable] at readable
    cases readable

/-! ## Tokens -/

theorem expect_of_isAt (here : cursor.isAt kind = true) :
    expect kind cursor = (advance >>= fun _ => pure cursor.token.lexeme : Scan String) cursor := by
  change (if cursor.isAt kind = true then _ else _ : Scan String) cursor = _
  rw [if_pos here]

theorem expect_of_not_isAt (other : ¬cursor.isAt kind = true) :
    expect kind cursor = .error (cursor.errorHere (.expectedToken kind)) cursor := by
  change (if cursor.isAt kind = true then _ else _ : Scan String) cursor = _
  rw [if_neg other]
  rfl

theorem expect_yields (kind : Token.Kind) (faces : cursor.Faces cs) :
    Yields deep (fun lexeme rest => firstKind cs = some kind ∧ lexeme = cursor.token.lexeme ∧
      rest = cs.tail) (expect kind cursor) := by
  by_cases here : cursor.isAt kind = true
  · rw [expect_of_isAt here]
    refine (advance_yields faces).bind ?_
    intro _ next rest ahead behind
    exact ⟨rest, ahead, faces.isAt_iff.1 here, rfl, behind⟩
  · rw [expect_of_not_isAt here]
    intro nested
    cases nested

theorem expect_symbol_yields (kind : Token.Kind) (symbol : kind ≠ .endOfText)
    (faces : cursor.Faces cs) :
    Yields deep (fun lexeme rest => ∃ c, cs = c :: rest ∧ Shows kind c ∧
      lexeme = String.singleton c) (expect kind cursor) := by
  refine (expect_yields kind faces).mono id ?_
  rintro lexeme rest ⟨here, rfl, rfl⟩
  obtain ⟨c, rest, rfl, shows⟩ := exists_of_firstKind here symbol
  exact ⟨c, rfl, shows, faces.lexeme_eq⟩

theorem expect_of_readable (faces : cursor.Faces cs) (here : firstKind cs = some kind)
    (readable : (firstKind cs.tail).isSome = true) :
    ∃ next, expect kind cursor = .ok cursor.token.lexeme next ∧ next.Faces cs.tail := by
  obtain ⟨next, moved, ahead⟩ := advance_of_readable faces readable
  refine ⟨next, ?_, ahead⟩
  rw [expect_of_isAt (faces.isAt_iff.2 here), bind_ok moved]
  rfl

theorem expect_symbol (kind : Token.Kind) {c : Char} (faces : cursor.Faces (c :: cs))
    (shows : Shows kind c) (readable : (firstKind cs).isSome = true) :
    ∃ next, expect kind cursor = .ok (String.singleton c) next ∧ next.Faces cs := by
  rw [← faces.lexeme_eq]
  exact expect_of_readable faces (firstKind_of_shows kind shows cs) readable

theorem skip_of_isAt (here : cursor.isAt kind = true) :
    skip kind cursor = (expect kind >>= fun lexeme => pure (some lexeme)) cursor := by
  change (if cursor.isAt kind = true then _ else _ : Scan (Option String)) cursor = _
  rw [if_pos here]
  have expected := expect_of_isAt here
  rcases moved : advance cursor with ⟨_, next⟩ | ⟨error, next⟩
  · rw [bind_ok moved] at expected ⊢
    rw [bind_ok expected]
  · rw [bind_error moved] at expected ⊢
    rw [bind_error expected]

theorem skip_of_not_isAt (other : ¬cursor.isAt kind = true) :
    skip kind cursor = .ok none cursor := by
  change (if cursor.isAt kind = true then _ else _ : Scan (Option String)) cursor = _
  rw [if_neg other]
  rfl

theorem skip_yields (kind : Token.Kind) (symbol : kind ≠ .endOfText) (faces : cursor.Faces cs) :
    Yields deep (fun skipped rest => (skipped.isSome = true ∧ ∃ c, cs = c :: rest ∧ Shows kind c) ∨
      (skipped = none ∧ rest = cs ∧ firstKind cs ≠ some kind)) (skip kind cursor) := by
  by_cases here : cursor.isAt kind = true
  · rw [skip_of_isAt here]
    refine (expect_symbol_yields kind symbol faces).bind ?_
    rintro _ next rest ahead ⟨c, behind, shows, -⟩
    exact ⟨rest, ahead, Or.inl ⟨rfl, c, behind, shows⟩⟩
  · rw [skip_of_not_isAt here]
    exact ⟨cs, faces, Or.inr ⟨rfl, rfl, fun first => here (faces.isAt_iff.2 first)⟩⟩

theorem skip_symbol (kind : Token.Kind) {c : Char} (faces : cursor.Faces (c :: cs))
    (shows : Shows kind c) (readable : (firstKind cs).isSome = true) :
    ∃ next, skip kind cursor = .ok (some (String.singleton c)) next ∧ next.Faces cs := by
  obtain ⟨next, done, ahead⟩ := expect_symbol kind faces shows readable
  refine ⟨next, ?_, ahead⟩
  rw [skip_of_isAt (faces.isAt_iff.2 (firstKind_of_shows kind shows cs)), bind_ok done]
  rfl

theorem skip_other (faces : cursor.Faces cs) (other : firstKind cs ≠ some kind) :
    skip kind cursor = .ok none cursor :=
  skip_of_not_isAt fun here => other (faces.isAt_iff.1 here)

end Yields

end Cursor

end Redex
