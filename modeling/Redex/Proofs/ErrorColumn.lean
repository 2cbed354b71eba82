import Redex.Proofs.Prefixes
import Redex.Report

/-!
# Where a syntax error points

A syntax error names a column of the text. It is the first one that rules a term out: everything in
front of it begins a term, and no text that goes on with the character at that column is one, or, at
the end of the text, the text itself is none.

`Marks` ties a column to the characters that come from there on, and a cursor that `Stands` in a
text keeps its token tied in this way. `Locates` says of a step of the parser that it leaves the
cursor standing in the text, or that its error marks where the step went wrong, and blames that
column alone. Each level of the parser goes wrong where the phrase that it reads breaks
(`scan_locates`).
-/

namespace Redex

open Grammar

namespace Cursor

/-! ## Columns -/

/-- Whether a text goes on with the given characters from a column on, spaces aside; the first one
stands at the column itself. -/
def Marks (source : String) (column : Nat) (cs : List Char) : Prop :=
  ∃ passed ahead, source.toList = passed ++ ahead ∧ column = passed.length ∧
    spaceless ahead = cs ∧ ahead.head? = cs.head?

/-- Whether a cursor has read a text up to its column. -/
structure Tracks (source : String) (cursor : Cursor) : Prop where
  source_eq : cursor.source = source
  split : ∃ passed, source.toList = passed ++ cursor.rest ∧ cursor.column = passed.length

/-- Whether a cursor stands in a text, with the given characters in front of it. -/
structure Stands (source : String) (cursor : Cursor) (cs : List Char) : Prop where
  faces : cursor.Faces cs
  tracks : cursor.Tracks source
  marks : Marks source cursor.token.column cs
  narrow : cursor.token.lexeme.length ≤ 1

/-- An error that blames a token under a cursor blames one column. -/
theorem errorHere_stop {cursor : Cursor} (narrow : cursor.token.lexeme.length ≤ 1)
    (cause : SyntaxError.Cause) :
    (cursor.errorHere cause).stop = cursor.token.column + 1 := by
  have width : max cursor.token.lexeme.length 1 = 1 := Nat.max_eq_right narrow
  change cursor.token.column + max cursor.token.lexeme.length 1 = _
  rw [width]

theorem spaceless_dropWhile (cs : List Char) :
    spaceless (cs.dropWhile (· == ' ')) = spaceless cs := by
  induction cs with
  | nil => rfl
  | cons c cs ih =>
    by_cases space : c = ' '
    · subst space
      exact ih
    · simp [space]

/-- Moving on leaves the new token, or the error, at the column of the next character, and neither
takes up more than that column. -/
theorem advance_marks {source : String} {cursor : Cursor} (tracks : cursor.Tracks source) :
    match advance cursor with
    | .ok _ next => next.Tracks source ∧
        Marks source next.token.column (spaceless cursor.rest) ∧ next.token.lexeme.length ≤ 1
    | .error error _ => error.source = source ∧ error.stop = error.column + 1 ∧
        Marks source error.column (spaceless cursor.rest) := by
  obtain ⟨same, passed, split, column⟩ := tracks
  have same' := spaceless_dropWhile cursor.rest
  have parts : cursor.rest.takeWhile (· == ' ') ++ cursor.rest.dropWhile (· == ' ') = cursor.rest :=
    List.takeWhile_append_dropWhile
  rw [← parts, ← List.append_assoc] at split
  have length : cursor.column + (cursor.rest.takeWhile (· == ' ')).length =
      (passed ++ cursor.rest.takeWhile (· == ' ')).length := by
    rw [List.length_append, column]
  have first : (spaceless cursor.rest).head? = (cursor.rest.dropWhile (· == ' ')).head? := by
    rcases spaceless_cases cursor.rest with ⟨dropped, nothing⟩ | ⟨c, rest, dropped, here⟩
    · rw [dropped, nothing]
    · rw [dropped, here]
      rfl
  have marks : Marks source (cursor.column + (cursor.rest.takeWhile (· == ' ')).length)
      (spaceless cursor.rest) :=
    ⟨_, _, split, length, same', first.symm⟩
  unfold advance
  rcases dropped : cursor.rest.dropWhile (· == ' ') with _ | ⟨c, rest⟩
  · rw [dropped] at split
    exact ⟨⟨same, _, split, length⟩, marks, Nat.zero_le 1⟩
  · rw [dropped] at split
    cases known : Token.Kind.ofChar? c with
    | none =>
      simp only [known]
      exact ⟨same, trivial, marks⟩
    | some kind =>
      simp only [known]
      have narrow : (String.singleton c).length ≤ 1 := Nat.le_of_eq String.length_singleton
      refine ⟨⟨same, passed ++ cursor.rest.takeWhile (· == ' ') ++ [c], ?_, ?_⟩, marks, narrow⟩
      · rw [split, List.append_assoc _ [c], List.singleton_append]
      · rw [List.length_append, ← length]
        rfl

/-! ## Steps that locate their errors -/

/-- Whether a step leaves the cursor standing in the text, or its error, unless it is about the
nesting, blames the one column that marks characters that are `wrong`. -/
def Locates {α : Type} (source : String) (wrong : List Char → Prop) :
    EStateM.Result SyntaxError Cursor α → Prop
  | .ok _ cursor => ∃ cs, cursor.Stands source cs
  | .error error _ => error.cause ≠ .nestedTooDeeply →
      error.source = source ∧ error.stop = error.column + 1 ∧
        ∃ bad, Marks source error.column bad ∧ wrong bad

section Locates

variable {α β : Type} {source : String} {wrong wrong' : List Char → Prop}
  {goal : α → List Char → Prop} {cursor : Cursor} {cs : List Char} {kind : Token.Kind}

theorem Locates.mono {outcome : EStateM.Result SyntaxError Cursor α}
    (locates : Locates source wrong outcome) (implies : ∀ {bad}, wrong bad → wrong' bad) :
    Locates source wrong' outcome := by
  rcases outcome with ⟨a, next⟩ | ⟨error, next⟩
  · exact locates
  · intro shallow
    obtain ⟨same, one, bad, marks, found⟩ := locates shallow
    exact ⟨same, one, bad, marks, implies found⟩

/-- What a step has read is known from what it yields. -/
theorem Locates.bind {first : Scan α} {rest : α → Scan β}
    (locates : Locates source wrong (first cursor)) (yields : Yields True goal (first cursor))
    (continues : ∀ {a next ds}, next.Stands source ds → goal a ds →
      Locates source wrong (rest a next)) :
    Locates source wrong ((first >>= rest) cursor) := by
  rcases outcome : first cursor with ⟨a, next⟩ | ⟨error, next⟩
  · rw [outcome] at locates yields
    rw [bind_ok outcome]
    obtain ⟨ds, stands⟩ := locates
    obtain ⟨ds', faces, reached⟩ := yields
    cases stands.faces.unique faces
    exact continues stands reached
  · rw [outcome] at locates
    rw [bind_error outcome]
    exact locates

theorem locates_advance (tracks : cursor.Tracks source) :
    Locates source (fun bad => bad = spaceless cursor.rest ∧ firstKind bad = none)
      (advance cursor) := by
  have marks := advance_marks tracks
  rcases advance_cases cursor with ⟨next, done, faces⟩ | ⟨unreadable, error, next, failed, -⟩
  · rw [done] at marks ⊢
    obtain ⟨tracks', marks, narrow⟩ := marks
    exact ⟨_, faces, tracks', marks, narrow⟩
  · rw [failed] at marks ⊢
    intro _
    obtain ⟨same, one, marks⟩ := marks
    exact ⟨same, one, _, marks, rfl, unreadable⟩

/-- Nothing can be read behind a token of a given kind. -/
def Dangles (kind : Token.Kind) (cs bad : List Char) : Prop :=
  ∃ c, cs = c :: bad ∧ Shows kind c ∧ firstKind bad = none

theorem dangles_of_tail {bad : List Char} (here : firstKind cs = some kind) (behind : bad = cs.tail)
    (unreadable : firstKind bad = none) : Dangles kind cs bad := by
  subst behind
  cases cs with
  | nil => cases unreadable
  | cons c rest => exact ⟨c, rfl, shows_of_ofChar? here, unreadable⟩

/-- A token that is asked for is not there, or it is and nothing can be read behind it. -/
theorem expect_locates (kind : Token.Kind) (stands : cursor.Stands source cs) :
    Locates source (fun bad => bad = cs ∧ firstKind cs ≠ some kind ∨ Dangles kind cs bad)
      (expect kind cursor) := by
  by_cases here : cursor.isAt kind = true
  · rw [expect_of_isAt here]
    refine ((locates_advance stands.tracks).mono ?_).bind (advance_yields stands.faces) ?_
    · rintro bad ⟨behind, unreadable⟩
      rw [stands.faces.rest_eq] at behind
      exact Or.inr (dangles_of_tail (stands.faces.isAt_iff.1 here) behind unreadable)
    · intro _ next ds stands' _
      exact ⟨ds, stands'⟩
  · rw [expect_of_not_isAt here]
    intro _
    refine ⟨stands.tracks.source_eq, errorHere_stop stands.narrow _, cs, stands.marks,
      Or.inl ⟨rfl, ?_⟩⟩
    exact fun first => here (stands.faces.isAt_iff.2 first)

theorem skip_locates (kind : Token.Kind) (stands : cursor.Stands source cs) :
    Locates source (Dangles kind cs) (skip kind cursor) := by
  by_cases here : cursor.isAt kind = true
  · rw [skip_of_isAt here]
    refine ((expect_locates kind stands).mono ?_).bind (expect_yields kind stands.faces) ?_
    · rintro bad (⟨rfl, other⟩ | dangles)
      · exact absurd (stands.faces.isAt_iff.1 here) other
      · exact dangles
    · intro _ next ds stands' _
      exact ⟨ds, stands'⟩
  · rw [skip_of_not_isAt here]
    exact ⟨cs, stands⟩

end Locates

end Cursor

/-! ## The levels of the parser -/

namespace Grammar

open Cursor

section Levels

variable {depth : Nat} {source : String} {cursor : Cursor} {cs : List Char}

theorem term_locates
    (termLocates : ∀ {cursor cs}, cursor.Stands source cs →
      Locates source (Phrase.term.Breaks cs) (Parser.term depth cursor))
    (applicationLocates : ∀ {cursor cs}, cursor.Stands source cs →
      Locates source (Phrase.application.Breaks cs) (Parser.application depth cursor))
    (stands : cursor.Stands source cs) :
    Locates source (Phrase.term.Breaks cs) (Parser.term (depth + 1) cursor) := by
  unfold Parser.term
  have skipped : Locates source (Phrase.term.Breaks cs) (skip .lambda cursor) := by
    refine (skip_locates .lambda stands).mono ?_
    rintro bad ⟨l, rfl, lambda, unreadable⟩
    exact breaks_parameter lambda (by rw [unreadable]; simp)
  refine skipped.bind (skip_yields .lambda (by decide) stands.faces) ?_
  rintro _ next₁ rest₁ stands₁ (⟨taken, l, rfl, lambda⟩ | ⟨rfl, rfl, other⟩)
  · rw [if_pos taken]
    have named : Locates source (Phrase.term.Breaks (l :: rest₁)) (expect .identifier next₁) := by
      refine (expect_locates .identifier stands₁).mono ?_
      rintro bad (⟨rfl, other⟩ | ⟨x, rfl, letter, unreadable⟩)
      · exact breaks_parameter lambda other
      · exact breaks_dot lambda letter (by rw [unreadable]; simp)
    refine named.bind (expect_symbol_yields .identifier (by decide) stands₁.faces) ?_
    rintro _ next₂ rest₂ stands₂ ⟨x, rfl, letter, -⟩
    have dotted : Locates source (Phrase.term.Breaks (l :: x :: rest₂)) (expect .dot next₂) := by
      refine (expect_locates .dot stands₂).mono ?_
      rintro bad (⟨rfl, other⟩ | ⟨d, rfl, rfl, unreadable⟩)
      · exact breaks_dot lambda letter other
      · exact breaks_body lambda letter (Phrase.term.breaks_of_unreadable unreadable)
    refine dotted.bind (expect_symbol_yields .dot (by decide) stands₂.faces) ?_
    rintro _ next₃ rest₃ stands₃ ⟨d, rfl, rfl, -⟩
    have body : Locates source (Phrase.term.Breaks (l :: x :: '.' :: rest₃))
        (Parser.term depth next₃) :=
      (termLocates stands₃).mono (breaks_body lambda letter)
    refine body.bind ((scan_yields depth .term stands₃.faces).mono (fun _ => trivial) id) ?_
    intro _ next₄ rest₄ stands₄ _
    exact ⟨rest₄, stands₄⟩
  · rw [if_neg (by simp)]
    exact (applicationLocates stands₁).mono (breaks_application other)

theorem atom_locates
    (termLocates : ∀ {cursor cs}, cursor.Stands source cs →
      Locates source (Phrase.term.Breaks cs) (Parser.term depth cursor))
    (stands : cursor.Stands source cs) :
    Locates source (Phrase.atom.Breaks cs) (Parser.atom (depth + 1) cursor) := by
  unfold Parser.atom
  have skipped : Locates source (Phrase.atom.Breaks cs) (skip .openParen cursor) := by
    refine (skip_locates .openParen stands).mono ?_
    rintro bad ⟨o, rfl, rfl, unreadable⟩
    exact breaks_inner (Phrase.term.breaks_of_unreadable unreadable)
  refine skipped.bind (skip_yields .openParen (by decide) stands.faces) ?_
  rintro _ next₁ rest₁ stands₁ (⟨taken, o, rfl, rfl⟩ | ⟨rfl, rfl, closed⟩)
  · rw [if_pos taken]
    have inner : Locates source (Phrase.atom.Breaks ('(' :: rest₁)) (Parser.term depth next₁) :=
      (termLocates stands₁).mono breaks_inner
    refine inner.bind ((scan_yields depth .term stands₁.faces).mono (fun _ => trivial) id) ?_
    rintro _ next₂ rest₂ stands₂ ⟨front, rfl, derives, stops⟩
    have ended : Locates source (Phrase.atom.Breaks ('(' :: (front ++ rest₂)))
        (expect .closeParen next₂) := by
      refine (expect_locates .closeParen stands₂).mono ?_
      rintro bad (⟨rfl, other⟩ | ⟨c, rfl, rfl, unreadable⟩)
      · exact breaks_close derives stops other
      · exact breaks_behind_parens derives unreadable
    refine ended.bind (expect_yields .closeParen stands₂.faces) ?_
    intro _ next₃ rest₃ stands₃ _
    exact ⟨rest₃, stands₃⟩
  · rw [if_neg (by simp)]
    change Locates _ _ ((if next₁.isAt .identifier = true then _ else _ : Scan Term) next₁)
    by_cases letter : next₁.isAt .identifier = true
    · rw [if_pos letter]
      have here := stands₁.faces.isAt_iff.1 letter
      have named : Locates source (Phrase.atom.Breaks rest₁) (expect .identifier next₁) := by
        refine (expect_locates .identifier stands₁).mono ?_
        rintro bad (⟨rfl, other⟩ | ⟨x, rfl, letter, unreadable⟩)
        · exact absurd here other
        · exact breaks_behind_letter letter unreadable
      refine named.bind (expect_yields .identifier stands₁.faces) ?_
      intro _ next₂ rest₂ stands₂ _
      exact ⟨rest₂, stands₂⟩
    · rw [if_neg letter]
      intro _
      refine ⟨stands₁.tracks.source_eq, errorHere_stop stands₁.narrow _, rest₁, stands₁.marks,
        breaks_atom closed ?_⟩
      exact fun here => letter (stands₁.faces.isAt_iff.2 here)

/-- The loop over the atoms of a row. -/
theorem applyAtoms_locates
    (atomLocates : ∀ {cursor cs}, cursor.Stands source cs →
      Locates source (Phrase.atom.Breaks cs) (Parser.atom depth cursor))
    (count : Nat) (function : Term) (stands : cursor.Stands source cs) :
    Locates source (RowBreaks cs)
      (Parser.applyAtoms (Parser.atom depth) count function cursor) := by
  induction count generalizing function cursor cs with
  | zero => exact ⟨cs, stands⟩
  | succ count ih =>
    change Locates _ _ ((if Parser.atStop cursor = true then _ else _ : Scan Term) cursor)
    by_cases stop : Parser.atStop cursor = true
    · rw [if_pos stop]
      exact ⟨cs, stands⟩
    · rw [if_neg stop]
      have goesOn := fun stops => stop ((atStop_iff stands.faces).2 stops)
      have first : Locates source (RowBreaks cs) (Parser.atom depth cursor) :=
        (atomLocates stands).mono (rowBreaks_first goesOn)
      refine first.bind ((scan_yields depth .atom stands.faces).mono (fun _ => trivial) id) ?_
      rintro argument next rest stands' ⟨front, rfl, derives, readable⟩
      exact (ih _ stands').mono (rowBreaks_next derives readable)

theorem application_locates
    (atomLocates : ∀ {cursor cs}, cursor.Stands source cs →
      Locates source (Phrase.atom.Breaks cs) (Parser.atom depth cursor))
    (stands : cursor.Stands source cs) :
    Locates source (Phrase.application.Breaks cs) (Parser.application (depth + 1) cursor) := by
  unfold Parser.application
  have first : Locates source (Phrase.application.Breaks cs) (Parser.atom depth cursor) :=
    (atomLocates stands).mono breaks_function
  refine first.bind ((scan_yields depth .atom stands.faces).mono (fun _ => trivial) id) ?_
  rintro function next rest stands' ⟨front, rfl, derives, readable⟩
  change Locates _ _ (Parser.applyAtoms (Parser.atom depth) (next.rest.length + 1) function next)
  exact (applyAtoms_locates atomLocates _ function stands').mono (breaks_row derives readable)

/-- A level of the parser goes wrong where its phrase breaks. -/
theorem scan_locates (depth : Nat) (phrase : Phrase) {cursor : Cursor} {cs : List Char}
    (stands : cursor.Stands source cs) :
    Locates source (phrase.Breaks cs) (phrase.scan depth cursor) := by
  induction depth generalizing phrase cursor cs with
  | zero =>
    cases phrase with
    | term => exact fun shallow => absurd rfl shallow
    | application => exact fun shallow => absurd rfl shallow
    | atom => exact fun shallow => absurd rfl shallow
  | succ depth ih =>
    cases phrase with
    | term => exact term_locates (ih .term) (ih .application) stands
    | application => exact application_locates (ih .atom) stands
    | atom => exact atom_locates (ih .term) stands

end Levels

end Grammar

/-! ## Whole texts -/

open Cursor

theorem whole_locates (depth : Nat) {source : String} {cursor : Cursor} {cs : List Char}
    (stands : cursor.Stands source cs) :
    Locates source (Fails cs) (Parser.whole depth cursor) := by
  unfold Parser.whole
  have term : Locates source (Fails cs) (Parser.term depth cursor) :=
    (scan_locates depth .term stands).mono Phrase.Breaks.fails
  refine term.bind ((scan_yields depth .term stands.faces).mono (fun _ => trivial) id) ?_
  rintro t next rest stands' ⟨front, rfl, derives, stops⟩
  have ended : Locates source (Fails (front ++ rest)) (expect .endOfText next) := by
    refine (expect_locates .endOfText stands').mono ?_
    rintro bad (⟨rfl, more⟩ | ⟨c, -, nothing, -⟩)
    · exact fails_behind derives stops more
    · cases nothing
  refine ended.bind (expect_yields .endOfText stands'.faces) ?_
  intro _ last rest' stands'' _
  exact ⟨rest', stands''⟩

theorem start_stands (source : String) :
    (∃ cursor, start source = .ok cursor ∧ cursor.Stands source (spaceless source.toList)) ∨
      (firstKind (spaceless source.toList) = none ∧ ∃ error, start source = .error error ∧
        error.source = source ∧ error.stop = error.column + 1 ∧
        Marks source error.column (spaceless source.toList)) := by
  let first : Cursor := ⟨source, 0, source.toList, Token.atEnd 0⟩
  have tracks : first.Tracks source := ⟨rfl, [], rfl, rfl⟩
  have marks := advance_marks tracks
  unfold start
  rcases advance_cases first with ⟨next, moved, faces⟩ | ⟨nothing, error, next, failed, -⟩
  · rw [moved] at marks ⊢
    obtain ⟨tracks', marks, narrow⟩ := marks
    exact Or.inl ⟨next, rfl, faces, tracks', marks, narrow⟩
  · rw [failed] at marks ⊢
    exact Or.inr ⟨nothing, error, rfl, marks⟩

/-- A text that is no term goes wrong where the error points. -/
theorem parse_locates {depth : Nat} {source : String} {error : SyntaxError}
    (failed : parse depth source = .error error) (shallow : error.cause ≠ .nestedTooDeeply) :
    error.source = source ∧ error.stop = error.column + 1 ∧
      ∃ bad, Marks source error.column bad ∧ Fails (spaceless source.toList) bad := by
  unfold parse at failed
  rcases start_stands source with
    ⟨cursor, started, stands⟩ | ⟨unreadable, error', started, same, one, marks⟩
  · rw [started] at failed
    have locates := whole_locates depth stands
    rcases outcome : Parser.whole depth cursor with ⟨t, next⟩ | ⟨error', next⟩
    · simp only [outcome] at failed
      cases failed
    · simp only [outcome] at failed
      cases failed
      rw [outcome] at locates
      exact locates shallow
  · rw [started] at failed
    cases failed
    exact ⟨same, one, _, marks, (Phrase.term.breaks_of_unreadable unreadable).fails⟩

/-- The one column that the error blames is a column of the text, or the one behind its end. -/
theorem parse_error_column {depth : Nat} {source : String} {error : SyntaxError}
    (failed : parse depth source = .error error) (shallow : error.cause ≠ .nestedTooDeeply) :
    error.source = source ∧ error.column ≤ source.length ∧ error.stop = error.column + 1 := by
  obtain ⟨same, one, bad, ⟨passed, ahead, split, column, -⟩, -⟩ := parse_locates failed shallow
  refine ⟨same, ?_, one⟩
  rw [column, ← String.length_toList, split, List.length_append]
  omega

/-! ## Reports -/

theorem before_of_split {source : String} {passed ahead : List Char}
    (split : source.toList = passed ++ ahead) :
    Text.before source passed.length = String.ofList passed := by
  have inside : passed.length ≤ source.length := by
    rw [← String.length_toList, split, List.length_append]
    omega
  rw [Text.before, Text.clampBound_natCast inside, split, List.take_left]

/-- The column that an error points at is the first one that rules a term out. The error is about
the text and blames one column of it, or the one behind its end. What comes before that column is
the beginning of a term; if there is a character at that column, then no term goes on with it,
whatever comes behind, and at the end the text itself is no term. -/
theorem parse_error_points {depth : Nat} {source : String} {error : SyntaxError}
    (failed : parse depth source = .error error) (shallow : error.cause ≠ .nestedTooDeeply) :
    error.report.source = source ∧
      (0 ≤ error.report.start ∧ error.report.start ≤ source.length ∧
        error.report.stop = error.report.start + 1) ∧
      (∃ more t, Spells (Text.before source error.report.start ++ more) t) ∧
      (error.report.start < source.length → ∀ more t,
        ¬Spells (Text.before source (error.report.start + 1) ++ more) t) ∧
      (error.report.start = source.length → ∀ t, ¬Spells source t) := by
  obtain ⟨same, one, bad, ⟨passed, ahead, split, column, tight, first⟩, good, parts,
    ⟨more, t, derives⟩, refuses⟩ := parse_locates failed shallow
  have start : error.report.start = passed.length := by rw [← column]; rfl
  have stop : error.report.stop = passed.length + 1 := by
    rw [← column]
    exact congrArg Int.ofNat one
  have length : source.length = passed.length + ahead.length := by
    rw [← String.length_toList, split, List.length_append]
  have front : spaceless passed = good := by
    rw [split, spaceless_append, tight] at parts
    exact List.append_cancel_right parts
  rw [start, stop]
  refine ⟨same, ⟨by omega, by omega, rfl⟩, ⟨String.ofList more, t, spells_of_derives ?_⟩, ?_, ?_⟩
  · rw [before_of_split split, String.toList_append, String.toList_ofList, String.toList_ofList,
      spaceless_append, front]
    have symbols : ∀ c ∈ more, c ≠ ' ' := fun c inside =>
      derives.ne_space c (List.mem_append_right good inside)
    rwa [spaceless_eq_self symbols]
  · intro inside more t spells
    obtain ⟨c, rest, rfl⟩ : ∃ c rest, ahead = c :: rest := by
      cases ahead with
      | nil => simp only [List.length_nil] at length; omega
      | cons c rest => exact ⟨c, rest, rfl⟩
    have noSpace : c ≠ ' ' := ne_space_of_mem (tight ▸ List.mem_of_head? first.symm)
    have longer : source.toList = passed ++ [c] ++ rest := by
      rw [split, List.append_assoc, List.singleton_append]
    have text := before_of_split longer
    rw [List.length_append, List.length_singleton, Int.natCast_succ] at text
    have derives := spells.2
    rw [text, String.toList_append, String.toList_ofList, List.append_assoc, spaceless_append,
      front] at derives
    refine refuses _ t ?_ derives
    rw [← first]
    simp [spaceless, noSpace]
  · intro ended t spells
    have nothing : ahead = [] := by
      refine List.length_eq_zero_iff.1 ?_
      omega
    subst nothing
    have derives := spells.2
    rw [split, List.append_nil, front] at derives
    refine refuses [] t ?_ ?_
    · exact first
    · rwa [List.append_nil]

/-- In `(λx. x y . z` the second dot is one too many: a parenthesis could have closed the term. In
`λx. ` the text ends where a body has to start. -/
theorem parse_error_points_dot :
    parse 60 "(λx. x y . z" = .error ⟨.expectedToken .closeParen, "(λx. x y . z", 9, 10⟩ ∧
      (∃ more t, Spells ("(λx. x y " ++ more) t) ∧ (∀ more t, ¬Spells ("(λx. x y ." ++ more) t) ∧
      parse 60 "λx. " = .error ⟨.expectedAtom, "λx. ", 4, 5⟩ ∧
      (∃ more t, Spells ("λx. " ++ more) t) ∧ ∀ t, ¬Spells "λx. " t := by
  have failed : parse 60 "(λx. x y . z" =
      .error ⟨.expectedToken .closeParen, "(λx. x y . z", 9, 10⟩ := by decide +kernel
  have ended : parse 60 "λx. " = .error ⟨.expectedAtom, "λx. ", 4, 5⟩ := by decide +kernel
  have texts : Text.before "(λx. x y . z" 9 = "(λx. x y " ∧
      Text.before "(λx. x y . z" 10 = "(λx. x y ." ∧ Text.before "λx. " 4 = "λx. " := by
    decide +kernel
  obtain ⟨-, -, begins, refused, -⟩ := parse_error_points failed (by simp)
  obtain ⟨-, -, begins', -, short⟩ := parse_error_points ended (by simp)
  change ∃ more t, Spells (Text.before _ 9 ++ more) t at begins
  change ∃ more t, Spells (Text.before _ 4 ++ more) t at begins'
  rw [texts.1] at begins
  rw [texts.2.2] at begins'
  refine ⟨failed, begins, ?_, ended, begins', short (by decide +kernel)⟩
  intro more t
  rw [← texts.2.1]
  exact refused (by decide +kernel) more t

end Redex
