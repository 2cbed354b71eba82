import Redex.Proofs.Diagnosis

/-!
# Carets under the source

A diagnosis shows the source of a report and a row with a caret below it. If the span starts inside
the text or behind it, the source is shown as it is, however the bounds of the span lie, and the
caret stands below the first column of the span with a tail up to the last one. The row is made
unless it is too long to be made at all (`diagnose_plain`).

A syntax error blames one column, and what it says is what stands there: `Blames` reads the cause of
an error against the text at its column. The reader keeps its token tied to the text, so that each
of its steps blames rightly (`scan_sincere`).
-/

namespace Redex

/-! ## Rows that can be made -/

/-- What is wrong with a row that is too long: its length is no signed word of 64 bits, or there is
no room for it. -/
def Text.tooLong (count : Int) : RepeatFault :=
  if Nat.pow 2 63 ≤ count then .countTooWide else .rowTooLong

namespace Report

/-- Whether a row under the source can be made: it is no longer than the source, or there is room
for it and a signed word of 64 bits can count it. -/
def RowFits (report : Report) (room : Nat) (count : Int) : Prop :=
  count ≤ report.source.length ∨ count ≤ room ∧ count < Nat.pow 2 63

instance (report : Report) (room : Nat) (count : Int) : Decidable (report.RowFits room count) :=
  inferInstanceAs (Decidable (_ ∨ _))

theorem rowFault?_of_fits {report : Report} {room : Nat} {count : Int} (nonneg : 0 ≤ count)
    (fits : report.RowFits room count) : report.rowFault? room count = none := by
  unfold rowFault?
  split
  · rfl
  · next longer =>
    obtain ⟨short, counted⟩ := fits.resolve_left fun within => longer ⟨nonneg, within⟩
    have narrow : ¬(count < -Nat.pow 2 63 ∨ Nat.pow 2 63 ≤ count) := by omega
    rw [Text.repeatFault?, if_neg narrow, if_neg (Int.not_lt.2 short)]

theorem rowFault?_of_not_fits {report : Report} {room : Nat} {count : Int} (nonneg : 0 ≤ count)
    (tooLong : ¬report.RowFits room count) :
    report.rowFault? room count = some (Text.tooLong count) := by
  have beyond : ¬(0 ≤ count ∧ count ≤ report.source.length) := fun within =>
    tooLong (Or.inl within.2)
  rw [rowFault?, if_neg beyond, Text.repeatFault?, Text.tooLong]
  by_cases wide : Nat.pow 2 63 ≤ count
  · rw [if_pos (Or.inr wide), if_pos wide]
  · have narrow : ¬(count < -Nat.pow 2 63 ∨ Nat.pow 2 63 ≤ count) := by omega
    have more : (room : Int) < count :=
      Int.not_le.1 fun within => tooLong (Or.inr ⟨within, Int.not_le.1 wide⟩)
    rw [if_neg narrow, if_pos more, if_neg wide]

/-- The columns of the span behind the first one. -/
theorem tailLength_eq (report : Report) :
    report.tailLength = max report.stop (report.start + 1) - report.start - 1 := rfl

theorem tailLength_nonneg (report : Report) : 0 ≤ report.tailLength := by
  rw [tailLength_eq]
  omega

/-- The source, and below it a caret with its tail. -/
def underlined (report : Report) : String :=
  "  " ++ report.source ++ "\n" ++
    "  " ++ Text.repeated report.start ' ' ++
      ("^" ++ Text.repeated (max report.stop (report.start + 1) - report.start - 1) '~')

/-- The diagnosis of a span that starts inside the text or behind it, in plain output. -/
theorem diagnose_plain {report : Report} (inside : 0 ≤ report.start) (colour : Text.Colour)
    (room : Nat) :
    report.diagnose .plain colour room =
      if report.RowFits room report.start then
        if report.RowFits room report.tailLength then .ok report.underlined
        else .error (Text.tooLong report.tailLength)
      else .error (Text.tooLong report.start) := by
  have behind := report.tailLength_nonneg
  unfold diagnose diagnosisFault?
  by_cases front : report.RowFits room report.start
  · by_cases tail : report.RowFits room report.tailLength
    · rw [if_pos front, if_pos tail, rowFault?_of_fits inside front, rowFault?_of_fits behind tail]
      exact congrArg Except.ok (diagnosis_plain inside colour)
    · rw [if_pos front, if_neg tail, rowFault?_of_fits inside front,
        rowFault?_of_not_fits behind tail]
      rfl
  · rw [if_neg front, rowFault?_of_not_fits inside front]
    rfl

end Report

/-! ## What an error blames -/

namespace Cursor

/-- The kind of token at a column of a text, if there is a token; behind the last character that is
the end of the text. -/
def kindAt (source : String) (column : Nat) : Option Token.Kind :=
  firstKind (source.toList.drop column)

theorem kindAt_of_marks {source : String} {column : Nat} {cs : List Char}
    (marks : Marks source column cs) : kindAt source column = firstKind cs := by
  obtain ⟨passed, ahead, split, rfl, -, first⟩ := marks
  rw [kindAt, split, List.drop_left]
  exact firstKind_congr first

/-- The text ends at a column inside it or behind it only if that is behind its last character. -/
theorem kindAt_eq_endOfText {source : String} {column : Nat} (inside : column ≤ source.length) :
    kindAt source column = some .endOfText ↔ column = source.length := by
  unfold kindAt
  constructor
  · intro ended
    have nothing := List.drop_eq_nil_iff.1 (eq_nil_of_firstKind ended)
    rw [String.length_toList] at nothing
    omega
  · rintro rfl
    rw [← String.length_toList, List.drop_length]
    rfl

end Cursor

open Cursor Grammar

/-- Whether the cause of an error is what stands at its column: a character that starts no token, or
a token that is none of those that could follow. -/
def SyntaxError.Blames (error : SyntaxError) : Prop :=
  match error.cause with
  | .unexpectedCharacter c =>
    error.source.toList[error.column]? = some c ∧ c ≠ ' ' ∧ Token.Kind.ofChar? c = none
  | .expectedToken kind =>
    ∃ found, kindAt error.source error.column = some found ∧ found ≠ kind
  | .expectedAtom =>
    ∃ found, kindAt error.source error.column = some found ∧ found ≠ .openParen ∧
      found ≠ .identifier
  | .nestedTooDeeply => True

/-- Whether the error of a step, if any, blames rightly. -/
def Sincere {α : Type} : EStateM.Result SyntaxError Cursor α → Prop
  | .ok _ _ => True
  | .error error _ => error.Blames

section Sincere

variable {α β : Type} {source : String} {cursor : Cursor} {cs : List Char} {depth : Nat}
  {wrong : List Char → Prop} {goal : α → List Char → Prop}

theorem Sincere.bind {first : Scan α} {rest : α → Scan β} (sincere : Sincere (first cursor))
    (locates : Locates source wrong (first cursor)) (yields : Yields True goal (first cursor))
    (continues : ∀ {a next ds}, next.Stands source ds → goal a ds → Sincere (rest a next)) :
    Sincere ((first >>= rest) cursor) := by
  rcases outcome : first cursor with ⟨a, next⟩ | ⟨error, next⟩
  · rw [outcome] at locates yields
    rw [bind_ok outcome]
    obtain ⟨ds, stands⟩ := locates
    obtain ⟨ds', faces, reached⟩ := yields
    cases stands.faces.unique faces
    exact continues stands reached
  · rw [outcome] at sincere
    rw [bind_error outcome]
    exact sincere

theorem Cursor.Stands.kindAt_eq (stands : cursor.Stands source cs) :
    kindAt cursor.source cursor.token.column = some cursor.token.kind := by
  rw [stands.tracks.source_eq, kindAt_of_marks stands.marks]
  exact stands.faces.firstKind_eq

theorem Cursor.Stands.token_ne {kind : Token.Kind} (stands : cursor.Stands source cs)
    (other : firstKind cs ≠ some kind) : cursor.token.kind ≠ kind := by
  intro same
  rw [stands.faces.firstKind_eq, same] at other
  exact other rfl

theorem advance_sincere (tracks : cursor.Tracks source) : Sincere (advance cursor) := by
  obtain ⟨same, passed, split, column⟩ := tracks
  have parts : cursor.rest.takeWhile (· == ' ') ++ cursor.rest.dropWhile (· == ' ') = cursor.rest :=
    List.takeWhile_append_dropWhile
  unfold advance
  rcases spaceless_cases cursor.rest with ⟨dropped, -⟩ | ⟨c, rest, dropped, symbols⟩
  · rw [dropped]
    trivial
  · rw [dropped] at parts ⊢
    cases known : Token.Kind.ofChar? c with
    | some kind =>
      simp only [known]
      trivial
    | none =>
      simp only [known]
      refine ⟨?_, ?_, known⟩
      · rw [← parts, ← List.append_assoc] at split
        rw [same, split, column, ← List.length_append, List.getElem?_append_right (Nat.le_refl _),
          Nat.sub_self]
        rfl
      · apply ne_space_of_mem
        rw [symbols]
        exact List.mem_cons_self ..

theorem expect_sincere (kind : Token.Kind) (stands : cursor.Stands source cs) :
    Sincere (expect kind cursor) := by
  by_cases here : cursor.isAt kind = true
  · rw [expect_of_isAt here]
    refine (advance_sincere stands.tracks).bind (locates_advance stands.tracks)
      (advance_yields stands.faces) ?_
    intro _ _ _ _ _
    trivial
  · rw [expect_of_not_isAt here]
    refine ⟨cursor.token.kind, stands.kindAt_eq, ?_⟩
    exact stands.token_ne fun first => here (stands.faces.isAt_iff.2 first)

theorem skip_sincere (kind : Token.Kind) (stands : cursor.Stands source cs) :
    Sincere (skip kind cursor) := by
  by_cases here : cursor.isAt kind = true
  · rw [skip_of_isAt here]
    refine (expect_sincere kind stands).bind (expect_locates kind stands)
      (expect_yields kind stands.faces) ?_
    intro _ _ _ _ _
    trivial
  · rw [skip_of_not_isAt here]
    trivial

/-! ### The levels of the parser -/

theorem term_sincere
    (termSincere : ∀ {cursor cs}, cursor.Stands source cs → Sincere (Parser.term depth cursor))
    (applicationSincere : ∀ {cursor cs}, cursor.Stands source cs →
      Sincere (Parser.application depth cursor))
    (stands : cursor.Stands source cs) : Sincere (Parser.term (depth + 1) cursor) := by
  unfold Parser.term
  refine (skip_sincere .lambda stands).bind (skip_locates .lambda stands)
    (skip_yields .lambda (by decide) stands.faces) ?_
  intro skipped next₁ rest₁ stands₁ _
  by_cases taken : skipped.isSome = true
  · rw [if_pos taken]
    refine (expect_sincere .identifier stands₁).bind (expect_locates .identifier stands₁)
      (expect_yields .identifier stands₁.faces) ?_
    intro parameter next₂ rest₂ stands₂ _
    refine (expect_sincere .dot stands₂).bind (expect_locates .dot stands₂)
      (expect_yields .dot stands₂.faces) ?_
    intro _ next₃ rest₃ stands₃ _
    refine (termSincere stands₃).bind (scan_locates depth .term stands₃)
      ((scan_yields depth .term stands₃.faces).mono (fun _ => trivial) id) ?_
    intro _ _ _ _ _
    trivial
  · rw [if_neg taken]
    exact applicationSincere stands₁

theorem atom_sincere
    (termSincere : ∀ {cursor cs}, cursor.Stands source cs → Sincere (Parser.term depth cursor))
    (stands : cursor.Stands source cs) : Sincere (Parser.atom (depth + 1) cursor) := by
  unfold Parser.atom
  refine (skip_sincere .openParen stands).bind (skip_locates .openParen stands)
    (skip_yields .openParen (by decide) stands.faces) ?_
  intro skipped next₁ rest₁ stands₁ read
  by_cases taken : skipped.isSome = true
  · rw [if_pos taken]
    refine (termSincere stands₁).bind (scan_locates depth .term stands₁)
      ((scan_yields depth .term stands₁.faces).mono (fun _ => trivial) id) ?_
    intro _ next₂ rest₂ stands₂ _
    refine (expect_sincere .closeParen stands₂).bind (expect_locates .closeParen stands₂)
      (expect_yields .closeParen stands₂.faces) ?_
    intro _ _ _ _ _
    trivial
  · rw [if_neg taken]
    change Sincere ((if next₁.isAt .identifier = true then _ else _ : Scan Term) next₁)
    by_cases letter : next₁.isAt .identifier = true
    · rw [if_pos letter]
      refine (expect_sincere .identifier stands₁).bind (expect_locates .identifier stands₁)
        (expect_yields .identifier stands₁.faces) ?_
      intro _ _ _ _ _
      trivial
    · -- The cursor has not moved, since the parenthesis was not there.
      rw [if_neg letter]
      have closed : firstKind rest₁ ≠ some .openParen := by
        rcases read with ⟨isSome, -⟩ | ⟨-, rfl, closed⟩
        · exact absurd isSome taken
        · exact closed
      refine ⟨next₁.token.kind, stands₁.kindAt_eq, stands₁.token_ne closed, stands₁.token_ne ?_⟩
      exact fun first => letter (stands₁.faces.isAt_iff.2 first)

theorem applyAtoms_sincere
    (atomSincere : ∀ {cursor cs}, cursor.Stands source cs → Sincere (Parser.atom depth cursor))
    (count : Nat) (function : Term) (stands : cursor.Stands source cs) :
    Sincere (Parser.applyAtoms (Parser.atom depth) count function cursor) := by
  induction count generalizing function cursor cs with
  | zero => trivial
  | succ count ih =>
    change Sincere ((if Parser.atStop cursor = true then _ else _ : Scan Term) cursor)
    by_cases stop : Parser.atStop cursor = true
    · rw [if_pos stop]
      trivial
    · rw [if_neg stop]
      refine (atomSincere stands).bind (scan_locates depth .atom stands)
        ((scan_yields depth .atom stands.faces).mono (fun _ => trivial) id) ?_
      intro argument next rest stands' _
      exact ih _ stands'

theorem application_sincere
    (atomSincere : ∀ {cursor cs}, cursor.Stands source cs → Sincere (Parser.atom depth cursor))
    (stands : cursor.Stands source cs) : Sincere (Parser.application (depth + 1) cursor) := by
  unfold Parser.application
  refine (atomSincere stands).bind (scan_locates depth .atom stands)
    ((scan_yields depth .atom stands.faces).mono (fun _ => trivial) id) ?_
  intro function next rest stands' _
  exact applyAtoms_sincere atomSincere _ function stands'

theorem scan_sincere (depth : Nat) (phrase : Phrase) (stands : cursor.Stands source cs) :
    Sincere (phrase.scan depth cursor) := by
  induction depth generalizing phrase cursor cs with
  | zero => cases phrase <;> trivial
  | succ depth ih =>
    cases phrase with
    | term => exact term_sincere (ih .term) (ih .application) stands
    | application => exact application_sincere (ih .atom) stands
    | atom => exact atom_sincere (ih .term) stands

theorem whole_sincere (depth : Nat) (stands : cursor.Stands source cs) :
    Sincere (Parser.whole depth cursor) := by
  unfold Parser.whole
  refine (scan_sincere depth .term stands).bind (scan_locates depth .term stands)
    ((scan_yields depth .term stands.faces).mono (fun _ => trivial) id) ?_
  intro _ next rest stands' _
  refine (expect_sincere .endOfText stands').bind (expect_locates .endOfText stands')
    (expect_yields .endOfText stands'.faces) ?_
  intro _ _ _ _ _
  trivial

end Sincere

/-- The error of a text that is no term is about what stands at its column. -/
theorem parse_blames {depth : Nat} {source : String} {error : SyntaxError}
    (failed : parse depth source = .error error) : error.Blames := by
  let first : Cursor := ⟨source, 0, source.toList, Token.atEnd 0⟩
  have tracks : first.Tracks source := ⟨rfl, [], rfl, rfl⟩
  have sincere := advance_sincere tracks
  have locates := locates_advance tracks
  unfold parse start at failed
  rcases moved : advance first with ⟨_, cursor⟩ | ⟨error', cursor⟩
  · rw [moved] at locates
    obtain ⟨cs, stands⟩ := locates
    have whole := whole_sincere depth stands
    rcases outcome : Parser.whole depth cursor with ⟨t, next⟩ | ⟨error', next⟩
    · simp only [first, moved, outcome] at failed
      cases failed
    · simp only [first, moved, outcome] at failed
      cases failed
      rwa [outcome] at whole
  · simp only [first, moved] at failed
    cases failed
    rwa [moved] at sincere

/-- A diagnosis lines up with the source. In plain output, and for a span that starts at any column
of the text or behind it, the source is shown unchanged with a caret below the first column of the
span and a tail below the others, unless one of the two rows is too long to be made: then that is
the fault. For a text that is no term it is a single caret below the character or the token that is
to blame, and behind the last character exactly if the text ended too early. -/
theorem diagnosis_lines_up :
    (∀ (report : Report) (colour : Text.Colour) (room : Nat), 0 ≤ report.start →
        report.diagnose .plain colour room =
          if report.RowFits room report.start then
            if report.RowFits room report.tailLength then .ok report.underlined
            else .error (Text.tooLong report.tailLength)
          else .error (Text.tooLong report.start)) ∧
      ∀ (depth : Nat) (source : String) (error : SyntaxError), parse depth source = .error error →
        error.report.diagnosed = true →
        (∀ colour room, error.report.diagnose .plain colour room =
          .ok ("  " ++ source ++ "\n" ++ "  " ++ Text.repeated error.column ' ' ++ "^")) ∧
        (error.source = source ∧ error.column ≤ source.length ∧ error.Blames) ∧
        (kindAt source error.column = some .endOfText ↔ error.column = source.length) := by
  refine ⟨fun report colour room inside => Report.diagnose_plain inside colour room, ?_⟩
  intro depth source error failed diagnosed
  have shallow : error.cause ≠ .nestedTooDeeply := by
    simpa [SyntaxError.report] using diagnosed
  obtain ⟨same, inside, one⟩ := parse_error_column failed shallow
  refine ⟨?_, ⟨same, inside, parse_blames failed⟩, kindAt_eq_endOfText inside⟩
  intro colour room
  rw [Report.diagnose, SyntaxError.diagnosisFault?_of_parse failed shallow, ← same]
  exact congrArg Except.ok (SyntaxError.diagnosis_plain one colour)

/-- A span of two columns that starts behind the end of its text, where there is room for four, and
a text that has one dot too many, where there is room for nothing else. -/
theorem diagnosis_lines_up_behind :
    let report : Report := { message := [.words "late"], source := "λx", start := 4, stop := 6 }
    let error : SyntaxError := ⟨.expectedToken .closeParen, "(x . z", 3, 4⟩
    0 ≤ report.start ∧ report.diagnose .plain .magenta 4 = .ok "  λx\n      ^~" ∧
      parse 9 "(x . z" = .error error ∧ error.report.diagnosed = true ∧
      error.report.diagnose .plain .red 0 = .ok "  (x . z\n     ^" ∧
      ∃ found, kindAt "(x . z" 3 = some found ∧ found ≠ .closeParen := by
  intro report error
  have failed : parse 9 "(x . z" = .error error := by decide +kernel
  obtain ⟨ofSpan, ofText⟩ := diagnosis_lines_up
  have span := ofSpan report .magenta 4 (by decide)
  obtain ⟨caret, ⟨-, -, blames⟩, -⟩ := ofText 9 "(x . z" error failed rfl
  refine ⟨by decide, ?_, failed, rfl, ?_, blames⟩
  · rw [span, if_pos (by decide), if_pos (by decide)]
    exact congrArg Except.ok (by decide +kernel)
  · rw [caret .red 0]
    exact congrArg Except.ok (by decide +kernel)

/-- A span that starts beyond the columns that a word can count has no diagnosis, however much room
there is. -/
theorem no_caret_beyond_words :
    let report : Report :=
      { message := [.words "m"], source := "abc", start := 9223372036854775808 }
    (0 ≤ report.start ∧ ∀ room, report.diagnose .plain .red room = .error .countTooWide) ∧
      ∀ room, ¬∀ (report : Report) (colour : Text.Colour), 0 ≤ report.start →
        report.diagnose .plain colour room = .ok report.underlined := by
  intro report
  have inside : 0 ≤ report.start := by decide
  have fault : ∀ room, report.diagnose .plain .red room = .error .countTooWide := by
    intro room
    have unfit : ¬report.RowFits room report.start := by
      rintro (within | ⟨-, counted⟩)
      · exact absurd within (by decide)
      · exact absurd counted (by decide)
    rw [Report.diagnose_plain inside, if_neg unfit]
    rfl
  refine ⟨⟨inside, fault⟩, ?_⟩
  intro room lined
  have made := lined report .red inside
  rw [fault room] at made
  cases made

end Redex
