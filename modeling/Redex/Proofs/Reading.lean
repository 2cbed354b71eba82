import Mathlib.Control.Monad.Basic
import Redex.Parser
import Redex.Proofs.Scanning

/-!
# The parser reads the grammar

By `scan_yields` a level of the parser that succeeds has read a phrase, for any number of nested
calls, and fails for want of them only if there are too few for the length of the text. By
`scans_of_derives` a phrase that is followed by what may follow it is read to its end. Together, the
parser reads exactly what is derived (`parse_iff_spells`).
-/

namespace Redex

/-! ## Phrases -/

namespace Grammar

open Cursor

/-- Whether a row of atoms ends in front of these characters. -/
def Stops (cs : List Char) : Prop :=
  firstKind cs = some .endOfText ∨ firstKind cs = some .closeParen ∨ firstKind cs = some .dot

/-- The level of the parser that reads a phrase. -/
def Phrase.scan : Phrase → Nat → Scan Term
  | term => Parser.term
  | application => Parser.application
  | atom => Parser.atom

/-- What has to come behind a phrase for the parser to stop there: behind an atom any token, behind
the others one that ends a row. -/
def Phrase.Follows : Phrase → List Char → Prop
  | atom, cs => (firstKind cs).isSome = true
  | _, cs => Stops cs

/-- How many nested calls a phrase can do without, compared to a term of the same length. -/
def Phrase.spare : Phrase → Nat
  | term => 0
  | application => 1
  | atom => 2

/-- A phrase is read off the front. -/
def Phrase.Reads (phrase : Phrase) (cs : List Char) (t : Term) (rest : List Char) : Prop :=
  ∃ front, cs = front ++ rest ∧ Derives phrase front t ∧ phrase.Follows rest

theorem Stops.readable {cs : List Char} (stops : Stops cs) : (firstKind cs).isSome = true := by
  rcases stops with ended | closed | dotted
  · rw [ended]; rfl
  · rw [closed]; rfl
  · rw [dotted]; rfl

theorem atStop_iff {cursor : Cursor} {cs : List Char} (faces : cursor.Faces cs) :
    Parser.atStop cursor = true ↔ Stops cs := by
  rw [Parser.atStop, Bool.or_eq_true, Bool.or_eq_true, faces.isAt_iff, faces.isAt_iff,
    faces.isAt_iff, or_assoc]
  rfl

/-! ## What is read is derived -/

section Soundness

variable {depth : Nat} {cursor : Cursor} {cs : List Char}

/-- The loop over the atoms of a row. Every atom takes a character, so that nothing is left when the
count is down to zero. -/
theorem applyAtoms_yields {atom : Scan Term}
    (yields : ∀ {cursor cs}, cursor.Faces cs →
      Yields (depth + 2 < 3 * cs.length + 3) (Phrase.atom.Reads cs) (atom cursor))
    (count : Nat) (function : Term) (faces : cursor.Faces cs) (enough : cs.length ≤ count) :
    Yields (depth + 2 < 3 * cs.length + 3)
      (fun t rest => ∃ atoms : List (List Char × Term),
        (∀ atom ∈ atoms, Derives .atom atom.1 atom.2) ∧ cs = atoms.flatMap Prod.fst ++ rest ∧
          t = (atoms.map Prod.snd).foldl Term.app function ∧ Stops rest)
      (Parser.applyAtoms atom count function cursor) := by
  induction count generalizing function cursor cs with
  | zero =>
    have nothing := List.length_eq_zero_iff.1 (Nat.le_zero.1 enough)
    subst nothing
    exact ⟨[], faces, [], nofun, rfl, rfl, Or.inl rfl⟩
  | succ count ih =>
    change Yields _ _ ((if Parser.atStop cursor = true then _ else _ : Scan Term) cursor)
    by_cases stop : Parser.atStop cursor = true
    · rw [if_pos stop]
      exact ⟨cs, faces, [], nofun, rfl, rfl, (atStop_iff faces).1 stop⟩
    · rw [if_neg stop]
      refine (yields faces).bind ?_
      rintro argument next rest ahead ⟨front, rfl, derives, -⟩
      have taken := derives.length_pos
      rw [List.length_append] at enough ⊢
      refine (ih (.app function argument) ahead (by omega)).mono (by omega) ?_
      rintro t last ⟨atoms, derived, rfl, rfl, stops⟩
      refine ⟨(front, argument) :: atoms, ?_, ?_, rfl, stops⟩
      · intro atom listed
        rcases List.mem_cons.1 listed with rfl | further
        · exact derives
        · exact derived atom further
      · rw [List.flatMap_cons, List.append_assoc]

theorem application_yields
    (atomYields : ∀ {cursor cs}, cursor.Faces cs →
      Yields (depth + 2 < 3 * cs.length + 3) (Phrase.atom.Reads cs) (Parser.atom depth cursor))
    (faces : cursor.Faces cs) :
    Yields (depth + 1 + 1 < 3 * cs.length + 3) (Phrase.application.Reads cs)
      (Parser.application (depth + 1) cursor) := by
  unfold Parser.application
  refine (atomYields faces).bind ?_
  rintro function next rest ahead ⟨front, rfl, derives, -⟩
  rw [List.length_append]
  change Yields _ _ (Parser.applyAtoms (Parser.atom depth) (next.rest.length + 1) function next)
  have row := applyAtoms_yields atomYields _ function ahead ahead.length_le
  refine row.mono (by omega) ?_
  rintro t last ⟨atoms, derived, rfl, rfl, stops⟩
  refine ⟨front ++ atoms.flatMap Prod.fst, ?_, .row derives derived, stops⟩
  rw [List.append_assoc]

theorem term_yields
    (termYields : ∀ {cursor cs}, cursor.Faces cs →
      Yields (depth + 0 < 3 * cs.length + 3) (Phrase.term.Reads cs) (Parser.term depth cursor))
    (applicationYields : ∀ {cursor cs}, cursor.Faces cs →
      Yields (depth + 1 < 3 * cs.length + 3) (Phrase.application.Reads cs)
        (Parser.application depth cursor))
    (faces : cursor.Faces cs) :
    Yields (depth + 1 + 0 < 3 * cs.length + 3) (Phrase.term.Reads cs)
      (Parser.term (depth + 1) cursor) := by
  unfold Parser.term
  refine (skip_yields .lambda (by decide) faces).bind ?_
  rintro skipped next₁ rest₁ ahead₁ (⟨taken, l, rfl, lambda⟩ | ⟨rfl, rfl, -⟩)
  · rw [if_pos taken]
    refine (expect_symbol_yields .identifier (by decide) ahead₁).bind ?_
    rintro parameter next₂ rest₂ ahead₂ ⟨x, rfl, letter, rfl⟩
    refine (expect_symbol_yields .dot (by decide) ahead₂).bind ?_
    rintro _ next₃ rest₃ ahead₃ ⟨d, rfl, dot, -⟩
    have inner : Yields (depth + 1 + 0 < 3 * (l :: x :: d :: rest₃).length + 3)
        (Phrase.term.Reads rest₃) (Parser.term depth next₃) :=
      (termYields ahead₃).mono (by simp only [List.length_cons]; omega) id
    refine inner.bind ?_
    rintro body next₄ rest₄ ahead₄ ⟨front, rfl, derives, stops⟩
    have isDot : d = '.' := dot
    subst isDot
    exact ⟨rest₄, ahead₄, l :: x :: '.' :: front, rfl, .abstraction lambda letter derives, stops⟩
  · rw [if_neg (by simp)]
    refine (applicationYields ahead₁).mono (by omega) ?_
    rintro t last ⟨front, rfl, derives, stops⟩
    exact ⟨front, rfl, .application derives, stops⟩

theorem atom_yields
    (termYields : ∀ {cursor cs}, cursor.Faces cs →
      Yields (depth + 0 < 3 * cs.length + 3) (Phrase.term.Reads cs) (Parser.term depth cursor))
    (faces : cursor.Faces cs) :
    Yields (depth + 1 + 2 < 3 * cs.length + 3) (Phrase.atom.Reads cs)
      (Parser.atom (depth + 1) cursor) := by
  unfold Parser.atom
  refine (skip_yields .openParen (by decide) faces).bind ?_
  rintro skipped next₁ rest₁ ahead₁ (⟨taken, o, rfl, opens⟩ | ⟨rfl, rfl, -⟩)
  · rw [if_pos taken]
    have inner : Yields (depth + 1 + 2 < 3 * (o :: rest₁).length + 3)
        (Phrase.term.Reads rest₁) (Parser.term depth next₁) :=
      (termYields ahead₁).mono (by simp only [List.length_cons]; omega) id
    refine inner.bind ?_
    rintro t next₂ rest₂ ahead₂ ⟨front, rfl, derives, -⟩
    refine (expect_symbol_yields .closeParen (by decide) ahead₂).bind ?_
    rintro _ next₃ rest₃ ahead₃ ⟨c, rfl, closes, -⟩
    have isOpen : o = '(' := opens
    have isClose : c = ')' := closes
    subst isOpen isClose
    exact ⟨rest₃, ahead₃, '(' :: (front ++ [')']), by simp, .parens derives, ahead₃.readable⟩
  · rw [if_neg (by simp)]
    change Yields _ _ ((if next₁.isAt .identifier = true then _ else _ : Scan Term) next₁)
    by_cases letter : next₁.isAt .identifier = true
    · rw [if_pos letter]
      refine (expect_symbol_yields .identifier (by decide) ahead₁).bind ?_
      rintro _ next₂ rest₂ ahead₂ ⟨x, rfl, letter, rfl⟩
      exact ⟨rest₂, ahead₂, [x], rfl, .identifier letter, ahead₂.readable⟩
    · rw [if_neg letter]
      intro nested
      cases nested

/-- A level that succeeds has read its phrase, and it fails for want of nested calls only if there
are fewer than three for every character and three more. -/
theorem scan_yields (depth : Nat) (phrase : Phrase) {cursor : Cursor} {cs : List Char}
    (faces : cursor.Faces cs) :
    Yields (depth + phrase.spare < 3 * cs.length + 3) (phrase.Reads cs)
      (phrase.scan depth cursor) := by
  induction depth generalizing phrase cursor cs with
  | zero =>
    cases phrase with
    | term => exact fun _ => by simp only [Phrase.spare]; omega
    | application => exact fun _ => by simp only [Phrase.spare]; omega
    | atom => exact fun _ => by simp only [Phrase.spare]; omega
  | succ depth ih =>
    cases phrase with
    | term => exact term_yields (ih .term) (ih .application) faces
    | application => exact application_yields (ih .atom) faces
    | atom => exact atom_yields (ih .term) faces

end Soundness

/-! ## What is derived is read -/

section Completeness

variable {front rest : List Char} {t : Term}

theorem Derives.readable_append {phrase : Phrase} (derives : Derives phrase front t)
    (rest : List Char) : (firstKind (front ++ rest)).isSome = true := by
  cases front with
  | nil => exact absurd derives.length_pos (by simp)
  | cons c front =>
    obtain ⟨kind, known⟩ := isSymbol_iff.1 (derives.isSymbol c List.mem_cons_self)
    exact Option.isSome_of_eq_some known

theorem Derives.atom_starts (derives : Derives .atom front t) (rest : List Char) :
    firstKind (front ++ rest) = some .openParen ∨ firstKind (front ++ rest) = some .identifier := by
  cases derives with
  | parens _ => exact Or.inl rfl
  | identifier letter => exact Or.inr (firstKind_of_shows .identifier letter rest)

theorem Derives.application_starts (derives : Derives .application front t) (rest : List Char) :
    firstKind (front ++ rest) ≠ some .lambda := by
  cases derives with
  | @row cs _ atoms first _ =>
    rw [List.append_assoc]
    rcases first.atom_starts (atoms.flatMap Prod.fst ++ rest) with opens | letter
    · rw [opens]; simp
    · rw [letter]; simp

theorem Derives.not_stops (derives : Derives .atom front t) (rest : List Char) :
    ¬Stops (front ++ rest) := by
  rcases derives.atom_starts rest with starts | starts
  · simp [Stops, starts]
  · simp [Stops, starts]

/-- Behind the atoms of a row comes the next atom or the end of the row. -/
theorem readable_of_atoms {atoms : List (List Char × Term)}
    (derived : ∀ atom ∈ atoms, Derives .atom atom.1 atom.2) (stops : Stops rest) :
    (firstKind (atoms.flatMap Prod.fst ++ rest)).isSome = true := by
  cases atoms with
  | nil => exact stops.readable
  | cons atom atoms =>
    rw [List.flatMap_cons, List.append_assoc]
    exact (derived atom List.mem_cons_self).readable_append _

theorem length_le_flatMap {atoms : List (List Char × Term)}
    (derived : ∀ atom ∈ atoms, Derives .atom atom.1 atom.2) :
    atoms.length ≤ (atoms.flatMap Prod.fst).length := by
  induction atoms with
  | nil => exact Nat.le_refl _
  | cons atom atoms ih =>
    obtain ⟨first, further⟩ := List.forall_mem_cons.1 derived
    have taken := first.length_pos
    have others := ih further
    rw [List.flatMap_cons, List.length_append, List.length_cons]
    omega

/-- Whether a level reads a phrase to its end wherever what follows ends it there. -/
def Phrase.Scans (phrase : Phrase) (depth : Nat) (front : List Char) (t : Term) : Prop :=
  ∀ (cursor : Cursor) (rest : List Char), cursor.Faces (front ++ rest) → phrase.Follows rest →
    ∃ next, phrase.scan depth cursor = .ok t next ∧ next.Faces rest

theorem term_scans_abstraction {depth : Nat} {l x : Char} (lambda : IsLambda l)
    (letter : IsIdentifier x) (derives : Derives .term front t)
    (body : Phrase.term.Scans depth front t) :
    Phrase.term.Scans (depth + 1) (l :: x :: '.' :: front) (.abs (String.singleton x) t) := by
  intro cursor rest faces follows
  have named := firstKind_of_shows .identifier letter ('.' :: (front ++ rest))
  obtain ⟨next₁, skipped, ahead₁⟩ :=
    skip_symbol .lambda faces lambda (Option.isSome_of_eq_some named)
  obtain ⟨next₂, bound, ahead₂⟩ := expect_symbol .identifier ahead₁ letter rfl
  obtain ⟨next₃, dotted, ahead₃⟩ :=
    expect_symbol .dot ahead₂ rfl (derives.readable_append rest)
  obtain ⟨next₄, read, ahead₄⟩ := body next₃ rest ahead₃ follows
  refine ⟨next₄, ?_, ahead₄⟩
  change Parser.term depth next₃ = _ at read
  change Parser.term (depth + 1) cursor = _
  rw [Parser.term, bind_ok skipped, if_pos Option.isSome_some, bind_ok bound, bind_ok dotted,
    bind_ok read]
  rfl

theorem term_scans_application {depth : Nat} (derives : Derives .application front t)
    (application : Phrase.application.Scans depth front t) :
    Phrase.term.Scans (depth + 1) front t := by
  intro cursor rest faces follows
  obtain ⟨next, read, ahead⟩ := application cursor rest faces follows
  refine ⟨next, ?_, ahead⟩
  change Parser.term (depth + 1) cursor = _
  rw [Parser.term, bind_ok (skip_other faces (derives.application_starts rest)), if_neg (by simp)]
  exact read

/-- The loop reads all atoms of a row if every one of them is read by itself. -/
theorem applyAtoms_scans {depth : Nat} {atoms : List (List Char × Term)}
    (derived : ∀ atom ∈ atoms, Derives .atom atom.1 atom.2)
    (scans : ∀ atom ∈ atoms, Phrase.atom.Scans depth atom.1 atom.2) (stops : Stops rest)
    {count : Nat} (enough : atoms.length ≤ count) (function : Term) {cursor : Cursor}
    (faces : cursor.Faces (atoms.flatMap Prod.fst ++ rest)) :
    ∃ next, Parser.applyAtoms (Parser.atom depth) count function cursor =
        .ok ((atoms.map Prod.snd).foldl Term.app function) next ∧ next.Faces rest := by
  induction atoms generalizing count function cursor with
  | nil =>
    refine ⟨cursor, ?_, faces⟩
    cases count with
    | zero => rfl
    | succ count =>
      change (if Parser.atStop cursor = true then _ else _ : Scan Term) cursor = _
      rw [if_pos ((atStop_iff faces).2 stops)]
      rfl
  | cons atom atoms ih =>
    obtain ⟨first, further⟩ := List.forall_mem_cons.1 derived
    obtain ⟨scansFirst, scansFurther⟩ := List.forall_mem_cons.1 scans
    obtain ⟨count, rfl⟩ := Nat.exists_eq_add_of_le' (Nat.le_trans (Nat.le_add_left 1 _) enough)
    rw [List.flatMap_cons, List.append_assoc] at faces
    have goesOn := fun stop => first.not_stops _ ((atStop_iff faces).1 stop)
    obtain ⟨next, read, ahead⟩ := scansFirst cursor _ faces (readable_of_atoms further stops)
    obtain ⟨last, readAll, behind⟩ :=
      ih further scansFurther (Nat.le_of_succ_le_succ enough) (.app function atom.2) ahead
    refine ⟨last, ?_, behind⟩
    change Parser.atom depth cursor = _ at read
    change (if Parser.atStop cursor = true then _ else _ : Scan Term) cursor = _
    rw [if_neg goesOn, bind_ok read, readAll]
    rfl

theorem application_scans_row {depth : Nat} {function : Term} {atoms : List (List Char × Term)}
    (derived : ∀ atom ∈ atoms, Derives .atom atom.1 atom.2)
    (first : Phrase.atom.Scans depth front function)
    (scans : ∀ atom ∈ atoms, Phrase.atom.Scans depth atom.1 atom.2) :
    Phrase.application.Scans (depth + 1) (front ++ atoms.flatMap Prod.fst)
      ((atoms.map Prod.snd).foldl Term.app function) := by
  intro cursor rest faces stops
  rw [List.append_assoc] at faces
  obtain ⟨next, read, ahead⟩ := first cursor _ faces (readable_of_atoms derived stops)
  have room : atoms.length ≤ next.rest.length + 1 := by
    have atomsLe := length_le_flatMap derived
    have aheadLe := ahead.length_le
    rw [List.length_append] at aheadLe
    omega
  obtain ⟨last, readAll, behind⟩ := applyAtoms_scans derived scans stops room function ahead
  refine ⟨last, ?_, behind⟩
  change Parser.atom depth cursor = _ at read
  change Parser.application (depth + 1) cursor = _
  rw [Parser.application, bind_ok read]
  exact readAll

theorem atom_scans_parens {depth : Nat} (derives : Derives .term front t)
    (inner : Phrase.term.Scans depth front t) :
    Phrase.atom.Scans (depth + 1) ('(' :: (front ++ [')'])) t := by
  intro cursor rest faces follows
  rw [List.cons_append, List.append_assoc] at faces
  obtain ⟨next₁, skipped, ahead₁⟩ :=
    skip_symbol .openParen faces rfl (derives.readable_append _)
  obtain ⟨next₂, read, ahead₂⟩ := inner next₁ _ ahead₁ (Or.inr (Or.inl rfl))
  obtain ⟨next₃, closed, ahead₃⟩ := expect_symbol .closeParen ahead₂ rfl follows
  refine ⟨next₃, ?_, ahead₃⟩
  change Parser.term depth next₁ = _ at read
  change Parser.atom (depth + 1) cursor = _
  rw [Parser.atom, bind_ok skipped, if_pos Option.isSome_some, bind_ok read, bind_ok closed]
  rfl

theorem atom_scans_identifier (depth : Nat) {x : Char} (letter : IsIdentifier x) :
    Phrase.atom.Scans (depth + 1) [x] (.var (String.singleton x)) := by
  intro cursor rest faces follows
  have here := firstKind_of_shows .identifier letter rest
  have other : firstKind ([x] ++ rest) ≠ some .openParen := by
    rw [List.singleton_append, here]
    simp
  obtain ⟨next, named, ahead⟩ := expect_symbol .identifier faces letter follows
  refine ⟨next, ?_, ahead⟩
  change Parser.atom (depth + 1) cursor = _
  rw [Parser.atom, bind_ok (skip_other faces other), if_neg (by simp)]
  change (if cursor.isAt .identifier = true then _ else _ : Scan Term) cursor = _
  rw [if_pos (faces.isAt_iff.2 here), bind_ok named]
  rfl

/-- A phrase is read to its end if there are three nested calls for every character of it. -/
theorem scans_of_derives {phrase : Phrase} (derives : Derives phrase front t) {depth : Nat}
    (enough : 3 * front.length ≤ depth + phrase.spare) : phrase.Scans depth front t := by
  induction derives generalizing depth with
  | abstraction lambda letter body ih =>
    simp only [List.length_cons, Phrase.spare] at enough
    obtain ⟨depth, rfl⟩ := Nat.exists_eq_add_of_le' (show 1 ≤ depth by omega)
    exact term_scans_abstraction lambda letter body (ih (by simp only [Phrase.spare]; omega))
  | application row ih =>
    have taken := row.length_pos
    simp only [Phrase.spare] at enough
    obtain ⟨depth, rfl⟩ := Nat.exists_eq_add_of_le' (show 1 ≤ depth by omega)
    exact term_scans_application row (ih (by simp only [Phrase.spare]; omega))
  | @row cs function atoms first derived ih ihs =>
    have taken := first.length_pos
    simp only [List.length_append, Phrase.spare] at enough
    obtain ⟨depth, rfl⟩ := Nat.exists_eq_add_of_le' (show 1 ≤ depth by omega)
    refine application_scans_row derived (ih (by simp only [Phrase.spare]; omega)) ?_
    intro atom listed
    have part : atom.1.length ≤ (atoms.flatMap Prod.fst).length :=
      (List.sublist_flatten_of_mem (List.mem_map_of_mem listed)).length_le
    exact ihs atom listed (by simp only [Phrase.spare]; omega)
  | parens inner ih =>
    simp only [List.length_cons, List.length_append, Phrase.spare] at enough
    obtain ⟨depth, rfl⟩ := Nat.exists_eq_add_of_le' (show 1 ≤ depth by omega)
    exact atom_scans_parens inner (ih (by simp only [Phrase.spare]; omega))
  | identifier letter =>
    simp only [List.length_singleton, Phrase.spare] at enough
    obtain ⟨depth, rfl⟩ := Nat.exists_eq_add_of_le' (show 1 ≤ depth by omega)
    exact atom_scans_identifier depth letter

end Completeness

end Grammar

/-! ## Whole texts -/

open Cursor Grammar

theorem start_cases (source : String) :
    (∃ cursor, start source = .ok cursor ∧ cursor.Faces (spaceless source.toList)) ∨
      (firstKind (spaceless source.toList) = none ∧
        ∃ error, start source = .error error ∧ error.cause ≠ .nestedTooDeeply) := by
  unfold start
  rcases advance_cases ⟨source, 0, source.toList, Token.atEnd 0⟩ with
    ⟨next, moved, faces⟩ | ⟨nothing, error, next, failed, other⟩
  · rw [moved]
    exact Or.inl ⟨next, rfl, faces⟩
  · rw [failed]
    exact Or.inr ⟨nothing, error, rfl, other⟩

theorem whole_yields (depth : Nat) {cursor : Cursor} {cs : List Char} (faces : cursor.Faces cs) :
    Yields (depth < 3 * cs.length + 3) (fun t _ => Derives .term cs t)
      (Parser.whole depth cursor) := by
  unfold Parser.whole
  refine (scan_yields depth .term faces).bind ?_
  rintro t next rest ahead ⟨front, rfl, derives, -⟩
  refine (expect_yields .endOfText ahead).bind ?_
  rintro _ last behind beyond ⟨ended, -, -⟩
  have nothing := eq_nil_of_firstKind ended
  subst nothing
  rw [List.append_nil]
  exact ⟨behind, beyond, derives⟩

theorem whole_of_derives {depth : Nat} {cursor : Cursor} {cs : List Char} {t : Term}
    (faces : cursor.Faces cs) (derives : Derives .term cs t) (enough : 3 * cs.length ≤ depth) :
    ∃ next, Parser.whole depth cursor = .ok t next := by
  rw [← List.append_nil cs] at faces
  obtain ⟨next, read, ahead⟩ := scans_of_derives derives enough cursor [] faces (Or.inl rfl)
  obtain ⟨last, ended, -⟩ := expect_of_readable ahead rfl rfl
  refine ⟨last, ?_⟩
  change Parser.term depth cursor = _ at read
  rw [Parser.whole, bind_ok read, bind_ok ended]
  rfl

theorem length_spaceless_le (source : String) :
    (spaceless source.toList).length ≤ source.length := by
  rw [← String.length_toList]
  exact List.length_filter_le ..

/-- What is read from a text is what the text spells, and the nesting is too deep only for fewer
than three nested calls for every character and three more. -/
theorem parse_cases (depth : Nat) (source : String) :
    (∃ t, parse depth source = .ok t ∧ Spells source t) ∨
      ∃ error, parse depth source = .error error ∧
        (error.cause = .nestedTooDeeply → depth < 3 * source.length + 3) := by
  unfold parse
  rcases start_cases source with ⟨cursor, started, faces⟩ | ⟨-, error, failed, other⟩
  · rw [started]
    have yields := whole_yields depth faces
    have shorter := length_spaceless_le source
    rcases outcome : Parser.whole depth cursor with ⟨t, next⟩ | ⟨error, next⟩
    · rw [outcome] at yields
      obtain ⟨rest, -, derives⟩ := yields
      exact Or.inl ⟨t, by simp only [outcome], spells_of_derives derives⟩
    · rw [outcome] at yields
      refine Or.inr ⟨error, by simp only [outcome], ?_⟩
      intro nested
      have short := yields nested
      omega
  · rw [failed]
    exact Or.inr ⟨error, rfl, fun nested => absurd nested other⟩

theorem spells_of_parse {depth : Nat} {source : String} {t : Term}
    (read : parse depth source = .ok t) : Spells source t := by
  rcases parse_cases depth source with ⟨t', read', spells⟩ | ⟨error, failed, -⟩
  · cases read.symm.trans read'
    exact spells
  · cases read.symm.trans failed

theorem parse_of_spells {depth : Nat} {source : String} {t : Term} (spells : Spells source t)
    (enough : 3 * source.length ≤ depth) : parse depth source = .ok t := by
  have shorter := length_spaceless_le source
  rcases start_cases source with ⟨cursor, started, faces⟩ | ⟨nothing, -⟩
  · have deep : 3 * (spaceless source.toList).length ≤ depth := by omega
    obtain ⟨next, read⟩ := whole_of_derives faces spells.2 deep
    simp only [parse, started, read]
  · have readable := spells.2.readable_append []
    rw [List.append_nil, nothing] at readable
    cases readable

/-- The parser reads exactly what the grammar derives. A text that is read spells the term, whatever
the number of nested calls; with enough of them every text that spells a term is read as that term,
which is the only one that it spells, and any other text is an error of its own. -/
theorem parse_iff_spells (source : String) :
    (∀ depth t, parse depth source = .ok t → Spells source t) ∧
      (∀ depth, 3 * source.length + 3 ≤ depth →
        (∀ t, parse depth source = .ok t ↔ Spells source t) ∧
          ((¬∃ t, Spells source t) →
            ∃ error, parse depth source = .error error ∧ error.cause ≠ .nestedTooDeeply)) ∧
      ∀ t t', Spells source t → Spells source t' → t = t' := by
  refine ⟨fun depth t read => spells_of_parse read, ?_, ?_⟩
  · intro depth enough
    refine ⟨?_, ?_⟩
    · intro t
      exact ⟨spells_of_parse, fun spells => parse_of_spells spells (by omega)⟩
    · intro nothing
      rcases parse_cases depth source with ⟨t, -, spells⟩ | ⟨error, failed, shallow⟩
      · exact absurd ⟨t, spells⟩ nothing
      · refine ⟨error, failed, ?_⟩
        intro nested
        have short := shallow nested
        omega
  · intro t t' spells spells'
    have read := parse_of_spells spells (Nat.le_refl _)
    have read' := parse_of_spells spells' (Nat.le_refl _)
    exact Except.ok.inj (read.symm.trans read')

/-- Spaces make no difference, and an abstraction is an argument only in parentheses. -/
theorem parse_iff_spells_spaced :
    let t := Term.app (.app (.var "f") (.abs "x" (.app (.var "x") (.var "y")))) (.var "z")
    parse 60 " f(\\ x.x y )z" = .ok t ∧ Spells " f(\\ x.x y )z" t ∧
      (¬∃ t, Spells "f λx.x" t) ∧
      ∃ error, parse 60 "f λx.x" = .error error ∧ error.cause ≠ .nestedTooDeeply := by
  have read : parse 60 " f(\\ x.x y )z" =
      .ok (.app (.app (.var "f") (.abs "x" (.app (.var "x") (.var "y")))) (.var "z")) := by
    decide +kernel
  have failed : parse 60 "f λx.x" = .error ⟨.expectedAtom, "f λx.x", 2, 3⟩ := by decide +kernel
  obtain ⟨exact, refused⟩ := (parse_iff_spells "f λx.x").2.1 60 (by decide)
  have nothing : ¬∃ t, Spells "f λx.x" t := by
    rintro ⟨t, spells⟩
    cases failed.symm.trans ((exact t).2 spells)
  exact ⟨read, (parse_iff_spells " f(\\ x.x y )z").1 60 _ read, nothing, refused nothing⟩

end Redex
