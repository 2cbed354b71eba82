import Redex.Proofs.Reading

/-!
# Where a phrase breaks

A phrase in front of some characters `Breaks` at a point if what comes before that point begins a
phrase, and no phrase can be read off the front any more once the next character is seen, whatever
comes behind it. At the end of the characters there is no next one, and it is their end that rules
the phrase out.

For every position in a production there is one lemma that says how the phrase breaks there: at a
character that cannot stand in that position, or inside the part that has to stand there. Behind a
part of a phrase this needs that the part ends in one place only (`Phrase.Reads.unique`).
-/

namespace Redex

open Grammar

/-! ## Only the first character counts -/

namespace Cursor

theorem firstKind_congr {cs cs' : List Char} (same : cs'.head? = cs.head?) :
    firstKind cs' = firstKind cs := by
  cases cs with
  | nil => rw [List.head?_eq_none_iff.1 same]
  | cons c cs =>
    obtain ⟨rest, rfl⟩ := List.head?_eq_some_iff.1 same
    rfl

theorem firstKind_spaceless {cs : List Char} (readable : (firstKind cs).isSome = true) :
    firstKind (spaceless cs) = firstKind cs := by
  cases cs with
  | nil => rfl
  | cons c cs =>
    have noSpace : c ≠ ' ' := by
      rintro rfl
      cases readable
    refine firstKind_congr ?_
    simp [spaceless, noSpace]

theorem Faces.unique {cursor : Cursor} {cs cs' : List Char} (faces : cursor.Faces cs)
    (faces' : cursor.Faces cs') : cs = cs' := by
  cases faces with
  | atEnd ended nothing =>
    refine (eq_nil_of_firstKind ?_).symm
    rw [faces'.firstKind_eq, ended]
  | @onSymbol c known lexeme =>
    cases faces' with
    | atEnd ended _ =>
      rw [ended] at known
      cases shows_of_ofChar? known
    | onSymbol _ lexeme' =>
      have same := congrArg String.toList (lexeme.symm.trans lexeme')
      simp only [String.toList_singleton, List.cons.injEq, and_true] at same
      rw [same]

theorem exists_faces {cs : List Char} (readable : (firstKind (spaceless cs)).isSome = true) :
    ∃ cursor : Cursor, cursor.Faces (spaceless cs) := by
  rcases spaceless_cases cs with ⟨-, nothing⟩ | ⟨c, rest, -, here⟩
  · rw [nothing]
    exact ⟨⟨"", 0, [], Token.atEnd 0⟩, .atEnd rfl rfl⟩
  · rw [here] at readable ⊢
    obtain ⟨kind, known⟩ := Option.isSome_iff_exists.1 readable
    exact ⟨⟨"", 0, rest, ⟨kind, String.singleton c, 0⟩⟩, .onSymbol known rfl⟩

end Cursor

namespace Grammar

open Cursor

theorem Stops.congr {cs cs' : List Char} (same : firstKind cs' = firstKind cs)
    (stops : Stops cs) : Stops cs' := by
  unfold Stops
  rw [same]
  exact stops

theorem Phrase.Follows.congr {phrase : Phrase} {cs cs' : List Char}
    (same : firstKind cs' = firstKind cs) (follows : phrase.Follows cs) : phrase.Follows cs' := by
  cases phrase with
  | term => exact Stops.congr same follows
  | application => exact Stops.congr same follows
  | atom =>
    change (firstKind cs').isSome = true
    rw [same]
    exact follows

theorem Phrase.Follows.readable {phrase : Phrase} {cs : List Char} (follows : phrase.Follows cs) :
    (firstKind cs).isSome = true := by
  cases phrase with
  | term => exact Stops.readable follows
  | application => exact Stops.readable follows
  | atom => exact follows

/-! ## A phrase ends in one place -/

/-- What can be read off the front of some characters ends in one place. The parser goes there, and
it can go to one place only. -/
theorem Phrase.Reads.unique {phrase : Phrase} {cs rest rest' : List Char} {t t' : Term}
    (reads : phrase.Reads cs t rest) (reads' : phrase.Reads cs t' rest') : rest = rest' := by
  obtain ⟨front, rfl, derives, follows⟩ := reads
  obtain ⟨front', same, derives', follows'⟩ := reads'
  have tight : spaceless (front ++ rest) = front ++ spaceless rest := by
    rw [spaceless_append, spaceless_eq_self derives.ne_space]
  have tight' : spaceless (front ++ rest) = front' ++ spaceless rest' := by
    rw [same, spaceless_append, spaceless_eq_self derives'.ne_space]
  have readable : (firstKind (spaceless (front ++ rest))).isSome = true := by
    rw [tight]
    exact derives.readable_append _
  obtain ⟨cursor, faces⟩ := exists_faces readable
  let depth := 3 * front.length + 3 * front'.length
  have enough : 3 * front.length ≤ depth + phrase.spare := by omega
  have enough' : 3 * front'.length ≤ depth + phrase.spare := by omega
  obtain ⟨next, read, ahead⟩ :=
    scans_of_derives derives enough cursor (spaceless rest) (tight ▸ faces)
      (follows.congr (firstKind_spaceless follows.readable))
  obtain ⟨next', read', ahead'⟩ :=
    scans_of_derives derives' enough' cursor (spaceless rest') (tight' ▸ faces)
      (follows'.congr (firstKind_spaceless follows'.readable))
  cases read.symm.trans read'
  have left := ahead.unique ahead'
  rw [tight, left, List.append_cancel_right_eq] at tight'
  subst tight'
  exact List.append_cancel_left same

/-! ## Breaks -/

/-- Whether characters begin a phrase. -/
def Phrase.Begins (phrase : Phrase) (good : List Char) : Prop :=
  ∃ more t, Derives phrase (good ++ more) t

/-- Whether no phrase can be read off the front of `good` with anything behind it that starts like
`bad`. -/
def Phrase.Refuses (phrase : Phrase) (good bad : List Char) : Prop :=
  ∀ bad' t rest, bad'.head? = bad.head? → ¬phrase.Reads (good ++ bad') t rest

/-- Whether a phrase in front of `cs` goes wrong where `bad` starts. -/
def Phrase.Breaks (phrase : Phrase) (cs bad : List Char) : Prop :=
  ∃ good, cs = good ++ bad ∧ phrase.Begins good ∧ phrase.Refuses good bad

theorem Phrase.Reads.readable {phrase : Phrase} {cs rest : List Char} {t : Term}
    (reads : phrase.Reads cs t rest) : (firstKind cs).isSome = true := by
  obtain ⟨front, rfl, derives, -⟩ := reads
  exact derives.readable_append rest

theorem derives_letter (phrase : Phrase) : Derives phrase ['x'] (.var "x") := by
  have letter : Derives .atom ['x'] (.var "x") := .identifier (by decide)
  cases phrase with
  | term => exact letter.ofAtom
  | application => exact letter.alone
  | atom => exact letter

theorem head?_append_congr {good bad bad' : List Char} (same : bad'.head? = bad.head?) :
    (good ++ bad').head? = (good ++ bad).head? := by
  rw [List.head?_append, List.head?_append, same]

section Breaks

variable {front cs bad rest : List Char} {t : Term}

/-- A phrase breaks at once where its first character cannot stand. -/
theorem Phrase.breaks_at_start {phrase : Phrase}
    (refused : ∀ cs' t rest, firstKind cs' = firstKind cs → ¬phrase.Reads cs' t rest) :
    phrase.Breaks cs cs := by
  refine ⟨[], rfl, ⟨['x'], .var "x", derives_letter phrase⟩, ?_⟩
  intro bad' t rest same
  exact refused bad' t rest (firstKind_congr same)

theorem Phrase.breaks_of_unreadable (phrase : Phrase) (unreadable : firstKind cs = none) :
    phrase.Breaks cs cs := by
  refine breaks_at_start ?_
  intro cs' t rest same reads
  have readable := reads.readable
  rw [same, unreadable] at readable
  cases readable

/-! ## Abstractions -/

theorem Phrase.Reads.of_lambda {l : Char} (lambda : IsLambda l)
    (reads : Phrase.term.Reads (l :: cs) t rest) :
    ∃ x cs' body, cs = x :: '.' :: cs' ∧ IsIdentifier x ∧ Phrase.term.Reads cs' body rest := by
  obtain ⟨front, split, derives, stops⟩ := reads
  cases derives with
  | @abstraction _ x inner body _ letter derives =>
    cases split
    exact ⟨x, inner ++ rest, body, rfl, letter, inner, rfl, derives, stops⟩
  | application derives =>
    have starts := derives.application_starts rest
    rw [← split] at starts
    exact absurd (firstKind_of_shows .lambda lambda cs) starts

theorem Phrase.Reads.of_not_lambda (other : firstKind cs ≠ some .lambda)
    (reads : Phrase.term.Reads cs t rest) : Phrase.application.Reads cs t rest := by
  obtain ⟨front, rfl, derives, stops⟩ := reads
  cases derives with
  | abstraction lambda _ _ => exact absurd (firstKind_of_shows .lambda lambda _) other
  | application derives => exact ⟨front, rfl, derives, stops⟩

theorem breaks_parameter {l : Char} (lambda : IsLambda l)
    (other : firstKind bad ≠ some .identifier) : Phrase.term.Breaks (l :: bad) bad := by
  refine ⟨[l], rfl, ⟨['x', '.', 'x'], .abs "x" (.var "x"), ?_⟩, ?_⟩
  · exact .abstraction lambda (by decide) (derives_letter .term)
  · intro bad' t rest same reads
    obtain ⟨x, cs', body, rfl, letter, -⟩ := reads.of_lambda lambda
    rw [← firstKind_congr same] at other
    exact other (firstKind_of_shows .identifier letter _)

theorem breaks_dot {l x : Char} (lambda : IsLambda l) (letter : IsIdentifier x)
    (other : firstKind bad ≠ some .dot) : Phrase.term.Breaks (l :: x :: bad) bad := by
  refine ⟨[l, x], rfl, ⟨['.', 'x'], .abs (String.singleton x) (.var "x"), ?_⟩, ?_⟩
  · exact .abstraction lambda letter (derives_letter .term)
  · intro bad' t rest same reads
    obtain ⟨y, cs', body, split, -, -⟩ := reads.of_lambda lambda
    cases split
    rw [← firstKind_congr same] at other
    exact other rfl

theorem breaks_body {l x : Char} (lambda : IsLambda l) (letter : IsIdentifier x)
    (breaks : Phrase.term.Breaks cs bad) : Phrase.term.Breaks (l :: x :: '.' :: cs) bad := by
  obtain ⟨good, rfl, ⟨more, body, derives⟩, refuses⟩ := breaks
  refine ⟨l :: x :: '.' :: good, rfl, ⟨more, _, .abstraction lambda letter derives⟩, ?_⟩
  intro bad' t rest same reads
  obtain ⟨y, cs', body, split, -, inner⟩ := reads.of_lambda lambda
  cases split
  exact refuses bad' body rest same inner

theorem breaks_application (other : firstKind cs ≠ some .lambda)
    (breaks : Phrase.application.Breaks cs bad) : Phrase.term.Breaks cs bad := by
  obtain ⟨good, rfl, ⟨more, t, derives⟩, refuses⟩ := breaks
  refine ⟨good, rfl, ⟨more, t, .application derives⟩, ?_⟩
  intro bad' t rest same reads
  rw [← firstKind_congr (head?_append_congr same)] at other
  exact refuses bad' t rest same (reads.of_not_lambda other)

/-! ## Atoms -/

theorem Phrase.Reads.of_open (reads : Phrase.atom.Reads ('(' :: cs) t rest) :
    Phrase.term.Reads cs t (')' :: rest) := by
  obtain ⟨front, split, derives, -⟩ := reads
  cases derives with
  | @parens inner _ derives =>
    rw [List.cons_append, List.append_assoc, List.cons.injEq] at split
    exact ⟨inner, split.2, derives, Or.inr (Or.inl rfl)⟩
  | identifier letter =>
    cases split
    exact absurd letter (by decide)

theorem Phrase.Reads.of_letter {x : Char} (letter : IsIdentifier x)
    (reads : Phrase.atom.Reads (x :: cs) t rest) : cs = rest := by
  obtain ⟨front, split, derives, -⟩ := reads
  cases derives with
  | parens _ =>
    cases split
    exact absurd letter (by decide)
  | identifier _ =>
    cases split
    rfl

theorem breaks_atom (closed : firstKind cs ≠ some .openParen)
    (other : firstKind cs ≠ some .identifier) : Phrase.atom.Breaks cs cs := by
  refine Phrase.breaks_at_start ?_
  rintro cs' t rest same ⟨front, rfl, derives, -⟩
  rcases derives.atom_starts rest with opens | letter
  · exact closed (same.symm.trans opens)
  · exact other (same.symm.trans letter)

theorem breaks_inner (breaks : Phrase.term.Breaks cs bad) :
    Phrase.atom.Breaks ('(' :: cs) bad := by
  obtain ⟨good, rfl, ⟨more, t, derives⟩, refuses⟩ := breaks
  refine ⟨'(' :: good, rfl, ⟨more ++ [')'], t, ?_⟩, ?_⟩
  · rw [List.cons_append, ← List.append_assoc]
    exact .parens derives
  · intro bad' t rest same reads
    exact refuses bad' t _ same reads.of_open

/-- Behind a term in parentheses, the closing one has to follow. -/
theorem breaks_close (derives : Derives .term front t) (stops : Stops bad)
    (other : firstKind bad ≠ some .closeParen) :
    Phrase.atom.Breaks ('(' :: (front ++ bad)) bad := by
  refine ⟨'(' :: front, rfl, ⟨[')'], t, .parens derives⟩, ?_⟩
  intro bad' t' rest same reads
  have inner : Phrase.term.Reads (front ++ bad') t bad' :=
    ⟨front, rfl, derives, stops.congr (firstKind_congr same)⟩
  have ends := inner.unique reads.of_open
  rw [← firstKind_congr same, ends] at other
  exact other rfl

theorem breaks_behind_parens (derives : Derives .term front t) (unreadable : firstKind bad = none) :
    Phrase.atom.Breaks ('(' :: (front ++ ')' :: bad)) bad := by
  refine ⟨'(' :: (front ++ [')']), by simp, ⟨[], t, ?_⟩, ?_⟩
  · rw [List.append_nil]
    exact .parens derives
  · intro bad' t' rest same reads
    obtain ⟨-, -, -, readable⟩ := id reads
    rw [List.cons_append, List.append_assoc] at reads
    have inner : Phrase.term.Reads (front ++ ')' :: bad') t (')' :: bad') :=
      ⟨front, rfl, derives, Or.inr (Or.inl rfl)⟩
    cases inner.unique reads.of_open
    change (firstKind bad').isSome = true at readable
    rw [firstKind_congr same, unreadable] at readable
    cases readable

theorem breaks_behind_letter {x : Char} (letter : IsIdentifier x)
    (unreadable : firstKind bad = none) : Phrase.atom.Breaks (x :: bad) bad := by
  refine ⟨[x], rfl, ⟨[], .var (String.singleton x), .identifier letter⟩, ?_⟩
  intro bad' t rest same reads
  obtain ⟨-, -, -, readable⟩ := id reads
  cases reads.of_letter letter
  change (firstKind bad').isSome = true at readable
  rw [firstKind_congr same, unreadable] at readable
  cases readable

/-! ## Rows of atoms -/

/-- Atoms are read off the front, up to where a row ends. -/
def ReadsRow (cs rest : List Char) : Prop :=
  ∃ atoms : List (List Char × Term), (∀ atom ∈ atoms, Derives .atom atom.1 atom.2) ∧
    cs = atoms.flatMap Prod.fst ++ rest ∧ Stops rest

/-- Whether the further atoms of a row in front of `cs` go wrong where `bad` starts. -/
def RowBreaks (cs bad : List Char) : Prop :=
  ∃ good, cs = good ++ bad ∧
    (∃ (atoms : List (List Char × Term)) (more : List Char),
      (∀ atom ∈ atoms, Derives .atom atom.1 atom.2) ∧ good ++ more = atoms.flatMap Prod.fst) ∧
    ∀ bad' rest, bad'.head? = bad.head? → ¬ReadsRow (good ++ bad') rest

theorem ReadsRow.cases (reads : ReadsRow cs rest) (goesOn : ¬Stops cs) :
    ∃ t cs', Phrase.atom.Reads cs t cs' ∧ ReadsRow cs' rest := by
  obtain ⟨atoms, derived, rfl, stops⟩ := reads
  cases atoms with
  | nil => exact absurd stops goesOn
  | cons atom atoms =>
    obtain ⟨first, further⟩ := List.forall_mem_cons.1 derived
    refine ⟨atom.2, atoms.flatMap Prod.fst ++ rest, ⟨atom.1, ?_, first, ?_⟩, ?_⟩
    · rw [List.flatMap_cons, List.append_assoc]
    · exact readable_of_atoms further stops
    · exact ⟨atoms, further, rfl, stops⟩

theorem Phrase.Reads.of_application (reads : Phrase.application.Reads cs t rest) :
    ∃ t' cs', Phrase.atom.Reads cs t' cs' ∧ ReadsRow cs' rest := by
  obtain ⟨front, rfl, derives, stops⟩ := reads
  cases derives with
  | @row first function atoms derives derived =>
    refine ⟨function, atoms.flatMap Prod.fst ++ rest, ⟨first, ?_, derives, ?_⟩, ?_⟩
    · rw [List.append_assoc]
    · exact readable_of_atoms derived stops
    · exact ⟨atoms, derived, rfl, stops⟩

theorem breaks_function (breaks : Phrase.atom.Breaks cs bad) :
    Phrase.application.Breaks cs bad := by
  obtain ⟨good, rfl, ⟨more, t, derives⟩, refuses⟩ := breaks
  refine ⟨good, rfl, ⟨more, t, derives.alone⟩, ?_⟩
  intro bad' t rest same reads
  obtain ⟨t', cs', first, -⟩ := reads.of_application
  exact refuses bad' t' cs' same first

theorem rowBreaks_first (goesOn : ¬Stops cs) (breaks : Phrase.atom.Breaks cs bad) :
    RowBreaks cs bad := by
  obtain ⟨good, rfl, ⟨more, t, derives⟩, refuses⟩ := breaks
  refine ⟨good, rfl, ⟨[(good ++ more, t)], more, ?_, ?_⟩, ?_⟩
  · exact List.forall_mem_singleton.2 derives
  · rw [List.flatMap_singleton]
  · intro bad' rest same reads
    have goesOn' : ¬Stops (good ++ bad') := fun stops =>
      goesOn (stops.congr (firstKind_congr (head?_append_congr same)).symm)
    obtain ⟨t', cs', first, -⟩ := reads.cases goesOn'
    exact refuses bad' t' cs' same first

/-- What comes behind an atom is looked at only after it. -/
theorem Phrase.Reads.behind_atom {bad' cs' good : List Char} {t' : Term}
    (derives : Derives .atom front t) (readable : (firstKind (good ++ bad)).isSome = true)
    (same : bad'.head? = bad.head?) (reads : Phrase.atom.Reads (front ++ (good ++ bad')) t' cs') :
    cs' = good ++ bad' := by
  have first : Phrase.atom.Reads (front ++ (good ++ bad')) t (good ++ bad') := by
    refine ⟨front, rfl, derives, ?_⟩
    change (firstKind (good ++ bad')).isSome = true
    rw [firstKind_congr (head?_append_congr same)]
    exact readable
  exact reads.unique first

theorem rowBreaks_next (derives : Derives .atom front t)
    (readable : (firstKind cs).isSome = true) (breaks : RowBreaks cs bad) :
    RowBreaks (front ++ cs) bad := by
  obtain ⟨good, rfl, ⟨atoms, more, derived, flat⟩, refuses⟩ := breaks
  refine ⟨front ++ good, by simp, ⟨(front, t) :: atoms, more, ?_, ?_⟩, ?_⟩
  · exact List.forall_mem_cons.2 ⟨derives, derived⟩
  · rw [List.append_assoc, flat, List.flatMap_cons]
  · intro bad' rest same reads
    rw [List.append_assoc] at reads
    obtain ⟨t', cs', first, further⟩ := reads.cases (derives.not_stops _)
    cases first.behind_atom derives readable same
    exact refuses bad' rest same further

theorem breaks_row (derives : Derives .atom front t) (readable : (firstKind cs).isSome = true)
    (breaks : RowBreaks cs bad) : Phrase.application.Breaks (front ++ cs) bad := by
  obtain ⟨good, rfl, ⟨atoms, more, derived, flat⟩, refuses⟩ := breaks
  refine ⟨front ++ good, by simp, ⟨more, (atoms.map Prod.snd).foldl Term.app t, ?_⟩, ?_⟩
  · rw [List.append_assoc, flat]
    exact .row derives derived
  · intro bad' t' rest same reads
    rw [List.append_assoc] at reads
    obtain ⟨t', cs', first, further⟩ := reads.of_application
    cases first.behind_atom derives readable same
    exact refuses bad' rest same further

/-! ## Whole texts -/

/-- Whether a text that should be a term goes wrong where `bad` starts: what comes before begins a
term, and no term goes on like `bad` behind it. -/
def Fails (cs bad : List Char) : Prop :=
  ∃ good, cs = good ++ bad ∧ Phrase.term.Begins good ∧
    ∀ bad' t, bad'.head? = bad.head? → ¬Derives .term (good ++ bad') t

theorem Phrase.Breaks.fails (breaks : Phrase.term.Breaks cs bad) : Fails cs bad := by
  obtain ⟨good, split, begins, refuses⟩ := breaks
  refine ⟨good, split, begins, ?_⟩
  intro bad' t same derives
  exact refuses bad' t [] same ⟨good ++ bad', by simp, derives, Or.inl rfl⟩

/-- Behind a whole term nothing may follow. -/
theorem fails_behind (derives : Derives .term front t) (stops : Stops bad)
    (more : firstKind bad ≠ some .endOfText) : Fails (front ++ bad) bad := by
  refine ⟨front, rfl, ⟨[], t, by rwa [List.append_nil]⟩, ?_⟩
  intro bad' t' same derives'
  have first : Phrase.term.Reads (front ++ bad') t bad' :=
    ⟨front, rfl, derives, stops.congr (firstKind_congr same)⟩
  have whole : Phrase.term.Reads (front ++ bad') t' [] :=
    ⟨front ++ bad', by simp, derives', Or.inl rfl⟩
  have nothing := first.unique whole
  rw [← firstKind_congr same, nothing] at more
  exact more rfl

end Breaks

end Grammar

end Redex
