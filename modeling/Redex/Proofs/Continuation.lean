import Mathlib.Data.List.DropRight
import Redex.Source

/-!
# Continued lines

Lines are joined until all parentheses are closed. `gather` says which texts come of a list of lines
in this way and which text is left unfinished: every line loses its comment and its outer blanks, is
put behind what is unfinished, and the whole is stripped again.

A file collects exactly these texts (`collectAll_gather`), in ascending order of their line numbers,
and the number of each is that of its first line (`collectAll_madeOf`). Stripping a line before its
comment is cut off, behind other text, comes to the same (`tidyLine_seam`).
-/

namespace Redex

open Text (isBlank stripChars)

/-! ## Blanks at the ends -/

theorem stripChars_rdropWhile (cs : List Char) :
    stripChars (cs.rdropWhile isBlank) = stripChars cs := by
  change (List.dropWhile isBlank (cs.rdropWhile isBlank)).rdropWhile isBlank =
    (List.dropWhile isBlank cs).rdropWhile isBlank
  induction cs using List.reverseRecOn with
  | nil => rfl
  | append_singleton cs c ih =>
    by_cases blank : isBlank c = true
    · rw [List.rdropWhile_concat_pos isBlank cs c blank, ih, List.dropWhile_append]
      by_cases nothing : (cs.dropWhile isBlank).isEmpty = true
      · rw [if_pos nothing, List.isEmpty_iff.1 nothing, List.dropWhile_cons_of_pos blank]
        rfl
      · rw [if_neg nothing, List.rdropWhile_concat_pos isBlank _ c blank]
    · rw [List.rdropWhile_concat_neg isBlank cs c blank]

theorem rdropWhile_append_rdropWhile (cs ds : List Char) :
    (cs ++ ds.rdropWhile isBlank).rdropWhile isBlank = (cs ++ ds).rdropWhile isBlank := by
  simp only [List.rdropWhile, List.reverse_append, List.reverse_reverse, List.dropWhile_append,
    List.dropWhile_idempotent]

/-- What stands at the end may be stripped before it is put there. -/
theorem stripChars_append_rdropWhile (cs ds : List Char) :
    stripChars (cs ++ ds.rdropWhile isBlank) = stripChars (cs ++ ds) := by
  rw [← stripChars_rdropWhile, rdropWhile_append_rdropWhile, stripChars_rdropWhile]

theorem stripChars_space (cs : List Char) : stripChars (' ' :: cs) = stripChars cs := rfl

theorem stripChars_stripChars (cs : List Char) : stripChars (stripChars cs) = stripChars cs := by
  refine (stripChars_rdropWhile (cs.dropWhile isBlank)).trans ?_
  change (List.dropWhile isBlank (cs.dropWhile isBlank)).rdropWhile isBlank = _
  rw [List.dropWhile_idempotent]
  rfl

theorem isBlank_of_stripChars_nil {cs : List Char} (nothing : stripChars cs = []) :
    ∀ c ∈ cs, isBlank c = true := by
  intro c inside
  have behind : ∀ d ∈ cs.dropWhile isBlank, isBlank d = true := List.rdropWhile_eq_nil_iff.1 nothing
  rw [← List.takeWhile_append_dropWhile (p := isBlank) (l := cs)] at inside
  rcases List.mem_append.1 inside with front | back
  · exact List.mem_takeWhile_imp front
  · exact behind c back

/-! ## Comments -/

theorem uncommented_cons {c : Char} (other : c ≠ ';') (cs : List Char) :
    uncommented (c :: cs) = c :: uncommented cs := by
  rw [uncommented]
  rintro _ rfl
  exact absurd rfl other

theorem uncommented_append {cs ds : List Char} (seam : ds.head? ≠ some ';') :
    uncommented (cs ++ ds) =
      if uncommented cs = cs then cs ++ uncommented ds else uncommented cs := by
  fun_induction uncommented cs with
  | case1 rest => simp [uncommented]
  | case2 c cs single ih =>
    have still : ∀ rest, c = ';' → cs ++ ds = ';' :: rest → False := by
      intro rest semicolon split
      cases cs with
      | nil => exact seam (by rw [← List.nil_append ds, split]; rfl)
      | cons d cs =>
        cases split
        exact single cs semicolon rfl
    rw [List.cons_append, uncommented, ih]
    · by_cases whole : uncommented cs = cs
      · simp [whole]
      · simp [whole]
    · exact still
  | case3 => simp

theorem uncommented_uncommented (cs : List Char) :
    uncommented (uncommented cs) = uncommented cs :=
  uncommented_eq_self_iff.2 (uncommented_eq_iff.1 rfl).not_hasComment

theorem uncommented_of_append {cs ds : List Char} (whole : uncommented (cs ++ ds) = cs ++ ds) :
    uncommented cs = cs := by
  rw [uncommented_eq_self_iff] at whole ⊢
  exact fun inside => whole (inside.trans (List.prefix_append cs ds).isInfix)

theorem ne_semicolon_of_isBlank {c : Char} (blank : isBlank c = true) : c ≠ ';' := by
  rintro rfl
  exact absurd blank (by decide)

theorem dropWhile_uncommented (cs : List Char) :
    (uncommented cs).dropWhile isBlank = uncommented (cs.dropWhile isBlank) := by
  induction cs with
  | nil => rfl
  | cons c cs ih =>
    by_cases blank : isBlank c = true
    · rw [uncommented_cons (ne_semicolon_of_isBlank blank), List.dropWhile_cons_of_pos blank,
        List.dropWhile_cons_of_pos blank, ih]
    · rw [List.dropWhile_cons_of_neg blank]
      by_cases starts : c = ';' ∧ ∃ rest, cs = ';' :: rest
      · obtain ⟨rfl, rest, rfl⟩ := starts
        rfl
      · rw [uncommented, List.dropWhile_cons_of_neg blank]
        exact fun rest semicolon split => starts ⟨semicolon, rest, split⟩

theorem rdropWhile_uncommented (cs : List Char) :
    (uncommented (cs.rdropWhile isBlank)).rdropWhile isBlank =
      (uncommented cs).rdropWhile isBlank := by
  induction cs using List.reverseRecOn with
  | nil => rfl
  | append_singleton cs c ih =>
    by_cases blank : isBlank c = true
    · -- A blank is no semicolon, so that it cannot complete the start of a comment.
      have other := ne_semicolon_of_isBlank blank
      rw [List.rdropWhile_concat_pos isBlank cs c blank, ih,
        uncommented_append (by simpa using other)]
      by_cases whole : uncommented cs = cs
      · rw [if_pos whole, uncommented_cons other, whole]
        exact (List.rdropWhile_concat_pos isBlank cs c blank).symm
      · rw [if_neg whole]
    · rw [List.rdropWhile_concat_neg isBlank cs c blank]

/-- A line may be stripped before its comment is cut off. -/
theorem rdropWhile_uncommented_stripChars (cs : List Char) :
    (uncommented (stripChars cs)).rdropWhile isBlank = stripChars (uncommented cs) := by
  refine (rdropWhile_uncommented (cs.dropWhile isBlank)).trans ?_
  rw [← dropWhile_uncommented]
  rfl

/-- Where a line is put behind a text without a comment, no comment starts at the seam. -/
theorem stripChars_seam {cs : List Char} (whole : uncommented cs = cs) (ds : List Char) :
    stripChars (uncommented (cs ++ ' ' :: stripChars ds)) =
      stripChars (cs ++ ' ' :: stripChars (uncommented ds)) := by
  have seam : (' ' :: stripChars ds).head? ≠ some ';' := by simp
  rw [uncommented_append seam, if_pos whole, uncommented_cons (by decide),
    ← rdropWhile_uncommented_stripChars, ← List.singleton_append, ← List.append_assoc,
    ← stripChars_append_rdropWhile, List.append_assoc, List.singleton_append]

/-! ## Texts that wait to be continued -/

/-- Whether a text is one that is held back: nothing, or a text that opens more parentheses than it
closes. -/
def Held (text : String) : Prop := text = "" ∨ isUnfinished text = true

/-- Whether a text is one that can wait to be continued: it is held back, and it is tidy. -/
structure Waiting (text : String) : Prop where
  held : Held text
  whole : uncommented text.toList = text.toList
  stripped : stripChars text.toList = text.toList

theorem waiting_nothing : Waiting "" := ⟨Or.inl rfl, rfl, rfl⟩

theorem toList_tidyLine (line : String) :
    (tidyLine line).toList = stripChars (uncommented line.toList) :=
  String.toList_ofList

theorem waiting_tidyLine {line : String} (unfinished : isUnfinished (tidyLine line) = true) :
    Waiting (tidyLine line) := by
  refine ⟨Or.inr unfinished, ?_, ?_⟩
  · rw [toList_tidyLine]
    have front : uncommented ((uncommented line.toList).dropWhile isBlank) =
        (uncommented line.toList).dropWhile isBlank := by
      rw [← dropWhile_uncommented, uncommented_uncommented]
    obtain ⟨blanks, split⟩ :=
      List.rdropWhile_prefix isBlank (l := (uncommented line.toList).dropWhile isBlank)
    rw [← split] at front
    exact uncommented_of_append front
  · rw [toList_tidyLine, stripChars_stripChars]

theorem toList_behind (text line : String) :
    (text ++ " " ++ line).toList = text.toList ++ ' ' :: line.toList := by
  rw [String.toList_append, String.toList_append, List.append_assoc]
  rfl

/-- The text that a line makes with the one that waits. -/
def continued (text line : String) : String := Text.strip (text ++ " " ++ tidyLine line)

/-- It comes to the same if the comment is cut off after the line is put behind the text. -/
theorem tidyLine_seam {text : String} (waiting : Waiting text) (line : String) :
    tidyLine (text ++ " " ++ Text.strip line) = continued text line := by
  unfold continued tidyLine Text.strip
  rw [toList_behind, toList_behind, String.toList_ofList, String.toList_ofList,
    stripChars_seam waiting.whole]

theorem continued_nothing (line : String) : continued "" line = tidyLine line := by
  unfold continued Text.strip
  rw [toList_behind, toList_tidyLine]
  change String.ofList (stripChars (' ' :: stripChars (uncommented line.toList))) = _
  rw [stripChars_space, stripChars_stripChars]
  rfl

/-- A line that is empty or a comment adds nothing. -/
theorem continued_of_empty {text line : String} (waiting : Waiting text)
    (nothing : tidyLine line = "") : continued text line = text := by
  unfold continued Text.strip
  rw [nothing, toList_behind, ← stripChars_append_rdropWhile]
  change String.ofList (stripChars (text.toList ++ [])) = text
  rw [List.append_nil, waiting.stripped, String.ofList_toList]

theorem continued_blank {text line : String} (waiting : Waiting text)
    (blank : stripChars line.toList = []) : continued text line = text := by
  refine continued_of_empty waiting ?_
  rw [tidyLine, ← rdropWhile_uncommented_stripChars, blank]
  rfl

theorem waiting_continued {text : String} (waiting : Waiting text) (line : String)
    (unfinished : isUnfinished (continued text line) = true) : Waiting (continued text line) := by
  rw [← tidyLine_seam waiting line] at unfinished ⊢
  exact waiting_tidyLine unfinished

/-- The parenthesis that is open is still there. -/
theorem continued_ne_empty {text : String} (unfinished : isUnfinished text = true)
    (line : String) : continued text line ≠ "" := by
  intro nothing
  have opens : '(' ∈ text.toList := by
    refine List.count_pos_iff.1 ?_
    have more : text.toList.count ')' < text.toList.count '(' := by
      simpa [isUnfinished] using unfinished
    omega
  have empty : stripChars (text ++ " " ++ tidyLine line).toList = [] := by
    rw [← String.toList_ofList (l := stripChars _)]
    exact congrArg String.toList nothing
  have blank := isBlank_of_stripChars_nil empty '(' (by rw [toList_behind]; simp [opens])
  exact absurd blank (by decide)

/-! ## Gathering -/

theorem ne_empty_of_isUnfinished {text : String} (unfinished : isUnfinished text = true) :
    text ≠ "" := by
  rintro rfl
  cases unfinished

/-- A text in a list, if there is anything of it. -/
def nonempty (text : String) : List String := if text = "" then [] else [text]

theorem eq_of_mem_nonempty {text text' : String} (inside : text' ∈ nonempty text) :
    text' = text := by
  unfold nonempty at inside
  split at inside
  · cases inside
  · exact List.mem_singleton.1 inside

theorem ne_empty_of_mem_nonempty {text text' : String} (inside : text' ∈ nonempty text) :
    text' ≠ "" := by
  unfold nonempty at inside
  split at inside
  · cases inside
  · next filled =>
    rw [List.mem_singleton.1 inside]
    exact filled

/-- The finished texts that come of lines behind one that waits, and the text that is left to
wait. -/
def gather (text : String) : List String → List String × String
  | [] => ([], text)
  | line :: lines =>
    let text := continued text line
    if isUnfinished text then gather text lines
    else (nonempty text ++ (gather "" lines).1, (gather "" lines).2)

/-- What is gathered is finished, and what is left over waits. -/
theorem gather_spec (lines : List String) {text : String} (waiting : Waiting text) :
    (∀ finished ∈ (gather text lines).1, isUnfinished finished = false) ∧
      Waiting (gather text lines).2 := by
  induction lines generalizing text with
  | nil => exact ⟨nofun, waiting⟩
  | cons line lines ih =>
    have unfinishedNext := waiting_continued waiting line
    simp only [gather]
    generalize continued text line = next at *
    cases complete : isUnfinished next with
    | true => exact ih (unfinishedNext complete)
    | false =>
      obtain ⟨finished, waits⟩ := ih waiting_nothing
      refine ⟨List.forall_mem_append.2 ⟨?_, finished⟩, waits⟩
      intro text' inside
      rw [eq_of_mem_nonempty inside]
      exact complete

/-- Nothing that is gathered is empty. -/
theorem ne_empty_of_mem_gather {text text' : String} {lines : List String}
    (inside : text' ∈ (gather text lines).1) : text' ≠ "" := by
  induction lines generalizing text with
  | nil => cases inside
  | cons line lines ih =>
    simp only [gather] at inside
    split at inside
    · exact ih inside
    · rcases List.mem_append.1 inside with here | below
      · exact ne_empty_of_mem_nonempty here
      · exact ih below

namespace Entry

/-- The entry of a text that waits, if there is anything of it. -/
def waitingAt (text : String) (number : Int) : List Entry := (nonempty text).map (⟨·, number⟩)

/-- Whether entries come in ascending order of their numbers, which stay below a limit. -/
def Ascending (limit : Int) (entries : List Entry) : Prop :=
  entries.Pairwise (·.number < ·.number) ∧ ∀ entry ∈ entries, entry.number < limit

theorem Ascending.mono {limit limit' : Int} {entries : List Entry}
    (ascending : Ascending limit entries) (later : limit ≤ limit') : Ascending limit' entries := by
  refine ⟨ascending.1, ?_⟩
  intro entry inside
  exact Int.lt_of_lt_of_le (ascending.2 entry inside) later

theorem ascending_concat {number limit : Int} {entries : List Entry} {text : String} :
    Ascending limit (entries ++ [⟨text, number⟩]) ↔ Ascending number entries ∧ number < limit := by
  constructor
  · rintro ⟨ordered, below⟩
    obtain ⟨before, -, across⟩ := List.pairwise_append.1 ordered
    have last : (⟨text, number⟩ : Entry) ∈ [⟨text, number⟩] := List.mem_singleton_self _
    exact ⟨⟨before, fun entry inside => across entry inside _ last⟩,
      below _ (List.mem_append_right entries last)⟩
  · rintro ⟨ascending, less⟩
    refine ⟨List.pairwise_append.2 ⟨ascending.1, List.pairwise_singleton _ _, ?_⟩, ?_⟩
    · intro entry earlier last inside
      rw [List.mem_singleton.1 inside]
      exact ascending.2 entry earlier
    · intro entry inside
      rcases List.mem_append.1 inside with earlier | last
      · exact Int.lt_trans (ascending.2 entry earlier) less
      · rw [List.mem_singleton.1 last]
        exact less

section Collecting

variable {text : String} (line : String) (number first : Int) (entries : List Entry)

/-- A line is put behind the text that waits, or starts a text of its own. -/
theorem collect_waiting (waiting : Waiting text) :
    collect line number (isUnfinished text) (entries ++ waitingAt text first) =
      .ok (continued text line,
        entries ++ waitingAt (continued text line) (if text = "" then number else first)) := by
  rcases waiting.held with rfl | unfinished
  · rw [continued_nothing]
    unfold collect
    generalize tidyLine line = tidy
    by_cases nothing : tidy = ""
    · simp [nothing, waitingAt, nonempty, isUnfinished]
    · simp [nothing, waitingAt, nonempty, isUnfinished]
  · have more := continued_ne_empty unfinished line
    have filled := ne_empty_of_isUnfinished unfinished
    rw [unfinished, waitingAt, nonempty, if_neg filled, if_neg filled, waitingAt, nonempty,
      if_neg more]
    simp [collect, continued]

theorem ascending_waiting (waiting : Waiting text)
    (ascending : Ascending number (entries ++ waitingAt text first)) :
    Ascending (number + 1)
      (entries ++ waitingAt (continued text line) (if text = "" then number else first)) := by
  rcases waiting.held with rfl | unfinished
  · rw [waitingAt, nonempty, if_pos rfl, List.map_nil, List.append_nil] at ascending
    rw [if_pos rfl, waitingAt, nonempty]
    by_cases nothing : continued "" line = ""
    · rw [if_pos nothing, List.map_nil, List.append_nil]
      exact ascending.mono (by omega)
    · rw [if_neg nothing]
      exact ascending_concat.2 ⟨ascending, by omega⟩
  · have more := continued_ne_empty unfinished line
    have filled := ne_empty_of_isUnfinished unfinished
    rw [waitingAt, nonempty, if_neg filled] at ascending
    rw [if_neg filled, waitingAt, nonempty, if_neg more]
    obtain ⟨before, less⟩ := ascending_concat.1 ascending
    exact ascending_concat.2 ⟨before, by omega⟩

end Collecting

/-- A file collects what is gathered from its lines, in ascending order. -/
theorem collectAll_gather (lines : List String) {text : String} (waiting : Waiting text)
    (number : Nat) (first : Int) (entries : List Entry)
    (ascending : Ascending number (entries ++ waitingAt text first)) :
    ∃ collected limit,
      collectAll lines number (isUnfinished text) (entries ++ waitingAt text first) =
        .ok collected ∧
      collected.map Entry.text =
        entries.map Entry.text ++ (gather text lines).1 ++ nonempty (gather text lines).2 ∧
      Ascending limit collected := by
  induction lines generalizing text number first entries with
  | nil =>
    refine ⟨_, number, rfl, ?_, ascending⟩
    rw [List.map_append, waitingAt, List.map_map]
    simp [gather, Function.comp_def]
  | cons line lines ih =>
    have step := collect_waiting line number first entries waiting
    have ascending' := ascending_waiting line number first entries waiting ascending
    have unfinishedNext := waiting_continued waiting line
    rw [collectAll, step]
    simp only [gather]
    generalize continued text line = next at *
    generalize (if text = "" then (number : Int) else first) = first' at *
    change ∃ collected limit, collectAll lines (number + 1) (isUnfinished next)
      (entries ++ waitingAt next first') = .ok collected ∧ _
    cases complete : isUnfinished next with
    | true =>
      obtain ⟨collected, limit, collects, texts, ordered⟩ :=
        ih (unfinishedNext complete) (number + 1) first' entries ascending'
      rw [complete] at collects
      exact ⟨collected, limit, collects, texts, ordered⟩
    | false =>
      -- A finished text stays where it is, and nothing waits behind it.
      have done : entries ++ waitingAt next first' =
          entries ++ waitingAt next first' ++ waitingAt "" first' := (List.append_nil _).symm
      rw [done] at ascending' ⊢
      obtain ⟨collected, limit, collects, texts, ordered⟩ :=
        ih waiting_nothing (number + 1) first' _ ascending'
      refine ⟨collected, limit, collects, ?_, ordered⟩
      rw [texts]
      simp [waitingAt, Function.comp_def]

/-! ## The lines of an entry -/

/-- Whether an entry is made of the last ones of a row of lines: its number is that of its first
line, which is not empty, and the others are put behind it one after the other. -/
def LastOf (entry : Entry) (lines : List String) : Prop :=
  ∃ passed first more, lines = passed ++ first :: more ∧
    entry.number = ((passed.length + 1 : Nat) : Int) ∧ tidyLine first ≠ "" ∧
    entry.text = more.foldl continued (tidyLine first)

/-- Whether an entry is made of lines that stand behind one another in a row of lines. -/
def MadeOf (entry : Entry) (lines : List String) : Prop :=
  ∃ front behind, lines = front ++ behind ∧ entry.LastOf front

theorem MadeOf.concat {entry : Entry} {lines : List String} (made : entry.MadeOf lines)
    (line : String) : entry.MadeOf (lines ++ [line]) := by
  obtain ⟨front, behind, rfl, last⟩ := made
  exact ⟨front, behind ++ [line], List.append_assoc front behind [line], last⟩

theorem LastOf.madeOf {entry : Entry} {lines : List String} (last : entry.LastOf lines) :
    entry.MadeOf lines :=
  ⟨lines, [], (List.append_nil lines).symm, last⟩

/-- A line that starts a text is its first line. -/
theorem lastOf_start {passed : List String} {line : String} (text : tidyLine line ≠ "") :
    LastOf ⟨tidyLine line, ((passed.length + 1 : Nat) : Int)⟩ (passed ++ [line]) :=
  ⟨passed, line, [], rfl, rfl, text, rfl⟩

theorem LastOf.continue {lines : List String} {text : String} {number : Int}
    (last : LastOf ⟨text, number⟩ lines) (line : String) :
    LastOf ⟨continued text line, number⟩ (lines ++ [line]) := by
  obtain ⟨passed, first, more, rfl, named, filled, made⟩ := last
  refine ⟨passed, first, more ++ [line], ?_, named, filled, ?_⟩
  · rw [List.append_assoc, List.cons_append]
  · rw [List.foldl_append, ← made]
    rfl

/-- The text that a line makes with the one that waits is made of the lines up to there. -/
theorem lastOf_waiting {passed : List String} {text : String} {first : Int}
    (waiting : Waiting text) (last : text ≠ "" → LastOf ⟨text, first⟩ passed) (line : String)
    (filled : continued text line ≠ "") :
    LastOf ⟨continued text line, if text = "" then ((passed.length + 1 : Nat) : Int) else first⟩
      (passed ++ [line]) := by
  rcases waiting.held with rfl | unfinished
  · rw [continued_nothing] at filled ⊢
    rw [if_pos rfl]
    exact lastOf_start filled
  · have text := ne_empty_of_isUnfinished unfinished
    rw [if_neg text]
    exact (last text).continue line

theorem madeOf_waiting {lines : List String} {text : String} {number : Int}
    (last : text ≠ "" → LastOf ⟨text, number⟩ lines) :
    ∀ entry ∈ waitingAt text number, entry.MadeOf lines := by
  intro entry inside
  unfold waitingAt nonempty at inside
  split at inside
  · cases inside
  · next filled =>
    rw [List.mem_singleton.1 inside]
    exact (last filled).madeOf

/-- Every entry of a file is made of lines of the file. -/
theorem collectAll_madeOf (passed lines : List String) {text : String} (waiting : Waiting text)
    (first : Int) {entries collected : List Entry}
    (collects : collectAll lines (passed.length + 1) (isUnfinished text)
      (entries ++ waitingAt text first) = .ok collected)
    (made : ∀ entry ∈ entries, entry.MadeOf passed)
    (last : text ≠ "" → LastOf ⟨text, first⟩ passed) :
    ∀ entry ∈ collected, entry.MadeOf (passed ++ lines) := by
  induction lines generalizing passed text first entries with
  | nil =>
    cases collects
    rw [List.append_nil]
    exact List.forall_mem_append.2 ⟨made, madeOf_waiting last⟩
  | cons line lines ih =>
    have step := collect_waiting line ((passed.length + 1 : Nat) : Int) first entries waiting
    have unfinishedNext := waiting_continued waiting line
    have lastNext := lastOf_waiting waiting last line
    have madeNext : ∀ entry ∈ entries, entry.MadeOf (passed ++ [line]) :=
      fun entry inside => (made entry inside).concat line
    rw [collectAll, step] at collects
    rw [← List.singleton_append, ← List.append_assoc]
    generalize continued text line = next at *
    generalize (if text = "" then ((passed.length + 1 : Nat) : Int) else first) = first' at *
    have numbered : (passed ++ [line]).length + 1 = passed.length + 1 + 1 := by simp
    have collects : collectAll lines ((passed ++ [line]).length + 1) (isUnfinished next)
        (entries ++ waitingAt next first') = .ok collected := by
      rw [numbered]
      exact collects
    cases complete : isUnfinished next with
    | true => exact ih _ (unfinishedNext complete) first' collects madeNext lastNext
    | false =>
      -- A finished text stays where it is, and nothing waits behind it.
      rw [complete, ← List.append_nil (entries ++ _)] at collects
      refine ih _ waiting_nothing first' collects ?_ (absurd rfl)
      exact List.forall_mem_append.2 ⟨madeNext, madeOf_waiting lastNext⟩

end Entry

end Redex
