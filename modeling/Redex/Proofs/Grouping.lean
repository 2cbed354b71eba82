import Redex.Proofs.Continuation

/-!
# Lines in groups

Which lines of a file belong together can be told from their parentheses alone. A `LineGroup` starts
at a line that is not empty and goes on for as long as more parentheses have been opened than
closed; `Greedy` cuts a list of lines into such groups from the front, each of them as short as it
can be, and there is one way to do so (`Greedy.unique`).

A file collects one entry for each group (`collectAll_of_greedy`): its lines without the empty ones,
joined by spaces, with the number of the first. The parentheses are counted anew in the joined text
at every line, which comes to the sum over the lines (`excess_joined`).
-/

namespace Redex

open Text (isBlank stripChars)

/-! ## Parentheses in joined texts -/

/-- How many more parentheses a text opens than it closes. -/
def excess (text : String) : Int := text.toList.count '(' - text.toList.count ')'

/-- How many more parentheses texts open than they close. -/
def opened : List String → Int
  | [] => 0
  | text :: texts => excess text + opened texts

/-- The texts that are not empty, with a space between any two of them. -/
def joined (texts : List String) : String := " ".intercalate (texts.filter (· ≠ ""))

theorem excess_append (text text' : String) :
    excess (text ++ text') = excess text + excess text' := by
  simp only [excess, String.toList_append, List.count_append]
  omega

theorem isUnfinished_eq (text : String) : isUnfinished text = decide (0 < excess text) := by
  unfold isUnfinished excess
  congr 1
  exact propext (by omega)

theorem excess_intercalate (texts : List String) :
    excess (" ".intercalate texts) = opened texts := by
  induction texts with
  | nil => rfl
  | cons text texts ih =>
    have space : excess " " = 0 := by decide
    by_cases last : texts = []
    · simp [last, opened]
    · rw [String.intercalate_cons_of_ne_nil last, excess_append, excess_append, ih, space, opened]
      omega

theorem opened_filter (texts : List String) : opened (texts.filter (· ≠ "")) = opened texts := by
  induction texts with
  | nil => rfl
  | cons text texts ih =>
    have empty : excess "" = 0 := rfl
    by_cases nothing : text = ""
    · rw [List.filter_cons_of_neg (by simpa using nothing), ih, nothing, opened, empty]
      omega
    · rw [List.filter_cons_of_pos (by simpa using nothing), opened, opened, ih]

/-- The parentheses of a joined text are those of its parts. -/
theorem excess_joined (texts : List String) : excess (joined texts) = opened texts := by
  rw [joined, excess_intercalate, opened_filter]

theorem joined_cons_ne_empty {text : String} (filled : text ≠ "") (texts : List String) :
    joined (text :: texts) ≠ "" := by
  rw [joined, List.filter_cons_of_pos (by simpa using filled)]
  by_cases last : texts.filter (· ≠ "") = []
  · rwa [last, String.intercalate_singleton]
  · rw [String.intercalate_cons_of_ne_nil last]
    simp [filled]

theorem joined_concat_empty (texts : List String) : joined (texts ++ [""]) = joined texts := by
  simp [joined]

theorem joined_concat {texts : List String} {text : String} (before : joined texts ≠ "")
    (filled : text ≠ "") : joined (texts ++ [text]) = joined texts ++ " " ++ text := by
  have front : texts.filter (· ≠ "") ≠ [] := by
    intro absent
    exact before (by rw [joined, absent]; rfl)
  have last : [text].filter (· ≠ "") = [text] := by simp [filled]
  rw [joined, List.filter_append, last,
    String.intercalate_append_of_ne_nil front (List.cons_ne_nil _ _), String.intercalate_singleton]
  rfl

/-! ## Stripped texts behind one another -/

theorem dropWhile_of_stripped {cs : List Char} (stripped : stripChars cs = cs) :
    cs.dropWhile isBlank = cs := by
  refine (List.dropWhile_suffix isBlank).eq_of_length_le ?_
  have shorter : (stripChars cs).length ≤ (cs.dropWhile isBlank).length :=
    (List.rdropWhile_prefix isBlank _).length_le
  rwa [stripped] at shorter

theorem rdropWhile_of_stripped {cs : List Char} (stripped : stripChars cs = cs) :
    cs.rdropWhile isBlank = cs := by
  have ends : (cs.dropWhile isBlank).rdropWhile isBlank = cs := stripped
  rwa [dropWhile_of_stripped stripped] at ends

/-- Nothing is left to strip where stripped texts are put behind one another. -/
theorem stripChars_between {cs ds : List Char} (front : stripChars cs = cs) (filled : cs ≠ [])
    (back : stripChars ds = ds) (filled' : ds ≠ []) :
    stripChars (cs ++ ' ' :: ds) = cs ++ ' ' :: ds := by
  have starts : (cs ++ ' ' :: ds).dropWhile isBlank = cs ++ ' ' :: ds := by
    rw [List.dropWhile_append, dropWhile_of_stripped front, if_neg (by simpa using filled)]
  have ends := rdropWhile_of_stripped back
  change ((cs ++ ' ' :: ds).dropWhile isBlank).rdropWhile isBlank = _
  rw [starts, ← List.singleton_append, ← List.append_assoc]
  rw [List.rdropWhile, List.reverse_eq_iff] at ends ⊢
  rw [List.reverse_append, List.dropWhile_append, ends, if_neg (by simpa using filled')]

/-- A line that is put behind joined texts joins them. -/
theorem continued_joined {texts : List String} (waiting : Waiting (joined texts))
    (started : texts ≠ [] → joined texts ≠ "") (line : String) :
    continued (joined texts) line = joined (texts ++ [tidyLine line]) := by
  by_cases nothing : tidyLine line = ""
  · rw [continued_of_empty waiting nothing, nothing, joined_concat_empty]
  · by_cases first : texts = []
    · rw [first, show joined [] = "" from rfl, continued_nothing]
      simp [joined, nothing]
    · rw [joined_concat (started first) nothing, continued, Text.strip, toList_behind,
        stripChars_between waiting.stripped (by simpa using started first), ← toList_behind,
        String.ofList_toList]
      · rw [toList_tidyLine, stripChars_stripChars]
      · simpa using nothing

/-! ## Groups -/

/-- Whether texts hang together: wherever they are cut in two, a parenthesis of the first part is
still open. -/
def Connected (texts : List String) : Prop :=
  ∀ front back, texts = front ++ back → front ≠ [] → back ≠ [] → 0 < opened front

theorem connected_singleton (text : String) : Connected [text] := by
  intro front back split filled filled'
  have length := congrArg List.length split
  rw [List.length_append, List.length_singleton] at length
  have := List.length_pos_iff.2 filled
  have := List.length_pos_iff.2 filled'
  omega

theorem Connected.concat {texts : List String} (connected : Connected texts)
    (opens : 0 < opened texts) (text : String) : Connected (texts ++ [text]) := by
  intro front back split filled filled'
  obtain ⟨back, last, rfl⟩ := List.eq_nil_or_concat back |>.resolve_left filled'
  rw [List.concat_eq_append, ← List.append_assoc] at split
  obtain ⟨rfl, -⟩ := List.append_inj' split rfl
  by_cases nothing : back = []
  · rwa [nothing, List.append_nil] at opens
  · exact connected front back rfl filled nothing

/-- Texts that make one entry, with the line number of the first, which is not empty. -/
structure LineGroup where
  number : Nat
  first : String
  more : List String
  starts : first ≠ ""
  connected : Connected (first :: more)

namespace LineGroup

/-- The texts of a group, empty ones included. -/
def texts (group : LineGroup) : List String := group.first :: group.more

/-- The entry that a group makes. -/
def entry (group : LineGroup) : Entry := ⟨joined group.texts, group.number⟩

/-- Whether a group ends where these texts stand behind it: it is closed, or there are none. -/
def EndsAt (group : LineGroup) (behind : List String) : Prop := opened group.texts ≤ 0 ∨ behind = []

theorem eq_of_texts {group group' : LineGroup} (number : group.number = group'.number)
    (texts : group.texts = group'.texts) : group = group' := by
  cases group
  cases group'
  cases number
  cases texts
  rfl

/-- A group that has ended is not a part of a longer one. -/
theorem texts_of_endsAt {group group' : LineGroup} {middle behind : List String}
    (ends : group.EndsAt (middle ++ behind)) (longer : group'.texts = group.texts ++ middle) :
    middle = [] := by
  by_contra filled
  have opens := group'.connected group.texts middle longer (List.cons_ne_nil _ _) filled
  rcases ends with closed | nothing
  · omega
  · exact filled (List.append_eq_nil_iff.1 nothing).1

/-- There is one group at the front of texts. -/
theorem eq_of_endsAt {group group' : LineGroup} {behind behind' : List String}
    (number : group.number = group'.number) (ends : group.EndsAt behind)
    (ends' : group'.EndsAt behind') (same : group.texts ++ behind = group'.texts ++ behind') :
    group = group' ∧ behind = behind' := by
  rcases List.append_eq_append_iff.1 same with ⟨middle, longer, rfl⟩ | ⟨middle, longer, rfl⟩
  · obtain rfl := texts_of_endsAt ends longer
    rw [List.append_nil] at longer
    exact ⟨eq_of_texts number longer.symm, rfl⟩
  · obtain rfl := texts_of_endsAt ends' longer
    rw [List.append_nil] at longer
    exact ⟨eq_of_texts number longer, rfl⟩

/-- There is a group at the front of texts that do not start with an empty one. -/
theorem exists_endsAt (number : Nat) {first : String} (starts : first ≠ "") (behind : List String) :
    ∃ (group : LineGroup) (behind' : List String), group.number = number ∧
      first :: behind = group.texts ++ behind' ∧ group.EndsAt behind' := by
  -- The group is extended text by text; `more` is what it has beside the first.
  suffices extend : ∀ more, Connected (first :: more) →
      ∃ (group : LineGroup) (behind' : List String), group.number = number ∧
        first :: more ++ behind = group.texts ++ behind' ∧ group.EndsAt behind' from
    extend [] (connected_singleton first)
  induction behind with
  | nil =>
    intro more connected
    exact ⟨⟨number, first, more, starts, connected⟩, [], rfl, rfl, Or.inr rfl⟩
  | cons next behind ih =>
    intro more connected
    by_cases closed : opened (first :: more) ≤ 0
    · exact ⟨⟨number, first, more, starts, connected⟩, next :: behind, rfl, rfl, Or.inl closed⟩
    · have longer := connected.concat (by omega) next
      obtain ⟨group, behind', named, split, ends⟩ := ih (more ++ [next]) longer
      refine ⟨group, behind', named, ?_, ends⟩
      rw [← split]
      simp

end LineGroup

/-- The groups of texts that are numbered from `number` on. Empty texts between groups are passed
over, and a group ends as soon as nothing is open in it, or else with the last text. -/
inductive Greedy : (number : Nat) → List String → List LineGroup → Prop
  | nothing {number : Nat} : Greedy number [] []
  | blank {number : Nat} {behind : List String} {groups : List LineGroup}
      (rest : Greedy (number + 1) behind groups) : Greedy number ("" :: behind) groups
  | group (group : LineGroup) {behind : List String} {groups : List LineGroup}
      (ends : group.EndsAt behind)
      (rest : Greedy (group.number + group.texts.length) behind groups) :
      Greedy group.number (group.texts ++ behind) (group :: groups)

theorem exists_greedy (number : Nat) : (texts : List String) → ∃ groups, Greedy number texts groups
  | [] => ⟨[], .nothing⟩
  | first :: behind => by
    by_cases blank : first = ""
    · obtain ⟨groups, greedy⟩ := exists_greedy (number + 1) behind
      rw [blank]
      exact ⟨groups, .blank greedy⟩
    · obtain ⟨group, behind', rfl, split, ends⟩ := LineGroup.exists_endsAt number blank behind
      have shorter : behind'.length < (first :: behind).length := by
        rw [split, List.length_append, LineGroup.texts, List.length_cons]
        omega
      obtain ⟨groups, greedy⟩ := exists_greedy (group.number + group.texts.length) behind'
      rw [split]
      exact ⟨group :: groups, .group group ends greedy⟩
termination_by texts => texts.length
decreasing_by
  · exact Nat.lt_succ_self behind.length
  · exact shorter

namespace Greedy

variable {number : Nat} {texts : List String} {groups : List LineGroup}

/-- There is one way to cut texts into groups. -/
theorem unique (greedy : Greedy number texts groups) {groups' : List LineGroup}
    (greedy' : Greedy number texts groups') : groups = groups' := by
  induction greedy generalizing groups' with
  | nothing =>
    generalize same : [] = texts at greedy'
    cases greedy' with
    | nothing => rfl
    | blank => cases same
    | group => cases same
  | @blank number behind groups rest ih =>
    generalize same : "" :: behind = texts at greedy'
    cases greedy' with
    | nothing => cases same
    | blank rest' =>
      obtain ⟨-, rfl⟩ := List.cons.inj same
      exact ih rest'
    | group group => exact absurd (List.cons.inj same).1.symm group.starts
  | @group group behind groups ends rest ih =>
    generalize same : group.texts ++ behind = texts, named : group.number = number at greedy'
    cases greedy' with
    | nothing => cases same
    | blank rest' => exact absurd (List.cons.inj same).1 group.starts
    | group group' ends' rest' =>
      obtain ⟨rfl, rfl⟩ := LineGroup.eq_of_endsAt named ends ends' same
      rw [ih rest']

theorem le_number (greedy : Greedy number texts groups) :
    ∀ group ∈ groups, number ≤ group.number := by
  induction greedy with
  | nothing => nofun
  | blank rest ih =>
    intro group inside
    exact Nat.le_of_succ_le (ih group inside)
  | group group ends rest ih =>
    refine List.forall_mem_cons.2 ⟨Nat.le_refl _, ?_⟩
    intro other inside
    exact Nat.le_trans (Nat.le_add_right _ _) (ih other inside)

theorem ascending (greedy : Greedy number texts groups) :
    groups.Pairwise (·.number < ·.number) := by
  induction greedy with
  | nothing => exact .nil
  | blank rest ih => exact ih
  | group group ends rest ih =>
    refine .cons ?_ ih
    intro other inside
    have later := rest.le_number other inside
    rw [LineGroup.texts, List.length_cons] at later
    omega

/-- Every text that is not empty is in one group, and they keep their order. -/
theorem flatMap_texts (greedy : Greedy number texts groups) :
    groups.flatMap (fun group => group.texts.filter (· ≠ "")) = texts.filter (· ≠ "") := by
  induction greedy with
  | nothing => rfl
  | blank rest ih => exact ih
  | group group ends rest ih => rw [List.flatMap_cons, ih, List.filter_append]

/-- All groups but the last are closed. -/
theorem closed (greedy : Greedy number texts groups) :
    ∀ group ∈ groups.dropLast, opened group.texts ≤ 0 := by
  induction greedy with
  | nothing => nofun
  | blank rest ih => exact ih
  | @group group behind groups ends rest ih =>
    cases groups with
    | nil => nofun
    | cons next groups =>
      refine List.forall_mem_cons.2 ⟨?_, ih⟩
      rcases ends with closed | rfl
      · exact closed
      · cases rest.unique .nothing

end Greedy

namespace Entry

/-- From within a group, its remaining lines are collected into its entry. -/
theorem collectAll_group (group : LineGroup) (texts : List String) {more : List String}
    (rest : List String) (entries : List Entry) (split : group.texts = texts ++ more.map tidyLine)
    (waiting : more ≠ [] → Waiting (joined texts)) :
    collectAll (more ++ rest) (group.number + texts.length) (isUnfinished (joined texts))
        (entries ++ waitingAt (joined texts) group.number) =
      collectAll rest (group.number + group.texts.length) (decide (0 < opened group.texts))
        (entries ++ [group.entry]) := by
  have started : ∀ front back, group.texts = front ++ back → front ≠ [] → joined front ≠ "" := by
    intro front back split filled
    obtain ⟨first, front, rfl⟩ := List.exists_cons_of_ne_nil filled
    rw [← (List.cons.inj split).1]
    exact joined_cons_ne_empty group.starts front
  induction more generalizing texts with
  | nil =>
    rw [List.map_nil, List.append_nil] at split
    have filled : joined group.texts ≠ "" := joined_cons_ne_empty group.starts group.more
    rw [← split, isUnfinished_eq, excess_joined, waitingAt, nonempty, if_neg filled]
    rfl
  | cons line more ih =>
    have started' := started texts _ split
    have waiting := waiting (List.cons_ne_nil line more)
    have step := collect_waiting line ((group.number + texts.length : Nat) : Int) group.number
      entries waiting
    have named : (if joined texts = "" then ((group.number + texts.length : Nat) : Int)
        else group.number) = group.number := by
      by_cases first : texts = []
      · simp [first]
      · rw [if_neg (started' first)]
    have split' : group.texts = texts ++ [tidyLine line] ++ more.map tidyLine := by
      rw [split, List.map_cons, List.append_assoc, List.singleton_append]
    have waiting' : more ≠ [] → Waiting (joined (texts ++ [tidyLine line])) := by
      intro filled
      have opens := group.connected _ _ split' (by simp) (by simpa using filled)
      have unfinished : isUnfinished (joined (texts ++ [tidyLine line])) = true := by
        rw [isUnfinished_eq, excess_joined]
        exact decide_eq_true opens
      rw [← continued_joined waiting started' line] at unfinished ⊢
      exact waiting_continued waiting line unfinished
    rw [named, continued_joined waiting started' line] at step
    rw [← ih _ split' waiting', List.cons_append, collectAll, step, List.length_append]
    rfl

/-- A file collects the entries of its groups. -/
theorem collectAll_of_greedy {number : Nat} {lines : List String} {groups : List LineGroup}
    (greedy : Greedy number (lines.map tidyLine) groups) (entries : List Entry) :
    collectAll lines number false entries = .ok (entries ++ groups.map LineGroup.entry) := by
  generalize same : lines.map tidyLine = texts at greedy
  induction greedy generalizing lines entries with
  | nothing =>
    rw [List.map_eq_nil_iff.1 same]
    exact congrArg Except.ok (List.append_nil entries).symm
  | @blank number behind groups rest ih =>
    obtain ⟨line, lines, rfl, nothing, same⟩ := List.map_eq_cons_iff.1 same
    have step : collect line number false entries = .ok ("", entries) := by
      simp [collect, nothing]
    rw [collectAll, step]
    exact ih entries same
  | @group group _ groups ends rest ih =>
    obtain ⟨lines, behind, rfl, texts, rfl⟩ := List.map_eq_append_iff.1 same
    have begun : entries ++ waitingAt (joined []) group.number = entries := List.append_nil entries
    have run := collectAll_group group [] behind entries texts.symm (fun _ => waiting_nothing)
    have along : entries ++ (group :: groups).map LineGroup.entry =
        entries ++ [group.entry] ++ groups.map LineGroup.entry := by simp
    rw [begun] at run
    refine run.trans ?_
    rw [along]
    rcases ends with closed | nothing
    · rw [decide_eq_false (by omega)]
      exact ih _ rfl
    · cases List.map_eq_nil_iff.1 nothing
      rw [rest.unique .nothing, List.map_nil, List.append_nil]
      rfl

/-- Whatever the lines of a file are, they are collected without a fault, and there is one entry for
each of their groups. The lines count without their blank ends and without what stands behind their
first two semicolons. -/
theorem collectAll_groups (lines : List String) :
    (∀ line, ∃ front, FrontOf line.toList front ∧
        tidyLine line = Text.strip (String.ofList front)) ∧
      ∃ groups, Greedy 1 (lines.map tidyLine) groups ∧
        (∀ others, Greedy 1 (lines.map tidyLine) others → others = groups) ∧
        collectAll lines 1 false [] = .ok (groups.map LineGroup.entry) ∧
        (groups.map LineGroup.entry).Pairwise (·.number < ·.number) ∧
        groups.flatMap (fun group => group.texts.filter (· ≠ "")) =
          (lines.map tidyLine).filter (· ≠ "") ∧
        ∀ entry ∈ (groups.map LineGroup.entry).dropLast, isUnfinished entry.text = false := by
  obtain ⟨groups, greedy⟩ := exists_greedy 1 (lines.map tidyLine)
  refine ⟨tidyLine_eq_strip, groups, greedy, ?_, collectAll_of_greedy greedy [], ?_,
    greedy.flatMap_texts, ?_⟩
  · intro others greedy'
    exact greedy'.unique greedy
  · refine List.pairwise_map.2 (greedy.ascending.imp ?_)
    intro group other earlier
    exact Int.ofNat_lt.2 earlier
  · intro entry inside
    rw [← List.map_dropLast] at inside
    obtain ⟨group, among, rfl⟩ := List.mem_map.1 inside
    have closed := greedy.closed group among
    rw [LineGroup.entry, isUnfinished_eq, excess_joined]
    exact decide_eq_false (by omega)

example : collectAll ["", "(a  ;; b", ";;", "b) ", "c", "(("] 1 false [] =
    .ok [⟨"(a b)", 2⟩, ⟨"c", 5⟩, ⟨"((", 6⟩] := rfl

end Entry

end Redex
