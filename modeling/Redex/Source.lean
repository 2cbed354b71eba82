import Redex.Failure
import Redex.Text.Blank
import Redex.Text.Lines

/-!
# Source lines

A line holds a term, a comment, both or neither. A comment starts at two semicolons and runs to the
end of the line. A line with more opening than closing parentheses is continued on the next one. An
`Entry` is a term as it is collected in this way, with the number of its first line.
-/

namespace Redex

/-- The characters in front of a comment. -/
def uncommented : List Char → List Char
  | ';' :: ';' :: _ => []
  | c :: cs => c :: uncommented cs
  | [] => []

/-- Whether a comment starts somewhere in a text. -/
def HasComment (cs : List Char) : Prop := [';', ';'] <:+: cs

/-- Whether `front` is the part of a text in front of its first two semicolons, or the whole text if
there are none. -/
def FrontOf (cs front : List Char) : Prop :=
  (cs = front ∧ ¬HasComment front) ∨
    ∃ comment, cs = front ++ ';' :: ';' :: comment ∧ ¬HasComment (front ++ [';'])

theorem hasComment_cons {c : Char} {cs : List Char} :
    HasComment (c :: cs) ↔ (c = ';' ∧ ∃ rest, cs = ';' :: rest) ∨ HasComment cs := by
  unfold HasComment
  rw [List.infix_cons_iff, List.cons_prefix_cons]
  refine or_congr_left (and_congr eq_comm ?_)
  cases cs with
  | nil => simp
  | cons d cs => simp [eq_comm]

section FrontOf

variable {c : Char} {cs front : List Char}

theorem hasComment_cons_of_part (single : ∀ rest, c = ';' → cs = ';' :: rest → False)
    (part : front <+: cs) : HasComment (c :: front) ↔ HasComment front := by
  refine hasComment_cons.trans (or_iff_right ?_)
  rintro ⟨semicolon, rest, rfl⟩
  obtain ⟨behind, split⟩ := part
  exact single (rest ++ behind) semicolon split.symm

/-- A character that starts no comment belongs to the front. -/
theorem frontOf_cons (single : ∀ rest, c = ';' → cs = ';' :: rest → False) :
    FrontOf (c :: cs) (c :: front) ↔ FrontOf cs front := by
  unfold FrontOf
  rw [List.cons_inj_right]
  refine or_congr (and_congr_right ?_) (exists_congr fun comment => ?_)
  · rintro rfl
    exact not_congr (hasComment_cons_of_part single List.prefix_rfl)
  · rw [List.cons_append, List.cons_append, List.cons_inj_right]
    refine and_congr_right fun split => not_congr (hasComment_cons_of_part single ?_)
    exact ⟨';' :: comment, by rw [split, List.append_assoc, List.singleton_append]⟩

theorem not_hasComment_singleton (c : Char) : ¬HasComment [c] := fun inside =>
  absurd inside.length_le (by simp)

/-- What is left of a text is the part in front of its first comment, and nothing else is that. -/
theorem uncommented_eq_iff : uncommented cs = front ↔ FrontOf cs front := by
  fun_induction uncommented cs generalizing front with
  | case1 rest =>
    constructor
    · rintro rfl
      exact Or.inr ⟨rest, rfl, not_hasComment_singleton ';'⟩
    · rintro (⟨rfl, absent⟩ | ⟨comment, split, absent⟩)
      · exact absurd ⟨[], rest, rfl⟩ absent
      · -- If the front had a character, then the comment would start in it.
        rcases front with _ | ⟨c, _ | ⟨d, front⟩⟩
        · rfl
        · cases split
          exact absurd ⟨[], [], rfl⟩ absent
        · cases split
          exact absurd ⟨[], front ++ [';'], rfl⟩ absent
  | case2 c cs single ih =>
    cases front with
    | nil =>
      refine iff_of_false (List.cons_ne_nil _ _) ?_
      rintro (⟨nothing, -⟩ | ⟨comment, split, -⟩)
      · cases nothing
      · cases split
        exact single comment rfl rfl
    | cons d front =>
      by_cases same : c = d
      · rw [← same, List.cons_inj_right, ih, frontOf_cons single]
      · refine iff_of_false (fun equal => same (List.cons.inj equal).1) ?_
        rintro (⟨equal, -⟩ | ⟨comment, split, -⟩)
        · exact same (List.cons.inj equal).1
        · exact same (List.cons.inj split).1
  | case3 =>
    constructor
    · rintro rfl
      exact Or.inl ⟨rfl, fun inside => absurd inside.length_le (by simp)⟩
    · rintro (⟨rfl, -⟩ | ⟨comment, split, -⟩)
      · rfl
      · exact absurd split (by simp)

theorem FrontOf.not_hasComment (part : FrontOf cs front) : ¬HasComment front := by
  rcases part with ⟨-, absent⟩ | ⟨comment, -, absent⟩
  · exact absent
  · exact fun inside => absent (inside.trans (List.prefix_append front [';']).isInfix)

theorem uncommented_eq_self_iff : uncommented cs = cs ↔ ¬HasComment cs := by
  constructor
  · intro whole
    exact (uncommented_eq_iff.1 whole).not_hasComment
  · intro absent
    exact uncommented_eq_iff.2 (Or.inl ⟨rfl, absent⟩)

end FrontOf

/-- A line without its comment and without blanks at its ends. -/
def tidyLine (line : String) : String :=
  String.ofList (Text.stripChars (uncommented line.toList))

theorem tidyLine_eq_strip (line : String) :
    ∃ front, FrontOf line.toList front ∧ tidyLine line = Text.strip (String.ofList front) := by
  refine ⟨uncommented line.toList, uncommented_eq_iff.1 rfl, ?_⟩
  rw [Text.strip, String.toList_ofList]
  rfl

/-- Whether a text opens more parentheses than it closes. -/
def isUnfinished (text : String) : Bool := text.toList.count ')' < text.toList.count '('

/-- A text that is to be read as a term, with the number of its first line. -/
structure Entry where
  text : String
  number : Int
deriving DecidableEq, Repr

namespace Entry

/-- Adds a line to the entries, as part of the last one if that is continued. Gives the text that
the line has become, and the entries. -/
def collect (line : String) (number : Int) (continued : Bool) (entries : List Entry) :
    Except Fault (String × List Entry) :=
  let line := tidyLine line
  if continued then
    match entries.getLast? with
    | none => .error .emptyList
    | some last =>
      let joined := Text.strip (last.text ++ " " ++ line)
      .ok (joined, entries.dropLast ++ [⟨joined, last.number⟩])
  else if line.isEmpty then .ok (line, entries)
  else .ok (line, entries ++ [⟨line, number⟩])

/-- Adds lines that are numbered from `number` on to the entries. -/
def collectAll : List String → (number : Nat) → (continued : Bool) → List Entry →
    Except Fault (List Entry)
  | [], _, _, entries => .ok entries
  | line :: lines, number, continued, entries => do
    let (text, entries) ← collect line number continued entries
    collectAll lines (number + 1) (isUnfinished text) entries

/-- The entries of a file. -/
def ofFile (bytes : List UInt8) : Except Fault (List Entry) := do
  let chars ← (Text.Utf8.decode bytes).mapError Fault.undecodable
  collectAll ((Text.fileLines chars).map String.ofList) 1 false []

end Entry

end Redex
