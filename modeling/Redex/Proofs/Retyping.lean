import Redex.Proofs.Budget
import Redex.Proofs.NormalForms
import Redex.Proofs.RoundTrip
import Redex.Proofs.Script

/-!
# Results that are typed back

What a shell prints for a term can be typed into it again. The printed line starts with a
parenthesis or with a letter that stands alone, so it is no command (`plain_of_begins`); the note on
the number that a result stands for is a comment, so it is cut off and the term is what is left
(`tidyLine_annotated`); that leaves no parenthesis open and is read as the result. A result holds no
redex, so it is evaluated without a step, and the line that is printed is the same.
-/

namespace Redex

open Text (isBlank stripChars)
open Grammar (IsSymbol IsIdentifier)

/-! ## The edges of a printed line -/

theorem isBlank_of_isSymbol {c : Char} (symbol : IsSymbol c) : isBlank c = false := by
  rcases symbol with ⟨low, high⟩ | rfl | rfl | rfl | rfl | rfl
  · have low : 97 ≤ c.toNat := low
    have high : c.toNat ≤ 122 := high
    simp [isBlank, Text.blankRanges]
    omega
  all_goals decide

theorem stripChars_eq_self {cs front back : List Char} {c d : Char} (first : isBlank c = false)
    (starts : cs = c :: back) (last : isBlank d = false) (ends : cs = front ++ [d]) :
    stripChars cs = cs := by
  have still : cs.dropWhile isBlank = cs := by
    rw [starts]
    exact List.dropWhile_cons_of_neg (by simp [first])
  change (cs.dropWhile isBlank).rdropWhile isBlank = cs
  rw [still, ends]
  exact List.rdropWhile_concat_neg isBlank front d (by simp [last])

theorem uncommented_eq_self {cs : List Char} (absent : ∀ c ∈ cs, c ≠ ';') :
    uncommented cs = cs :=
  uncommented_eq_self_iff.2 fun inside => absent ';' (inside.subset List.mem_cons_self) rfl

/-- Whether a text starts with a parenthesis, or with a letter that stands alone. -/
def Begins (cs : List Char) : Prop :=
  (∃ rest, cs = '(' :: rest) ∨
    ∃ c rest, IsIdentifier c ∧ cs = c :: rest ∧ ∀ d ∈ rest.head?, d = ' '

theorem Begins.append {cs ds : List Char} (begins : Begins cs) (apart : ∀ d ∈ ds.head?, d = ' ') :
    Begins (cs ++ ds) := by
  rcases begins with ⟨rest, rfl⟩ | ⟨c, rest, letter, rfl, alone⟩
  · exact Or.inl ⟨rest ++ ds, rfl⟩
  · refine Or.inr ⟨c, rest ++ ds, letter, rfl, ?_⟩
    cases rest with
    | nil => exact apart
    | cons d rest => exact alone

theorem Begins.exists_symbol {cs : List Char} (begins : Begins cs) :
    ∃ c rest, cs = c :: rest ∧ IsSymbol c := by
  rcases begins with ⟨rest, rfl⟩ | ⟨c, rest, letter, rfl, -⟩
  · exact ⟨'(', rest, rfl, by decide⟩
  · exact ⟨c, rest, rfl, Or.inl letter⟩

theorem Begins.length_word {cs : List Char} (begins : Begins cs) :
    (cs.takeWhile Shell.isWordChar).length ≤ 1 := by
  rcases begins with ⟨rest, rfl⟩ | ⟨c, rest, letter, rfl, alone⟩
  · exact Nat.zero_le 1
  · cases rest with
    | nil => exact (List.takeWhile_sublist _).length_le
    | cons d rest =>
      obtain rfl : d = ' ' := alone d rfl
      have stops : (' ' :: rest).takeWhile Shell.isWordChar = [] := rfl
      rw [List.takeWhile_cons, stops]
      split <;> simp

/-- A line that starts in this way is no command. -/
theorem plain_of_begins {line : String} (tidy : stripChars line.toList = line.toList)
    (begins : Begins line.toList) : Shell.Plain line := by
  unfold Shell.Plain
  rw [tidy]
  refine ⟨?_, ?_⟩
  · obtain ⟨c, rest, starts, symbol⟩ := begins.exists_symbol
    rw [starts]
    rintro ⟨⟩
    exact absurd symbol (by decide)
  · intro command
    have long : ∀ word ∈ Shell.commandWords, 1 < word.length := by decide
    have short := begins.length_word
    have word := long _ command
    rw [String.length_ofList] at word
    omega

namespace Term

/-! ## The text form of a term -/

/-- As a part of a larger term, a term is a letter or stands in parentheses. -/
theorem toList_wrap {t : Term} (lettered : t.Lettered) :
    (∃ c, IsIdentifier c ∧ (render.wrap t t.render).toList = [c]) ∨
      ∃ inner, (render.wrap t t.render).toList = '(' :: (inner ++ [')']) := by
  cases t with
  | var x =>
    obtain ⟨c, letter, rfl, -⟩ := (lettered_var.1 lettered).exists_identifier
    exact Or.inl ⟨c, letter, String.toList_singleton c⟩
  | abs p body =>
    refine Or.inr ⟨'λ' :: p.toList ++ ". ".toList ++ (render.wrap body body.render).toList, ?_⟩
    simp [render.wrap, render]
  | app function argument =>
    refine Or.inr ⟨(app function argument).render.toList, ?_⟩
    simp [render.wrap]

theorem begins_wrap {t : Term} (lettered : t.Lettered) :
    Begins (render.wrap t t.render).toList := by
  rcases toList_wrap lettered with ⟨c, letter, single⟩ | ⟨inner, parens⟩
  · exact Or.inr ⟨c, [], letter, single, nofun⟩
  · exact Or.inl ⟨_, parens⟩

theorem ends_wrap {t : Term} (lettered : t.Lettered) :
    ∃ front d, (render.wrap t t.render).toList = front ++ [d] ∧ IsSymbol d := by
  rcases toList_wrap lettered with ⟨c, letter, single⟩ | ⟨inner, parens⟩
  · exact ⟨[], c, single, Or.inl letter⟩
  · exact ⟨'(' :: inner, ')', parens, by decide⟩

theorem begins_render {t : Term} (lettered : t.Lettered) : Begins t.render.toList := by
  cases t with
  | var x => exact begins_wrap (t := .var x) lettered
  | abs p body => exact begins_wrap (t := .abs p body) lettered
  | app function argument =>
    rw [toList_render_app]
    refine (begins_wrap (lettered_app.1 lettered).1).append ?_
    rintro d ⟨⟩
    rfl

theorem ends_render {t : Term} (lettered : t.Lettered) :
    ∃ front d, t.render.toList = front ++ [d] ∧ IsSymbol d := by
  cases t with
  | var x => exact ends_wrap (t := .var x) lettered
  | abs p body => exact ends_wrap (t := .abs p body) lettered
  | app function argument =>
    obtain ⟨front, d, ends, symbol⟩ := ends_wrap (lettered_app.1 lettered).2
    refine ⟨(render.wrap function function.render).toList ++ ' ' :: front, d, ?_, symbol⟩
    rw [toList_render_app, ends, List.append_assoc, List.cons_append]

theorem stripChars_render {t : Term} (lettered : t.Lettered) :
    stripChars t.render.toList = t.render.toList := by
  obtain ⟨c, rest, starts, first⟩ := (begins_render lettered).exists_symbol
  obtain ⟨front, d, ends, last⟩ := ends_render lettered
  exact stripChars_eq_self (isBlank_of_isSymbol first) starts (isBlank_of_isSymbol last) ends

theorem uncommented_render {t : Term} (lettered : t.Lettered) :
    uncommented t.render.toList = t.render.toList := by
  apply uncommented_eq_self
  rintro c inside rfl
  rcases (spells_render lettered).1 ';' inside with space | symbol
  · exact absurd space (by decide)
  · exact absurd symbol (by decide)

theorem length_render_le_wrap (t : Term) : t.render.length ≤ (render.wrap t t.render).length := by
  cases t with
  | var x => exact Nat.le_refl _
  | abs p body => exact Nat.le_refl _
  | app function argument =>
    simp only [render.wrap, String.length_append]
    omega

/-- Every level of a term takes a character of its text form. -/
theorem height_le_length_render {t : Term} (lettered : t.Lettered) :
    t.height ≤ t.render.length := by
  induction t with
  | var x =>
    obtain ⟨c, -, rfl, -⟩ := (lettered_var.1 lettered).exists_identifier
    simp [height, render]
  | abs p body ih =>
    have inner := ih (lettered_abs.1 lettered).2
    have outer := body.length_render_le_wrap
    have parens : ")".length = 1 := rfl
    simp only [height, render, String.length_append]
    omega
  | app function argument ihf iha =>
    have left := ihf (lettered_app.1 lettered).1
    have right := iha (lettered_app.1 lettered).2
    have outerLeft := function.length_render_le_wrap
    have outerRight := argument.length_render_le_wrap
    have space : " ".length = 1 := rfl
    simp only [height, render, String.length_append]
    omega

/-! ## The printed line -/

/-- What is printed of a result: its text form and, behind it, perhaps a comment with a number. -/
theorem annotated_cases (t : Term) :
    t.annotated = t.render ∨
      ∃ n, t.annotated.toList =
        t.render.toList ++ ' ' :: ' ' :: ';' :: ';' :: ' ' :: Nat.toDigits 10 n := by
  unfold annotated
  cases t.number? with
  | none => exact Or.inl rfl
  | some n =>
    refine Or.inr ⟨n, ?_⟩
    simp [Nat.toString_eq_repr, Nat.toList_repr]

theorem begins_annotated {t : Term} (lettered : t.Lettered) : Begins t.annotated.toList := by
  rcases t.annotated_cases with alone | ⟨n, noted⟩
  · rw [alone]
    exact begins_render lettered
  · rw [noted]
    refine (begins_render lettered).append ?_
    rintro d ⟨⟩
    rfl

theorem isBlank_of_isDigit {c : Char} (digit : c.isDigit = true) : isBlank c = false := by
  simp only [Char.isDigit, ge_iff_le, Bool.and_eq_true, decide_eq_true_eq] at digit
  have low : 48 ≤ c.toNat := digit.1
  have high : c.toNat ≤ 57 := digit.2
  simp [isBlank, Text.blankRanges]
  omega

theorem stripChars_annotated {t : Term} (lettered : t.Lettered) :
    stripChars t.annotated.toList = t.annotated.toList := by
  rcases t.annotated_cases with alone | ⟨n, noted⟩
  · rw [alone]
    exact stripChars_render lettered
  · obtain ⟨c, rest, starts, first⟩ := (begins_annotated lettered).exists_symbol
    have filled : Nat.toDigits 10 n ≠ [] := Nat.toDigits_ne_nil
    have digit : ((Nat.toDigits 10 n).getLast filled).isDigit = true :=
      Nat.isDigit_of_mem_toDigits (by decide) (by decide) (List.getLast_mem filled)
    have ends : t.annotated.toList = t.render.toList ++ "  ;; ".toList ++
        (Nat.toDigits 10 n).dropLast ++ [(Nat.toDigits 10 n).getLast filled] := by
      rw [List.append_assoc, List.dropLast_concat_getLast, List.append_assoc]
      exact noted
    exact stripChars_eq_self (isBlank_of_isSymbol first) starts (isBlank_of_isDigit digit) ends

/-- The comment is cut off, and the text form of the result is left. -/
theorem tidyLine_annotated {t : Term} (lettered : t.Lettered) :
    tidyLine t.annotated = t.render := by
  unfold tidyLine
  rcases t.annotated_cases with alone | ⟨n, noted⟩
  · rw [alone, uncommented_render lettered, stripChars_render lettered, String.ofList_toList]
  · have comment :
        uncommented (' ' :: ' ' :: ';' :: ';' :: ' ' :: Nat.toDigits 10 n) = [' ', ' '] := rfl
    have spaces : [' ', ' '].rdropWhile isBlank = [] := by decide
    rw [noted, uncommented_append (by simp), if_pos (uncommented_render lettered), comment,
      ← stripChars_append_rdropWhile, spaces, List.append_nil, stripChars_render lettered,
      String.ofList_toList]

end Term

/-! ## Typing a result back -/

namespace Shell

theorem strip_annotated {t : Term} (lettered : t.Lettered) :
    Text.strip t.annotated = t.annotated := by
  rw [Text.strip, Term.stripChars_annotated lettered, String.ofList_toList]

theorem ofLine_annotated {t : Term} (lettered : t.Lettered) :
    Command.ofLine t.annotated = .term t.annotated := by
  have tidy := Term.stripChars_annotated lettered
  have begins := Term.begins_annotated lettered
  have filled : stripChars t.annotated.toList ≠ [] := by
    obtain ⟨c, rest, starts, -⟩ := begins.exists_symbol
    rw [tidy, starts]
    exact List.cons_ne_nil c rest
  rw [ofLine_of_plain (plain_of_begins tidy begins) filled, strip_annotated lettered]

theorem joined_annotated {t : Term} (lettered : t.Lettered) : joined "" t.annotated = t.render := by
  have seam := tidyLine_seam waiting_nothing t.annotated
  rw [strip_annotated lettered, continued_nothing, Term.tidyLine_annotated lettered] at seam
  exact seam

theorem handed?_eq_some {shell : Shell} {line : String} {entry : Entry}
    (hands : shell.handed? line = some entry) :
    ∃ text, Command.ofLine line = .term text ∧ joined shell.pending text = entry.text ∧
      isUnfinished entry.text = false ∧ entry.text ≠ "" := by
  unfold handed? at hands
  split at hands
  · next text takes =>
    simp only at hands
    split at hands
    · cases hands
    · next finished =>
      rw [not_or, Bool.not_eq_true] at finished
      rw [← Option.some.inj hands]
      exact ⟨text, takes, rfl, finished.1, finished.2⟩
  · cases hands

/-- A shell that has taken lines is at rest, with the settings that it was opened with but for the
trace. -/
theorem exists_atRest {style : Text.Style} {counted : Bool} {settings : Eval.Settings}
    {number : Nat} {printed : String} {lines : List String} {later : Shell}
    (fed : (atRest style counted settings "" number printed).feedAll lines = later) :
    ∃ settings' pending' number' printed', settings'.depth = settings.depth ∧
      later = atRest style counted settings' pending' number' printed' := by
  obtain ⟨traced, pending', printed', -, rests⟩ :=
    feedAll_atRest style counted settings lines (Or.inl rfl) number printed
  rw [fed] at rests
  exact ⟨{ settings with traced := traced }, pending', _, printed', rfl, rests⟩

end Shell

/-! ## Results -/

theorem Session.evaluate_untraced {session : Session} {t : Term} {evaluation : Evaluation}
    (done : session.evaluate t = .ok evaluation) (untraced : session.settings.traced = false) :
    evaluation.result.hasRedex = false ∧ evaluation.steps = #[] := by
  obtain ⟨run, evaluated, steps⟩ := evaluate_of_session done
  obtain ⟨-, -, -, normal, -⟩ := Eval.evaluate_ok evaluated
  exact ⟨normal, steps.trans (Eval.steps_of_untraced_ok evaluated untraced)⟩

/-- A term without a redex is its own result, whether the step limit is a number or not. -/
theorem Session.evaluate_of_normal {session : Session} {t : Term} (normal : t.hasRedex = false)
    (untraced : session.settings.traced = false)
    (fits : t.renderDepth ≤ session.settings.depth) : session.evaluate t = .ok ⟨t, #[]⟩ := by
  unfold Session.evaluate interpret interpretUncounted
  rw [Eval.evaluate_of_normal session.settings normal fits,
    Eval.evaluate_of_normal { session.settings with maxSteps := 0 } normal fits, untraced]
  split <;> rfl

theorem Term.renderDepth_le {t : Term} (lettered : t.Lettered) {depth : Nat}
    (deep : 3 * t.render.length ≤ depth) : t.renderDepth ≤ depth := by
  have short := height_le_length_render lettered
  rw [renderDepth]
  omega

namespace Shell

section Answers

variable {style : Text.Style} {counted : Bool} {settings : Eval.Settings} {pending : String}
  {number : Nat} {printed line : String}

/-- A line that completes a term prints the result, if nothing is traced. -/
theorem runLine_of_handed {entry : Entry} {t : Term} {evaluation : Evaluation}
    (untraced : settings.traced = false)
    (hands : (atRest style counted settings pending number printed).handed? line = some entry)
    (read : parse settings.depth entry.text = .ok t)
    (done : (atRest style counted settings pending number printed).session.evaluate t =
      .ok evaluation)
    (fits : evaluation.result.renderDepth ≤ settings.depth) :
    Prints (runLine line) (atRest style counted settings pending number)
      (evaluation.result.annotated ++ "\n") (.ok false)
      (atRest style counted settings "" (number + 1)) := by
  obtain ⟨text, takes, joins, finished, more⟩ := handed?_eq_some hands
  obtain ⟨-, noSteps⟩ := Session.evaluate_untraced done untraced
  have nothing : traceText style evaluation.steps = "" := by
    rw [noSteps]
    rfl
  have evaluated : Prints (Session.protect (evaluateLine entry.text ((number + 1 : Nat) : Int)))
      (Session.atRest style counted settings)
      (traceText style evaluation.steps ++ (evaluation.result.annotated ++ "\n")) (.ok ())
      (Session.atRest style counted settings) :=
    Session.protect_of_ok (evaluateLine_of_ok _ (readTerm_of_parse read) done
      (Term.annotatedWithin_of_le fits))
  rw [nothing, String.empty_append] at evaluated
  rw [runLine, takes]
  exact (takeTerm_of_finished joins finished more evaluated).returns false

theorem replies_of_prints {pending' output : String} {number' : Nat} {answer : Except Failure Bool}
    (prints : Prints (runLine line) (atRest style counted settings pending number) output answer
      (atRest style counted settings pending' number')) (printed : String) :
    (atRest style counted settings pending number printed).Replies line output answer :=
  ⟨_, prints printed, rfl⟩

end Answers

theorem render_ne_empty {r : Term} (lettered : r.Lettered) : r.render ≠ "" := by
  intro empty
  obtain ⟨c, rest, starts, -⟩ := (Term.begins_render lettered).exists_symbol
  simp [empty] at starts

theorem handed?_annotated {r : Term} (lettered : r.Lettered) {shell : Shell}
    (nothing : shell.pending = "") :
    shell.handed? r.annotated = some ⟨r.render, ((shell.lineNumber + 1 : Nat) : Int)⟩ := by
  have finished : isUnfinished r.render = false :=
    isUnfinished_of_spells (Term.spells_render lettered)
  simp [handed?, ofLine_annotated lettered, nothing, joined_annotated lettered, finished,
    render_ne_empty lettered]

end Shell

/-- What a shell prints for a term can be typed back. If a line completes a term whose result has
letters for names, and nothing is traced, then the shell prints the result and its number. At any
later time at which no text is pending and nothing is traced, the printed line is no command, is
handed on as the text form of the result, is read as the result and evaluated without a step, and
the same line is printed again. Reading and writing ask for three nested calls for every character
of the text form. -/
theorem printed_result_stable {style : Text.Style} {counted : Bool} {settings : Eval.Settings}
    {history : List String} {shell : Shell} {line : String} {entry : Entry} {t : Term}
    {evaluation : Evaluation}
    (fed : (Shell.opened style counted settings).feedAll history = shell)
    (untraced : shell.session.settings.traced = false)
    (hands : shell.handed? line = some entry) (read : parse settings.depth entry.text = .ok t)
    (done : shell.session.evaluate t = .ok evaluation) (lettered : evaluation.result.Lettered)
    (deep : 3 * evaluation.result.render.length ≤ settings.depth) :
    let r := evaluation.result
    shell.Replies line (r.annotated ++ "\n") (.ok false) ∧
      ∀ more, let later := (shell.feed line).feedAll more
        later.pending = "" → later.session.settings.traced = false →
          Shell.Command.ofLine r.annotated = .term r.annotated ∧
          tidyLine r.annotated = r.render ∧
          later.handed? r.annotated = some ⟨r.render, ((later.lineNumber + 1 : Nat) : Int)⟩ ∧
          parse settings.depth r.render = .ok r ∧
          Eval.evaluate later.session.settings r = .ok r {} ∧
          later.session.evaluate r = .ok ⟨r, #[]⟩ ∧
          later.Replies r.annotated (r.annotated ++ "\n") (.ok false) ∧
          (later.feed r.annotated).pending = "" := by
  intro r
  rw [Shell.opened_eq_atRest] at fed
  obtain ⟨settings', pending, number, printed, sameDepth, rfl⟩ := Shell.exists_atRest fed
  rw [← sameDepth] at read deep ⊢
  obtain ⟨normal, -⟩ := Session.evaluate_untraced done untraced
  have fits : r.renderDepth ≤ settings'.depth := Term.renderDepth_le lettered deep
  have untraced : settings'.traced = false := untraced
  have prints := Shell.runLine_of_handed untraced hands read done fits
  refine ⟨Shell.replies_of_prints prints printed, ?_⟩
  rw [Shell.feed_of_prints prints printed]
  intro more later nothing untracedLater
  obtain ⟨settings'', pending'', number'', printed'', sameDepth', rests⟩ :=
    Shell.exists_atRest (Eq.refl later)
  clear_value later
  subst rests
  have handsLater := Shell.handed?_annotated lettered nothing
  obtain rfl : pending'' = "" := nothing
  have untracedLater : settings''.traced = false := untracedLater
  rw [← sameDepth'] at deep fits ⊢
  have readLater : parse settings''.depth r.render = .ok r :=
    parse_of_spells (Term.spells_render lettered) deep
  have doneLater : (Shell.atRest style counted settings'' "" number'' printed'').session.evaluate r
      = .ok ⟨r, #[]⟩ :=
    Session.evaluate_of_normal normal untracedLater fits
  have again := Shell.runLine_of_handed untracedLater handsLater readLater doneLater fits
  refine ⟨Shell.ofLine_annotated lettered, Term.tidyLine_annotated lettered, handsLater, readLater,
    ?_, doneLater, Shell.replies_of_prints again printed'', ?_⟩
  · have evaluated := Eval.evaluate_of_normal settings'' normal fits
    rwa [untracedLater] at evaluated
  · rw [Shell.feed_of_prints again printed'']
    rfl

/-- The successor of one is printed as two, and the printed line prints itself. -/
theorem printed_result_stable_numeral :
    let shell := Shell.opened .plain true { maxSteps := 9 }
    let line := "(\\n.\\f.\\x.f (n f x)) (\\f.\\x.f x)"
    let printed := "(λf. (λx. (f (f x))))  ;; 2"
    shell.Replies line (printed ++ "\n") (.ok false) ∧
      (shell.feed line).Replies printed (printed ++ "\n") (.ok false) := by
  intro shell line printed
  let one : Term := .abs "f" (.abs "x" (.app (.var "f") (.var "x")))
  let successor : Term := .abs "n" (.abs "f" (.abs "x"
    (.app (.var "f") (.app (.app (.var "n") (.var "f")) (.var "x")))))
  let two : Term := .abs "f" (.abs "x" (.app (.var "f") (.app (.var "f") (.var "x"))))
  have fed : (Shell.opened .plain true { maxSteps := 9 }).feedAll [] = shell := rfl
  have hands : shell.handed? line = some ⟨line, 1⟩ := by decide +kernel
  have read : parse 1000 line = .ok (.app successor one) := by decide +kernel
  have evaluated : Eval.evaluate { maxSteps := 9 } (.app successor one) =
      .ok two ⟨⟨[]⟩, 3, #[]⟩ := by decide +kernel
  have written : two.annotated = printed := by decide +kernel
  obtain ⟨first, typed⟩ := printed_result_stable fed rfl hands read
    (session_of_evaluate rfl evaluated) (by decide) (by decide +kernel)
  obtain ⟨-, -, -, -, -, -, second, -⟩ := typed [] (by decide +kernel) (by decide +kernel)
  rw [written] at first
  rw [Shell.feedAll, List.foldl_nil, written] at second
  exact ⟨first, second⟩

end Redex
