import Redex.Text.Slice
import Redex.Text.Template

/-!
# Escape sequences in texts

`undecorated` deletes the escape sequences of a text, and a text `Decorates` another one if only
escape sequences tell it from that text, in which there is no escape character. Then the deletion
gives back the other text (`Decorates.undecoratedFrom_eq`).

A style that `Wraps` puts nothing but escape sequences around the texts that stand out. Shown in
such a style a text is `Decorative` if that decorates its plain form. What is put together from
decorative texts is decorative, bold and coloured texts are, and so is a message. A message that is
made from a template holds no characters besides those of the template and of the arguments
(`Template.unescaped_of_fill`), and it is shown in a style by filling the template again with the
arguments in bold (`Template.fill_bold`).
-/

namespace Redex

namespace Text

/-! ## Escape sequences -/

/-- The length of the escape sequence that a text starts with, if it does: the escape character, an
opening bracket, a number and the letter `m`. -/
def escapeLength? : List Char → Option Nat
  | '\x1b' :: '[' :: cs =>
    let digits := (cs.takeWhile Char.isDigit).length
    if 0 < digits ∧ (cs.drop digits).head? = some 'm' then some (digits + 3) else none
  | _ => none

/-- A text without its escape sequences, of which so many characters at the front are to be left
out. -/
def undecoratedFrom : Nat → List Char → List Char
  | _, [] => []
  | skipped + 1, _ :: cs => undecoratedFrom skipped cs
  | 0, c :: cs =>
    match escapeLength? (c :: cs) with
    | some length => undecoratedFrom (length - 1) cs
    | none => c :: undecoratedFrom 0 cs

/-- A text without its escape sequences. -/
def undecorated (text : String) : String := String.ofList (undecoratedFrom 0 text.toList)

/-- Whether a text holds no escape character. -/
def Unescaped (text : String) : Prop := '\x1b' ∉ text.toList

instance (text : String) : Decidable (Unescaped text) := inferInstanceAs (Decidable (¬_))

/-- Whether a text is another one, which holds no escape character, with escape sequences in it. -/
inductive Decorates : List Char → List Char → Prop
  | nil : Decorates [] []
  | char {c : Char} {cs ds : List Char} :
    c ≠ '\x1b' → Decorates cs ds → Decorates (c :: cs) (c :: ds)
  | escape (code : Nat) {cs ds : List Char} :
    Decorates cs ds → Decorates ((Style.escape code).toList ++ cs) ds

theorem undecoratedFrom_eq_drop (skipped : Nat) (cs : List Char) :
    undecoratedFrom skipped cs = undecoratedFrom 0 (cs.drop skipped) := by
  induction cs generalizing skipped with
  | nil =>
    rw [List.drop_nil]
    cases skipped <;> rfl
  | cons c cs ih =>
    cases skipped with
    | zero => rfl
    | succ skipped => exact ih skipped

theorem toList_escape (code : Nat) :
    (Style.escape code).toList = '\x1b' :: '[' :: (Nat.toDigits 10 code ++ ['m']) := by
  simp [Style.escape, Nat.toString_eq_repr, Nat.toList_repr]

theorem escapeLength?_escape (code : Nat) (cs : List Char) :
    escapeLength? ((Style.escape code).toList ++ cs) =
      some ((Nat.toDigits 10 code).length + 3) := by
  have digits : ∀ c ∈ Nat.toDigits 10 code, c.isDigit = true := fun c inside =>
    Nat.isDigit_of_mem_toDigits (by decide) (by decide) inside
  have nonempty : 0 < (Nat.toDigits 10 code).length := List.length_pos_iff.2 Nat.toDigits_ne_nil
  have number : (Nat.toDigits 10 code ++ 'm' :: cs).takeWhile Char.isDigit =
      Nat.toDigits 10 code := by
    rw [List.takeWhile_append_of_pos digits]
    simp
  rw [toList_escape, List.cons_append, List.cons_append, List.append_assoc, List.singleton_append]
  simp only [escapeLength?, number, List.drop_left, List.head?_cons, and_true]
  rw [if_pos nonempty]

/-- Deleting the escape sequences of a decorated text gives the text. -/
theorem Decorates.undecoratedFrom_eq {cs ds : List Char} (decorates : Decorates cs ds) :
    undecoratedFrom 0 cs = ds := by
  induction decorates with
  | nil => rfl
  | @char c cs ds plain _ ih =>
    have unmarked : escapeLength? (c :: cs) = none := by
      unfold escapeLength?
      split
      · next same =>
        cases same
        exact absurd rfl plain
      · rfl
    rw [undecoratedFrom, unmarked, ih]
  | @escape code cs ds _ ih =>
    have length := escapeLength?_escape code cs
    rw [toList_escape, List.cons_append] at length ⊢
    simp only [undecoratedFrom, length]
    rw [undecoratedFrom_eq_drop, ← ih]
    congr 1
    simp

theorem Decorates.append {cs ds cs' ds' : List Char} (first : Decorates cs ds)
    (second : Decorates cs' ds') : Decorates (cs ++ cs') (ds ++ ds') := by
  induction first with
  | nil => exact second
  | char plain _ ih => exact .char plain ih
  | escape code _ ih =>
    rw [List.append_assoc]
    exact .escape code ih

theorem decorates_self {cs : List Char} (unescaped : '\x1b' ∉ cs) : Decorates cs cs := by
  induction cs with
  | nil => exact .nil
  | cons c cs ih =>
    rw [List.mem_cons, not_or] at unescaped
    exact .char (Ne.symm unescaped.1) (ih unescaped.2)

/-! ## Texts without escape characters -/

@[simp] theorem unescaped_append {first second : String} :
    Unescaped (first ++ second) ↔ Unescaped first ∧ Unescaped second := by
  simp [Unescaped]

theorem unescaped_ofList {cs : List Char} : Unescaped (String.ofList cs) ↔ '\x1b' ∉ cs := by
  simp [Unescaped]

theorem unescaped_natural (number : Nat) : Unescaped (toString number) := by
  intro inside
  rw [Nat.toString_eq_repr, Nat.toList_repr] at inside
  have digit := Nat.isDigit_of_mem_toDigits (by decide) (by decide) inside
  exact absurd digit (by decide)

theorem unescaped_integer (number : Int) : Unescaped (toString number) := by
  cases number with
  | ofNat number => exact unescaped_natural number
  | negSucc number =>
    exact unescaped_append.2 ⟨by simp [Unescaped], unescaped_natural (number + 1)⟩

theorem Unescaped.before {text : String} (unescaped : Unescaped text) (stop : Int) :
    Unescaped (before text stop) :=
  unescaped_ofList.2 fun inside => unescaped (List.mem_of_mem_take inside)

theorem Unescaped.after {text : String} (unescaped : Unescaped text) (start : Int) :
    Unescaped (after text start) :=
  unescaped_ofList.2 fun inside => unescaped (List.mem_of_mem_drop inside)

theorem Unescaped.slice {text : String} (unescaped : Unescaped text) (start stop : Int) :
    Unescaped (slice text start stop) :=
  unescaped_ofList.2 fun inside =>
    unescaped (List.mem_of_mem_drop (List.mem_of_mem_take inside))

theorem unescaped_repeated (count : Int) {c : Char} (plain : c ≠ '\x1b') :
    Unescaped (repeated count c) :=
  unescaped_ofList.2 fun inside => plain (List.eq_of_mem_replicate inside).symm

/-! ## Texts with a style -/

/-- A row of escape sequences. -/
def Style.escapes (codes : List Nat) : String := String.join (codes.map escape)

/-- Whether a text is shown with escape sequences around it, if any, and nothing else. -/
def Style.Around (text shown : String) : Prop :=
  ∃ front back, shown = escapes front ++ text ++ escapes back

/-- Whether a style puts nothing but escape sequences around the texts that stand out. -/
structure Style.Wraps (style : Style) : Prop where
  bold : ∀ text, Style.Around text (style.bold text)
  paint : ∀ colour text, Style.Around text (style.paint colour text)

theorem Style.wraps_decorated : decorated.Wraps where
  bold text := ⟨[1], [0], by simp [decorated, escapes]⟩
  paint colour text := ⟨[1, colour.code], [0], by simp [decorated, escapes]⟩

theorem decorates_escapes (codes : List Nat) {cs ds : List Char} (decorates : Decorates cs ds) :
    Decorates ((Style.escapes codes).toList ++ cs) ds := by
  induction codes with
  | nil => exact decorates
  | cons code codes ih =>
    rw [Style.escapes, List.map_cons, String.join_cons, String.toList_append, List.append_assoc]
    exact .escape code ih

theorem Unescaped.around {text shown : String} (unescaped : Unescaped text)
    (around : Style.Around text shown) : Decorates shown.toList text.toList := by
  obtain ⟨front, back, rfl⟩ := around
  have behind : Decorates (Style.escapes back).toList [] := by
    simpa using decorates_escapes back .nil
  have inside := (decorates_self unescaped).append behind
  rw [List.append_nil] at inside
  rw [String.toList_append, String.toList_append, List.append_assoc]
  exact decorates_escapes front inside

/-- Whether only escape sequences tell what a text is in a style from what it is in plain output,
where it holds no escape character. -/
def Decorative (style : Style) (text : Style → String) : Prop :=
  Decorates (text style).toList (text .plain).toList

section Decorative

variable {style : Style}

theorem Unescaped.decorative {text : String} (unescaped : Unescaped text) :
    Decorative style fun _ => text :=
  decorates_self unescaped

theorem Decorative.append {first second : Style → String} (one : Decorative style first)
    (two : Decorative style second) :
    Decorative style fun style => first style ++ second style := by
  unfold Decorative
  rw [String.toList_append, String.toList_append]
  exact Decorates.append one two

theorem Decorative.join {α : Type} {text : Style → α → String} {items : List α}
    (all : ∀ item ∈ items, Decorative style fun style => text style item) :
    Decorative style fun style => String.join (items.map (text style)) := by
  induction items with
  | nil => exact .nil
  | cons item items ih =>
    simp only [List.map_cons, String.join_cons]
    exact (all item List.mem_cons_self).append
      (ih fun item inside => all item (List.mem_cons_of_mem _ inside))

theorem Unescaped.bold (wraps : style.Wraps) {text : String} (unescaped : Unescaped text) :
    Decorative style fun style => style.bold text :=
  unescaped.around (wraps.bold text)

theorem Unescaped.paint (wraps : style.Wraps) {text : String} (unescaped : Unescaped text)
    (colour : Colour) : Decorative style fun style => style.paint colour text :=
  unescaped.around (wraps.paint colour text)

/-! ## Messages and their templates -/

/-- Whether a message holds no escape character. -/
def Message.Unescaped (message : Message) : Prop := ∀ span ∈ message, Text.Unescaped span.text

instance (message : Message) : Decidable message.Unescaped :=
  inferInstanceAs (Decidable (∀ span ∈ message, Text.Unescaped span.text))

theorem Message.Unescaped.shown (wraps : style.Wraps) {message : Message}
    (unescaped : message.Unescaped) : Decorative style fun style => message.shown style := by
  refine Decorative.join fun span inside => ?_
  have plain := unescaped span inside
  cases span with
  | words text => exact plain.decorative
  | argument text => exact plain.bold wraps

end Decorative

/-- A part of which the text is changed if it is an argument. -/
def Span.changed (change : String → String) : Span → Span
  | words text => words text
  | argument text => argument (change text)

theorem text_map_changed (style : Style) (message : Message) :
    Message.text (message.map (Span.changed style.bold)) = message.shown style := by
  have parts : Span.text ∘ Span.changed style.bold = Span.shown style := by
    funext span
    cases span <;> rfl
  rw [Message.text, Message.shown, List.map_map, parts]

namespace Template

theorem numberedPiece_ne_char (name : String) (index : Nat) (cs : List Char) (c : Char) :
    numberedPiece name index cs ≠ .char c := by
  induction cs generalizing index with
  | nil => simp [numberedPiece]
  | cons c' cs ih =>
    rw [numberedPiece]
    split
    · simp
    · split
      · simp
      · exact ih _

theorem fieldPiece_ne_char (name : List Char) (c : Char) : fieldPiece name ≠ .char c := by
  rw [fieldPiece]
  split
  · simp
  · exact numberedPiece_ne_char _ _ _ c

/-- The characters that a template stands for by themselves are among its own. -/
theorem mem_of_char_mem_readText (c : Char) :
    ∀ cs : List Char, .char c ∈ readText cs → c ∈ cs := by
  have field := fieldPiece_ne_char
  -- A field is read by a function of its own, which hands the rest of the template back.
  apply readText.induct (fun cs => .char c ∈ readText cs → c ∈ cs)
    (fun name cs => .char c ∈ readField name cs → c ∈ cs)
  all_goals
    intros
    grind [readText, readField]

/-- An argument in front of the rest of a message. -/
theorem argumentAt_bind_map (change : String → String) (args : List String) (index : Nat)
    (rest : Except Fault Message) :
    (do
      let span ← argumentAt (args.map change) index
      return span :: (← rest.map (List.map (Span.changed change)))) =
    (do
      let span ← argumentAt args index
      return span :: (← rest) : Except Fault Message).map (List.map (Span.changed change)) := by
  rw [argumentAt, argumentAt, List.getElem?_map]
  cases args[index]? with
  | none => rfl
  | some arg => cases rest <;> rfl

/-- Changing the arguments that a template is filled with changes the arguments of the message. -/
theorem fillPieces_map (change : String → String) (args : List String) (numbering : Numbering)
    (pieces : List Piece) :
    fillPieces (args.map change) numbering pieces =
      (fillPieces args numbering pieces).map (List.map (Span.changed change)) := by
  fun_induction fillPieces args numbering pieces with
  | case1 | case3 | case6 | case8 => rfl
  | case2 numbering c pieces ih =>
    rw [fillPieces, ih]
    cases fillPieces args numbering pieces <;> rfl
  | case4 pieces ih =>
    rw [fillPieces, ih]
    exact argumentAt_bind_map change args 0 _
  | case5 pieces next ih =>
    rw [fillPieces, ih]
    exact argumentAt_bind_map change args next _
  | case7 numbering index pieces manual ih =>
    rw [fillPieces, ih]
    · exact argumentAt_bind_map change args index _
    · exact manual

/-- A message is shown in a style by filling its template with arguments in bold. -/
theorem fill_bold (style : Style) (template : String) (args : List String) :
    (fill template (args.map style.bold)).map Message.text =
      (fill template args).map (Message.shown style) := by
  rw [fill, fillPieces_map, fill]
  cases fillPieces args .undecided (readText template.toList) with
  | error fault => rfl
  | ok message => exact congrArg Except.ok (text_map_changed style message)

theorem of_argumentAt_bind {args : List String} {index : Nat} {rest : Except Fault Message}
    {message : Message}
    (filled : (do
      let span ← argumentAt args index
      return span :: (← rest)) = Except.ok message) :
    ∃ arg ∈ args, ∃ others, rest = .ok others ∧ message = .argument arg :: others := by
  rw [argumentAt] at filled
  cases found : args[index]? with
  | none =>
    rw [found] at filled
    cases filled
  | some arg =>
    rw [found] at filled
    cases rest with
    | error fault => cases filled
    | ok others =>
      cases filled
      exact ⟨arg, List.mem_of_getElem? found, others, rfl, rfl⟩

/-- A template without escape characters and arguments without them make a message without them. -/
theorem unescaped_of_fillPieces {args : List String} {numbering : Numbering} {pieces : List Piece}
    {message : Message} (arguments : ∀ arg ∈ args, Unescaped arg)
    (chars : ∀ c, .char c ∈ pieces → c ≠ '\x1b')
    (filled : fillPieces args numbering pieces = .ok message) : message.Unescaped := by
  have tail {piece : Piece} {pieces : List Piece}
      (chars : ∀ c, .char c ∈ piece :: pieces → c ≠ '\x1b') :
      ∀ c, .char c ∈ pieces → c ≠ '\x1b' :=
    fun c inside => chars c (List.mem_cons_of_mem _ inside)
  fun_induction fillPieces args numbering pieces generalizing message with
  | case1 =>
    cases filled
    exact List.forall_mem_nil _
  | case2 numbering c pieces ih =>
    cases rest : fillPieces args numbering pieces with
    | error fault =>
      rw [rest] at filled
      cases filled
    | ok others =>
      rw [rest] at filled
      cases filled
      have here : Unescaped (String.singleton c) := by
        simpa [Unescaped] using (chars c List.mem_cons_self).symm
      exact List.forall_mem_cons.2 ⟨here, ih (tail chars) rest⟩
  | case3 | case6 | case8 => cases filled
  | case4 pieces ih | case5 pieces next ih | case7 numbering index pieces manual ih =>
    obtain ⟨arg, known, others, rest, rfl⟩ := of_argumentAt_bind filled
    exact List.forall_mem_cons.2 ⟨arguments arg known, ih (tail chars) rest⟩

theorem unescaped_of_fill {template : String} {args : List String} {message : Message}
    (unescaped : Unescaped template) (arguments : ∀ arg ∈ args, Unescaped arg)
    (filled : fill template args = .ok message) : message.Unescaped := by
  refine unescaped_of_fillPieces arguments ?_ filled
  rintro c inside rfl
  exact unescaped (mem_of_char_mem_readText _ _ inside)

end Template

end Text

end Redex
