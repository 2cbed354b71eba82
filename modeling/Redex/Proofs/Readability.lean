import Redex.Proofs.NameShapes

/-!
# Text forms tell terms apart

A name that an evaluation makes up cannot be read back, so that a text form with such names cannot
be parsed; and yet it fixes the term. It is enough that names are not empty and hold none of the
characters that divide a text form, which `Legible` says. Then a name ends where the next divider
stands (`name_append_inj`), and by that the text of a part of a term fixes both the part and where
it ends, whatever stands behind it (`wrap_append_inj`).

Names that are made from legible names are legible, so that this covers every term in an evaluation
of a term that was read.
-/

namespace Redex

/-! ## Names between dividers -/

/-- Whether a character divides a text form: the blank, a parenthesis, the dot or the λ. -/
def IsDivider (c : Char) : Prop := c = ' ' ∨ c = '(' ∨ c = ')' ∨ c = '.' ∨ c = 'λ'

instance (c : Char) : Decidable (IsDivider c) := inferInstanceAs (Decidable (_ ∨ _))

/-- Whether a name stands out in a text form: it is not empty and holds no divider. -/
def Legible (x : Name) : Prop := x ≠ "" ∧ ∀ c ∈ x.toList, ¬IsDivider c

instance (x : Name) : Decidable (Legible x) := inferInstanceAs (Decidable (_ ∧ _))

/-- Whether a text can stand behind a name: there is nothing, or a divider comes first. -/
def Divided (cs : List Char) : Prop := ∀ c ∈ cs.head?, IsDivider c

theorem divided_nil : Divided [] := nofun

theorem divided_cons {c : Char} (divider : IsDivider c) (cs : List Char) : Divided (c :: cs) := by
  intro d first
  cases first
  exact divider

theorem divided_space (cs : List Char) : Divided (' ' :: cs) := divided_cons (by decide) cs

theorem divided_close (cs : List Char) : Divided (')' :: cs) := divided_cons (by decide) cs

theorem divided_dot (cs : List Char) : Divided ('.' :: cs) := divided_cons (by decide) cs

theorem Legible.exists_cons {x : Name} (legible : Legible x) :
    ∃ c cs, x.toList = c :: cs ∧ ¬IsDivider c := by
  obtain ⟨nonempty, undivided⟩ := legible
  rcases characters : x.toList with _ | ⟨c, cs⟩
  · exact absurd (String.toList_eq_nil_iff.1 characters) nonempty
  · refine ⟨c, cs, rfl, undivided c ?_⟩
    rw [characters]
    exact List.mem_cons_self

/-- A row of characters without a divider ends where the first divider stands. -/
theorem append_inj_of_divided {xs ys as bs : List Char} (left : ∀ c ∈ xs, ¬IsDivider c)
    (right : ∀ c ∈ ys, ¬IsDivider c) (divided : Divided as) (divided' : Divided bs)
    (same : xs ++ as = ys ++ bs) : xs = ys ∧ as = bs := by
  induction xs generalizing ys with
  | nil =>
    cases ys with
    | nil => exact ⟨rfl, same⟩
    | cons y ys =>
      rw [List.nil_append] at same
      rw [same] at divided
      exact absurd (divided y rfl) (right y List.mem_cons_self)
  | cons x xs ih =>
    cases ys with
    | nil =>
      rw [List.nil_append] at same
      rw [← same] at divided'
      exact absurd (divided' x rfl) (left x List.mem_cons_self)
    | cons y ys =>
      obtain ⟨first, rest⟩ := List.cons.inj same
      obtain ⟨names, behind⟩ :=
        ih (List.forall_mem_cons.1 left).2 (List.forall_mem_cons.1 right).2 rest
      exact ⟨by rw [first, names], behind⟩

theorem name_append_inj {x y : Name} {as bs : List Char} (legible : Legible x)
    (legible' : Legible y) (divided : Divided as) (divided' : Divided bs)
    (same : x.toList ++ as = y.toList ++ bs) : x = y ∧ as = bs := by
  obtain ⟨names, behind⟩ := append_inj_of_divided legible.2 legible'.2 divided divided' same
  exact ⟨String.toList_inj.1 names, behind⟩

namespace Term

/-! ## Parts of a term -/

theorem toList_wrap_abs (p : Name) (body : Term) (behind : List Char) :
    (render.wrap (abs p body) (abs p body).render).toList ++ behind =
      '(' :: 'λ' :: (p.toList ++
        '.' :: ' ' :: ((render.wrap body body.render).toList ++ ')' :: behind)) := by
  change (abs p body).render.toList ++ behind = _
  rw [toList_render_abs]
  simp

theorem toList_wrap_app (function argument : Term) (behind : List Char) :
    (render.wrap (app function argument) (app function argument).render).toList ++ behind =
      '(' :: ((render.wrap function function.render).toList ++
        ' ' :: ((render.wrap argument argument.render).toList ++ ')' :: behind)) := by
  simp [render.wrap, toList_render_app]

/-- No name starts like a part in parentheses. -/
theorem name_append_ne {x : Name} (legible : Legible x) (behind rest : List Char) :
    x.toList ++ behind ≠ '(' :: rest := by
  obtain ⟨c, cs, characters, undivided⟩ := legible.exists_cons
  rw [characters]
  intro same
  rw [(List.cons.inj same).1] at undivided
  exact undivided (by decide)

/-- No part of a term starts like an abstraction inside its parentheses. -/
theorem wrap_append_ne {t : Term} (legible : ∀ x ∈ t.names, Legible x) (behind rest : List Char) :
    (render.wrap t t.render).toList ++ behind ≠ 'λ' :: rest := by
  cases t with
  | var x =>
    obtain ⟨c, cs, characters, undivided⟩ := (List.forall_mem_singleton.1 legible).exists_cons
    change x.toList ++ behind ≠ _
    rw [characters]
    intro same
    rw [(List.cons.inj same).1] at undivided
    exact undivided (by decide)
  | abs p body =>
    rw [toList_wrap_abs]
    intro same
    exact absurd (List.cons.inj same).1 (by decide)
  | app function argument =>
    rw [toList_wrap_app]
    intro same
    exact absurd (List.cons.inj same).1 (by decide)

/-- The text of a part of a term fixes the part and where it ends. -/
theorem wrap_append_inj {t u : Term} {as bs : List Char} (legible : ∀ x ∈ t.names, Legible x)
    (legible' : ∀ x ∈ u.names, Legible x) (divided : Divided as) (divided' : Divided bs)
    (same : (render.wrap t t.render).toList ++ as = (render.wrap u u.render).toList ++ bs) :
    t = u ∧ as = bs := by
  induction t generalizing u as bs with
  | var x =>
    have legibleX := List.forall_mem_singleton.1 legible
    change x.toList ++ as = _ at same
    cases u with
    | var y =>
      have legibleY := List.forall_mem_singleton.1 legible'
      obtain ⟨names, behind⟩ := name_append_inj legibleX legibleY divided divided' same
      exact ⟨by rw [names], behind⟩
    | abs q body =>
      rw [toList_wrap_abs] at same
      exact absurd same (name_append_ne legibleX as _)
    | app function argument =>
      rw [toList_wrap_app] at same
      exact absurd same (name_append_ne legibleX as _)
  | abs p body ih =>
    obtain ⟨legibleP, legibleBody⟩ := List.forall_mem_cons.1 legible
    rw [toList_wrap_abs] at same
    cases u with
    | var y =>
      exact absurd same.symm (name_append_ne (List.forall_mem_singleton.1 legible') bs _)
    | abs q body' =>
      obtain ⟨legibleQ, legibleBody'⟩ := List.forall_mem_cons.1 legible'
      rw [toList_wrap_abs] at same
      have inside := (List.cons.inj (List.cons.inj same).2).2
      obtain ⟨rfl, rest⟩ := name_append_inj legibleP legibleQ (divided_dot _) (divided_dot _) inside
      have bodies := (List.cons.inj (List.cons.inj rest).2).2
      obtain ⟨rfl, closed⟩ := ih legibleBody legibleBody' (divided_close _) (divided_close _) bodies
      exact ⟨rfl, (List.cons.inj closed).2⟩
    | app function argument =>
      -- Both are in parentheses, but no function starts with the λ of an abstraction.
      rw [toList_wrap_app] at same
      have legibleFunction := (List.forall_mem_append.1 legible').1
      exact absurd (List.cons.inj same).2.symm (wrap_append_ne legibleFunction _ _)
  | app function argument ihf iha =>
    obtain ⟨legibleFunction, legibleArgument⟩ := List.forall_mem_append.1 legible
    rw [toList_wrap_app] at same
    cases u with
    | var y =>
      exact absurd same.symm (name_append_ne (List.forall_mem_singleton.1 legible') bs _)
    | abs q body =>
      rw [toList_wrap_abs] at same
      exact absurd (List.cons.inj same).2 (wrap_append_ne legibleFunction _ _)
    | app function' argument' =>
      obtain ⟨legibleFunction', legibleArgument'⟩ := List.forall_mem_append.1 legible'
      rw [toList_wrap_app] at same
      obtain ⟨rfl, rest⟩ := ihf legibleFunction legibleFunction' (divided_space _) (divided_space _)
        (List.cons.inj same).2
      obtain ⟨rfl, closed⟩ := iha legibleArgument legibleArgument' (divided_close _)
        (divided_close _) (List.cons.inj rest).2
      exact ⟨rfl, (List.cons.inj closed).2⟩

/-! ## Whole terms -/

theorem isValue_or_app (t : Term) :
    t.isValue = true ∨ ∃ function argument, t = app function argument := by
  cases t with
  | var x => exact Or.inl rfl
  | abs p body => exact Or.inl rfl
  | app function argument => exact Or.inr ⟨function, argument, rfl⟩

theorem wrap_of_isValue {t : Term} (value : t.isValue = true) (text : String) :
    render.wrap t text = text := by
  cases t with
  | var x => rfl
  | abs p body => rfl
  | app function argument => cases value

/-- The text of an application goes on where that of a part would have ended. -/
theorem render_app_ne {function argument u : Term}
    (legible : ∀ x ∈ (app function argument).names, Legible x)
    (legible' : ∀ x ∈ u.names, Legible x) (value : u.isValue = true) :
    (app function argument).render ≠ u.render := by
  intro same
  have texts := congrArg String.toList same
  rw [toList_render_app, ← wrap_of_isValue value u.render,
    ← List.append_nil (render.wrap u u.render).toList] at texts
  have legibleFunction := (List.forall_mem_append.1 legible).1
  obtain ⟨-, ends⟩ := wrap_append_inj legibleFunction legible' (divided_space _) divided_nil texts
  cases ends

/-- Terms with legible names have different text forms. -/
theorem eq_of_render_eq {t u : Term} (legible : ∀ x ∈ t.names, Legible x)
    (legible' : ∀ x ∈ u.names, Legible x) (same : t.render = u.render) : t = u := by
  rcases t.isValue_or_app with value | ⟨function, argument, rfl⟩
  · rcases u.isValue_or_app with value' | ⟨function', argument', rfl⟩
    · have texts := congrArg (fun text => String.toList text ++ []) same
      rw [← wrap_of_isValue value t.render, ← wrap_of_isValue value' u.render] at texts
      exact (wrap_append_inj legible legible' divided_nil divided_nil texts).1
    · exact absurd same.symm (render_app_ne legible' legible value)
  · rcases u.isValue_or_app with value' | ⟨function', argument', rfl⟩
    · exact absurd same (render_app_ne legible legible' value')
    · obtain ⟨legibleFunction, legibleArgument⟩ := List.forall_mem_append.1 legible
      obtain ⟨legibleFunction', legibleArgument'⟩ := List.forall_mem_append.1 legible'
      have texts := congrArg String.toList same
      rw [toList_render_app, toList_render_app] at texts
      obtain ⟨rfl, rest⟩ := wrap_append_inj legibleFunction legibleFunction' (divided_space _)
        (divided_space _) texts
      have arguments := congrArg (· ++ []) (List.cons.inj rest).2
      obtain ⟨rfl, -⟩ := wrap_append_inj legibleArgument legibleArgument' divided_nil divided_nil
        arguments
      rfl

end Term

/-! ## Names that are made up -/

theorem not_isDivider_of_isDigit {c : Char} (digit : c.isDigit = true) : ¬IsDivider c := by
  intro divider
  rcases divider with rfl | rfl | rfl | rfl | rfl
  all_goals exact absurd digit (by decide)

/-- A name that is made from a legible one is legible: a prime and digits are added to it. -/
theorem inherited_legible : Inherited Legible := by
  intro base k legible
  obtain ⟨c, cs, characters, -⟩ := legible.exists_cons
  refine ⟨?_, ?_⟩
  · intro empty
    have nothing := String.toList_eq_nil_iff.2 empty
    rw [NameSupply.toList_candidate, characters] at nothing
    cases nothing
  · rw [NameSupply.toList_candidate, List.forall_mem_append, List.forall_mem_cons]
    refine ⟨legible.2, by decide, ?_⟩
    intro d inside
    split at inside
    · cases inside
    · exact not_isDivider_of_isDigit (Nat.isDigit_of_mem_toDigits (by decide) (by decide) inside)

theorem IsLetter.legible {x : Name} (letter : IsLetter x) : Legible x := by
  obtain ⟨c, -, low, high, rfl⟩ := letter
  refine ⟨?_, ?_⟩
  · intro empty
    have nothing := String.toList_eq_nil_iff.2 empty
    rw [String.toList_singleton] at nothing
    cases nothing
  · rw [String.toList_singleton, List.forall_mem_singleton]
    intro divider
    rcases divider with rfl | rfl | rfl | rfl | rfl
    · exact absurd low (by decide)
    · exact absurd low (by decide)
    · exact absurd low (by decide)
    · exact absurd low (by decide)
    · exact absurd high (by decide)

/-- The text form fixes the term, as long as names are not empty and hold no divider. Evaluation
stays among such terms: the result has legible names if the term has, and the names of a term that
was read are legible. -/
theorem render_determines_term :
    (∀ t u : Term, (∀ x ∈ t.names, Legible x) → (∀ x ∈ u.names, Legible x) →
        t.render = u.render → t = u) ∧
      (∀ (settings : Eval.Settings) (t result : Term) (run : Eval.Run),
        (∀ x ∈ t.names, Legible x) → Eval.evaluate settings t = .ok result run →
        ∀ x ∈ result.names, Legible x) ∧
      ∀ (nesting : Nat) (source : String) (t : Term), parse nesting source = .ok t →
        ∀ x ∈ t.names, Legible x := by
  refine ⟨?_, ?_, ?_⟩
  · intro t u legible legible' same
    exact Term.eq_of_render_eq legible legible' same
  · intro settings t result run legible done
    obtain ⟨redexes, last, walk, -, -⟩ := Eval.evaluate_ok done
    exact walk.forall_names inherited_legible legible
  · intro nesting source t read x inside
    exact (isLetter_of_parse read x inside).legible

/-- The result of `(λf. λy. f (λy. f y)) y` holds a name with a number. No other term with legible
names is written in the same way, although its text form cannot be read. -/
theorem render_determines_term_primed :
    let inner := Term.abs "y" (.app (.var "f") (.var "y"))
    let t := Term.app (.abs "f" (.abs "y" (.app (.var "f") inner))) (.var "y")
    let result := Term.abs "y'" (.app (.var "y") (.abs "y'1" (.app (.var "y") (.var "y'1"))))
    parse 30 "(\\f.\\y.f (\\y.f y)) y" = .ok t ∧ (∀ x ∈ t.names, Legible x) ∧
      Eval.evaluate ⟨5, false, 30⟩ t = .ok result ⟨⟨["y'", "y'1"]⟩, 1, #[]⟩ ∧
      result.render = "(λy'. (y (λy'1. (y y'1))))" ∧
      (∀ x ∈ result.names, Legible x) ∧
      ∀ u : Term, (∀ x ∈ u.names, Legible x) → u.render = "(λy'. (y (λy'1. (y y'1))))" →
        u = result := by
  intro inner t result
  have read : parse 30 "(\\f.\\y.f (\\y.f y)) y" = .ok t := by decide +kernel
  have done : Eval.evaluate ⟨5, false, 30⟩ t = .ok result ⟨⟨["y'", "y'1"]⟩, 1, #[]⟩ := by
    decide +kernel
  have written : result.render = "(λy'. (y (λy'1. (y y'1))))" := by decide +kernel
  obtain ⟨unique, kept, ofParse⟩ := render_determines_term
  have legible := ofParse _ _ _ read
  have legible' := kept _ _ _ _ legible done
  refine ⟨read, legible, done, written, legible', ?_⟩
  intro u legibleU same
  exact unique u result legibleU legible' (same.trans written.symm)

/-- A name with a blank in it looks like an application. -/
example : (Term.var "x y").render = (Term.app (.var "x") (.var "y")).render := by decide

end Redex
