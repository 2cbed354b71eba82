import Redex.Proofs.Letters
import Redex.Term.Render

/-!
# What is written is read back

The text form of a term whose names are letters spells the term: as a part of a larger term it is an
atom (`derives_wrap`), and by itself a term (`derives_render`). Since a text spells one term only,
reading the text form gives the term back.
-/

namespace Redex

open Grammar

theorem Grammar.Derives.pair {front behind : List Char} {function argument : Term}
    (first : Derives .atom front function) (second : Derives .atom behind argument) :
    Derives .term (front ++ behind) (.app function argument) := by
  have row : Derives .application (front ++ [(behind, argument)].flatMap Prod.fst)
      (.app function argument) := .row first (List.forall_mem_singleton.2 second)
  rw [List.flatMap_singleton] at row
  exact .application row

/-- A letter is written as the character that it is. -/
theorem IsLetter.exists_identifier {x : Name} (letter : IsLetter x) :
    ∃ c, IsIdentifier c ∧ x = String.singleton c ∧ spaceless x.toList = [c] := by
  obtain ⟨c, -, low, high, rfl⟩ := letter
  have noSpace : c ≠ ' ' := by
    rintro rfl
    exact absurd low (by decide)
  refine ⟨c, ⟨low, high⟩, rfl, ?_⟩
  simp [spaceless, noSpace]

namespace Term

theorem spaceless_render_abs (p : Name) (body : Term) :
    spaceless (abs p body).render.toList =
      '(' :: ('λ' :: (spaceless p.toList ++
        '.' :: spaceless (render.wrap body body.render).toList) ++ [')']) := by
  simp [render, spaceless]

theorem spaceless_render_app (function argument : Term) :
    spaceless (app function argument).render.toList =
      spaceless (render.wrap function function.render).toList ++
        spaceless (render.wrap argument argument.render).toList := by
  simp [render, spaceless]

theorem spaceless_wrap_app (function argument : Term) (text : String) :
    spaceless (render.wrap (app function argument) text).toList =
      '(' :: (spaceless text.toList ++ [')']) := by
  simp [render.wrap, spaceless]

/-- Inside a larger term the text form of a term is an atom. -/
theorem derives_wrap {t : Term} (lettered : t.Lettered) :
    Derives .atom (spaceless (render.wrap t t.render).toList) t := by
  induction t with
  | var x =>
    obtain ⟨c, letter, rfl, written⟩ := (lettered_var.1 lettered).exists_identifier
    change Derives .atom (spaceless (String.singleton c).toList) _
    rw [written]
    exact .identifier letter
  | abs p body ih =>
    obtain ⟨letteredP, letteredBody⟩ := lettered_abs.1 lettered
    obtain ⟨c, letter, rfl, written⟩ := letteredP.exists_identifier
    change Derives .atom (spaceless (abs (String.singleton c) body).render.toList) _
    rw [spaceless_render_abs, written]
    exact .parens (.abstraction (Or.inr rfl) letter (ih letteredBody).ofAtom)
  | app function argument ihf iha =>
    obtain ⟨letteredFunction, letteredArgument⟩ := lettered_app.1 lettered
    rw [spaceless_wrap_app, spaceless_render_app]
    exact .parens ((ihf letteredFunction).pair (iha letteredArgument))

/-- By itself the text form of a term is a term. Only an application is written otherwise than
inside a larger term. -/
theorem derives_render {t : Term} (lettered : t.Lettered) :
    Derives .term (spaceless t.render.toList) t := by
  cases t with
  | var x => exact (derives_wrap lettered).ofAtom
  | abs p body => exact (derives_wrap lettered).ofAtom
  | app function argument =>
    obtain ⟨letteredFunction, letteredArgument⟩ := lettered_app.1 lettered
    rw [spaceless_render_app]
    exact (derives_wrap letteredFunction).pair (derives_wrap letteredArgument)

theorem spells_render {t : Term} (lettered : t.Lettered) : Spells t.render t :=
  spells_of_derives (derives_render lettered)

end Term

/-- A term whose names are letters is read back from its text form; so the text form of what is read
from any text is itself read, and written in the same way again. -/
theorem parse_render :
    (∀ t : Term, t.Lettered → ∀ depth, 3 * t.render.length ≤ depth →
        parse depth t.render = .ok t) ∧
      ∀ nesting source t, parse nesting source = .ok t → ∀ depth, 3 * t.render.length ≤ depth →
        ∃ again, parse depth t.render = .ok again ∧ again.render = t.render := by
  have inverse (t : Term) (lettered : t.Lettered) (depth : Nat)
      (enough : 3 * t.render.length ≤ depth) : parse depth t.render = .ok t :=
    parse_of_spells (Term.spells_render lettered) enough
  refine ⟨inverse, ?_⟩
  intro nesting source t read depth enough
  exact ⟨t, inverse t (isLetter_of_parse read) depth enough, rfl⟩

theorem parse_render_nested :
    let t := Term.app (.var "f")
      (.app (.abs "x" (.app (.var "x") (.abs "y" (.var "x")))) (.var "z"))
    t.Lettered ∧ t.render = "f ((λx. (x (λy. x))) z)" ∧ parse 69 t.render = .ok t ∧
      parse 20 "f((\\x.x(\\y.x))z)" = .ok t ∧
      ∃ again, parse 69 t.render = .ok again ∧ again.render = t.render := by
  intro t
  have lettered : t.Lettered := by decide
  have written : t.render = "f ((λx. (x (λy. x))) z)" := by decide +kernel
  have enough : 3 * t.render.length ≤ 69 := by rw [written]; decide
  have read : parse 20 "f((\\x.x(\\y.x))z)" = .ok t := by decide +kernel
  obtain ⟨inverse, again⟩ := parse_render
  exact ⟨lettered, written, inverse t lettered 69 enough, read,
    again 20 _ t read 69 enough⟩

end Redex
