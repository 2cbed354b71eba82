import Redex.Interpreter
import Redex.Proofs.Soundness

/-!
# What names look like

A name that an evaluation makes up is a name that was there before with a prime and perhaps a number
behind it. A property that passes from a name to every name made from it therefore holds of all
names of a term at the end if it holds of them at the start: substitution keeps it
(`forall_names_subst`), hence every step (`Moves.forall_names`) and every run
(`Walk.forall_names`).

The names of a term that was read are letters, so no line feed ever gets into a name, and the text
form of a result is a single line.
-/

namespace Redex

/-- Whether a property of names passes from a name to the names that are made from it. -/
def Inherited (property : Name → Prop) : Prop :=
  ∀ base k, property base → property (NameSupply.candidate base k)

section Inherited

variable {property : Name → Prop}

theorem Inherited.fresh (inherited : Inherited property) {base : Name} (holds : property base)
    (supply : NameSupply) : property (supply.fresh base).1 := by
  obtain ⟨j, found, -, -⟩ := supply.fresh_spec base
  rw [found]
  exact inherited base j holds

namespace Term

theorem forall_names_subst (inherited : Inherited property) (p : Name) (r t : Term)
    (supply : NameSupply) (inR : ∀ x ∈ r.names, property x) (inT : ∀ x ∈ t.names, property x) :
    ∀ x ∈ (subst p r t supply).1.names, property x := by
  induction p, r, t, supply using subst_induction with
  | variable_ p r y supply =>
    rw [subst_var]
    dsimp only
    split
    · exact inR
    · exact inT
  | application p r function argument supply ihf iha =>
    obtain ⟨inFunction, inArgument⟩ := List.forall_mem_append.1 inT
    rw [subst_app]
    exact List.forall_mem_append.2 ⟨ihf inR inFunction, iha inR inArgument⟩
  | shadowed p r body supply =>
    rw [subst_abs_self]
    exact inT
  | kept p r q body supply other safe ih =>
    obtain ⟨inQ, inBody⟩ := List.forall_mem_cons.1 inT
    rw [subst_abs_of_not_free other safe]
    exact List.forall_mem_cons.2 ⟨inQ, ih inR inBody⟩
  | renamed p r q body supply other captured ihq ihp =>
    obtain ⟨inQ, inBody⟩ := List.forall_mem_cons.1 inT
    have inFresh : property (supply.fresh q).1 := inherited.fresh inQ supply
    have inRenamed := ihq (List.forall_mem_singleton.2 inFresh) inBody
    rw [subst_abs_of_free other captured]
    exact List.forall_mem_cons.2 ⟨inFresh, ihp inR inRenamed⟩

theorem Moves.forall_names (inherited : Inherited property) {t : Term} {supply : NameSupply}
    {move : Move} (moves : Moves t supply move) (inT : ∀ x ∈ t.names, property x) :
    ∀ x ∈ move.result.names, property x := by
  induction moves with
  | contract p body argument supply =>
    obtain ⟨inFunction, inArgument⟩ := List.forall_mem_append.1 inT
    obtain ⟨-, inBody⟩ := List.forall_mem_cons.1 inFunction
    exact forall_names_subst inherited p argument body supply inArgument inBody
  | inBody p _ ih =>
    obtain ⟨inP, inBody⟩ := List.forall_mem_cons.1 inT
    exact List.forall_mem_cons.2 ⟨inP, ih inBody⟩
  | inFunction argument _ ih =>
    obtain ⟨inFunction, inArgument⟩ := List.forall_mem_append.1 inT
    exact List.forall_mem_append.2 ⟨ih inFunction, inArgument⟩
  | inArgument function _ ih =>
    obtain ⟨inFunction, inArgument⟩ := List.forall_mem_append.1 inT
    exact List.forall_mem_append.2 ⟨inFunction, ih inArgument⟩

end Term

theorem Eval.Walk.forall_names (inherited : Inherited property) {budget : Int} {traced : Bool}
    {t u : Term} {run run' : Eval.Run} {redexes : List Term}
    (walk : Eval.Walk budget traced Term.step? t run redexes u run')
    (inT : ∀ x ∈ t.names, property x) : ∀ x ∈ u.names, property x := by
  induction walk with
  | stay t run => exact inT
  | move stepped _ _ ih => exact ih ((Term.moves_of_step? stepped).forall_names inherited inT)

end Inherited

/-! ## Results in one line -/

/-- Whether a name holds no line feed. -/
def OneLine (x : Name) : Prop := '\n' ∉ x.toList

theorem newline_not_mem_toDigits (n : Nat) : '\n' ∉ Nat.toDigits 10 n := by
  intro inside
  have digit : '\n'.isDigit = true := Nat.isDigit_of_mem_toDigits (by decide) (by decide) inside
  exact absurd digit (by decide)

theorem inherited_oneLine : Inherited OneLine := by
  intro base k holds
  unfold OneLine
  rw [NameSupply.toList_candidate, List.mem_append, not_or]
  refine ⟨holds, ?_⟩
  split
  · decide
  · simpa using newline_not_mem_toDigits k

theorem IsLetter.oneLine {x : Name} (letter : IsLetter x) : OneLine x := by
  obtain ⟨c, -, low, -, rfl⟩ := letter
  unfold OneLine
  rw [String.toList_singleton, List.mem_singleton]
  rintro rfl
  exact absurd low (by decide)

namespace Term

theorem newline_not_mem_wrap {t : Term} {text : String} (oneLine : '\n' ∉ text.toList) :
    '\n' ∉ (render.wrap t text).toList := by
  cases t with
  | var x => exact oneLine
  | abs p body => exact oneLine
  | app function argument => simpa [render.wrap] using oneLine

theorem newline_not_mem_render {t : Term} (oneLine : ∀ x ∈ t.names, OneLine x) :
    '\n' ∉ t.render.toList := by
  induction t with
  | var x => exact oneLine x (List.mem_singleton_self x)
  | abs p body ih =>
    obtain ⟨inP, inBody⟩ := List.forall_mem_cons.1 oneLine
    have wrapped : '\n' ∉ (render.wrap body body.render).toList := newline_not_mem_wrap (ih inBody)
    have parameter : '\n' ∉ p.toList := inP
    simp [render, parameter, wrapped]
  | app function argument ihf iha =>
    obtain ⟨inFunction, inArgument⟩ := List.forall_mem_append.1 oneLine
    have left : '\n' ∉ (render.wrap function function.render).toList :=
      newline_not_mem_wrap (ihf inFunction)
    have right : '\n' ∉ (render.wrap argument argument.render).toList :=
      newline_not_mem_wrap (iha inArgument)
    simp [render, left, right]

theorem newline_not_mem_annotated {t : Term} (oneLine : ∀ x ∈ t.names, OneLine x) :
    '\n' ∉ t.annotated.toList := by
  have render := newline_not_mem_render oneLine
  unfold annotated
  cases t.number? with
  | none => exact render
  | some n =>
    have digits := newline_not_mem_toDigits n
    simpa [render, Nat.toString_eq_repr, Nat.toList_repr] using digits

end Term

/-- What is printed for the result of a text is one line. -/
theorem newline_not_mem_result {depth : Nat} {text : String} {settings : Eval.Settings}
    {t result : Term} {run : Eval.Run} (read : parse depth text = .ok t)
    (evaluated : Eval.evaluate settings t = .ok result run) :
    '\n' ∉ result.annotated.toList := by
  obtain ⟨redexes, last, walk, -, -⟩ := Eval.evaluate_ok evaluated
  apply Term.newline_not_mem_annotated
  apply walk.forall_names inherited_oneLine
  intro x inside
  exact (isLetter_of_parse read x inside).oneLine

end Redex
