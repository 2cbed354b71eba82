import Redex.Proofs.Freshness
import Redex.Proofs.Reading

/-!
# The names of terms that are read

The names in a term that the grammar derives are single letters from `a` to `z`, and so are those of
every term that is read from a text (`isLetter_of_parse`). None of them carries a prime, so that any
supply covers the term.
-/

namespace Redex

/-- Whether a name is a single letter from `a` to `z`. -/
def IsLetter (x : Name) : Prop := ∃ c ∈ x.toList, 'a' ≤ c ∧ c ≤ 'z' ∧ x = String.singleton c

instance (x : Name) : Decidable (IsLetter x) :=
  List.decidableBEx (fun c => 'a' ≤ c ∧ c ≤ 'z' ∧ x = String.singleton c) x.toList

theorem isLetter_singleton {c : Char} (low : 'a' ≤ c) (high : c ≤ 'z') :
    IsLetter (String.singleton c) := by
  refine ⟨c, ?_, low, high, rfl⟩
  rw [String.toList_singleton]
  exact List.mem_singleton_self c

theorem IsLetter.not_primed {x : Name} (letter : IsLetter x) : ¬Primed x := by
  obtain ⟨c, -, low, -, rfl⟩ := letter
  intro primed
  unfold Primed at primed
  rw [String.toList_singleton, List.mem_singleton] at primed
  subst primed
  exact absurd low (by decide)

/-- Whether all names of a term, free, bound or binding, are letters. -/
def Term.Lettered (t : Term) : Prop := ∀ x ∈ t.names, IsLetter x

instance (t : Term) : Decidable t.Lettered := List.decidableBAll IsLetter t.names

theorem Term.Lettered.covers {t : Term} (lettered : t.Lettered) (supply : NameSupply) :
    supply.Covers t :=
  fun x occurs primed => ((lettered x occurs).not_primed primed).elim

theorem lettered_abs {p : Name} {body : Term} :
    (Term.abs p body).Lettered ↔ IsLetter p ∧ body.Lettered := List.forall_mem_cons

theorem lettered_app {function argument : Term} :
    (Term.app function argument).Lettered ↔ function.Lettered ∧ argument.Lettered :=
  List.forall_mem_append

theorem lettered_var {x : Name} : (Term.var x).Lettered ↔ IsLetter x := List.forall_mem_singleton

theorem lettered_foldl {function : Term} {arguments : List Term} (lettered : function.Lettered)
    (each : ∀ argument ∈ arguments, argument.Lettered) :
    (arguments.foldl Term.app function).Lettered := by
  induction arguments generalizing function with
  | nil => exact lettered
  | cons argument arguments ih =>
    obtain ⟨first, further⟩ := List.forall_mem_cons.1 each
    exact ih (lettered_app.2 ⟨lettered, first⟩) further

theorem Grammar.Derives.lettered {phrase : Phrase} {cs : List Char} {t : Term}
    (derives : Derives phrase cs t) : t.Lettered := by
  induction derives with
  | abstraction _ letter _ ih =>
    exact lettered_abs.2 ⟨isLetter_singleton letter.1 letter.2, ih⟩
  | application _ ih => exact ih
  | row _ _ ih ihs =>
    refine lettered_foldl ih ?_
    intro argument listed
    obtain ⟨atom, inRow, rfl⟩ := List.mem_map.1 listed
    exact ihs atom inRow
  | parens _ ih => exact ih
  | identifier letter => exact lettered_var.2 (isLetter_singleton letter.1 letter.2)

/-- Every name of a term that is read from a text is a letter. -/
theorem isLetter_of_parse {depth : Nat} {source : String} {t : Term}
    (read : parse depth source = .ok t) : t.Lettered :=
  (spells_of_parse read).2.lettered

end Redex
