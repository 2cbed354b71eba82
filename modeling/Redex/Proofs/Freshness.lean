import Redex.Term.Subst

/-!
# Fresh names and the names of a substitution

A supply gives away the first candidate that it does not hold (`fresh_spec`), and every candidate
carries a prime. A supply that holds all primed names of a term, which `Covers` says, therefore
never gives away a name of that term.

Substitution keeps this: `subst_induction` is its recursion as an induction principle, and by it the
supply only grows (`used_subst`) and every name of the result is a name of one of the two terms or
was given away (`mem_names_subst`).
-/

namespace Redex

/-- Whether a name carries a prime. -/
def Primed (x : Name) : Prop := '\'' ∈ x.toList

instance (x : Name) : Decidable (Primed x) := inferInstanceAs (Decidable (_ ∈ _))

namespace NameSupply

/-! ## Candidates -/

theorem toList_candidate (base : Name) (k : Nat) :
    (candidate base k).toList =
      base.toList ++ '\'' :: (if k = 0 then [] else Nat.toDigits 10 k) := by
  cases k with
  | zero => simp [candidate]
  | succ k => simp [candidate, Nat.toString_eq_repr, Nat.toList_repr]

theorem primed_candidate (base : Name) (k : Nat) : Primed (candidate base k) := by
  unfold Primed
  rw [toList_candidate]
  simp

theorem candidate_injective {base : Name} {j k : Nat} (same : candidate base j = candidate base k) :
    j = k := by
  have texts := congrArg String.toList same
  rw [toList_candidate, toList_candidate, List.append_cancel_left_eq, List.cons.injEq] at texts
  have numbers := congrArg (fun digits => Nat.ofDigitChars 10 digits 0) texts.2
  by_cases first : j = 0 <;> by_cases second : k = 0
  · rw [first, second]
  · simp [first, second, Nat.toDigits_ne_nil.symm] at texts
  · simp [first, second, Nat.toDigits_ne_nil] at texts
  · simpa [first, second, Nat.ofDigitChars_ten_toDigits] using numbers

/-- The search from the `k`-th candidate on passes over taken ones only. Striking a taken candidate
off the list hides none of the later ones, since no two candidates are equal. -/
theorem firstFree_spec (base : Name) (taken : List Name) (k : Nat) :
    ∃ j, k ≤ j ∧ firstFree base taken k = candidate base j ∧ candidate base j ∉ taken ∧
      ∀ i, k ≤ i → i < j → candidate base i ∈ taken := by
  fun_induction firstFree base taken k with
  | case1 taken k met ih =>
    obtain ⟨j, later, found, free, passed⟩ := ih
    have differs : candidate base j ≠ candidate base k := fun same => by
      have := candidate_injective same
      omega
    refine ⟨j, by omega, found, ?_, ?_⟩
    · intro held
      exact free ((List.mem_erase_of_ne differs).2 held)
    · intro i from_k below
      by_cases here : i = k
      · rw [here]
        exact met
      · exact List.mem_of_mem_erase (passed i (by omega) below)
  | case2 taken k free =>
    exact ⟨k, Nat.le_refl k, rfl, free, fun i from_k below => by omega⟩

/-- A fresh name is the first candidate that the supply does not hold. -/
theorem fresh_spec (supply : NameSupply) (base : Name) :
    ∃ j, (supply.fresh base).1 = candidate base j ∧ candidate base j ∉ supply.used ∧
      ∀ i < j, candidate base i ∈ supply.used := by
  obtain ⟨j, -, found, free, passed⟩ := firstFree_spec base supply.used 0
  exact ⟨j, found, free, fun i below => passed i (Nat.zero_le i) below⟩

theorem fresh_not_mem (supply : NameSupply) (base : Name) :
    (supply.fresh base).1 ∉ supply.used := by
  obtain ⟨j, found, free, -⟩ := supply.fresh_spec base
  rw [found]
  exact free

theorem primed_fresh (supply : NameSupply) (base : Name) : Primed (supply.fresh base).1 := by
  obtain ⟨j, found, -, -⟩ := supply.fresh_spec base
  rw [found]
  exact primed_candidate base j

/-- Whether a supply holds every primed name of a term, free or bound. -/
def Covers (supply : NameSupply) (t : Term) : Prop := ∀ x ∈ t.names, Primed x → x ∈ supply.used

instance (supply : NameSupply) (t : Term) : Decidable (supply.Covers t) :=
  inferInstanceAs (Decidable (∀ x ∈ _, _))

theorem Covers.mono {supply supply' : NameSupply} {t : Term} (covers : supply.Covers t)
    (grown : supply.used ⊆ supply'.used) : supply'.Covers t :=
  fun x occurs primed => grown (covers x occurs primed)

theorem covers_abs {supply : NameSupply} {p : Name} {body : Term} :
    supply.Covers (.abs p body) ↔ (Primed p → p ∈ supply.used) ∧ supply.Covers body := by
  simp [Covers, Term.names]

theorem covers_app {supply : NameSupply} {function argument : Term} :
    supply.Covers (.app function argument) ↔
      supply.Covers function ∧ supply.Covers argument := by
  simp only [Covers, Term.names, List.mem_append, or_imp, forall_and]

theorem covers_fresh (supply : NameSupply) (base : Name) :
    (supply.fresh base).2.Covers (.var (supply.fresh base).1) := by
  intro x occurs primed
  rw [used_fresh]
  exact List.mem_append_right _ occurs

/-- A fresh name is no name of a covered term. -/
theorem Covers.fresh_not_mem_names {supply : NameSupply} {t : Term} (covers : supply.Covers t)
    (base : Name) : (supply.fresh base).1 ∉ t.names :=
  fun occurs => supply.fresh_not_mem base (covers _ occurs (supply.primed_fresh base))

end NameSupply

namespace Term

theorem mem_names_of_occursFree {x : Name} {t : Term} (inTerm : t.occursFree x = true) :
    x ∈ t.names := by
  induction t with
  | var y =>
    simp only [occursFree, beq_iff_eq] at inTerm
    simp [names, inTerm]
  | abs p body ih =>
    simp only [occursFree, Bool.and_eq_true] at inTerm
    exact List.mem_cons_of_mem p (ih inTerm.2)
  | app function argument ihf iha =>
    simp only [occursFree, Bool.or_eq_true] at inTerm
    exact List.mem_append.2 (inTerm.imp ihf iha)

theorem occursFree_eq_false_of_not_mem {x : Name} {t : Term} (absent : x ∉ t.names) :
    t.occursFree x = false := by
  rw [Bool.eq_false_iff]
  exact fun inTerm => absent (mem_names_of_occursFree inTerm)

/-! ## Induction along a substitution -/

/-- What holds of a substitution if it holds of those that it is made of. The body of a binder that
takes a fresh name is not a part of the term once it is renamed, but it is as high as before. -/
@[elab_as_elim]
theorem subst_induction {motive : Name → Term → Term → NameSupply → Prop}
    (variable_ : ∀ p r x supply, motive p r (var x) supply)
    (application : ∀ p r function argument supply, motive p r function supply →
      motive p r argument (subst p r function supply).2 →
      motive p r (app function argument) supply)
    (shadowed : ∀ p r body supply, motive p r (abs p body) supply)
    (kept : ∀ p r q body supply, q ≠ p → r.occursFree q = false → motive p r body supply →
      motive p r (abs q body) supply)
    (renamed : ∀ p r q body supply, q ≠ p → r.occursFree q = true →
      motive q (var (supply.fresh q).1) body (supply.fresh q).2 →
      motive p r (subst q (var (supply.fresh q).1) body (supply.fresh q).2).1
        (subst q (var (supply.fresh q).1) body (supply.fresh q).2).2 →
      motive p r (abs q body) supply)
    (p : Name) (r t : Term) (supply : NameSupply) : motive p r t supply := by
  generalize bound : t.height = height
  induction height using Nat.strongRecOn generalizing p r t supply with
  | ind height ih =>
    subst bound
    cases t with
    | var x => exact variable_ p r x supply
    | app function argument =>
      simp only [height] at ih
      exact application p r function argument supply (ih _ (by omega) p r function supply rfl)
        (ih _ (by omega) p r argument _ rfl)
    | abs q body =>
      simp only [height] at ih
      by_cases same : q = p
      · rw [same]
        exact shadowed p r body supply
      · cases captured : r.occursFree q with
        | false => exact kept p r q body supply same captured (ih _ (by omega) p r body supply rfl)
        | true =>
          refine renamed p r q body supply same captured (ih _ (by omega) _ _ body _ rfl) ?_
          refine ih _ ?_ p r _ _ rfl
          rw [height_subst_var]
          omega

/-! ## Names and supplies -/

/-- A substitution gives no name back. -/
theorem used_subst (p : Name) (r t : Term) (supply : NameSupply) :
    supply.used ⊆ (subst p r t supply).2.used := by
  induction p, r, t, supply using subst_induction with
  | variable_ p r x supply =>
    rw [subst_var]
    exact List.Subset.refl _
  | application p r function argument supply ihf iha =>
    rw [subst_app]
    exact List.Subset.trans ihf iha
  | shadowed p r body supply =>
    rw [subst_abs_self]
    exact List.Subset.refl _
  | kept p r q body supply other safe ih =>
    rw [subst_abs_of_not_free other safe]
    exact ih
  | renamed p r q body supply other captured ihq ihp =>
    rw [subst_abs_of_free other captured]
    refine List.Subset.trans ?_ (List.Subset.trans ihq ihp)
    rw [NameSupply.used_fresh]
    exact List.subset_append_left _ _

/-- Every name of the result is a name of one of the terms, or was given away. -/
theorem mem_names_subst {x : Name} (p : Name) (r t : Term) (supply : NameSupply)
    (occurs : x ∈ (subst p r t supply).1.names) :
    x ∈ t.names ∨ x ∈ r.names ∨ x ∈ (subst p r t supply).2.used := by
  induction p, r, t, supply using subst_induction with
  | variable_ p r y supply =>
    rw [subst_var] at occurs
    dsimp only at occurs
    split at occurs
    · exact Or.inr (Or.inl occurs)
    · exact Or.inl occurs
  | application p r function argument supply ihf iha =>
    rw [subst_app] at occurs ⊢
    simp only [names, List.mem_append] at occurs ⊢
    rcases occurs with left | right
    · rcases ihf left with inFunction | inR | given
      · exact Or.inl (Or.inl inFunction)
      · exact Or.inr (Or.inl inR)
      · exact Or.inr (Or.inr (used_subst p r argument _ given))
    · rcases iha right with inArgument | inR | given
      · exact Or.inl (Or.inr inArgument)
      · exact Or.inr (Or.inl inR)
      · exact Or.inr (Or.inr given)
  | shadowed p r body supply =>
    rw [subst_abs_self] at occurs
    exact Or.inl occurs
  | kept p r q body supply other safe ih =>
    rw [subst_abs_of_not_free other safe] at occurs ⊢
    simp only [names, List.mem_cons] at occurs ⊢
    rcases occurs with here | below
    · exact Or.inl (Or.inl here)
    · rcases ih below with inBody | inR | given
      · exact Or.inl (Or.inr inBody)
      · exact Or.inr (Or.inl inR)
      · exact Or.inr (Or.inr given)
  | renamed p r q body supply other captured ihq ihp =>
    rw [subst_abs_of_free other captured] at occurs ⊢
    simp only [names, List.mem_cons] at occurs ihq ⊢
    -- The name of the new binder was given away before both passes over the body.
    let inner := subst q (var (supply.fresh q).1) body (supply.fresh q).2
    have given : (supply.fresh q).1 ∈ (subst p r inner.1 inner.2).2.used := by
      apply used_subst p r inner.1 inner.2
      apply used_subst q (var (supply.fresh q).1) body (supply.fresh q).2
      simp
    rcases occurs with here | below
    · rw [here]
      exact Or.inr (Or.inr given)
    · rcases ihp below with inRenamed | inR | taken
      · rcases ihq inRenamed with inBody | fresh | taken
        · exact Or.inl (Or.inr inBody)
        · rw [List.mem_singleton.1 (List.mem_cons.2 fresh)]
          exact Or.inr (Or.inr given)
        · exact Or.inr (Or.inr (used_subst p r _ _ taken))
      · exact Or.inr (Or.inl inR)
      · exact Or.inr (Or.inr taken)

/-- A supply that covers the terms of a substitution covers the result afterwards. -/
theorem covers_subst {p : Name} {r t : Term} {supply : NameSupply} (inR : supply.Covers r)
    (inT : supply.Covers t) : (subst p r t supply).2.Covers (subst p r t supply).1 := by
  intro x occurs primed
  have grown := used_subst p r t supply
  rcases mem_names_subst p r t supply occurs with fromT | fromR | given
  · exact grown (inT x fromT primed)
  · exact grown (inR x fromR primed)
  · exact given

end Term

end Redex
