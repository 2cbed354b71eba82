import Redex.Proofs.Freshness
import Redex.Proofs.Nameless

/-!
# Substitution captures nothing

Substitution is a matter of names: where a binder would capture, it is renamed, and the renamed body
is substituted into once more. On nameless forms it is a plain replacement, as long as the supply
covers the terms at hand. The core is `namelessIn_subst`: to read the result in an environment is to
read the term in the environment that gives the replaced name the form of the replacement. A redex
is the case in which that name is bound (`namelessUnder_subst`).
-/

namespace Redex.Term

open Nameless (bind)

/-- A binder that takes another name binds the same variable. -/
theorem update_bind_rename {p q name x : Name} (other : q ≠ p) (old : x ≠ name)
    (env : Name → Nameless) (r : Nameless) :
    Function.update (Function.update (bind name env) p (r.shift 0)) q (.bound 0) x =
      bind q (Function.update env p r) x := by
  rw [Nameless.bind_update_of_ne other]
  by_cases here : x = q
  · subst here
    rw [Function.update_self, Function.update_of_ne other, Nameless.bind_self]
  · rw [Function.update_of_ne here]
    by_cases replaced : x = p
    · rw [replaced, Function.update_self, Function.update_self]
    · rw [Function.update_of_ne replaced, Function.update_of_ne replaced,
        Nameless.bind_of_ne old, Nameless.bind_of_ne here]

/-- What is substituted for a name is what the environment gives it. -/
theorem namelessIn_subst {p : Name} {r t : Term} {supply : NameSupply}
    (inP : Primed p → p ∈ supply.used) (inR : supply.Covers r) (inT : supply.Covers t)
    (env : Name → Nameless) :
    (subst p r t supply).1.namelessIn env =
      t.namelessIn (Function.update env p (r.namelessIn env)) := by
  induction p, r, t, supply using subst_induction generalizing env with
  | variable_ p r x supply =>
    rw [subst_var]
    by_cases same : x = p
    · subst same
      simp only [↓reduceIte, namelessIn, Function.update_self]
    · simp only [if_neg same, namelessIn, Function.update_of_ne same]
  | application p r function argument supply ihf iha =>
    obtain ⟨inFunction, inArgument⟩ := NameSupply.covers_app.1 inT
    have grown := used_subst p r function supply
    rw [subst_app]
    simp only [namelessIn]
    rw [ihf inP inR inFunction env,
      iha (fun primed => grown (inP primed)) (inR.mono grown) (inArgument.mono grown) env]
  | shadowed p r body supply =>
    rw [subst_abs_self]
    simp only [namelessIn, Nameless.bind_update_self]
  | kept p r q body supply other safe ih =>
    obtain ⟨-, inBody⟩ := NameSupply.covers_abs.1 inT
    rw [subst_abs_of_not_free other safe]
    simp only [namelessIn]
    rw [ih inP inR inBody, namelessIn_bind safe, ← Nameless.bind_update_of_ne other]
  | renamed p r q body supply other captured ihq ihp =>
    obtain ⟨inQ, inBody⟩ := NameSupply.covers_abs.1 inT
    -- The fresh name is none of the names at hand, and the supply holds it during both passes.
    have notInR := occursFree_eq_false_of_not_mem (inR.fresh_not_mem_names q)
    have notInBody := occursFree_eq_false_of_not_mem (inBody.fresh_not_mem_names q)
    have notP : (supply.fresh q).1 ≠ p := fun same =>
      supply.fresh_not_mem q (same ▸ inP (same ▸ supply.primed_fresh q))
    have drawn : supply.used ⊆ (supply.fresh q).2.used := by simp
    have passed := used_subst q (var (supply.fresh q).1) body (supply.fresh q).2
    have grown := List.Subset.trans drawn passed
    have inRenamed : NameSupply.Covers _ _ :=
      covers_subst (p := q) (supply.covers_fresh q) (inBody.mono drawn)
    rw [subst_abs_of_free other captured]
    simp only [namelessIn]
    rw [ihp (fun primed => grown (inP primed)) (inR.mono grown) inRenamed,
      ihq (fun primed => drawn (inQ primed)) (supply.covers_fresh q) (inBody.mono drawn),
      namelessIn_bind notInR, namelessIn, Function.update_of_ne notP, Nameless.bind_self]
    congr 1
    apply namelessIn_congr
    intro x occurs
    apply update_bind_rename other
    intro same
    rw [same, notInBody] at occurs
    cases occurs

/-- Contracting a redex under a row of binders removes the binder of its function. -/
theorem namelessUnder_subst {p : Name} {argument body : Term} {supply : NameSupply}
    (covers : supply.Covers (.app (.abs p body) argument)) (binders : List Name) :
    (subst p argument body supply).1.namelessUnder binders =
      (body.namelessUnder (p :: binders)).instantiate 0 (argument.namelessUnder binders) := by
  obtain ⟨inFunction, inArgument⟩ := NameSupply.covers_app.1 covers
  obtain ⟨inP, inBody⟩ := NameSupply.covers_abs.1 inFunction
  rw [namelessUnder_eq, namelessUnder_eq, namelessUnder_eq, Nameless.resolve_cons,
    instantiate_namelessIn, Nameless.instantiate_bind, namelessIn_subst inP inArgument inBody]

theorem nameless_subst {p : Name} {r t : Term} {supply : NameSupply}
    (inP : Primed p → p ∈ supply.used) (inR : supply.Covers r) (inT : supply.Covers t) :
    (subst p r t supply).1.nameless = t.nameless.replace p r.nameless := by
  rw [nameless_eq, namelessIn_subst inP inR inT, ← nameless_eq, nameless_eq t,
    replace_namelessIn r.shift_nameless]
  apply namelessIn_congr
  intro x _
  by_cases same : x = p
  · subst same
    simp only [Function.update_self, Nameless.replace, ↓reduceIte]
  · simp only [Function.update_of_ne same, Nameless.replace, if_neg same]

theorem occursFree_subst {p : Name} {r t : Term} {supply : NameSupply}
    (inP : Primed p → p ∈ supply.used) (inR : supply.Covers r) (inT : supply.Covers t) (x : Name) :
    (subst p r t supply).1.occursFree x = true ↔
      (t.occursFree x = true ∧ x ≠ p) ∨ (t.occursFree p = true ∧ r.occursFree x = true) := by
  rw [← mentions_nameless, nameless_eq, namelessIn_subst inP inR inT, mentions_namelessIn,
    ← nameless_eq]
  constructor
  · intro found
    obtain ⟨y, inTerm, named⟩ := found
    by_cases same : y = p
    · subst same
      rw [Function.update_self, mentions_nameless] at named
      exact Or.inr ⟨inTerm, named⟩
    · rw [Function.update_of_ne same] at named
      simp only [Nameless.mentions, beq_iff_eq] at named
      subst named
      exact Or.inl ⟨inTerm, same⟩
  · intro found
    rcases found with ⟨inTerm, other⟩ | ⟨inTerm, inReplacement⟩
    · refine ⟨x, inTerm, ?_⟩
      rw [Function.update_of_ne other]
      simp [Nameless.mentions]
    · refine ⟨p, inTerm, ?_⟩
      rw [Function.update_self, mentions_nameless]
      exact inReplacement

/-! ## The law of substitution -/

/-- With a supply that holds every primed name at hand, substitution replaces the free occurrences
of a name in the nameless form. So the outcome depends neither on the bound names nor on which of
them were changed, the free variables are those that a replacement leaves and brings, and the supply
holds the primed names of the result. -/
theorem subst_avoids_capture {p : Name} {r t : Term} {supply : NameSupply}
    (inP : Primed p → p ∈ supply.used) (inR : supply.Covers r) (inT : supply.Covers t) :
    (subst p r t supply).1.nameless = t.nameless.replace p r.nameless ∧
      (∀ (r' t' : Term) (supply' : NameSupply), r.alphaEq r' = true → t.alphaEq t' = true →
        (Primed p → p ∈ supply'.used) → supply'.Covers r' → supply'.Covers t' →
        (subst p r t supply).1.alphaEq (subst p r' t' supply').1 = true) ∧
      (∀ x, x ∈ (subst p r t supply).1.freeVars ↔
        (x ∈ t.freeVars ∧ x ≠ p) ∨ (p ∈ t.freeVars ∧ x ∈ r.freeVars)) ∧
      (subst p r t supply).2.Covers (subst p r t supply).1 := by
  refine ⟨nameless_subst inP inR inT, ?_, ?_, covers_subst inR inT⟩
  · intro r' t' supply' sameR sameT inP' inR' inT'
    rw [alphaEq_iff] at sameR sameT ⊢
    rw [nameless_subst inP inR inT, nameless_subst inP' inR' inT', sameR, sameT]
  · intro x
    simp only [mem_freeVars]
    exact occursFree_subst inP inR inT x

/-- Under a binder that carries a prime already, the next binder takes another name. -/
theorem subst_avoids_capture_primed :
    let t := abs "y'" (abs "y" (app (app (var "y'") (var "y")) (var "p")))
    let supply : NameSupply := ⟨["y'"]⟩
    supply.Covers (var "y") ∧ supply.Covers t ∧
      subst "p" (var "y") t supply =
        (abs "y'" (abs "y'1" (app (app (var "y'") (var "y'1")) (var "y"))), ⟨["y'", "y'1"]⟩) ∧
      (subst "p" (var "y") t supply).1.nameless = t.nameless.replace "p" (var "y").nameless :=
  ⟨by decide, by decide, by decide,
    (subst_avoids_capture (by decide) (by decide) (by decide)).1⟩

end Redex.Term
