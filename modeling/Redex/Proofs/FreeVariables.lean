import Redex.Proofs.Soundness

/-!
# Evaluation invents no free variable

A substitution may go wrong over bound names: from a supply that lacks a name of the terms at hand a
binder can take a name that is in use, even the one that is being replaced, and capture it. But a
name that goes astray in this way is bound, never free. So whatever the supply holds, the free
variables of a result are among those that the term and the replacement had
(`occursFree_of_subst`), hence every step (`Moves.occursFree`) and every run (`Walk.occursFree`)
keeps them within those of the term at the start.

The names that a supply gives away all carry a prime (`Walk.primed_used`). A term that was read has
no such name, so that none of them is ever free in its result.
-/

namespace Redex

namespace Term

/-! ## Substitution -/

/-- A free variable of a result was one of the term or of the replacement, whatever the supply. -/
theorem occursFree_of_subst {x : Name} (p : Name) (r t : Term) (supply : NameSupply)
    (found : (subst p r t supply).1.occursFree x = true) :
    (t.occursFree x = true ∧ x ≠ p) ∨ r.occursFree x = true := by
  induction p, r, t, supply using subst_induction with
  | variable_ p r y supply =>
    rw [subst_var] at found
    dsimp only at found
    split at found
    · exact Or.inr found
    · next other =>
      refine Or.inl ⟨found, ?_⟩
      simp only [occursFree, beq_iff_eq] at found
      rw [← found]
      exact other
  | application p r function argument supply ihf iha =>
    rw [subst_app] at found
    simp only [occursFree, Bool.or_eq_true] at found ⊢
    rcases found with inFunction | inArgument
    · exact (ihf inFunction).imp_left fun kept => ⟨Or.inl kept.1, kept.2⟩
    · exact (iha inArgument).imp_left fun kept => ⟨Or.inr kept.1, kept.2⟩
  | shadowed p r body supply =>
    rw [subst_abs_self] at found
    refine Or.inl ⟨found, ?_⟩
    simp only [occursFree, Bool.and_eq_true, bne_iff_ne] at found
    exact Ne.symm found.1
  | kept p r q body supply other safe ih =>
    rw [subst_abs_of_not_free other safe] at found
    simp only [occursFree, Bool.and_eq_true, bne_iff_ne] at found ⊢
    exact (ih found.2).imp_left fun kept => ⟨⟨found.1, kept.1⟩, kept.2⟩
  | renamed p r q body supply other captured ihq ihp =>
    rw [subst_abs_of_free other captured] at found
    simp only [occursFree, Bool.and_eq_true, bne_iff_ne] at found ⊢
    obtain ⟨notFresh, inBody⟩ := found
    -- The one name that renaming can bring in is the name of the new binder, which binds it.
    rcases ihp inBody with ⟨inRenamed, notP⟩ | inR
    · rcases ihq inRenamed with ⟨before, notQ⟩ | fresh
      · exact Or.inl ⟨⟨Ne.symm notQ, before⟩, notP⟩
      · simp only [occursFree, beq_iff_eq] at fresh
        exact absurd fresh notFresh
    · exact Or.inr inR

/-- A substitution gives away primed names only. -/
theorem primed_used_subst (p : Name) (r t : Term) (supply : NameSupply)
    (primed : ∀ x ∈ supply.used, Primed x) :
    ∀ x ∈ (subst p r t supply).2.used, Primed x := by
  induction p, r, t, supply using subst_induction with
  | variable_ p r y supply =>
    rw [subst_var]
    exact primed
  | application p r function argument supply ihf iha =>
    rw [subst_app]
    exact iha (ihf primed)
  | shadowed p r body supply =>
    rw [subst_abs_self]
    exact primed
  | kept p r q body supply other safe ih =>
    rw [subst_abs_of_not_free other safe]
    exact ih primed
  | renamed p r q body supply other captured ihq ihp =>
    rw [subst_abs_of_free other captured]
    apply ihp
    apply ihq
    rw [NameSupply.used_fresh, List.forall_mem_append, List.forall_mem_singleton]
    exact ⟨primed, supply.primed_fresh q⟩

/-! ## One step -/

/-- A step leaves no free variable that was not there before. -/
theorem Moves.occursFree {t : Term} {supply : NameSupply} {move : Move} {x : Name}
    (moves : Moves t supply move) (found : move.result.occursFree x = true) :
    t.occursFree x = true := by
  induction moves with
  | contract p body argument supply =>
    simp only [Term.occursFree, Bool.or_eq_true, Bool.and_eq_true, bne_iff_ne]
    rcases occursFree_of_subst p argument body supply found with ⟨inBody, notP⟩ | inArgument
    · exact Or.inl ⟨Ne.symm notP, inBody⟩
    · exact Or.inr inArgument
  | inBody p _ ih =>
    simp only [Move.within, Term.occursFree, Bool.and_eq_true] at found ⊢
    exact ⟨found.1, ih found.2⟩
  | inFunction argument _ ih =>
    simp only [Move.within, Term.occursFree, Bool.or_eq_true] at found ⊢
    exact found.imp_left ih
  | inArgument function _ ih =>
    simp only [Move.within, Term.occursFree, Bool.or_eq_true] at found ⊢
    exact found.imp_right ih

theorem Moves.primed_used {t : Term} {supply : NameSupply} {move : Move}
    (moves : Moves t supply move) (primed : ∀ x ∈ supply.used, Primed x) :
    ∀ x ∈ move.supply.used, Primed x := by
  induction moves with
  | contract p body argument supply => exact primed_used_subst p argument body supply primed
  | inBody p _ ih => exact ih primed
  | inFunction argument _ ih => exact ih primed
  | inArgument function _ ih => exact ih primed

end Term

/-! ## Whole runs -/

namespace Eval

section Walk

variable {budget : Int} {traced : Bool} {t u : Term} {run run' : Run} {redexes : List Term}

theorem Walk.occursFree {x : Name} (walk : Walk budget traced Term.step? t run redexes u run')
    (found : u.occursFree x = true) : t.occursFree x = true := by
  induction walk with
  | stay t run => exact found
  | move stepped _ _ ih => exact (Term.moves_of_step? stepped).occursFree (ih found)

theorem Walk.primed_used (walk : Walk budget traced Term.step? t run redexes u run')
    (primed : ∀ x ∈ run.names.used, Primed x) : ∀ x ∈ run'.names.used, Primed x := by
  induction walk with
  | stay t run => exact primed
  | move stepped _ _ ih => exact ih ((Term.moves_of_step? stepped).primed_used primed)

end Walk

/-- An evaluation makes up primed names only. -/
theorem primed_of_evaluate {settings : Settings} {t result : Term} {run : Run}
    (done : evaluate settings t = .ok result run) : ∀ x ∈ run.names.used, Primed x := by
  obtain ⟨redexes, last, walk, -, rfl⟩ := evaluate_ok done
  rw [names_conclude]
  exact walk.primed_used nofun

theorem freeVars_subset_of_evaluate {settings : Settings} {t result : Term} {run : Run}
    (done : evaluate settings t = .ok result run) : result.freeVars ⊆ t.freeVars := by
  obtain ⟨redexes, last, walk, -, -⟩ := evaluate_ok done
  intro x found
  rw [Term.mem_freeVars] at found ⊢
  exact walk.occursFree found

/-- Evaluation invents no free variable. Whatever names the terms and the supply hold, what is free
after a substitution is free in the replacement or, the replaced name apart, in the term; so the
free variables of a result are free in the term that is evaluated. If that was read from a text, no
primed name and none that the evaluation made up is free in the result. -/
theorem evaluate_invents_no_free_variable :
    (∀ (p : Name) (r t : Term) (supply : NameSupply), ∀ x ∈ (Term.subst p r t supply).1.freeVars,
        (x ∈ t.freeVars ∧ x ≠ p) ∨ x ∈ r.freeVars) ∧
      (∀ (settings : Settings) (t result : Term) (run : Run),
        evaluate settings t = .ok result run → result.freeVars ⊆ t.freeVars) ∧
      ∀ (nesting : Nat) (source : String) (t : Term), parse nesting source = .ok t →
        ∀ (settings : Settings) (result : Term) (run : Run),
          evaluate settings t = .ok result run →
          ∀ x ∈ result.freeVars, ¬Primed x ∧ x ∉ run.names.used := by
  refine ⟨?_, ?_, ?_⟩
  · intro p r t supply x found
    simp only [Term.mem_freeVars] at found ⊢
    exact Term.occursFree_of_subst p r t supply found
  · intro settings t result run done
    exact freeVars_subset_of_evaluate done
  · intro nesting source t read settings result run done x found
    have inTerm := Term.mem_freeVars.1 (freeVars_subset_of_evaluate done found)
    have letter := isLetter_of_parse read x (Term.mem_names_of_occursFree inTerm)
    have unprimed : ¬Primed x := letter.not_primed
    exact ⟨unprimed, fun drawn => unprimed (primed_of_evaluate done x drawn)⟩

/-- The new binder takes the very name that is being replaced, and its variable is lost to the
replacement; and yet `y` is all that is free, before and after. In the evaluation of a text the new
binder does no harm, and its name is not free either. -/
theorem evaluate_invents_no_free_variable_colliding :
    let body := Term.abs "y" (.app (.var "y") (.var "y'"))
    let t := Term.app (.abs "y'" body) (.var "y")
    let result := Term.abs "y'" (.app (.var "y") (.var "y"))
    let typed := Term.app (.abs "x" (.abs "y" (.app (.var "x") (.var "y")))) (.var "y")
    let answer := Term.abs "y'" (.app (.var "y") (.var "y'"))
    (Term.subst "y'" (.var "y") body {} = (result, ⟨["y'"]⟩) ∧
        ∀ x ∈ result.freeVars, (x ∈ body.freeVars ∧ x ≠ "y'") ∨ x ∈ (Term.var "y").freeVars) ∧
      (evaluate ⟨5, false, 20⟩ t = .ok result ⟨⟨["y'"]⟩, 1, #[]⟩ ∧
        result.freeVars ⊆ t.freeVars) ∧
      parse 20 "(\\x.\\y.x y) y" = .ok typed ∧
      evaluate ⟨5, false, 20⟩ typed = .ok answer ⟨⟨["y'"]⟩, 1, #[]⟩ ∧
      ∀ x ∈ answer.freeVars, ¬Primed x ∧ x ∉ ["y'"] := by
  intro body t result typed answer
  have replaced : Term.subst "y'" (.var "y") body {} = (result, ⟨["y'"]⟩) := by decide
  have done : evaluate ⟨5, false, 20⟩ t = .ok result ⟨⟨["y'"]⟩, 1, #[]⟩ := by decide +kernel
  have read : parse 20 "(\\x.\\y.x y) y" = .ok typed := by decide +kernel
  have answered : evaluate ⟨5, false, 20⟩ typed = .ok answer ⟨⟨["y'"]⟩, 1, #[]⟩ := by
    decide +kernel
  obtain ⟨ofSubst, ofEvaluate, ofParse⟩ := evaluate_invents_no_free_variable
  have fromSubst := ofSubst "y'" (.var "y") body {}
  rw [replaced] at fromSubst
  exact ⟨⟨replaced, fromSubst⟩, ⟨done, ofEvaluate _ _ _ _ done⟩, read, answered,
    ofParse _ _ _ read _ _ _ answered⟩

end Eval

end Redex
