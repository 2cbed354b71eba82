import Redex.NameSupply

/-!
# Substitution without capture

`subst p r t supply` replaces the free occurrences of `p` in `t` by `r`. Where a binder of `t` would
capture a free variable of `r`, the binder takes a fresh name from the supply and its body is
renamed first; the supply is handed on from one part of the term to the next, the function of an
application before its argument.

`substWithin` is the same with a bound on the calls that may be nested, and fails if they are not
enough. The heights of the two terms are always enough, and more calls change nothing, so the bound
disappears: `subst_var`, `subst_app` and the three lemmas on `abs` say what substitution does to
each kind of term.
-/

namespace Redex.Term

/-- Substitution with at most `depth` nested calls; none if that is not enough. Under a binder of
another name, the search for free variables of `r` nests as many calls as `r` is high. -/
def substWithin : Nat → Name → Term → Term → NameSupply → Option (Term × NameSupply)
  | 0, _, _, _, _ => none
  | _ + 1, p, r, var x, supply => some (if x = p then r else var x, supply)
  | depth + 1, p, r, app function argument, supply => do
    let left ← substWithin depth p r function supply
    let right ← substWithin depth p r argument left.2
    return (app left.1 right.1, right.2)
  | depth + 1, p, r, abs q body, supply =>
    if q = p then some (abs q body, supply)
    else if depth < r.height then none
    else if r.occursFree q then do
      let name := supply.fresh q
      let renamed ← substWithin depth q (var name.1) body name.2
      let replaced ← substWithin depth p r renamed.1 renamed.2
      return (abs name.1 replaced.1, replaced.2)
    else do
      let replaced ← substWithin depth p r body supply
      return (abs q replaced.1, replaced.2)

/-- Replaces the free occurrences of `p` in `t` by `r` and renames the binders that would capture a
free variable of `r`. -/
def subst (p : Name) (r t : Term) (supply : NameSupply) : Term × NameSupply :=
  (substWithin (t.height + r.height) p r t supply).getD (t, supply)

/-! ## Nesting -/

/-- Renaming keeps the height of a term. -/
theorem height_substWithin_var {depth : Nat} {p x : Name} {t : Term} {supply : NameSupply}
    {result : Term × NameSupply} (done : substWithin depth p (var x) t supply = some result) :
    result.1.height = t.height := by
  induction depth generalizing p x t supply result with
  | zero => simp [substWithin] at done
  | succ depth ih =>
    cases t with
    | var y =>
      simp only [substWithin, Option.some.injEq] at done
      subst done
      dsimp only
      split <;> rfl
    | app function argument =>
      simp only [substWithin, bind, Option.bind_eq_some_iff, pure, Option.some.injEq] at done
      obtain ⟨left, leftDone, right, rightDone, rfl⟩ := done
      simp only [height, ih leftDone, ih rightDone]
    | abs q body =>
      simp only [substWithin] at done
      split at done
      · cases done; rfl
      · split at done
        · cases done
        · split at done
          · simp only [bind, Option.bind_eq_some_iff, pure, Option.some.injEq] at done
            obtain ⟨renamed, renamedDone, replaced, replacedDone, rfl⟩ := done
            simp only [height, ih replacedDone, ih renamedDone]
          · simp only [bind, Option.bind_eq_some_iff, pure, Option.some.injEq] at done
            obtain ⟨replaced, replacedDone, rfl⟩ := done
            simp only [height, ih replacedDone]

/-- More calls change nothing about a substitution that was done. -/
theorem substWithin_mono {depth depth' : Nat} {p : Name} {r t : Term} {supply : NameSupply}
    {result : Term × NameSupply} (done : substWithin depth p r t supply = some result)
    (more : depth ≤ depth') : substWithin depth' p r t supply = some result := by
  induction depth generalizing depth' p r t supply result with
  | zero => simp [substWithin] at done
  | succ depth ih =>
    obtain _ | depth' := depth'
    · omega
    have more : depth ≤ depth' := by omega
    cases t with
    | var y => exact done
    | app function argument =>
      simp only [substWithin, bind, Option.bind_eq_some_iff] at done ⊢
      obtain ⟨left, leftDone, right, rightDone, same⟩ := done
      exact ⟨left, ih leftDone more, right, ih rightDone more, same⟩
    | abs q body =>
      simp only [substWithin] at done ⊢
      split at done
      · next same => rw [if_pos same]; exact done
      · next other =>
        rw [if_neg other]
        split at done
        · cases done
        · next high =>
          rw [if_neg (by omega)]
          split at done
          · next captured =>
            rw [if_pos captured]
            simp only [bind, Option.bind_eq_some_iff] at done ⊢
            obtain ⟨renamed, renamedDone, replaced, replacedDone, same⟩ := done
            exact ⟨renamed, ih renamedDone more, replaced, ih replacedDone more, same⟩
          · next safe =>
            rw [if_neg safe]
            simp only [bind, Option.bind_eq_some_iff] at done ⊢
            obtain ⟨replaced, replacedDone, same⟩ := done
            exact ⟨replaced, ih replacedDone more, same⟩

/-- As many calls as the two terms are high are enough. -/
theorem exists_substWithin (depth : Nat) (p : Name) (r t : Term) (supply : NameSupply)
    (fits : t.height + r.height ≤ depth) :
    ∃ result, substWithin depth p r t supply = some result := by
  induction depth generalizing p r t supply with
  | zero =>
    have positive := t.height_pos
    omega
  | succ depth ih =>
    have bottom := r.height_pos
    cases t with
    | var y => exact ⟨_, rfl⟩
    | app function argument =>
      simp only [height] at fits
      obtain ⟨left, leftDone⟩ := ih p r function supply (by omega)
      obtain ⟨right, rightDone⟩ := ih p r argument left.2 (by omega)
      exact ⟨(app left.1 right.1, right.2), by simp [substWithin, leftDone, rightDone]⟩
    | abs q body =>
      simp only [height] at fits
      simp only [substWithin, if_neg (show ¬depth < r.height by omega)]
      split
      · exact ⟨_, rfl⟩
      · split
        · obtain ⟨renamed, renamedDone⟩ :=
            ih q (var (supply.fresh q).1) body (supply.fresh q).2 (by simp only [height]; omega)
          have kept := height_substWithin_var renamedDone
          obtain ⟨replaced, replacedDone⟩ := ih p r renamed.1 renamed.2 (by omega)
          exact ⟨(abs (supply.fresh q).1 replaced.1, replaced.2),
            by simp [renamedDone, replacedDone]⟩
        · obtain ⟨replaced, replacedDone⟩ := ih p r body supply (by omega)
          exact ⟨(abs q replaced.1, replaced.2), by simp [replacedDone]⟩

/-- With enough calls the bound makes no difference. -/
theorem substWithin_eq_subst (depth : Nat) (p : Name) (r t : Term) (supply : NameSupply)
    (fits : t.height + r.height ≤ depth) :
    substWithin depth p r t supply = some (subst p r t supply) := by
  obtain ⟨result, done⟩ := exists_substWithin (t.height + r.height) p r t supply (Nat.le_refl _)
  rw [subst, done, substWithin_mono done fits]
  rfl

/-- What is done within a bound is the substitution. -/
theorem eq_subst_of_substWithin {depth : Nat} {p : Name} {r t : Term} {supply : NameSupply}
    {result : Term × NameSupply} (done : substWithin depth p r t supply = some result) :
    result = subst p r t supply := by
  have ample := substWithin_mono done (Nat.le_max_left depth (t.height + r.height))
  rw [substWithin_eq_subst _ p r t supply (Nat.le_max_right ..)] at ample
  exact (Option.some.inj ample).symm

/-! ## One equation for each kind of term -/

/-- Renaming keeps the height of a term. -/
theorem height_subst_var (p x : Name) (t : Term) (supply : NameSupply) :
    (subst p (var x) t supply).1.height = t.height :=
  height_substWithin_var (substWithin_eq_subst _ p (var x) t supply (Nat.le_refl _))

theorem subst_var (p : Name) (r : Term) (x : Name) (supply : NameSupply) :
    subst p r (var x) supply = (if x = p then r else var x, supply) :=
  (eq_subst_of_substWithin (show substWithin 1 p r (var x) supply = _ from rfl)).symm

/-- Substitution goes through the function first and hands its supply on to the argument. -/
theorem subst_app (p : Name) (r function argument : Term) (supply : NameSupply) :
    subst p r (app function argument) supply =
      let left := subst p r function supply
      let right := subst p r argument left.2
      (app left.1 right.1, right.2) := by
  let depth := max function.height argument.height + r.height
  have left := substWithin_eq_subst depth p r function supply (by omega)
  have right := substWithin_eq_subst depth p r argument (subst p r function supply).2 (by omega)
  refine (eq_subst_of_substWithin (?_ : substWithin (depth + 1) p r _ supply = _)).symm
  simp only [substWithin, left, right, bind, Option.bind_some, pure]

/-- A binder of the replaced name ends the substitution. -/
theorem subst_abs_self (p : Name) (r body : Term) (supply : NameSupply) :
    subst p r (abs p body) supply = (abs p body, supply) := by
  refine (eq_subst_of_substWithin (?_ : substWithin 1 p r _ supply = _)).symm
  simp only [substWithin, ↓reduceIte]

/-- A binder that captures nothing keeps its name. -/
theorem subst_abs_of_not_free {p q : Name} {r : Term} (other : q ≠ p)
    (safe : r.occursFree q = false) (body : Term) (supply : NameSupply) :
    subst p r (abs q body) supply =
      let replaced := subst p r body supply
      (abs q replaced.1, replaced.2) := by
  let depth := body.height + r.height
  have replaced := substWithin_eq_subst depth p r body supply (Nat.le_refl _)
  refine (eq_subst_of_substWithin (?_ : substWithin (depth + 1) p r _ supply = _)).symm
  simp only [substWithin, if_neg other, if_neg (show ¬depth < r.height by omega), safe, replaced,
    Bool.false_eq_true, ↓reduceIte, bind, Option.bind_some, pure]

/-- A binder that would capture takes a fresh name, and its body is renamed first. -/
theorem subst_abs_of_free {p q : Name} {r : Term} (other : q ≠ p)
    (captured : r.occursFree q = true) (body : Term) (supply : NameSupply) :
    subst p r (abs q body) supply =
      let name := supply.fresh q
      let renamed := subst q (var name.1) body name.2
      let replaced := subst p r renamed.1 renamed.2
      (abs name.1 replaced.1, replaced.2) := by
  let depth := body.height + r.height
  let name := supply.fresh q
  let inner := subst q (var name.1) body name.2
  have bottom := r.height_pos
  have kept : inner.1.height = body.height := height_subst_var ..
  have renamed : substWithin depth q (var name.1) body name.2 = some inner :=
    substWithin_eq_subst depth q (var name.1) body name.2 (by simp only [height]; omega)
  have replaced := substWithin_eq_subst depth p r inner.1 inner.2 (by omega)
  refine (eq_subst_of_substWithin (?_ : substWithin (depth + 1) p r _ supply = _)).symm
  simp only [substWithin, if_neg other, if_neg (show ¬depth < r.height by omega), captured,
    ↓reduceIte, bind]
  rw [renamed, Option.bind_some, replaced]
  rfl

end Redex.Term
