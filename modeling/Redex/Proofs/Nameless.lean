import Mathlib.Logic.Function.Basic
import Redex.Term.Alpha

/-!
# Nameless forms

In the nameless form of a term a bound variable is the number of binders between it and its own,
and a free variable keeps its name. Two terms differ in bound names only exactly if their nameless
forms are equal (`alphaEq_iff`), so the form is what a term means.

* `Nameless.replace` puts a form in the place of a free name, `Nameless.instantiate` in the place of
  the variable of a binder that is removed: the argument of a redex in the body of its function.
* `Term.namelessIn` reads a term in an environment, which gives every name a form. The form under a
  row of binders is the special case where the environment resolves names against the row
  (`namelessUnder_eq`). Replacing, shifting and instantiating all go through to the environment, so
  that a law about substitution is an equation between two environments.
-/

namespace Redex

/-- A term without bound names. -/
inductive Nameless where
  | free (name : Name)
  | bound (index : Nat)
  | abs (body : Nameless)
  | app (function argument : Nameless)
deriving DecidableEq, Repr

namespace Nameless

/-- Makes room for one more binder outside of the innermost `k`. -/
def shift (k : Nat) : Nameless → Nameless
  | free x => free x
  | bound i => bound (if i < k then i else i + 1)
  | abs body => abs (body.shift (k + 1))
  | app function argument => app (function.shift k) (argument.shift k)

/-- Removes the binder outside of the innermost `k` and puts `r` in the place of its variable. -/
def instantiate : Nameless → Nat → Nameless → Nameless
  | free x, _, _ => free x
  | bound i, k, r => if i < k then bound i else if i = k then r else bound (i - 1)
  | abs body, k, r => abs (body.instantiate (k + 1) (r.shift 0))
  | app function argument, k, r => app (function.instantiate k r) (argument.instantiate k r)

/-- Puts `r`, which has no bound variable of an outer binder, in the place of a free name. -/
def replace : Nameless → Name → Nameless → Nameless
  | free x, p, r => if x = p then r else free x
  | bound i, _, _ => bound i
  | abs body, p, r => abs (body.replace p r)
  | app function argument, p, r => app (function.replace p r) (argument.replace p r)

/-- Whether a name occurs. -/
def mentions (x : Name) : Nameless → Bool
  | free y => y == x
  | bound _ => false
  | abs body => body.mentions x
  | app function argument => function.mentions x || argument.mentions x

/-- What a name stands for under a row of binders, the innermost first. -/
def resolve (binders : List Name) (x : Name) : Nameless :=
  match binders.idxOf? x with
  | some i => bound i
  | none => free x

end Nameless

namespace Term

/-- The nameless form of a term under a row of binders, the innermost first. -/
def namelessUnder (binders : List Name) : Term → Nameless
  | var x => Nameless.resolve binders x
  | abs p body => .abs (body.namelessUnder (p :: binders))
  | app function argument =>
    .app (function.namelessUnder binders) (argument.namelessUnder binders)

/-- The nameless form of a whole term. -/
def nameless (t : Term) : Nameless := t.namelessUnder []

end Term

namespace Nameless

/-! ## Shifting and instantiating -/

theorem shift_shift {j k : Nat} (inner : j ≤ k) (n : Nameless) :
    (n.shift j).shift (k + 1) = (n.shift k).shift j := by
  induction n generalizing j k with
  | free x => rfl
  | bound i =>
    simp only [shift, bound.injEq]
    grind
  | abs body ih =>
    simp only [shift, abs.injEq]
    exact ih (Nat.succ_le_succ inner)
  | app function argument ihf iha =>
    simp only [shift, ihf inner, iha inner]

theorem instantiate_shift (k : Nat) (r n : Nameless) : (n.shift k).instantiate k r = n := by
  induction n generalizing k r with
  | free x => rfl
  | bound i =>
    simp only [shift, instantiate]
    by_cases low : i < k
    · rw [if_pos low, if_pos low]
    · rw [if_neg low, if_neg (by omega), if_neg (by omega), Nat.add_sub_cancel]
  | abs body ih => simp only [shift, instantiate, ih]
  | app function argument ihf iha => simp only [shift, instantiate, ihf, iha]

theorem instantiate_shift_shift {j k : Nat} (inner : j ≤ k) (r n : Nameless) :
    (n.shift j).instantiate (k + 1) (r.shift j) = (n.instantiate k r).shift j := by
  induction n generalizing j k r with
  | free x => rfl
  | bound i =>
    simp only [shift, instantiate]
    by_cases low : i < k
    · rw [if_pos low, if_pos (by split <;> omega)]
      rfl
    · rw [if_neg low, if_neg (show ¬i < j by omega), if_neg (show ¬i + 1 < k + 1 by omega)]
      by_cases here : i = k
      · rw [if_pos here, if_pos (by omega)]
      · rw [if_neg here, if_neg (by omega)]
        simp only [shift, bound.injEq]
        rw [if_neg (by omega)]
        omega
  | abs body ih =>
    simp only [shift, instantiate, abs.injEq]
    rw [← ih (Nat.succ_le_succ inner), shift_shift (Nat.zero_le j)]
  | app function argument ihf iha => simp only [shift, instantiate, ihf inner, iha inner]

theorem shift_injective {n m : Nameless} {k : Nat} (same : n.shift k = m.shift k) : n = m := by
  rw [← instantiate_shift k (free "") n, same, instantiate_shift]

theorem shift_ne_bound (n : Nameless) : n.shift 0 ≠ bound 0 := by
  cases n <;> simp [shift]

theorem mentions_shift (x : Name) (k : Nat) (n : Nameless) :
    (n.shift k).mentions x = n.mentions x := by
  induction n generalizing k with
  | free y => rfl
  | bound i => rfl
  | abs body ih => exact ih (k + 1)
  | app function argument ihf iha => simp only [shift, mentions, ihf, iha]

theorem replace_shift {p : Name} {r : Nameless} (closed : ∀ k, r.shift k = r) (k : Nat)
    (n : Nameless) : (n.shift k).replace p r = (n.replace p r).shift k := by
  induction n generalizing k with
  | free x =>
    simp only [shift, replace]
    split
    · exact (closed k).symm
    · rfl
  | bound i => rfl
  | abs body ih => simp only [shift, replace, ih]
  | app function argument ihf iha => simp only [shift, replace, ihf, iha]

/-! ## Environments -/

/-- The environment under one more binder. -/
def bind (p : Name) (env : Name → Nameless) : Name → Nameless := fun x =>
  if x = p then bound 0 else (env x).shift 0

theorem bind_self (p : Name) (env : Name → Nameless) : bind p env p = bound 0 := if_pos rfl

theorem bind_of_ne {p x : Name} (other : x ≠ p) (env : Name → Nameless) :
    bind p env x = (env x).shift 0 := if_neg other

theorem resolve_nil : resolve [] = free := rfl

theorem resolve_cons (p : Name) (binders : List Name) :
    resolve (p :: binders) = bind p (resolve binders) := by
  funext x
  by_cases same : x = p
  · subst same
    rw [bind_self]
    simp [resolve, List.idxOf?_cons]
  · rw [bind_of_ne same]
    have other : (p == x) = false := beq_false_of_ne fun equal => same equal.symm
    simp only [resolve, List.idxOf?_cons, other]
    cases binders.idxOf? x <;> rfl

theorem resolve_ne_abs (binders : List Name) (x : Name) (body : Nameless) :
    resolve binders x ≠ abs body := by
  unfold resolve
  split <;> simp

theorem resolve_ne_app (binders : List Name) (x : Name) (function argument : Nameless) :
    resolve binders x ≠ app function argument := by
  unfold resolve
  split <;> simp

theorem bind_shift (p : Name) (env : Name → Nameless) (k : Nat) :
    (fun x => (bind p env x).shift (k + 1)) = bind p fun x => (env x).shift k := by
  funext x
  by_cases same : x = p
  · rw [same, bind_self, bind_self]
    rfl
  · rw [bind_of_ne same, bind_of_ne same]
    exact shift_shift (Nat.zero_le k) (env x)

theorem bind_instantiate (p : Name) (env : Name → Nameless) (k : Nat) (r : Nameless) :
    (fun x => (bind p env x).instantiate (k + 1) (r.shift 0)) =
      bind p fun x => (env x).instantiate k r := by
  funext x
  by_cases same : x = p
  · rw [same, bind_self, bind_self]
    simp [instantiate]
  · rw [bind_of_ne same, bind_of_ne same]
    exact instantiate_shift_shift (Nat.zero_le k) r (env x)

theorem bind_replace {q : Name} {r : Nameless} (closed : ∀ k, r.shift k = r) (p : Name)
    (env : Name → Nameless) :
    (fun x => (bind p env x).replace q r) = bind p fun x => (env x).replace q r := by
  funext x
  by_cases same : x = p
  · rw [same, bind_self, bind_self]
    rfl
  · rw [bind_of_ne same, bind_of_ne same]
    exact replace_shift closed 0 (env x)

/-- Removing the binder that was added last gives its variable a value. -/
theorem instantiate_bind (p : Name) (env : Name → Nameless) (r : Nameless) :
    (fun x => (bind p env x).instantiate 0 r) = Function.update env p r := by
  funext x
  by_cases same : x = p
  · subst same
    rw [bind_self, Function.update_self]
    rfl
  · rw [bind_of_ne same, Function.update_of_ne same]
    exact instantiate_shift 0 r (env x)

theorem bind_update_of_ne {p q : Name} (other : q ≠ p) (env : Name → Nameless) (r : Nameless) :
    bind q (Function.update env p r) = Function.update (bind q env) p (r.shift 0) := by
  funext x
  by_cases same : x = p
  · subst same
    rw [Function.update_self, bind_of_ne (Ne.symm other), Function.update_self]
  · rw [Function.update_of_ne same]
    simp only [bind, Function.update_of_ne same]

theorem bind_update_self (p : Name) (env : Name → Nameless) (r : Nameless) :
    bind p (Function.update env p r) = bind p env := by
  funext x
  by_cases same : x = p
  · rw [same, bind_self, bind_self]
  · rw [bind_of_ne same, bind_of_ne same, Function.update_of_ne same]

end Nameless

namespace Term

open Nameless (bind)

/-- The nameless form of a term whose free names have the forms that an environment gives them. -/
def namelessIn (env : Name → Nameless) : Term → Nameless
  | var x => env x
  | abs p body => .abs (body.namelessIn (bind p env))
  | app function argument => .app (function.namelessIn env) (argument.namelessIn env)

theorem namelessUnder_eq (t : Term) (binders : List Name) :
    t.namelessUnder binders = t.namelessIn (Nameless.resolve binders) := by
  induction t generalizing binders with
  | var x => rfl
  | abs p body ih => simp only [namelessUnder, namelessIn, ih, Nameless.resolve_cons]
  | app function argument ihf iha => simp only [namelessUnder, namelessIn, ihf, iha]

theorem nameless_eq (t : Term) : t.nameless = t.namelessIn .free := t.namelessUnder_eq []

/-- Only the free names of a term are looked up. -/
theorem namelessIn_congr {t : Term} {env env' : Name → Nameless}
    (agree : ∀ x, t.occursFree x = true → env x = env' x) :
    t.namelessIn env = t.namelessIn env' := by
  induction t generalizing env env' with
  | var x => exact agree x (beq_self_eq_true x)
  | abs p body ih =>
    simp only [namelessIn, Nameless.abs.injEq]
    apply ih
    intro x inBody
    by_cases same : x = p
    · rw [same, Nameless.bind_self, Nameless.bind_self]
    · rw [Nameless.bind_of_ne same, Nameless.bind_of_ne same, agree x]
      simp only [occursFree, inBody, Bool.and_true, bne_iff_ne, ne_eq]
      exact fun equal => same equal.symm
  | app function argument ihf iha =>
    simp only [occursFree, Bool.or_eq_true] at agree
    simp only [namelessIn, ihf fun x inFunction => agree x (Or.inl inFunction),
      iha fun x inArgument => agree x (Or.inr inArgument)]

theorem shift_namelessIn (t : Term) (env : Name → Nameless) (k : Nat) :
    (t.namelessIn env).shift k = t.namelessIn fun x => (env x).shift k := by
  induction t generalizing env k with
  | var x => rfl
  | abs p body ih =>
    simp only [namelessIn, Nameless.shift, Nameless.abs.injEq]
    rw [ih, Nameless.bind_shift]
  | app function argument ihf iha => simp only [namelessIn, Nameless.shift, ihf, iha]

theorem shift_nameless (t : Term) (k : Nat) : t.nameless.shift k = t.nameless := by
  rw [nameless_eq, shift_namelessIn]
  rfl

/-- A binder that binds nothing only makes room for itself. -/
theorem namelessIn_bind {p : Name} {t : Term} (absent : t.occursFree p = false)
    (env : Name → Nameless) : t.namelessIn (bind p env) = (t.namelessIn env).shift 0 := by
  rw [shift_namelessIn]
  apply namelessIn_congr
  intro x inTerm
  apply Nameless.bind_of_ne
  intro same
  rw [same, absent] at inTerm
  cases inTerm

theorem instantiate_namelessIn (t : Term) (env : Name → Nameless) (k : Nat) (r : Nameless) :
    (t.namelessIn env).instantiate k r = t.namelessIn fun x => (env x).instantiate k r := by
  induction t generalizing env k r with
  | var x => rfl
  | abs p body ih =>
    simp only [namelessIn, Nameless.instantiate, Nameless.abs.injEq]
    rw [ih, Nameless.bind_instantiate]
  | app function argument ihf iha => simp only [namelessIn, Nameless.instantiate, ihf, iha]

theorem replace_namelessIn {q : Name} {r : Nameless} (closed : ∀ k, r.shift k = r) (t : Term)
    (env : Name → Nameless) :
    (t.namelessIn env).replace q r = t.namelessIn fun x => (env x).replace q r := by
  induction t generalizing env with
  | var x => rfl
  | abs p body ih =>
    simp only [namelessIn, Nameless.replace, Nameless.abs.injEq]
    rw [ih, Nameless.bind_replace closed]
  | app function argument ihf iha => simp only [namelessIn, Nameless.replace, ihf, iha]

theorem mentions_namelessIn (x : Name) (t : Term) (env : Name → Nameless) :
    (t.namelessIn env).mentions x = true ↔
      ∃ y, t.occursFree y = true ∧ (env y).mentions x = true := by
  induction t generalizing env with
  | var y => simp [namelessIn, occursFree]
  | abs p body ih =>
    simp only [namelessIn, Nameless.mentions, ih, occursFree, Bool.and_eq_true, bne_iff_ne]
    refine exists_congr fun y => ?_
    by_cases same : y = p
    · simp [same, Nameless.bind_self, Nameless.mentions]
    · rw [Nameless.bind_of_ne same, Nameless.mentions_shift]
      simp [Ne.symm same]
  | app function argument ihf iha =>
    simp only [namelessIn, Nameless.mentions, Bool.or_eq_true, ihf, iha, occursFree, or_and_right,
      exists_or]

/-- The free variables of a term are the names in its nameless form. -/
theorem mentions_nameless (x : Name) (t : Term) : t.nameless.mentions x = t.occursFree x := by
  rw [Bool.eq_iff_iff, nameless_eq, mentions_namelessIn]
  simp [Nameless.mentions]

/-! ## Equality up to bound names -/

theorem sameVar_iff (pairs : List (Name × Name)) (x y : Name) :
    sameVar pairs x y = true ↔
      Nameless.resolve (pairs.map Prod.fst) x = Nameless.resolve (pairs.map Prod.snd) y := by
  induction pairs with
  | nil => simp [sameVar, Nameless.resolve_nil]
  | cons pair pairs ih =>
    obtain ⟨p, q⟩ := pair
    simp only [sameVar, List.map_cons, Nameless.resolve_cons]
    by_cases left : x = p <;> by_cases right : y = q
    · simp [left, right, Nameless.bind_self]
    · rw [left, Nameless.bind_self, Nameless.bind_of_ne right]
      simp [right, Ne.symm (Nameless.shift_ne_bound _)]
    · rw [right, Nameless.bind_self, Nameless.bind_of_ne left]
      simp [left, Nameless.shift_ne_bound]
    · rw [Nameless.bind_of_ne left, Nameless.bind_of_ne right, if_neg (by simp [left, right]), ih]
      exact ⟨fun same => by rw [same], Nameless.shift_injective⟩

theorem alphaEqUnder_iff (pairs : List (Name × Name)) (t u : Term) :
    alphaEqUnder pairs t u = true ↔
      t.namelessUnder (pairs.map Prod.fst) = u.namelessUnder (pairs.map Prod.snd) := by
  induction t generalizing pairs u with
  | var x =>
    cases u with
    | var y => exact sameVar_iff pairs x y
    | abs q body => simp [alphaEqUnder, namelessUnder, Nameless.resolve_ne_abs]
    | app function argument => simp [alphaEqUnder, namelessUnder, Nameless.resolve_ne_app]
  | abs p body ih =>
    cases u with
    | var y => simp [alphaEqUnder, namelessUnder, Ne.symm (Nameless.resolve_ne_abs _ _ _)]
    | abs q body' =>
      simp only [alphaEqUnder, namelessUnder, Nameless.abs.injEq]
      exact ih ((p, q) :: pairs) body'
    | app function argument => simp [alphaEqUnder, namelessUnder]
  | app function argument ihf iha =>
    cases u with
    | var y => simp [alphaEqUnder, namelessUnder, Ne.symm (Nameless.resolve_ne_app _ _ _ _)]
    | abs q body => simp [alphaEqUnder, namelessUnder]
    | app function' argument' =>
      simp only [alphaEqUnder, namelessUnder, Bool.and_eq_true, Nameless.app.injEq, ihf, iha]

/-- Two terms differ in bound names only exactly if they have the same nameless form. -/
theorem alphaEq_iff (t u : Term) : t.alphaEq u = true ↔ t.nameless = u.nameless :=
  alphaEqUnder_iff [] t u

/-- A binder outside of all others, of the same name on both sides, makes no difference. -/
theorem sameVar_append {pairs : List (Name × Name)} {x y : Name} (p : Name)
    (same : sameVar pairs x y = true) : sameVar (pairs ++ [(p, p)]) x y = true := by
  induction pairs with
  | nil =>
    have equal : x = y := by simpa [sameVar] using same
    by_cases bound : y = p <;> simp [sameVar, equal, bound]
  | cons pair pairs ih =>
    simp only [sameVar, List.cons_append] at same ⊢
    split at same
    · next bound => rw [if_pos bound, same]
    · next free => rw [if_neg free, ih same]

theorem alphaEqUnder_append {pairs : List (Name × Name)} {t u : Term} (p : Name)
    (same : alphaEqUnder pairs t u = true) : alphaEqUnder (pairs ++ [(p, p)]) t u = true := by
  induction t generalizing pairs u with
  | var x =>
    cases u with
    | var y => exact sameVar_append p same
    | abs q body => cases same
    | app function argument => cases same
  | abs q body ih =>
    cases u with
    | var y => cases same
    | abs q' body' => exact ih same
    | app function argument => cases same
  | app function argument ihf iha =>
    cases u with
    | var y => cases same
    | abs q body => cases same
    | app function' argument' =>
      simp only [alphaEqUnder, Bool.and_eq_true] at same ⊢
      exact ⟨ihf same.1, iha same.2⟩

theorem alphaEq_abs {t u : Term} (p : Name) (same : t.alphaEq u = true) :
    (abs p t).alphaEq (abs p u) = true :=
  alphaEqUnder_append p same

theorem alphaEq_app {function function' argument argument' : Term}
    (left : function.alphaEq function' = true) (right : argument.alphaEq argument' = true) :
    (app function argument).alphaEq (app function' argument') = true :=
  Bool.and_eq_true_iff.2 ⟨left, right⟩

/-- Giving the variable of the outermost binder its name back undoes the binder. -/
theorem instantiate_namelessUnder (p : Name) (t : Term) :
    (t.namelessUnder [p]).instantiate 0 (.free p) = t.nameless := by
  rw [namelessUnder_eq, instantiate_namelessIn, Nameless.resolve_cons, Nameless.resolve_nil,
    Nameless.instantiate_bind, Function.update_eq_self, nameless_eq]

theorem alphaEq_of_abs {t u : Term} {p : Name} (same : (abs p t).alphaEq (abs p u) = true) :
    t.alphaEq u = true := by
  have bodies := Nameless.abs.inj ((alphaEq_iff _ _).1 same)
  rw [alphaEq_iff, ← instantiate_namelessUnder p t, ← instantiate_namelessUnder p u, bodies]

/-- Two variables are compared by the innermost partner of each: looked up among the pairs from
either side, each is the partner of the other, or neither has one. A pair that is shadowed on one
side only is thereby never mistaken for the binder of both. -/
theorem sameVar_iff_lookup (pairs : List (Name × Name)) (x y : Name) :
    sameVar pairs x y = true ↔
      (pairs.lookup x = some y ∧ (pairs.map Prod.swap).lookup y = some x) ∨
        (pairs.lookup x = none ∧ (pairs.map Prod.swap).lookup y = none ∧ x = y) := by
  induction pairs with
  | nil => simp [sameVar]
  | cons pair pairs ih =>
    obtain ⟨p, q⟩ := pair
    rw [List.map_cons, Prod.swap_prod_mk, List.lookup_cons, List.lookup_cons, sameVar]
    by_cases left : x = p <;> by_cases right : y = q
    · simp [left, right]
    · simp [left, right, Ne.symm right]
    · simp [left, right, Ne.symm left]
    · rw [if_neg (by simp [left, right]), ih, beq_false_of_ne left, beq_false_of_ne right]

/-- Comparing two terms under pairs of binders decides whether their nameless forms are equal, and
it does so by the innermost partners of their variables alone. It is therefore an equivalence, and
abstractions over one name and applications are equal exactly if their parts are. If the partners
are kept on stacks, then the outcome is the same and the stacks are the same afterwards. -/
theorem alphaEq_decides :
    (∀ t u : Term, t.alphaEq u = true ↔ t.nameless = u.nameless) ∧
      Equivalence (fun t u : Term => t.alphaEq u = true) ∧
      (∀ p t u, (abs p t).alphaEq (abs p u) = true ↔ t.alphaEq u = true) ∧
      (∀ function argument function' argument',
        (app function argument).alphaEq (app function' argument') = true ↔
          function.alphaEq function' = true ∧ argument.alphaEq argument' = true) ∧
      (∀ pairs x y, alphaEqUnder pairs (var x) (var y) = true ↔
        (pairs.lookup x = some y ∧ (pairs.map Prod.swap).lookup y = some x) ∨
          (pairs.lookup x = none ∧ (pairs.map Prod.swap).lookup y = none ∧ x = y)) ∧
      ∀ pairs t u, (alphaEqStacked t u).run (.ofPairs pairs) =
        (alphaEqUnder pairs t u, .ofPairs pairs) := by
  refine ⟨alphaEq_iff, ⟨?_, ?_, ?_⟩, ?_, ?_, sameVar_iff_lookup, ?_⟩
  · intro t
    exact (alphaEq_iff t t).2 rfl
  · intro t u same
    exact (alphaEq_iff u t).2 ((alphaEq_iff t u).1 same).symm
  · intro t u v first second
    exact (alphaEq_iff t v).2 (((alphaEq_iff t u).1 first).trans ((alphaEq_iff u v).1 second))
  · intro p t u
    exact ⟨alphaEq_of_abs, alphaEq_abs p⟩
  · intro function argument function' argument'
    exact Bool.and_eq_true_iff
  · intro pairs t u
    exact alphaEqStacked_eq t u pairs

end Term

end Redex
