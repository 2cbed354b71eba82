import Redex.Term.Basic

/-!
# Equality up to the names of bound variables

`alphaEq` compares two terms while it walks under their binders, which it keeps in pairs: two
variables agree when the same pair binds both, or when no pair binds either and their names are
equal.

The pairs can also be kept by name: `alphaEqStacked` holds a stack of partners for every name of
either term. A pair is put on two stacks in front of the bodies and taken off behind them, so that
the comparison leaves the stacks as it found them and comes to the same (`alphaEqStacked_eq`).
-/

namespace Redex.Term

/-- Whether two variables stand for the same binder, or for the same free name. The pairs are those
of the enclosing binders, the innermost first. -/
def sameVar : List (Name × Name) → Name → Name → Bool
  | [], x, y => x == y
  | (p, q) :: pairs, x, y => if x = p ∨ y = q then x == p && y == q else sameVar pairs x y

/-- Whether two terms under the given pairs of binders differ in bound names only. -/
def alphaEqUnder (pairs : List (Name × Name)) : Term → Term → Bool
  | var x, var y => sameVar pairs x y
  | abs p body, abs q body' => alphaEqUnder ((p, q) :: pairs) body body'
  | app function argument, app function' argument' =>
    alphaEqUnder pairs function function' && alphaEqUnder pairs argument argument'
  | _, _ => false

/-- Whether two terms differ in bound names only. -/
def alphaEq (t u : Term) : Bool := alphaEqUnder [] t u

/-! ## Stacks of partners -/

/-- For every name the partners of its binders, the innermost first. -/
abbrev Partners := Name → List Name

/-- Puts a partner on the stack of a name. -/
def Partners.push (partners : Partners) (name partner : Name) : Partners := fun other =>
  if other = name then partner :: partners other else partners other

/-- Takes the innermost partner off the stack of a name. -/
def Partners.pop (partners : Partners) (name : Name) : Partners := fun other =>
  if other = name then (partners other).tail else partners other

/-- The partners of the names of one term in the other, and the other way round. -/
structure Scopes where
  left : Partners
  right : Partners

namespace Scopes

/-- Enters a pair of binders. -/
def enter (p q : Name) (scopes : Scopes) : Scopes where
  left := scopes.left.push p q
  right := scopes.right.push q p

/-- Leaves a pair of binders. -/
def leave (p q : Name) (scopes : Scopes) : Scopes where
  left := scopes.left.pop p
  right := scopes.right.pop q

/-- Whether each of two variables is the innermost partner of the other; if neither has a partner,
whether their names are equal. -/
def sameVar (scopes : Scopes) (x y : Name) : Bool :=
  match scopes.left x, scopes.right y with
  | y' :: _, x' :: _ => y' == y && x' == x
  | [], [] => x == y
  | _, _ => false

/-- The stacks that pairs of binders fill, of which the innermost is entered last. -/
def ofPairs : List (Name × Name) → Scopes
  | [] => ⟨fun _ => [], fun _ => []⟩
  | (p, q) :: pairs => (ofPairs pairs).enter p q

end Scopes

/-- Compares two terms like `alphaEqUnder`. The arguments of two applications are compared only if
their functions are equal. -/
def alphaEqStacked : Term → Term → StateM Scopes Bool
  | var x, var y => return (← get).sameVar x y
  | abs p body, abs q body' => do
    modify (Scopes.enter p q)
    let same ← alphaEqStacked body body'
    modify (Scopes.leave p q)
    return same
  | app function argument, app function' argument' => do
    if ← alphaEqStacked function function' then
      alphaEqStacked argument argument'
    else
      return false
  | _, _ => return false

theorem Partners.pop_push (partners : Partners) (name partner : Name) :
    (partners.push name partner).pop name = partners := by
  funext other
  by_cases here : other = name <;> simp [push, pop, here]

theorem Scopes.leave_enter (p q : Name) (scopes : Scopes) :
    (scopes.enter p q).leave p q = scopes := by
  simp only [enter, leave, Partners.pop_push]

/-- The pair that was entered last decides, if it binds either variable. -/
theorem Scopes.sameVar_enter (p q : Name) (scopes : Scopes) (x y : Name) :
    (scopes.enter p q).sameVar x y =
      if x = p ∨ y = q then x == p && y == q else scopes.sameVar x y := by
  by_cases left : x = p <;> by_cases right : y = q
  · simp [enter, sameVar, Partners.push, left, right]
  · -- The partner of `x` is `q` and not `y`, whatever that of `y` is.
    have apart : (q == y) = false := beq_false_of_ne (Ne.symm right)
    cases other : scopes.right y <;>
      simp [enter, sameVar, Partners.push, left, right, other, apart]
  · have apart : (p == x) = false := beq_false_of_ne (Ne.symm left)
    cases other : scopes.left x <;>
      simp [enter, sameVar, Partners.push, left, right, other, apart]
  · simp [enter, sameVar, Partners.push, left, right]

theorem Scopes.sameVar_ofPairs (pairs : List (Name × Name)) (x y : Name) :
    (ofPairs pairs).sameVar x y = Term.sameVar pairs x y := by
  induction pairs with
  | nil => rfl
  | cons pair pairs ih =>
    obtain ⟨p, q⟩ := pair
    rw [ofPairs, sameVar_enter, ih, Term.sameVar]

section Steps

variable {scopes scopes' : Scopes} {same : Bool}

theorem alphaEqStacked_abs {p q : Name} {body body' : Term}
    (bodies : (alphaEqStacked body body').run (scopes.enter p q) = (same, scopes')) :
    (alphaEqStacked (abs p body) (abs q body')).run scopes = (same, scopes'.leave p q) := by
  change (let (same, inner) := (alphaEqStacked body body').run (scopes.enter p q)
    (same, inner.leave p q)) = _
  rw [bodies]

theorem alphaEqStacked_app {function function' : Term} (argument argument' : Term)
    (functions : (alphaEqStacked function function').run scopes = (same, scopes')) :
    (alphaEqStacked (app function argument) (app function' argument')).run scopes =
      if same then (alphaEqStacked argument argument').run scopes' else (false, scopes') := by
  rw [alphaEqStacked, StateT.run_bind, functions]
  cases same <;> rfl

end Steps

/-- Comparing with stacks comes to the same as comparing with pairs and leaves the stacks as they
were. -/
theorem alphaEqStacked_eq (t u : Term) (pairs : List (Name × Name)) :
    (alphaEqStacked t u).run (.ofPairs pairs) = (alphaEqUnder pairs t u, .ofPairs pairs) := by
  induction t generalizing u pairs with
  | var x =>
    cases u with
    | var y => exact congrArg (·, Scopes.ofPairs pairs) (Scopes.sameVar_ofPairs pairs x y)
    | abs q body => rfl
    | app function argument => rfl
  | abs p body ih =>
    cases u with
    | var y => rfl
    | abs q body' =>
      rw [alphaEqStacked_abs (ih body' ((p, q) :: pairs)), Scopes.ofPairs, Scopes.leave_enter]
      rfl
    | app function argument => rfl
  | app function argument ihf iha =>
    cases u with
    | var y => rfl
    | abs q body => rfl
    | app function' argument' =>
      rw [alphaEqStacked_app argument argument' (ihf function' pairs), iha, alphaEqUnder]
      cases alphaEqUnder pairs function function' <;> rfl

end Redex.Term
