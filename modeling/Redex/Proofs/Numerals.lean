import Redex.Proofs.Nameless
import Redex.Term.Numeral

/-!
# Numerals

A numeral is recognised by walking down its body while the names of the two parameters are compared
with those that stand there. On nameless forms there is only one numeral for each number,
`Nameless.iterated` under two binders, and what the walk finds is exactly that
(`iterations?_eq_some_iff`). Where both parameters have one name the outer one cannot be meant, and
the form that counts is that of zero.
-/

namespace Redex

/-- The form under two binders in which the variable of the outer one is applied `n` times to that
of the inner one. -/
def Nameless.iterated : Nat → Nameless
  | 0 => bound 0
  | n + 1 => app (bound 1) (iterated n)

namespace Nameless

theorem resolve_inner_iff {f x y : Name} : resolve [x, f] y = bound 0 ↔ y = x := by
  rw [resolve_cons]
  by_cases inner : y = x
  · simp [inner, bind_self]
  · simp [inner, bind_of_ne, shift_ne_bound]

theorem resolve_outer_iff {f x g : Name} : resolve [x, f] g = bound 1 ↔ g = f ∧ f ≠ x := by
  rw [resolve_cons, resolve_cons, resolve_nil]
  by_cases inner : g = x
  · rw [inner, bind_self]
    simp [eq_comm]
  · rw [bind_of_ne inner]
    by_cases outer : g = f
    · subst outer
      simp [bind_self, shift, inner]
    · simp [outer, bind_of_ne, shift]

end Nameless

namespace Term

open Nameless (resolve_inner_iff resolve_outer_iff)

theorem namelessUnder_iterated {f x : Name} (apart : f ≠ x) (n : Nat) :
    (iterated f x n).namelessUnder [x, f] = .iterated n := by
  induction n with
  | zero => exact resolve_inner_iff.2 rfl
  | succ n ih =>
    have outer : (var f).namelessUnder [x, f] = .bound 1 := resolve_outer_iff.2 ⟨rfl, apart⟩
    rw [iterated, namelessUnder, outer, ih]
    rfl

theorem nameless_numeral (n : Nat) : (numeral n).nameless = .abs (.abs (.iterated n)) := by
  have body := namelessUnder_iterated (f := "f") (x := "x") (by decide) n
  exact congrArg (fun form => Nameless.abs (.abs form)) body

/-- The walk down the body of a numeral counts what its nameless form iterates. -/
theorem iterations?_eq_some_iff (f x : Name) (body : Term) (n : Nat) :
    iterations? f x body = some n ↔ body.namelessUnder [x, f] = .iterated n := by
  induction body generalizing n with
  | var y =>
    cases n with
    | zero =>
      rw [iterations?, namelessUnder, Nameless.iterated, resolve_inner_iff]
      simp
    | succ n =>
      rw [iterations?, namelessUnder, Nameless.iterated]
      simp [Nameless.resolve_ne_app]
  | abs p body _ => cases n <;> simp [iterations?, namelessUnder, Nameless.iterated]
  | app function argument _ ih =>
    cases n with
    | zero =>
      -- Whatever is found under an application, it is counted.
      cases function <;> simp [iterations?, namelessUnder, Nameless.iterated]
    | succ n =>
      cases function with
      | var g =>
        rw [iterations?, namelessUnder, Nameless.iterated, Nameless.app.injEq, ← ih n,
          namelessUnder, resolve_outer_iff]
        by_cases outer : g = f ∧ f ≠ x
        · simp [outer]
        · simp [outer]
      | abs p body => simp [iterations?, namelessUnder, Nameless.iterated]
      | app function' argument' => simp [iterations?, namelessUnder, Nameless.iterated]

theorem number?_eq_some_iff (t : Term) (n : Nat) :
    t.number? = some n ↔ t.nameless = .abs (.abs (.iterated n)) := by
  cases t with
  | var x => simp [number?, nameless, namelessUnder, Nameless.resolve_ne_abs]
  | app function argument => simp [number?, nameless, namelessUnder]
  | abs f inner =>
    cases inner with
    | var x => simp [number?, nameless, namelessUnder, Nameless.resolve_ne_abs]
    | app function argument => simp [number?, nameless, namelessUnder]
    | abs x body =>
      rw [number?, iterations?_eq_some_iff]
      simp [nameless, namelessUnder]

/-- A term is recognised as the numeral of a number exactly if it differs from it in bound names
only, and is no numeral exactly if it so differs from none; the numeral itself is recognised. -/
theorem number?_exact :
    (∀ (t : Term) (n : Nat), t.number? = some n ↔ t.alphaEq (numeral n) = true) ∧
      (∀ t : Term, t.number? = none ↔ ∀ n, t.alphaEq (numeral n) = false) ∧
      ∀ n, (numeral n).number? = some n := by
  have recognised (t : Term) (n : Nat) :
      t.number? = some n ↔ t.alphaEq (numeral n) = true := by
    rw [number?_eq_some_iff, alphaEq_iff, nameless_numeral]
  refine ⟨recognised, ?_, ?_⟩
  · intro t
    rw [Option.eq_none_iff_forall_ne_some]
    refine forall_congr' fun n => ?_
    rw [ne_eq, recognised, Bool.not_eq_true]
  · intro n
    exact (number?_eq_some_iff (numeral n) n).2 (nameless_numeral n)

/-- If both parameters have one name, zero is all that is left. -/
example : (abs "f" (abs "f" (var "f"))).number? = some 0 ∧
    (abs "f" (abs "f" (app (var "f") (var "f")))).number? = none ∧
    (abs "s" (abs "z" (app (var "s") (var "z")))).number? = some 1 := by decide

end Term

end Redex
