import Mathlib.Algebra.Group.Nat.Defs
import Redex.Proofs.Soundness

/-!
# How terms grow

A step puts a copy of the argument wherever the variable stands, and so at most squares the size of
the term (`Moves.size_le`). The sizes that a given number of steps can lead to are therefore bounded
in advance: `Confined` says of a term that a bound holds for it and for all that comes of it, and
walks keep this (`Walk.confined`).
-/

namespace Redex

namespace Term

theorem size_pos (t : Term) : 0 < t.size := by
  cases t <;> simp [size]

theorem size_subst_le (p : Name) (r t : Term) (supply : NameSupply) :
    (subst p r t supply).1.size ≤ t.size * r.size := by
  have positive := r.size_pos
  induction p, r, t, supply using subst_induction with
  | variable_ p r x supply =>
    rw [subst_var]
    dsimp only
    split
    · exact Nat.le_of_eq (Nat.one_mul r.size).symm
    · exact Nat.le_trans positive (Nat.le_of_eq (Nat.one_mul r.size).symm)
  | application p r function argument supply ihf iha =>
    rw [subst_app]
    simp only [size, Nat.add_mul, Nat.one_mul]
    have left := ihf positive
    have right := iha positive
    omega
  | shadowed p r body supply =>
    rw [subst_abs_self]
    exact Nat.le_mul_of_pos_right _ positive
  | kept p r q body supply other safe ih =>
    rw [subst_abs_of_not_free other safe]
    simp only [size, Nat.add_mul, Nat.one_mul]
    have inner := ih positive
    omega
  | renamed p r q body supply other captured ihq ihp =>
    rw [subst_abs_of_free other captured]
    simp only [size, Nat.add_mul, Nat.one_mul]
    -- Renaming puts a term of size one in the place of the variable.
    have renamed := ihq Nat.one_pos
    rw [size, Nat.mul_one] at renamed
    have both := Nat.le_trans (ihp positive) (Nat.mul_le_mul_right r.size renamed)
    omega

/-- A part of a term grows to its square at most, and so does the term. -/
theorem add_le_square {grown part : Nat} (squared : grown ≤ part ^ 2) (rest : Nat) :
    grown + rest ≤ (part + rest) ^ 2 := by
  have more := Nat.le_mul_self rest
  simp only [Nat.pow_two, Nat.add_mul, Nat.mul_add] at squared ⊢
  omega

theorem Moves.size_le {t : Term} {supply : NameSupply} {move : Move} (moves : Moves t supply move) :
    move.result.size ≤ t.size ^ 2 := by
  induction moves with
  | contract p body argument supply =>
    have replaced := size_subst_le p argument body supply
    simp only [Move.contracting, size]
    refine Nat.le_trans replaced ?_
    rw [Nat.pow_two]
    exact Nat.mul_le_mul (by omega) (by omega)
  | inBody p _ ih => exact add_le_square ih 1
  | inFunction argument _ ih =>
    simp only [Move.within, size, Nat.add_assoc]
    exact add_le_square ih _
  | inArgument function _ ih =>
    simp only [Move.within, size, Nat.add_comm function.size, Nat.add_assoc]
    exact add_le_square ih _

/-- Whether a term stays within a bound on its size for a number of steps. -/
def Confined (bound steps : Nat) (t : Term) : Prop := t.size ^ 2 ^ steps ≤ bound

section Confined

variable {bound steps : Nat} {t : Term}

theorem Confined.size_le (confined : t.Confined bound steps) : t.size ≤ bound :=
  Nat.le_trans (Nat.le_self_pow (Nat.ne_of_gt (Nat.two_pow_pos steps)) t.size) confined

theorem Confined.smaller {u : Term} (confined : t.Confined bound steps)
    (smaller : u.size ≤ t.size) : u.Confined bound steps :=
  Nat.le_trans (Nat.pow_le_pow_left smaller _) confined

theorem Confined.fewer {steps' : Nat} (confined : t.Confined bound steps)
    (fewer : steps' ≤ steps) : t.Confined bound steps' := by
  refine Nat.le_trans (Nat.pow_le_pow_right t.size_pos ?_) confined
  exact Nat.pow_le_pow_right (by decide) fewer

theorem Confined.move {supply : NameSupply} {move : Move}
    (confined : t.Confined bound (steps + 1)) (moves : Moves t supply move) :
    move.result.Confined bound steps := by
  refine Nat.le_trans (Nat.pow_le_pow_left moves.size_le _) ?_
  rw [← Nat.pow_mul, Nat.mul_comm, ← Nat.pow_succ]
  exact confined

end Confined

end Term

namespace Eval

/-- The steps that are left of a budget. -/
def Run.left (budget : Int) (run : Run) : Nat := (budget - run.count).toNat

theorem Walk.confined {budget : Int} {traced : Bool} {step : Stepper} {t u : Term} {run run' : Run}
    {redexes : List Term} {bound : Nat}
    (steps : ∀ {t supply move}, step t supply = some move → Term.Moves t supply move)
    (walk : Walk budget traced step t run redexes u run')
    (confined : t.Confined bound (run.left budget)) : u.Confined bound (run'.left budget) := by
  induction walk with
  | stay t run => exact confined
  | @move t u run run' redexes move stepped afforded _ ih =>
    have less : run.left budget = (run.record traced move).left budget + 1 := by
      simp only [Run.left, Run.record]
      omega
    rw [less] at confined
    exact ih (confined.move (steps stepped))

end Eval

end Redex
