import Redex.Proofs.Depth
import Redex.Proofs.Growth

/-!
# The loop of reduction, pass by pass

`reduce` brings the function of an application as far as it goes, then its argument, and contracts.
Here the same is done in passes, of which each works on one part of the application or contracts it
(`pass`). A part is worked on only if it is no value, and an application becomes a value only at the
cost of a step (`count_lt_of_value`). So every pass that goes on has taken a step
(`count_lt_of_pass`), and the passes that make up a call of `reduce` are no more than the steps that
are left, and one (`reduce_passes`).
-/

namespace Redex.Eval

/-! ## Values cost a step -/

section Values

variable {settings : Settings} {depth : Nat} {t w : Term} {run run' : Run}

theorem walk_of_reduce (reduced : reduce settings depth t run = .ok w run') :
    ∃ redexes, Walk settings.maxSteps settings.traced Term.weakStep? t run redexes w run' ∧
      w.isWeak = true := by
  have ends := reduce_ends settings depth t run
  rw [reduced] at ends
  obtain ⟨redexes, u, walk, reached⟩ := ends
  obtain ⟨rfl, weak⟩ := stops_weakStep?.1 reached
  exact ⟨redexes, walk, weak⟩

end Values

/-! ## The loop, pass by pass -/

/-- What a pass comes to: a term to return, or a term to go on with. -/
inductive Pass where
  | done (t : Term)
  | again (t : Term)

/-- The end of a pass on an application whose argument goes no further. -/
def passRedex (settings : Settings) (depth : Nat) (argument : Term) : Term → Action Pass
  | .abs p body => do
    let contractum ← contract settings depth p body argument
    return .again contractum
  | function => return .done (.app function argument)

/-- One pass of the loop of `reduce`. It works on the function of an application unless that is a
value, then on the argument unless that is a value, and else on the whole. After work on a part it
goes on if a value has come of it. -/
def pass (settings : Settings) (depth : Nat) : Term → Action Pass
  | .app function argument =>
    if function.isValue && argument.isValue then
      passRedex settings depth argument function
    else if function.isValue then do
      let argument ← reduce settings depth argument
      if argument.isValue then return .again (.app function argument)
      else passRedex settings depth argument function
    else do
      let function ← reduce settings depth function
      if function.isValue then return .again (.app function argument)
      else
        let argument ← reduce settings depth argument
        return .done (.app function argument)
  | value => return .done value

/-- Passes that follow each other, how many of them go on, and the outcome of the last one. -/
inductive Passes (settings : Settings) (depth : Nat) :
    Nat → Term → Run → EStateM.Result Halt Run Term → Prop
  | done {t w : Term} {run run' : Run} :
    pass settings depth t run = .ok (.done w) run' → Passes settings depth 0 t run (.ok w run')
  | halted {t : Term} {run run' : Run} {halt : Halt} :
    pass settings depth t run = .error halt run' →
    Passes settings depth 0 t run (.error halt run')
  | again {t u : Term} {run run' : Run} {more : Nat} {outcome : EStateM.Result Halt Run Term} :
    pass settings depth t run = .ok (.again u) run' →
    Passes settings depth more u run' outcome → Passes settings depth (more + 1) t run outcome

section Passes

variable {settings : Settings} {depth : Nat} {function argument t u : Term} {run run' : Run}

/-- Whether what follows a contraction is done by passes. -/
def PassesNext (settings : Settings) (depth : Nat) (next : Term → Action Term) (run : Run) : Prop :=
  ∀ contractum run', run.count < run'.count → (run'.count : Int) ≤ settings.maxSteps →
    Settled (next contractum run') →
    ∃ more, Passes settings depth more contractum run' (next contractum run')

theorem PassesNext.later {next : Term → Action Term}
    (passesNext : PassesNext settings depth next run) (grown : run.count ≤ run'.count) :
    PassesNext settings depth next run' :=
  fun contractum last more => passesNext contractum last (Nat.lt_of_le_of_lt grown more)

end Passes

end Redex.Eval
