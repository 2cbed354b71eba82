import Redex.Eval.Run

/-!
# Call-by-value reduction to normal form

`reduce` is weak: it brings the function of an application and then its argument as far as they go
and contracts when the function is an abstraction; an argument that is stuck is substituted as it
is. `normalize` reduces and then goes on inside the pieces: the body of an abstraction, the function
and then the argument of a stuck application. `evaluate` runs it from a fresh state.

Nested calls are counted down from the allowance of the settings. The loop at one level is bounded
by the steps that are left: each turn of it but the last contracts a redex.
-/

namespace Redex.Eval

/-- One turn of the loop at one level: `part` reduces the function and the argument of an
application, and if the function comes out as an abstraction the redex is contracted and `next` goes
on with the result. -/
def reduceTurn (settings : Settings) (depth : Nat) (part next : Term → Action Term) :
    Term → Action Term
  | .app function argument => do
    let function ← part function
    let argument ← part argument
    match function with
    | .abs p body =>
      let contractum ← contract settings depth p body argument
      next contractum
    | function => return .app function argument
  | value => return value

/-- Turns until there is nothing to contract. The step limit allows `left` contractions at most, so
that the turn after them halts when it tries another. -/
def reduceLoop (settings : Settings) (depth : Nat) (part : Term → Action Term) :
    Nat → Term → Action Term
  | 0 => reduceTurn settings depth part fun _ => throw .stepLimit
  | left + 1 => reduceTurn settings depth part (reduceLoop settings depth part left)

/-- Reduces a term until it is a value or stuck. -/
def reduce (settings : Settings) : Nat → Term → Action Term
  | 0, _ => throw .tooDeep
  | depth + 1, t => do
    let run ← get
    reduceLoop settings depth (reduce settings depth) (settings.maxSteps - run.count).toNat t

/-- Reduces a term and then its pieces, until no redex is left. -/
def normalize (settings : Settings) : Nat → Term → Action Term
  | 0, _ => throw .tooDeep
  | depth + 1, t => do
    match ← reduce settings depth t with
    | .var x => return .var x
    | .abs p body =>
      let body ← normalize settings depth body
      return .abs p body
    | .app function argument =>
      let function ← normalize settings depth function
      let argument ← normalize settings depth argument
      return .app function argument

/-- Records the result of a traced evaluation as the last entry of the trace. -/
def recordResult (settings : Settings) (result : Term) : Action Unit := fun run =>
  if !settings.traced then .ok () run
  else if settings.depth < result.renderDepth then .error .tooDeep run
  else .ok () { run with steps := run.steps.push ⟨run.count, result.render⟩ }

/-- The whole evaluation of a term. -/
def evaluateTerm (settings : Settings) (t : Term) : Action Term := do
  let result ← normalize settings settings.depth t
  recordResult settings result
  return result

/-- Evaluates a term from a fresh state. -/
def evaluate (settings : Settings) (t : Term) : EStateM.Result Halt Run Term :=
  evaluateTerm settings t {}

end Redex.Eval
