import Redex.Eval.Run
import Redex.Proofs.Strategy

/-!
# Walks

A walk is a run of single steps under a budget: every step is counted and, if the run is traced,
recorded before it is taken. It lists the redexes that it contracts, and the state at its end is
fixed by that list (`Walk.count_eq`, `Walk.steps_eq`). A walk that can go no further, because there
is no step or because the budget is spent, is the only one of its kind (`Walk.unique`).

`Ends` says of the outcome of a computation that a walk explains it: a result comes with a walk to a
term, and a halt at the step limit with a walk to a term that still has a step when the budget is
spent. `Ends.bind` composes such explanations along the computation and `Ends.within` carries them
from a part of a term to the whole, so that a big-step evaluator is explained piece by piece.
-/

namespace Redex.Eval

/-- A way to take single steps. -/
abbrev Stepper := Term → NameSupply → Option Move

/-- The state after a contraction. -/
def Run.record (traced : Bool) (run : Run) (move : Move) : Run where
  names := move.supply
  count := run.count + 1
  steps := if traced then run.steps.push ⟨run.count, move.redex.render⟩ else run.steps

/-- Single steps from a term and a state to another, and the redexes contracted on the way. -/
inductive Walk (budget : Int) (traced : Bool) (step : Stepper) :
    Term → Run → List Term → Term → Run → Prop
  | stay (t : Term) (run : Run) : Walk budget traced step t run [] t run
  | move {t u : Term} {run run' : Run} {redexes : List Term} {move : Move} :
    step t run.names = some move → (run.count : Int) < budget →
    Walk budget traced step move.result (run.record traced move) redexes u run' →
    Walk budget traced step t run (move.redex :: redexes) u run'

section Walk

variable {budget : Int} {traced : Bool} {step step' : Stepper} {t u v : Term}
  {run run' run'' : Run} {redexes redexes' : List Term}

theorem Walk.trans (first : Walk budget traced step t run redexes u run')
    (second : Walk budget traced step u run' redexes' v run'') :
    Walk budget traced step t run (redexes ++ redexes') v run'' := by
  induction first with
  | stay t run => exact second
  | move stepped afforded _ ih => exact .move stepped afforded (ih second)

theorem Walk.count_eq (walk : Walk budget traced step t run redexes u run') :
    run'.count = run.count + redexes.length := by
  induction walk with
  | stay t run => rfl
  | move stepped afforded _ ih =>
    rw [ih]
    simp only [Run.record, List.length_cons]
    omega

theorem Walk.count_of_fresh (walk : Walk budget traced step t {} redexes u run) :
    run.count = redexes.length := by
  rw [walk.count_eq]
  exact Nat.zero_add _

theorem Walk.afforded (walk : Walk budget traced step t run redexes u run') :
    redexes = [] ∨ (run'.count : Int) ≤ budget := by
  induction walk with
  | stay t run => exact Or.inl rfl
  | @move t u run run' redexes move stepped afforded rest ih =>
    refine Or.inr ?_
    rcases ih with last | within
    · have count := rest.count_eq
      rw [last] at count
      simp only [Run.record, List.length_nil] at count
      omega
    · exact within

theorem Walk.steps_eq (walk : Walk budget true step t run redexes u run') :
    run'.steps.toList =
      run.steps.toList ++
        redexes.mapIdx fun i redex => (⟨(run.count + i : Nat), redex.render⟩ : Step) := by
  induction walk with
  | stay t run => simp
  | move stepped afforded _ ih =>
    rw [ih]
    simp only [Run.record, ↓reduceIte, Array.toList_push, List.append_assoc, List.mapIdx_cons,
      List.singleton_append, Nat.add_zero]
    congr 3
    funext i redex
    congr 2
    omega

/-- Of two walks from one start, the longer one goes on from where the shorter one ends. -/
theorem Walk.split {u' : Term} (short : Walk budget traced step t run redexes u run')
    (long : Walk budget traced step t run redexes' u' run'')
    (shorter : redexes.length ≤ redexes'.length) :
    ∃ rest, redexes' = redexes ++ rest ∧ Walk budget traced step u run' rest u' run'' := by
  induction short generalizing redexes' with
  | stay t run => exact ⟨redexes', rfl, long⟩
  | move stepped _ _ ih =>
    cases long with
    | stay => exact absurd shorter (by simp)
    | move stepped' _ long =>
      rw [stepped] at stepped'
      cases stepped'
      obtain ⟨rest, rfl, continued⟩ := ih long (Nat.le_of_succ_le_succ shorter)
      exact ⟨rest, rfl, continued⟩

/-- Whether there is no way on: no step, or no budget for it. -/
def Halted (budget : Int) (step : Stepper) (t : Term) (run : Run) : Prop :=
  step t run.names = none ∨ budget ≤ run.count

theorem Walk.eq_nil_of_halted (walk : Walk budget traced step t run redexes u run')
    (halted : Halted budget step t run) : redexes = [] := by
  cases walk with
  | stay => rfl
  | move stepped afforded _ =>
    rcases halted with stuck | spent
    · rw [stuck] at stepped
      cases stepped
    · omega

/-- A walk that can go no further comes after every other from its start. -/
theorem Walk.extends {u' : Term} (whole : Walk budget traced step t run redexes u run')
    (halted : Halted budget step u run') (part : Walk budget traced step t run redexes' u' run'') :
    ∃ rest, redexes = redexes' ++ rest ∧ Walk budget traced step u' run'' rest u run' := by
  rcases Nat.le_total redexes'.length redexes.length with shorter | longer
  · exact part.split whole shorter
  · obtain ⟨rest, rfl, continued⟩ := whole.split part longer
    cases continued.eq_nil_of_halted halted
    cases continued
    exact ⟨[], by simp, .stay _ _⟩

/-- From one start, only one walk can go no further. -/
theorem Walk.unique {u' : Term} (first : Walk budget traced step t run redexes u run')
    (second : Walk budget traced step t run redexes' u' run'')
    (halted : Halted budget step u run') (halted' : Halted budget step u' run'') :
    redexes = redexes' ∧ u = u' ∧ run' = run'' := by
  obtain ⟨rest, rfl, continued⟩ := first.extends halted second
  cases continued.eq_nil_of_halted halted'
  cases continued
  exact ⟨by simp, rfl, rfl⟩

/-- Steps of a part are steps of the whole, as long as the whole keeps what `inv` says. -/
theorem Walk.within {context : Term → Term} {inv : Term → Prop}
    (lift : ∀ {t supply move}, inv t → step t supply = some move →
      step' (context t) supply = some (move.within context) ∧ inv move.result)
    (start : inv t) (walk : Walk budget traced step t run redexes u run') :
    Walk budget traced step' (context t) run redexes (context u) run' ∧ inv u := by
  induction walk with
  | stay t run => exact ⟨.stay _ _, start⟩
  | move stepped afforded _ ih =>
    obtain ⟨lifted, kept⟩ := lift start stepped
    obtain ⟨rest, last⟩ := ih kept
    have whole := Walk.move lifted afforded rest
    exact ⟨whole, last⟩

theorem Walk.lift {context : Term → Term}
    (lift : ∀ {t supply move}, step t supply = some move →
      step' (context t) supply = some (move.within context))
    (walk : Walk budget traced step t run redexes u run') :
    Walk budget traced step' (context t) run redexes (context u) run' :=
  (walk.within (fun (_ : True) stepped => ⟨lift stepped, trivial⟩) trivial).1

end Walk

/-! ## Outcomes -/

instance decidableEqOutcome : DecidableEq (EStateM.Result Halt Run Term)
  | .ok result run, .ok result' run' =>
    decidable_of_iff (result = result' ∧ run = run')
      (Iff.of_eq (EStateM.Result.ok.injEq result run result' run').symm)
  | .error halt run, .error halt' run' =>
    decidable_of_iff (halt = halt' ∧ run = run')
      (Iff.of_eq (EStateM.Result.error.injEq halt run halt' run').symm)
  | .ok _ _, .error _ _ => isFalse nofun
  | .error _ _, .ok _ _ => isFalse nofun

theorem bind_of_ok {α β : Type} {first : Action α} {a : α} {run run' : Run}
    (outcome : first run = .ok a run') (rest : α → Action β) :
    (first >>= rest) run = rest a run' := by
  change EStateM.bind first rest run = _
  rw [EStateM.bind, outcome]

theorem bind_of_error {α β : Type} {first : Action α} {halt : Halt} {run run' : Run}
    (outcome : first run = .error halt run') (rest : α → Action β) :
    (first >>= rest) run = .error halt run' := by
  change EStateM.bind first rest run = _
  rw [EStateM.bind, outcome]

theorem bind_eq_ok {α β : Type} {first : Action α} {rest : α → Action β} {b : β} {run run' : Run}
    (done : (first >>= rest) run = .ok b run') :
    ∃ a middle, first run = .ok a middle ∧ rest a middle = .ok b run' := by
  rcases outcome : first run with ⟨a, middle⟩ | ⟨halt, middle⟩
  · rw [bind_of_ok outcome] at done
    exact ⟨a, middle, rfl, done⟩
  · rw [bind_of_error outcome] at done
    cases done

/-- Whether an outcome is explained by a walk from a term and a state. A halt for want of nested
calls is left open. -/
def Ends {α : Type} (budget : Int) (traced : Bool) (step : Stepper) (t : Term) (run : Run)
    (goal : α → Term → Prop) : EStateM.Result Halt Run α → Prop
  | .ok a run' => ∃ redexes u, Walk budget traced step t run redexes u run' ∧ goal a u
  | .error .stepLimit run' => ∃ redexes u, Walk budget traced step t run redexes u run' ∧
      (step u run'.names).isSome = true ∧ budget ≤ run'.count
  | .error .tooDeep _ => True

/-- The result is the term at the end of the walk, and no step leads on from it. -/
def Stops (step : Stepper) (result u : Term) : Prop :=
  u = result ∧ ∀ supply, step result supply = none

/-- Whether there were enough nested calls. -/
def Settled {α : Type} : EStateM.Result Halt Run α → Prop
  | .ok _ _ => True
  | .error .stepLimit _ => True
  | .error .tooDeep _ => False

section Ends

variable {α β : Type} {budget : Int} {traced : Bool} {step step' : Stepper} {t u : Term}
  {run run' : Run} {redexes : List Term} {goal : α → Term → Prop} {goal' : β → Term → Prop}

theorem Ends.after {outcome : EStateM.Result Halt Run α}
    (walk : Walk budget traced step t run redexes u run')
    (ends : Ends budget traced step u run' goal outcome) :
    Ends budget traced step t run goal outcome := by
  rcases outcome with ⟨a, last⟩ | ⟨halt, last⟩
  · obtain ⟨redexes', v, rest, reached⟩ := ends
    exact ⟨_, v, walk.trans rest, reached⟩
  · cases halt with
    | stepLimit =>
      obtain ⟨redexes', v, rest, unfinished⟩ := ends
      exact ⟨_, v, walk.trans rest, unfinished⟩
    | tooDeep => trivial

theorem Ends.mono {outcome : EStateM.Result Halt Run α} {weaker : α → Term → Prop}
    (ends : Ends budget traced step t run goal outcome)
    (implies : ∀ {a u}, goal a u → weaker a u) :
    Ends budget traced step t run weaker outcome := by
  rcases outcome with ⟨a, last⟩ | ⟨_ | _, last⟩
  · obtain ⟨redexes, u, walk, reached⟩ := ends
    exact ⟨redexes, u, walk, implies reached⟩
  · exact ends
  · trivial

theorem Ends.bind {first : Action α} {rest : α → Action β}
    (ends : Ends budget traced step t run goal (first run))
    (continues : ∀ {a u run' redexes}, first run = .ok a run' →
      Walk budget traced step t run redexes u run' → goal a u →
      Ends budget traced step u run' goal' (rest a run')) :
    Ends budget traced step t run goal' ((first >>= rest) run) := by
  rcases outcome : first run with ⟨a, last⟩ | ⟨halt, last⟩
  · rw [outcome] at ends
    rw [bind_of_ok outcome]
    obtain ⟨redexes, u, walk, reached⟩ := ends
    exact (continues outcome walk reached).after walk
  · rw [outcome] at ends
    rw [bind_of_error outcome]
    cases halt with
    | stepLimit => exact ends
    | tooDeep => trivial

theorem Ends.within {outcome : EStateM.Result Halt Run α} {context : Term → Term}
    {inv : Term → Prop}
    (lift : ∀ {t supply move}, inv t → step t supply = some move →
      step' (context t) supply = some (move.within context) ∧ inv move.result)
    (start : inv t) (ends : Ends budget traced step t run goal outcome) :
    Ends budget traced step' (context t) run
      (fun a whole => ∃ part, whole = context part ∧ inv part ∧ goal a part) outcome := by
  rcases outcome with ⟨a, last⟩ | ⟨halt, last⟩
  · obtain ⟨redexes, u, walk, reached⟩ := ends
    obtain ⟨lifted, kept⟩ := walk.within lift start
    exact ⟨redexes, _, lifted, u, rfl, kept, reached⟩
  · cases halt with
    | tooDeep => trivial
    | stepLimit =>
      obtain ⟨redexes, u, walk, unfinished, spent⟩ := ends
      obtain ⟨lifted, kept⟩ := walk.within lift start
      obtain ⟨move, stepped⟩ := Option.isSome_iff_exists.1 unfinished
      refine ⟨redexes, _, lifted, ?_, spent⟩
      rw [(lift kept stepped).1]
      rfl

theorem Ends.lift {outcome : EStateM.Result Halt Run α} {context : Term → Term}
    (lift : ∀ {t supply move}, step t supply = some move →
      step' (context t) supply = some (move.within context))
    (ends : Ends budget traced step t run goal outcome) :
    Ends budget traced step' (context t) run
      (fun a whole => ∃ part, whole = context part ∧ goal a part) outcome := by
  have lifted := Ends.within (fun (_ : True) stepped => ⟨lift stepped, trivial⟩) trivial ends
  apply lifted.mono
  intro a whole inPart
  obtain ⟨part, inContext, -, reached⟩ := inPart
  exact ⟨part, inContext, reached⟩

end Ends

end Redex.Eval
