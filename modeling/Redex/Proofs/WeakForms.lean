import Redex.Proofs.CallTree
import Redex.Proofs.NormalForms
import Redex.Proofs.Passes

/-!
# Where reduction stops

Reduction returns an identifier, an abstraction, or an identifier that is applied to terms which are
of such a form again (`Term.WeakForm`). It leaves a term of this form as it is, and so it leaves all
parts of it that it gets to (`Term.SpinePart`), whatever the state and the step limit. Normalization
relies on this whenever it takes a stuck application apart and has the parts reduced once more.

Only the nested calls matter, and how many there are is read off the term (`Term.spineDepth`,
`reduce_eq_of_isWeak`). What has been reduced takes no more of them than were there to reduce it
(`spineDepth_le_of_reduce`), so that it can be reduced again wherever it has come about. In
particular this holds of the argument of a redex when the redex is contracted (`Makes.formed`).
-/

namespace Redex

namespace Term

/-- The terms that reduction stops at. -/
inductive WeakForm : Term → Prop
  | identifier (x : Name) : WeakForm (.var x)
  | abstraction (p : Name) (body : Term) : WeakForm (.abs p body)
  | stuck (x : Name) {arguments : List Term} : arguments ≠ [] →
    (∀ argument ∈ arguments, WeakForm argument) → WeakForm (arguments.foldl .app (.var x))

/-- The parts of a term that are reached through functions and arguments alone, and not through the
body of an abstraction. -/
inductive SpinePart (part : Term) : Term → Prop
  | whole : SpinePart part part
  | function {function argument : Term} :
    SpinePart part function → SpinePart part (.app function argument)
  | argument {function argument : Term} :
    SpinePart part argument → SpinePart part (.app function argument)

/-! ## The form of a weak term -/

theorem isWeak_foldl {function : Term} {arguments : List Term} (weak : function.isWeak = true)
    (notAbs : function.isAbs = false) (weakly : ∀ argument ∈ arguments, argument.isWeak = true) :
    (arguments.foldl .app function).isWeak = true := by
  induction arguments generalizing function with
  | nil => exact weak
  | cons argument arguments ih =>
    obtain ⟨first, others⟩ := List.forall_mem_cons.1 weakly
    exact ih (isWeak_app.2 ⟨weak, notAbs, first⟩) rfl others

theorem WeakForm.app {function argument : Term} (formed : function.WeakForm)
    (notAbs : function.isAbs = false) (formedArgument : argument.WeakForm) :
    (Term.app function argument).WeakForm := by
  cases formed with
  | identifier x =>
    exact .stuck x (List.cons_ne_nil argument []) (List.forall_mem_singleton.2 formedArgument)
  | abstraction p body => cases notAbs
  | @stuck x arguments _ formedArguments =>
    have longer : (arguments ++ [argument]).foldl .app (.var x) =
        Term.app (arguments.foldl .app (.var x)) argument := List.foldl_append
    rw [← longer]
    refine .stuck x (by simp) ?_
    rw [List.forall_mem_append, List.forall_mem_singleton]
    exact ⟨formedArguments, formedArgument⟩

theorem weakForm_iff {t : Term} : t.WeakForm ↔ t.isWeak = true := by
  constructor
  · intro formed
    induction formed with
    | identifier x => rfl
    | abstraction p body => rfl
    | stuck x _ _ ih => exact isWeak_foldl rfl rfl ih
  · intro weak
    induction t with
    | var x => exact .identifier x
    | abs p body _ => exact .abstraction p body
    | app function argument ihf iha =>
      obtain ⟨weakFunction, notAbs, weakArgument⟩ := isWeak_app.1 weak
      exact (ihf weakFunction).app notAbs (iha weakArgument)

/-! ## The parts of a weak term -/

theorem SpinePart.isWeak {part t : Term} (inside : part.SpinePart t) (weak : t.isWeak = true) :
    part.isWeak = true := by
  induction inside with
  | whole => exact weak
  | function _ ih => exact ih (isWeak_app.1 weak).1
  | argument _ ih => exact ih (isWeak_app.1 weak).2.2

theorem SpinePart.spineDepth_le {part t : Term} (inside : part.SpinePart t) :
    part.spineDepth ≤ t.spineDepth := by
  induction inside with
  | whole => exact Nat.le_refl _
  | function _ ih =>
    rw [spineDepth]
    omega
  | argument _ ih =>
    rw [spineDepth]
    omega

end Term

namespace Eval

/-! ## Reducing once more -/

section Reduce

variable {settings : Settings} {depth : Nat} {t w : Term} {run run' : Run}

theorem spineDepth_le_of_turn {next : Term → Action Term}
    (partDepth : ∀ {t w run run'}, reduce settings depth t run = .ok w run' → w.spineDepth ≤ depth)
    (nextDepth : ∀ {contractum run₁}, next contractum run₁ = .ok w run' →
      w.spineDepth ≤ depth + 1)
    (done : reduceTurn settings depth (reduce settings depth) next t run = .ok w run') :
    w.spineDepth ≤ depth + 1 := by
  cases t with
  | var x =>
    cases done
    exact Nat.le_add_left 1 depth
  | abs p body =>
    cases done
    exact Nat.le_add_left 1 depth
  | app function argument =>
    obtain ⟨function', run₁, reducedFunction, done⟩ := bind_eq_ok done
    obtain ⟨argument', run₂, reducedArgument, done⟩ := bind_eq_ok done
    have parts : (Term.app function' argument').spineDepth ≤ depth + 1 :=
      Nat.succ_le_succ (Nat.max_le.2 ⟨partDepth reducedFunction, partDepth reducedArgument⟩)
    cases function' with
    | var x =>
      cases done
      exact parts
    | app function'' argument'' =>
      cases done
      exact parts
    | abs p body =>
      obtain ⟨contractum, run₃, -, done⟩ := bind_eq_ok done
      exact nextDepth done

/-- What a term is reduced to takes no more nested calls than there were. -/
theorem spineDepth_le_of_reduce (reduced : reduce settings depth t run = .ok w run') :
    w.spineDepth ≤ depth := by
  induction depth generalizing t w run run' with
  | zero => cases reduced
  | succ depth ih =>
    change reduceLoop settings depth _ _ t run = _ at reduced
    generalize (settings.maxSteps - run.count).toNat = left at reduced
    induction left generalizing t run with
    | zero =>
      refine spineDepth_le_of_turn ih ?_ reduced
      intro contractum run₁ halted
      cases halted
    | succ left ihLeft => exact spineDepth_le_of_turn ih ihLeft reduced

end Reduce

/-! ## Terms at rest -/

/-- Whether reducing leaves a term as it is, and the run too: no step is taken, no name is drawn and
nothing is recorded. With less than `depth` nested calls there may be too few of them, and nothing
changes then either. -/
def Rests (depth : Nat) (t : Term) : Prop :=
  ∀ settings available run, reduce settings available t run = .ok t run ∨
    (available < depth ∧ reduce settings available t run = .error .tooDeep run)

section Rests

variable {settings : Settings} {depth : Nat} {t w part : Term} {run run' : Run}

theorem rests_of_isWeak (weak : t.isWeak = true) (fits : t.spineDepth ≤ depth) :
    Rests depth t := by
  intro settings available run
  rw [reduce_eq_of_isWeak settings available weak run]
  by_cases enough : t.spineDepth ≤ available
  · exact Or.inl (if_pos enough)
  · exact Or.inr ⟨by omega, if_neg enough⟩

/-- What reduction returns is of a weak form, and its parts are at rest. -/
theorem formed_of_reduce (reduced : reduce settings depth t run = .ok w run') :
    w.WeakForm ∧ ∀ part, part.SpinePart w → Rests depth part := by
  obtain ⟨-, -, weak⟩ := walk_of_reduce reduced
  refine ⟨Term.weakForm_iff.2 weak, ?_⟩
  intro part inside
  have fits := Nat.le_trans inside.spineDepth_le (spineDepth_le_of_reduce reduced)
  exact rests_of_isWeak (inside.isWeak weak) fits

/-- The argument of a redex has been reduced by the time the redex is contracted. -/
theorem Makes.formed {caller : Call} {got : List Term} {p : Name} {body argument : Term}
    (makes : Makes settings caller got (.contract depth p body argument run)) :
    argument.WeakForm ∧ ∀ part, part.SpinePart argument → Rests depth part := by
  cases makes with
  | contractRedex _ reducedArgument => exact formed_of_reduce reducedArgument

end Rests

/-- Reduction returns terms of a weak form only, and these and their parts are at rest: they can be
reduced again with no effect, in every state and under every step limit, also one that is used up.
All redexes that are contracted while a term is reduced or normalized have an argument that is at
rest; and no contraction is left out here, since a run does not change but by them. -/
theorem reduce_rests (settings : Settings) (depth : Nat) (t : Term) (run : Run) :
    (∀ w run', reduce settings depth t run = .ok w run' →
        w.WeakForm ∧ ∀ part, part.SpinePart w → Rests depth part) ∧
      (∀ start ∈ [Call.reduce depth t run, Call.normalize depth t run],
        ∀ held inner p body argument run',
          Reached settings start held (.contract inner p body argument run') →
            argument.WeakForm ∧ ∀ part, part.SpinePart argument → Rests inner part) ∧
      Contracted settings (.reduce depth t run) run (reduce settings depth t run) ∧
      Contracted settings (.normalize depth t run) run (normalize settings depth t run) := by
  refine ⟨?_, ?_, reduce_contracted .start, normalize_contracted .start⟩
  · intro w run' reduced
    exact formed_of_reduce reduced
  · intro start among held inner p body argument run' reached
    cases reached with
    | start => simp at among
    | call _ makes => exact makes.formed

/-- The argument `a b` of the redex is stuck and is substituted as it is. The step limit is used up
then, and what has come of the redex can be reduced again all the same. -/
theorem reduce_rests_stuck :
    let stuck := Term.app (.var "a") (.var "b")
    let t := Term.app (.abs "x" (.app (.var "x") (.var "c"))) stuck
    let w := Term.app stuck (.var "c")
    let settings : Settings := ⟨1, true, 9⟩
    ∃ run', reduce settings 9 t {} = .ok w run' ∧ settings.maxSteps ≤ run'.count ∧ w.WeakForm ∧
      reduce settings 9 w run' = .ok w run' ∧ reduce settings 9 stuck run' = .ok stuck run' ∧
      ∃ held inner p body,
        Reached settings (.reduce 9 t {}) held (.contract inner p body stuck {}) ∧
          Rests inner stuck := by
  intro stuck t w settings
  obtain ⟨run', reduced, spent⟩ :
      ∃ run', reduce settings 9 t {} = .ok w run' ∧ settings.maxSteps ≤ run'.count :=
    ⟨_, rfl, by decide⟩
  obtain ⟨returned, contracts, -, -⟩ := reduce_rests settings 9 t {}
  obtain ⟨formed, rests⟩ := returned w run' reduced
  have whole := rests w .whole settings 9 run'
  have part := rests stuck (.function .whole) settings 9 run'
  have turning : Reached settings (.reduce 9 t {}) _ (.turn 8 1 t {}) :=
    Reached.start.call .enterLoop
  have contracting := turning.call (.contractRedex rfl rfl)
  obtain ⟨-, restsArgument⟩ := contracts _ (List.mem_cons_self ..) _ _ _ _ _ _ contracting
  exact ⟨run', reduced, spent, formed, whole.resolve_right (by omega),
    part.resolve_right (by omega), _, _, _, _, contracting, restsArgument stuck .whole⟩

end Eval

end Redex
