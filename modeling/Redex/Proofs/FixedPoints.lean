import Redex.Proofs.Budget
import Redex.Proofs.NormalForms

/-!
# Normal forms are fixed points, and only they are

Evaluation leaves a term without a redex as it is and takes no step for it, whatever the budget. A
term with a redex, however deep it lies, is not left as it is: if no step is allowed the limit is
met, since the strategy overlooks no redex (`reduce_of_spent`, `normalize_of_spent`). What an
evaluation returns has no redex, so that evaluating it again changes nothing; and the nested calls
that were enough the first time are enough again (`height_lt_of_normalize`).
-/

namespace Redex.Eval

/-! ## Without a step left -/

section Spent

variable {settings : Settings} {t : Term} {run : Run}

theorem contract_of_spent (spent : settings.maxSteps ≤ run.count) (depth : Nat) (p : Name)
    (body argument : Term) :
    contract settings depth p body argument run = .error .stepLimit run :=
  if_pos spent

/-- The loop meets the limit on every term that is not weak. -/
theorem reduce_of_spent (spent : settings.maxSteps ≤ run.count) {depth : Nat}
    (unfinished : t.isWeak = false) (fits : t.height ≤ depth) :
    reduce settings depth t run = .error .stepLimit run := by
  induction t generalizing depth with
  | var x => cases unfinished
  | abs p body _ => cases unfinished
  | app function argument ihf iha =>
    have positive : 1 ≤ depth := Nat.le_trans (Term.height_pos _) fits
    obtain ⟨depth, rfl⟩ := Nat.exists_eq_add_of_le' positive
    simp only [Term.height] at fits
    have noTurns : (settings.maxSteps - run.count).toNat = 0 := by omega
    change reduceLoop settings depth _ _ (.app function argument) run = _
    rw [noTurns, reduceLoop, reduceTurn]
    cases weakFunction : function.isWeak with
    | false => exact bind_of_error (ihf weakFunction (by omega)) _
    | true =>
      rw [bind_of_ok (reduce_of_isWeak settings weakFunction (by omega) run)]
      cases weakArgument : argument.isWeak with
      | false => exact bind_of_error (iha weakArgument (by omega)) _
      | true =>
        rw [bind_of_ok (reduce_of_isWeak settings weakArgument (by omega) run)]
        -- Both parts are weak and the whole is not, so that it is a redex.
        simp only [Term.isWeak, weakFunction, weakArgument, Bool.true_and, Bool.and_true,
          Bool.not_eq_false'] at unfinished
        cases function with
        | var x => cases unfinished
        | app function' argument' => cases unfinished
        | abs p body => exact bind_of_error (contract_of_spent spent depth p body argument) _

/-- The limit is met on every term with a redex, however deep it lies. -/
theorem normalize_of_spent (spent : settings.maxSteps ≤ run.count) {depth : Nat}
    (unfinished : t.hasRedex = true) (fits : t.height < depth) :
    normalize settings depth t run = .error .stepLimit run := by
  induction t generalizing depth with
  | var x => cases unfinished
  | abs p body ih =>
    obtain ⟨depth, rfl⟩ := Nat.exists_eq_add_of_le' (Nat.one_le_of_lt fits)
    rw [normalize, bind_of_ok (reduce_of_isWeak settings rfl (Nat.le_of_lt_succ fits) run)]
    simp only [Term.height] at fits
    exact bind_of_error (ih unfinished (by omega)) _
  | app function argument ihf iha =>
    obtain ⟨depth, rfl⟩ := Nat.exists_eq_add_of_le' (Nat.one_le_of_lt fits)
    rw [normalize]
    cases weak : (Term.app function argument).isWeak with
    | false => exact bind_of_error (reduce_of_spent spent weak (Nat.le_of_lt_succ fits)) _
    | true =>
      obtain ⟨-, notAbs, -⟩ := Term.isWeak_app.1 weak
      rw [bind_of_ok (reduce_of_isWeak settings weak (Nat.le_of_lt_succ fits) run)]
      simp only [Term.height] at fits
      simp only [Term.hasRedex, notAbs, Bool.false_or, Bool.or_eq_true] at unfinished
      cases inFunction : function.hasRedex with
      | true => exact bind_of_error (ihf inFunction (by omega)) _
      | false =>
        have inArgument := unfinished.resolve_left (by simp [inFunction])
        refine (bind_of_ok (normalize_of_normal settings inFunction (by omega) run) _).trans ?_
        exact bind_of_error (iha inArgument (by omega)) _

end Spent

/-! ## Once more -/

section Again

variable {settings : Settings} {t result : Term} {run run' : Run}

/-- A result is no higher than the nested calls that it was reached with. -/
theorem height_lt_of_normalize {depth : Nat}
    (normalized : normalize settings depth t run = .ok result run') : result.height < depth := by
  induction depth generalizing t result run run' with
  | zero => cases normalized
  | succ depth ih =>
    rw [normalize] at normalized
    obtain ⟨w, run₁, reduced, rest⟩ := bind_eq_ok normalized
    cases w with
    | var x =>
      cases rest
      cases depth with
      | zero => cases reduced
      | succ depth => exact Nat.succ_lt_succ (Nat.succ_pos depth)
    | abs p body =>
      obtain ⟨body', run₂, inBody, rest⟩ := bind_eq_ok rest
      cases rest
      exact Nat.succ_lt_succ (ih inBody)
    | app function argument =>
      obtain ⟨function', run₂, inFunction, rest⟩ := bind_eq_ok rest
      obtain ⟨argument', run₃, inArgument, rest⟩ := bind_eq_ok rest
      cases rest
      exact Nat.succ_lt_succ (Nat.max_lt.2 ⟨ih inFunction, ih inArgument⟩)

/-- A result is returned as it is, with no step, under every budget. -/
theorem evaluate_result (done : evaluate settings t = .ok result run) (maxSteps : Int) :
    evaluate { settings with maxSteps := maxSteps } result =
      .ok result (Run.conclude settings.traced {} result) := by
  obtain ⟨-, -, -, normal, -⟩ := evaluate_ok done
  rcases outcome : normalize settings settings.depth t {} with ⟨normalForm, last⟩ | ⟨halt, last⟩
  · rw [evaluate_of_ok outcome] at done
    split at done
    · cases done
    · next writable =>
      cases done
      have again := normalize_of_normal { settings with maxSteps := maxSteps } normal
        (height_lt_of_normalize outcome) {}
      rw [evaluate_of_ok again, if_neg writable]
  · rw [evaluate_of_error outcome] at done
    cases done

end Again

/-! ## Terms without a redex and terms with one -/

section FixedPoints

variable {settings : Settings} {t : Term}

theorem conclude_fresh (traced : Bool) (t : Term) :
    Run.conclude traced {} t = { steps := if traced then #[⟨0, t.render⟩] else #[] } := by
  cases traced with
  | false => rfl
  | true => rfl

/-- A term without a redex is returned, unless it is too high for the nested calls. -/
theorem evaluate_cases_of_normal (settings : Settings) (normal : t.hasRedex = false) :
    evaluate settings t = .ok t (Run.conclude settings.traced {} t) ∨
      settings.depth < t.renderDepth ∧ ∃ run, evaluate settings t = .error .tooDeep run := by
  have stuck := (Term.step?_eq_none_iff t {}).2 normal
  rcases outcome : evaluate settings t with ⟨result, run⟩ | ⟨_ | _, run⟩
  · obtain ⟨redexes, last, walk, -, rfl⟩ := evaluate_ok outcome
    cases walk.eq_nil_of_halted (Or.inl stuck)
    cases walk
    exact Or.inl rfl
  · obtain ⟨redexes, u, walk, unfinished, -⟩ := evaluate_limit outcome
    cases walk.eq_nil_of_halted (Or.inl stuck)
    cases walk
    rw [normal] at unfinished
    cases unfinished
  · refine Or.inr ⟨Nat.lt_of_not_le ?_, run, rfl⟩
    intro fits
    cases outcome.symm.trans (evaluate_of_normal settings normal fits)

/-- A term with a redex meets the limit at once if no step is allowed, unless it is too high for the
nested calls. -/
theorem evaluate_cases_of_redex (exhausted : settings.maxSteps ≤ 0)
    (unfinished : t.hasRedex = true) :
    CutShort settings t #[] ∨
      settings.depth ≤ t.height ∧ ∃ run, evaluate settings t = .error .tooDeep run := by
  have spent : settings.maxSteps ≤ (Run.count {} : Int) := exhausted
  rcases outcome : evaluate settings t with ⟨result, run⟩ | ⟨_ | _, run⟩
  · obtain ⟨redexes, last, walk, normal, -⟩ := evaluate_ok outcome
    cases walk.eq_nil_of_halted (Or.inr spent)
    cases walk
    rw [normal] at unfinished
    cases unfinished
  · obtain ⟨redexes, u, walk, -, -⟩ := evaluate_limit outcome
    cases walk.eq_nil_of_halted (Or.inr spent)
    cases walk
    exact Or.inl (cutShort_of_limit outcome List.prefix_rfl fun _ => rfl)
  · refine Or.inr ⟨Nat.le_of_not_lt ?_, run, rfl⟩
    intro fits
    cases outcome.symm.trans (evaluate_of_error (normalize_of_spent spent unfinished fits))

end FixedPoints

/-- Terms without a redex are fixed points of evaluation, and only they are. Such a term is returned
under every budget, with no step and nothing but itself in the trace. A term with a redex anywhere
meets the limit if no step is allowed. So evaluation is idempotent: what it returns is returned
again, with no step, under every budget. A term that is too high for the nested calls that are
allowed is the only exception. -/
theorem evaluate_fixes_exactly_normal (t : Term) (settings : Settings) :
    (t.hasRedex = false →
      evaluate settings t =
          .ok t { steps := if settings.traced then #[⟨0, t.render⟩] else #[] } ∨
        settings.depth < t.renderDepth ∧ ∃ run, evaluate settings t = .error .tooDeep run) ∧
      (t.hasRedex = true → settings.maxSteps = 0 →
        CutShort settings t #[] ∨
          settings.depth ≤ t.height ∧ ∃ run, evaluate settings t = .error .tooDeep run) ∧
      ∀ result run, evaluate settings t = .ok result run → ∀ maxSteps,
        evaluate { settings with maxSteps := maxSteps } result =
          .ok result { steps := if settings.traced then #[⟨0, result.render⟩] else #[] } := by
  refine ⟨?_, ?_, ?_⟩
  · intro normal
    rw [← conclude_fresh]
    exact evaluate_cases_of_normal settings normal
  · intro unfinished exhausted
    exact evaluate_cases_of_redex (Int.le_of_eq exhausted) unfinished
  · intro result run done maxSteps
    rw [← conclude_fresh]
    exact evaluate_result done maxSteps

/-- The term `x (λy. y z)` is returned under a negative budget. The term `λx. x ((λy. y) z)` holds a
redex under a binder and behind a variable: with no step the limit is met, and with one step the
result is returned once more as it is. -/
theorem evaluate_fixes_exactly_normal_inside :
    let normal := Term.app (.var "x") (.abs "y" (.app (.var "y") (.var "z")))
    let t := Term.abs "x" (.app (.var "x") (.app (.abs "y" (.var "y")) (.var "z")))
    let result := Term.abs "x" (.app (.var "x") (.var "z"))
    evaluate ⟨-3, true, 30⟩ normal = .ok normal ⟨⟨[]⟩, 0, #[⟨0, "x (λy. (y z))"⟩]⟩ ∧
      CutShort ⟨0, true, 30⟩ t #[] ∧
      evaluate ⟨1, false, 30⟩ t = .ok result ⟨⟨[]⟩, 1, #[]⟩ ∧
      evaluate ⟨0, false, 30⟩ result = .ok result ⟨⟨[]⟩, 0, #[]⟩ := by
  intro normal t result
  have done : evaluate ⟨1, false, 30⟩ t = .ok result ⟨⟨[]⟩, 1, #[]⟩ := by decide +kernel
  refine ⟨?_, ?_, done, ?_⟩
  · rcases (evaluate_fixes_exactly_normal normal ⟨-3, true, 30⟩).1 rfl with same | ⟨high, -⟩
    · exact same
    · exact absurd high (by decide)
  · rcases (evaluate_fixes_exactly_normal t ⟨0, true, 30⟩).2.1 rfl rfl with short | ⟨high, -⟩
    · exact short
    · exact absurd high (by decide)
  · exact (evaluate_fixes_exactly_normal t ⟨1, false, 30⟩).2.2 result _ done 0

end Redex.Eval
