import Redex.Proofs.Evaluation

/-!
# Terms that are left as they are

Reduction leaves a weak term as it is, and normalization a term without a redex: in every state,
under every step limit, with no step, no name and no entry of the trace. All that is asked for is
the nested calls that walking down the term takes. For reduction, which does not enter abstractions,
their number is `Term.spineDepth`, and with fewer it halts and has changed nothing
(`reduce_eq_of_isWeak`); one for every level is enough in any case (`reduce_of_isWeak`,
`normalize_of_normal`).
-/

namespace Redex

theorem Term.isWeak_of_normal {t : Term} (normal : t.hasRedex = false) : t.isWeak = true := by
  rw [← Bool.not_eq_false]
  intro unfinished
  rw [hasRedex_of_not_isWeak unfinished] at normal
  cases normal

/-- The number of calls that are nested when a term is reduced that goes no further. -/
def Term.spineDepth : Term → Nat
  | var _ => 1
  | abs _ _ => 1
  | app function argument => max function.spineDepth argument.spineDepth + 1

theorem Term.spineDepth_le_height (t : Term) : t.spineDepth ≤ t.height := by
  induction t with
  | var x => exact Nat.le_refl 1
  | abs p body _ => exact Term.height_pos _
  | app function argument ihf iha =>
    simp only [spineDepth, height]
    omega

namespace Eval

variable {settings : Settings} {t : Term}

theorem reduceTurn_of_stuck {depth : Nat} {part next : Term → Action Term}
    {function argument : Term} {run : Run} (notAbs : function.isAbs = false)
    (partFunction : part function run = .ok function run)
    (partArgument : part argument run = .ok argument run) :
    reduceTurn settings depth part next (.app function argument) run =
      .ok (.app function argument) run := by
  rw [reduceTurn, bind_of_ok partFunction, bind_of_ok partArgument]
  cases function with
  | var x => rfl
  | abs p body => cases notAbs
  | app function' argument' => rfl

theorem exists_reduce_eq_turn (settings : Settings) (depth : Nat) (t : Term) (run : Run) :
    ∃ next, reduce settings (depth + 1) t run =
      reduceTurn settings depth (reduce settings depth) next t run := by
  change ∃ next, reduceLoop settings depth _ _ t run = _
  cases (settings.maxSteps - run.count).toNat with
  | zero => exact ⟨_, rfl⟩
  | succ left => exact ⟨_, rfl⟩

/-- All that reducing a weak term can come to. -/
theorem reduce_eq_of_isWeak (settings : Settings) (depth : Nat) (weak : t.isWeak = true)
    (run : Run) :
    reduce settings depth t run =
      if t.spineDepth ≤ depth then .ok t run else .error .tooDeep run := by
  induction depth generalizing t with
  | zero => cases t <;> rfl
  | succ depth ih =>
    obtain ⟨next, turn⟩ := exists_reduce_eq_turn settings depth t run
    rw [turn]
    cases t with
    | var x => exact (if_pos (Nat.le_add_left 1 depth)).symm
    | abs p body => exact (if_pos (Nat.le_add_left 1 depth)).symm
    | app function argument =>
      obtain ⟨weakFunction, notAbs, weakArgument⟩ := Term.isWeak_app.1 weak
      have partFunction := ih weakFunction
      have partArgument := ih weakArgument
      rw [Term.spineDepth]
      by_cases fitsFunction : function.spineDepth ≤ depth
      · rw [if_pos fitsFunction] at partFunction
        by_cases fitsArgument : argument.spineDepth ≤ depth
        · rw [if_pos fitsArgument] at partArgument
          rw [reduceTurn_of_stuck notAbs partFunction partArgument, if_pos (by omega)]
        · rw [if_neg fitsArgument] at partArgument
          rw [reduceTurn, bind_of_ok partFunction, bind_of_error partArgument, if_neg (by omega)]
      · rw [if_neg fitsFunction] at partFunction
        rw [reduceTurn, bind_of_error partFunction, if_neg (by omega)]

theorem reduce_of_isWeak (settings : Settings) {depth : Nat} (weak : t.isWeak = true)
    (fits : t.height ≤ depth) (run : Run) : reduce settings depth t run = .ok t run := by
  rw [reduce_eq_of_isWeak settings depth weak run]
  exact if_pos (Nat.le_trans t.spineDepth_le_height fits)

theorem normalize_of_normal (settings : Settings) {depth : Nat} (normal : t.hasRedex = false)
    (fits : t.height < depth) (run : Run) : normalize settings depth t run = .ok t run := by
  induction t generalizing depth with
  | var x =>
    obtain ⟨depth, rfl⟩ := Nat.exists_eq_add_of_le' (Nat.one_le_of_lt fits)
    rw [normalize, bind_of_ok (reduce_of_isWeak settings rfl (Nat.le_of_lt_succ fits) run)]
    rfl
  | abs p body ih =>
    obtain ⟨depth, rfl⟩ := Nat.exists_eq_add_of_le' (Nat.one_le_of_lt fits)
    rw [normalize, bind_of_ok (reduce_of_isWeak settings rfl (Nat.le_of_lt_succ fits) run)]
    simp only [Term.height] at fits
    exact bind_of_ok (ih normal (by omega)) _
  | app function argument ihf iha =>
    have weak := Term.isWeak_of_normal normal
    obtain ⟨depth, rfl⟩ := Nat.exists_eq_add_of_le' (Nat.one_le_of_lt fits)
    rw [normalize, bind_of_ok (reduce_of_isWeak settings weak (Nat.le_of_lt_succ fits) run)]
    simp only [Term.hasRedex, Bool.or_eq_false_iff] at normal
    simp only [Term.height] at fits
    refine (bind_of_ok (ihf normal.1.2 (by omega)) _).trans ?_
    exact bind_of_ok (iha normal.2 (by omega)) _

/-- A term without a redex is its own result, with no step. -/
theorem evaluate_of_normal (settings : Settings) (normal : t.hasRedex = false)
    (fits : t.renderDepth ≤ settings.depth) :
    evaluate settings t = .ok t (Run.conclude settings.traced {} t) := by
  have positive := t.height_pos
  have writable : ¬settings.depth < t.renderDepth := Nat.not_lt.2 fits
  unfold Term.renderDepth at fits
  rw [evaluate_of_ok (normalize_of_normal settings normal (by omega) {})]
  simp [writable]

end Eval

end Redex
