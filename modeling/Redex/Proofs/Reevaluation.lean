import Redex.Interpreter
import Redex.Proofs.Lockstep

/-!
# Evaluating results again

A result may hold bound names that the evaluation made up, such as `y'`. A later evaluation starts
from an empty supply, which knows nothing of them, and may make up the same name again, so that a
binder captures a variable. It is faithful as long as it never does: a supply from which certain
names were never drawn is as good as one that holds them from the start (`step?_reserve`,
`Walk.reserve`), and that one covers the term (`faithful_of_drawn`).
-/

namespace Redex

/-! ## Reserved names -/

/-- A supply that also holds certain names from the start. -/
def NameSupply.reserve (held : List Name) (supply : NameSupply) : NameSupply where
  used := held ++ supply.used

def Move.reserve (held : List Name) (move : Move) : Move :=
  { move with supply := move.supply.reserve held }

def Eval.Run.reserve (held : List Name) (run : Run) : Run :=
  { run with names := run.names.reserve held }

theorem NameSupply.fresh_reserve {supply : NameSupply} {base : Name} {held : List Name}
    (apart : (supply.fresh base).1 ∉ held) :
    (supply.reserve held).fresh base =
      ((supply.fresh base).1, (supply.fresh base).2.reserve held) := by
  obtain ⟨j, drawn, free, passed⟩ := supply.fresh_spec base
  obtain ⟨j', drawn', free', passed'⟩ := (supply.reserve held).fresh_spec base
  simp only [reserve, List.mem_append, not_or] at free' passed'
  rw [drawn] at apart
  -- Neither search can end before the other: what the one passes over is taken for the other.
  have sameIndex : j' = j := by
    rcases Nat.lt_trichotomy j' j with before | same | after
    · exact absurd (passed j' before) free'.2
    · exact same
    · exact absurd (passed' j after) (by simp [apart, free])
  have sameName : ((supply.reserve held).fresh base).1 = (supply.fresh base).1 := by
    rw [drawn, drawn', sameIndex]
  have sameUsed : ((supply.reserve held).fresh base).2.used =
      ((supply.fresh base).2.reserve held).used := by
    rw [used_fresh, sameName]
    simp [reserve]
  exact Prod.ext sameName (congrArg NameSupply.mk sameUsed)

namespace Term

theorem subst_reserve {held : List Name} (p : Name) (r t : Term) (supply : NameSupply)
    (apart : ∀ x ∈ (subst p r t supply).2.used, x ∉ held) :
    subst p r t (supply.reserve held) =
      ((subst p r t supply).1, (subst p r t supply).2.reserve held) := by
  induction p, r, t, supply using subst_induction with
  | variable_ p r x supply => rw [subst_var, subst_var]
  | application p r function argument supply ihf iha =>
    rw [subst_app] at apart
    have earlier := used_subst p r argument (subst p r function supply).2
    rw [subst_app, subst_app, ihf fun x drawn => apart x (earlier drawn)]
    dsimp only
    rw [iha apart]
  | shadowed p r body supply => rw [subst_abs_self, subst_abs_self]
  | kept p r q body supply other safe ih =>
    rw [subst_abs_of_not_free other safe] at apart
    rw [subst_abs_of_not_free other safe, subst_abs_of_not_free other safe, ih apart]
  | renamed p r q body supply other captured ihq ihp =>
    rw [subst_abs_of_free other captured] at apart
    have replaced := used_subst p r (subst q (var (supply.fresh q).1) body (supply.fresh q).2).1
      (subst q (var (supply.fresh q).1) body (supply.fresh q).2).2
    have renamed := used_subst q (var (supply.fresh q).1) body (supply.fresh q).2
    have apartName : (supply.fresh q).1 ∉ held := by
      apply apart
      apply replaced
      apply renamed
      simp
    rw [subst_abs_of_free other captured, subst_abs_of_free other captured,
      NameSupply.fresh_reserve apartName]
    dsimp only
    rw [ihq fun x drawn => apart x (replaced drawn), ihp apart]

theorem weakStep?_reserve {held : List Name} {t : Term} {supply : NameSupply} {move : Move}
    (stepped : t.weakStep? supply = some move) (apart : ∀ x ∈ move.supply.used, x ∉ held) :
    t.weakStep? (supply.reserve held) = some (move.reserve held) := by
  induction t generalizing move with
  | var x => cases stepped
  | abs p body _ => cases stepped
  | app function argument ihf iha =>
    rcases weakStep?_cases stepped with ⟨inner, innerStepped, rfl⟩ |
      ⟨weak, inner, innerStepped, rfl⟩ | ⟨weak, p, body, rfl, rfl⟩
    · exact weakStep?_function (ihf innerStepped apart) argument
    · exact weakStep?_argument weak (iha innerStepped apart)
    · have contracted := subst_reserve p argument body supply apart
      rw [weakStep?_redex p body _ weak, Move.contracting, contracted]
      rfl

theorem step?_reserve {held : List Name} {t : Term} {supply : NameSupply} {move : Move}
    (stepped : t.step? supply = some move) (apart : ∀ x ∈ move.supply.used, x ∉ held) :
    t.step? (supply.reserve held) = some (move.reserve held) := by
  induction t generalizing move with
  | var x => cases stepped
  | abs p body ih =>
    obtain ⟨inner, innerStepped, rfl⟩ := Option.map_eq_some_iff.1 stepped
    exact step?_body (ih innerStepped apart) p
  | app function argument ihf iha =>
    rcases step?_cases stepped with
      weakly | ⟨stuck, ⟨inner, innerStepped, rfl⟩ | ⟨normal, inner, innerStepped, rfl⟩⟩
    · exact step?_of_weakStep? (weakStep?_reserve weakly apart)
    · exact step?_stuckFunction stuck (ihf innerStepped apart)
    · exact step?_stuckArgument stuck normal (iha innerStepped apart)

end Term

namespace Eval

theorem Walk.used_subset {budget : Int} {traced : Bool} {t u : Term} {run run' : Run}
    {redexes : List Term} (walk : Walk budget traced Term.step? t run redexes u run') :
    run.names.used ⊆ run'.names.used := by
  induction walk with
  | stay t run => exact List.Subset.refl _
  | move stepped _ _ ih => exact List.Subset.trans (Term.moves_of_step? stepped).used_subset ih

theorem Walk.reserve {budget : Int} {traced : Bool} {t u : Term} {run run' : Run}
    {redexes : List Term} {held : List Name}
    (walk : Walk budget traced Term.step? t run redexes u run')
    (apart : ∀ x ∈ run'.names.used, x ∉ held) :
    Walk budget traced Term.step? t (run.reserve held) redexes u (run'.reserve held) := by
  induction walk with
  | stay t run => exact .stay t _
  | @move t u run run' redexes move stepped afforded rest ih =>
    have aside : t.step? (run.reserve held).names = some (move.reserve held) :=
      Term.step?_reserve stepped fun x inSupply => apart x (rest.used_subset inSupply)
    have later : Walk budget traced Term.step? (move.reserve held).result
        ((run.reserve held).record traced (move.reserve held)) redexes u (run'.reserve held) :=
      ih apart
    have whole := Walk.move aside afforded later
    exact whole

/-! ## Names that an evaluation draws -/

/-- The names that an evaluation made up, however it ended. -/
def drawn (settings : Settings) (t : Term) : List Name :=
  match evaluate settings t with
  | .ok _ run => run.names.used
  | .error _ run => run.names.used

/-- An evaluation that draws none of certain names is faithful if these cover the term. -/
theorem faithful_of_drawn {settings : Settings} {t : Term} {held : List Name}
    (settled : Settled (evaluate settings t)) (covers : NameSupply.Covers ⟨held⟩ t)
    (apart : ∀ x ∈ drawn settings t, x ∉ held) :
    Faithful settings.maxSteps settings.traced t {} := by
  intro redexes u run' move walk afforded stepped
  obtain ⟨whole, last, run, wholeWalk, halted, outcome⟩ := evaluate_halts settled
  have apartEnd : ∀ x ∈ run.names.used, x ∉ held := by
    unfold drawn at apart
    rcases outcome with ⟨_, ended⟩ | ⟨_, ended⟩
    · rw [ended] at apart
      simpa only [names_conclude] using apart
    · rw [ended] at apart
      exact apart
  have longer := walk.trans (.move stepped afforded (.stay _ _))
  obtain ⟨rest, -, continued⟩ := wholeWalk.extends halted longer
  have apartMove := fun x inSupply => apartEnd x (continued.used_subset inSupply)
  have apartWalk := fun x inSupply =>
    apartMove x ((Term.moves_of_step? stepped).used_subset inSupply)
  -- The same steps from a supply that holds the names, which covers the term all along.
  have start : (Run.reserve held {}).names.Covers t := by
    simpa [Run.reserve, NameSupply.reserve] using covers
  have covered := (walk.reserve apartWalk).covers start
  rw [Term.step?_nameless covered, Run.reserve, Term.step?_reserve stepped apartMove]
  rfl

end Eval

/-! ## Results as arguments -/

/-- Two evaluations come out alike: with results that differ in bound names only, or both beyond the
step limit. -/
def Alike (maxSteps : Int) : Except Failure Evaluation → Except Failure Evaluation → Prop
  | .ok evaluation, .ok evaluation' => evaluation.result.alphaEq evaluation'.result = true
  | .error failure, .error failure' =>
    (∃ steps, failure = .reported (.ofStepLimit maxSteps steps none)) ∧
      ∃ steps, failure' = .reported (.ofStepLimit maxSteps steps none)
  | _, _ => False

open Eval

theorem alike_of_agree {settings : Settings} {t t' : Term}
    (agree : Agree (evaluate settings t) (evaluate settings t')) :
    Alike settings.maxSteps (interpret settings t) (interpret settings t') := by
  unfold interpret
  generalize evaluate settings t = outcome at agree ⊢
  generalize evaluate settings t' = outcome' at agree ⊢
  cases agree with
  | results run run' same => exact same
  | limits run run' => exact ⟨⟨run.steps, rfl⟩, ⟨run'.steps, rfl⟩⟩

/-- A function whose body is a term with any names, such as an earlier result, is applied like one
whose body has the same form and letters for names, exactly as long as every step is faithful: then
the two evaluations are in step and come out alike. For this it is enough that none of the names
that are drawn is one of the body's. -/
theorem reevaluate_alike {p : Name} {r s u : Term} (letter : IsLetter p) (letteredU : u.Lettered)
    (letteredS : s.Lettered) (same : r.alphaEq s = true) (maxSteps : Int) (traced : Bool) :
    let first := Term.app (.abs p r) u
    let second := Term.app (.abs p s) u
    (InStep maxSteps traced first {} second {} ↔ Faithful maxSteps traced first {}) ∧
      (∃ enough, ∀ depth, enough ≤ depth → Settled (evaluate ⟨maxSteps, traced, depth⟩ first) ∧
        Settled (evaluate ⟨maxSteps, traced, depth⟩ second)) ∧
      ∀ depth, Settled (evaluate ⟨maxSteps, traced, depth⟩ first) →
        Settled (evaluate ⟨maxSteps, traced, depth⟩ second) →
        ((∀ x ∈ drawn ⟨maxSteps, traced, depth⟩ first, x ∉ r.names) →
          Faithful maxSteps traced first {}) ∧
        (Faithful maxSteps traced first {} →
          Alike maxSteps (interpret ⟨maxSteps, traced, depth⟩ first)
            (interpret ⟨maxSteps, traced, depth⟩ second)) := by
  intro first second
  have sameWhole : first.alphaEq second = true :=
    Term.alphaEq_app (Term.alphaEq_abs p same) ((Term.alphaEq_iff u u).2 rfl)
  have unprimed : ∀ supply : NameSupply, Primed p → p ∈ supply.used := fun _ primed =>
    (letter.not_primed primed).elim
  have coversFirst : NameSupply.Covers ⟨r.names⟩ first := by
    refine NameSupply.covers_app.2 ⟨NameSupply.covers_abs.2 ⟨unprimed _, ?_⟩, letteredU.covers _⟩
    exact fun x occurs _ => occurs
  have coversSecond : (Run.names {}).Covers second :=
    NameSupply.covers_app.2
      ⟨NameSupply.covers_abs.2 ⟨unprimed _, letteredS.covers _⟩, letteredU.covers _⟩
  have inStep : InStep maxSteps traced first {} second {} ↔ Faithful maxSteps traced first {} :=
    inStep_iff_faithful (faithful_of_covers coversSecond) sameWhole rfl
  refine ⟨inStep, ?_, ?_⟩
  · obtain ⟨enough, settled⟩ := exists_settled maxSteps traced first
    obtain ⟨enough', settled'⟩ := exists_settled maxSteps traced second
    refine ⟨max enough enough', ?_⟩
    intro depth deep
    exact ⟨settled depth (by omega), settled' depth (by omega)⟩
  · intro depth settled settled'
    refine ⟨?_, ?_⟩
    · intro apart
      exact faithful_of_drawn settled coversFirst apart
    · intro faithful
      have agree := agree_of_inStep (inStep.2 faithful) settled settled'
      exact alike_of_agree agree

/-- The result of `(λq. λy. λx. y x p) y` is `λy'. λx. y' x p`, and to put `x` in the place of `p`
draws another name than `y'`. -/
theorem reevaluate_alike_apart :
    let r := Term.abs "y'" (.abs "x" (.app (.app (.var "y'") (.var "x")) (.var "p")))
    let s := Term.abs "z" (.abs "x" (.app (.app (.var "z") (.var "x")) (.var "p")))
    (∃ t run, parse 20 "(\\q.\\y.\\x.y x p) y" = .ok t ∧
        evaluate ⟨9, false, 20⟩ t = .ok r run) ∧
      drawn ⟨9, false, 20⟩ (.app (.abs "p" r) (.var "x")) = ["x'"] ∧
      Alike 9 (interpret ⟨9, false, 20⟩ (.app (.abs "p" r) (.var "x")))
        (interpret ⟨9, false, 20⟩ (.app (.abs "p" s) (.var "x"))) := by
  intro r s
  have earlier : ∃ t run, parse 20 "(\\q.\\y.\\x.y x p) y" = .ok t ∧
      evaluate ⟨9, false, 20⟩ t = .ok r run := by
    refine ⟨.app (.abs "q" (.abs "y" (.abs "x" (.app (.app (.var "y") (.var "x")) (.var "p")))))
      (.var "y"), ⟨⟨["y'"]⟩, 1, #[]⟩, ?_, ?_⟩
    · decide +kernel
    · decide +kernel
  have done : evaluate ⟨9, false, 20⟩ (.app (.abs "p" r) (.var "x")) =
      .ok (.abs "y'" (.abs "x'" (.app (.app (.var "y'") (.var "x'")) (.var "x"))))
        ⟨⟨["x'"]⟩, 1, #[]⟩ := by decide +kernel
  have done' : evaluate ⟨9, false, 20⟩ (.app (.abs "p" s) (.var "x")) =
      .ok (.abs "z" (.abs "x'" (.app (.app (.var "z") (.var "x'")) (.var "x"))))
        ⟨⟨["x'"]⟩, 1, #[]⟩ := by decide +kernel
  have names : drawn ⟨9, false, 20⟩ (.app (.abs "p" r) (.var "x")) = ["x'"] := by
    rw [drawn, done]
  have letters : IsLetter "p" ∧ (Term.var "x").Lettered ∧ s.Lettered ∧ r.alphaEq s = true := by
    decide
  obtain ⟨letter, letteredU, letteredS, same⟩ := letters
  obtain ⟨-, -, again⟩ := reevaluate_alike letter letteredU letteredS same 9 false
  obtain ⟨faithful, alike⟩ := again 20 (by rw [done]; trivial) (by rw [done']; trivial)
  refine ⟨earlier, names, alike (faithful ?_)⟩
  rw [names]
  decide

/-- The result of `p ((λa. λy. (λa. λy. a) y) y)` is `p (λy'. λy. y')`, whose argument chooses the
first of two. To put `λk. k a y` in the place of `p` draws `y'` once more: the inner binder captures
the variable of the outer one, and the second is chosen. -/
theorem capture_of_drawn_twice :
    let r := Term.app (.var "p") (.abs "y'" (.abs "y" (.var "y'")))
    let s := Term.app (.var "p") (.abs "z" (.abs "y" (.var "z")))
    let u := Term.abs "k" (.app (.app (.var "k") (.var "a")) (.var "y"))
    (∃ t run, parse 20 "p ((\\a.\\y.(\\a.\\y.a) y) y)" = .ok t ∧
        evaluate ⟨9, false, 20⟩ t = .ok r run) ∧
      parse 20 "\\k.k a y" = .ok u ∧ IsLetter "p" ∧ s.Lettered ∧ r.alphaEq s = true ∧
      ¬Alike 9 (interpret ⟨9, false, 20⟩ (.app (.abs "p" r) u))
        (interpret ⟨9, false, 20⟩ (.app (.abs "p" s) u)) := by
  intro r s u
  have earlier : ∃ t run, parse 20 "p ((\\a.\\y.(\\a.\\y.a) y) y)" = .ok t ∧
      evaluate ⟨9, false, 20⟩ t = .ok r run := by
    refine ⟨.app (.var "p") (.app
      (.abs "a" (.abs "y" (.app (.abs "a" (.abs "y" (.var "a"))) (.var "y")))) (.var "y")),
      ⟨⟨["y'"]⟩, 2, #[]⟩, ?_, ?_⟩
    · decide +kernel
    · decide +kernel
  refine ⟨earlier, by decide +kernel, by decide, by decide, by decide, ?_⟩
  have captured : evaluate ⟨9, false, 20⟩ (.app (.abs "p" r) u) =
      .ok (.var "y") ⟨⟨["y'"]⟩, 4, #[]⟩ := by decide +kernel
  have kept : evaluate ⟨9, false, 20⟩ (.app (.abs "p" s) u) =
      .ok (.var "a") ⟨⟨["y'"]⟩, 4, #[]⟩ := by decide +kernel
  rw [interpret, interpret, captured, kept]
  intro alike
  change Term.alphaEq _ _ = true at alike
  exact absurd alike (by decide)

end Redex
