import Mathlib.Control.Monad.Basic
import Redex.Proofs.Depth
import Redex.Proofs.Letters
import Redex.Proofs.Substitution

/-!
# Evaluation is β-reduction

What a β-step means is said on nameless forms: `Contracts` picks one redex of a term and gives the
form that is left when its argument takes the place of the variable that its function binds, and
`Contractions` is a sequence of such steps. Neither knows of supplies, fresh names or an order.

The evaluator substitutes names and draws fresh ones from a supply that never looks at a term. It is
sound as long as the supply covers the whole term, the parts that are not being worked on included:
this holds at the start, where no name carries a prime, and every step keeps it (`Moves.covers`), so
that every step is a contraction of the redex that it records (`Moves.contracts`).
-/

namespace Redex

namespace Term

/-- Contracting one redex of a term under a row of binders, the innermost first, leaves a form. -/
inductive Contracts : List Name → Term → Term → Nameless → Prop
  | here (binders : List Name) (p : Name) (body argument : Term) :
    Contracts binders (app (abs p body) argument) (app (abs p body) argument)
      ((body.namelessUnder (p :: binders)).instantiate 0 (argument.namelessUnder binders))
  | inBody {binders : List Name} {p : Name} {body redex : Term} {form : Nameless} :
    Contracts (p :: binders) body redex form → Contracts binders (abs p body) redex (.abs form)
  | inFunction {binders : List Name} {function argument redex : Term} {form : Nameless} :
    Contracts binders function redex form →
    Contracts binders (app function argument) redex (.app form (argument.namelessUnder binders))
  | inArgument {binders : List Name} {function argument redex : Term} {form : Nameless} :
    Contracts binders argument redex form →
    Contracts binders (app function argument) redex (.app (function.namelessUnder binders) form)

/-- A sequence of terms, each a contraction of the one before up to bound names, and the redexes
that are contracted on the way from the first to the last. -/
inductive Contractions : Term → List Term → Term → Prop
  | done (t : Term) : Contractions t [] t
  | step {t t' u redex : Term} {redexes : List Term} :
    Contracts [] t redex t'.nameless → Contractions t' redexes u →
    Contractions t (redex :: redexes) u

theorem Contracts.hasRedex {binders : List Name} {t redex : Term} {form : Nameless}
    (contracts : Contracts binders t redex form) : t.hasRedex = true := by
  induction contracts with
  | here binders p body argument => rfl
  | inBody _ ih => exact ih
  | inFunction _ ih => simp [Term.hasRedex, ih]
  | inArgument _ ih => simp [Term.hasRedex, ih]

/-! ## One step -/

/-- What a step can do, whatever the order: contract a redex somewhere in the term. -/
inductive Moves : Term → NameSupply → Move → Prop
  | contract (p : Name) (body argument : Term) (supply : NameSupply) :
    Moves (app (abs p body) argument) supply (.contracting p body argument supply)
  | inBody {body : Term} {supply : NameSupply} {move : Move} (p : Name) :
    Moves body supply move → Moves (abs p body) supply (move.within fun body => abs p body)
  | inFunction {function : Term} {supply : NameSupply} {move : Move} (argument : Term) :
    Moves function supply move →
    Moves (app function argument) supply (move.within fun function => app function argument)
  | inArgument {argument : Term} {supply : NameSupply} {move : Move} (function : Term) :
    Moves argument supply move →
    Moves (app function argument) supply (move.within fun argument => app function argument)

theorem moves_of_weakStep? {t : Term} {supply : NameSupply} {move : Move}
    (stepped : t.weakStep? supply = some move) : Moves t supply move := by
  induction t generalizing move with
  | var x => cases stepped
  | abs p body _ => cases stepped
  | app function argument ihf iha =>
    rcases weakStep?_cases stepped with ⟨inner, innerStepped, rfl⟩ | ⟨_, inner, innerStepped, rfl⟩ |
      ⟨_, p, body, rfl, rfl⟩
    · exact .inFunction argument (ihf innerStepped)
    · exact .inArgument function (iha innerStepped)
    · exact .contract p body argument supply

theorem moves_of_step? {t : Term} {supply : NameSupply} {move : Move}
    (stepped : t.step? supply = some move) : Moves t supply move := by
  induction t generalizing move with
  | var x => cases stepped
  | abs p body ih =>
    obtain ⟨inner, innerStepped, rfl⟩ := Option.map_eq_some_iff.1 stepped
    exact .inBody p (ih innerStepped)
  | app function argument ihf iha =>
    rcases step?_cases stepped with
      weakly | ⟨_, ⟨inner, innerStepped, rfl⟩ | ⟨_, inner, innerStepped, rfl⟩⟩
    · exact moves_of_weakStep? weakly
    · exact .inFunction argument (ihf innerStepped)
    · exact .inArgument function (iha innerStepped)

theorem Moves.used_subset {t : Term} {supply : NameSupply} {move : Move}
    (moves : Moves t supply move) : supply.used ⊆ move.supply.used := by
  induction moves with
  | contract p body argument supply => exact used_subst p argument body supply
  | inBody p _ ih => exact ih
  | inFunction argument _ ih => exact ih
  | inArgument function _ ih => exact ih

/-- A supply that covers a term covers it after every step. -/
theorem Moves.covers {t : Term} {supply : NameSupply} {move : Move} (moves : Moves t supply move)
    (covers : supply.Covers t) : move.supply.Covers move.result := by
  induction moves with
  | contract p body argument supply =>
    obtain ⟨inFunction, inArgument⟩ := NameSupply.covers_app.1 covers
    exact covers_subst inArgument (NameSupply.covers_abs.1 inFunction).2
  | inBody p inner ih =>
    obtain ⟨inP, inBody⟩ := NameSupply.covers_abs.1 covers
    exact NameSupply.covers_abs.2 ⟨fun primed => inner.used_subset (inP primed), ih inBody⟩
  | inFunction argument inner ih =>
    -- The other part stands still while the supply grows.
    obtain ⟨inFunction, inArgument⟩ := NameSupply.covers_app.1 covers
    exact NameSupply.covers_app.2 ⟨ih inFunction, inArgument.mono inner.used_subset⟩
  | inArgument function inner ih =>
    obtain ⟨inFunction, inArgument⟩ := NameSupply.covers_app.1 covers
    exact NameSupply.covers_app.2 ⟨inFunction.mono inner.used_subset, ih inArgument⟩

/-- From a supply that covers the term, a step contracts the redex that it names. -/
theorem Moves.contracts {t : Term} {supply : NameSupply} {move : Move} (moves : Moves t supply move)
    (covers : supply.Covers t) (binders : List Name) :
    Contracts binders t move.redex (move.result.namelessUnder binders) := by
  induction moves generalizing binders with
  | contract p body argument supply =>
    have contractum := namelessUnder_subst covers binders
    simp only [Move.contracting, contractum]
    exact .here binders p body argument
  | inBody p _ ih => exact .inBody (ih (NameSupply.covers_abs.1 covers).2 (p :: binders))
  | inFunction argument _ ih => exact .inFunction (ih (NameSupply.covers_app.1 covers).1 binders)
  | inArgument function _ ih => exact .inArgument (ih (NameSupply.covers_app.1 covers).2 binders)

end Term

/-! ## Whole runs -/

namespace Eval

theorem Walk.covers {budget : Int} {traced : Bool} {t u : Term} {run run' : Run}
    {redexes : List Term} (walk : Walk budget traced Term.step? t run redexes u run')
    (covers : run.names.Covers t) : run'.names.Covers u := by
  induction walk with
  | stay t run => exact covers
  | move stepped _ _ ih => exact ih ((Term.moves_of_step? stepped).covers covers)

/-- A walk from a covered term contracts the redexes that it lists, one after the other. -/
theorem Walk.contractions {budget : Int} {traced : Bool} {t u : Term} {run run' : Run}
    {redexes : List Term} (covers : run.names.Covers t)
    (walk : Walk budget traced Term.step? t run redexes u run') :
    Term.Contractions t redexes u := by
  induction walk with
  | stay t run => exact .done t
  | move stepped _ _ ih =>
    have moves := Term.moves_of_step? stepped
    exact .step (moves.contracts covers []) (ih (moves.covers covers))

/-- What a traced evaluation owes to its caller: a sequence of contractions from the term at the
start, to the result if there is one, with the text of every redex recorded under its number. A
result is recorded after them. -/
def Explained (t : Term) : EStateM.Result Halt Run Term → Prop
  | .ok result run => ∃ redexes, Term.Contractions t redexes result ∧
      run.count = redexes.length ∧
      run.steps.toList =
        redexes.mapIdx (fun i redex => (⟨(i : Nat), redex.render⟩ : Step)) ++
          [⟨run.count, result.render⟩]
  | .error .stepLimit run => ∃ redexes u, Term.Contractions t redexes u ∧
      run.count = redexes.length ∧
      run.steps.toList = redexes.mapIdx fun i redex => (⟨(i : Nat), redex.render⟩ : Step)
  | .error .tooDeep _ => True

theorem explained_of_covers {settings : Settings} {t : Term} (traced : settings.traced = true)
    (covers : NameSupply.Covers {} t) : Explained t (evaluate settings t) := by
  rcases outcome : evaluate settings t with ⟨result, run'⟩ | ⟨_ | _, run⟩
  · obtain ⟨redexes, run, walk, -, rfl⟩ := evaluate_ok outcome
    rw [traced] at walk ⊢
    have count := walk.count_eq
    have steps := walk.steps_eq
    simp only [Nat.zero_add, List.nil_append] at count steps
    refine ⟨redexes, walk.contractions covers, count, ?_⟩
    simp [Run.conclude, steps]
  · obtain ⟨redexes, u, walk, -, -⟩ := evaluate_limit outcome
    rw [traced] at walk
    have count := walk.count_eq
    have steps := walk.steps_eq
    simp only [Nat.zero_add, List.nil_append] at count steps
    exact ⟨redexes, u, walk.contractions covers, count, steps⟩
  · trivial

/-- Every evaluation of a term that was read from a text is a sequence of contractions, with its
result or without, and its trace is the list of the redexes. For want of nested calls it halts only
if their number is below a bound. -/
theorem evaluate_contracts {nesting : Nat} {source : String} {t : Term}
    (read : parse nesting source = .ok t) (maxSteps : Int) :
    (∀ depth, Explained t (evaluate ⟨maxSteps, true, depth⟩ t)) ∧
      ∃ enough, ∀ depth, enough ≤ depth → Settled (evaluate ⟨maxSteps, true, depth⟩ t) := by
  refine ⟨?_, exists_settled maxSteps true t⟩
  intro depth
  have covers := (isLetter_of_parse read).covers {}
  exact explained_of_covers rfl covers

theorem evaluate_contracts_renaming :
    let t := Term.app (.abs "x" (.abs "y" (.app (.var "x") (.var "y")))) (.var "y")
    parse 20 "(\\x.\\y.x y) y" = .ok t ∧
      evaluate ⟨7, true, 20⟩ t =
        .ok (.abs "y'" (.app (.var "y") (.var "y'")))
          ⟨⟨["y'"]⟩, 1, #[⟨0, "(λx. (λy. (x y))) y"⟩, ⟨1, "(λy'. (y y'))"⟩]⟩ ∧
      Explained t (evaluate ⟨7, true, 20⟩ t) := by
  have read : parse 20 "(\\x.\\y.x y) y" =
      .ok (.app (.abs "x" (.abs "y" (.app (.var "x") (.var "y")))) (.var "y")) := by
    decide +kernel
  exact ⟨read, by decide +kernel, (evaluate_contracts read 7).1 20⟩

/-- A result holds no redex, and so there is nothing left that could be contracted. -/
theorem evaluate_normal {settings : Settings} {t result : Term} {run : Run}
    (done : evaluate settings t = .ok result run) :
    result.hasRedex = false ∧ ∀ redex form, ¬Term.Contracts [] result redex form := by
  obtain ⟨redexes, run, walk, normal, -⟩ := evaluate_ok done
  refine ⟨normal, ?_⟩
  intro redex form contracts
  rw [contracts.hasRedex] at normal
  cases normal

theorem evaluate_normal_inside :
    let t := Term.app (.var "y'")
      (.abs "y" (.app (.abs "x" (.app (.var "x") (.var "y'"))) (.var "y")))
    let result := Term.app (.var "y'") (.abs "y" (.app (.var "y") (.var "y'")))
    evaluate ⟨3, false, 20⟩ t = .ok result ⟨⟨[]⟩, 1, #[]⟩ ∧ result.hasRedex = false := by
  have done : evaluate ⟨3, false, 20⟩
      (.app (.var "y'")
        (.abs "y" (.app (.abs "x" (.app (.var "x") (.var "y'"))) (.var "y")))) =
      .ok (.app (.var "y'") (.abs "y" (.app (.var "y") (.var "y'")))) ⟨⟨[]⟩, 1, #[]⟩ := by
    decide +kernel
  exact ⟨done, (evaluate_normal done).1⟩

end Eval

end Redex
