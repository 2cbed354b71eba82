import Redex.Proofs.FreeVariables
import Redex.Proofs.Reevaluation

/-!
# The calls of an evaluation

A supply never looks at a term: it gives away a name that it has not given away before. That such a
name is new to the terms at hand is an invariant of the whole evaluation, of the calls that are
under way as well as of the one that draws the name.

`Makes` says which calls a call makes, with what it has got from its earlier ones, and `Reached`
follows the calls down from the first, together with every term that is at hand there: those that
the call is given and those that the calls above it still hold. The invariant is that the supply
`Guards` these terms. A call that is guarded only makes calls that are (`Makes.guards`), so all
calls of an evaluation are (`Reached.guards`), and none of them draws a name that its terms have.

No call is left out in which a redex is contracted: a run changes in such calls only, and all of
them are reached (`normalize_contracted`). Nor is one in which a name is drawn: whatever a supply
holds at the end was drawn in a call that is reached (`drawnAt_of_mem_drawn`).
-/

namespace Redex

theorem NameSupply.covers_var {supply : NameSupply} {x : Name} :
    supply.Covers (.var x) ↔ (Primed x → x ∈ supply.used) := by
  simp [Covers, Term.names]

namespace Eval

/-! ## Calls -/

/-- A call of one of the functions of an evaluation, with what it is given. -/
inductive Call where
  | normalize (depth : Nat) (t : Term) (run : Run)
  | reduce (depth : Nat) (t : Term) (run : Run)
  /-- A turn of the loop inside `reduce`, with the number of turns that may still follow. -/
  | turn (depth left : Nat) (t : Term) (run : Run)
  | contract (depth : Nat) (p : Name) (body argument : Term) (run : Run)
  | subst (depth : Nat) (p : Name) (r t : Term) (supply : NameSupply)
  /-- A name is drawn for the binder of `λq. body`, in which `p` is being replaced by `r`. -/
  | fresh (p : Name) (r : Term) (q : Name) (body : Term) (supply : NameSupply)

namespace Call

/-- The supply that a call starts from. -/
def supply : Call → NameSupply
  | normalize _ _ run => run.names
  | reduce _ _ run => run.names
  | turn _ _ _ run => run.names
  | contract _ _ _ _ run => run.names
  | subst _ _ _ _ supply => supply
  | fresh _ _ _ _ supply => supply

/-- The terms that a call is given; a name that is being replaced counts as a variable. -/
def terms : Call → List Term
  | normalize _ t _ => [t]
  | reduce _ t _ => [t]
  | turn _ _ t _ => [t]
  | contract _ p body argument _ => [.app (.abs p body) argument]
  | subst _ p r t _ => [.var p, r, t]
  | fresh p r q body _ => [.var p, r, .abs q body]

end Call

/-- The term and the supply that an outcome leaves, if it is a result. -/
def given? : EStateM.Result Halt Run Term → Option (Term × NameSupply)
  | .ok u run => some (u, run.names)
  | .error _ _ => none

/-- What a call returns, if it returns. -/
def Call.result? (settings : Settings) : Call → Option (Term × NameSupply)
  | normalize depth t run => given? (Eval.normalize settings depth t run)
  | reduce depth t run => given? (Eval.reduce settings depth t run)
  | turn depth left t run =>
    given? (reduceLoop settings depth (Eval.reduce settings depth) left t run)
  | contract depth p body argument run => given? (Eval.contract settings depth p body argument run)
  | subst depth p r t supply => Term.substWithin depth p r t supply
  | fresh _ _ q _ supply => some (.var (supply.fresh q).1, (supply.fresh q).2)

/-- Whether a call makes another one, after its earlier calls have given it certain terms. -/
inductive Makes (settings : Settings) : Call → List Term → Call → Prop
  | reduceWhole {depth : Nat} {t : Term} {run : Run} :
    Makes settings (.normalize (depth + 1) t run) [] (.reduce depth t run)
  | normalizeBody {depth : Nat} {t body : Term} {p : Name} {run run' : Run} :
    reduce settings depth t run = .ok (.abs p body) run' →
    Makes settings (.normalize (depth + 1) t run) [.abs p body] (.normalize depth body run')
  | normalizeFunction {depth : Nat} {t function argument : Term} {run run' : Run} :
    reduce settings depth t run = .ok (.app function argument) run' →
    Makes settings (.normalize (depth + 1) t run) [.app function argument]
      (.normalize depth function run')
  | normalizeArgument {depth : Nat} {t function argument function' : Term}
      {run run₁ run₂ : Run} :
    reduce settings depth t run = .ok (.app function argument) run₁ →
    normalize settings depth function run₁ = .ok function' run₂ →
    Makes settings (.normalize (depth + 1) t run) [function', .app function argument]
      (.normalize depth argument run₂)
  | enterLoop {depth : Nat} {t : Term} {run : Run} :
    Makes settings (.reduce (depth + 1) t run) []
      (.turn depth (settings.maxSteps - run.count).toNat t run)
  | reduceFunction {depth left : Nat} {function argument : Term} {run : Run} :
    Makes settings (.turn depth left (.app function argument) run) [] (.reduce depth function run)
  | reduceArgument {depth left : Nat} {function argument function' : Term} {run run' : Run} :
    reduce settings depth function run = .ok function' run' →
    Makes settings (.turn depth left (.app function argument) run) [function']
      (.reduce depth argument run')
  | contractRedex {depth left : Nat} {function argument argument' body : Term} {p : Name}
      {run run₁ run₂ : Run} :
    reduce settings depth function run = .ok (.abs p body) run₁ →
    reduce settings depth argument run₁ = .ok argument' run₂ →
    Makes settings (.turn depth left (.app function argument) run) [argument', .abs p body]
      (.contract depth p body argument' run₂)
  | nextTurn {depth left : Nat} {function argument argument' body contractum : Term} {p : Name}
      {run run₁ run₂ run₃ : Run} :
    reduce settings depth function run = .ok (.abs p body) run₁ →
    reduce settings depth argument run₁ = .ok argument' run₂ →
    contract settings depth p body argument' run₂ = .ok contractum run₃ →
    Makes settings (.turn depth (left + 1) (.app function argument) run)
      [contractum, argument', .abs p body] (.turn depth left contractum run₃)
  | replaceParameter {depth : Nat} {p : Name} {body argument : Term} {run : Run} :
    (run.count : Int) < settings.maxSteps →
    (settings.traced = true → (Term.app (.abs p body) argument).renderDepth ≤ depth) →
    Makes settings (.contract depth p body argument run) [] (.subst depth p argument body run.names)
  | substFunction {depth : Nat} {p : Name} {r function argument : Term} {supply : NameSupply} :
    Makes settings (.subst (depth + 1) p r (.app function argument) supply) []
      (.subst depth p r function supply)
  | substArgument {depth : Nat} {p : Name} {r function argument : Term} {supply : NameSupply}
      {left : Term × NameSupply} :
    Term.substWithin depth p r function supply = some left →
    Makes settings (.subst (depth + 1) p r (.app function argument) supply) [left.1]
      (.subst depth p r argument left.2)
  | substBody {depth : Nat} {p q : Name} {r body : Term} {supply : NameSupply} :
    q ≠ p → r.height ≤ depth → r.occursFree q = false →
    Makes settings (.subst (depth + 1) p r (.abs q body) supply) [] (.subst depth p r body supply)
  | drawName {depth : Nat} {p q : Name} {r body : Term} {supply : NameSupply} :
    q ≠ p → r.height ≤ depth → r.occursFree q = true →
    Makes settings (.subst (depth + 1) p r (.abs q body) supply) [] (.fresh p r q body supply)
  | renameBody {depth : Nat} {p q : Name} {r body : Term} {supply : NameSupply} :
    q ≠ p → r.height ≤ depth → r.occursFree q = true →
    Makes settings (.subst (depth + 1) p r (.abs q body) supply) [.var (supply.fresh q).1]
      (.subst depth q (.var (supply.fresh q).1) body (supply.fresh q).2)
  | substRenamed {depth : Nat} {p q : Name} {r body : Term} {supply : NameSupply}
      {renamed : Term × NameSupply} :
    q ≠ p → r.height ≤ depth → r.occursFree q = true →
    Term.substWithin depth q (.var (supply.fresh q).1) body (supply.fresh q).2 = some renamed →
    Makes settings (.subst (depth + 1) p r (.abs q body) supply)
      [renamed.1, .var (supply.fresh q).1] (.subst depth p r renamed.1 renamed.2)

/-- Whether a call is made in the course of another, with all terms that are at hand there: those
that it is given, and those that the calls above it were given or have got. -/
inductive Reached (settings : Settings) (start : Call) : List Term → Call → Prop
  | start : Reached settings start start.terms start
  | call {held got : List Term} {caller callee : Call} :
    Reached settings start held caller → Makes settings caller got callee →
    Reached settings start (callee.terms ++ got ++ held) callee

/-! ## What the functions keep -/

/-- Whether a supply holds the primed names of the given terms, and only primed names. -/
structure Guards (supply : NameSupply) (held : List Term) : Prop where
  covers : ∀ u ∈ held, supply.Covers u
  primed : ∀ x ∈ supply.used, Primed x

/-- What happens to a supply while one term is turned into another: it has grown by primed names,
and if it covered the first term then it covers the second. -/
structure Keeps (t : Term) (supply : NameSupply) (u : Term) (supply' : NameSupply) : Prop where
  grown : supply.used ⊆ supply'.used
  primed : (∀ x ∈ supply.used, Primed x) → ∀ x ∈ supply'.used, Primed x
  covers : supply.Covers t → supply'.Covers u

section Keeps

variable {settings : Settings} {depth : Nat} {t u v function argument function' argument' : Term}
  {supply supply' supply'' : NameSupply} {run run' : Run}

theorem Keeps.refl (t : Term) (supply : NameSupply) : Keeps t supply t supply :=
  ⟨List.Subset.refl _, id, id⟩

theorem Keeps.trans (first : Keeps t supply u supply') (second : Keeps u supply' v supply'') :
    Keeps t supply v supply'' where
  grown := List.Subset.trans first.grown second.grown
  primed := second.primed ∘ first.primed
  covers := second.covers ∘ first.covers

theorem Keeps.app (left : Keeps function supply function' supply')
    (right : Keeps argument supply' argument' supply'') :
    Keeps (.app function argument) supply (.app function' argument') supply'' where
  grown := List.Subset.trans left.grown right.grown
  primed := right.primed ∘ left.primed
  covers := by
    intro covers
    obtain ⟨inFunction, inArgument⟩ := NameSupply.covers_app.1 covers
    have inArgument' := right.covers (inArgument.mono left.grown)
    exact NameSupply.covers_app.2 ⟨(left.covers inFunction).mono right.grown, inArgument'⟩

theorem subst_keeps {p : Name} {r : Term} {result : Term × NameSupply}
    (done : Term.substWithin depth p r t supply = some result) :
    Keeps (.app r t) supply result.1 result.2 := by
  rw [Term.eq_subst_of_substWithin done]
  refine ⟨Term.used_subst p r t supply, Term.primed_used_subst p r t supply, ?_⟩
  intro covers
  obtain ⟨inR, inT⟩ := NameSupply.covers_app.1 covers
  exact Term.covers_subst inR inT

theorem fresh_keeps (q : Name) (supply : NameSupply) :
    Keeps t supply (.var (supply.fresh q).1) (supply.fresh q).2 where
  grown := by
    rw [NameSupply.used_fresh]
    exact List.subset_append_left _ _
  primed := by
    intro primed
    rw [NameSupply.used_fresh, List.forall_mem_append, List.forall_mem_singleton]
    exact ⟨primed, supply.primed_fresh q⟩
  covers := fun _ => NameSupply.covers_fresh supply q

theorem substituted_of_contract {p : Name} {body contractum : Term}
    (contracted : contract settings depth p body argument run = .ok contractum run') :
    Term.substWithin depth p argument body run.names = some (contractum, run'.names) := by
  unfold contract at contracted
  dsimp only at contracted
  split at contracted
  · cases contracted
  · split at contracted
    · cases contracted
    · split at contracted
      · cases contracted
      · next result names replaced =>
        cases contracted
        exact replaced

theorem contract_keeps {p : Name} {body contractum : Term}
    (contracted : contract settings depth p body argument run = .ok contractum run') :
    Keeps (.app (.abs p body) argument) run.names contractum run'.names := by
  have replaced := subst_keeps (substituted_of_contract contracted)
  refine ⟨replaced.grown, replaced.primed, ?_⟩
  intro covers
  obtain ⟨inFunction, inArgument⟩ := NameSupply.covers_app.1 covers
  have inBody := (NameSupply.covers_abs.1 inFunction).2
  exact replaced.covers (NameSupply.covers_app.2 ⟨inArgument, inBody⟩)

theorem Walk.keeps {budget : Int} {traced : Bool} {redexes : List Term}
    (walk : Walk budget traced Term.step? t run redexes u run') :
    Keeps t run.names u run'.names :=
  ⟨walk.used_subset, walk.primed_used, walk.covers⟩

theorem reduce_keeps (reduced : reduce settings depth t run = .ok u run') :
    Keeps t run.names u run'.names := by
  have ends := (reduce_ends settings depth t run).ofWeak
  rw [reduced] at ends
  obtain ⟨redexes, w, walk, reached⟩ := ends
  obtain ⟨rfl, -⟩ := stops_weakStep?.1 reached
  exact walk.keeps

theorem normalize_keeps (normalized : normalize settings depth t run = .ok u run') :
    Keeps t run.names u run'.names := by
  have ends := normalize_ends settings depth t run
  rw [normalized] at ends
  obtain ⟨redexes, w, walk, reached⟩ := ends
  obtain ⟨rfl, -⟩ := stops_step?.1 reached
  exact walk.keeps

theorem reduceTurn_keeps {next : Term → Action Term}
    (nextKeeps : ∀ {contractum run''}, next contractum run'' = .ok u run' →
      Keeps contractum run''.names u run'.names)
    (done : reduceTurn settings depth (reduce settings depth) next t run = .ok u run') :
    Keeps t run.names u run'.names := by
  cases t with
  | var x =>
    cases done
    exact Keeps.refl _ _
  | abs p body =>
    cases done
    exact Keeps.refl _ _
  | app function argument =>
    obtain ⟨function', run₁, reducedFunction, done⟩ := bind_eq_ok done
    obtain ⟨argument', run₂, reducedArgument, done⟩ := bind_eq_ok done
    have parts := (reduce_keeps reducedFunction).app (reduce_keeps reducedArgument)
    cases function' with
    | var x =>
      cases done
      exact parts
    | app function'' argument'' =>
      cases done
      exact parts
    | abs p body =>
      obtain ⟨contractum, run₃, contracted, done⟩ := bind_eq_ok done
      exact parts.trans ((contract_keeps contracted).trans (nextKeeps done))

theorem reduceLoop_keeps {left : Nat}
    (done : reduceLoop settings depth (reduce settings depth) left t run = .ok u run') :
    Keeps t run.names u run'.names := by
  induction left generalizing t run with
  | zero =>
    refine reduceTurn_keeps ?_ done
    intro contractum run'' halted
    cases halted
  | succ left ih => exact reduceTurn_keeps ih done

end Keeps

/-! ## Every call is guarded -/

section Guards

variable {settings : Settings} {supply supply' : NameSupply} {held got : List Term} {t u : Term}

theorem Guards.cons (guards : Guards supply held) (covers : supply.Covers u) :
    Guards supply (u :: held) :=
  ⟨List.forall_mem_cons.2 ⟨covers, guards.covers⟩, guards.primed⟩

/-- While one of the terms at hand is turned into another, the others stay guarded. -/
theorem Guards.keep (guards : Guards supply held) (covers : supply.Covers t)
    (keeps : Keeps t supply u supply') : Guards supply' (u :: held) where
  covers := by
    refine List.forall_mem_cons.2 ⟨keeps.covers covers, ?_⟩
    intro v inside
    exact (guards.covers v inside).mono keeps.grown
  primed := keeps.primed guards.primed

/-- The function and then the argument of an application are reduced. -/
theorem Guards.reduced {depth : Nat} {function argument function' argument' : Term}
    {run run₁ run₂ : Run} (guards : Guards run.names held)
    (covers : run.names.Covers (.app function argument))
    (reducedFunction : reduce settings depth function run = .ok function' run₁)
    (reducedArgument : reduce settings depth argument run₁ = .ok argument' run₂) :
    Guards run₂.names (argument' :: function' :: held) := by
  obtain ⟨inFunction, inArgument⟩ := NameSupply.covers_app.1 covers
  have first := reduce_keeps reducedFunction
  exact (guards.keep inFunction first).keep (inArgument.mono first.grown)
    (reduce_keeps reducedArgument)

/-- The terms that a substitution is given, before and after it has gone through one of them. -/
theorem Guards.replaced {depth : Nat} {p : Name} {r : Term} {result : Term × NameSupply}
    (guards : Guards supply held) (inR : supply.Covers r) (inT : supply.Covers t)
    (done : Term.substWithin depth p r t supply = some result) :
    Guards result.2 (result.1 :: held) :=
  guards.keep (NameSupply.covers_app.2 ⟨inR, inT⟩) (subst_keeps done)

theorem Guards.redex {p : Name} {body argument : Term}
    (guards : Guards supply (argument :: .abs p body :: held)) :
    supply.Covers (.app (.abs p body) argument) := by
  have inArgument := guards.covers argument (List.mem_cons_self ..)
  have inFunction := guards.covers (.abs p body) (List.mem_cons_of_mem _ (List.mem_cons_self ..))
  exact NameSupply.covers_app.2 ⟨inFunction, inArgument⟩

theorem covers_of_subst {depth : Nat} {p : Name} {r : Term}
    (covers : ∀ u ∈ (Call.subst depth p r t supply).terms, supply.Covers u) :
    supply.Covers (.var p) ∧ supply.Covers r ∧ supply.Covers t := by
  simpa [Call.terms] using covers

/-- A guarded call only makes guarded calls. -/
theorem Makes.guards {caller callee : Call} (makes : Makes settings caller got callee)
    (covers : ∀ u ∈ caller.terms, caller.supply.Covers u) (guards : Guards caller.supply held) :
    Guards callee.supply (callee.terms ++ got ++ held) := by
  cases makes with
  | reduceWhole => exact guards.cons (List.forall_mem_singleton.1 covers)
  | normalizeBody reduced =>
    have after := guards.keep (List.forall_mem_singleton.1 covers) (reduce_keeps reduced)
    exact after.cons (NameSupply.covers_abs.1 (after.covers _ (List.mem_cons_self ..))).2
  | normalizeFunction reduced =>
    have after := guards.keep (List.forall_mem_singleton.1 covers) (reduce_keeps reduced)
    exact after.cons (NameSupply.covers_app.1 (after.covers _ (List.mem_cons_self ..))).1
  | normalizeArgument reduced normalized =>
    have first := guards.keep (List.forall_mem_singleton.1 covers) (reduce_keeps reduced)
    obtain ⟨inFunction, inArgument⟩ :=
      NameSupply.covers_app.1 (first.covers _ (List.mem_cons_self ..))
    have keeps := normalize_keeps normalized
    exact (first.keep inFunction keeps).cons (inArgument.mono keeps.grown)
  | enterLoop => exact guards.cons (List.forall_mem_singleton.1 covers)
  | reduceFunction =>
    exact guards.cons (NameSupply.covers_app.1 (List.forall_mem_singleton.1 covers)).1
  | reduceArgument reduced =>
    obtain ⟨inFunction, inArgument⟩ :=
      NameSupply.covers_app.1 (List.forall_mem_singleton.1 covers)
    have keeps := reduce_keeps reduced
    exact (guards.keep inFunction keeps).cons (inArgument.mono keeps.grown)
  | contractRedex reducedFunction reducedArgument =>
    have parts :=
      guards.reduced (List.forall_mem_singleton.1 covers) reducedFunction reducedArgument
    exact parts.cons parts.redex
  | nextTurn reducedFunction reducedArgument contracted =>
    have parts :=
      guards.reduced (List.forall_mem_singleton.1 covers) reducedFunction reducedArgument
    have after := parts.keep parts.redex (contract_keeps contracted)
    exact after.cons (after.covers _ (List.mem_cons_self ..))
  | replaceParameter _ _ =>
    obtain ⟨inFunction, inArgument⟩ :=
      NameSupply.covers_app.1 (List.forall_mem_singleton.1 covers)
    obtain ⟨inP, inBody⟩ := NameSupply.covers_abs.1 inFunction
    exact ((guards.cons inBody).cons inArgument).cons (NameSupply.covers_var.2 inP)
  | substFunction =>
    obtain ⟨inP, inR, inT⟩ := covers_of_subst covers
    exact ((guards.cons (NameSupply.covers_app.1 inT).1).cons inR).cons inP
  | substArgument done =>
    obtain ⟨inP, inR, inT⟩ := covers_of_subst covers
    obtain ⟨inFunction, inArgument⟩ := NameSupply.covers_app.1 inT
    have grown := (subst_keeps done).grown
    have after := guards.replaced inR inFunction done
    exact ((after.cons (inArgument.mono grown)).cons (inR.mono grown)).cons (inP.mono grown)
  | substBody _ _ _ =>
    obtain ⟨inP, inR, inT⟩ := covers_of_subst covers
    exact ((guards.cons (NameSupply.covers_abs.1 inT).2).cons inR).cons inP
  | drawName _ _ _ =>
    obtain ⟨inP, inR, inT⟩ := covers_of_subst covers
    exact ((guards.cons inT).cons inR).cons inP
  | @renameBody depth p q r body supply _ _ _ =>
    obtain ⟨inP, inR, inT⟩ := covers_of_subst covers
    obtain ⟨inQ, inBody⟩ := NameSupply.covers_abs.1 inT
    have draws : Keeps (.var q) supply _ _ := fresh_keeps q supply
    have inQ := NameSupply.covers_var.2 inQ
    have after := guards.keep inQ draws
    have inName := after.covers _ (List.mem_cons_self ..)
    exact ((after.cons (inBody.mono draws.grown)).cons inName).cons (inQ.mono draws.grown)
  | @substRenamed depth p q r body supply renamed _ _ _ done =>
    obtain ⟨inP, inR, inT⟩ := covers_of_subst covers
    have inBody := (NameSupply.covers_abs.1 inT).2
    have draws : Keeps r supply _ _ := fresh_keeps q supply
    have named := guards.keep inR draws
    have inName := named.covers _ (List.mem_cons_self ..)
    have after := named.replaced inName (inBody.mono draws.grown) done
    have grown := List.Subset.trans draws.grown (subst_keeps done).grown
    have inRenamed := after.covers _ (List.mem_cons_self ..)
    exact ((after.cons inRenamed).cons (inR.mono grown)).cons (inP.mono grown)

theorem Reached.terms_mem {start call : Call} (reached : Reached settings start held call) :
    ∀ u ∈ call.terms, u ∈ held := by
  intro u inside
  cases reached with
  | start => exact inside
  | call _ _ => exact List.mem_append_left _ (List.mem_append_left _ inside)

/-- All calls that are made in the course of a guarded call are guarded. -/
theorem Reached.guards {start call : Call} (reached : Reached settings start held call)
    (guards : Guards start.supply start.terms) : Guards call.supply held := by
  induction reached with
  | start => exact guards
  | call caller makes ih =>
    exact makes.guards (fun u inside => ih.covers u (caller.terms_mem u inside)) ih

theorem ok_of_given? {outcome : EStateM.Result Halt Run Term}
    (given : given? outcome = some (u, supply')) :
    ∃ run, outcome = .ok u run ∧ run.names = supply' := by
  rcases outcome with ⟨w, run⟩ | ⟨halt, run⟩
  · cases given
    exact ⟨run, rfl, rfl⟩
  · cases given

/-- What a guarded call returns is guarded too. -/
theorem Guards.returned {call : Call} (guards : Guards call.supply held)
    (covers : ∀ u ∈ call.terms, call.supply.Covers u)
    (result : call.result? settings = some (u, supply')) : Guards supply' (u :: held) := by
  cases call with
  | normalize depth t run =>
    obtain ⟨run', normalized, rfl⟩ := ok_of_given? result
    exact guards.keep (List.forall_mem_singleton.1 covers) (normalize_keeps normalized)
  | reduce depth t run =>
    obtain ⟨run', reduced, rfl⟩ := ok_of_given? result
    exact guards.keep (List.forall_mem_singleton.1 covers) (reduce_keeps reduced)
  | turn depth left t run =>
    obtain ⟨run', done, rfl⟩ := ok_of_given? result
    exact guards.keep (List.forall_mem_singleton.1 covers) (reduceLoop_keeps done)
  | contract depth p body argument run =>
    obtain ⟨run', contracted, rfl⟩ := ok_of_given? result
    exact guards.keep (List.forall_mem_singleton.1 covers) (contract_keeps contracted)
  | subst depth p r t supply =>
    obtain ⟨-, inR, inT⟩ := covers_of_subst covers
    exact guards.replaced inR inT result
  | fresh p r q body supply =>
    cases result
    exact guards.keep (covers r (by simp [Call.terms])) (fresh_keeps q supply)

end Guards

/-! ## What changes a run -/

/-- How a run gets to an outcome: redexes are contracted one after the other, each in a call that is
made in the course of `start`, and nothing else changes it. A step limit is met in such a call. -/
inductive Contracted (settings : Settings) (start : Call) :
    Run → EStateM.Result Halt Run Term → Prop
  | done (t : Term) (run : Run) : Contracted settings start run (.ok t run)
  | tooDeep (run : Run) : Contracted settings start run (.error .tooDeep run)
  | halt {held : List Term} {depth : Nat} {p : Name} {body argument : Term} {run run' : Run}
      {halt : Halt} :
    Reached settings start held (.contract depth p body argument run) →
    contract settings depth p body argument run = .error halt run' →
    Contracted settings start run (.error halt run')
  | step {held : List Term} {depth : Nat} {p : Name} {body argument contractum : Term}
      {run run' : Run} {outcome : EStateM.Result Halt Run Term} :
    Reached settings start held (.contract depth p body argument run) →
    contract settings depth p body argument run = .ok contractum run' →
    Contracted settings start run' outcome → Contracted settings start run outcome

section Contracted

variable {settings : Settings} {start : Call} {held : List Term} {depth left : Nat} {t : Term}
  {run : Run}

theorem Contracted.trans {u : Term} {run' : Run} {outcome : EStateM.Result Halt Run Term}
    (first : Contracted settings start run (.ok u run'))
    (second : Contracted settings start run' outcome) : Contracted settings start run outcome := by
  generalize result : EStateM.Result.ok u run' = middle at first
  induction first with
  | done t run =>
    cases result
    exact second
  | tooDeep run => cases result
  | halt _ _ => cases result
  | step reached done _ ih => exact .step reached done (ih result)

theorem Contracted.bind {first : Action Term} {rest : Term → Action Term}
    (contracted : Contracted settings start run (first run))
    (continues : ∀ {u run'}, first run = .ok u run' →
      Contracted settings start run' (rest u run')) :
    Contracted settings start run ((first >>= rest) run) := by
  rcases outcome : first run with ⟨u, run'⟩ | ⟨halt, run'⟩
  · rw [outcome] at contracted
    rw [bind_of_ok outcome]
    exact contracted.trans (continues outcome)
  · rw [outcome] at contracted
    rw [bind_of_error outcome]
    exact contracted

theorem contract_contracted {p : Name} {body argument : Term}
    (reached : Reached settings start held (.contract depth p body argument run)) :
    Contracted settings start run (contract settings depth p body argument run) := by
  rcases outcome : contract settings depth p body argument run with
    ⟨contractum, run'⟩ | ⟨halt, run'⟩
  · exact .step reached outcome (.done contractum run')
  · exact .halt reached outcome

/-- A turn of the loop, if that holds of reducing and of the turn after it. -/
theorem reduceTurn_contracted {next : Term → Action Term}
    (reduceContracted : ∀ {held t run}, Reached settings start held (.reduce depth t run) →
      Contracted settings start run (reduce settings depth t run))
    (nextContracted : ∀ {function argument argument' body contractum p run₁ run₂ run₃},
      t = .app function argument → reduce settings depth function run = .ok (.abs p body) run₁ →
      reduce settings depth argument run₁ = .ok argument' run₂ →
      contract settings depth p body argument' run₂ = .ok contractum run₃ →
      Contracted settings start run₃ (next contractum run₃))
    (reached : Reached settings start held (.turn depth left t run)) :
    Contracted settings start run
      (reduceTurn settings depth (reduce settings depth) next t run) := by
  cases t with
  | var x => exact .done _ _
  | abs p body => exact .done _ _
  | app function argument =>
    unfold reduceTurn
    refine (reduceContracted (reached.call .reduceFunction)).bind ?_
    intro function' run₁ reducedFunction
    refine (reduceContracted (reached.call (.reduceArgument reducedFunction))).bind ?_
    intro argument' run₂ reducedArgument
    cases function' with
    | var x => exact .done _ _
    | app function'' argument'' => exact .done _ _
    | abs p body =>
      have contracting := reached.call (.contractRedex reducedFunction reducedArgument)
      refine (contract_contracted contracting).bind ?_
      intro contractum run₃ contracted
      exact nextContracted rfl reducedFunction reducedArgument contracted

/-- The loop. It never gets past its last turn, since the steps are used up by then. -/
theorem reduceLoop_contracted (enough : settings.maxSteps - run.count ≤ left)
    (reduceContracted : ∀ {held t run}, Reached settings start held (.reduce depth t run) →
      Contracted settings start run (reduce settings depth t run))
    (reached : Reached settings start held (.turn depth left t run)) :
    Contracted settings start run
      (reduceLoop settings depth (reduce settings depth) left t run) := by
  induction left generalizing held t run with
  | zero =>
    refine reduceTurn_contracted reduceContracted ?_ reached
    intro _ _ _ _ _ _ _ _ _ _ reducedFunction reducedArgument contracted
    have grown := count_le_of_reduce reducedFunction
    have grown' := count_le_of_reduce reducedArgument
    have counted := contract_count contracted
    omega
  | succ left ih =>
    refine reduceTurn_contracted reduceContracted ?_ reached
    intro _ _ _ _ _ _ _ _ _ same reducedFunction reducedArgument contracted
    subst same
    have grown := count_le_of_reduce reducedFunction
    have grown' := count_le_of_reduce reducedArgument
    have counted := contract_count contracted
    exact ih (by omega) (reached.call (.nextTurn reducedFunction reducedArgument contracted))

theorem reduce_contracted (reached : Reached settings start held (.reduce depth t run)) :
    Contracted settings start run (reduce settings depth t run) := by
  induction depth generalizing held t run with
  | zero => exact .tooDeep run
  | succ depth ih => exact reduceLoop_contracted (Int.self_le_toNat _) ih (reached.call .enterLoop)

theorem normalize_contracted (reached : Reached settings start held (.normalize depth t run)) :
    Contracted settings start run (normalize settings depth t run) := by
  induction depth generalizing held t run with
  | zero => exact .tooDeep run
  | succ depth ih =>
    unfold normalize
    refine (reduce_contracted (reached.call .reduceWhole)).bind ?_
    intro w run₁ reduced
    cases w with
    | var x => exact .done _ _
    | abs p body =>
      refine (ih (reached.call (.normalizeBody reduced))).bind ?_
      intro body' run₂ _
      exact .done _ _
    | app function argument =>
      refine (ih (reached.call (.normalizeFunction reduced))).bind ?_
      intro function' run₂ normalized
      refine (ih (reached.call (.normalizeArgument reduced normalized))).bind ?_
      intro argument' run₃ _
      exact .done _ _

end Contracted

/-! ## Where names are drawn -/

/-- Whether a name is drawn in a call that is made in the course of another. -/
def DrawnAt (settings : Settings) (start : Call) (x : Name) : Prop :=
  ∃ held p r q body supply, Reached settings start held (.fresh p r q body supply) ∧
    x = (supply.fresh q).1

/-- Whether every name of a supply was in another one, or is drawn in the course of a call. -/
def Accounts (settings : Settings) (start : Call) (supply supply' : NameSupply) : Prop :=
  ∀ x ∈ supply'.used, x ∈ supply.used ∨ DrawnAt settings start x

/-- The supply that an outcome leaves, whether it is a result or not. -/
def suppliedBy {α : Type} : EStateM.Result Halt Run α → NameSupply
  | .ok _ run => run.names
  | .error _ run => run.names

section Accounts

variable {settings : Settings} {start : Call} {supply supply' supply'' : NameSupply}
  {held : List Term} {depth : Nat} {t : Term} {run : Run}

theorem Accounts.refl (supply : NameSupply) : Accounts settings start supply supply :=
  fun _ inside => Or.inl inside

theorem Accounts.trans (first : Accounts settings start supply supply')
    (second : Accounts settings start supply' supply'') :
    Accounts settings start supply supply'' := by
  intro x inside
  rcases second x inside with before | drawn
  · exact first x before
  · exact Or.inr drawn

theorem fresh_accounts {p q : Name} {r body : Term}
    (reached : Reached settings start held (.fresh p r q body supply)) :
    Accounts settings start supply (supply.fresh q).2 := by
  intro x inside
  rw [NameSupply.used_fresh, List.mem_append, List.mem_singleton] at inside
  rcases inside with before | new
  · exact Or.inl before
  · exact Or.inr ⟨held, p, r, q, body, supply, reached, new⟩

theorem subst_accounts {p : Name} {r : Term} {result : Term × NameSupply}
    (reached : Reached settings start held (.subst depth p r t supply))
    (done : Term.substWithin depth p r t supply = some result) :
    Accounts settings start supply result.2 := by
  induction depth generalizing held p r t supply result with
  | zero => cases done
  | succ depth ih =>
    cases t with
    | var x =>
      cases done
      exact Accounts.refl supply
    | app function argument =>
      simp only [Term.substWithin, bind, Option.bind_eq_some_iff, pure, Option.some.injEq] at done
      obtain ⟨left, leftDone, right, rightDone, rfl⟩ := done
      have first := ih (reached.call .substFunction) leftDone
      have second := ih (reached.call (.substArgument leftDone)) rightDone
      exact first.trans second
    | abs q body =>
      simp only [Term.substWithin] at done
      split at done
      · cases done
        exact Accounts.refl supply
      · next other =>
        split at done
        · cases done
        · next enough =>
          have fits : r.height ≤ depth := Nat.le_of_not_lt enough
          split at done
          · next captured =>
            simp only [bind, Option.bind_eq_some_iff, pure, Option.some.injEq] at done
            obtain ⟨renamed, renamedDone, replaced, replacedDone, rfl⟩ := done
            have drawn := fresh_accounts (reached.call (.drawName other fits captured))
            have inner := ih (reached.call (.renameBody other fits captured)) renamedDone
            have outer := ih (reached.call (.substRenamed other fits captured renamedDone))
              replacedDone
            exact drawn.trans (inner.trans outer)
          · next safe =>
            simp only [bind, Option.bind_eq_some_iff, pure, Option.some.injEq] at done
            obtain ⟨replaced, replacedDone, rfl⟩ := done
            have safe : r.occursFree q = false := by simpa using safe
            exact (ih (reached.call (.substBody other fits safe)) replacedDone :)

theorem contract_accounts {p : Name} {body argument : Term}
    (reached : Reached settings start held (.contract depth p body argument run)) :
    Accounts settings start run.names
      (suppliedBy (contract settings depth p body argument run)) := by
  unfold contract
  dsimp only
  split
  · exact Accounts.refl _
  · next afforded =>
    split
    · exact Accounts.refl _
    · next shallow =>
      split
      · exact Accounts.refl _
      · next result names replaced =>
        have fits : settings.traced = true →
            (Term.app (.abs p body) argument).renderDepth ≤ depth := by
          intro traced
          simpa [traced] using shallow
        have call := reached.call (.replaceParameter (Int.not_le.1 afforded) fits)
        exact subst_accounts call replaced

/-- Names are drawn nowhere but in contractions. -/
theorem Contracted.accounts {outcome : EStateM.Result Halt Run Term}
    (contracted : Contracted settings start run outcome) :
    Accounts settings start run.names (suppliedBy outcome) := by
  induction contracted with
  | done t run => exact Accounts.refl _
  | tooDeep run => exact Accounts.refl _
  | halt reached done =>
    have accounts := contract_accounts reached
    rw [done] at accounts
    exact accounts
  | step reached done _ ih =>
    have accounts := contract_accounts reached
    rw [done] at accounts
    exact accounts.trans ih

end Accounts

/-! ## Whole evaluations -/

/-- The first call of an evaluation. -/
def firstCall (settings : Settings) (t : Term) : Call := .normalize settings.depth t {}

theorem drawn_eq (settings : Settings) (t : Term) :
    drawn settings t = (suppliedBy (normalize settings settings.depth t {})).used := by
  unfold drawn
  rcases outcome : normalize settings settings.depth t {} with ⟨result, run⟩ | ⟨halt, run⟩
  · rw [evaluate_of_ok outcome]
    split
    · next done =>
      split at done
      · cases done
      · cases done
        rw [names_conclude]
        rfl
    · next halted =>
      split at halted
      · cases halted
        rfl
      · cases halted
  · rw [evaluate_of_error outcome]
    rfl

/-- Every name that an evaluation has made up was drawn in one of its calls. -/
theorem drawnAt_of_mem_drawn {settings : Settings} {t : Term} {x : Name}
    (drawn : x ∈ drawn settings t) : DrawnAt settings (firstCall settings t) x := by
  rw [drawn_eq] at drawn
  rcases (normalize_contracted .start).accounts x drawn with before | drawnAt
  · cases before
  · exact drawnAt

/-- Names stay fresh all through the evaluation of a term that was read from a text. At every call,
and when it returns, the supply holds all primed names of the terms at hand and only primed names;
and a name that is drawn occurs neither in the abstraction whose binder it is for, nor in the
replacement, nor is it the name that is being replaced. Every name that the evaluation makes up is
drawn in one of these calls. -/
theorem evaluate_stays_fresh {nesting : Nat} {source : String} {t : Term}
    (read : parse nesting source = .ok t) (settings : Settings) :
    (∀ held call, Reached settings (firstCall settings t) held call →
        Guards call.supply held ∧
          (∀ u supply, call.result? settings = some (u, supply) → Guards supply (u :: held)) ∧
          ∀ p r q body supply, call = .fresh p r q body supply →
            (supply.fresh q).1 ∉ (Term.abs q body).names ∧ (supply.fresh q).1 ∉ r.names ∧
              (supply.fresh q).1 ≠ p) ∧
      ∀ x ∈ drawn settings t, DrawnAt settings (firstCall settings t) x := by
  have start : Guards (firstCall settings t).supply (firstCall settings t).terms := by
    refine ⟨List.forall_mem_singleton.2 ?_, nofun⟩
    exact (isLetter_of_parse read).covers {}
  refine ⟨?_, fun x => drawnAt_of_mem_drawn⟩
  intro held call reached
  have guards := reached.guards start
  have covers := fun u inside => guards.covers u (reached.terms_mem u inside)
  refine ⟨guards, fun u supply => guards.returned covers, ?_⟩
  rintro p r q body supply rfl
  have inP : supply.Covers (.var p) := covers _ (by simp [Call.terms])
  have inR : supply.Covers r := covers _ (by simp [Call.terms])
  have inAbs : supply.Covers (.abs q body) := covers _ (by simp [Call.terms])
  refine ⟨inAbs.fresh_not_mem_names q, inR.fresh_not_mem_names q, ?_⟩
  intro same
  exact inP.fresh_not_mem_names q (List.mem_singleton.2 same)

/-- The second name is made from the same `y` as the first, which is bound in the replacement by
then. -/
theorem evaluate_stays_fresh_twice :
    let copy := Term.abs "x" (.abs "y" (.app (.var "x") (.var "y")))
    let t := Term.app (.abs "f" (.app (.var "f") (.app (.var "f") (.var "y")))) copy
    let settings : Settings := ⟨9, false, 30⟩
    parse 30 "(\\f.f (f y)) (\\x.\\y.x y)" = .ok t ∧
      drawn settings t = ["y'", "y'1"] ∧
      ∃ held p r q body supply,
        Reached settings (firstCall settings t) held (.fresh p r q body supply) ∧
          Guards supply held ∧ (supply.fresh q).1 = "y'1" ∧ "y'1" ∉ (Term.abs q body).names ∧
          "y'1" ∉ r.names ∧ "y'1" ≠ p := by
  intro copy t settings
  have read : parse 30 "(\\f.f (f y)) (\\x.\\y.x y)" = .ok t := by decide +kernel
  have names : drawn settings t = ["y'", "y'1"] := by decide +kernel
  obtain ⟨fresh, draws⟩ := evaluate_stays_fresh read settings
  obtain ⟨held, p, r, q, body, supply, reached, name⟩ := draws "y'1" (by rw [names]; decide)
  obtain ⟨guards, -, apart⟩ := fresh held _ reached
  have apart := apart p r q body supply rfl
  rw [← name] at apart
  exact ⟨read, names, held, p, r, q, body, supply, reached, guards, name.symm, apart⟩

end Eval

end Redex
