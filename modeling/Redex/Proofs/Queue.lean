import Mathlib.Data.List.Forall2
import Redex.Proofs.Printing

/-!
# The queue of a session

A line that is added is put into the queue, and a run takes the terms off it in ascending order,
down to the first that fails. `add_cases` and `run_ran` say what the two come to on any session,
with the state that they leave but for what is printed.

So nothing is lost and nothing is done twice, however lines are added and runs are started and
whatever fails: what was queued and what was added is what is queued in the end and what was tried,
and the results are those of the terms that were tried, in order (`afterAll_conserves`).
-/

namespace Redex

theorem Traceback.find?_put (place : Place) (places : Traceback) :
    (places.put place).find? (·.path = place.path) = some place := by
  induction places with
  | nil => simp [put]
  | cons other places ih =>
    by_cases here : other.path = place.path
    · simp [put, here]
    · simp [put, here, ih]

/-! ## Ordered queues -/

/-- Whether a queue is in ascending order, with no number twice. -/
def Ordered (queue : List Queued) : Prop := queue.Pairwise (·.number < ·.number)

namespace Queued

variable {item : Queued} {queue : List Queued}

theorem insert_perm (item : Queued) (unqueued : ∀ other ∈ queue, other.number ≠ item.number) :
    (item.insert queue).Perm (item :: queue) := by
  induction queue with
  | nil => rfl
  | cons other queue ih =>
    obtain ⟨different, unqueued⟩ := List.forall_mem_cons.1 unqueued
    unfold insert
    split
    · rfl
    · rw [if_neg (Ne.symm different)]
      exact ((ih unqueued).cons other).trans (.swap item other queue)

theorem eq_or_mem_of_mem_insert {other : Queued} (inside : other ∈ item.insert queue) :
    other = item ∨ other ∈ queue := by
  induction queue with
  | nil => exact Or.inl (List.mem_singleton.1 inside)
  | cons first queue ih =>
    unfold insert at inside
    split at inside
    · exact List.mem_cons.1 inside
    · split at inside
      · exact (List.mem_cons.1 inside).imp_right (List.mem_cons_of_mem first)
      · rcases List.mem_cons.1 inside with rfl | behind
        · exact Or.inr List.mem_cons_self
        · exact (ih behind).imp_right (List.mem_cons_of_mem first)

theorem ordered_insert (ordered : Ordered queue) : Ordered (item.insert queue) := by
  induction queue with
  | nil => exact List.pairwise_singleton _ _
  | cons other queue ih =>
    obtain ⟨later, rest⟩ := List.pairwise_cons.1 ordered
    unfold insert
    split
    · next less =>
      refine List.pairwise_cons.2 ⟨List.forall_mem_cons.2 ⟨less, ?_⟩, ordered⟩
      intro behind inside
      exact Int.lt_trans less (later behind inside)
    · split
      · next same => exact List.pairwise_cons.2 ⟨by rwa [same], rest⟩
      · refine List.pairwise_cons.2 ⟨?_, ih rest⟩
        intro behind inside
        rcases eq_or_mem_of_mem_insert inside with rfl | inside
        · omega
        · exact later behind inside

end Queued

namespace Session

/-! ## Work on a line -/

/-- A session that has ended its work on a line. -/
def left (session : Session) : Session := session.withConsole (·.leaveLine session.path)

/-- The last line that is entered is the one that counts. -/
theorem enterLine_twice (session : Session) (line line' : Option String)
    (number number' : Option Int) :
    (session.withConsole (·.enterLine session.path line number)).withConsole
        (·.enterLine session.path line' number') =
      session.withConsole (·.enterLine session.path line' number') := by
  simp only [withConsole, Console.enterLine]
  rw [Traceback.put_put]

theorem left_atLine (session : Session) (line : String) (number : Int) :
    (session.atLine line number).left = session.left :=
  session.enterLine_twice (some line) none (some number) none

theorem left_left (session : Session) : session.left.left = session.left :=
  session.enterLine_twice none none none none

theorem atLine_left (session : Session) (line : String) (number : Int) :
    session.left.atLine line number = session.atLine line number :=
  session.enterLine_twice none (some line) none (some number)

theorem idle_left (session : Session) : session.left.Idle :=
  congrArg Session.console session.left_left

/-- What adding a line comes to. -/
theorem add_cases (line : String) (number : Int) (session : Session) :
    (∃ failure, readTerm session.settings.depth line = .error failure ∧
      add line number session = .error failure (session.atLine line number)) ∨
    ∃ term, readTerm session.settings.depth line = .ok term ∧
      add line number session =
        .ok () { session.left with
          queue := Queued.insert ⟨number, line, term⟩ session.queue } := by
  rw [add_apply]
  cases readTerm session.settings.depth line with
  | error failure => exact Or.inl ⟨failure, rfl, rfl⟩
  | ok term =>
    refine Or.inr ⟨term, rfl, ?_⟩
    rw [← left_atLine session line number]
    rfl

theorem ordered_add (line : String) (number : Int) {session : Session}
    (ordered : Ordered session.queue) : Ordered (reached (add line number session)).queue := by
  rcases add_cases line number session with ⟨failure, -, adds⟩ | ⟨term, -, adds⟩
  · rw [adds]
    exact ordered
  · rw [adds]
    exact Queued.ordered_insert ordered

theorem ordered_addEntries (entries : List Entry) {session : Session}
    (ordered : Ordered session.queue) : Ordered (reached (addEntries entries session)).queue := by
  induction entries generalizing session with
  | nil => exact ordered
  | cons entry entries ih =>
    have first := ordered_add entry.text entry.number ordered
    change Ordered (reached (EStateM.bind (add entry.text entry.number)
      (fun _ => addEntries entries) session)).queue
    unfold EStateM.bind
    cases result : add entry.text entry.number session with
    | error failure session' =>
      rw [result] at first
      exact first
    | ok value session' =>
      rw [result] at first
      exact ih first

/-- The queue of a session is in order from the start. -/
theorem ordered_start (files : Files) (console : Console) (path : String) (interactive : Bool)
    (settings : Eval.Settings) :
    Ordered (reached (start files console path interactive settings)).queue := by
  have empty : Ordered (fresh console path interactive settings).queue := List.Pairwise.nil
  unfold start
  generalize fresh console path interactive settings = session at empty
  rw [load_apply]
  split
  · split
    · exact empty
    · exact empty
  · cases openFile files session.path with
    | error failure => exact empty
    | ok entries => exact ordered_addEntries entries empty

/-! ## Attempts -/

/-- What comes of a queued term. A session on a file fails too if the result cannot be written. -/
def attempt (session : Session) (item : Queued) : Except Failure Evaluation :=
  match session.evaluate item.term with
  | .error failure => .error failure
  | .ok evaluation =>
    if session.interactive then .ok evaluation
    else (evaluation.result.annotatedWithin session.settings.depth).map fun _ => evaluation

/-- Whether a queued term comes to an evaluation. -/
def Gives (session : Session) (item : Queued) (evaluation : Evaluation) : Prop :=
  session.attempt item = .ok evaluation

section Attempts

variable {session : Session} {item : Queued} {rest : List Queued} {evaluation : Evaluation}
  {failure : Failure} (queued : session.queue = item :: rest)
include queued

theorem runItem_left : runItem item session.left = runItem item session := by
  have waits : session.left.queue = item :: rest := queued
  rw [runItem_apply waits, runItem_apply queued, atLine_left]
  rfl

theorem runItem_of_gives (gives : session.Gives item evaluation) :
    ∃ printed, runItem item session =
      .ok () ({ session.left with
        queue := rest
        results := session.results ++ [evaluation] }.printing printed) := by
  have idle := session.idle_left
  have waits : session.left.queue = item :: rest := queued
  rw [← runItem_left queued]
  unfold Gives attempt at gives
  split at gives
  · cases gives
  · next done =>
    split at gives
    · next typed =>
      cases gives
      exact ⟨_, runItem_of_typed waits idle typed done session.console.printed⟩
    · next filed =>
      cases written : Term.annotatedWithin session.settings.depth _ with
      | error failure =>
        rw [written] at gives
        cases gives
      | ok text =>
        rw [written] at gives
        cases gives
        exact ⟨_, runItem_of_filed waits idle (Bool.eq_false_iff.2 filed) done written
          session.console.printed⟩

theorem runItem_of_fails (fails : session.attempt item = .error failure) :
    ∃ printed, runItem item session =
      .error failure
        ({ session.atLine item.line item.number with queue := rest }.printing printed) := by
  unfold attempt at fails
  split at fails
  · next refused =>
    cases fails
    exact ⟨_, runItem_of_error queued refused session.console.printed⟩
  · next done =>
    split at fails
    · cases fails
    · next filed =>
      cases written : Term.annotatedWithin session.settings.depth _ with
      | error failure' =>
        rw [written] at fails
        cases fails
        exact ⟨_, runItem_of_unwritable queued (Bool.eq_false_iff.2 filed) done written
          session.console.printed⟩
      | ok text =>
        rw [written] at fails
        cases fails

end Attempts

/-! ## Runs -/

/-- How a run can go: there is nothing to evaluate, or all terms of the queue come to an evaluation,
or one fails and those in front of it do not. -/
inductive Ran (session : Session) : List Queued → EStateM.Result Failure Session Unit → Prop
  | nothing : Ran session [] (.ok () session)
  | all {items : List Queued} {evaluations : List Evaluation} (nonempty : items ≠ [])
      (gives : List.Forall₂ session.Gives items evaluations) (printed : String) :
      Ran session items
        (.ok () ({ session.left with
          queue := []
          results := session.results ++ evaluations }.printing printed))
  | failing {done : List Queued} {evaluations : List Evaluation} {item : Queued}
      {failure : Failure} (gives : List.Forall₂ session.Gives done evaluations)
      (fails : session.attempt item = .error failure) (rest : List Queued) (printed : String) :
      Ran session (done ++ item :: rest)
        (.error failure ({ session.atLine item.line item.number with
          queue := rest
          results := session.results ++ evaluations }.printing printed))

/-- A term that comes to an evaluation may stand in front of a queue. -/
theorem Ran.cons {session : Session} {item : Queued} {items : List Queued}
    {evaluation : Evaluation} {result : EStateM.Result Failure Session Unit} {printed : String}
    (gives : session.Gives item evaluation)
    (ran : Ran ({ session.left with
      queue := items
      results := session.results ++ [evaluation] }.printing printed) items result) :
    Ran session (item :: items) result := by
  cases ran with
  | nothing => exact .all (List.cons_ne_nil item []) (.cons gives .nil) printed
  | all _ given printed' =>
    have ran := Ran.all (List.cons_ne_nil item items) (.cons gives given) printed'
    rw [List.append_cons session.results, ← session.left_left] at ran
    exact ran
  | failing given fails rest printed' =>
    have ran := Ran.failing (.cons gives given) fails rest printed'
    rw [List.append_cons session.results, ← session.atLine_left] at ran
    exact ran

theorem runItems_ran {items : List Queued} {session : Session} (queued : session.queue = items) :
    Ran session items (runItems items session) := by
  induction items generalizing session with
  | nil => exact .nothing
  | cons item items ih =>
    change Ran session (item :: items)
      (EStateM.bind (runItem item) (fun _ => runItems items) session)
    unfold EStateM.bind
    cases tried : session.attempt item with
    | error failure =>
      obtain ⟨printed, ran⟩ := runItem_of_fails queued tried
      have result := Ran.failing .nil tried items printed
      rw [List.append_nil] at result
      rw [ran]
      exact result
    | ok evaluation =>
      obtain ⟨printed, ran⟩ := runItem_of_gives queued tried
      rw [ran]
      exact Ran.cons tried (ih rfl)

theorem run_ran (session : Session) : Ran session session.queue (run session) :=
  runItems_ran rfl

/-! ## Terms that are tried -/

/-- The terms of a queue that a run tries: all up to the first that fails, with that one. -/
def upToFailure (session : Session) : List Queued → List Queued
  | [] => []
  | item :: items =>
    item :: (match session.attempt item with
      | .error _ => []
      | .ok _ => session.upToFailure items)

/-- The evaluations of the terms that come to one. -/
def evaluations (session : Session) (items : List Queued) : List Evaluation :=
  items.filterMap fun item => (session.attempt item).toOption

section Trials

variable {session : Session} {done : List Queued} {given : List Evaluation}

theorem upToFailure_of_gives (gives : List.Forall₂ session.Gives done given)
    (items : List Queued) :
    session.upToFailure (done ++ items) = done ++ session.upToFailure items := by
  induction gives with
  | nil => rfl
  | cons gives _ ih =>
    rw [List.cons_append, upToFailure, show session.attempt _ = _ from gives, ih]
    rfl

theorem upToFailure_of_all (gives : List.Forall₂ session.Gives done given) :
    session.upToFailure done = done := by
  have all := upToFailure_of_gives gives []
  rwa [upToFailure, List.append_nil] at all

theorem evaluations_of_gives (gives : List.Forall₂ session.Gives done given) :
    session.evaluations done = given := by
  induction gives with
  | nil => rfl
  | cons gives _ ih =>
    rw [evaluations, List.filterMap_cons_some (by rw [show session.attempt _ = _ from gives]; rfl)]
    exact congrArg _ ih

theorem upToFailure_of_fails {item : Queued} {failure : Failure}
    (gives : List.Forall₂ session.Gives done given)
    (fails : session.attempt item = .error failure) (rest : List Queued) :
    session.upToFailure (done ++ item :: rest) = done ++ [item] := by
  rw [upToFailure_of_gives gives, upToFailure, fails]

theorem evaluations_of_fails {item : Queued} {failure : Failure}
    (gives : List.Forall₂ session.Gives done given)
    (fails : session.attempt item = .error failure) :
    session.evaluations (done ++ [item]) = given := by
  rw [evaluations, List.filterMap_append, ← evaluations, evaluations_of_gives gives]
  simp [fails, Except.toOption]

end Trials

/-! ## Operations one after the other -/

/-- What can be done with the queue of a session. -/
inductive Operation
  | add (line : String) (number : Int)
  | run
deriving DecidableEq, Repr

/-- Does an operation. -/
def Operation.perform : Operation → EStateM Failure Session Unit
  | add line number => Session.add line number
  | run => Session.run

/-- The session after an operation, whether that fails or not. -/
def after (session : Session) (operation : Operation) : Session :=
  reached (operation.perform session)

/-- The session after operations. -/
def afterAll (session : Session) (operations : List Operation) : Session :=
  operations.foldl after session

/-- Whether an operation adds no line whose number is queued. -/
def Allows (session : Session) : Operation → Prop
  | .add _ number => ∀ item ∈ session.queue, item.number ≠ number
  | .run => True

/-- Whether each of a row of operations is allowed at its turn. -/
def Admits (session : Session) : List Operation → Prop
  | [] => True
  | operation :: operations =>
    session.Allows operation ∧ (session.after operation).Admits operations

/-- What an operation puts into the queue. -/
def added (session : Session) : Operation → List Queued
  | .add line number =>
    match readTerm session.settings.depth line with
    | .error _ => []
    | .ok term => [⟨number, line, term⟩]
  | .run => []

/-- What an operation takes off the queue to evaluate it. -/
def tried (session : Session) : Operation → List Queued
  | .add _ _ => []
  | .run => session.upToFailure session.queue

/-- All that the operations of a row put in or take off, as `part` says of each of them. -/
def throughout (part : Session → Operation → List Queued) (session : Session) :
    List Operation → List Queued
  | [] => []
  | operation :: operations =>
    part session operation ++ (session.after operation).throughout part operations

section Steps

variable {session last : Session} {line : String} {number : Int} {failure : Failure}

/-- A line that is refused leaves the queue and the results as they are. -/
theorem unchanged_of_refused (refused : add line number session = .error failure last) :
    session.added (.add line number) = [] ∧ last.queue = session.queue ∧
      last.results = session.results := by
  rcases add_cases line number session with ⟨failure', unread, adds⟩ | ⟨_, -, adds⟩
  · cases adds.symm.trans refused
    exact ⟨by rw [added, unread], rfl, rfl⟩
  · cases adds.symm.trans refused

/-- A line that is read is put into the queue. -/
theorem queued_of_read (read : add line number session = .ok () last) :
    ∃ term, readTerm session.settings.depth line = .ok term ∧
      session.added (.add line number) = [⟨number, line, term⟩] ∧
      last.queue = Queued.insert ⟨number, line, term⟩ session.queue ∧
      last.results = session.results := by
  rcases add_cases line number session with ⟨_, -, adds⟩ | ⟨term, reads, adds⟩
  · cases adds.symm.trans read
  · cases adds.symm.trans read
    exact ⟨term, reads, by rw [added, reads], rfl, rfl⟩

/-- A run that fails has done the terms in front of one that fails, and leaves those behind it. -/
theorem split_of_run_error (failed : run session = .error failure last) :
    ∃ done item rest given, session.queue = done ++ item :: rest ∧
      session.tried .run = done ++ [item] ∧ List.Forall₂ session.Gives done given ∧
      session.attempt item = .error failure ∧ last.queue = rest ∧
      last.results = session.results ++ given ∧
      last.console.places.find? (·.path = session.path) =
        some ⟨session.path, some item.line, some item.number⟩ := by
  have ran := session.run_ran
  rw [failed] at ran
  generalize queued : session.queue = items at ran
  cases ran with
  | @failing done given item _ gives fails rest printed =>
    refine ⟨done, item, rest, given, rfl, ?_, gives, fails, rfl, rfl, ?_⟩
    · rw [tried, queued, upToFailure_of_fails gives fails]
    · exact Traceback.find?_put ⟨session.path, _, _⟩ _

/-- A run that does not fail has done all terms of the queue. -/
theorem all_of_run_ok (succeeded : run session = .ok () last) :
    ∃ given, List.Forall₂ session.Gives session.queue given ∧
      session.tried .run = session.queue ∧ last.queue = [] ∧
      last.results = session.results ++ given ∧
      (session.queue ≠ [] → last.console.places.find? (·.path = session.path) =
        some ⟨session.path, none, none⟩) := by
  have ran := session.run_ran
  rw [succeeded] at ran
  generalize queued : session.queue = items at ran
  cases ran with
  | nothing =>
    refine ⟨[], .nil, ?_, queued, (List.append_nil _).symm, absurd rfl⟩
    rw [tried, queued, upToFailure]
  | @all _ given some gives printed =>
    refine ⟨given, gives, ?_, rfl, rfl, fun _ => ?_⟩
    · rw [tried, queued, upToFailure_of_all gives]
    · exact Traceback.find?_put ⟨session.path, _, _⟩ _

/-- What comes of a term does not depend on the queue. -/
theorem attempt_after (session : Session) (operation : Operation) :
    (session.after operation).attempt = session.attempt := by
  unfold after
  cases operation with
  | add line number =>
    rcases add_cases line number session with ⟨_, -, adds⟩ | ⟨_, -, adds⟩
    · rw [Operation.perform, adds]
      rfl
    · rw [Operation.perform, adds]
      rfl
  | run =>
    have ran := session.run_ran
    rw [Operation.perform]
    generalize session.queue = items, run session = result at ran ⊢
    cases ran with
    | nothing => rfl
    | all => rfl
    | failing => rfl

theorem attempt_afterAll (session : Session) (operations : List Operation) :
    (session.afterAll operations).attempt = session.attempt := by
  induction operations generalizing session with
  | nil => rfl
  | cons operation operations ih => exact (ih (session.after operation)).trans (attempt_after _ _)

end Steps

/-- What an operation does to a session: its queue stays in order, every term that was queued or
added is still queued or was tried, and the results of those that were tried come behind the
others. -/
structure Conserved (session : Session) (operation : Operation) : Prop where
  ordered : Ordered (session.after operation).queue
  items : (session.queue ++ session.added operation).Perm
    ((session.after operation).queue ++ session.tried operation)
  results : (session.after operation).results =
    session.results ++ session.evaluations (session.tried operation)

theorem conserved_add {session : Session} (ordered : Ordered session.queue) {line : String}
    {number : Int} (allowed : session.Allows (.add line number)) :
    session.Conserved (.add line number) := by
  have ordered' : Ordered (session.after (.add line number)).queue :=
    ordered_add line number ordered
  have nothing : session.tried (.add line number) = [] := rfl
  cases result : add line number session with
  | error failure last =>
    have reaches : session.after (.add line number) = last := congrArg reached result
    obtain ⟨untaken, queue, results⟩ := unchanged_of_refused result
    refine ⟨ordered', ?_, ?_⟩
    · rw [reaches, queue, untaken, nothing]
    · rw [reaches, results, nothing]
      exact (List.append_nil _).symm
  | ok value last =>
    have reaches : session.after (.add line number) = last := congrArg reached result
    obtain ⟨term, -, one, queue, results⟩ := queued_of_read result
    refine ⟨ordered', ?_, ?_⟩
    · rw [reaches, queue, one, nothing, List.append_nil]
      have inserted := Queued.insert_perm ⟨number, line, term⟩ allowed
      exact List.perm_append_comm.trans inserted.symm
    · rw [reaches, results, nothing]
      exact (List.append_nil _).symm

theorem conserved_run {session : Session} (ordered : Ordered session.queue) :
    session.Conserved .run := by
  cases result : run session with
  | error failure last =>
    have reaches : session.after .run = last := congrArg reached result
    obtain ⟨done, item, rest, given, split, front, gives, fails, queue, results, -⟩ :=
      split_of_run_error result
    constructor
    · rw [reaches, queue]
      rw [split] at ordered
      exact (List.pairwise_cons.1 (List.pairwise_append.1 ordered).2.1).2
    · rw [reaches, queue, front, split, added, List.append_nil, List.append_cons]
      exact List.perm_append_comm
    · rw [reaches, results, front, evaluations_of_fails gives fails]
  | ok value last =>
    have reaches : session.after .run = last := congrArg reached result
    obtain ⟨given, gives, all, queue, results, -⟩ := all_of_run_ok result
    constructor
    · rw [reaches, queue]
      exact List.Pairwise.nil
    · rw [reaches, queue, all, added, List.append_nil, List.nil_append]
    · rw [reaches, results, all, evaluations_of_gives gives]

theorem conserved {session : Session} (ordered : Ordered session.queue) {operation : Operation}
    (allowed : session.Allows operation) : session.Conserved operation := by
  cases operation with
  | add line number => exact conserved_add ordered allowed
  | run => exact conserved_run ordered

/-- Over a row of operations nothing is lost and nothing is tried twice. -/
theorem afterAll_conserves {session : Session} (ordered : Ordered session.queue)
    {operations : List Operation} (admitted : session.Admits operations) :
    Ordered (session.afterAll operations).queue ∧
      (session.queue ++ session.throughout added operations).Perm
        ((session.afterAll operations).queue ++ session.throughout tried operations) ∧
      (session.afterAll operations).results =
        session.results ++ session.evaluations (session.throughout tried operations) := by
  induction operations generalizing session with
  | nil => exact ⟨ordered, .refl _, (List.append_nil _).symm⟩
  | cons operation operations ih =>
    obtain ⟨allowed, admitted⟩ := admitted
    have step := conserved ordered allowed
    obtain ⟨ordered', items, results⟩ := ih step.ordered admitted
    refine ⟨ordered', ?_, ?_⟩
    · rw [throughout, throughout, ← List.append_assoc]
      refine (step.items.append_right _).trans ?_
      -- What this operation tried is moved past what it leaves queued, and back at the end.
      rw [List.append_assoc]
      refine (List.perm_append_comm_assoc _ _ _).trans ?_
      exact (items.append_left _).trans (List.perm_append_comm_assoc _ _ _)
    · have same : (session.after operation).evaluations = session.evaluations := by
        unfold evaluations
        rw [attempt_after]
      rw [afterAll, List.foldl_cons, ← afterAll, results, step.results, same, throughout,
        List.append_assoc, evaluations, evaluations, ← List.filterMap_append, ← evaluations]

/-- A session loses no term and repeats none. After any operations, failed ones among them, each
term that was queued or added is still queued or was tried, and the results are those of the terms
that were tried, in order. And from there on: a line that is refused changes neither the queue nor
the results; a run does the terms in ascending order, and if one fails then those in front of it are
done, those behind it are queued, and its line is the one that is worked on; if none fails then the
queue is empty and no line is worked on. -/
theorem queue_conserved {session : Session} (ordered : Ordered session.queue)
    {operations : List Operation} (admitted : session.Admits operations) :
    let now := session.afterAll operations
    (Ordered now.queue ∧
      (session.queue ++ session.throughout added operations).Perm
        (now.queue ++ session.throughout tried operations) ∧
      now.results = session.results ++ session.evaluations (session.throughout tried operations)) ∧
    now.attempt = session.attempt ∧
    (∀ line number failure last, add line number now = .error failure last →
      now.added (.add line number) = [] ∧ last.queue = now.queue ∧ last.results = now.results) ∧
    (∀ line number last, add line number now = .ok () last →
      ∃ term, readTerm now.settings.depth line = .ok term ∧
        now.added (.add line number) = [⟨number, line, term⟩] ∧
        last.queue = Queued.insert ⟨number, line, term⟩ now.queue ∧ last.results = now.results) ∧
    (∀ failure last, run now = .error failure last →
      ∃ done item rest given, now.queue = done ++ item :: rest ∧
        now.tried .run = done ++ [item] ∧ List.Forall₂ now.Gives done given ∧
        now.attempt item = .error failure ∧ last.queue = rest ∧
        last.results = now.results ++ given ∧
        last.console.places.find? (·.path = now.path) =
          some ⟨now.path, some item.line, some item.number⟩) ∧
    ∀ last, run now = .ok () last →
      ∃ given, List.Forall₂ now.Gives now.queue given ∧ now.tried .run = now.queue ∧
        last.queue = [] ∧ last.results = now.results ++ given ∧
        (now.queue ≠ [] → last.console.places.find? (·.path = now.path) =
          some ⟨now.path, none, none⟩) := by
  intro now
  refine ⟨afterAll_conserves ordered admitted, attempt_afterAll session operations, ?_, ?_, ?_, ?_⟩
  · intro line number failure last refused
    exact unchanged_of_refused refused
  · intro line number last read
    exact queued_of_read read
  · intro failure last failed
    exact split_of_run_error failed
  · intro last succeeded
    exact all_of_run_ok succeeded

/-- A file whose second term fails, with a line that is added in front of what is left of it and one
that is refused. -/
theorem queue_conserved_failing :
    let bytes := "x\n(\\x.x) y\nz\n".toList.map fun c => UInt8.ofNat c.toNat
    let session := reached (start (fun _ => some bytes) {} "terms" false { maxSteps := 0 })
    let operations : List Operation := [.run, .add "w" 1, .add ")" 2, .run]
    Ordered session.queue ∧ session.Admits operations ∧
      (session.throughout tried operations).map Queued.line = ["x", "(\\x.x) y", "w", "z"] ∧
      (session.queue ++ session.throughout added operations).Perm
        ((session.afterAll operations).queue ++ session.throughout tried operations) := by
  intro bytes session operations
  have ordered : Ordered session.queue := ordered_start _ _ _ _ _
  have admitted : session.Admits operations := by
    refine ⟨trivial, ?_, ?_, trivial, trivial⟩
    · change ∀ item ∈ _, _
      decide +kernel
    · change ∀ item ∈ _, _
      decide +kernel
  obtain ⟨⟨-, conserved, -⟩, -⟩ := queue_conserved ordered admitted
  exact ⟨ordered, admitted, by decide +kernel, conserved⟩

end Session

end Redex
