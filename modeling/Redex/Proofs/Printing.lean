import Redex.Session

/-!
# What is printed

What an action of the console or of a session comes to does not depend on what was printed before,
and it only ever adds to it. `Prints` says this of an action and a state: whatever was printed, the
action comes to the same answer, adds the same output and leaves the same state otherwise. A state
is given for this as a function of what it has printed.

For each action of a console and of a session there is one lemma for every way in which it can go.
-/

namespace Redex

/-- The result of an action that comes to an answer and leaves a state. -/
def outcome {σ α : Type} : Except Failure α → σ → EStateM.Result Failure σ α
  | .ok value, state => .ok value state
  | .error failure, state => .error failure state

/-- The state that an action leaves, however it ends. -/
def reached {σ α : Type} : EStateM.Result Failure σ α → σ
  | .ok _ state => state
  | .error _ state => state

theorem reached_outcome {σ α : Type} (answer : Except Failure α) (state : σ) :
    reached (outcome answer state) = state := by
  cases answer with
  | error failure => rfl
  | ok value => rfl

theorem get_bind {σ α : Type} (rest : σ → EStateM Failure σ α) (state : σ) :
    (get >>= rest) state = rest state state := rfl

theorem modify_bind {σ α : Type} (change : σ → σ) (rest : PUnit → EStateM Failure σ α) (state : σ) :
    (modify change >>= rest) state = rest ⟨⟩ (change state) := rfl

/-- Whether an action comes to an answer, adds an output to what was printed, whatever that is, and
takes one state to another. -/
def Prints {σ α : Type} (action : EStateM Failure σ α) (before : String → σ) (output : String)
    (answer : Except Failure α) (after : String → σ) : Prop :=
  ∀ printed, action (before printed) = outcome answer (after (printed ++ output))

section Prints

variable {σ α β : Type} {first : EStateM Failure σ α} {rest : α → EStateM Failure σ β}
  {before middle after : String → σ} {output output' : String} {value : α} {failure : Failure}
  {answer : Except Failure β}

theorem Prints.pure (value : α) (state : String → σ) :
    Prints (pure value) state "" (.ok value) state := by
  intro printed
  rw [String.append_empty]
  rfl

theorem Prints.bind (one : Prints first before output (.ok value) middle)
    (two : Prints (rest value) middle output' answer after) :
    Prints (first >>= rest) before (output ++ output') answer after := by
  intro printed
  change EStateM.bind first rest (before printed) = _
  rw [EStateM.bind, one printed, ← String.append_assoc]
  exact two (printed ++ output)

/-- A step that prints nothing. -/
theorem Prints.silent (one : Prints first before "" (.ok value) middle)
    (two : Prints (rest value) middle output answer after) :
    Prints (first >>= rest) before output answer after := by
  have both := one.bind two
  rwa [String.empty_append] at both

theorem Prints.halt (one : Prints first before output (.error failure) after) :
    Prints (first >>= rest) before output (.error failure) after := by
  intro printed
  change EStateM.bind first rest (before printed) = _
  rw [EStateM.bind, one printed]
  rfl

/-- A last step that prints nothing. -/
theorem Prints.last (one : Prints first before output (.ok value) middle)
    (two : Prints (rest value) middle "" answer after) :
    Prints (first >>= rest) before output answer after := by
  have both := one.bind two
  rwa [String.append_empty] at both

/-- A value that is given whatever the action has come to, unless it failed. -/
theorem Prints.returns {action : EStateM Failure σ Unit} {answer : Except Failure Unit}
    (acts : Prints action before output answer after) (value : α) :
    Prints (do action; return value) before output (answer.map fun _ => value) after := by
  cases answer with
  | error failure => exact acts.halt
  | ok done => exact acts.last (Prints.pure value after)

end Prints

/-! ## Places -/

namespace Traceback

theorem put_put (path : String) (line line' : Option String) (number number' : Option Int)
    (places : Traceback) :
    (places.put ⟨path, line, number⟩).put ⟨path, line', number'⟩ =
      places.put ⟨path, line', number'⟩ := by
  induction places with
  | nil => simp [put]
  | cons other places ih =>
    by_cases here : other.path = path
    · simp [put, here]
    · simp [put, here, ih]

end Traceback

/-! ## The console -/

/-- The lines of a trace as they are printed. -/
def traceText (style : Text.Style) (steps : Array Step) : String :=
  String.join (steps.toList.map fun step => step.shown style ++ "\n")

namespace Console

/-- A console that has printed a given text. -/
def printing (console : Console) (printed : String) : Console := { console with printed := printed }

theorem foldl_printStep (steps : Array Step) (console : Console) (printed : String) :
    steps.foldl printStep (console.printing printed) =
      console.printing (printed ++ traceText console.style steps) := by
  rw [traceText, ← Array.foldl_toList]
  induction steps.toList generalizing printed with
  | nil => simp [printing]
  | cons step steps ih =>
    rw [List.foldl_cons, List.map_cons, String.join_cons, ← String.append_assoc]
    exact ih _

/-- The diagnosis is not to be shown, or it can be made however little room there is. -/
def Diagnosable (report : Report) : Prop :=
  report.showsDiagnosis = true → ∀ room, report.diagnosisFault? room = none

theorem diagnosable_of_hidden {report : Report} (hidden : report.showsDiagnosis = false) :
    Diagnosable report := by
  intro shown
  rw [hidden] at shown
  cases shown

/-- What is printed below the line that announces a report. -/
def diagnosisText (style : Text.Style) (colour : Text.Colour) (report : Report) : String :=
  if report.showsDiagnosis then report.diagnosis style colour ++ "\n" else ""

theorem printDiagnosis_prints {report : Report} (diagnosable : Diagnosable report)
    (colour : Text.Colour) (console : Console) :
    Prints (printDiagnosis colour report) console.printing
      (diagnosisText console.style colour report) (.ok ()) console.printing := by
  intro printed
  unfold printDiagnosis diagnosisText
  by_cases shown : report.showsDiagnosis = true
  · rw [if_pos shown, if_pos shown, Report.diagnose, diagnosable shown]
    rfl
  · rw [if_neg shown, if_neg shown, String.append_empty]
    rfl

theorem warn_prints {report : Report} (diagnosable : Diagnosable report) (console : Console) :
    Prints (warn report) console.printing
      (console.warningLine report ++ "\n" ++ diagnosisText console.style .magenta report) (.ok ())
      console.printing := by
  have announced : Prints (modify fun console => console.printLine (console.warningLine report))
      console.printing (console.warningLine report ++ "\n") (.ok ()) console.printing :=
    fun _ => rfl
  exact announced.bind (printDiagnosis_prints diagnosable .magenta console)

/-- All that is printed about an error. -/
def announcement (report : Report) (console : Console) : String :=
  traceText console.style report.steps ++ (console.errorLine report ++ "\n") ++
    diagnosisText console.style .red report

theorem announce_prints {report : Report} (diagnosable : Diagnosable report) (console : Console) :
    Prints (announce report) console.printing (console.announcement report) (.ok ())
      console.printing := by
  have announced : Prints (modify fun console =>
        (report.steps.foldl printStep console).printLine (console.errorLine report))
      console.printing (traceText console.style report.steps ++ (console.errorLine report ++ "\n"))
      (.ok ()) console.printing := by
    intro printed
    rw [← String.append_assoc]
    change EStateM.Result.ok () ((report.steps.foldl printStep (console.printing printed)).printLine
      (console.errorLine report)) = _
    rw [foldl_printStep]
    rfl
  exact announced.bind (printDiagnosis_prints diagnosable .red console)

/-- A console that goes on after errors forgets all lines. -/
theorem raise_prints {report : Report} {console : Console} (diagnosable : Diagnosable report)
    (lenient : console.fatal = false) :
    Prints (raise report) console.printing (console.announcement report) (.ok ())
      { console with places := console.places.cleared }.printing := by
  refine (announce_prints diagnosable console).last ?_
  intro printed
  rw [String.append_empty]
  change (if console.fatal = true then throw (.exit 1)
    else modify fun console => { console with places := console.places.cleared } :
      Action Unit) (console.printing printed) = _
  rw [if_neg (by rw [lenient]; simp)]
  rfl

/-- A fatal console exits after an error. -/
theorem raise_fatal {report : Report} {console : Console} (diagnosable : Diagnosable report)
    (fatal : console.fatal = true) :
    Prints (raise report) console.printing (console.announcement report) (.error (.exit 1))
      console.printing := by
  refine (announce_prints diagnosable console).last ?_
  intro printed
  rw [String.append_empty]
  change (if console.fatal = true then throw (.exit 1)
    else modify fun console => { console with places := console.places.cleared } :
      Action Unit) (console.printing printed) = _
  rw [if_pos fatal]
  rfl

end Console

/-- Whether a failure is reported and passed over by a console that goes on after errors. A fault of
the program is reported too, and then passed on. -/
def Failure.Told : Failure → Prop
  | .reported report => Console.Diagnosable report
  | .exit _ => False
  | .tooDeep => True
  | .interrupted => True
  | .internal _ => True

namespace Console

theorem settle_prints {failure : Failure} {console : Console} (told : failure.Told)
    (lenient : console.fatal = false) :
    ∃ output answer, Prints (settle failure) console.printing output answer
      { console with places := console.places.cleared }.printing := by
  -- A report without a source shows no diagnosis, and neither does one of the program's own faults.
  cases failure with
  | reported report => exact ⟨_, _, raise_prints told lenient⟩
  | tooDeep => exact ⟨_, _, raise_prints (diagnosable_of_hidden rfl) lenient⟩
  | interrupted => exact ⟨_, _, raise_prints (diagnosable_of_hidden rfl) lenient⟩
  | exit code => cases told
  | internal fault =>
    have hidden : Diagnosable (faultReport fault) := diagnosable_of_hidden rfl
    refine ⟨_, .error (.internal fault), (raise_prints hidden lenient).last ?_⟩
    intro printed
    rw [String.append_empty]
    rfl

end Console

/-! ## Sessions -/

namespace Session

/-- A session that has printed a given text. -/
def printing (session : Session) (printed : String) : Session :=
  { session with console := session.console.printing printed }

/-- A session that works on a line. -/
def atLine (session : Session) (line : String) (number : Int) : Session :=
  session.withConsole (·.enterLine session.path (some line) (some number))

/-- Whether a session works on no line. -/
def Idle (session : Session) : Prop := session.console.leaveLine session.path = session.console

theorem leaveLine_atLine {session : Session} (idle : session.Idle) (line : String) (number : Int) :
    (session.atLine line number).console.leaveLine session.path = session.console := by
  have left : (session.atLine line number).console.leaveLine session.path =
      session.console.leaveLine session.path := by
    simp only [atLine, withConsole, Console.enterLine, Console.leaveLine, Console.enterFile]
    rw [Traceback.put_put]
  exact left.trans idle

section Actions

variable {session : Session} {text : String} {t : Term} {evaluation : Evaluation}
  {failure : Failure}

theorem add_apply (line : String) (number : Int) (session : Session) :
    add line number session =
      (match readTerm session.settings.depth line with
        | .error failure => throw failure
        | .ok term =>
          set { session.atLine line number with
            queue := Queued.insert ⟨number, line, term⟩ session.queue
            console := (session.atLine line number).console.leaveLine session.path } :
        EStateM Failure Session Unit) (session.atLine line number) :=
  rfl

theorem add_of_error (refused : readTerm session.settings.depth text = .error failure)
    (number : Int) :
    Prints (add text number) session.printing "" (.error failure)
      (session.atLine text number).printing := by
  intro printed
  have same : readTerm (session.printing printed).settings.depth text = .error failure := refused
  rw [add_apply, same, String.append_empty]
  rfl

theorem add_of_ok (idle : session.Idle) (read : readTerm session.settings.depth text = .ok t)
    (number : Int) :
    Prints (add text number) session.printing "" (.ok ())
      { session with queue := Queued.insert ⟨number, text, t⟩ session.queue }.printing := by
  intro printed
  have same : readTerm (session.printing printed).settings.depth text = .ok t := read
  rw [add_apply, same, String.append_empty]
  exact congrArg (fun console => EStateM.Result.ok ()
    { session with
      queue := Queued.insert ⟨number, text, t⟩ session.queue
      console := console.printing printed }) (leaveLine_atLine idle text number)

/-- The last part of `runItem`: an evaluation is kept, and the work on its line ends. -/
def keep (evaluation : Evaluation) : EStateM Failure Session Unit :=
  modify fun session => { session with
    results := session.results ++ [evaluation]
    console := session.console.leaveLine session.path }

theorem printSteps_prints (steps : Array Step) (session : Session) :
    Prints (printSteps steps) session.printing (traceText session.console.style steps) (.ok ())
      session.printing := by
  intro printed
  exact congrArg (fun console => EStateM.Result.ok () { session with console := console })
    (Console.foldl_printStep steps session.console printed)

theorem printResult_apply (result : Term) (session : Session) :
    printResult result session =
      (match result.annotatedWithin session.settings.depth with
        | .error failure => throw failure
        | .ok text => modify (withConsole (·.printLine text)) : EStateM Failure Session Unit)
        session :=
  rfl

theorem printResult_of_ok {result : Term}
    (written : result.annotatedWithin session.settings.depth = .ok text) :
    Prints (printResult result) session.printing (text ++ "\n") (.ok ()) session.printing := by
  intro printed
  have same : result.annotatedWithin (session.printing printed).settings.depth = .ok text := written
  rw [printResult_apply, same]
  rfl

theorem keep_prints (idle : session.Idle) (line : String) (number : Int) (queue : List Queued)
    (evaluation : Evaluation) :
    Prints (keep evaluation) { session.atLine line number with queue := queue }.printing "" (.ok ())
      { session with queue := queue, results := session.results ++ [evaluation] }.printing := by
  intro printed
  rw [String.append_empty]
  exact congrArg (fun console => EStateM.Result.ok ()
    { session with
      queue := queue
      results := session.results ++ [evaluation]
      console := console.printing printed }) (leaveLine_atLine idle line number)

/-- The first term of the queue is taken off before anything else can fail. -/
theorem runItem_apply {item : Queued} {rest : List Queued} (queued : session.queue = item :: rest) :
    runItem item session =
      (match session.evaluate item.term with
        | .error failure => throw failure
        | .ok evaluation => do
          printSteps evaluation.steps
          if !session.interactive then
            printResult evaluation.result
          keep evaluation)
        { session.atLine item.line item.number with queue := rest } := by
  have removed : Queued.remove item.number session.queue = rest := by
    rw [queued, Queued.remove_head]
  rw [← removed]
  rfl

section RunItem

variable {item : Queued} {rest : List Queued} (queued : session.queue = item :: rest)
include queued

theorem runItem_of_error (refused : session.evaluate item.term = .error failure) :
    Prints (runItem item) session.printing "" (.error failure)
      { session.atLine item.line item.number with queue := rest }.printing := by
  intro printed
  have same : (session.printing printed).evaluate item.term = .error failure := refused
  have waits : (session.printing printed).queue = item :: rest := queued
  rw [runItem_apply waits, same, String.append_empty]
  rfl

/-- An interactive session keeps a result to itself. -/
theorem runItem_of_typed (idle : session.Idle) (typed : session.interactive = true)
    (done : session.evaluate item.term = .ok evaluation) :
    Prints (runItem item) session.printing
      (traceText session.console.style evaluation.steps) (.ok ())
      { session with queue := rest, results := session.results ++ [evaluation] }.printing := by
  intro printed
  have same : (session.printing printed).evaluate item.term = .ok evaluation := done
  have quiet : (session.printing printed).interactive = true := typed
  have waits : (session.printing printed).queue = item :: rest := queued
  rw [runItem_apply waits, same, quiet]
  exact ((printSteps_prints evaluation.steps
    { session.atLine item.line item.number with queue := rest }).last
      (keep_prints idle item.line item.number rest evaluation)) printed

/-- A session on a file prints a result as soon as it is known. -/
theorem runItem_of_filed (idle : session.Idle) (filed : session.interactive = false)
    (done : session.evaluate item.term = .ok evaluation)
    (written : evaluation.result.annotatedWithin session.settings.depth = .ok text) :
    Prints (runItem item) session.printing
      (traceText session.console.style evaluation.steps ++ (text ++ "\n")) (.ok ())
      { session with queue := rest, results := session.results ++ [evaluation] }.printing := by
  intro printed
  have same : (session.printing printed).evaluate item.term = .ok evaluation := done
  have loud : (session.printing printed).interactive = false := filed
  have waits : (session.printing printed).queue = item :: rest := queued
  rw [runItem_apply waits, same, loud]
  let working := { session.atLine item.line item.number with queue := rest }
  have shown : Prints (printResult evaluation.result) working.printing (text ++ "\n") (.ok ())
    working.printing := printResult_of_ok written
  exact ((printSteps_prints evaluation.steps working).bind
    (shown.last (keep_prints idle item.line item.number rest evaluation))) printed

/-- A result that is too deep to be written is not kept. -/
theorem runItem_of_unwritable (filed : session.interactive = false)
    (done : session.evaluate item.term = .ok evaluation)
    (unwritten : evaluation.result.annotatedWithin session.settings.depth = .error failure) :
    Prints (runItem item) session.printing
      (traceText session.console.style evaluation.steps) (.error failure)
      { session.atLine item.line item.number with queue := rest }.printing := by
  intro printed
  have same : (session.printing printed).evaluate item.term = .ok evaluation := done
  have loud : (session.printing printed).interactive = false := filed
  have waits : (session.printing printed).queue = item :: rest := queued
  rw [runItem_apply waits, same, loud]
  let working := { session.atLine item.line item.number with queue := rest }
  have fails : Prints (printResult evaluation.result) working.printing "" (.error failure)
      working.printing := by
    intro printed
    have same : evaluation.result.annotatedWithin (working.printing printed).settings.depth =
      .error failure := unwritten
    rw [printResult_apply, same, String.append_empty]
    rfl
  exact ((printSteps_prints evaluation.steps working).last fails.halt) printed

end RunItem

theorem run_prints {output : String} {answer : Except Failure Unit} {after : String → Session}
    (items : Prints (runItems session.queue) session.printing output answer after) :
    Prints run session.printing output answer after :=
  fun printed => items printed

theorem run_of_single {item : Queued} {output : String} {answer : Except Failure Unit}
    {after : String → Session} (single : session.queue = [item])
    (ran : Prints (runItem item) session.printing output answer after) :
    Prints run session.printing output answer after := by
  apply run_prints
  rw [single]
  cases answer with
  | error failure => exact ran.halt
  | ok value => exact ran.last (Prints.pure () after)

theorem pop_apply (session : Session) :
    pop session =
      (match session.results.getLast? with
        | none => throw (.internal .emptyList)
        | some evaluation => do
          set { session with results := session.results.dropLast }
          match evaluation.result.annotatedWithin session.settings.depth with
          | .error failure => throw failure
          | .ok text => return text : EStateM Failure Session String) session :=
  rfl

theorem pop_of_last {results : List Evaluation} (last : session.results = results ++ [evaluation]) :
    pop session =
      (match evaluation.result.annotatedWithin session.settings.depth with
        | .error failure => throw failure
        | .ok text => return text : EStateM Failure Session String)
        { session with results := results } := by
  rw [pop_apply, last, List.getLast?_append, List.getLast?_singleton, List.dropLast_concat]
  rfl

theorem pop_prints {results : List Evaluation}
    (last : session.results = results ++ [evaluation]) :
    Prints pop session.printing "" (evaluation.result.annotatedWithin session.settings.depth)
      { session with results := results }.printing := by
  intro printed
  have same : (session.printing printed).results = results ++ [evaluation] := last
  have settings : (session.printing printed).settings = session.settings := rfl
  rw [pop_of_last same, settings, String.append_empty]
  cases evaluation.result.annotatedWithin session.settings.depth with
  | error failure => rfl
  | ok text => rfl

theorem load_apply (files : Files) (session : Session) :
    load files session =
      (if session.path = typedPath then
        if !session.interactive then
          throw (.reported { message := [.words "'<in>' is a reserved filename"] })
        else pure ()
      else
        match openFile files session.path with
        | .error failure => throw failure
        | .ok entries => addEntries entries : EStateM Failure Session Unit) session :=
  rfl

/-- A session whose console has forgotten all lines. -/
def cleared (session : Session) : Session :=
  session.withConsole fun console => { console with places := console.places.cleared }

theorem onConsole_prints {action : Console.Action Unit} {console : Console} {output : String}
    {answer : Except Failure Unit}
    (acts : Prints action session.console.printing output answer console.printing) :
    Prints (onConsole action) session.printing output answer
      { session with console := console }.printing := by
  intro printed
  have same : action (session.printing printed).console =
    outcome answer (console.printing (printed ++ output)) := acts printed
  rw [onConsole, same]
  cases answer with
  | error failure => rfl
  | ok value => rfl

section Protect

variable {action : EStateM Failure Session Unit} {before after : String → Session} {output : String}

theorem protect_of_ok (done : Prints action before output (.ok ()) after) :
    Prints (protect action) before output (.ok ()) after := by
  intro printed
  unfold protect
  rw [done printed]
  rfl

/-- A failure is dealt with where it was met, and then no line is being worked on. -/
theorem protect_of_error {met : Session} (told : failure.Told) (lenient : met.console.fatal = false)
    (failed : Prints action before output (.error failure) met.printing) :
    ∃ output answer, Prints (protect action) before output answer met.cleared.printing := by
  obtain ⟨announced, answer, settles⟩ := Console.settle_prints told lenient
  refine ⟨output ++ announced, answer, ?_⟩
  intro printed
  unfold protect
  rw [failed printed, ← String.append_assoc]
  exact onConsole_prints settles (printed ++ output)

end Protect

end Actions

end Session

end Redex
