import Redex.Program
import Redex.Proofs.Continuation
import Redex.Proofs.ErrorColumn
import Redex.Proofs.Printing

/-!
# The shell between two lines

A shell that waits for a line is at rest: nothing is queued, no result is left over, no line is
being worked on, and errors do not end the program. All that is left of the lines before is the
unfinished text, the number of lines that were taken as terms and whether evaluations are traced.

`atRest` is such a shell, put together from these parts. Every line takes a shell at rest to another
one, also when the line is no term, the evaluation is given up or the command itself is at fault
(`run_prints`), and so do any lines one after the other (`feedAll_atRest`).
-/

namespace Redex

/-! ## Failures that are passed over -/

theorem Report.tailLength_of_column {report : Report} (single : report.stop = report.start + 1) :
    report.tailLength = 0 := by
  rw [tailLength, shownStop, single]
  omega

theorem Report.diagnosisFault?_of_column {report : Report} (inside : 0 ≤ report.start)
    (short : report.start ≤ report.source.length) (single : report.stop = report.start + 1)
    (room : Nat) : report.diagnosisFault? room = none := by
  rw [diagnosisFault?, tailLength_of_column single, rowFault?, rowFault?,
    if_pos ⟨inside, short⟩, if_pos (by omega)]
  rfl

/-- There is always room for the diagnosis of a text that is no term. -/
theorem SyntaxError.diagnosisFault?_of_parse {depth : Nat} {source : String} {error : SyntaxError}
    (failed : parse depth source = .error error) (shallow : error.cause ≠ .nestedTooDeeply)
    (room : Nat) : error.report.diagnosisFault? room = none := by
  obtain ⟨same, inside, one⟩ := parse_error_column failed shallow
  apply Report.diagnosisFault?_of_column
  · exact Int.natCast_nonneg error.column
  · change (error.column : Int) ≤ (error.source.length : Int)
    rw [same]
    exact Int.ofNat_le.2 inside
  · exact congrArg Int.ofNat one

theorem readTerm_told {depth : Nat} {text : String} {failure : Failure}
    (refused : readTerm depth text = .error failure) : failure.Told := by
  unfold readTerm at refused
  cases parsed : parse depth text with
  | ok t => rw [parsed] at refused; cases refused
  | error error =>
    rw [parsed] at refused
    cases refused
    intro shown
    have shallow : error.cause ≠ .nestedTooDeeply := by
      intro nested
      simp [Report.showsDiagnosis, SyntaxError.report, nested] at shown
    exact SyntaxError.diagnosisFault?_of_parse parsed shallow

theorem told_ofHalt (maxSteps : Int) (run : Eval.Run) (halt : Eval.Halt) :
    (Failure.ofHalt maxSteps run halt).Told := by
  cases halt with
  | tooDeep => trivial
  | stepLimit =>
    apply Console.diagnosable_of_hidden
    simp [Report.showsDiagnosis, Report.ofStepLimit]

theorem Session.evaluate_told {session : Session} {t : Term} {failure : Failure}
    (refused : session.evaluate t = .error failure) : failure.Told := by
  unfold Session.evaluate at refused
  split at refused
  · unfold interpret at refused
    split at refused
    · cases refused
    · cases refused
      exact told_ofHalt _ _ _
  · unfold interpretUncounted at refused
    split at refused
    · cases refused
    · cases refused
      trivial
    · cases refused
      trivial

theorem annotatedWithin_told {depth : Nat} {t : Term} {failure : Failure}
    (refused : t.annotatedWithin depth = .error failure) : failure.Told := by
  unfold Term.annotatedWithin at refused
  split at refused
  · cases refused
    trivial
  · cases refused

/-! ## Sessions at rest -/

namespace Session

/-- A session that is typed into and waits for the next line, and has printed a given text. -/
def atRest (style : Text.Style) (counted : Bool) (settings : Eval.Settings) (printed : String) :
    Session where
  console := { style, fatal := false, places := [{ path := typedPath }], printed }
  path := typedPath
  interactive := true
  settings := settings
  counted := counted

section AtRest

variable {style : Text.Style} {counted : Bool} {settings : Eval.Settings}

theorem idle_atRest : (atRest style counted settings "").Idle := rfl

/-- Whatever fails, a session comes to rest when the failure is dealt with. -/
theorem protect_atRest {action : EStateM Failure Session Unit} {output : String}
    {failure : Failure} {met : Session} (told : failure.Told) (lenient : met.console.fatal = false)
    (same : met.cleared = atRest style counted settings "")
    (failed : Prints action (atRest style counted settings) output (.error failure) met.printing) :
    ∃ output answer, Prints (protect action) (atRest style counted settings) output answer
      (atRest style counted settings) := by
  obtain ⟨output, answer, settles⟩ := protect_of_error told lenient failed
  rw [same] at settles
  exact ⟨output, answer, settles⟩

end AtRest

end Session

namespace Shell

section Evaluating

variable {style : Text.Style} {counted : Bool} {settings : Eval.Settings} {line : String} {t : Term}
  {evaluation : Evaluation} {failure : Failure}

open Session (atRest)

theorem evaluateLine_of_refused (number : Int)
    (refused : readTerm settings.depth line = .error failure) :
    Prints (evaluateLine line number) (atRest style counted settings) "" (.error failure)
      ((atRest style counted settings "").atLine line number).printing := by
  have failed : Prints (Session.add line number) (atRest style counted settings "").printing ""
    (.error failure) ((atRest style counted settings "").atLine line number).printing :=
    Session.add_of_error refused number
  exact failed.halt

/-- A line that is read is the only one in the queue. -/
theorem add_of_read (number : Int) (read : readTerm settings.depth line = .ok t) :
    Prints (Session.add line number) (atRest style counted settings) "" (.ok ())
      { atRest style counted settings "" with queue := [⟨number, line, t⟩] }.printing := by
  have added : Prints (Session.add line number) (atRest style counted settings "").printing ""
    (.ok ()) { atRest style counted settings "" with queue := [⟨number, line, t⟩] }.printing :=
    Session.add_of_ok Session.idle_atRest read number
  exact added

theorem evaluateLine_of_halted (number : Int) (read : readTerm settings.depth line = .ok t)
    (refused : (atRest style counted settings "").evaluate t = .error failure) :
    Prints (evaluateLine line number) (atRest style counted settings) "" (.error failure)
      ((atRest style counted settings "").atLine line number).printing := by
  let queued : Session := { atRest style counted settings "" with queue := [⟨number, line, t⟩] }
  have waits : queued.evaluate t = .error failure := refused
  have failed : Prints (Session.runItem ⟨number, line, t⟩) queued.printing "" (.error failure)
    ((atRest style counted settings "").atLine line number).printing :=
    Session.runItem_of_error rfl waits
  exact (add_of_read number read).silent (Session.run_of_single rfl failed).halt

/-- A line that is evaluated leaves one result. -/
theorem evaluateLine_of_evaluated {output : String} {answer : Except Failure Unit}
    {after : String → Session} (number : Int) (read : readTerm settings.depth line = .ok t)
    (done : (atRest style counted settings "").evaluate t = .ok evaluation)
    (rest : Prints (do
        let text ← Session.pop
        modify (Session.withConsole (·.printLine text)))
      { atRest style counted settings "" with results := [evaluation] }.printing output answer
      after) :
    Prints (evaluateLine line number) (atRest style counted settings)
      (traceText style evaluation.steps ++ output) answer after := by
  let queued : Session := { atRest style counted settings "" with queue := [⟨number, line, t⟩] }
  have idle : queued.Idle := rfl
  have waits : queued.evaluate t = .ok evaluation := done
  have ran : Prints (Session.runItem ⟨number, line, t⟩) queued.printing
    (traceText style evaluation.steps) (.ok ())
    { atRest style counted settings "" with results := [evaluation] }.printing :=
    Session.runItem_of_typed rfl idle rfl waits
  refine (add_of_read number read).silent ((Session.run_of_single rfl ran).bind ?_)
  exact rest

theorem pop_of_evaluated (style : Text.Style) (counted : Bool) (settings : Eval.Settings)
    (evaluation : Evaluation) :
    Prints Session.pop { atRest style counted settings "" with results := [evaluation] }.printing ""
      (evaluation.result.annotatedWithin settings.depth)
      (atRest style counted settings "").printing :=
  Session.pop_prints rfl

theorem evaluateLine_of_unwritten (number : Int) (read : readTerm settings.depth line = .ok t)
    (done : (atRest style counted settings "").evaluate t = .ok evaluation)
    (refused : evaluation.result.annotatedWithin settings.depth = .error failure) :
    Prints (evaluateLine line number) (atRest style counted settings)
      (traceText style evaluation.steps) (.error failure)
      (atRest style counted settings "").printing := by
  have popped := pop_of_evaluated style counted settings evaluation
  rw [refused] at popped
  have halted := evaluateLine_of_evaluated number read done popped.halt
  rwa [String.append_empty] at halted

theorem evaluateLine_of_ok {text : String} (number : Int)
    (read : readTerm settings.depth line = .ok t)
    (done : (atRest style counted settings "").evaluate t = .ok evaluation)
    (written : evaluation.result.annotatedWithin settings.depth = .ok text) :
    Prints (evaluateLine line number) (atRest style counted settings)
      (traceText style evaluation.steps ++ (text ++ "\n")) (.ok ())
      (atRest style counted settings) := by
  have popped := pop_of_evaluated style counted settings evaluation
  rw [written] at popped
  have printed : Prints (modify (Session.withConsole (·.printLine text)))
    (atRest style counted settings) (text ++ "\n") (.ok ()) (atRest style counted settings) :=
    fun _ => rfl
  exact evaluateLine_of_evaluated number read done (popped.silent printed)

/-- However the evaluation of a line goes, the session is at rest again. -/
theorem protect_evaluateLine (line : String) (number : Int) :
    ∃ output answer, Prints (Session.protect (evaluateLine line number))
      (atRest style counted settings) output answer (atRest style counted settings) := by
  cases read : readTerm settings.depth line with
  | error failure =>
    exact Session.protect_atRest (readTerm_told read) rfl rfl (evaluateLine_of_refused number read)
  | ok t =>
    cases done : (atRest style counted settings "").evaluate t with
    | error failure =>
      exact Session.protect_atRest (Session.evaluate_told done) rfl rfl
        (evaluateLine_of_halted number read done)
    | ok evaluation =>
      cases written : evaluation.result.annotatedWithin settings.depth with
      | error failure =>
        exact Session.protect_atRest (annotatedWithin_told written) rfl rfl
          (evaluateLine_of_unwritten number read done written)
      | ok text =>
        exact ⟨_, _, Session.protect_of_ok (evaluateLine_of_ok number read done written)⟩

theorem printTree_apply (source : String) (session : Session) :
    printTree source session =
      (match readTerm session.settings.depth source with
        | .error failure => throw failure
        | .ok t =>
          if session.settings.depth < t.renderDepth then throw .tooDeep
          else modify (Session.withConsole (·.printLine t.tree)) : EStateM Failure Session Unit)
        session :=
  rfl

theorem printTree_of_error (source : String)
    (refused : readTerm settings.depth source = .error failure) :
    Prints (printTree source) (atRest style counted settings) "" (.error failure)
      (atRest style counted settings "").printing := by
  intro printed
  have same : readTerm (atRest style counted settings printed).settings.depth source =
    .error failure := refused
  rw [printTree_apply, same, String.append_empty]
  rfl

theorem printTree_of_ok (source : String) (read : readTerm settings.depth source = .ok t) :
    ∃ output answer, (answer = .ok () ∨ answer = .error .tooDeep) ∧
      Prints (printTree source) (atRest style counted settings) output answer
        (atRest style counted settings "").printing := by
  have opened : ∀ printed, printTree source (atRest style counted settings printed) =
      (if settings.depth < t.renderDepth then throw .tooDeep
        else modify (Session.withConsole (·.printLine t.tree)) : EStateM Failure Session Unit)
          (atRest style counted settings printed) := by
    intro printed
    have same : readTerm (atRest style counted settings printed).settings.depth source = .ok t :=
      read
    rw [printTree_apply, same]
    rfl
  by_cases deep : settings.depth < t.renderDepth
  · refine ⟨"", .error .tooDeep, Or.inr rfl, ?_⟩
    intro printed
    rw [opened, if_pos deep, String.append_empty]
    rfl
  · refine ⟨t.tree ++ "\n", .ok (), Or.inl rfl, ?_⟩
    intro printed
    rw [opened, if_neg deep]
    rfl

theorem protect_printTree (source : String) :
    ∃ output answer, Prints (Session.protect (printTree source)) (atRest style counted settings)
      output answer (atRest style counted settings) := by
  cases read : readTerm settings.depth source with
  | error failure =>
    exact Session.protect_atRest (readTerm_told read) rfl rfl (printTree_of_error source read)
  | ok t =>
    obtain ⟨output, answer, rfl | rfl, prints⟩ := printTree_of_ok source read
    · exact ⟨_, _, Session.protect_of_ok prints⟩
    · have told : Failure.tooDeep.Told := trivial
      exact Session.protect_atRest told rfl rfl prints

end Evaluating

/-! ## Shells at rest -/

/-- A shell that waits for the next line, with the text that it holds back, the number of lines that
it has taken as terms and what it has printed. -/
def atRest (style : Text.Style) (counted : Bool) (settings : Eval.Settings) (pending : String)
    (lineNumber : Nat) (printed : String) : Shell where
  session := Session.atRest style counted settings printed
  pending := pending
  lineNumber := lineNumber
  prompt := if pending = "" then linePrompt else continuationPrompt

theorem onSession_prints {α : Type} {action : EStateM Failure Session α}
    {before after : String → Session} {output : String} {answer : Except Failure α}
    (acts : Prints action before output answer after) (shell : Shell) :
    Prints (onSession action) (fun printed => { shell with session := before printed }) output
      answer (fun printed => { shell with session := after printed }) := by
  intro printed
  have same : action { shell with session := before printed }.session =
    outcome answer (after (printed ++ output)) := acts printed
  rw [onSession, same]
  cases answer with
  | error failure => rfl
  | ok value => rfl

section Commands

variable {style : Text.Style} {counted : Bool} {settings : Eval.Settings} {pending : String}
  {number : Nat}

theorem onSession_atRest {action : EStateM Failure Session Unit}
    (acts : ∃ output answer, Prints action (Session.atRest style counted settings) output answer
      (Session.atRest style counted settings)) :
    ∃ output answer, Prints (onSession action) (atRest style counted settings pending number) output
      answer (atRest style counted settings pending number) := by
  obtain ⟨output, answer, prints⟩ := acts
  exact ⟨output, answer, onSession_prints prints (atRest style counted settings pending number "")⟩

theorem printLine_prints (text : String) :
    Prints (printLine text) (atRest style counted settings pending number) (text ++ "\n") (.ok ())
      (atRest style counted settings pending number) :=
  fun _ => rfl

theorem warn_prints (before argument : String) :
    ∃ output, Prints (warn before argument) (atRest style counted settings pending number) output
      (.ok ()) (atRest style counted settings pending number) := by
  have hidden : Console.Diagnosable
      { message := [.words before, .argument argument, .words "'"], diagnosed := false } :=
    Console.diagnosable_of_hidden (by simp [Report.showsDiagnosis])
  have warned := Console.warn_prints hidden (Session.atRest style counted settings "").console
  have acts : Prints (Session.onConsole (Console.warn _)) (Session.atRest style counted settings) _
    (.ok ()) (Session.atRest style counted settings) := Session.onConsole_prints warned
  exact ⟨_, onSession_prints acts (atRest style counted settings pending number "")⟩

/-- Tracing is all that a command can change. -/
theorem runTrace_prints (argument : String) :
    ∃ output traced, Prints (runTrace argument) (atRest style counted settings pending number)
      output (.ok ())
      (atRest style counted { settings with traced := traced } pending number) := by
  unfold runTrace
  let state (traced : Bool) := "trace is " ++ (if traced then "on" else "off") ++ "\n"
  by_cases switch : argument = "on" ∨ argument = "off"
  · have shown : argument = "on" ∨ argument = "off" ∨ argument = "" := by
      rcases switch with on | off
      · exact Or.inl on
      · exact Or.inr (Or.inl off)
    refine ⟨state (argument = "on"), argument = "on", ?_⟩
    rw [if_pos switch, if_pos shown]
    intro printed
    rfl
  · rw [if_neg switch]
    by_cases nothing : argument = ""
    · refine ⟨state settings.traced, settings.traced, ?_⟩
      rw [if_pos (Or.inr (Or.inr nothing))]
      intro printed
      rfl
    · have other : ¬(argument = "on" ∨ argument = "off" ∨ argument = "") := by
        rintro (on | off | none)
        · exact switch (Or.inl on)
        · exact switch (Or.inr off)
        · exact nothing none
      obtain ⟨output, warned⟩ := warn_prints "trace expects 'on' or 'off', got '" argument
      refine ⟨output, settings.traced, ?_⟩
      rw [if_neg other]
      exact warned

/-- Prints a term, if it can be written. -/
def printWritten (t : Term) : Action Unit := do
  match t.renderWithin (← get).session.settings.depth with
  | .error failure => throw failure
  | .ok text => printLine text

theorem printWritten_apply (t : Term) (shell : Shell) :
    printWritten t shell =
      (match t.renderWithin shell.session.settings.depth with
        | .error failure => throw failure
        | .ok text => printLine text : Action Unit) shell :=
  rfl

theorem printWritten_prints (t : Term) :
    ∃ output answer, Prints (printWritten t) (atRest style counted settings pending number)
      output answer (atRest style counted settings pending number) := by
  cases written : t.renderWithin settings.depth with
  | error failure =>
    refine ⟨"", .error failure, ?_⟩
    intro printed
    have same : t.renderWithin
      (atRest style counted settings pending number printed).session.settings.depth =
        .error failure := written
    rw [printWritten_apply, same, String.append_empty]
    rfl
  | ok text =>
    refine ⟨text ++ "\n", .ok (), ?_⟩
    intro printed
    have same : t.renderWithin
      (atRest style counted settings pending number printed).session.settings.depth = .ok text :=
        written
    rw [printWritten_apply, same]
    rfl

theorem runChurch_prints (argument : String) :
    ∃ output answer, Prints (runChurch argument) (atRest style counted settings pending number)
      output answer (atRest style counted settings pending number) := by
  unfold runChurch
  by_cases digits : (!Text.isNumber argument) = true
  · rw [if_pos digits]
    obtain ⟨output, warned⟩ := warn_prints "church expects a natural number, got '" argument
    exact ⟨output, .ok (), warned⟩
  · rw [if_neg digits]
    by_cases long : Text.maxDigits < argument.length
    · refine ⟨"", .error (.internal (.tooManyDigits argument.length)), ?_⟩
      rw [if_pos long]
      intro printed
      rw [String.append_empty]
      rfl
    · rw [if_neg long]
      exact printWritten_prints (Term.numeral ((Text.numberOfDigits? argument.toList).getD 0))

theorem runExit_prints (argument : String) :
    ∃ output answer, Prints (runExit argument) (atRest style counted settings pending number)
      output answer (atRest style counted settings pending number) := by
  unfold runExit
  by_cases nothing : argument.isEmpty = true
  · rw [if_pos nothing]
    exact ⟨"", .ok true, Prints.pure true _⟩
  · rw [if_neg nothing]
    obtain ⟨output, warned⟩ := warn_prints "unrecognized token: '" argument
    exact ⟨output, _, warned.returns false⟩

/-- The text that a line makes with the text that was held back. -/
def joined (pending line : String) : String := tidyLine (pending ++ " " ++ line)

/-- A text that is finished is evaluated, unless nothing is left of it. -/
theorem takeTerm_apply (line : String) (shell : Shell) :
    takeTerm line shell =
      (if isUnfinished (joined shell.pending line) then
        set { shell with
          pending := joined shell.pending line
          lineNumber := shell.lineNumber + 1
          prompt := continuationPrompt }
      else if (joined shell.pending line).isEmpty then
        set { shell with
          pending := "", lineNumber := shell.lineNumber + 1, prompt := linePrompt }
      else do
        set { shell with
          pending := "", lineNumber := shell.lineNumber + 1, prompt := linePrompt }
        onSession (Session.protect
          (evaluateLine (joined shell.pending line) ((shell.lineNumber + 1 : Nat) : Int))) :
        Action Unit) shell := by
  unfold takeTerm joined
  simp only [modify_bind, get_bind]
  generalize tidyLine (shell.pending ++ " " ++ line) = text
  cases isUnfinished text with
  | true => rfl
  | false =>
    cases text.isEmpty with
    | true => rfl
    | false => rfl

variable {line text : String}

theorem takeTerm_of_unfinished (joins : joined pending line = text)
    (unfinished : isUnfinished text = true) :
    Prints (takeTerm line) (atRest style counted settings pending number) "" (.ok ())
      (atRest style counted settings text (number + 1)) := by
  intro printed
  have same : joined (atRest style counted settings pending number printed).pending line = text :=
    joins
  rw [takeTerm_apply, same, if_pos unfinished, String.append_empty]
  unfold atRest
  rw [if_neg (ne_empty_of_isUnfinished unfinished)]
  rfl

theorem takeTerm_of_blank (joins : joined pending line = "") :
    Prints (takeTerm line) (atRest style counted settings pending number) "" (.ok ())
      (atRest style counted settings "" (number + 1)) := by
  intro printed
  have same : joined (atRest style counted settings pending number printed).pending line = "" :=
    joins
  rw [takeTerm_apply, same, String.append_empty]
  rfl

theorem takeTerm_of_finished {output : String} {answer : Except Failure Unit}
    (joins : joined pending line = text) (finished : isUnfinished text = false) (more : text ≠ "")
    (acts : Prints (Session.protect (evaluateLine text ((number + 1 : Nat) : Int)))
      (Session.atRest style counted settings) output answer
      (Session.atRest style counted settings)) :
    Prints (takeTerm line) (atRest style counted settings pending number) output answer
      (atRest style counted settings "" (number + 1)) := by
  intro printed
  have same : joined (atRest style counted settings pending number printed).pending line = text :=
    joins
  rw [takeTerm_apply, same, if_neg (by simpa using finished), if_neg (by simpa using more)]
  exact onSession_prints acts (atRest style counted settings "" (number + 1) "") printed

theorem takeTerm_prints (line : String) :
    ∃ output answer pending', Held pending' ∧
      Prints (takeTerm line) (atRest style counted settings pending number) output answer
        (atRest style counted settings pending' (number + 1)) := by
  obtain ⟨text, joins⟩ : ∃ text, joined pending line = text := ⟨_, rfl⟩
  cases complete : isUnfinished text with
  | true => exact ⟨_, _, text, Or.inr complete, takeTerm_of_unfinished joins complete⟩
  | false =>
    by_cases nothing : text = ""
    · subst nothing
      exact ⟨_, _, "", Or.inl rfl, takeTerm_of_blank joins⟩
    · obtain ⟨output, answer, evaluated⟩ :=
        protect_evaluateLine text ((number + 1 : Nat) : Int)
      exact ⟨_, _, "", Or.inl rfl, takeTerm_of_finished joins complete nothing evaluated⟩

/-- Whether a command takes a line as a term or as part of one. -/
def Command.isTerm : Command → Bool
  | .term _ => true
  | _ => false

/-- Every command takes a shell at rest to a shell at rest. -/
theorem run_prints (held : Held pending) (command : Command) :
    ∃ output answer traced pending', Held pending' ∧
      Prints (run command) (atRest style counted settings pending number) output answer
        (atRest style counted { settings with traced := traced } pending'
          (number + if command.isTerm then 1 else 0)) := by
  cases command with
  | nothing => exact ⟨"", .ok false, settings.traced, pending, held, Prints.pure false _⟩
  | trace argument =>
    obtain ⟨output, traced, prints⟩ := runTrace_prints argument
    exact ⟨output, _, traced, pending, held, prints.returns false⟩
  | tree argument =>
    obtain ⟨output, answer, prints⟩ := onSession_atRest (protect_printTree argument)
    exact ⟨output, _, settings.traced, pending, held, prints.returns false⟩
  | church argument =>
    obtain ⟨output, answer, prints⟩ := runChurch_prints argument
    exact ⟨output, _, settings.traced, pending, held, prints.returns false⟩
  | help =>
    exact ⟨_, _, settings.traced, pending, held, (printLine_prints helpText).returns false⟩
  | endOfInput argument =>
    obtain ⟨output, answer, prints⟩ := runExit_prints argument
    exact ⟨_, answer, settings.traced, pending, held, (printLine_prints "").bind prints⟩
  | exit argument =>
    obtain ⟨output, answer, prints⟩ := runExit_prints argument
    exact ⟨output, answer, settings.traced, pending, held, prints⟩
  | term line =>
    obtain ⟨output, answer, pending', held', prints⟩ := takeTerm_prints line
    exact ⟨output, _, settings.traced, pending', held', prints.returns false⟩

end Commands

/-! ## Lines one after the other -/

/-- The shell that a line leaves, also if it fails. -/
def feed (shell : Shell) (line : String) : Shell := reached (runLine line shell)

/-- The shell that lines leave, one after the other. -/
def feedAll (shell : Shell) (lines : List String) : Shell := lines.foldl feed shell

/-- The number of lines that are taken as terms or parts of them. -/
def termLines (lines : List String) : Nat := lines.countP fun line => (Command.ofLine line).isTerm

/-- A shell on a new session that is typed into. -/
def opened (style : Text.Style) (counted : Bool) (settings : Eval.Settings) : Shell where
  session :=
    { Session.fresh { style := style } Session.typedPath true settings with counted := counted }

/-- Whether a shell answers a line with an output and an answer: that the shell is to be left or
not, or a failure. -/
def Replies (shell : Shell) (line output : String) (answer : Except Failure Bool) : Prop :=
  ∃ next, runLine line shell = outcome answer next ∧
    next.session.console.printed = shell.session.console.printed ++ output

theorem opened_eq_atRest (style : Text.Style) (counted : Bool) (settings : Eval.Settings) :
    opened style counted settings = atRest style counted settings "" 0 "" := rfl

theorem feed_of_prints {line output : String} {answer : Except Failure Bool}
    {before after : String → Shell} (prints : Prints (runLine line) before output answer after)
    (printed : String) : (before printed).feed line = after (printed ++ output) := by
  rw [feed, prints printed, reached_outcome]

/-- Lines take a shell at rest to a shell at rest. -/
theorem feedAll_atRest (style : Text.Style) (counted : Bool) (settings : Eval.Settings)
    (lines : List String) {pending : String} (held : Held pending) (number : Nat)
    (printed : String) :
    ∃ traced pending' printed', Held pending' ∧
      (atRest style counted settings pending number printed).feedAll lines =
        atRest style counted { settings with traced := traced } pending'
          (number + termLines lines) printed' := by
  induction lines generalizing settings pending number printed with
  | nil => exact ⟨settings.traced, pending, printed, held, rfl⟩
  | cons line lines ih =>
    obtain ⟨output, answer, traced, pending', held', prints⟩ :=
      run_prints held (Command.ofLine line)
    obtain ⟨traced', pending'', printed', held'', fed⟩ :=
      ih { settings with traced := traced } held'
        (number + if (Command.ofLine line).isTerm then 1 else 0) (printed ++ output)
    refine ⟨traced', pending'', printed', held'', ?_⟩
    have first : (atRest style counted settings pending number printed).feed line = _ :=
      feed_of_prints prints printed
    rw [feedAll, List.foldl_cons, first, termLines, List.countP_cons,
      Nat.add_comm (List.countP _ _), ← Nat.add_assoc]
    exact fed

theorem prompt_eq_continuation_iff (pending : String) :
    (if pending = "" then linePrompt else continuationPrompt) = continuationPrompt ↔
      pending ≠ "" := by
  by_cases nothing : pending = ""
  · simp [nothing, linePrompt, continuationPrompt]
  · simp [nothing]

theorem prompt_eq_line_iff (pending : String) :
    (if pending = "" then linePrompt else continuationPrompt) = linePrompt ↔ pending = "" := by
  by_cases nothing : pending = ""
  · simp [nothing]
  · simp [nothing, linePrompt, continuationPrompt]

theorem replies_atRest (style : Text.Style) (counted : Bool) (settings : Eval.Settings)
    {pending : String} (held : Held pending) (number : Nat) (line : String) :
    ∃ output answer, ∀ printed,
      (atRest style counted settings pending number printed).Replies line output answer := by
  obtain ⟨output, answer, traced, pending', -, prints⟩ := run_prints held (Command.ofLine line)
  exact ⟨output, answer, fun printed => ⟨_, prints printed, rfl⟩⟩

/-- Lines leave nothing behind but unfinished text, the number of lines that were taken as terms and
whether evaluations are traced. After any lines nothing is queued, no result is left over, no place
has a line, errors do not end the program, the text that is held back is unfinished, the prompt
tells whether there is any, and all lines that were taken as terms are counted. So two shells with
the same text held back, the same count and the same settings reply to every line alike, whatever
lines they were given before. -/
theorem feedAll_clean (style : Text.Style) (counted : Bool) (settings : Eval.Settings)
    (lines : List String) :
    let shell := (opened style counted settings).feedAll lines
    shell.session.queue = [] ∧ shell.session.results = [] ∧
      (∀ place ∈ shell.session.console.places, place.line = none ∧ place.number = none) ∧
      shell.session.console.fatal = false ∧
      (shell.pending = "" ∨ isUnfinished shell.pending = true) ∧
      (shell.prompt = continuationPrompt ↔ shell.pending ≠ "") ∧
      (shell.prompt = linePrompt ↔ shell.pending = "") ∧
      shell.lineNumber = termLines lines ∧
      ∀ settings' lines',
        let shell' := (opened style counted settings').feedAll lines'
        shell'.pending = shell.pending → shell'.lineNumber = shell.lineNumber →
          shell'.session.settings = shell.session.settings →
          ∀ line, ∃ output answer,
            shell.Replies line output answer ∧ shell'.Replies line output answer := by
  obtain ⟨traced, pending, printed, held, fed⟩ :=
    feedAll_atRest style counted settings lines (Or.inl rfl) 0 ""
  rw [opened_eq_atRest, fed]
  refine ⟨rfl, rfl, ?_, rfl, held, ?_, ?_, Nat.zero_add _, ?_⟩
  · intro place named
    rw [List.mem_singleton.1 named]
    exact ⟨rfl, rfl⟩
  · exact prompt_eq_continuation_iff pending
  · exact prompt_eq_line_iff pending
  · intro settings' lines'
    obtain ⟨traced', pending', printed', -, fed'⟩ :=
      feedAll_atRest style counted settings' lines' (Or.inl rfl) 0 ""
    rw [opened_eq_atRest, fed']
    -- Both shells are at rest, so that they differ in nothing but what they have printed.
    intro shell' samePending sameNumber sameSettings line
    obtain ⟨output, answer, replies⟩ :=
      replies_atRest style counted { settings with traced := traced } held (0 + termLines lines)
        line
    refine ⟨output, answer, replies printed, ?_⟩
    change pending' = pending at samePending
    change 0 + termLines lines' = 0 + termLines lines at sameNumber
    change { settings' with traced := traced' } = { settings with traced := traced } at sameSettings
    simp only [shell', samePending, sameNumber, sameSettings]
    exact replies printed'

/-- A line that is no term, an evaluation that is given up and a numeral that is too deep to be
written leave nothing behind. -/
theorem feedAll_clean_failures :
    let shell := (opened .plain true { maxSteps := 3, depth := 60 }).feedAll
      ["x)", "(λx. x x) (λx. x x)", "church 40", "trace on", "(λx. x"]
    let shell' := (opened .plain true { maxSteps := 3, depth := 60, traced := true }).feedAll
      ["y", ";; nothing", "tree (", "(λx. x"]
    shell.pending = "(λx. x" ∧ shell.session.console.printed ≠ shell'.session.console.printed ∧
      ∃ output answer, shell.Replies ") y" output answer ∧ shell'.Replies ") y" output answer := by
  refine ⟨by decide +kernel, by decide +kernel, ?_⟩
  obtain ⟨-, -, -, -, -, -, -, -, alike⟩ :=
    feedAll_clean .plain true { maxSteps := 3, depth := 60 }
      ["x)", "(λx. x x) (λx. x x)", "church 40", "trace on", "(λx. x"]
  exact alike { maxSteps := 3, depth := 60, traced := true } ["y", ";; nothing", "tree (", "(λx. x"]
    (by decide +kernel) (by decide +kernel) (by decide +kernel) ") y"

end Shell

end Redex
