import Redex.Proofs.Budget
import Redex.Proofs.Diagnosis
import Redex.Proofs.NameShapes
import Redex.Proofs.Script

/-!
# Running a file

A file is loaded before any of its terms is evaluated: its lines are collected into entries, every
entry is read and put into the queue, and only then is the queue run. So a text that is no term ends
the program before anything else is printed, and a term that exceeds the step limit ends it after
the terms in front of it have been evaluated and printed. The console of a session on a file is
fatal: the first error is reported with the line that is being worked on, which is the first line of
an entry, and the program exits.
-/

namespace Redex

/-! ## The end of the program -/

namespace Program

theorem finish_of_ok {action : EStateM Failure Session Unit} {session after : Session}
    {output : String} (prints : Prints action session.printing output (.ok ()) after.printing) :
    finish Session.console (action (session.printing "")) = { output := output } := by
  rw [prints "", String.empty_append]
  rfl

/-- An error that nothing deals with is reported at the end, and the program exits. -/
theorem finish_of_reported {action : EStateM Failure Session Unit} {session after : Session}
    {output : String} {report : Report} (diagnosable : Console.Diagnosable report)
    (fatal : after.console.fatal = true)
    (prints : Prints action session.printing output (.error (.reported report)) after.printing) :
    finish Session.console (action (session.printing "")) =
      { exitCode := 1, output := output ++ after.console.announcement report } := by
  have settles : Console.settle (.reported report) (after.printing output).console = _ :=
    Console.raise_fatal diagnosable fatal output
  rw [prints "", String.empty_append, outcome, finish, settles]
  rfl

end Program

/-! ## What is said about an entry -/

/-- The line that reports an error at an entry of a file. -/
def Entry.errorLine (entry : Entry) (path message : String) : String :=
  path ++ ":" ++ toString entry.number ++ ": error: " ++ message ++ "\n"

/-- The source of an entry with a caret below one of its columns. -/
def Entry.caretLines (entry : Entry) (column : Nat) : String :=
  "  " ++ entry.text ++ "\n" ++ "  " ++ Text.repeated column ' ' ++ "^" ++ "\n"

/-- The trace of an evaluation, if it is asked for. -/
def tracePart (traced : Bool) (run : Eval.Run) : String :=
  if traced then traceText .plain run.steps else ""

theorem traceText_eq {traced : Bool} {run : Eval.Run}
    (untraced : traced = false → run.steps = #[]) :
    traceText .plain run.steps = tracePart traced run := by
  cases traced with
  | true => rfl
  | false =>
    rw [untraced rfl]
    rfl

namespace Session

section Announcements

variable {session : Session} {entry : Entry}

/-- What is printed about an error while a session on a file works on an entry. -/
theorem announcement_atLine {report : Report} (plain : session.console.style = .plain)
    (alone : session.console.places = [{ path := session.path }]) (text : entry.text ≠ "")
    (own : report.internal = false) :
    (session.atLine entry.text entry.number).console.announcement report =
      traceText .plain report.steps ++ entry.errorLine session.path report.message.text ++
        Console.diagnosisText .plain .red report := by
  have places : (session.atLine entry.text entry.number).console.places =
      [⟨session.path, some entry.text, some entry.number⟩] := by
    simp [atLine, withConsole, Console.enterLine, alone, Traceback.put]
  have style : (session.atLine entry.text entry.number).console.style = .plain := plain
  rw [Console.announcement, Console.errorLine, places, style, Traceback.heading_single _ _ text]
  simp [own, Entry.errorLine, String.append_assoc]

theorem announcement_of_syntaxError {depth : Nat} {error : SyntaxError}
    (plain : session.console.style = .plain)
    (alone : session.console.places = [{ path := session.path }]) (text : entry.text ≠ "")
    (failed : parse depth entry.text = .error error) (shallow : error.cause ≠ .nestedTooDeeply) :
    (session.atLine entry.text entry.number).console.announcement error.report =
      entry.errorLine session.path error.cause.message.text ++ entry.caretLines error.column := by
  obtain ⟨same, -, one⟩ := parse_error_column failed shallow
  have shown : error.report.showsDiagnosis = true := by
    simp [Report.showsDiagnosis, SyntaxError.report, same, text, shallow]
  rw [announcement_atLine plain alone text rfl, Console.diagnosisText, if_pos shown,
    SyntaxError.diagnosis_plain one, same]
  exact congrArg (· ++ entry.caretLines error.column) String.empty_append

theorem announcement_of_stepLimit {maxSteps : Int} {steps : Array Step}
    (plain : session.console.style = .plain)
    (alone : session.console.places = [{ path := session.path }]) (text : entry.text ≠ "") :
    (session.atLine entry.text entry.number).console.announcement
        (.ofStepLimit maxSteps steps none) =
      traceText .plain steps ++ entry.errorLine session.path
        ("Evaluation exceeded " ++ toString maxSteps ++ " steps") := by
  have hidden : (Report.ofStepLimit maxSteps steps none).showsDiagnosis = false := by
    simp [Report.showsDiagnosis, Report.ofStepLimit]
  have message : (Report.ofStepLimit maxSteps steps none).message.text =
      "Evaluation exceeded " ++ toString maxSteps ++ " steps" := by
    simp [Report.ofStepLimit, Text.Message.text, Text.Span.text, String.append_assoc]
  rw [announcement_atLine plain alone text rfl, Console.diagnosisText, hidden, message]
  exact String.append_empty

end Announcements

/-! ## The three ways a file can go -/

section Runs

variable {session : Session} {items : List Queued} {failure : Failure}

/-- A text that is no term stops the loading. -/
theorem addEntries_of_refused {entry : Entry} (idle : session.Idle) (empty : session.queue = [])
    (read : ∀ item ∈ items, readTerm session.settings.depth item.line = .ok item.term)
    (ordered : items.Pairwise (·.number < ·.number))
    (refused : readTerm session.settings.depth entry.text = .error failure) (after : List Entry) :
    let loaded : Session := { session with queue := items }
    Prints (addEntries (items.map Queued.entry ++ entry :: after)) session.printing ""
      (.error failure) (loaded.atLine entry.text entry.number).printing := by
  intro loaded
  have queued : session.queue ++ items = items := by rw [empty, List.nil_append]
  refine addEntries_behind session idle read ordered (by rw [empty]; nofun) ?_
  rw [queued]
  have here : readTerm loaded.settings.depth entry.text = .error failure := refused
  exact (add_of_error here entry.number).halt

/-- A term whose evaluation fails stops the run, after those in front of it. -/
theorem run_of_failed {item : Queued} {rest : List Queued} {outputs : List String}
    (idle : session.Idle) (filed : session.interactive = false) (empty : session.queue = [])
    (read : ∀ other ∈ items ++ item :: rest,
      readTerm session.settings.depth other.line = .ok other.term)
    (ordered : (items ++ item :: rest).Pairwise (·.number < ·.number))
    (yields : List.Forall₂ (fun item => session.Yields item.term) items outputs)
    (failed : session.evaluate item.term = .error failure) :
    ∃ results,
      let stopped : Session := { session with queue := rest, results := results }
      Prints (do addEntries ((items ++ item :: rest).map Queued.entry); run) session.printing
        (String.join outputs) (.error failure) (stopped.atLine item.line item.number).printing := by
  let stopped (results : List Evaluation) : Session :=
    { session with queue := rest, results := results }
  have goesOn (results : List Evaluation) : Prints (runItems (item :: rest))
      { session with queue := item :: rest, results := results }.printing "" (.error failure)
      ((stopped results).atLine item.line item.number).printing := by
    let waiting : Session := { session with queue := item :: rest, results := results }
    have here : waiting.evaluate item.term = .error failure := failed
    exact (runItem_of_error rfl here).halt
  have ran := run_behind session idle filed empty read ordered yields goesOn
  rwa [String.append_empty] at ran

end Runs

end Session

/-! ## Texts that the nesting limit spares -/

/-- Whether the limit on nested calls is of no account for a text: it is read, evaluated and
written, or refused for another reason. -/
def Spared (settings : Eval.Settings) (text : String) : Prop :=
  (∀ error, parse settings.depth text = .error error → error.cause ≠ .nestedTooDeeply) ∧
    ∀ t, parse settings.depth text = .ok t → Eval.Settled (Eval.evaluate settings t) ∧
      ∀ result run, Eval.evaluate settings t = .ok result run →
        result.renderDepth ≤ settings.depth

theorem spared_of_read {settings : Eval.Settings} {text : String} {t : Term}
    {outcome : EStateM.Result Eval.Halt Eval.Run Term} (read : parse settings.depth text = .ok t)
    (evaluated : Eval.evaluate settings t = outcome) (settled : Eval.Settled outcome)
    (fits : ∀ result run, outcome = .ok result run → result.renderDepth ≤ settings.depth) :
    Spared settings text := by
  refine ⟨?_, ?_⟩
  · intro error failed
    cases read.symm.trans failed
  · intro t' read'
    cases read.symm.trans read'
    rw [evaluated]
    exact ⟨settled, fits⟩

theorem exists_spared (maxSteps : Int) (traced : Bool) (text : String) :
    ∃ enough, ∀ depth, enough ≤ depth → Spared ⟨maxSteps, traced, depth⟩ text := by
  have shallow : ∀ depth, 3 * text.length + 3 ≤ depth → ∀ error,
      parse depth text = .error error → error.cause ≠ .nestedTooDeeply := by
    intro depth deep error failed nested
    rcases parse_cases depth text with ⟨t, read, -⟩ | ⟨error', failed', bound⟩
    · cases read.symm.trans failed
    · cases failed.symm.trans failed'
      have short := bound nested
      omega
  by_cases reads : ∃ depth t, readTerm depth text = .ok t
  · obtain ⟨depth₀, t₀, read₀⟩ := reads
    obtain ⟨enough, settled⟩ := Eval.exists_settled maxSteps traced t₀
    obtain ⟨enough', writable⟩ := exists_writable maxSteps traced t₀
    refine ⟨max (3 * text.length + 3) (max enough enough'), ?_⟩
    intro depth deep
    refine ⟨shallow depth (by omega), ?_⟩
    intro t read
    obtain rfl := readTerm_unique read₀ (readTerm_of_parse read)
    exact ⟨settled depth (by omega), writable depth (by omega)⟩
  · refine ⟨3 * text.length + 3, ?_⟩
    intro depth deep
    refine ⟨shallow depth deep, ?_⟩
    intro t read
    exact absurd ⟨depth, t, readTerm_of_parse read⟩ reads

theorem exists_all_spared (maxSteps : Int) (traced : Bool) (entries : List Entry) :
    ∃ enough, ∀ depth, enough ≤ depth →
      ∀ entry ∈ entries, Spared ⟨maxSteps, traced, depth⟩ entry.text := by
  induction entries with
  | nil => exact ⟨0, fun _ _ => nofun⟩
  | cons entry entries ih =>
    obtain ⟨enough, first⟩ := exists_spared maxSteps traced entry.text
    obtain ⟨enough', others⟩ := ih
    refine ⟨max enough enough', ?_⟩
    intro depth deep
    exact List.forall_mem_cons.2 ⟨first depth (by omega), others depth (by omega)⟩

/-! ## The program on a file -/

/-- Whether a file can be opened and holds lines of text. -/
def Files.Holds (files : Files) (path : String) (lines : List String) : Prop :=
  '\x00' ∉ path.toList ∧ ∃ bytes chars, files path = some bytes ∧
    Text.Utf8.decode bytes = .ok chars ∧ (Text.fileLines chars).map String.ofList = lines

theorem openFile_of_holds {files : Files} {path : String} {lines : List String}
    (holds : files.Holds path lines) {entries : List Entry}
    (collects : Entry.collectAll lines 1 false [] = .ok entries) :
    Session.openFile files path = .ok entries := by
  obtain ⟨noNull, bytes, chars, opens, decodes, cut⟩ := holds
  have named : path.toList.contains '\x00' = false := by simpa using noNull
  have made : Entry.ofFile bytes = .ok entries := by
    rw [Entry.ofFile, decodes, ← collects, ← cut]
    rfl
  rw [Session.openFile, named, opens]
  simp [made, Except.mapError]

/-- What the program leaves behind after it was run on a file. -/
def Program.onFile (files : Files) (settings : Eval.Settings) (path : String) : Program.Result :=
  Program.finish Session.console
    (Program.runFile files (Session.filed .plain true settings path))

/-- Whether an output is what is printed for an entry: the trace if it is asked for, and the result
in one line. -/
def Entry.Shows (settings : Eval.Settings) (entry : Entry) (output : String) : Prop :=
  ∃ t result run, parse settings.depth entry.text = .ok t ∧
    Eval.evaluate settings t = .ok result run ∧ '\n' ∉ result.annotated.toList ∧
    output = tracePart settings.traced run ++ (result.annotated ++ "\n")

theorem Entry.Shows.answers {settings : Eval.Settings} {path : String} {entry : Entry}
    {output : String} (spared : Spared settings entry.text) (shows : entry.Shows settings output) :
    (Session.filed .plain true settings path).Answers entry.text output := by
  obtain ⟨t, result, run, read, done, -, rfl⟩ := shows
  refine ⟨t, readTerm_of_parse read, ⟨result, run.steps⟩, result.annotated,
    session_of_evaluate rfl done, ?_, ?_⟩
  · exact Term.annotatedWithin_of_le ((spared.2 t read).2 result run done)
  · rw [← traceText_eq (Eval.steps_of_untraced_ok done)]
    rfl

theorem Entry.exists_shows (settings : Eval.Settings) {entries : List Entry}
    (succeed : ∀ entry ∈ entries, ∃ t result run, parse settings.depth entry.text = .ok t ∧
      Eval.evaluate settings t = .ok result run) :
    ∃ outputs, List.Forall₂ (Entry.Shows settings) entries outputs := by
  apply exists_forall₂
  intro entry inside
  obtain ⟨t, result, run, read, done⟩ := succeed entry inside
  exact ⟨_, t, result, run, read, done, newline_not_mem_result read done, rfl⟩

theorem Entry.answers_of_shows {settings : Eval.Settings} {path : String} {entries : List Entry}
    {outputs : List String} (spared : ∀ entry ∈ entries, Spared settings entry.text)
    (shows : List.Forall₂ (Entry.Shows settings) entries outputs) :
    List.Forall₂ (Session.filed .plain true settings path).Answers (entries.map Entry.text)
      outputs := by
  rw [List.forall₂_map_left_iff]
  refine ((List.forall₂_and_left _ _).2 ⟨spared, shows⟩).imp ?_
  rintro entry output ⟨sparedEntry, showsEntry⟩
  exact showsEntry.answers sparedEntry

namespace Program

section OnFile

variable {files : Files} {settings : Eval.Settings} {path : String} {before after : List Entry}
  {entry : Entry}

theorem onFile_eq {entries : List Entry} (named : path ≠ Session.typedPath)
    (opens : Session.openFile files path = .ok entries) :
    onFile files settings path = finish Session.console
      ((do Session.addEntries entries; Session.run)
        ((Session.filed .plain true settings path).printing "")) := by
  rw [onFile, runFile_of_opened (Session.filed .plain true settings path) named opens]
  rfl

/-- If a text is no term, the first such text is reported, and nothing is evaluated. -/
theorem onFile_of_refused {error : SyntaxError} (named : path ≠ Session.typedPath)
    (opens : Session.openFile files path = .ok (before ++ entry :: after))
    (ordered : (before ++ entry :: after).Pairwise (·.number < ·.number)) (text : entry.text ≠ "")
    (reads : ∀ earlier ∈ before, ∃ t, parse settings.depth earlier.text = .ok t)
    (failed : parse settings.depth entry.text = .error error)
    (shallow : error.cause ≠ .nestedTooDeeply) :
    let file := Session.filed .plain true settings path
    (∃ last, Session.load files file = .error (.ofSyntaxError error) last ∧
        runFile files file = .error (.ofSyntaxError error) last ∧
        last.results = [] ∧ last.console.printed = "") ∧
      onFile files settings path =
        { exitCode := 1
          output := entry.errorLine path error.cause.message.text ++
            entry.caretLines error.column } := by
  intro file
  have idle : file.Idle := idle_filed .plain true settings path
  obtain ⟨items, rfl, read⟩ := Session.exists_items fun earlier inside =>
    (reads earlier inside).imp fun t => readTerm_of_parse
  have ascending := List.pairwise_map.1 (List.pairwise_append.1 ordered).1
  have refused : readTerm settings.depth entry.text = .error (.ofSyntaxError error) := by
    rw [readTerm, failed]
    rfl
  have told : Console.Diagnosable error.report := readTerm_told refused
  let loaded : Session := { file with queue := items }
  let last : Session := loaded.atLine entry.text entry.number
  have loads : Prints (Session.addEntries (items.map Queued.entry ++ entry :: after))
      file.printing "" (.error (.ofSyntaxError error)) last.printing :=
    Session.addEntries_of_refused idle rfl read ascending refused after
  have runs : Prints (do
      Session.addEntries (items.map Queued.entry ++ entry :: after)
      Session.run) file.printing "" (.error (.ofSyntaxError error)) last.printing := loads.halt
  refine ⟨⟨last.printing "", ?_, ?_, rfl, rfl⟩, ?_⟩
  · rw [load_of_opened file named opens]
    exact loads ""
  · rw [runFile_of_opened file named opens]
    exact runs ""
  · have announced : last.console.announcement error.report =
        entry.errorLine path error.cause.message.text ++ entry.caretLines error.column :=
      Session.announcement_of_syntaxError rfl rfl text failed shallow
    rw [onFile_eq named opens, finish_of_reported told rfl runs, announced]
    exact congrArg (Result.mk none 1 · "") String.empty_append

/-- If a term exceeds the step limit, those in front of it are shown first, then its trace up to
there and the report. -/
theorem onFile_of_exceeded {outputs : List String} {t : Term} {run : Eval.Run}
    (named : path ≠ Session.typedPath)
    (opens : Session.openFile files path = .ok (before ++ entry :: after))
    (ordered : (before ++ entry :: after).Pairwise (·.number < ·.number)) (text : entry.text ≠ "")
    (answers : List.Forall₂ (Session.filed .plain true settings path).Answers
      (before.map Entry.text) outputs)
    (read : parse settings.depth entry.text = .ok t)
    (halted : Eval.evaluate settings t = .error .stepLimit run)
    (reads : ∀ later ∈ after, ∃ t, parse settings.depth later.text = .ok t) :
    onFile files settings path =
      { exitCode := 1
        output := String.join outputs ++ (tracePart settings.traced run ++
          entry.errorLine path
            ("Evaluation exceeded " ++ toString settings.maxSteps ++ " steps")) } := by
  let file := Session.filed .plain true settings path
  have idle : file.Idle := idle_filed .plain true settings path
  obtain ⟨items, rfl, readItems, yields⟩ := Session.exists_items_of_answers answers
  obtain ⟨rest, rfl, readRest⟩ := Session.exists_items fun later inside =>
    (reads later inside).imp fun t => readTerm_of_parse
  let item : Queued := ⟨entry.number, entry.text, t⟩
  have split : items.map Queued.entry ++ entry :: rest.map Queued.entry =
      (items ++ item :: rest).map Queued.entry := by
    rw [List.map_append, List.map_cons]
    rfl
  rw [split] at opens ordered
  have ascending := List.pairwise_map.1 ordered
  have readAll : ∀ other ∈ items ++ item :: rest,
      readTerm file.settings.depth other.line = .ok other.term :=
    List.forall_mem_append.2
      ⟨readItems, List.forall_mem_cons.2 ⟨readTerm_of_parse read, readRest⟩⟩
  have failed : file.evaluate item.term =
      .error (.reported (.ofStepLimit settings.maxSteps run.steps none)) :=
    session_of_limit rfl halted
  obtain ⟨results, runs⟩ :=
    Session.run_of_failed idle rfl rfl readAll ascending yields failed
  have told : Console.Diagnosable (.ofStepLimit settings.maxSteps run.steps none) :=
    told_ofHalt settings.maxSteps run .stepLimit
  let last : Session := { file with queue := rest, results := results }
  have announced : (last.atLine entry.text entry.number).console.announcement
      (.ofStepLimit settings.maxSteps run.steps none) =
      traceText .plain run.steps ++ entry.errorLine path
        ("Evaluation exceeded " ++ toString settings.maxSteps ++ " steps") :=
    Session.announcement_of_stepLimit rfl rfl text
  rw [traceText_eq (Eval.steps_of_untraced_limit halted)] at announced
  rw [onFile_eq named opens, finish_of_reported told rfl runs, announced]

theorem onFile_of_completed {entries : List Entry} {outputs : List String}
    (named : path ≠ Session.typedPath)
    (opens : Session.openFile files path = .ok entries)
    (ordered : entries.Pairwise (·.number < ·.number))
    (answers : List.Forall₂ (Session.filed .plain true settings path).Answers
      (entries.map Entry.text) outputs) :
    onFile files settings path = { output := String.join outputs } := by
  obtain ⟨results, runs⟩ := Session.run_entries (Session.filed .plain true settings path)
    (idle_filed .plain true settings path) rfl rfl ordered answers
  rw [onFile_eq named opens, finish_of_ok runs]

end OnFile

/-- The program on a file. Its lines are collected into entries, each of which is numbered by its
first line. Within the limit on nested calls there are three ways it can go. If a text is no term,
then the first such text is reported with a caret, before anything is evaluated. If all texts are
terms and one of them exceeds the step limit, then the terms in front of the first such term print
their traces and their results, this term prints its trace up to there, and it is reported. In both
cases the exit code is 1. Otherwise every term prints its trace and its result, a single line, and
the program ends as it should. From some number of nested calls on the limit is of no account. -/
theorem run_on_file {files : Files} {path : String} {lines : List String}
    (named : path ≠ Session.typedPath) (holds : files.Holds path lines) (maxSteps : Int)
    (traced : Bool) :
    ∃ entries enough, Entry.collectAll lines 1 false [] = .ok entries ∧
      entries.Pairwise (·.number < ·.number) ∧ (∀ entry ∈ entries, entry.MadeOf lines) ∧
      (∀ args input, CommandLine.read args = .run ⟨some path, traced, some maxSteps⟩ →
        run files .plain args input =
          onFile files { maxSteps := maxSteps, traced := traced } path) ∧
      (∀ depth, enough ≤ depth →
        ∀ entry ∈ entries, Spared ⟨maxSteps, traced, depth⟩ entry.text) ∧
      ∀ depth,
        let settings : Eval.Settings := ⟨maxSteps, traced, depth⟩
        let file := Session.filed .plain true settings path
        (∀ entry ∈ entries, Spared settings entry.text) →
        (∀ before entry after error, entries = before ++ entry :: after →
          (∀ earlier ∈ before, ∃ t, parse depth earlier.text = .ok t) →
          parse depth entry.text = .error error →
          (∃ last, Session.load files file = .error (.ofSyntaxError error) last ∧
            runFile files file = .error (.ofSyntaxError error) last ∧
            last.results = [] ∧ last.console.printed = "") ∧
          onFile files settings path =
            { exitCode := 1
              output := entry.errorLine path error.cause.message.text ++
                entry.caretLines error.column }) ∧
        ((∀ entry ∈ entries, ∃ t, parse depth entry.text = .ok t) →
          (∀ before entry after t halted, entries = before ++ entry :: after →
            (∀ earlier ∈ before, ∃ t result run, parse depth earlier.text = .ok t ∧
              Eval.evaluate settings t = .ok result run) →
            parse depth entry.text = .ok t →
            Eval.evaluate settings t = .error .stepLimit halted →
            ∃ outputs, List.Forall₂ (Entry.Shows settings) before outputs ∧
              onFile files settings path =
                { exitCode := 1
                  output := String.join outputs ++ (tracePart traced halted ++
                    entry.errorLine path
                      ("Evaluation exceeded " ++ toString maxSteps ++ " steps")) }) ∧
          ((∀ entry ∈ entries, ∃ t result run, parse depth entry.text = .ok t ∧
              Eval.evaluate settings t = .ok result run) →
            ∃ outputs, List.Forall₂ (Entry.Shows settings) entries outputs ∧
              onFile files settings path = { output := String.join outputs })) := by
  obtain ⟨entries, limit, collects, texts, ordered, -⟩ :=
    Entry.collectAll_gather lines waiting_nothing 1 0 [] ⟨.nil, nofun⟩
  obtain ⟨enough, deepEnough⟩ := exists_all_spared maxSteps traced entries
  have opens : Session.openFile files path = .ok entries := openFile_of_holds holds collects
  have filled : ∀ entry ∈ entries, entry.text ≠ "" := by
    intro entry inside
    have listed : entry.text ∈ entries.map Entry.text := List.mem_map_of_mem inside
    rw [texts] at listed
    rcases List.mem_append.1 listed with finished | left
    · exact ne_empty_of_mem_gather finished
    · exact ne_empty_of_mem_nonempty left
  refine ⟨entries, enough, collects, ordered, ?_, ?_, deepEnough, ?_⟩
  · exact Entry.collectAll_madeOf [] lines waiting_nothing 0 collects
      (List.forall_mem_nil _) (absurd rfl)
  · intro args input reads
    rw [run, start, reads]
    rfl
  · intro depth settings file spared
    refine ⟨?_, fun readAll => ⟨?_, ?_⟩⟩
    · rintro before entry after error rfl reads failed
      have inside : entry ∈ before ++ entry :: after := by simp
      exact onFile_of_refused named opens ordered (filled entry inside) reads failed
        ((spared entry inside).1 error failed)
    · rintro before entry after t halted rfl succeed read exceeds
      have inside : entry ∈ before ++ entry :: after := by simp
      obtain ⟨sparedBefore, -⟩ := List.forall_mem_append.1 spared
      obtain ⟨-, readAfter⟩ := List.forall_mem_append.1 readAll
      obtain ⟨outputs, shows⟩ := Entry.exists_shows settings succeed
      refine ⟨outputs, shows, ?_⟩
      exact onFile_of_exceeded named opens ordered (filled entry inside)
        (Entry.answers_of_shows sparedBefore shows) read exceeds
        (List.forall_mem_cons.1 readAfter).2
    · intro succeed
      obtain ⟨outputs, shows⟩ := Entry.exists_shows settings succeed
      exact ⟨outputs, shows,
        onFile_of_completed named opens ordered (Entry.answers_of_shows spared shows)⟩

/-- A file with a term over two lines that goes on for ever, and another one behind it. -/
theorem run_on_file_endless :
    let lines := ["(\\x.x) y", "", "(\\x.x x", ") (\\x.x x) ;; again", "z"]
    let bytes := ("\n".intercalate lines).toList.map fun c => UInt8.ofNat c.toNat
    run (fun _ => some bytes) .plain ["--trace", "--max-steps", "2", "terms"] "" =
      { exitCode := 1
        output := "Step 0: (λx. x) y\nStep 1: y\ny\n" ++
          "Step 0: (λx. (x x)) (λx. (x x))\nStep 1: (λx. (x x)) (λx. (x x))\n" ++
          "terms:3: error: Evaluation exceeded 2 steps\n" } := by
  intro lines bytes
  let settings : Eval.Settings := { maxSteps := 2, traced := true }
  let half : Term := .abs "x" (.app (.var "x") (.var "x"))
  have holds : Files.Holds (fun _ => some bytes) "terms" lines :=
    ⟨by decide, bytes, ("\n".intercalate lines).toList, rfl, by decide +kernel, by decide +kernel⟩
  obtain ⟨entries, -, collects, -, -, starts, -, ways⟩ := run_on_file (by decide) holds 2 true
  have listed : (Entry.collectAll lines 1 false []).toOption =
      some [⟨"(\\x.x) y", 1⟩, ⟨"(\\x.x x ) (\\x.x x)", 3⟩, ⟨"z", 5⟩] := by decide +kernel
  rw [collects] at listed
  obtain rfl := Option.some.inj listed
  have first : parse 1000 "(\\x.x) y" = .ok (.app (.abs "x" (.var "x")) (.var "y")) ∧
      Eval.evaluate settings (.app (.abs "x" (.var "x")) (.var "y")) =
        .ok (.var "y") ⟨⟨[]⟩, 1, #[⟨0, "(λx. x) y"⟩, ⟨1, "y"⟩]⟩ := by decide +kernel
  have second : parse 1000 "(\\x.x x ) (\\x.x x)" = .ok (.app half half) ∧
      Eval.evaluate settings (.app half half) = .error .stepLimit
        ⟨⟨[]⟩, 2, #[⟨0, "(λx. (x x)) (λx. (x x))"⟩, ⟨1, "(λx. (x x)) (λx. (x x))"⟩]⟩ := by
    decide +kernel
  have third : parse 1000 "z" = .ok (.var "z") ∧
      Eval.evaluate settings (.var "z") = .ok (.var "z") ⟨⟨[]⟩, 0, #[⟨0, "z"⟩]⟩ := by
    decide +kernel
  obtain ⟨-, read⟩ := ways 1000 (by
    simp only [List.forall_mem_cons]
    exact ⟨spared_of_read first.1 first.2 trivial (by rintro _ _ ⟨⟩; decide),
      spared_of_read second.1 second.2 trivial nofun,
      spared_of_read third.1 third.2 trivial (by rintro _ _ ⟨⟩; decide), nofun⟩)
  obtain ⟨exceeded, -⟩ := read (by
    simp only [List.forall_mem_cons]
    exact ⟨⟨_, first.1⟩, ⟨_, second.1⟩, ⟨_, third.1⟩, nofun⟩)
  obtain ⟨outputs, shows, result⟩ := exceeded [_] _ [_] _ _ rfl
    (List.forall_mem_singleton.2 ⟨_, _, _, first⟩) second.1 second.2
  obtain ⟨output, -, ⟨t, r, run, read', done, -, rfl⟩, ⟨⟩, rfl⟩ :=
    List.forall₂_cons_left_iff.1 shows
  cases first.1.symm.trans read'
  cases first.2.symm.trans done
  refine (starts _ "" (by decide +kernel)).trans (result.trans ?_)
  exact congrArg (Result.mk none 1 · "") (by decide +kernel)

end Program

end Redex
