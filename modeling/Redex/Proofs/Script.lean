import Mathlib.Data.List.Forall2
import Redex.Proofs.Depth
import Redex.Proofs.Interaction

/-!
# Files and typed lines

A file and a shell take the same lines in two ways. A file joins all its lines first, reads the
texts, puts them into the queue and runs it; each result is printed as it comes. A shell joins lines
as they are typed, hands each text to its session as soon as it is finished, and takes the result
from there.

Both gather the same texts (`Shell.feedAll_gather`, and `Entry.collectAll_gather` for the file), and
texts that are read, evaluated and written print the same in both (`Session.feedAll_prints`,
`Session.run_entries`).
-/

namespace Redex

namespace Shell

/-! ## Lines that are no commands -/

/-- The words that are commands. -/
def commandWords : List String := ["trace", "tree", "church", "help", "EOF", "exit"]

/-- Whether a line starts with no question mark and with no word that is a command. -/
def Plain (line : String) : Prop :=
  (Text.stripChars line.toList).head? ≠ some '?' ∧
    String.ofList ((Text.stripChars line.toList).takeWhile isWordChar) ∉ commandWords

instance (line : String) : Decidable (Plain line) := inferInstanceAs (Decidable (_ ∧ _))

theorem ofWord_of_not_mem {word : String} (other : word ∉ commandWords) (argument line : String) :
    Command.ofWord word argument line = .term line := by
  simp only [commandWords, List.mem_cons, List.not_mem_nil, or_false, not_or] at other
  simp [Command.ofWord, other]

theorem ofLine_of_blank {line : String} (blank : Text.stripChars line.toList = []) :
    Command.ofLine line = .nothing := by
  rw [Command.ofLine, blank]

/-- A line that is neither blank nor a command is a term. -/
theorem ofLine_of_plain {line : String} (plain : Plain line)
    (filled : Text.stripChars line.toList ≠ []) :
    Command.ofLine line = .term (Text.strip line) := by
  obtain ⟨question, word⟩ := plain
  unfold Command.ofLine Text.strip
  split
  · next nothing => exact absurd nothing filled
  · next asks => exact absurd (congrArg List.head? asks) question
  · next escaped => rw [escaped]
  · exact ofWord_of_not_mem word _ _

/-! ## What a shell hands to its session -/

/-- The entry that a shell hands to its session when it is given a line, if any. -/
def handed? (shell : Shell) (line : String) : Option Entry :=
  match Command.ofLine line with
  | .term line =>
    let text := joined shell.pending line
    if isUnfinished text ∨ text = "" then none
    else some ⟨text, ((shell.lineNumber + 1 : Nat) : Int)⟩
  | _ => none

/-- The entries that a shell hands to its session when it is given lines one after the other. -/
def handed : Shell → List String → List Entry
  | _, [] => []
  | shell, line :: lines => (shell.handed? line).toList ++ handed (shell.feed line) lines

end Shell

/-- The session after an entry is handed to it, to be added, evaluated and shown. -/
def Session.given (session : Session) (entry : Entry) : Session :=
  reached (Session.protect (Shell.evaluateLine entry.text entry.number) session)

namespace Shell

section Feeding

variable {shell : Shell} {line text : String}

theorem feed_of_blank (blank : Text.stripChars line.toList = []) : shell.feed line = shell := by
  rw [feed, runLine, ofLine_of_blank blank]
  rfl

theorem feed_of_term (takes : Command.ofLine line = .term text) :
    shell.feed line = reached (takeTerm text shell) := by
  rw [feed, runLine, takes]
  change reached (EStateM.bind (takeTerm text) (fun _ => EStateM.pure false) shell) = _
  rw [EStateM.bind]
  cases takeTerm text shell with
  | ok value next => rfl
  | error failure next => rfl

theorem reached_onSession (action : EStateM Failure Session Unit) (shell : Shell) :
    reached (onSession action shell) =
      { shell with session := reached (action shell.session) } := by
  unfold onSession
  cases action shell.session with
  | ok value session => rfl
  | error failure session => rfl

theorem feed_of_unfinished (takes : Command.ofLine line = .term (Text.strip line))
    (joins : joined shell.pending (Text.strip line) = text)
    (unfinished : isUnfinished text = true) :
    shell.handed? line = none ∧ (shell.feed line).session = shell.session ∧
      (shell.feed line).pending = text := by
  refine ⟨?_, ?_⟩
  · simp only [handed?, takes, joins, unfinished]
    rfl
  · rw [feed_of_term takes, takeTerm_apply, joins, if_pos unfinished]
    exact ⟨rfl, rfl⟩

theorem feed_of_empty (takes : Command.ofLine line = .term (Text.strip line))
    (joins : joined shell.pending (Text.strip line) = "") :
    shell.handed? line = none ∧ (shell.feed line).session = shell.session ∧
      (shell.feed line).pending = "" := by
  refine ⟨?_, ?_⟩
  · simp [handed?, takes, joins]
  · rw [feed_of_term takes, takeTerm_apply, joins]
    exact ⟨rfl, rfl⟩

theorem feed_of_finished (takes : Command.ofLine line = .term (Text.strip line))
    (joins : joined shell.pending (Text.strip line) = text)
    (finished : isUnfinished text = false) (more : text ≠ "") :
    ∃ entry : Entry, entry.text = text ∧ shell.handed? line = some entry ∧
      (shell.feed line).session = shell.session.given entry ∧ (shell.feed line).pending = "" := by
  refine ⟨⟨text, ((shell.lineNumber + 1 : Nat) : Int)⟩, rfl, ?_, ?_⟩
  · simp [handed?, takes, joins, finished, more]
  · rw [feed_of_term takes, takeTerm_apply, joins, if_neg (by simpa using finished),
      if_neg (by simpa using more)]
    let next : Shell :=
      { shell with pending := "", lineNumber := shell.lineNumber + 1, prompt := linePrompt }
    have lifted := reached_onSession
      (Session.protect (evaluateLine text ((shell.lineNumber + 1 : Nat) : Int))) next
    exact ⟨congrArg Shell.session lifted, congrArg Shell.pending lifted⟩

/-- One line: the text that it makes waits, or it is handed on if there is anything of it. -/
theorem feed_plain (plain : Plain line) (waiting : Waiting shell.pending)
    (continues : continued shell.pending line = text) :
    (shell.feed line).pending = (if isUnfinished text then text else "") ∧
      ((shell.handed? line).toList.map Entry.text =
        if isUnfinished text then [] else nonempty text) ∧
      (shell.feed line).session =
        (shell.handed? line).toList.foldl Session.given shell.session := by
  by_cases blank : Text.stripChars line.toList = []
  · have same : shell.pending = text := (continued_blank waiting blank).symm.trans continues
    have nothing : shell.handed? line = none := by rw [handed?, ofLine_of_blank blank]
    -- A blank line leaves the text that waits as it is, in a file too.
    rw [feed_of_blank blank, nothing, same]
    rcases same ▸ waiting.held with rfl | unfinished
    · exact ⟨rfl, rfl, rfl⟩
    · rw [if_pos unfinished, if_pos unfinished]
      exact ⟨rfl, rfl, rfl⟩
  · have takes := ofLine_of_plain plain blank
    have joins : joined shell.pending (Text.strip line) = text :=
      (tidyLine_seam waiting line).trans continues
    cases complete : isUnfinished text with
    | true =>
      obtain ⟨nothing, session, pending⟩ := feed_of_unfinished takes joins complete
      rw [nothing, session, pending]
      exact ⟨rfl, rfl, rfl⟩
    | false =>
      by_cases empty : text = ""
      · obtain ⟨nothing, session, pending⟩ := feed_of_empty takes (joins.trans empty)
        rw [nothing, session, pending, empty]
        exact ⟨rfl, rfl, rfl⟩
      · obtain ⟨entry, same, hands, session, pending⟩ :=
          feed_of_finished takes joins complete empty
        rw [hands, session, pending, nonempty, if_neg empty, ← same]
        exact ⟨rfl, rfl, rfl⟩

/-- A shell hands on what is gathered from its lines, and its session is what comes of that. -/
theorem feedAll_gather (lines : List String) (plain : ∀ line ∈ lines, Plain line)
    (shell : Shell) (waiting : Waiting shell.pending) :
    (shell.feedAll lines).pending = (gather shell.pending lines).2 ∧
      (shell.handed lines).map Entry.text = (gather shell.pending lines).1 ∧
      (shell.feedAll lines).session = (shell.handed lines).foldl Session.given shell.session := by
  induction lines generalizing shell with
  | nil => exact ⟨rfl, rfl, rfl⟩
  | cons line lines ih =>
    obtain ⟨pending, texts, session⟩ := feed_plain (plain line List.mem_cons_self) waiting rfl
    have rest := fun line inside => plain line (List.mem_cons_of_mem _ inside)
    have waits := waiting_continued waiting line
    rw [feedAll, List.foldl_cons, handed, List.map_append, List.foldl_append, texts, ← session]
    simp only [gather]
    generalize continued shell.pending line = text at *
    cases complete : isUnfinished text with
    | true =>
      rw [complete] at pending
      have held : (shell.feed line).pending = text := pending
      have done := ih rest (shell.feed line) (held ▸ waits complete)
      rw [held] at done
      exact done
    | false =>
      rw [complete] at pending
      have held : (shell.feed line).pending = "" := pending
      have done := ih rest (shell.feed line) (held ▸ waiting_nothing)
      rw [held] at done
      exact ⟨done.1, congrArg (nonempty text ++ ·) done.2.1, done.2.2⟩

end Feeding

end Shell

/-! ## What is printed for a text -/

theorem exists_forall₂ {α β : Type} {related : α → β → Prop} {as : List α}
    (each : ∀ a ∈ as, ∃ b, related a b) : ∃ bs, List.Forall₂ related as bs := by
  induction as with
  | nil => exact ⟨[], .nil⟩
  | cons a as ih =>
    obtain ⟨⟨b, first⟩, others⟩ := List.forall_mem_cons.1 each
    obtain ⟨bs, all⟩ := ih others
    exact ⟨b :: bs, .cons first all⟩

/-- The entry that an item of a queue was read from. -/
def Queued.entry (item : Queued) : Entry := ⟨item.line, item.number⟩

theorem Term.annotatedWithin_of_le {t : Term} {depth : Nat} (fits : t.renderDepth ≤ depth) :
    t.annotatedWithin depth = .ok t.annotated :=
  if_neg (Nat.not_lt.2 fits)

namespace Session

/-- Whether an output is what a session prints for a term: the term is evaluated and the result is
written, and the output is the trace and the result. -/
def Yields (session : Session) (t : Term) (output : String) : Prop :=
  ∃ evaluation written, session.evaluate t = .ok evaluation ∧
    evaluation.result.annotatedWithin session.settings.depth = .ok written ∧
    output = traceText session.console.style evaluation.steps ++ (written ++ "\n")

/-- Whether an output is what a session prints for a text. -/
def Answers (session : Session) (text output : String) : Prop :=
  ∃ t, readTerm session.settings.depth text = .ok t ∧ session.Yields t output

theorem exists_answer {session : Session} {text : String} {t : Term} {evaluation : Evaluation}
    (read : readTerm session.settings.depth text = .ok t)
    (done : session.evaluate t = .ok evaluation)
    (fits : evaluation.result.renderDepth ≤ session.settings.depth) :
    ∃ output, session.Answers text output :=
  ⟨_, t, read, evaluation, _, done, Term.annotatedWithin_of_le fits, rfl⟩

theorem exists_answers {session : Session} {texts : List String}
    (succeed : ∀ text ∈ texts, ∃ output, session.Answers text output) :
    ∃ outputs, List.Forall₂ session.Answers texts outputs :=
  exists_forall₂ succeed

/-! ### In a shell -/

section Typed

variable {style : Text.Style} {counted : Bool} {settings : Eval.Settings}

theorem given_of_answers {entry : Entry} {output : String}
    (answers : (atRest style counted settings "").Answers entry.text output) (printed : String) :
    (atRest style counted settings printed).given entry =
      atRest style counted settings (printed ++ output) := by
  obtain ⟨t, read, evaluation, written, done, writes, rfl⟩ := answers
  have prints : Prints (protect (Shell.evaluateLine entry.text entry.number))
    (atRest style counted settings) (traceText style evaluation.steps ++ (written ++ "\n")) (.ok ())
    (atRest style counted settings) :=
    protect_of_ok (Shell.evaluateLine_of_ok entry.number read done writes)
  exact congrArg reached (prints printed)

theorem foldl_given {entries : List Entry} {outputs : List String}
    (answers : List.Forall₂ (atRest style counted settings "").Answers (entries.map Entry.text)
      outputs) (printed : String) :
    entries.foldl given (atRest style counted settings printed) =
      atRest style counted settings (printed ++ String.join outputs) := by
  induction entries generalizing outputs printed with
  | nil =>
    cases answers
    simp
  | cons entry entries ih =>
    cases answers with
    | cons first rest =>
      rw [List.foldl_cons, given_of_answers first, ih rest, String.join_cons, String.append_assoc]

/-- The lines of a new shell print what the texts that are gathered from them print. -/
theorem feedAll_prints {lines outputs : List String} (plain : ∀ line ∈ lines, Shell.Plain line)
    (answers : List.Forall₂ (atRest style counted settings "").Answers (gather "" lines).1
      outputs) :
    ((Shell.opened style counted settings).feedAll lines).session =
      atRest style counted settings ("" ++ String.join outputs) := by
  obtain ⟨-, handed, session⟩ :=
    Shell.feedAll_gather lines plain (Shell.opened style counted settings) waiting_nothing
  rw [session]
  refine foldl_given ?_ ""
  rw [handed]
  exact answers

end Typed

/-! ### On a file -/

theorem insert_of_last {item : Queued} {queue : List Queued}
    (last : ∀ other ∈ queue, other.number < item.number) :
    Queued.insert item queue = queue ++ [item] := by
  induction queue with
  | nil => rfl
  | cons other queue ih =>
    have less := last other List.mem_cons_self
    rw [Queued.insert, if_neg (by omega), if_neg (by omega),
      ih fun other inside => last other (List.mem_cons_of_mem _ inside)]
    rfl

/-- Entries in ascending order that are read are queued in that order, and those behind them come
next. -/
theorem addEntries_behind {items : List Queued} {rest : List Entry} {output : String}
    {answer : Except Failure Unit} {after : String → Session} (session : Session)
    (idle : session.Idle)
    (read : ∀ item ∈ items, readTerm session.settings.depth item.line = .ok item.term)
    (ordered : items.Pairwise (·.number < ·.number))
    (later : ∀ other ∈ session.queue, ∀ item ∈ items, other.number < item.number)
    (goesOn : Prints (addEntries rest) { session with queue := session.queue ++ items }.printing
      output answer after) :
    Prints (addEntries (items.map Queued.entry ++ rest)) session.printing output answer after := by
  induction items generalizing session with
  | nil =>
    rw [List.append_nil] at goesOn
    exact goesOn
  | cons item items ih =>
    obtain ⟨readItem, read⟩ := List.forall_mem_cons.1 read
    obtain ⟨ahead, ordered⟩ := List.pairwise_cons.1 ordered
    -- The number of the item is above all that are queued, so it goes to the end.
    have added := add_of_ok idle readItem item.number
    rw [insert_of_last fun other inside => later other inside item List.mem_cons_self] at added
    let next : Session := { session with queue := session.queue ++ [item] }
    refine added.silent (ih next idle read ordered ?_ ?_)
    · intro other inside next listed
      rcases List.mem_append.1 inside with before | last
      · exact later other before next (List.mem_cons_of_mem _ listed)
      · rw [List.mem_singleton.1 last]
        exact ahead next listed
    · rw [List.append_assoc, List.singleton_append]
      exact goesOn

/-- The terms of a queue print their outputs in order, and those behind them come next. -/
theorem runItems_behind {items rest : List Queued} {outputs : List String} {output : String}
    {answer : Except Failure Unit} {after : List Evaluation → String → Session} (session : Session)
    (idle : session.Idle) (filed : session.interactive = false)
    (yields : List.Forall₂ (fun item => session.Yields item.term) items outputs)
    (goesOn : ∀ results, Prints (runItems rest)
      { session with queue := rest, results := results }.printing output answer (after results)) :
    ∃ results, Prints (runItems (items ++ rest)) { session with queue := items ++ rest }.printing
      (String.join outputs ++ output) answer (after results) := by
  induction items generalizing outputs session with
  | nil =>
    cases yields
    refine ⟨session.results, ?_⟩
    rw [String.join_nil, String.empty_append]
    exact goesOn session.results
  | cons item items ih =>
    cases yields with
    | cons first others =>
      obtain ⟨evaluation, written, done, writes, rfl⟩ := first
      let waiting : Session := { session with queue := item :: (items ++ rest) }
      have waits : waiting.Idle := idle
      have ran : Prints (runItem item) waiting.printing
        (traceText session.console.style evaluation.steps ++ (written ++ "\n")) (.ok ())
        { session with
          queue := items ++ rest
          results := session.results ++ [evaluation] }.printing :=
        runItem_of_filed rfl waits filed done writes
      obtain ⟨results, prints⟩ :=
        ih { session with results := session.results ++ [evaluation] } idle filed others goesOn
      refine ⟨results, ?_⟩
      rw [String.join_cons, String.append_assoc]
      exact ran.bind prints

/-- The items that entries are queued as, if all of them are read. -/
theorem exists_items {depth : Nat} {entries : List Entry}
    (reads : ∀ entry ∈ entries, ∃ t, readTerm depth entry.text = .ok t) :
    ∃ items : List Queued, items.map Queued.entry = entries ∧
      ∀ item ∈ items, readTerm depth item.line = .ok item.term := by
  induction entries with
  | nil => exact ⟨[], rfl, nofun⟩
  | cons entry entries ih =>
    obtain ⟨⟨t, read⟩, others⟩ := List.forall_mem_cons.1 reads
    obtain ⟨items, same, all⟩ := ih others
    refine ⟨⟨entry.number, entry.text, t⟩ :: items, ?_, List.forall_mem_cons.2 ⟨read, all⟩⟩
    rw [List.map_cons, same]
    rfl

theorem reads_of_answers {session : Session} {texts outputs : List String}
    (answers : List.Forall₂ session.Answers texts outputs) :
    ∀ text ∈ texts, ∃ t, readTerm session.settings.depth text = .ok t := by
  induction answers with
  | nil => nofun
  | cons first _ ih =>
    obtain ⟨t, read, -⟩ := first
    exact List.forall_mem_cons.2 ⟨⟨t, read⟩, ih⟩

/-- Items yield what the texts that they were read from are answered with. -/
theorem yields_of_answers {session : Session} {items : List Queued} {outputs : List String}
    (read : ∀ item ∈ items, readTerm session.settings.depth item.line = .ok item.term)
    (answers : List.Forall₂ session.Answers (items.map Queued.line) outputs) :
    List.Forall₂ (fun item => session.Yields item.term) items outputs := by
  rw [List.forall₂_map_left_iff] at answers
  refine ((List.forall₂_and_left _ _).2 ⟨read, answers⟩).imp ?_
  rintro item output ⟨readItem, t, readText, yields⟩
  cases readItem.symm.trans readText
  exact yields

/-- The items that entries are queued as, if all of them succeed. -/
theorem exists_items_of_answers {session : Session} {entries : List Entry} {outputs : List String}
    (answers : List.Forall₂ session.Answers (entries.map Entry.text) outputs) :
    ∃ items : List Queued, items.map Queued.entry = entries ∧
      (∀ item ∈ items, readTerm session.settings.depth item.line = .ok item.term) ∧
      List.Forall₂ (fun item => session.Yields item.term) items outputs := by
  obtain ⟨items, rfl, read⟩ := exists_items fun entry inside =>
    reads_of_answers answers entry.text (List.mem_map_of_mem inside)
  rw [List.map_map] at answers
  exact ⟨items, rfl, read, yields_of_answers read answers⟩

/-- Entries that are all read are run: the first ones print their outputs in order, and those behind
them come next. -/
theorem run_behind {items rest : List Queued} {outputs : List String} {output : String}
    {answer : Except Failure Unit} {after : List Evaluation → String → Session} (session : Session)
    (idle : session.Idle) (filed : session.interactive = false) (empty : session.queue = [])
    (read : ∀ item ∈ items ++ rest, readTerm session.settings.depth item.line = .ok item.term)
    (ordered : (items ++ rest).Pairwise (·.number < ·.number))
    (yields : List.Forall₂ (fun item => session.Yields item.term) items outputs)
    (goesOn : ∀ results, Prints (runItems rest)
      { session with queue := rest, results := results }.printing output answer (after results)) :
    ∃ results, Prints (do addEntries ((items ++ rest).map Queued.entry); run) session.printing
      (String.join outputs ++ output) answer (after results) := by
  obtain ⟨results, ran⟩ := runItems_behind session idle filed yields goesOn
  have queued : session.queue ++ (items ++ rest) = items ++ rest := by rw [empty, List.nil_append]
  have nothing : Prints (addEntries [])
      { session with queue := session.queue ++ (items ++ rest) }.printing "" (.ok ())
      { session with queue := session.queue ++ (items ++ rest) }.printing := Prints.pure () _
  have added := addEntries_behind session idle read ordered (by rw [empty]; nofun) nothing
  rw [List.append_nil, queued] at added
  exact ⟨results, added.silent (run_prints ran)⟩

/-- Entries that all succeed print their outputs in order. -/
theorem run_entries {entries : List Entry} {outputs : List String} (session : Session)
    (idle : session.Idle) (filed : session.interactive = false) (empty : session.queue = [])
    (ordered : entries.Pairwise (·.number < ·.number))
    (answers : List.Forall₂ session.Answers (entries.map Entry.text) outputs) :
    ∃ results, Prints (do addEntries entries; run) session.printing (String.join outputs) (.ok ())
      { session with queue := [], results := results }.printing := by
  obtain ⟨items, rfl, read, yields⟩ := exists_items_of_answers answers
  have goesOn (results : List Evaluation) : Prints (runItems [])
      { session with queue := [], results := results }.printing "" (.ok ())
      { session with queue := [], results := results }.printing := Prints.pure () _
  have ascending := List.pairwise_map.1 ordered
  rw [← List.append_nil items] at read ascending ⊢
  have ran := run_behind session idle filed empty read ascending yields goesOn
  rwa [String.append_empty] at ran

end Session

/-! ## Texts that are read -/

/-- A text that is read leaves no parenthesis open. -/
theorem isUnfinished_of_spells {text : String} {t : Term} (spells : Grammar.Spells text t) :
    isUnfinished text = false := by
  have balanced := spells.2.balanced
  unfold Grammar.spaceless at balanced
  rw [List.count_filter (by decide), List.count_filter (by decide)] at balanced
  rw [isUnfinished, balanced]
  simp

theorem readTerm_of_parse {depth : Nat} {text : String} {t : Term}
    (parsed : parse depth text = .ok t) : readTerm depth text = .ok t := by
  rw [readTerm, parsed]
  rfl

theorem parse_of_readTerm {depth : Nat} {text : String} {t : Term}
    (read : readTerm depth text = .ok t) : parse depth text = .ok t := by
  unfold readTerm at read
  cases parsed : parse depth text with
  | error error => rw [parsed] at read; cases read
  | ok t' => rw [parsed] at read; cases read; rfl

theorem readTerm_unique {depth depth' : Nat} {text : String} {t t' : Term}
    (read : readTerm depth text = .ok t) (read' : readTerm depth' text = .ok t') : t = t' := by
  have parsed := parse_of_spells (spells_of_parse (parse_of_readTerm read)) (Nat.le_refl _)
  have parsed' := parse_of_spells (spells_of_parse (parse_of_readTerm read')) (Nat.le_refl _)
  exact Except.ok.inj (parsed.symm.trans parsed')

/-! ## Results that can be written -/

theorem session_of_evaluate {session : Session} {t result : Term} {run : Eval.Run}
    (counted : session.counted = true)
    (evaluated : Eval.evaluate session.settings t = .ok result run) :
    session.evaluate t = .ok ⟨result, run.steps⟩ := by
  rw [Session.evaluate, if_pos counted, interpret, evaluated]

theorem session_of_limit {session : Session} {t : Term} {run : Eval.Run}
    (counted : session.counted = true)
    (halted : Eval.evaluate session.settings t = .error .stepLimit run) :
    session.evaluate t =
      .error (.reported (.ofStepLimit session.settings.maxSteps run.steps none)) := by
  rw [Session.evaluate, if_pos counted, interpret, halted]
  rfl

theorem evaluate_of_session {session : Session} {t : Term} {evaluation : Evaluation}
    (done : session.evaluate t = .ok evaluation) :
    ∃ run, Eval.evaluate
      { session.settings with maxSteps := if session.counted then session.settings.maxSteps else 0 }
      t = .ok evaluation.result run ∧ evaluation.steps = run.steps := by
  unfold Session.evaluate at done
  split at done
  · next counted =>
    unfold interpret at done
    split at done
    · next result run evaluated =>
      cases done
      exact ⟨run, by rw [if_pos counted]; exact evaluated, rfl⟩
    · cases done
  · next uncounted =>
    unfold interpretUncounted at done
    split at done
    · next result run evaluated =>
      cases done
      exact ⟨run, by rw [if_neg uncounted]; exact evaluated, rfl⟩
    · cases done
    · cases done

/-- From some number of nested calls on, a result can always be written. -/
theorem exists_writable (budget : Int) (traced : Bool) (t : Term) :
    ∃ enough, ∀ depth, enough ≤ depth → ∀ result run,
      Eval.evaluate ⟨budget, traced, depth⟩ t = .ok result run → result.renderDepth ≤ depth := by
  obtain ⟨enough, outcome, -, reaches⟩ := Eval.evaluate_settles budget traced t
  cases outcome with
  | error halt run =>
    refine ⟨enough, ?_⟩
    intro depth deep result run' evaluated
    rw [reaches ⟨budget, traced, depth⟩ rfl rfl deep] at evaluated
    cases evaluated
  | ok result run =>
    refine ⟨max enough result.renderDepth, ?_⟩
    intro depth deep result' run' evaluated
    have deep' : enough ≤ depth := by omega
    rw [reaches ⟨budget, traced, depth⟩ rfl rfl deep'] at evaluated
    cases evaluated
    omega

/-- A session on a file, before anything is loaded. -/
def Session.filed (style : Text.Style) (counted : Bool) (settings : Eval.Settings) (path : String) :
    Session :=
  { Session.fresh { style := style } path false settings with counted := counted }

theorem exists_enough (style : Text.Style) (counted : Bool) (maxSteps : Int) (traced : Bool)
    (texts : List String) :
    ∃ enough, ∀ depth path, enough ≤ depth → ∀ text ∈ texts, ∀ t evaluation,
      readTerm depth text = .ok t →
      (Session.filed style counted ⟨maxSteps, traced, depth⟩ path).evaluate t = .ok evaluation →
      evaluation.result.renderDepth ≤ depth := by
  induction texts with
  | nil => exact ⟨0, fun _ _ _ _ inside => nomatch inside⟩
  | cons text texts ih =>
    obtain ⟨enough, writable⟩ := ih
    by_cases reads : ∃ depth t, readTerm depth text = .ok t
    · obtain ⟨depth₀, t₀, read₀⟩ := reads
      obtain ⟨enough', writable'⟩ :=
        exists_writable (if counted then maxSteps else 0) traced t₀
      refine ⟨max enough enough', ?_⟩
      intro depth path deep other inside t evaluation read done
      rcases List.mem_cons.1 inside with rfl | inside
      · -- A text stands for one term, at whatever depth it is read.
        obtain rfl := readTerm_unique read₀ read
        obtain ⟨run, evaluated, -⟩ := evaluate_of_session done
        exact writable' depth (by omega) _ _ evaluated
      · exact writable depth path (by omega) other inside t evaluation read done
    · refine ⟨enough, ?_⟩
      intro depth path deep other inside t evaluation read done
      rcases List.mem_cons.1 inside with rfl | inside
      · exact absurd ⟨depth, t, read⟩ reads
      · exact writable depth path deep other inside t evaluation read done

/-! ## Agreement -/

theorem load_of_opened {files : Files} (session : Session) {entries : List Entry}
    (named : session.path ≠ Session.typedPath)
    (opens : Session.openFile files session.path = .ok entries) :
    Session.load files session = Session.addEntries entries session := by
  rw [Session.load_apply, if_neg named, opens]

theorem runFile_of_opened {files : Files} (session : Session) {entries : List Entry}
    (named : session.path ≠ Session.typedPath)
    (opens : Session.openFile files session.path = .ok entries) :
    Program.runFile files session = (do Session.addEntries entries; Session.run) session := by
  change EStateM.bind (Session.load files) (fun _ => Session.run) session =
    EStateM.bind (Session.addEntries entries) (fun _ => Session.run) session
  rw [EStateM.bind, EStateM.bind, load_of_opened session named opens]

theorem idle_filed (style : Text.Style) (counted : Bool) (settings : Eval.Settings)
    (path : String) : (Session.filed style counted settings path).Idle := by
  simp [Session.Idle, Session.filed, Session.fresh, Console.leaveLine, Console.enterFile,
    Traceback.put]

/-- If every text is read, then none is left over. -/
theorem left_nothing {lines : List String} {entries : List Entry}
    (texts : entries.map Entry.text = (gather "" lines).1 ++ nonempty (gather "" lines).2)
    (reads : ∀ entry ∈ entries, ∃ depth t, readTerm depth entry.text = .ok t) :
    nonempty (gather "" lines).2 = [] := by
  unfold nonempty at texts ⊢
  by_cases nothing : (gather "" lines).2 = ""
  · exact if_pos nothing
  · rw [if_neg nothing] at texts
    have listed : (gather "" lines).2 ∈ entries.map Entry.text := by
      rw [texts]
      exact List.mem_append_right _ (List.mem_singleton_self _)
    obtain ⟨entry, inside, same⟩ := List.mem_map.1 listed
    obtain ⟨depth, t, read⟩ := reads entry inside
    have finished := isUnfinished_of_spells (spells_of_parse (parse_of_readTerm read))
    rw [same] at finished
    rcases (gather_spec lines waiting_nothing).2.held with empty | unfinished
    · exact absurd empty nothing
    · rw [unfinished] at finished
      cases finished

/-- A shell and a file take the same lines alike, if none of them is a command. What the file
collects is what the shell hands to its session, text by text, and behind that the text that the
shell holds back, if it is left with one. If every text is read and evaluated, and its result can be
written, then the file is run to its end and prints what the shell prints. From some number of
nested calls on every result can be written. -/
theorem shell_agrees_with_file (style : Text.Style) (counted : Bool) (maxSteps : Int)
    (traced : Bool) (lines : List String) (plain : ∀ line ∈ lines, Shell.Plain line) :
    ∃ entries enough, Entry.collectAll lines 1 false [] = .ok entries ∧
      (∀ shell : Shell, shell.pending = "" →
        (shell.feedAll lines).session = (shell.handed lines).foldl Session.given shell.session ∧
          entries.map Entry.text =
            (shell.handed lines).map Entry.text ++ nonempty (shell.feedAll lines).pending ∧
          (∀ entry ∈ shell.handed lines, isUnfinished entry.text = false) ∧
          ((shell.feedAll lines).pending = "" ∨
            isUnfinished (shell.feedAll lines).pending = true)) ∧
      ∀ depth path,
        let settings : Eval.Settings := ⟨maxSteps, traced, depth⟩
        let file := Session.filed style counted settings path
        let shell := (Shell.opened style counted settings).feedAll lines
        (∀ entry ∈ entries, ∃ t evaluation, readTerm depth entry.text = .ok t ∧
          file.evaluate t = .ok evaluation ∧
          (evaluation.result.renderDepth ≤ depth ∨ enough ≤ depth)) →
        ∃ last, (do Session.addEntries entries; Session.run) file = .ok () last ∧
          last.console.printed = shell.session.console.printed ∧
          ∀ files, path ≠ Session.typedPath → Session.openFile files path = .ok entries →
            Program.runFile files file = .ok () last := by
  have below : Entry.Ascending 1 [] := ⟨.nil, nofun⟩
  obtain ⟨entries, limit, collects, texts, ordered⟩ :=
    Entry.collectAll_gather lines waiting_nothing 1 0 [] below
  rw [List.map_nil, List.nil_append] at texts
  obtain ⟨enough, writable⟩ :=
    exists_enough style counted maxSteps traced (entries.map Entry.text)
  refine ⟨entries, enough, collects, ?_, ?_⟩
  · intro shell nothing
    have waiting : Waiting shell.pending := nothing ▸ waiting_nothing
    obtain ⟨pending, handed, session⟩ := Shell.feedAll_gather lines plain shell waiting
    rw [nothing] at pending handed
    obtain ⟨finished, waits⟩ := gather_spec lines waiting_nothing
    rw [pending]
    refine ⟨session, ?_, ?_, waits.held⟩
    · rw [texts, handed]
    · intro entry inside
      exact finished entry.text (handed ▸ List.mem_map_of_mem inside)
  · intro depth path settings file shell succeed
    have answers : ∀ text ∈ entries.map Entry.text, ∃ output, file.Answers text output := by
      intro text listed
      obtain ⟨entry, inside, rfl⟩ := List.mem_map.1 listed
      obtain ⟨t, evaluation, read, done, shallow⟩ := succeed entry inside
      have fits : evaluation.result.renderDepth ≤ depth := by
        rcases shallow with fits | deep
        · exact fits
        · exact writable depth path deep entry.text listed t evaluation read done
      exact Session.exists_answer read done fits
    obtain ⟨outputs, all⟩ := Session.exists_answers answers
    obtain ⟨results, ran⟩ :=
      Session.run_entries file (idle_filed style counted settings path) rfl rfl ordered.1 all
    -- An unfinished text is never read, so that nothing is left with the shell.
    have whole : nonempty (gather "" lines).2 = [] := by
      refine left_nothing texts ?_
      intro entry inside
      obtain ⟨t, -, read, -⟩ := succeed entry inside
      exact ⟨depth, t, read⟩
    rw [texts, whole, List.append_nil] at all
    have typed : shell.session =
        Session.atRest style counted settings ("" ++ String.join outputs) :=
      Session.feedAll_prints plain all
    refine ⟨_, ran "", ?_, ?_⟩
    · rw [typed]
      rfl
    · intro files named opens
      exact (runFile_of_opened file named opens).trans (ran "")

/-- A term over three lines, with comments and a blank line inside, and another one behind it. -/
theorem shell_agrees_with_file_continued :
    ∃ entries, Entry.collectAll ["(λx. x ;; (", "", " ) y ;; )", "z"] 1 false [] = .ok entries ∧
      entries.map Entry.text = ["(λx. x ) y", "z"] ∧
      ∃ last, (do Session.addEntries entries; Session.run)
          (Session.filed .plain true ⟨9, true, 60⟩ "terms") = .ok () last ∧
        last.console.printed = "Step 0: (λx. x) y\nStep 1: y\ny\nStep 0: z\nz\n" := by
  obtain ⟨entries, enough, collects, agrees, prints⟩ :=
    shell_agrees_with_file .plain true 9 true ["(λx. x ;; (", "", " ) y ;; )", "z"]
      (by decide +kernel)
  have texts : entries.map Entry.text = ["(λx. x ) y", "z"] := by
    rw [(agrees (Shell.opened .plain true ⟨9, true, 60⟩) rfl).2.1]
    decide +kernel
  have first : parse 60 "(λx. x ) y" = .ok (.app (.abs "x" (.var "x")) (.var "y")) ∧
      Eval.evaluate ⟨9, true, 60⟩ (.app (.abs "x" (.var "x")) (.var "y")) =
        .ok (.var "y") ⟨⟨[]⟩, 1, #[⟨0, "(λx. x) y"⟩, ⟨1, "y"⟩]⟩ := by decide +kernel
  have second : parse 60 "z" = .ok (.var "z") ∧
      Eval.evaluate ⟨9, true, 60⟩ (.var "z") = .ok (.var "z") ⟨⟨[]⟩, 0, #[⟨0, "z"⟩]⟩ := by
    decide +kernel
  obtain ⟨last, ran, same, -⟩ := prints 60 "terms" (by
    intro entry inside
    have listed : entry.text ∈ ["(λx. x ) y", "z"] := texts ▸ List.mem_map_of_mem inside
    rcases List.mem_cons.1 listed with text | listed
    · rw [text]
      exact ⟨_, _, readTerm_of_parse first.1, session_of_evaluate rfl first.2, Or.inl (by decide)⟩
    · rw [List.mem_singleton.1 listed]
      exact ⟨_, _, readTerm_of_parse second.1, session_of_evaluate rfl second.2,
        Or.inl (by decide)⟩)
  refine ⟨entries, collects, texts, last, ran, same.trans ?_⟩
  decide +kernel

end Redex
