import Redex.Proofs.Escapes
import Redex.Proofs.Printing

/-!
# Colour is decoration

What the console prints in a style that wraps texts in escape sequences is what it prints in plain
output with escape sequences in it, and nothing else depends on the style: all lines of the console
are decorative.

Two consoles, one with such a style and one without, match (`Matches`) if what they have printed
differs in this way and nothing else does. An action is `Uniform` if it comes to the same on any two
such consoles and leaves two such consoles. Every operation is uniform
(`Operation.uniform_perform`), so matching consoles still match after any row of operations
(`Matches.performAll`). All that is asked of the operations is that their own texts hold no escape
character.
-/

namespace Redex

variable {style : Text.Style}

/-! ## What the console shows -/

/-- The texts of a place hold no escape character. -/
structure Place.Unescaped (place : Place) : Prop where
  path : Text.Unescaped place.path
  line : ∀ line ∈ place.line, Text.Unescaped line

/-- The texts of a report hold no escape character. -/
structure Report.Unescaped (report : Report) : Prop where
  message : report.message.Unescaped
  source : Text.Unescaped report.source
  steps : ∀ step ∈ report.steps.toList, Text.Unescaped step.text

/-- The texts of a draft hold no escape character. -/
structure Report.Draft.Unescaped (draft : Report.Draft) : Prop where
  template : Text.Unescaped draft.template
  args : ∀ arg ∈ draft.args, Text.Unescaped arg
  source : ∀ source ∈ draft.source, Text.Unescaped source

/-- Whether the texts of a failure hold no escape character. -/
def Failure.Unescaped : Failure → Prop
  | .reported report => report.Unescaped
  | .internal fault => Text.Unescaped fault.label ∧ Text.Unescaped fault.text
  | .tooDeep | .interrupted | .exit _ => True

namespace Place

variable {place : Place}

theorem unescaped_numberText (place : Place) : Text.Unescaped place.numberText := by
  unfold numberText
  cases place.number with
  | none => decide
  | some number => exact Text.unescaped_integer number

theorem Unescaped.location (unescaped : place.Unescaped) : Text.Unescaped place.location := by
  have number := place.unescaped_numberText
  simp +decide only [Place.location, Text.unescaped_append, unescaped.path, number, and_self]

theorem Unescaped.traced (unescaped : place.Unescaped) : Text.Unescaped place.traced := by
  have number := place.unescaped_numberText
  have line : Text.Unescaped (place.line.getD "") := by
    cases shown : place.line with
    | none => decide
    | some line => exact unescaped.line line shown
  delta Place.traced
  simp +decide only [Text.unescaped_append, unescaped.path, number, line, and_self]

end Place

namespace Traceback

variable {places : Traceback}

theorem unescaped_location (unescaped : ∀ place ∈ places, place.Unescaped) :
    Text.Unescaped places.location := by
  unfold location
  cases found : places.reverse.find? (·.line.isSome) with
  | none => decide
  | some place =>
    have known := List.mem_reverse.1 (List.mem_of_find?_eq_some found)
    exact (unescaped place known).location

/-- A traceback is never decorated, and a single place is shown in bold. -/
theorem decorative_heading (wraps : style.Wraps) (unescaped : ∀ place ∈ places, place.Unescaped) :
    Text.Decorative style fun style => places.heading style := by
  unfold heading
  by_cases several : 1 < (places.filter Place.isActive).length
  · simp only [if_pos several]
    refine Text.Decorative.append (Text.Unescaped.decorative (by decide)) ?_
    refine Text.Decorative.join fun place inside => ?_
    exact (unescaped place (List.mem_filter.1 inside).1).traced.decorative
  · simp only [if_neg several]
    exact (unescaped_location unescaped).bold wraps

/-- What holds of a new place and of all others holds after it is set. -/
theorem forall_mem_put {holds : Place → Prop} {place : Place} (new : holds place)
    (old : ∀ other ∈ places, holds other) : ∀ other ∈ places.put place, holds other := by
  induction places with
  | nil => simpa [put] using new
  | cons first places ih =>
    rw [List.forall_mem_cons] at old
    rw [put]
    split
    · exact List.forall_mem_cons.2 ⟨new, old.2⟩
    · exact List.forall_mem_cons.2 ⟨old.1, ih old.2⟩

end Traceback

theorem Step.decorative_shown (wraps : style.Wraps) {step : Step}
    (unescaped : Text.Unescaped step.text) :
    Text.Decorative style fun style => step.shown style := by
  have label : Text.Unescaped ("Step " ++ toString step.index ++ ":") := by
    simp +decide only [Text.unescaped_append, Text.unescaped_integer, and_self]
  exact ((label.paint wraps .cyan).append (Text.Unescaped.decorative (by decide))).append
    unescaped.decorative

theorem decorative_traceText (wraps : style.Wraps) {steps : Array Step}
    (unescaped : ∀ step ∈ steps.toList, Text.Unescaped step.text) :
    Text.Decorative style fun style => traceText style steps :=
  Text.Decorative.join fun step inside =>
    (Step.decorative_shown wraps (unescaped step inside)).append
      (Text.Unescaped.decorative (by decide))

namespace Report

/-- The source of a report is shown in three parts, of which the middle one is in a colour. -/
theorem decorative_diagnosis (wraps : style.Wraps) {report : Report}
    (unescaped : Text.Unescaped report.source) (colour : Text.Colour) :
    Text.Decorative style fun style => report.diagnosis style colour := by
  have margin : Text.Decorative style fun _ => "  " := Text.Unescaped.decorative (by decide)
  have newline : Text.Decorative style fun _ => "\n" := Text.Unescaped.decorative (by decide)
  have blanks : Text.Unescaped (Text.repeated report.start ' ') :=
    Text.unescaped_repeated _ (by decide)
  have carets : Text.Unescaped ("^" ++ Text.repeated report.tailLength '~') :=
    Text.unescaped_append.2 ⟨by decide, Text.unescaped_repeated _ (by decide)⟩
  have front := margin.append (unescaped.before report.start).decorative
  have blamed := (unescaped.slice report.start report.shownStop).paint wraps colour
  have rest : Text.Decorative style fun _ => Text.after report.source report.shownStop :=
    (unescaped.after report.shownStop).decorative
  exact (((((front.append blamed).append rest).append newline).append margin).append
    blanks.decorative).append (carets.paint wraps colour)

/-- The message of a draft is made of its template and its arguments, and the first of these is the
source if no other is given. -/
theorem Draft.Unescaped.report {draft : Draft} {report : Report} (unescaped : draft.Unescaped)
    (made : draft.report = .ok report) :
    report.message.Unescaped ∧ Text.Unescaped report.source := by
  have first : Text.Unescaped (draft.args.headD "") := by
    cases given : draft.args with
    | nil => decide
    | cons arg args => exact unescaped.args arg (by simp [given])
  have source : Text.Unescaped (draft.source.getD (draft.args.headD "")) := by
    cases given : draft.source with
    | none => exact first
    | some source => exact unescaped.source source given
  rw [Draft.report] at made
  cases filled : Text.Template.fill draft.template draft.args with
  | error fault =>
    rw [filled] at made
    cases made
  | ok message =>
    rw [filled] at made
    cases made
    exact ⟨Text.Template.unescaped_of_fill unescaped.template unescaped.args filled, source⟩

end Report

theorem Console.unescaped_faultReport {fault : Fault} (label : Text.Unescaped fault.label)
    (text : Text.Unescaped fault.text) : (faultReport fault).Unescaped := by
  have description : Text.Unescaped (fault.label ++ ": " ++ fault.text) :=
    Text.unescaped_append.2 ⟨Text.unescaped_append.2 ⟨label, by decide⟩, text⟩
  have message : (faultReport fault).message.Unescaped :=
    List.forall_mem_cons.2 ⟨by decide, List.forall_mem_cons.2 ⟨description, by decide⟩⟩
  exact ⟨message, description, by simp [faultReport, Report.steps]⟩

namespace Console

/-! ## Two consoles -/

/-- Whether two consoles, the first with a style that wraps texts in escape sequences and the second
with none, are the same but for the escape sequences that the first has printed. -/
structure Matches (coloured plain : Console) : Prop where
  wraps : coloured.style.Wraps
  undecorated : plain.style = .plain
  fatal : coloured.fatal = plain.fatal
  places : coloured.places = plain.places
  room : coloured.room = plain.room
  unescaped : ∀ place ∈ plain.places, place.Unescaped
  printed : Text.Decorates coloured.printed.toList plain.printed.toList

/-- Whether an action comes to the same on two consoles that match, and leaves two such consoles. -/
inductive Agree {α : Type} :
    EStateM.Result Failure Console α → EStateM.Result Failure Console α → Prop
  | ok (value : α) {coloured plain : Console} :
    Matches coloured plain → Agree (.ok value coloured) (.ok value plain)
  | error (failure : Failure) {coloured plain : Console} :
    Matches coloured plain → Agree (.error failure coloured) (.error failure plain)

/-- Whether an action is the same on any two consoles that match. -/
def Uniform {α : Type} (action : Action α) : Prop :=
  ∀ coloured plain, Matches coloured plain → Agree (action coloured) (action plain)

namespace Uniform

variable {α β : Type}

theorem bind {first : Action α} {rest : α → Action β} (one : Uniform first)
    (two : ∀ value, Uniform (rest value)) : Uniform (first >>= rest) := by
  intro coloured plain alike
  have agree := one coloured plain alike
  change Agree (EStateM.bind first rest coloured) (EStateM.bind first rest plain)
  unfold EStateM.bind
  generalize first coloured = here at agree
  generalize first plain = there at agree
  -- Whichever way the first action goes, it goes this way on both consoles.
  cases agree with
  | ok value alike => exact two value _ _ alike
  | error failure alike => exact .error failure alike

theorem throw (failure : Failure) : Uniform (throw failure : Action α) :=
  fun _ _ alike => .error failure alike

theorem modify {change : Console → Console}
    (keeps : ∀ coloured plain, Matches coloured plain → Matches (change coloured) (change plain)) :
    Uniform (modify change) :=
  fun coloured plain alike => .ok _ (keeps coloured plain alike)

end Uniform

namespace Matches

variable {coloured plain : Console}

theorem decorates (alike : Matches coloured plain) {text : Text.Style → String}
    (decorative : Text.Decorative coloured.style text) :
    Text.Decorates (text coloured.style).toList (text plain.style).toList := by
  rw [alike.undecorated]
  exact decorative

theorem print (alike : Matches coloured plain) {text text' : String}
    (decorates : Text.Decorates text.toList text'.toList) :
    Matches (coloured.print text) (plain.print text') where
  wraps := alike.wraps
  undecorated := alike.undecorated
  fatal := alike.fatal
  places := alike.places
  room := alike.room
  unescaped := alike.unescaped
  printed := by
    simp only [Console.print, String.toList_append]
    exact alike.printed.append decorates

theorem printLine (alike : Matches coloured plain) {text text' : String}
    (decorates : Text.Decorates text.toList text'.toList) :
    Matches (coloured.printLine text) (plain.printLine text') := by
  refine alike.print ?_
  rw [String.toList_append, String.toList_append]
  exact decorates.append (Text.decorates_self (by decide))

/-- Changing the places of both consoles in the same way. -/
theorem withPlaces (alike : Matches coloured plain) (change : Traceback → Traceback)
    (unescaped : ∀ place ∈ change plain.places, place.Unescaped) :
    Matches { coloured with places := change coloured.places }
      { plain with places := change plain.places } where
  wraps := alike.wraps
  undecorated := alike.undecorated
  fatal := alike.fatal
  places := congrArg change alike.places
  room := alike.room
  unescaped := unescaped
  printed := alike.printed

theorem put (alike : Matches coloured plain) {place : Place} (unescaped : place.Unescaped) :
    Matches { coloured with places := coloured.places.put place }
      { plain with places := plain.places.put place } :=
  alike.withPlaces (Traceback.put place) (Traceback.forall_mem_put unescaped alike.unescaped)

theorem cleared (alike : Matches coloured plain) :
    Matches { coloured with places := coloured.places.cleared }
      { plain with places := plain.places.cleared } := by
  refine alike.withPlaces Traceback.cleared fun place inside => ?_
  obtain ⟨old, known, rfl⟩ := List.mem_map.1 inside
  exact ⟨(alike.unescaped old known).path, by simp⟩

theorem printSteps (alike : Matches coloured plain) {steps : Array Step}
    (unescaped : ∀ step ∈ steps.toList, Text.Unescaped step.text) :
    Matches (steps.foldl printStep coloured) (steps.foldl printStep plain) := by
  have printed (console : Console) :
      steps.foldl printStep console = console.print (traceText console.style steps) :=
    foldl_printStep steps console console.printed
  have trace := alike.decorates (decorative_traceText alike.wraps unescaped)
  rw [printed, printed]
  exact alike.print trace

theorem decorates_warningLine (alike : Matches coloured plain) {report : Report}
    (unescaped : report.message.Unescaped) :
    Text.Decorates (coloured.warningLine report).toList (plain.warningLine report).toList := by
  have place := (Traceback.unescaped_location alike.unescaped).bold alike.wraps
  have label : Text.Decorative coloured.style fun style => style.paint .magenta "warning: " :=
    Text.Unescaped.paint alike.wraps (by decide) .magenta
  have line := alike.decorates ((place.append label).append (unescaped.shown alike.wraps))
  unfold warningLine
  rw [alike.places]
  exact line

theorem decorates_errorLine (alike : Matches coloured plain) {report : Report}
    (unescaped : report.message.Unescaped) :
    Text.Decorates (coloured.errorLine report).toList (plain.errorLine report).toList := by
  have heading := Traceback.decorative_heading alike.wraps alike.unescaped
  have mark : Text.Decorative coloured.style fun style =>
      if report.internal then style.paint .red "[internal] " else "" := by
    cases report.internal with
    | false => exact .nil
    | true => exact Text.Unescaped.paint alike.wraps (by decide) .red
  have label : Text.Decorative coloured.style fun style => style.paint .red "error: " :=
    Text.Unescaped.paint alike.wraps (by decide) .red
  have shown := unescaped.shown alike.wraps
  have line := alike.decorates (((heading.append mark).append label).append shown)
  unfold errorLine
  rw [alike.places]
  exact line

end Matches

/-! ## What the console does -/

/-- Whether there is room for a diagnosis does not depend on the style. -/
theorem uniform_printDiagnosis (colour : Text.Colour) {report : Report}
    (unescaped : Text.Unescaped report.source) : Uniform (printDiagnosis colour report) := by
  intro coloured plain alike
  unfold printDiagnosis Report.diagnose
  by_cases shown : report.showsDiagnosis = true
  · simp only [if_pos shown, alike.room]
    cases report.diagnosisFault? plain.room with
    | some fault => exact .error _ alike
    | none =>
      have text := alike.decorates (Report.decorative_diagnosis alike.wraps unescaped colour)
      exact .ok () (alike.printLine text)
  · simp only [if_neg shown]
    exact .ok () alike

theorem uniform_warn {report : Report} (message : report.message.Unescaped)
    (source : Text.Unescaped report.source) : Uniform (warn report) := by
  refine Uniform.bind (Uniform.modify fun coloured plain alike => ?_) fun _ =>
    uniform_printDiagnosis .magenta source
  exact alike.printLine (alike.decorates_warningLine message)

theorem uniform_announce {report : Report} (unescaped : report.Unescaped) :
    Uniform (announce report) := by
  refine Uniform.bind (Uniform.modify fun coloured plain alike => ?_) fun _ =>
    uniform_printDiagnosis .red unescaped.source
  exact (alike.printSteps unescaped.steps).printLine (alike.decorates_errorLine unescaped.message)

theorem uniform_raise {report : Report} (unescaped : report.Unescaped) :
    Uniform (raise report) := by
  refine Uniform.bind (uniform_announce unescaped) fun _ => ?_
  intro coloured plain alike
  rw [get_bind, get_bind, alike.fatal]
  cases plain.fatal with
  | true => exact .error _ alike
  | false => exact .ok () alike.cleared

theorem uniform_settle {failure : Failure} (unescaped : failure.Unescaped) :
    Uniform (settle failure) := by
  cases failure with
  | reported report => exact uniform_raise unescaped
  | interrupted => exact uniform_raise ⟨by decide, by decide, by decide⟩
  | tooDeep => exact uniform_raise ⟨by decide, by decide, by decide⟩
  | exit code => exact Uniform.throw _
  | internal fault =>
    have report := unescaped_faultReport unescaped.1 unescaped.2
    exact Uniform.bind (uniform_raise report) fun _ => Uniform.throw _

/-! ## Rows of operations -/

/-- What can be done with a console. -/
inductive Operation
  | enterFile (path : String)
  | enterLine (path : String) (line : Option String) (number : Option Int)
  | leaveLine (path : String)
  | warn (draft : Report.Draft)
  | printStep (step : Step)
  | raise (report : Report)
  /-- Ends some work, which may have failed. -/
  | settle (failure : Option Failure)

namespace Operation

/-- Does an operation. The report of a warning is put together first, which may fail. -/
def perform : Operation → Action Unit
  | enterFile path => modify (Console.enterFile path)
  | enterLine path line number => modify (Console.enterLine path line number)
  | leaveLine path => modify (Console.leaveLine path)
  | warn draft =>
    match draft.report with
    | .ok report => Console.warn report
    | .error fault => throw (.internal (.template fault))
  | printStep step => modify (Console.printStep · step)
  | raise report => Console.raise report
  | settle none => pure ()
  | settle (some failure) => Console.settle failure

/-- Whether the texts of an operation hold no escape character. -/
def Unescaped : Operation → Prop
  | enterFile path | leaveLine path => Text.Unescaped path
  | enterLine path line _ => Text.Unescaped path ∧ ∀ text ∈ line, Text.Unescaped text
  | warn draft => draft.Unescaped
  | printStep step => Text.Unescaped step.text
  | raise report => report.Unescaped
  | settle failure => ∀ given ∈ failure, given.Unescaped

/-- Whatever is done without escape characters of one's own, the style does not matter to it. -/
theorem uniform_perform {operation : Operation} (unescaped : operation.Unescaped) :
    Uniform operation.perform := by
  cases operation with
  | enterFile path | leaveLine path =>
    exact Uniform.modify fun coloured plain alike => alike.put ⟨unescaped, by simp⟩
  | enterLine path line number =>
    exact Uniform.modify fun coloured plain alike => alike.put ⟨unescaped.1, unescaped.2⟩
  | warn draft =>
    rw [perform]
    cases made : draft.report with
    | error fault => exact Uniform.throw _
    | ok report =>
      obtain ⟨message, source⟩ := Report.Draft.Unescaped.report unescaped made
      exact uniform_warn message source
  | printStep step =>
    refine Uniform.modify fun coloured plain alike => ?_
    have line := alike.decorates (Step.decorative_shown alike.wraps unescaped)
    exact alike.printLine line
  | raise report => exact uniform_raise unescaped
  | settle failure =>
    cases failure with
    | none => exact fun coloured plain alike => .ok () alike
    | some failure => exact uniform_settle (unescaped failure rfl)

end Operation

/-- The failure that an action ends in, if it does. -/
def raised {α : Type} : EStateM.Result Failure Console α → Option Failure
  | .ok _ _ => none
  | .error failure _ => some failure

/-- Does one operation after the other, and goes on after those that fail: what each of them raised,
and the console in the end. -/
def performAll (console : Console) : List Operation → List (Option Failure) × Console
  | [] => ([], console)
  | operation :: operations =>
    let result := operation.perform console
    let (others, last) := (reached result).performAll operations
    (raised result :: others, last)

theorem Agree.raised_eq {α : Type} {here there : EStateM.Result Failure Console α}
    (agree : Agree here there) : raised here = raised there := by
  cases agree <;> rfl

theorem Agree.matches_reached {α : Type} {here there : EStateM.Result Failure Console α}
    (agree : Agree here there) : Matches (reached here) (reached there) := by
  cases agree with
  | ok value alike => exact alike
  | error failure alike => exact alike

/-- Two consoles that match still do after the same operations, which have raised the same. -/
theorem Matches.performAll {coloured plain : Console} (alike : Matches coloured plain)
    {operations : List Operation} (unescaped : ∀ operation ∈ operations, operation.Unescaped) :
    (coloured.performAll operations).1 = (plain.performAll operations).1 ∧
      Matches (coloured.performAll operations).2 (plain.performAll operations).2 := by
  induction operations generalizing coloured plain with
  | nil => exact ⟨rfl, alike⟩
  | cons operation operations ih =>
    rw [List.forall_mem_cons] at unescaped
    have agree := Operation.uniform_perform unescaped.1 coloured plain alike
    obtain ⟨others, last⟩ := ih agree.matches_reached unescaped.2
    exact ⟨List.cons_eq_cons.2 ⟨agree.raised_eq, others⟩, last⟩

/-- Colour is only decoration. Whatever is done with a console, as long as no text holds an escape
character, the same is raised with decoration and without it, the same places are left, and what is
printed with decoration is, without its escape sequences, what is printed without it. All that is
asked of the decoration is that it puts escape sequences around texts; the usual one does. In every
style a message is its template filled again, with the arguments in bold. -/
theorem colour_only_decorates :
    (∀ (style : Text.Style), style.Wraps →
      ∀ (fatal : Bool) (room : Nat) (operations : List Operation),
        (∀ operation ∈ operations, operation.Unescaped) →
        let coloured := Console.performAll { style, fatal, room } operations
        let plain := Console.performAll { style := .plain, fatal, room } operations
        coloured.1 = plain.1 ∧ coloured.2.places = plain.2.places ∧
          Text.undecorated coloured.2.printed = plain.2.printed) ∧
      Text.Style.Wraps .decorated ∧
      ∀ (style : Text.Style) (template : String) (args : List String),
        (Text.Template.fill template (args.map style.bold)).map Text.Message.text =
          (Text.Template.fill template args).map (Text.Message.shown style) := by
  refine ⟨?_, Text.Style.wraps_decorated, Text.Template.fill_bold⟩
  intro style wraps fatal room operations unescaped coloured plain
  have alike : Matches { style, fatal, room } { style := .plain, fatal, room } :=
    ⟨wraps, rfl, rfl, rfl, rfl, by simp, .nil⟩
  obtain ⟨same, last⟩ := alike.performAll unescaped
  refine ⟨same, last.places, ?_⟩
  rw [Text.undecorated, last.printed.undecoratedFrom_eq, String.ofList_toList]

/-- Warnings with braces in an argument, with a reversed span and with an argument too few, then a
traceback, a trace and a fault of the program. -/
def mixedOperations : List Operation :=
  [.enterLine "a.lc" (some "(x") (some 1),
    .warn
      { template := "odd '\x7b\x7d' \x7b\x7bx\x7d\x7d", args := ["y\x7b\x7d"]
        start := -2
        stop := -9 },
    .enterLine "b.lc" (some "y") none,
    .warn { template := "\x7b1\x7d", args := ["y"] },
    .raise (Report.ofStepLimit 1 #[⟨1, "z z"⟩] none),
    .settle (some (.internal (.other "ValueError" "bad")))]

/-- What is raised and printed on a console that goes on after errors. -/
theorem colour_only_decorates_mixed :
    (∀ operation ∈ mixedOperations, operation.Unescaped) ∧
      (performAll { style := .decorated, fatal := false } mixedOperations).1.map Option.isSome =
        [false, false, false, true, false, true] ∧
      Text.undecorated
          (performAll { style := .decorated, fatal := false } mixedOperations).2.printed =
        "a.lc:1: warning: odd 'y\x7b\x7d' \x7bx\x7d\n  y\x7b\x7d\n  ^\n" ++
          "Step 1: z z\nTraceback:\n  File 'a.lc', line 1:\n    (x\n" ++
          "  File 'b.lc', line None:\n    y\nerror: Evaluation exceeded 1 steps\n" ++
          "[internal] error: unknown error: 'ValueError: bad'\n" := by
  have unescaped : ∀ operation ∈ mixedOperations, operation.Unescaped := by
    simp only [mixedOperations, List.forall_mem_cons]
    refine ⟨⟨by decide, by decide⟩, ⟨by decide, by decide, by decide⟩, ⟨by decide, by decide⟩,
      ⟨by decide, by decide, by decide⟩, ⟨by decide, by decide, by decide⟩, ?_, by simp⟩
    rintro _ ⟨⟩
    exact ⟨by decide, by decide⟩
  obtain ⟨decorates, wraps, -⟩ := colour_only_decorates
  obtain ⟨raises, -, prints⟩ :=
    decorates .decorated wraps false Text.usualRoom mixedOperations unescaped
  refine ⟨unescaped, ?_, ?_⟩
  · rw [raises]
    decide +kernel
  · rw [prints]
    decide +kernel

end Console

end Redex
