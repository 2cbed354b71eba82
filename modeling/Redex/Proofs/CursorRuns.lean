import Redex.Proofs.ErrorColumn

/-!
# Runs of a cursor

A cursor reads ahead of the token it stands on, and a character that starts no token is read but
leaves that token where it is. After such an error the same token can be asked for once more, and
the next move goes on behind the character. Whatever is asked of a cursor, and however often it
fails, nothing of the text is lost: a `History` keeps the tokens that were under the cursor and the
errors that it raised, and every character that has been read is a space, or one of these tokens, or
the subject of one of these errors (`Accounted`).

`Advanced` says what a move can come to. The invariant of a history is `Lossless`: a move keeps it,
whether it succeeds or fails, and so does a call that refuses to move; hence every row of calls
keeps it (`lossless_calls`).
-/

namespace Redex

open Grammar

/-- Whether a token is one of a text: the end, behind its last character, or one of its
characters. -/
inductive Token.Occurs (source : String) : Token → Prop
  | atEnd : Token.Occurs source (Token.atEnd source.length)
  | symbol {c : Char} {kind : Token.Kind} {column : Nat} :
    source.toList[column]? = some c → Token.Kind.ofChar? c = some kind →
    Token.Occurs source ⟨kind, String.singleton c, column⟩

theorem Token.Occurs.narrow {source : String} {token : Token} (occurs : token.Occurs source) :
    token.lexeme.length ≤ 1 := by
  cases occurs with
  | atEnd => exact Nat.zero_le 1
  | symbol _ _ => exact Nat.le_of_eq String.length_singleton

/-- Whether an error is about a character that starts no token. -/
def SyntaxError.isScanning (error : SyntaxError) : Bool :=
  match error.cause with
  | .unexpectedCharacter _ => true
  | _ => false

namespace Cursor

/-! ## Moves -/

/-- What a move through a text comes to: the end behind some spaces, or behind them a character,
which is a token or else an error. -/
inductive Advanced (source : String) (cursor : Cursor) :
    EStateM.Result SyntaxError Cursor Unit → Prop
  | ended : (∀ s ∈ cursor.rest, s = ' ') →
    Advanced source cursor (.ok () ⟨source, source.length, [], Token.atEnd source.length⟩)
  | moved {spaces rest : List Char} {c : Char} {kind : Token.Kind} :
    cursor.rest = spaces ++ c :: rest → (∀ s ∈ spaces, s = ' ') →
    Token.Kind.ofChar? c = some kind →
    Advanced source cursor (.ok () ⟨source, cursor.column + spaces.length + 1, rest,
      ⟨kind, String.singleton c, cursor.column + spaces.length⟩⟩)
  | failed {spaces rest : List Char} {c : Char} :
    cursor.rest = spaces ++ c :: rest → (∀ s ∈ spaces, s = ' ') → c ≠ ' ' →
    Token.Kind.ofChar? c = none →
    Advanced source cursor
      (.error ⟨.unexpectedCharacter c, source, cursor.column + spaces.length,
          cursor.column + spaces.length + 1⟩
        ⟨source, cursor.column + spaces.length + 1, rest, cursor.token⟩)

theorem advanced_advance {source : String} {cursor : Cursor} (tracks : cursor.Tracks source) :
    Advanced source cursor (advance cursor) := by
  obtain ⟨rfl, passed, split, column⟩ := tracks
  have parts : cursor.rest.takeWhile (· == ' ') ++ cursor.rest.dropWhile (· == ' ') = cursor.rest :=
    List.takeWhile_append_dropWhile
  have blank : ∀ s ∈ cursor.rest.takeWhile (· == ' '), s = ' ' := by
    intro s inside
    simpa using List.all_eq_true.1 List.all_takeWhile s inside
  unfold advance
  rcases dropped : cursor.rest.dropWhile (· == ' ') with _ | ⟨c, rest⟩
  · rw [dropped, List.append_nil] at parts
    have length : cursor.column + (cursor.rest.takeWhile (· == ' ')).length =
        cursor.source.length := by
      rw [parts, column, ← String.length_toList, split, List.length_append]
    simp only [length]
    rw [parts] at blank
    exact .ended blank
  · rw [dropped] at parts
    have noSpace : c ≠ ' ' := by
      have first := List.head?_dropWhile_not (· == ' ') cursor.rest
      rw [dropped] at first
      simpa using first
    cases known : Token.Kind.ofChar? c with
    | none =>
      simp only [known]
      exact .failed parts.symm blank noSpace known
    | some kind =>
      simp only [known]
      exact .moved parts.symm blank known

/-! ## Calls -/

/-- What can be asked of a cursor. -/
inductive Call where
  | advance
  | isAt (kind : Token.Kind)
  | skip (kind : Token.Kind)
  | expect (kind : Token.Kind)
deriving DecidableEq, Repr

/-- What a call does to a cursor; its answer is left out. -/
def Call.scan : Call → Scan Unit
  | .advance => Cursor.advance
  | .isAt kind => do
    let _ := (← get).isAt kind
  | .skip kind => do
    let _ ← Cursor.skip kind
  | .expect kind => do
    let _ ← Cursor.expect kind

/-- A cursor with its past. -/
structure History where
  /-- The cursor after the last call. -/
  cursor : Cursor
  /-- The token under the cursor at the start and after each call. -/
  seen : List Token
  /-- The errors that calls have raised. -/
  errors : List SyntaxError
deriving DecidableEq, Repr

namespace History

/-- A cursor on which no call has been made. -/
def start (cursor : Cursor) : History := ⟨cursor, [cursor.token], []⟩

/-- One more call. -/
def call (history : History) (call : Call) : History :=
  match call.scan history.cursor with
  | .ok () next => ⟨next, history.seen ++ [next.token], history.errors⟩
  | .error error next => ⟨next, history.seen ++ [next.token], history.errors ++ [error]⟩

/-- A row of calls, whether they fail or not. -/
def calls (history : History) (row : List Call) : History := row.foldl History.call history

end History

/-- Those of some errors that are about the character at a column. -/
def reports (errors : List SyntaxError) (column : Nat) : List SyntaxError :=
  errors.filter fun error => error.isScanning && error.column == column

/-- Moving past a token, once its lexeme is forgotten, is a move. -/
theorem forget_expect {cursor : Cursor} {kind : Token.Kind} (here : cursor.isAt kind = true) :
    (expect kind >>= fun _ => pure () : Scan Unit) cursor = advance cursor := by
  have expected := expect_of_isAt here
  rcases moved : advance cursor with ⟨_, next⟩ | ⟨error, next⟩
  · rw [bind_ok moved] at expected
    exact bind_ok expected _
  · rw [bind_error moved] at expected
    exact bind_error expected _

theorem forget_skip {cursor : Cursor} {kind : Token.Kind} (here : cursor.isAt kind = true) :
    (skip kind >>= fun _ => pure () : Scan Unit) cursor = advance cursor := by
  rw [← forget_expect here]
  have skipped := skip_of_isAt here
  rcases expected : expect kind cursor with ⟨lexeme, next⟩ | ⟨error, next⟩
  · rw [bind_ok expected] at skipped ⊢
    exact bind_ok skipped _
  · rw [bind_error expected] at skipped ⊢
    exact bind_error skipped _

/-- A call moves the cursor or leaves it as it is, and then it fails only where a token of another
kind is expected. -/
theorem call_cases (call : Call) (cursor : Cursor) :
    call.scan cursor = .ok () cursor ∨
      (∃ kind, call.scan cursor = .error (cursor.errorHere (.expectedToken kind)) cursor) ∨
      call.scan cursor = advance cursor := by
  cases call with
  | advance => exact Or.inr (Or.inr rfl)
  | isAt kind => exact Or.inl rfl
  | skip kind =>
    by_cases here : cursor.isAt kind = true
    · exact Or.inr (Or.inr (forget_skip here))
    · exact Or.inl (bind_ok (skip_of_not_isAt here) _)
  | expect kind =>
    by_cases here : cursor.isAt kind = true
    · exact Or.inr (Or.inr (forget_expect here))
    · exact Or.inr (Or.inl ⟨kind, bind_error (expect_of_not_isAt here) _⟩)

/-! ## Nothing is lost -/

/-- Whether the character at a column has left its mark on a history: it is a space, or it was the
token under the cursor, or one error, and only one, was about it. -/
inductive Accounted (source : String) (history : History) (column : Nat) (c : Char) : Prop
  | space : c = ' ' → reports history.errors column = [] → Accounted source history column c
  | token {kind : Token.Kind} : ⟨kind, String.singleton c, column⟩ ∈ history.seen →
    reports history.errors column = [] → Accounted source history column c
  | reported : Token.Kind.ofChar? c = none →
    reports history.errors column = [⟨.unexpectedCharacter c, source, column, column + 1⟩] →
    Accounted source history column c

/-- The invariant of a history. -/
structure Lossless (source : String) (history : History) : Prop where
  tracks : history.cursor.Tracks source
  occurs : ∀ token ∈ history.seen, token.Occurs source
  ordered : history.seen.Pairwise fun token later => token = later ∨ token.column < later.column
  /-- Tokens that were seen have been read, and behind the end there is nothing to read. -/
  behind : ∀ token ∈ history.seen, token.column < history.cursor.column ∨
    token = Token.atEnd source.length ∧ history.cursor.rest = []
  accounted : ∀ column c, column < history.cursor.column → source.toList[column]? = some c →
    Accounted source history column c
  /-- Characters that were reported have been read. -/
  reported : ∀ error ∈ history.errors, error.isScanning = true →
    error.column < history.cursor.column

section Lossless

variable {source : String} {cursor next : Cursor} {seen : List Token} {errors : List SyntaxError}
  {history : History}

theorem Tracks.column_le (tracks : cursor.Tracks source) : cursor.column ≤ source.length := by
  obtain ⟨passed, split, column⟩ := tracks.split
  rw [← String.length_toList, split, List.length_append, column]
  omega

theorem Tracks.rest_eq (tracks : cursor.Tracks source) :
    cursor.rest = source.toList.drop cursor.column := by
  obtain ⟨passed, split, column⟩ := tracks.split
  rw [split, column, List.drop_left]

theorem tracks_behind {passed spaces rest : List Char} {c : Char} {token : Token}
    (split : source.toList = passed ++ (spaces ++ c :: rest)) :
    Tracks source ⟨source, passed.length + spaces.length + 1, rest, token⟩ := by
  refine ⟨rfl, passed ++ spaces ++ [c], ?_, ?_⟩
  · rw [split, List.append_assoc, List.append_assoc, List.singleton_append]
  · simp only [List.length_append, List.length_singleton]

/-- No error is about a character that has not been read. -/
theorem Lossless.reports_eq_nil (lossless : Lossless source history) {column : Nat}
    (ahead : history.cursor.column ≤ column) : reports history.errors column = [] := by
  refine List.filter_eq_nil_iff.2 ?_
  intro error raised about
  simp only [Bool.and_eq_true, beq_iff_eq] at about
  have read := lossless.reported error raised about.1
  omega

theorem char_at {passed spaces rest : List Char} {c : Char}
    (split : source.toList = passed ++ (spaces ++ c :: rest)) :
    source.toList[passed.length + spaces.length]? = some c := by
  rw [split, ← List.append_assoc, ← List.length_append,
    List.getElem?_append_right (Nat.le_refl _), Nat.sub_self]
  rfl

/-- The characters up to the one that a move reads: those read before, spaces, and that one. -/
theorem char_cases {passed spaces rest : List Char} {c d : Char} {column : Nat}
    (split : source.toList = passed ++ (spaces ++ c :: rest)) (blank : ∀ s ∈ spaces, s = ' ')
    (read : column < passed.length + spaces.length + 1) (here : source.toList[column]? = some d) :
    column < passed.length ∨
      (passed.length ≤ column ∧ column < passed.length + spaces.length ∧ d = ' ') ∨
      (column = passed.length + spaces.length ∧ d = c) := by
  rcases Nat.lt_or_ge column passed.length with before | after
  · exact Or.inl before
  · rw [split, List.getElem?_append_right after] at here
    rcases Nat.lt_or_ge (column - passed.length) spaces.length with among | last
    · rw [List.getElem?_append_left among] at here
      exact Or.inr (Or.inl ⟨after, by omega, blank d (List.mem_of_getElem? here)⟩)
    · have same : column - passed.length = spaces.length := by omega
      rw [same, List.getElem?_append_right (Nat.le_refl _), Nat.sub_self] at here
      exact Or.inr (Or.inr ⟨by omega, (Option.some.inj here).symm⟩)

/-- An error that is not about the character at a column makes no difference there. -/
theorem reports_concat {error : SyntaxError} {column : Nat}
    (elsewhere : error.isScanning = true → error.column ≠ column) (errors : List SyntaxError) :
    reports (errors ++ [error]) column = reports errors column := by
  have other : ¬(error.isScanning && error.column == column) = true := by
    rw [Bool.and_eq_true, beq_iff_eq]
    exact fun about => elsewhere about.1 about.2
  simp only [reports, List.filter_append, List.filter_cons, if_neg other, List.filter_nil,
    List.append_nil]

theorem Accounted.raise {error : SyntaxError} {column : Nat} {c : Char}
    (accounted : Accounted source history column c)
    (elsewhere : error.isScanning = true → error.column ≠ column) :
    Accounted source ⟨next, history.seen, history.errors ++ [error]⟩ column c := by
  have same := reports_concat elsewhere history.errors
  cases accounted with
  | space blank silent => exact .space blank (same.trans silent)
  | token held silent => exact .token held (same.trans silent)
  | reported unknown once => exact .reported unknown (same.trans once)

/-- The cursor goes on to a token, or stays on the one it was on. -/
theorem Lossless.see (lossless : Lossless source history) (tracks : next.Tracks source)
    (further : history.cursor.column ≤ next.column)
    (finished : history.cursor.rest = [] → next.rest = [])
    (occurs : next.token.Occurs source)
    (later : ∀ token ∈ history.seen, token = next.token ∨ token.column < next.token.column)
    (behind : next.token.column < next.column ∨
      next.token = Token.atEnd source.length ∧ next.rest = [])
    (reads : ∀ column c, history.cursor.column ≤ column → column < next.column →
      source.toList[column]? = some c → c = ' ' ∨
        ∃ kind, next.token = ⟨kind, String.singleton c, column⟩) :
    Lossless source ⟨next, history.seen ++ [next.token], history.errors⟩ where
  tracks := tracks
  occurs := List.forall_mem_append.2 ⟨lossless.occurs, List.forall_mem_singleton.2 occurs⟩
  ordered := by
    refine List.pairwise_append.2 ⟨lossless.ordered, List.pairwise_singleton _ _, ?_⟩
    intro token earlier last isLast
    rw [List.mem_singleton.1 isLast]
    exact later token earlier
  behind := by
    refine List.forall_mem_append.2 ⟨?_, List.forall_mem_singleton.2 behind⟩
    intro token earlier
    rcases lossless.behind token earlier with before | ⟨atEnd, nothing⟩
    · exact Or.inl (Nat.lt_of_lt_of_le before further)
    · exact Or.inr ⟨atEnd, finished nothing⟩
  accounted := by
    intro column c read here
    rcases Nat.lt_or_ge column history.cursor.column with before | after
    · cases lossless.accounted column c before here with
      | space blank silent => exact .space blank silent
      | token held silent => exact .token (List.mem_append_left _ held) silent
      | reported unknown once => exact .reported unknown once
    · have silent := lossless.reports_eq_nil after
      rcases reads column c after read here with blank | ⟨kind, same⟩
      · exact .space blank silent
      · exact .token (List.mem_append_right _ (List.mem_singleton.2 same.symm)) silent
  reported := by
    intro error raised scanning
    exact Nat.lt_of_lt_of_le (lossless.reported error raised scanning) further

theorem Lossless.move (lossless : Lossless source history)
    (moved : advance history.cursor = .ok () next) :
    Lossless source ⟨next, history.seen ++ [next.token], history.errors⟩ := by
  obtain ⟨-, passed, split, column⟩ := lossless.tracks
  have within := lossless.tracks.column_le
  have outcome := advanced_advance lossless.tracks
  rw [moved] at outcome
  cases outcome with
  | ended blank =>
    refine lossless.see ⟨rfl, source.toList, ?_, ?_⟩ within (fun _ => rfl) .atEnd ?_
      (Or.inr ⟨rfl, rfl⟩) ?_
    · exact (List.append_nil _).symm
    · exact String.length_toList.symm
    · intro token earlier
      rcases lossless.behind token earlier with before | ⟨atEnd, -⟩
      · exact Or.inr (Nat.lt_of_lt_of_le before within)
      · exact Or.inl atEnd
    · intro i c after _ here
      rw [split, List.getElem?_append_right (column ▸ after)] at here
      exact Or.inl (blank c (List.mem_of_getElem? here))
  | @moved spaces rest c kind parts blank known =>
    rw [parts] at split
    rw [column]
    refine lossless.see (tracks_behind split) (by dsimp only; omega) ?_
      (.symbol (char_at split) known) ?_ (Or.inl (Nat.lt_succ_self _)) ?_
    · intro nothing
      rw [parts] at nothing
      exact absurd nothing (by simp)
    · intro token earlier
      rcases lossless.behind token earlier with before | ⟨-, nothing⟩
      · exact Or.inr (by dsimp only; omega)
      · rw [parts] at nothing
        exact absurd nothing (by simp)
    · intro i d after read here
      rcases char_cases split blank read here with before | ⟨-, -, space⟩ | ⟨same, rfl⟩
      · omega
      · exact Or.inl space
      · exact Or.inr ⟨kind, by rw [same]⟩

/-- A move that fails. -/
theorem Lossless.fail (lossless : Lossless source history) {error : SyntaxError}
    (failed : advance history.cursor = .error error next) :
    Lossless source ⟨next, history.seen, history.errors ++ [error]⟩ := by
  obtain ⟨-, passed, split, column⟩ := lossless.tracks
  have outcome := advanced_advance lossless.tracks
  rw [failed] at outcome
  cases outcome with
  | @failed spaces rest c parts blank noSpace unknown =>
    rw [parts] at split
    rw [column]
    refine ⟨tracks_behind split, lossless.occurs, lossless.ordered, ?_, ?_, ?_⟩
    · intro token earlier
      rcases lossless.behind token earlier with before | ⟨-, nothing⟩
      · exact Or.inl (by dsimp only; omega)
      · rw [parts] at nothing
        exact absurd nothing (by simp)
    · intro i d read here
      rcases char_cases split blank read here with before | ⟨after, among, space⟩ | ⟨rfl, rfl⟩
      · refine (lossless.accounted i d (by omega) here).raise ?_
        intro _
        dsimp only
        omega
      · refine .space space ((reports_concat ?_ _).trans (lossless.reports_eq_nil (by omega)))
        intro _
        dsimp only
        omega
      · have silent : reports history.errors (passed.length + spaces.length) = [] :=
          lossless.reports_eq_nil (by omega)
        refine .reported unknown ?_
        rw [reports, List.filter_append]
        rw [reports] at silent
        rw [silent]
        simp [SyntaxError.isScanning]
    · intro error raised scanning
      rcases List.mem_append.1 raised with earlier | isLast
      · have read := lossless.reported error earlier scanning
        dsimp only
        omega
      · rw [List.mem_singleton.1 isLast]
        exact Nat.lt_succ_self _

/-- A call that fails without a move. -/
theorem Lossless.refuse (lossless : Lossless source history) {error : SyntaxError}
    (other : error.isScanning = false) :
    Lossless source ⟨history.cursor, history.seen, history.errors ++ [error]⟩ where
  tracks := lossless.tracks
  occurs := lossless.occurs
  ordered := lossless.ordered
  behind := lossless.behind
  accounted := by
    intro column c read here
    refine (lossless.accounted column c read here).raise ?_
    intro scanning
    rw [other] at scanning
    cases scanning
  reported := by
    intro error' raised scanning
    rcases List.mem_append.1 raised with earlier | isLast
    · exact lossless.reported error' earlier scanning
    · rw [List.mem_singleton.1 isLast, other] at scanning
      cases scanning

/-- Whether the token under the cursor is the last one that was seen. -/
def History.Current (history : History) : Prop :=
  ∃ earlier, history.seen = earlier ++ [history.cursor.token]

/-- The cursor stays on its token. -/
theorem Lossless.stay (lossless : Lossless source history) (current : history.Current) :
    Lossless source ⟨history.cursor, history.seen ++ [history.cursor.token], history.errors⟩ := by
  obtain ⟨earlier, split⟩ := current
  have listed : history.cursor.token ∈ history.seen := by
    rw [split]
    exact List.mem_append_right _ (List.mem_singleton_self _)
  refine lossless.see lossless.tracks (Nat.le_refl _) id (lossless.occurs _ listed) ?_
    (lossless.behind _ listed) ?_
  · intro token seen
    have ordered := lossless.ordered
    rw [split, List.pairwise_append] at ordered
    rw [split, List.mem_append, List.mem_singleton] at seen
    rcases seen with before | same
    · exact ordered.2.2 token before _ (List.mem_singleton_self _)
    · exact Or.inl same
  · intro column c after read
    omega

/-! ## Rows of calls -/

theorem current_call (history : History) (call : Call) : (history.call call).Current := by
  unfold History.call
  split
  · exact ⟨_, rfl⟩
  · exact ⟨_, rfl⟩

theorem Lossless.call (lossless : Lossless source history) (current : history.Current)
    (call : Call) : Lossless source (history.call call) := by
  unfold History.call
  rcases call_cases call history.cursor with stays | ⟨kind, refuses⟩ | moves
  · rw [stays]
    exact lossless.stay current
  · rw [refuses]
    exact (lossless.stay current).refuse rfl
  · rw [moves]
    rcases outcome : advance history.cursor with ⟨_, next⟩ | ⟨error, next⟩
    · exact lossless.move outcome
    · have same : next.token = history.cursor.token := by
        have advanced := advanced_advance lossless.tracks
        rw [outcome] at advanced
        cases advanced
        rfl
      dsimp only
      rw [same]
      exact (lossless.stay current).fail outcome

theorem lossless_calls (lossless : Lossless source history) (current : history.Current)
    (calls : List Call) :
    Lossless source (history.calls calls) ∧ (history.calls calls).Current := by
  induction calls generalizing history with
  | nil => exact ⟨lossless, current⟩
  | cons call calls ih => exact ih (lossless.call current call) (current_call history call)

theorem lossless_start {first : Cursor} (started : start source = .ok first) :
    Lossless source (History.start first) ∧ (History.start first).Current := by
  refine ⟨?_, [], rfl⟩
  -- Nothing has been seen, read or reported in front of the first move.
  have nothing : Lossless source ⟨⟨source, 0, source.toList, Token.atEnd 0⟩, [], []⟩ :=
    ⟨⟨rfl, [], rfl, rfl⟩, nofun, .nil, nofun, nofun, nofun⟩
  unfold Cursor.start at started
  split at started
  · next next moved =>
    cases started
    exact nothing.move moved
  · cases started

theorem History.Current.mem_seen (current : history.Current) :
    history.cursor.token ∈ history.seen := by
  obtain ⟨earlier, split⟩ := current
  rw [split]
  exact List.mem_append_right _ (List.mem_singleton_self _)

/-! ## The end of the text -/

/-- The cursor at the end of a text. -/
def exhausted (source : String) : Cursor :=
  ⟨source, source.length, [], Token.atEnd source.length⟩

theorem call_exhausted (source : String) (call : Call) :
    (∃ next, call.scan (exhausted source) = .ok () next ∧ next = exhausted source) ∨
      ∃ error, call.scan (exhausted source) = .error error (exhausted source) := by
  rcases call_cases call (exhausted source) with stays | ⟨kind, refuses⟩ | moves
  · exact Or.inl ⟨_, stays, rfl⟩
  · exact Or.inr ⟨_, refuses⟩
  · exact Or.inl ⟨_, moves, rfl⟩

theorem calls_exhausted (ended : history.cursor = exhausted source) (row : List Call) :
    (history.calls row).cursor = exhausted source := by
  induction row generalizing history with
  | nil => exact ended
  | cons call row ih =>
    refine ih ?_
    unfold History.call
    rw [ended]
    rcases call_exhausted source call with ⟨next, done, same⟩ | ⟨error, failed⟩
    · rw [done]
      exact same
    · rw [failed]

theorem eq_atEnd_of_occurs {token : Token} (occurs : token.Occurs source)
    (ended : token.kind = .endOfText) : token = Token.atEnd source.length := by
  cases occurs with
  | atEnd => rfl
  | symbol _ known =>
    have ending : Token.Kind.ofChar? _ = some .endOfText := known.trans (congrArg some ended)
    cases shows_of_ofChar? ending

/-- A cursor that stands on the end has read the whole text. -/
theorem Lossless.eq_exhausted (lossless : Lossless source history) (current : history.Current)
    (ended : history.cursor.token.kind = .endOfText) : history.cursor = exhausted source := by
  have within := lossless.tracks.column_le
  have atEnd := eq_atEnd_of_occurs (lossless.occurs _ current.mem_seen) ended
  obtain ⟨same, passed, split, column⟩ := lossless.tracks
  rcases lossless.behind _ current.mem_seen with before | ⟨-, nothing⟩
  · rw [atEnd] at before
    exact absurd before (Nat.not_lt.2 within)
  · rw [nothing, List.append_nil] at split
    have length : history.cursor.column = source.length := by
      rw [column, ← split, String.length_toList]
    calc history.cursor
      _ = ⟨history.cursor.source, history.cursor.column, history.cursor.rest,
            history.cursor.token⟩ := rfl
      _ = exhausted source := by rw [same, length, nothing, atEnd, exhausted]

theorem Lossless.stays_at_end (lossless : Lossless source history) (current : history.Current)
    (ended : history.cursor.token.kind = .endOfText) :
    history.cursor.column = source.length ∧ advance history.cursor = .ok () history.cursor ∧
      ∀ more, (history.calls more).cursor = history.cursor := by
  have same := lossless.eq_exhausted current ended
  refine ⟨?_, ?_, ?_⟩
  · rw [same]
    rfl
  · rw [same]
    rfl
  · intro more
    rw [calls_exhausted same, same]

/-! ## Calls that fail -/

theorem Lossless.refuses (lossless : Lossless source history) (current : history.Current)
    {kind : Token.Kind} (other : history.cursor.token.kind ≠ kind) :
    skip kind history.cursor = .ok none history.cursor ∧
      expect kind history.cursor =
        .error ⟨.expectedToken kind, source, history.cursor.token.column,
          history.cursor.token.column + 1⟩ history.cursor := by
  have apart : ¬history.cursor.isAt kind = true := by
    rw [isAt, beq_iff_eq]
    exact other
  refine ⟨skip_of_not_isAt apart, ?_⟩
  have narrow := (lossless.occurs _ current.mem_seen).narrow
  rw [expect_of_not_isAt apart, ← errorHere_stop narrow (.expectedToken kind), errorHere,
    lossless.tracks.source_eq]

/-- A character that starts no token is behind the cursor once it is reported. -/
theorem Lossless.passes_over (lossless : Lossless source history) {call : Call}
    {error : SyntaxError} (failed : call.scan history.cursor = .error error next)
    (scanning : error.isScanning = true) :
    next.token = history.cursor.token ∧ next.column = error.column + 1 ∧
      error.stop = error.column + 1 ∧
      ∃ c, error.cause = .unexpectedCharacter c ∧ source.toList[error.column]? = some c ∧
        c ≠ ' ' ∧ Token.Kind.ofChar? c = none := by
  obtain ⟨-, passed, split, column⟩ := lossless.tracks
  rcases call_cases call history.cursor with stays | ⟨kind, refuses⟩ | moves
  · cases stays.symm.trans failed
  · cases refuses.symm.trans failed
    cases scanning
  · have outcome := advanced_advance lossless.tracks
    rw [← moves, failed] at outcome
    cases outcome with
    | @failed spaces rest c parts blank noSpace unknown =>
      rw [parts] at split
      exact ⟨rfl, rfl, rfl, c, rfl, column ▸ char_at split, noSpace, unknown⟩

end Lossless

/-- Nothing of a text is lost, whatever is asked of a cursor on it and however often it fails. The
cursor has the rest of the text in front of it, from its column on. The token under the cursor is
always the end of the text or one of its characters, and of two tokens that are under it one after
the other the second stands further right, unless it is the first one still. To ask for a token of
another kind changes nothing. An error about a character blames its column alone, leaves the token
and moves the cursor just past that character, which starts no token. Every character in front of
the cursor is a space, or was the token under the cursor, or was reported once. At the end of the
text the cursor stays where it is, and moving on does not fail. -/
theorem calls_lose_nothing {source : String} {first : Cursor} (started : start source = .ok first)
    (row : List Call) :
    let history := (History.start first).calls row
    let cursor := history.cursor
    (cursor.source = source ∧ cursor.rest = source.toList.drop cursor.column) ∧
      (cursor.token.Occurs source ∧ history.seen.getLast? = some cursor.token) ∧
      history.seen.Pairwise (fun token later => token = later ∨ token.column < later.column) ∧
      (∀ kind, cursor.token.kind ≠ kind → skip kind cursor = .ok none cursor ∧
        expect kind cursor =
          .error ⟨.expectedToken kind, source, cursor.token.column, cursor.token.column + 1⟩
            cursor) ∧
      (∀ call error next, Call.scan call cursor = .error error next → error.isScanning = true →
        next.token = cursor.token ∧ next.column = error.column + 1 ∧
          error.stop = error.column + 1 ∧
          ∃ c, error.cause = .unexpectedCharacter c ∧ source.toList[error.column]? = some c ∧
            c ≠ ' ' ∧ Token.Kind.ofChar? c = none) ∧
      (∀ column c, column < cursor.column → source.toList[column]? = some c →
        Accounted source history column c) ∧
      (cursor.token.kind = .endOfText → cursor.column = source.length ∧
        advance cursor = .ok () cursor ∧ ∀ more, (history.calls more).cursor = cursor) := by
  intro history cursor
  obtain ⟨lossless, current⟩ := lossless_start started
  obtain ⟨lossless, current⟩ := lossless_calls lossless current row
  refine ⟨⟨lossless.tracks.source_eq, lossless.tracks.rest_eq⟩,
    ⟨lossless.occurs _ current.mem_seen, ?_⟩, lossless.ordered, ?_, ?_, lossless.accounted,
    lossless.stays_at_end current⟩
  · obtain ⟨earlier, split⟩ := current
    rw [split, List.getLast?_concat]
  · intro kind
    exact lossless.refuses current
  · intro call error next
    exact lossless.passes_over

/-- The first call for an identifier fails at `#` and the second one succeeds, on the same token. -/
theorem calls_lose_nothing_again :
    let first : Cursor := ⟨"a# (", 1, ['#', ' ', '('], ⟨.identifier, "a", 0⟩⟩
    let row := [Call.expect .identifier, .expect .identifier, .expect .dot, .advance, .skip .dot]
    let history := (History.start first).calls row
    start "a# (" = .ok first ∧ history.seen.map Token.column = [0, 0, 3, 3, 4, 4] ∧
      history.errors =
        [⟨.unexpectedCharacter '#', "a# (", 1, 2⟩, ⟨.expectedToken .dot, "a# (", 3, 4⟩] ∧
      Accounted "a# (" history 1 '#' ∧ history.cursor.token.Occurs "a# (" ∧
      advance history.cursor = .ok () history.cursor := by
  intro first row history
  have started : start "a# (" = .ok first := by decide +kernel
  have columns : history.seen.map Token.column = [0, 0, 3, 3, 4, 4] := by decide +kernel
  have errors : history.errors =
      [⟨.unexpectedCharacter '#', "a# (", 1, 2⟩, ⟨.expectedToken .dot, "a# (", 3, 4⟩] := by
    decide +kernel
  obtain ⟨-, ⟨occurs, -⟩, -, -, -, accounted, ended⟩ := calls_lose_nothing started row
  refine ⟨started, columns, errors, ?_, occurs, (ended ?_).2.1⟩
  · exact accounted 1 '#' (by decide +kernel) (by decide +kernel)
  · decide +kernel

end Cursor

end Redex
