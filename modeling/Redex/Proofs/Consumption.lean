import Redex.Proofs.CursorRuns

/-!
# What a level of the parser consumes

A level of the parser can be called anywhere in a text, on whatever token the cursor stands. What it
has in front of it are the tokens that are left, up to the end of the text or to a character that
starts none (`Cursor.drain`). It succeeds exactly if these begin with a phrase of its level and go
on with a token that ends the phrase, and then the cursor stands on that token.

`Consumes` follows the cursor from token to token. A level consumes the tokens of its phrase, and at
least one (`scan_consumes`), so that the loop over the atoms of a row comes to an end of its own
(`atomLoop_ends`).
-/

namespace Redex

open Grammar

namespace Cursor

/-! ## The tokens that are left -/

/-- A move takes a character off the rest of the text, unless it gets to the end. -/
theorem length_rest_of_advance {cursor next : Cursor} (moved : advance cursor = .ok () next) :
    next.isAt .endOfText = true ∨ next.rest.length < cursor.rest.length := by
  have shorter : (cursor.rest.dropWhile (· == ' ')).length ≤ cursor.rest.length :=
    (List.dropWhile_sublist _).length_le
  unfold advance at moved
  rcases dropped : cursor.rest.dropWhile (· == ' ') with _ | ⟨c, rest⟩
  · simp only [dropped] at moved
    cases moved
    exact Or.inl rfl
  · rw [dropped, List.length_cons] at shorter
    simp only [dropped] at moved
    split at moved
    · cases moved
      exact Or.inr shorter
    · cases moved

/-- All bounds on the number of moves that are large enough give the same tokens. -/
theorem drainWithin_eq {cursor : Cursor} {moves moves' : Nat}
    (enough : cursor.isAt .endOfText = true ∨ cursor.rest.length < moves)
    (enough' : cursor.isAt .endOfText = true ∨ cursor.rest.length < moves') :
    drainWithin moves cursor = drainWithin moves' cursor := by
  induction moves generalizing cursor moves' with
  | zero =>
    have ended := enough.resolve_right (Nat.not_lt_zero _)
    cases moves' with
    | zero => rfl
    | succ moves' => rw [drainWithin, drainWithin, if_pos ended]
  | succ moves ih =>
    by_cases ended : cursor.isAt .endOfText = true
    · cases moves' with
      | zero => rw [drainWithin, drainWithin, if_pos ended]
      | succ moves' => rw [drainWithin, drainWithin, if_pos ended, if_pos ended]
    · have room := enough.resolve_left ended
      have room' := enough'.resolve_left ended
      obtain ⟨moves', rfl⟩ := Nat.exists_eq_add_of_le' (Nat.one_le_of_lt room')
      rw [drainWithin, drainWithin, if_neg ended, if_neg ended]
      rcases moved : advance cursor with ⟨_, next⟩ | ⟨error, next⟩
      · have less := length_rest_of_advance moved
        have same : drainWithin moves next = drainWithin moves' next :=
          ih (less.imp_right (by omega)) (less.imp_right (by omega))
        dsimp only
        rw [same]
      · rfl

theorem drain_of_advance {cursor next : Cursor} (symbol : cursor.token.kind ≠ .endOfText)
    (moved : advance cursor = .ok () next) : cursor.drain.1 = cursor.token :: next.drain.1 := by
  have goesOn : ¬cursor.isAt .endOfText = true := by
    rw [isAt, beq_iff_eq]
    exact symbol
  have same : drainWithin cursor.rest.length next = next.drain :=
    drainWithin_eq (length_rest_of_advance moved) (Or.inr (Nat.lt_succ_self _))
  rw [drain, drainWithin, if_neg goesOn, moved]
  dsimp only
  rw [same]

/-- A token that is not the last one left is not the end, and the cursor can move on from it. -/
theorem drain_cases (cursor : Cursor) :
    cursor.drain.1 = [cursor.token] ∨
      (cursor.token.kind ≠ .endOfText ∧ ∃ next, advance cursor = .ok () next) := by
  by_cases ended : cursor.token.kind = .endOfText
  · have stops : cursor.isAt .endOfText = true := beq_iff_eq.2 ended
    rw [drain, drainWithin, if_pos stops]
    exact Or.inl rfl
  · rcases moved : advance cursor with ⟨_, next⟩ | ⟨error, next⟩
    · exact Or.inr ⟨ended, next, rfl⟩
    · have goesOn : ¬cursor.isAt .endOfText = true := by
        rw [isAt, beq_iff_eq]
        exact ended
      rw [drain, drainWithin, if_neg goesOn, moved]
      exact Or.inl rfl

theorem exists_drain_eq (cursor : Cursor) : ∃ more, cursor.drain.1 = cursor.token :: more := by
  rcases drain_cases cursor with only | ⟨symbol, next, moved⟩
  · exact ⟨[], only⟩
  · exact ⟨next.drain.1, drain_of_advance symbol moved⟩

theorem length_drain_pos (cursor : Cursor) : 0 < cursor.drain.1.length := by
  obtain ⟨more, left⟩ := exists_drain_eq cursor
  rw [left]
  exact Nat.succ_pos _

/-- Whatever was asked of a cursor, it has a token under it and the rest of the text behind that. -/
theorem Lossless.faces {source : String} {history : History} (lossless : Lossless source history)
    (current : history.Current) : ∃ cs, history.cursor.Faces cs := by
  by_cases ended : history.cursor.token.kind = .endOfText
  · rw [lossless.eq_exhausted current ended]
    exact ⟨[], .atEnd rfl rfl⟩
  · generalize listed : history.cursor.token = token at ended
    have occurs := lossless.occurs _ current.mem_seen
    rw [listed] at occurs
    cases occurs with
    | atEnd => exact absurd rfl ended
    | symbol _ known => exact ⟨_, .onSymbol (by rw [listed]; exact known) (by rw [listed])⟩

/-! ## From token to token -/

/-- The cursor moves over some tokens, none of them the end, to another one. -/
inductive Consumes : Cursor → List Token → Cursor → Prop
  | nothing (cursor : Cursor) : Consumes cursor [] cursor
  | token {cursor next last : Cursor} {tokens : List Token} :
    cursor.token.kind ≠ .endOfText → advance cursor = .ok () next → Consumes next tokens last →
    Consumes cursor (cursor.token :: tokens) last

/-- The characters that some tokens are written with. -/
def spelling (tokens : List Token) : List Char := tokens.flatMap fun token => token.lexeme.toList

theorem spelling_cons (token : Token) (tokens : List Token) :
    spelling (token :: tokens) = token.lexeme.toList ++ spelling tokens :=
  List.flatMap_cons

section Consumes

variable {cursor next last : Cursor} {tokens tokens' : List Token} {cs : List Char}

theorem Consumes.trans (first : Consumes cursor tokens next) (second : Consumes next tokens' last) :
    Consumes cursor (tokens ++ tokens') last := by
  induction first with
  | nothing cursor => exact second
  | token symbol moved _ ih => exact .token symbol moved (ih second)

/-- Consumed tokens are the first of those that were left. -/
theorem Consumes.drain_eq (consumes : Consumes cursor tokens last) :
    cursor.drain.1 = tokens ++ last.drain.1 := by
  induction consumes with
  | nothing cursor => rfl
  | token symbol moved _ ih => rw [drain_of_advance symbol moved, ih, List.cons_append]

/-- Each consumed token takes the one character that it is written with. -/
theorem Consumes.faces (consumes : Consumes cursor tokens last) (faces : cursor.Faces cs) :
    ∃ rest, last.Faces rest ∧ cs = spelling tokens ++ rest ∧
      (spelling tokens).length = tokens.length := by
  induction consumes generalizing cs with
  | nothing cursor => exact ⟨cs, faces, rfl, rfl⟩
  | @token cursor next last tokens symbol moved _ ih =>
    cases faces with
    | atEnd ended _ => exact absurd ended symbol
    | @onSymbol c known lexeme =>
      obtain ⟨next', moved', ahead⟩ | ⟨-, error, next', failed, -⟩ := advance_cases cursor
      · cases moved.symm.trans moved'
        obtain ⟨rest, facesRest, split, length⟩ := ih ahead
        rw [spelling_cons, lexeme, String.toList_singleton, List.singleton_append, split]
        exact ⟨rest, facesRest, rfl, congrArg (· + 1) length⟩
      · cases moved.symm.trans failed

/-- The tokens that are left can be consumed up to any one of them. -/
theorem consumes_of_drain {token : Token} {more : List Token}
    (drained : cursor.drain.1 = tokens ++ token :: more) :
    ∃ last, Consumes cursor tokens last ∧ last.token = token ∧ last.drain.1 = token :: more := by
  induction tokens generalizing cursor with
  | nil =>
    obtain ⟨more', drained'⟩ := exists_drain_eq cursor
    have same := drained'.symm.trans drained
    rw [List.nil_append, List.cons.injEq] at same
    exact ⟨cursor, .nothing cursor, same.1, drained⟩
  | cons first tokens ih =>
    rcases drain_cases cursor with only | ⟨symbol, next, moved⟩
    · rw [only] at drained
      simp at drained
    · rw [drain_of_advance symbol moved, List.cons_append, List.cons.injEq] at drained
      obtain ⟨rfl, others⟩ := drained
      obtain ⟨last, consumes, here, left⟩ := ih others
      exact ⟨last, .token symbol moved consumes, here, left⟩

end Consumes

/-! ## Steps of the parser -/

/-- Whether a step that succeeds has moved over tokens only. -/
def Steps {α : Type} (cursor : Cursor) : EStateM.Result SyntaxError Cursor α → Prop
  | .ok _ next => ∃ tokens, Consumes cursor tokens next
  | .error _ _ => True

section Steps

variable {α β : Type} {cursor : Cursor}

theorem Steps.bind {first : Scan α} {rest : α → Scan β} (steps : Steps cursor (first cursor))
    (continues : ∀ a next, Steps next (rest a next)) :
    Steps cursor ((first >>= rest) cursor) := by
  rcases outcome : first cursor with ⟨a, next⟩ | ⟨error, next⟩
  · rw [outcome] at steps
    rw [bind_ok outcome]
    obtain ⟨tokens, consumes⟩ := steps
    have further := continues a next
    rcases done : rest a next with ⟨b, last⟩ | ⟨error, last⟩
    · rw [done] at further
      obtain ⟨tokens', consumes'⟩ := further
      exact ⟨tokens ++ tokens', consumes.trans consumes'⟩
    · trivial
  · rw [bind_error outcome]
    trivial

theorem steps_pure (a : α) (cursor : Cursor) : Steps cursor ((pure a : Scan α) cursor) :=
  ⟨[], .nothing cursor⟩

theorem expect_steps {kind : Token.Kind} (symbol : kind ≠ .endOfText) (cursor : Cursor) :
    Steps cursor (expect kind cursor) := by
  by_cases here : cursor.isAt kind = true
  · rw [expect_of_isAt here]
    rw [isAt, beq_iff_eq] at here
    have advances : Steps cursor (advance cursor) := by
      rcases moved : advance cursor with ⟨_, next⟩ | ⟨error, next⟩
      · exact ⟨_, .token (here ▸ symbol) moved (.nothing next)⟩
      · trivial
    exact advances.bind fun _ next => steps_pure _ next
  · rw [expect_of_not_isAt here]
    trivial

theorem skip_steps {kind : Token.Kind} (symbol : kind ≠ .endOfText) (cursor : Cursor) :
    Steps cursor (skip kind cursor) := by
  by_cases here : cursor.isAt kind = true
  · rw [skip_of_isAt here]
    exact (expect_steps symbol cursor).bind fun _ next => steps_pure _ next
  · rw [skip_of_not_isAt here]
    exact ⟨[], .nothing cursor⟩

end Steps

end Cursor

/-! ## Levels of the parser -/

namespace Grammar

open Cursor

theorem applyAtoms_steps {atom : Scan Term} (atomSteps : ∀ cursor, Steps cursor (atom cursor))
    (count : Nat) (function : Term) (cursor : Cursor) :
    Steps cursor (Parser.applyAtoms atom count function cursor) := by
  induction count generalizing function cursor with
  | zero => exact steps_pure function cursor
  | succ count ih =>
    change Steps cursor ((if Parser.atStop cursor = true then _ else _ : Scan Term) cursor)
    split
    · exact steps_pure function cursor
    · exact (atomSteps cursor).bind fun argument next => ih (.app function argument) next

theorem scan_steps (depth : Nat) (phrase : Phrase) (cursor : Cursor) :
    Steps cursor (phrase.scan depth cursor) := by
  induction depth generalizing phrase cursor with
  | zero =>
    cases phrase with
    | term => trivial
    | application => trivial
    | atom => trivial
  | succ depth ih =>
    cases phrase with
    | term =>
      change Steps cursor (Parser.term (depth + 1) cursor)
      unfold Parser.term
      refine (skip_steps (by decide) cursor).bind ?_
      intro skipped next
      split
      · refine (expect_steps (by decide) next).bind fun parameter next => ?_
        refine (expect_steps (by decide) next).bind fun _ next => ?_
        exact (ih .term next).bind fun body next => steps_pure _ next
      · exact ih .application next
    | application =>
      change Steps cursor (Parser.application (depth + 1) cursor)
      unfold Parser.application
      refine (ih .atom cursor).bind fun function next => ?_
      exact applyAtoms_steps (ih .atom) (next.rest.length + 1) function next
    | atom =>
      change Steps cursor (Parser.atom (depth + 1) cursor)
      unfold Parser.atom
      refine (skip_steps (by decide) cursor).bind ?_
      intro skipped next
      split
      · refine (ih .term next).bind fun inner next => ?_
        exact (expect_steps (by decide) next).bind fun _ next => steps_pure _ next
      · change Steps next ((if next.isAt .identifier = true then _ else _ : Scan Term) next)
        split
        · exact (expect_steps (by decide) next).bind fun _ next => steps_pure _ next
        · trivial

/-- The kinds of tokens that end a phrase: behind an atom any, behind the others those that end a
row. -/
def Phrase.EndsAt : Phrase → Token.Kind → Prop
  | atom, _ => True
  | _, kind => kind = .endOfText ∨ kind = .closeParen ∨ kind = .dot

/-- Whether some tokens begin with a phrase and go on with a token that ends it. -/
def Phrase.Opens (phrase : Phrase) (tokens : List Token) (t : Term) (token : Token)
    (more : List Token) : Prop :=
  ∃ front, tokens = front ++ token :: more ∧ front ≠ [] ∧ Derives phrase (spelling front) t ∧
    phrase.EndsAt token.kind

section Levels

variable {phrase : Phrase} {depth : Nat} {cursor next : Cursor} {cs : List Char} {t : Term}
  {token : Token} {more : List Token}

theorem follows_iff (faces : cursor.Faces cs) :
    phrase.Follows cs ↔ phrase.EndsAt cursor.token.kind := by
  cases phrase with
  | atom => exact iff_of_true faces.readable trivial
  | term =>
    change Stops cs ↔ _
    rw [Stops, faces.firstKind_eq]
    simp [Phrase.EndsAt]
  | application =>
    change Stops cs ↔ _
    rw [Stops, faces.firstKind_eq]
    simp [Phrase.EndsAt]

/-- A level that succeeds has consumed a phrase. -/
theorem scan_consumes (faces : cursor.Faces cs) (read : phrase.scan depth cursor = .ok t next) :
    ∃ front rest, Consumes cursor front next ∧ front ≠ [] ∧ Derives phrase (spelling front) t ∧
      next.Faces rest ∧ cs = spelling front ++ rest ∧ phrase.EndsAt next.token.kind := by
  have yields := scan_yields depth phrase faces
  have steps := scan_steps depth phrase cursor
  rw [read] at yields steps
  obtain ⟨rest, ahead, front, split, derives, follows⟩ := yields
  obtain ⟨tokens, consumes⟩ := steps
  obtain ⟨rest', ahead', split', length⟩ := consumes.faces faces
  cases ahead.unique ahead'
  have same : front = spelling tokens := List.append_cancel_right (split.symm.trans split')
  subst same
  refine ⟨tokens, rest, consumes, ?_, derives, ahead, split, (follows_iff ahead).1 follows⟩
  rintro rfl
  exact absurd derives.length_pos (Nat.lt_irrefl 0)

theorem opens_of_scan (faces : cursor.Faces cs) (read : phrase.scan depth cursor = .ok t next) :
    ∃ more, next.drain.1 = next.token :: more ∧ phrase.Opens cursor.drain.1 t next.token more := by
  obtain ⟨front, rest, consumes, nonempty, derives, -, -, ends⟩ := scan_consumes faces read
  obtain ⟨more, left⟩ := exists_drain_eq next
  refine ⟨more, left, front, ?_, nonempty, derives, ends⟩
  rw [consumes.drain_eq, left]

theorem scan_of_opens (faces : cursor.Faces cs) (opens : phrase.Opens cursor.drain.1 t token more)
    (enough : 3 * cs.length ≤ depth) :
    ∃ next, phrase.scan depth cursor = .ok t next ∧ next.token = token ∧
      next.drain.1 = token :: more := by
  obtain ⟨front, drained, -, derives, ends⟩ := opens
  obtain ⟨last, consumes, rfl, left⟩ := consumes_of_drain drained
  obtain ⟨rest, ahead, rfl, length⟩ := consumes.faces faces
  have deep : 3 * (spelling front).length ≤ depth + phrase.spare := by
    rw [List.length_append] at enough
    omega
  obtain ⟨next, read, ahead'⟩ :=
    scans_of_derives derives deep cursor rest faces ((follows_iff ahead).2 ends)
  -- What was consumed is as long as `front`, so that it is `front`.
  obtain ⟨front', rest', consumes', -, -, ahead'', split, -⟩ := scan_consumes faces read
  obtain ⟨-, -, -, length'⟩ := consumes'.faces faces
  cases ahead'.unique ahead''
  have same := congrArg List.length (List.append_cancel_right split)
  have drained' := consumes'.drain_eq
  rw [drained] at drained'
  obtain ⟨-, behind⟩ := List.append_inj drained' (by omega)
  obtain ⟨more', left'⟩ := exists_drain_eq next
  rw [left', List.cons.injEq] at behind
  refine ⟨next, read, behind.1.symm, ?_⟩
  rw [left', behind.1, behind.2]

end Levels

/-! ## The loop over atoms -/

/-- The loop over the atoms of a row, with no bound on its turns: how many atoms it reads, and what
it comes to. -/
inductive AtomLoop (depth : Nat) :
    Nat → Term → Cursor → EStateM.Result SyntaxError Cursor Term → Prop
  | stop {function : Term} {cursor : Cursor} : Parser.atStop cursor = true →
    AtomLoop depth 0 function cursor (.ok function cursor)
  | fail {function : Term} {cursor next : Cursor} {error : SyntaxError} :
    Parser.atStop cursor = false → Parser.atom depth cursor = .error error next →
    AtomLoop depth 0 function cursor (.error error next)
  | turn {function argument : Term} {cursor next : Cursor} {turns : Nat}
      {outcome : EStateM.Result SyntaxError Cursor Term} :
    Parser.atStop cursor = false → Parser.atom depth cursor = .ok argument next →
    AtomLoop depth turns (.app function argument) next outcome →
    AtomLoop depth (turns + 1) function cursor outcome

/-- The loop ends, since every atom takes a token; the bound on its turns plays no part in it. -/
theorem atomLoop_ends (depth : Nat) {cursor : Cursor} {cs : List Char} (faces : cursor.Faces cs)
    (function : Term) {count : Nat} (enough : cs.length ≤ count) :
    ∃ turns < cursor.drain.1.length,
      AtomLoop depth turns function cursor
        (Parser.applyAtoms (Parser.atom depth) count function cursor) := by
  induction count generalizing function cursor cs with
  | zero =>
    have nothing := List.length_eq_zero_iff.1 (Nat.le_zero.1 enough)
    subst nothing
    exact ⟨0, cursor.length_drain_pos, .stop ((atStop_iff faces).2 (Or.inl rfl))⟩
  | succ count ih =>
    change ∃ turns < _, AtomLoop depth turns function cursor
      ((if Parser.atStop cursor = true then _ else _ : Scan Term) cursor)
    cases stop : Parser.atStop cursor with
    | true => exact ⟨0, cursor.length_drain_pos, .stop stop⟩
    | false =>
      rw [if_neg (by simp)]
      rcases read : Parser.atom depth cursor with ⟨argument, next⟩ | ⟨error, next⟩
      · obtain ⟨front, rest, consumes, nonempty, derives, ahead, rfl, -⟩ :=
          scan_consumes faces (show Phrase.atom.scan depth cursor = _ from read)
        have taken := derives.length_pos
        have consumed := List.length_pos_iff.2 nonempty
        rw [List.length_append] at enough
        obtain ⟨turns, fewer, loop⟩ := ih ahead (.app function argument) (by omega)
        rw [bind_ok read]
        refine ⟨turns + 1, ?_, .turn stop read loop⟩
        rw [consumes.drain_eq, List.length_append]
        omega
      · rw [bind_error read]
        exact ⟨0, cursor.length_drain_pos, .fail stop read⟩

end Grammar

open Cursor

/-- A level of the parser can be called on a cursor that anything was asked of before. If it
succeeds, the tokens that are left begin with a phrase of its level, at least one token long, and
the cursor stands behind it, on a token that ends it. If the tokens that are left begin in this way,
it succeeds with the term of the phrase and stands on that token, provided that calls may be nested
deeply enough, and if they do not then it fails, and not for want of nested calls. The loop over the
atoms of a row ends, after fewer turns than there are tokens left. -/
theorem scan_iff_opens {source : String} {first : Cursor} (started : start source = .ok first)
    (row : List Call) :
    let cursor := ((History.start first).calls row).cursor
    let tokens := cursor.drain.1
    (∀ (phrase : Phrase) depth t next, phrase.scan depth cursor = .ok t next →
        ∃ more, next.drain.1 = next.token :: more ∧ phrase.Opens tokens t next.token more) ∧
      (∀ (phrase : Phrase) depth, 3 * cursor.rest.length + 6 ≤ depth →
        (∀ t token more, phrase.Opens tokens t token more →
          ∃ next, phrase.scan depth cursor = .ok t next ∧ next.token = token ∧
            next.drain.1 = token :: more) ∧
          ((¬∃ t token more, phrase.Opens tokens t token more) →
            ∃ error next, phrase.scan depth cursor = .error error next ∧
              error.cause ≠ .nestedTooDeeply)) ∧
      ∀ depth function, ∃ turns < tokens.length,
        AtomLoop depth turns function cursor
          (Parser.applyAtoms (Parser.atom depth) (cursor.rest.length + 1) function cursor) := by
  intro cursor tokens
  obtain ⟨lossless, current⟩ := lossless_start started
  obtain ⟨lossless, current⟩ := lossless_calls lossless current row
  obtain ⟨cs, faces⟩ := lossless.faces current
  have short : cs.length ≤ cursor.rest.length + 1 := faces.length_le
  refine ⟨?_, ?_, ?_⟩
  · intro phrase depth t next
    exact opens_of_scan faces
  · intro phrase depth enough
    refine ⟨?_, ?_⟩
    · intro t token more opens
      exact scan_of_opens faces opens (by omega)
    · intro closed
      have yields := scan_yields depth phrase faces
      rcases outcome : phrase.scan depth cursor with ⟨t, next⟩ | ⟨error, next⟩
      · obtain ⟨more, -, opens⟩ := opens_of_scan faces outcome
        exact absurd ⟨t, next.token, more, opens⟩ closed
      · refine ⟨error, next, rfl, ?_⟩
        intro nested
        rw [outcome] at yields
        have shallow := yields nested
        omega
  · intro depth function
    exact atomLoop_ends depth faces function short

/-- A call for an identifier has failed at `#`, and the term is read from the letter in front of it
to the parenthesis that closes nothing; the `$` further on does not matter. In front of `$` no atom
is read. -/
theorem scan_iff_opens_between :
    let source := "f#(x y) z) . $"
    let first : Cursor :=
      ⟨source, 1, ['#', '(', 'x', ' ', 'y', ')', ' ', 'z', ')', ' ', '.', ' ', '$'],
        ⟨.identifier, "f", 0⟩⟩
    let cursor := ((History.start first).calls [.expect .identifier]).cursor
    let t := Term.app (.app (.var "f") (.app (.var "x") (.var "y"))) (.var "z")
    let lone : Cursor := ⟨"f $", 1, [' ', '$'], ⟨.identifier, "f", 0⟩⟩
    start source = .ok first ∧ cursor.token = first.token ∧ cursor.column = 2 ∧
      (∃ next, Phrase.term.scan 60 cursor = .ok t next ∧ next.token = ⟨.closeParen, ")", 9⟩ ∧
        Phrase.term.Opens cursor.drain.1 t ⟨.closeParen, ")", 9⟩ [⟨.dot, ".", 11⟩]) ∧
      start "f $" = .ok lone ∧ (¬∃ t token more, Phrase.atom.Opens lone.drain.1 t token more) ∧
      ∃ error next, Phrase.atom.scan 60 lone = .error error next ∧
        error.cause ≠ .nestedTooDeeply := by
  intro source first cursor t lone
  let behind : Cursor := ⟨source, 10, [' ', '.', ' ', '$'], ⟨.closeParen, ")", 9⟩⟩
  have started : start source = .ok first := by decide +kernel
  have read : Phrase.term.scan 60 cursor = .ok t behind := rfl
  have drained : behind.drain.1 = [⟨.closeParen, ")", 9⟩, ⟨.dot, ".", 11⟩] := by decide +kernel
  obtain ⟨opens, -, -⟩ := scan_iff_opens started [.expect .identifier]
  obtain ⟨more, left, opened⟩ := opens .term 60 t behind read
  rw [drained, List.cons.injEq] at left
  obtain ⟨-, rfl⟩ := left
  have lonely : start "f $" = .ok lone := by decide +kernel
  have failed : ∃ error next, Phrase.atom.scan 60 lone = .error error next := ⟨_, _, rfl⟩
  obtain ⟨-, reads, -⟩ := scan_iff_opens lonely []
  obtain ⟨succeeds, refuses⟩ := reads .atom 60 (by decide)
  have closed : ¬∃ t token more, Phrase.atom.Opens lone.drain.1 t token more := by
    rintro ⟨t, token, more, opened⟩
    obtain ⟨next, done, -⟩ := succeeds t token more opened
    obtain ⟨error, next', failed⟩ := failed
    cases failed.symm.trans done
  exact ⟨started, by decide +kernel, by decide +kernel, ⟨behind, read, rfl, opened⟩, lonely, closed,
    refuses closed⟩

end Redex
