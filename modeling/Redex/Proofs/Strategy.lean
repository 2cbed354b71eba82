import Redex.Term.Subst

/-!
# The order in which redexes are contracted

Reduction to normal form as single steps. A term is *weak* if it is a variable, an abstraction or
stuck: an application of a variable to weak terms. On a term that is not weak `weakStep?` works on
the function until it is weak, then on the argument, and then contracts. On a weak term `step?` goes
on inside: in the body of an abstraction, and in a stuck application in the function as long as it
holds a redex and then in the argument.

A step says which redex it contracts and hands the supply of names on. `weakStep?` stops exactly on
the weak terms and `step?` exactly on those without a redex (`weakStep?_eq_none_iff`,
`step?_eq_none_iff`), and a weak term stays weak (`isWeak_step?`).
-/

namespace Redex

namespace Term

def isAbs : Term → Bool
  | abs _ _ => true
  | _ => false

/-- Whether an abstraction is applied anywhere in a term. -/
def hasRedex : Term → Bool
  | var _ => false
  | abs _ body => body.hasRedex
  | app function argument => function.isAbs || function.hasRedex || argument.hasRedex

/-- Whether a term is a variable, an abstraction or stuck. -/
def isWeak : Term → Bool
  | var _ => true
  | abs _ _ => true
  | app function argument => function.isWeak && !function.isAbs && argument.isWeak

end Term

/-- One contraction: the redex, the whole term afterwards, and the supply afterwards. -/
structure Move where
  redex : Term
  result : Term
  supply : NameSupply
deriving DecidableEq, Repr

/-- The same contraction seen from outside, where the term is a part of a larger one. -/
def Move.within (context : Term → Term) (move : Move) : Move :=
  { move with result := context move.result }

/-- The contraction of `(λp. body) argument`. -/
def Move.contracting (p : Name) (body argument : Term) (supply : NameSupply) : Move :=
  let contractum := Term.subst p argument body supply
  ⟨.app (.abs p body) argument, contractum.1, contractum.2⟩

namespace Term

/-- The contraction of a whole application, if its function is an abstraction. -/
def contraction? : Term → Term → NameSupply → Option Move
  | abs p body, argument, supply => some (.contracting p body argument supply)
  | _, _, _ => none

/-- The step that brings a term closer to a weak one. -/
def weakStep? : Term → NameSupply → Option Move
  | var _, _ => none
  | abs _ _, _ => none
  | app function argument, supply =>
    if !function.isWeak then
      (function.weakStep? supply).map (Move.within fun function => app function argument)
    else if !argument.isWeak then
      (argument.weakStep? supply).map (Move.within fun argument => app function argument)
    else
      contraction? function argument supply

/-- The step that brings a term closer to its normal form. -/
def step? : Term → NameSupply → Option Move
  | var _, _ => none
  | abs p body, supply => (body.step? supply).map (Move.within fun body => abs p body)
  | app function argument, supply =>
    if !(app function argument).isWeak then
      (app function argument).weakStep? supply
    else if function.hasRedex then
      (function.step? supply).map (Move.within fun function => app function argument)
    else
      (argument.step? supply).map (Move.within fun argument => app function argument)

/-! ## Where the steps end -/

theorem isWeak_app {function argument : Term} :
    (app function argument).isWeak = true ↔
      function.isWeak = true ∧ function.isAbs = false ∧ argument.isWeak = true := by
  simp [isWeak, and_assoc]

theorem weakStep?_eq_none_iff (t : Term) (supply : NameSupply) :
    t.weakStep? supply = none ↔ t.isWeak = true := by
  induction t with
  | var x => simp [weakStep?, isWeak]
  | abs p body _ => simp [weakStep?, isWeak]
  | app function argument ihf iha =>
    rw [weakStep?, isWeak_app]
    cases weakFunction : function.isWeak with
    | false => simp [ihf, weakFunction]
    | true =>
      cases weakArgument : argument.isWeak with
      | false => simp [iha, weakArgument]
      | true => cases function <;> simp [contraction?, isAbs]

theorem hasRedex_of_not_isWeak {t : Term} (unfinished : t.isWeak = false) : t.hasRedex = true := by
  induction t with
  | var x => cases unfinished
  | abs p body _ => cases unfinished
  | app function argument ihf iha =>
    simp only [isWeak, Bool.and_eq_false_iff, Bool.not_eq_false'] at unfinished
    simp only [hasRedex, Bool.or_eq_true]
    rcases unfinished with (inFunction | isAbs) | inArgument
    · exact Or.inl (Or.inr (ihf inFunction))
    · exact Or.inl (Or.inl isAbs)
    · exact Or.inr (iha inArgument)

theorem step?_of_not_isWeak {t : Term} (unfinished : t.isWeak = false) (supply : NameSupply) :
    t.step? supply = t.weakStep? supply := by
  cases t with
  | var x => cases unfinished
  | abs p body => cases unfinished
  | app function argument => simp [step?, unfinished]

theorem step?_eq_none_iff (t : Term) (supply : NameSupply) :
    t.step? supply = none ↔ t.hasRedex = false := by
  induction t with
  | var x => simp [step?, hasRedex]
  | abs p body ih => simp [step?, hasRedex, ih]
  | app function argument ihf iha =>
    cases weak : (app function argument).isWeak with
    | false =>
      rw [step?_of_not_isWeak weak, weakStep?_eq_none_iff, weak, hasRedex_of_not_isWeak weak]
      simp
    | true =>
      obtain ⟨-, notAbs, -⟩ := isWeak_app.1 weak
      simp only [step?, weak, Bool.not_true, Bool.false_eq_true, ↓reduceIte, hasRedex, notAbs,
        Bool.false_or]
      cases inFunction : function.hasRedex with
      | false => simp [iha]
      | true => simp [ihf, inFunction]

theorem hasRedex_of_step? {t : Term} {supply : NameSupply} {move : Move}
    (stepped : t.step? supply = some move) : t.hasRedex = true := by
  rw [← Bool.not_eq_false, ← step?_eq_none_iff t supply, stepped]
  simp

theorem not_isWeak_of_weakStep? {t : Term} {supply : NameSupply} {move : Move}
    (stepped : t.weakStep? supply = some move) : t.isWeak = false := by
  rw [← Bool.not_eq_true, ← weakStep?_eq_none_iff t supply, stepped]
  simp

/-! ## Steps inside a larger term -/

theorem weakStep?_function {function : Term} {supply : NameSupply} {move : Move}
    (stepped : function.weakStep? supply = some move) (argument : Term) :
    (app function argument).weakStep? supply =
      some (move.within fun function => app function argument) := by
  simp [weakStep?, not_isWeak_of_weakStep? stepped, stepped]

theorem weakStep?_argument {function argument : Term} {supply : NameSupply} {move : Move}
    (weak : function.isWeak = true) (stepped : argument.weakStep? supply = some move) :
    (app function argument).weakStep? supply =
      some (move.within fun argument => app function argument) := by
  simp [weakStep?, weak, not_isWeak_of_weakStep? stepped, stepped]

theorem weakStep?_redex (p : Name) (body : Term) {argument : Term} (supply : NameSupply)
    (weak : argument.isWeak = true) :
    (app (abs p body) argument).weakStep? supply = some (.contracting p body argument supply) := by
  simp [weakStep?, isWeak, weak, contraction?]

theorem step?_of_weakStep? {t : Term} {supply : NameSupply} {move : Move}
    (stepped : t.weakStep? supply = some move) : t.step? supply = some move := by
  rw [step?_of_not_isWeak (not_isWeak_of_weakStep? stepped), stepped]

theorem step?_body {body : Term} {supply : NameSupply} {move : Move}
    (stepped : body.step? supply = some move) (p : Name) :
    (abs p body).step? supply = some (move.within fun body => abs p body) := by
  simp [step?, stepped]

theorem step?_stuckFunction {function argument : Term} {supply : NameSupply} {move : Move}
    (stuck : (app function argument).isWeak = true)
    (stepped : function.step? supply = some move) :
    (app function argument).step? supply =
      some (move.within fun function => app function argument) := by
  simp [step?, stuck, hasRedex_of_step? stepped, stepped]

theorem step?_stuckArgument {function argument : Term} {supply : NameSupply} {move : Move}
    (stuck : (app function argument).isWeak = true) (normal : function.hasRedex = false)
    (stepped : argument.step? supply = some move) :
    (app function argument).step? supply =
      some (move.within fun argument => app function argument) := by
  simp [step?, stuck, normal, stepped]

/-- What a step can do: it works on a part, or it contracts the whole term. -/
theorem weakStep?_cases {function argument : Term} {supply : NameSupply} {move : Move}
    (stepped : (app function argument).weakStep? supply = some move) :
    (∃ inner, function.weakStep? supply = some inner ∧
        move = inner.within fun function => app function argument) ∨
      (function.isWeak = true ∧ ∃ inner, argument.weakStep? supply = some inner ∧
        move = inner.within fun argument => app function argument) ∨
      (argument.isWeak = true ∧ ∃ p body, function = abs p body ∧
        move = .contracting p body argument supply) := by
  rw [weakStep?] at stepped
  cases weakFunction : function.isWeak with
  | false =>
    simp only [weakFunction, Bool.not_false, ↓reduceIte, Option.map_eq_some_iff] at stepped
    obtain ⟨inner, innerStepped, rfl⟩ := stepped
    exact Or.inl ⟨inner, innerStepped, rfl⟩
  | true =>
    cases weakArgument : argument.isWeak with
    | false =>
      simp only [weakFunction, weakArgument, Bool.not_true, Bool.not_false, Bool.false_eq_true,
        ↓reduceIte, Option.map_eq_some_iff] at stepped
      obtain ⟨inner, innerStepped, rfl⟩ := stepped
      exact Or.inr (Or.inl ⟨rfl, inner, innerStepped, rfl⟩)
    | true =>
      simp only [weakFunction, weakArgument, Bool.not_true, Bool.false_eq_true, ↓reduceIte]
        at stepped
      cases function with
      | abs p body =>
        exact Or.inr (Or.inr ⟨rfl, p, body, rfl, (Option.some.inj stepped).symm⟩)
      | var x => cases stepped
      | app function' argument' => cases stepped

theorem step?_cases {function argument : Term} {supply : NameSupply} {move : Move}
    (stepped : (app function argument).step? supply = some move) :
    (app function argument).weakStep? supply = some move ∨
      ((app function argument).isWeak = true ∧
        ((∃ inner, function.step? supply = some inner ∧
            move = inner.within fun function => app function argument) ∨
          (function.hasRedex = false ∧ ∃ inner, argument.step? supply = some inner ∧
            move = inner.within fun argument => app function argument))) := by
  cases weak : (app function argument).isWeak with
  | false =>
    rw [step?_of_not_isWeak weak] at stepped
    exact Or.inl stepped
  | true =>
    simp only [step?, weak, Bool.not_true, Bool.false_eq_true, ↓reduceIte] at stepped
    refine Or.inr ⟨rfl, ?_⟩
    cases inFunction : function.hasRedex with
    | true =>
      rw [inFunction, if_pos rfl] at stepped
      obtain ⟨inner, innerStepped, rfl⟩ := Option.map_eq_some_iff.1 stepped
      exact Or.inl ⟨inner, innerStepped, rfl⟩
    | false =>
      rw [inFunction, if_neg (by simp)] at stepped
      obtain ⟨inner, innerStepped, rfl⟩ := Option.map_eq_some_iff.1 stepped
      exact Or.inr ⟨rfl, inner, innerStepped, rfl⟩

/-- A step inside a weak term leaves it weak, and an abstraction exactly if it was one. -/
theorem isWeak_step? {t : Term} {supply : NameSupply} {move : Move} (weak : t.isWeak = true)
    (stepped : t.step? supply = some move) :
    move.result.isWeak = true ∧ move.result.isAbs = t.isAbs := by
  induction t generalizing move with
  | var x => cases stepped
  | abs p body _ =>
    obtain ⟨inner, _, rfl⟩ := Option.map_eq_some_iff.1 stepped
    exact ⟨rfl, rfl⟩
  | app function argument ihf iha =>
    obtain ⟨weakFunction, notAbs, weakArgument⟩ := isWeak_app.1 weak
    rcases step?_cases stepped with
      weakly | ⟨-, ⟨inner, innerStepped, rfl⟩ | ⟨-, inner, innerStepped, rfl⟩⟩
    · rw [not_isWeak_of_weakStep? weakly] at weak
      cases weak
    · obtain ⟨stays, same⟩ := ihf weakFunction innerStepped
      exact ⟨isWeak_app.2 ⟨stays, same.trans notAbs, weakArgument⟩, rfl⟩
    · obtain ⟨stays, -⟩ := iha weakArgument innerStepped
      exact ⟨isWeak_app.2 ⟨weakFunction, notAbs, stays⟩, rfl⟩

end Term

end Redex
