import Mathlib.Logic.Function.Iterate
import Redex.Proofs.Budget
import Redex.Proofs.Numerals
import Redex.Proofs.Reading

/-!
# Arithmetic on numerals

A numeral applied to a function and an argument iterates the function: in two steps `n f x` comes to
`f (f (… x))`, and with any weak term in the place of `x` to the iteration over that term. The
successor of a numeral and the sum of two are put together from such applications, so the number of
steps that they take does not depend on the numerals at all.

`Leads` says that so many steps lead from one term to another in every state. It composes, and it
passes from a part of a term to the whole, so that the evaluation of a term with numerals of any
size is followed from one named term to the next. None of the substitutions has to rename a binder:
numerals are closed, and the binders of `f` and `x` meet no variables but their own.
-/

namespace Redex

namespace Term

/-- The successor, `λn. λf. λx. f (n f x)`. -/
def successor : Term :=
  abs "n" (abs "f" (abs "x" (app (var "f") (app (app (var "n") (var "f")) (var "x")))))

/-- Addition, `λm. λn. λf. λx. m f (n f x)`. -/
def addition : Term :=
  abs "m" (abs "n" (abs "f" (abs "x"
    (app (app (var "m") (var "f")) (app (app (var "n") (var "f")) (var "x"))))))

/-! ## Iterated application -/

theorem iterated_eq_iterate (f x : Name) (n : Nat) :
    iterated f x n = (app (var f))^[n] (var x) := by
  induction n with
  | zero => rfl
  | succ n ih => rw [iterated, ih, Function.iterate_succ_apply']

theorem iterate_iterated (f x : Name) (m n : Nat) :
    (app (var f))^[m] (iterated f x n) = iterated f x (m + n) := by
  rw [iterated_eq_iterate, iterated_eq_iterate, ← Function.iterate_add_apply]

theorem isWeak_iterated (f x : Name) (n : Nat) : (iterated f x n).isWeak = true := by
  induction n with
  | zero => rfl
  | succ n ih => exact isWeak_app.2 ⟨rfl, rfl, ih⟩

theorem hasRedex_iterated (f x : Name) (n : Nat) : (iterated f x n).hasRedex = false := by
  induction n with
  | zero => rfl
  | succ n ih => simp [iterated, hasRedex, isAbs, ih]

theorem occursFree_iterated {f x y : Name} (notF : f ≠ y) (notX : x ≠ y) (n : Nat) :
    (iterated f x n).occursFree y = false := by
  induction n with
  | zero => simp [iterated, occursFree, notX]
  | succ n ih => simp [iterated, occursFree, notF, ih]

theorem occursFree_numeral (y : Name) (n : Nat) : (numeral n).occursFree y = false := by
  by_cases outer : "f" = y
  · simp [numeral, occursFree, outer]
  · by_cases inner : "x" = y
    · simp [numeral, occursFree, inner]
    · simp [numeral, occursFree, occursFree_iterated outer inner]

/-- A term in the place of the argument is what the function is iterated over. -/
theorem subst_iterated_argument {f x : Name} (apart : f ≠ x) (r : Term) (n : Nat)
    (supply : NameSupply) :
    subst x r (iterated f x n) supply = ((app (var f))^[n] r, supply) := by
  induction n with
  | zero => simp [iterated, subst_var]
  | succ n ih => simp [iterated, subst_app, subst_var, apart, ih, Function.iterate_succ_apply']

theorem subst_iterated_function {f x : Name} (apart : f ≠ x) (g : Name) (n : Nat)
    (supply : NameSupply) :
    subst f (var g) (iterated f x n) supply = (iterated g x n, supply) := by
  induction n with
  | zero => simp [iterated, subst_var, Ne.symm apart]
  | succ n ih => simp [iterated, subst_app, subst_var, ih]

/-- Nothing is replaced in a numeral, and nothing is renamed for a closed term. -/
theorem subst_numeral {p : Name} {r : Term} (notF : "f" ≠ p) (notX : "x" ≠ p)
    (closed : ∀ x, r.occursFree x = false) (n : Nat) (supply : NameSupply) :
    subst p r (numeral n) supply = (numeral n, supply) := by
  have body : subst p r (iterated "f" "x" n) supply = (iterated "f" "x" n, supply) := by
    induction n with
    | zero => simp [iterated, subst_var, notX]
    | succ n ih => simp [iterated, subst_app, subst_var, notF, ih]
  rw [numeral, subst_abs_of_not_free notF (closed "f"), subst_abs_of_not_free notX (closed "x"),
    body]

theorem number?_numeral (n : Nat) : (numeral n).number? = some n :=
  (number?_eq_some_iff (numeral n) n).2 (nameless_numeral n)

end Term

namespace Eval

/-! ## Steps in every state -/

/-- Whether `k` steps lead from a term to another, in every state and under every budget that
affords them. -/
def Leads (step : Stepper) (k : Nat) (t u : Term) : Prop :=
  ∀ (budget : Int) (traced : Bool) (run : Run), (run.count : Int) + k ≤ budget →
    ∃ redexes run', Walk budget traced step t run redexes u run' ∧ redexes.length = k

section Leads

variable {step step' : Stepper} {j k : Nat} {t u v function argument : Term}

theorem Leads.single (steps : ∀ supply, ∃ move, step t supply = some move ∧ move.result = u) :
    Leads step 1 t u := by
  intro budget traced run afforded
  obtain ⟨move, stepped, rfl⟩ := steps run.names
  exact ⟨[move.redex], _, .move stepped (by omega) (.stay _ _), rfl⟩

theorem Leads.trans (first : Leads step j t u) (second : Leads step k u v) :
    Leads step (j + k) t v := by
  intro budget traced run afforded
  obtain ⟨redexes, run₁, walk, length⟩ := first budget traced run (by omega)
  have count := walk.count_eq
  obtain ⟨redexes', run₂, walk', length'⟩ := second budget traced run₁ (by omega)
  refine ⟨redexes ++ redexes', run₂, walk.trans walk', ?_⟩
  rw [List.length_append, length, length']

theorem Leads.lift {context : Term → Term}
    (lift : ∀ {t supply move}, step t supply = some move →
      step' (context t) supply = some (move.within context))
    (leads : Leads step k t u) : Leads step' k (context t) (context u) := by
  intro budget traced run afforded
  obtain ⟨redexes, run', walk, length⟩ := leads budget traced run afforded
  exact ⟨redexes, run', walk.lift lift, length⟩

theorem Leads.inFunction (leads : Leads Term.weakStep? k t u) (argument : Term) :
    Leads Term.weakStep? k (.app t argument) (.app u argument) :=
  leads.lift fun stepped => Term.weakStep?_function stepped argument

theorem Leads.inArgument (weak : function.isWeak = true) (leads : Leads Term.weakStep? k t u) :
    Leads Term.weakStep? k (.app function t) (.app function u) :=
  leads.lift fun stepped => Term.weakStep?_argument weak stepped

theorem Leads.ofWeak (leads : Leads Term.weakStep? k t u) : Leads Term.step? k t u :=
  leads.lift Term.step?_of_weakStep?

theorem Leads.inBody (p : Name) (leads : Leads Term.step? k t u) :
    Leads Term.step? k (.abs p t) (.abs p u) :=
  leads.lift fun stepped => Term.step?_body stepped p

/-- A redex is contracted in one step. -/
theorem leads_contract {p : Name} {body : Term} (weak : argument.isWeak = true)
    (contracts : ∀ supply, Term.subst p argument body supply = (u, supply)) :
    Leads Term.weakStep? 1 (.app (.abs p body) argument) u := by
  apply Leads.single
  intro supply
  refine ⟨_, Term.weakStep?_redex p body supply weak, ?_⟩
  simp only [Move.contracting, contracts]

end Leads

/-! ## Numerals at work -/

/-- Applied to a function, a numeral leaves the iteration of it. -/
theorem leads_function (n : Nat) :
    Leads Term.weakStep? 1 (.app (.numeral n) (.var "f")) (.abs "x" (.iterated "f" "x" n)) := by
  apply leads_contract rfl
  intro supply
  rw [Term.subst_abs_of_not_free (by decide) (by decide),
    Term.subst_iterated_function (by decide)]

/-- The iteration of a function is applied to a term as it is, be it a value or stuck. -/
theorem leads_iteration {argument : Term} (weak : argument.isWeak = true) (n : Nat) :
    Leads Term.weakStep? 1 (.app (.abs "x" (.iterated "f" "x" n)) argument)
      ((Term.app (.var "f"))^[n] argument) :=
  leads_contract weak fun supply => Term.subst_iterated_argument (by decide) argument n supply

theorem leads_applied (n : Nat) :
    Leads Term.weakStep? 2 (.app (.app (.numeral n) (.var "f")) (.var "x"))
      (.iterated "f" "x" n) := by
  have weak : (Term.var "x").isWeak = true := rfl
  have iteration := leads_iteration weak n
  rw [← Term.iterated_eq_iterate] at iteration
  exact ((leads_function n).inFunction (.var "x")).trans iteration

/-- The numeral takes the place of `n`, and then it is applied. -/
theorem leads_successor (n : Nat) :
    Leads Term.step? 3 (.app .successor (.numeral n)) (.numeral (n + 1)) := by
  let applied := Term.app (.app (.numeral n) (.var "f")) (.var "x")
  have opened : Leads Term.weakStep? 1 (.app .successor (.numeral n))
      (.abs "f" (.abs "x" (.app (.var "f") applied))) := by
    apply leads_contract rfl
    intro supply
    simp [Term.subst_abs_of_not_free, Term.subst_app, Term.subst_var, Term.occursFree_numeral,
      applied]
  have inside : Leads Term.weakStep? 2 (.app (.var "f") applied) (.iterated "f" "x" (n + 1)) :=
    (leads_applied n).inArgument rfl
  exact opened.ofWeak.trans ((inside.ofWeak.inBody "x").inBody "f")

/-- The numerals take the places of `m` and `n`. Then `n f x` is worked out, which is stuck unless
`n` is zero, and what `m f` has come to is applied to it. -/
theorem leads_addition (m n : Nat) :
    Leads Term.step? 6 (.app (.app .addition (.numeral m)) (.numeral n)) (.numeral (m + n)) := by
  let applied (number : Term) := Term.app (.app number (.var "f")) (.var "x")
  let left := Term.app (.numeral m) (.var "f")
  have openedLeft : Leads Term.weakStep? 1 (.app .addition (.numeral m))
      (.abs "n" (.abs "f" (.abs "x" (.app left (applied (.var "n")))))) := by
    apply leads_contract rfl
    intro supply
    simp [Term.subst_abs_of_not_free, Term.subst_app, Term.subst_var, Term.occursFree_numeral,
      left, applied]
  have openedRight : Leads Term.weakStep? 1
      (.app (.abs "n" (.abs "f" (.abs "x" (.app left (applied (.var "n")))))) (.numeral n))
      (.abs "f" (.abs "x" (.app left (applied (.numeral n))))) := by
    apply leads_contract rfl
    intro supply
    simp [Term.subst_abs_of_not_free, Term.subst_app, Term.subst_var, Term.occursFree_numeral,
      Term.subst_numeral, left, applied]
  have inside : Leads Term.weakStep? 4 (.app left (applied (.numeral n)))
      (.iterated "f" "x" (m + n)) := by
    have iteration := leads_iteration (Term.isWeak_iterated "f" "x" n) m
    rw [Term.iterate_iterated] at iteration
    exact (((leads_function m).inFunction _).trans ((leads_applied n).inArgument rfl)).trans
      iteration
  have opened := (openedLeft.inFunction (.numeral n)).trans openedRight
  exact opened.ofWeak.trans ((inside.ofWeak.inBody "x").inBody "f")

/-! ## Evaluating an arithmetic term -/

/-- Whether a term comes to a number, in exactly so many steps. With enough nested calls its
evaluation succeeds if and only if the limit allows them; the result then stands for the number, and
otherwise the limit is met. -/
def Computes (t : Term) (steps value : Nat) : Prop :=
  ∀ traced : Bool, ∃ enough, ∀ depth, enough ≤ depth → ∀ maxSteps : Int,
    ((∃ result run, evaluate ⟨maxSteps, traced, depth⟩ t = .ok result run) ↔ steps ≤ maxSteps) ∧
      (∀ result run, evaluate ⟨maxSteps, traced, depth⟩ t = .ok result run →
        result.number? = some value ∧ run.count = steps) ∧
      (maxSteps < steps → ∃ run, evaluate ⟨maxSteps, traced, depth⟩ t = .error .stepLimit run)

/-- The steps that lead to a term without a redex are those of the evaluation. -/
theorem evaluate_of_leads {k : Nat} {t u : Term} (leads : Leads Term.step? k t u)
    (normal : u.hasRedex = false) (traced : Bool) :
    ∃ enough, ∀ depth, enough ≤ depth →
      ∃ run, evaluate ⟨k, traced, depth⟩ t = .ok u run ∧ run.count = k := by
  obtain ⟨enough, settles⟩ := exists_settled k traced t
  refine ⟨enough, ?_⟩
  intro depth deep
  obtain ⟨redexes, last, walk, length⟩ := leads k traced {} (by simp)
  have stuck := (Term.step?_eq_none_iff u last.names).2 normal
  obtain ⟨redexes', u', last', walk', halted, outcome⟩ := evaluate_halts (settles depth deep)
  obtain ⟨-, rfl, rfl⟩ := Walk.unique walk walk' (Or.inl stuck) halted
  rcases outcome with ⟨-, done⟩ | ⟨unfinished, -⟩
  · refine ⟨_, done, ?_⟩
    rw [count_conclude, walk.count_of_fresh, length]
  · rw [normal] at unfinished
    cases unfinished

theorem computes_of_leads {k value : Nat} {t u : Term} (leads : Leads Term.step? k t u)
    (normal : u.hasRedex = false) (stepped : 0 < k) (number : u.number? = some value) :
    Computes t k value := by
  intro traced
  obtain ⟨enough, evaluates⟩ := evaluate_of_leads leads normal traced
  refine ⟨enough, ?_⟩
  intro depth deep maxSteps
  -- The evaluation under a budget of just these steps decides what happens under every other.
  obtain ⟨run, done, rfl⟩ := evaluates depth deep
  have succeeds (afforded : (run.count : Int) ≤ maxSteps) :
      evaluate ⟨maxSteps, traced, depth⟩ t = .ok u run :=
    evaluate_of_afforded done (Or.inl afforded)
  have fails (short : maxSteps < run.count) :
      ∃ last, evaluate ⟨maxSteps, traced, depth⟩ t = .error .stepLimit last := by
    obtain ⟨⟨last, limited, -⟩, -⟩ := cutShort_of_ok done short stepped
    exact ⟨last, limited⟩
  have afforded_of_ok {result : Term} {run' : Run}
      (done' : evaluate ⟨maxSteps, traced, depth⟩ t = .ok result run') :
      (run.count : Int) ≤ maxSteps := by
    refine Int.not_lt.1 fun short => ?_
    obtain ⟨last, limited⟩ := fails short
    cases limited.symm.trans done'
  refine ⟨⟨?_, ?_⟩, ?_, fails⟩
  · intro found
    obtain ⟨result, run', done'⟩ := found
    exact afforded_of_ok done'
  · intro afforded
    exact ⟨u, run, succeeds afforded⟩
  · intro result run' done'
    cases (succeeds (afforded_of_ok done')).symm.trans done'
    exact ⟨number, rfl⟩

/-- Arithmetic works for all numerals. The texts of the successor and of addition are read as these
terms. The successor of every numeral is computed in three steps and the sum of any two in six,
however large they are: with fewer steps the limit is met, and with more nothing changes. -/
theorem evaluate_arithmetic :
    (∀ nesting, 69 ≤ nesting →
        parse nesting "\\n.\\f.\\x.f (n f x)" = .ok .successor ∧
          parse nesting "\\m.\\n.\\f.\\x.m f (n f x)" = .ok .addition) ∧
      (∀ n, Computes (.app .successor (.numeral n)) 3 (n + 1)) ∧
      ∀ m n, Computes (.app (.app .addition (.numeral m)) (.numeral n)) 6 (m + n) := by
  refine ⟨?_, ?_, ?_⟩
  · intro nesting deep
    have successor : parse 69 "\\n.\\f.\\x.f (n f x)" = .ok .successor := by decide +kernel
    have addition : parse 69 "\\m.\\n.\\f.\\x.m f (n f x)" = .ok .addition := by decide +kernel
    exact ⟨parse_of_spells (spells_of_parse successor) (Nat.le_trans (by decide) deep),
      parse_of_spells (spells_of_parse addition) deep⟩
  · intro n
    exact computes_of_leads (leads_successor n) (Term.hasRedex_iterated ..) (by decide)
      (Term.number?_numeral (n + 1))
  · intro m n
    exact computes_of_leads (leads_addition m n) (Term.hasRedex_iterated ..) (by decide)
      (Term.number?_numeral (m + n))

/-- Of `2 + 0` the second part comes to a variable and of `0 + 2` to a stuck term; six steps are
taken for either, and five are too few. -/
theorem evaluate_arithmetic_zero :
    let right := Term.app (.app .addition (.numeral 2)) (.numeral 0)
    let left := Term.app (.app .addition (.numeral 0)) (.numeral 2)
    parse 69 "\\m.\\n.\\f.\\x.m f (n f x)" = .ok .addition ∧
      Computes right 6 2 ∧ Computes left 6 2 ∧ Computes (.app .successor (.numeral 0)) 3 1 ∧
      evaluate ⟨6, false, 40⟩ right = .ok (.numeral 2) ⟨⟨[]⟩, 6, #[]⟩ ∧
      evaluate ⟨6, false, 40⟩ left = .ok (.numeral 2) ⟨⟨[]⟩, 6, #[]⟩ ∧
      evaluate ⟨5, false, 40⟩ left = .error .stepLimit ⟨⟨[]⟩, 5, #[]⟩ := by
  intro right left
  obtain ⟨reads, successors, sums⟩ := evaluate_arithmetic
  exact ⟨(reads 69 (Nat.le_refl 69)).2, sums 2 0, sums 0 2, successors 0, by decide +kernel,
    by decide +kernel, by decide +kernel⟩

end Eval

end Redex
