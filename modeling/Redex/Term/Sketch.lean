import Redex.Failure
import Redex.Term.Alpha
import Redex.Term.Numeral
import Redex.Term.Subst

/-!
# Terms with missing parts

A sketch is a term in which parts may be missing. Questions that do not need a missing part are
answered as for terms; those that reach one fail. Every function takes the number of calls that may
be nested. A sketch in which nothing is missing is a term, and `toTerm?` gives it; with enough calls
allowed, the answers are then those for the term: `freeVars_ofTerm`, `alphaEqUnder_ofTerm`,
`subst_ofTerm`.
-/

namespace Redex

/-- A term with missing parts. -/
inductive Sketch where
  | missing
  | var (name : Name)
  | abs (parameter : Name) (body : Sketch)
  | app (function argument : Sketch)
deriving DecidableEq, Repr, Inhabited

namespace Sketch

/-- A term, as a sketch. -/
def ofTerm : Term → Sketch
  | .var x => var x
  | .abs p body => abs p (ofTerm body)
  | .app function argument => app (ofTerm function) (ofTerm argument)

/-- The term that a sketch is, if nothing is missing. -/
def toTerm? : Sketch → Option Term
  | missing => none
  | var x => some (.var x)
  | abs p body => do return .abs p (← body.toTerm?)
  | app function argument => do return .app (← function.toTerm?) (← argument.toTerm?)

/-- A term with nothing missing is itself. -/
@[simp] theorem toTerm?_ofTerm (t : Term) : (ofTerm t).toTerm? = some t := by
  induction t with
  | var x => rfl
  | abs p body ih => simp [ofTerm, toTerm?, ih]
  | app function argument ihf iha => simp [ofTerm, toTerm?, ihf, iha]

/-- Variables and abstractions are values, whatever is missing below them. -/
def isValue : Sketch → Bool
  | var _ => true
  | abs _ _ => true
  | _ => false

/-- The number that a sketch stands for; none if a part of the numeral is missing. -/
def number? (s : Sketch) : Option Nat := s.toTerm?.bind Term.number?

/-- The free variables of a sketch, each once. -/
def freeVars : Nat → Sketch → Except Failure (List Name)
  | 0, _ => .error .tooDeep
  | _, missing => .error (.internal .notATerm)
  | _, var x => .ok [x]
  | depth + 1, abs p body => do
    let names ← freeVars depth body
    return names.filter (· != p)
  | depth + 1, app function argument => do
    let left ← freeVars depth function
    let right ← freeVars depth argument
    return left ++ right.filter (!left.contains ·)

/-- Whether two sketches under the given pairs of binders differ in bound names only. A missing part
equals nothing, not even another missing part. -/
def alphaEqUnder : Nat → List (Name × Name) → Sketch → Sketch → Except Failure Bool
  | 0, _, _, _ => .error .tooDeep
  | _, pairs, var x, var y => .ok (Term.sameVar pairs x y)
  | depth + 1, pairs, abs p body, abs q body' => alphaEqUnder depth ((p, q) :: pairs) body body'
  | depth + 1, pairs, app function argument, app function' argument' => do
    if ← alphaEqUnder depth pairs function function' then
      alphaEqUnder depth pairs argument argument'
    else
      return false
  | _, _, _, _ => .ok false

/-- Whether two sketches differ in bound names only. -/
def alphaEq (depth : Nat) (s t : Sketch) : Except Failure Bool := alphaEqUnder depth [] s t

/-- Replaces the free occurrences of `p` by `r` without capture, as for terms. The names that were
drawn before a failure stay in use. -/
def subst : Nat → Name → Sketch → Sketch → EStateM Failure NameSupply Sketch
  | 0, _, _, _ => throw .tooDeep
  | _, _, _, missing => throw (.internal .notATerm)
  | _, p, r, var x => return if x = p then r else var x
  | depth + 1, p, r, app function argument => do
    let function ← subst depth p r function
    let argument ← subst depth p r argument
    return app function argument
  | depth + 1, p, r, abs q body => do
    if q = p then
      return abs q body
    else
      match freeVars depth r with
      | .error failure => throw failure
      | .ok names =>
        if names.contains q then
          let name ← modifyGet (NameSupply.fresh · q)
          let body ← subst depth q (var name) body
          let body ← subst depth p r body
          return abs name body
        else
          let body ← subst depth p r body
          return abs q body

/-! ## Sketches with nothing missing -/

/-- The free variables of a term are those of its sketch. -/
theorem freeVars_ofTerm (t : Term) (depth : Nat) (fits : t.height ≤ depth) :
    freeVars depth (ofTerm t) = .ok t.freeVars := by
  induction t generalizing depth with
  | var x =>
    obtain _ | depth := depth
    · simp [Term.height] at fits
    · rfl
  | abs p body ih =>
    obtain _ | depth := depth
    · simp [Term.height] at fits
    · simp only [Term.height] at fits
      simp only [ofTerm, freeVars, ih depth (by omega), Term.freeVars]
      rfl
  | app function argument ihf iha =>
    obtain _ | depth := depth
    · simp [Term.height] at fits
    · simp only [Term.height] at fits
      simp only [ofTerm, freeVars, ihf depth (by omega), iha depth (by omega), Term.freeVars]
      simp only [← Term.contains_freeVars]
      rfl

/-- Two terms differ in bound names only exactly if their sketches do. -/
theorem alphaEqUnder_ofTerm (t u : Term) (pairs : List (Name × Name)) (depth : Nat)
    (fits : t.height ≤ depth) :
    alphaEqUnder depth pairs (ofTerm t) (ofTerm u) = .ok (Term.alphaEqUnder pairs t u) := by
  induction t generalizing u pairs depth with
  | var x =>
    obtain _ | depth := depth
    · simp [Term.height] at fits
    · cases u <;> rfl
  | abs p body ih =>
    obtain _ | depth := depth
    · simp [Term.height] at fits
    · simp only [Term.height] at fits
      cases u with
      | abs q body' => exact ih body' ((p, q) :: pairs) depth (by omega)
      | var y => rfl
      | app function argument => rfl
  | app function argument ihf iha =>
    obtain _ | depth := depth
    · simp [Term.height] at fits
    · simp only [Term.height] at fits
      cases u with
      | abs q body' => rfl
      | var y => rfl
      | app function' argument' =>
        simp only [ofTerm, alphaEqUnder, ihf function' pairs depth (by omega),
          iha argument' pairs depth (by omega), Term.alphaEqUnder]
        cases Term.alphaEqUnder pairs function function' <;> rfl

/-- Substitution in a term is substitution in its sketch. -/
theorem subst_ofTerm (depth : Nat) (p : Name) (r t : Term) (supply : NameSupply)
    (fits : t.height + r.height ≤ depth) :
    subst depth p (ofTerm r) (ofTerm t) supply =
      .ok (ofTerm (Term.subst p r t supply).1) (Term.subst p r t supply).2 := by
  induction depth generalizing p r t supply with
  | zero =>
    have positive := t.height_pos
    omega
  | succ depth ih =>
    have bottom := r.height_pos
    cases t with
    | var x =>
      simp only [ofTerm, subst, Term.subst_var]
      split <;> rfl
    | app function argument =>
      simp only [Term.height] at fits
      have left := ih p r function supply (by omega)
      have right := ih p r argument (Term.subst p r function supply).2 (by omega)
      simp only [ofTerm, subst, bind, EStateM.bind, left, right, Term.subst_app]
      rfl
    | abs q body =>
      simp only [Term.height] at fits
      have names := freeVars_ofTerm r depth (by omega)
      simp only [ofTerm, subst]
      split
      · next same =>
        subst same
        rw [Term.subst_abs_self]
        rfl
      · next other =>
        simp only [names, Term.contains_freeVars]
        split
        · next captured =>
          let name := supply.fresh q
          let inner := Term.subst q (.var name.1) body name.2
          have kept : inner.1.height = body.height := Term.height_subst_var ..
          have renamed : subst depth q (var name.1) (ofTerm body) name.2 =
              .ok (ofTerm inner.1) inner.2 :=
            ih q (.var name.1) body name.2 (by simp only [Term.height]; omega)
          have replaced := ih p r inner.1 inner.2 (by omega)
          rw [Term.subst_abs_of_free other captured]
          change (do
            let body ← subst depth q (var name.1) (ofTerm body)
            let body ← subst depth p (ofTerm r) body
            return abs name.1 body : EStateM Failure NameSupply Sketch) name.2 = _
          simp only [bind, EStateM.bind, renamed, replaced]
          rfl
        · next safe =>
          have replaced := ih p r body supply (by omega)
          rw [Term.subst_abs_of_not_free other (by simpa using safe)]
          simp only [bind, EStateM.bind, replaced]
          rfl

end Sketch

end Redex
