/-!
# Terms of the untyped λ-calculus

A term is a variable, an abstraction or an application, with arbitrary texts as names. This module
holds the type, its measures and the free variables, which are given twice: `freeVars` lists them
and `occursFree` decides one of them without building the list.
-/

namespace Redex

/-- The name of a variable or a parameter. -/
abbrev Name := String

/-- A λ-term. -/
inductive Term where
  | var (name : Name)
  | abs (parameter : Name) (body : Term)
  | app (function argument : Term)
deriving DecidableEq, Repr, Inhabited

namespace Term

/-- The number of nodes on the longest path down from the root. -/
def height : Term → Nat
  | var _ => 1
  | abs _ body => body.height + 1
  | app function argument => max function.height argument.height + 1

/-- The number of nodes. -/
def size : Term → Nat
  | var _ => 1
  | abs _ body => body.size + 1
  | app function argument => function.size + argument.size + 1

/-- Variables and abstractions are values; applications never are. -/
def isValue : Term → Bool
  | app _ _ => false
  | _ => true

/-- The terms directly under the root, in order. -/
def children : Term → List Term
  | var _ => []
  | abs _ body => [body]
  | app function argument => [function, argument]

/-- Whether a name occurs with no enclosing binder of that name. -/
def occursFree (x : Name) : Term → Bool
  | var y => y == x
  | abs p body => p != x && body.occursFree x
  | app function argument => function.occursFree x || argument.occursFree x

/-- The names that occur with no enclosing binder, each once. -/
def freeVars : Term → List Name
  | var x => [x]
  | abs p body => body.freeVars.filter (· != p)
  | app function argument =>
    function.freeVars ++ argument.freeVars.filter (!function.occursFree ·)

/-- Every name of a term, free, bound or binding, in order of occurrence. -/
def names : Term → List Name
  | var x => [x]
  | abs p body => p :: body.names
  | app function argument => function.names ++ argument.names

theorem height_pos (t : Term) : 0 < t.height := by
  cases t <;> simp [height]

/-- The list of free variables and the test for one of them agree. -/
@[simp] theorem mem_freeVars {x : Name} {t : Term} : x ∈ t.freeVars ↔ t.occursFree x = true := by
  induction t with
  | var y =>
    simp only [freeVars, occursFree, List.mem_singleton, beq_iff_eq]
    exact eq_comm
  | abs p body ih =>
    simp only [freeVars, occursFree, List.mem_filter, ih, bne_iff_ne, ne_eq, Bool.and_eq_true]
    grind
  | app function argument ihf iha =>
    simp only [freeVars, occursFree, List.mem_append, List.mem_filter, ihf, iha, Bool.or_eq_true]
    grind

/-- A name is in the list of free variables exactly if it occurs free. -/
theorem contains_freeVars (t : Term) (x : Name) : t.freeVars.contains x = t.occursFree x := by
  rw [Bool.eq_iff_iff, List.contains_iff_mem]
  exact mem_freeVars

end Term

end Redex
