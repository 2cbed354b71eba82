import Redex.Term.Basic
import Redex.Text.Quoted
import Redex.Text.Slice

/-!
# Written forms of a term

Three forms are written: `render` is the term itself, fully parenthesised; `constructorForm` spells
out how it is built, node by node; `tree` lays its nodes out over indented lines. All three follow
the term, so each has a cost in nested calls that grows with its height: `renderDepth`.

The tree can also be put together from the children of each node, with a comma behind every one of
them and the last comma cut off: `displayAt`. That gives the same text (`displayAt_eq`).
-/

namespace Redex.Term

/-! ## The parenthesised form -/

/-- The text form of a term. An abstraction is parenthesised always, an application where it is
part of another term. -/
def render : Term → String
  | var x => x
  | abs p body => "(λ" ++ p ++ ". " ++ wrap body (render body) ++ ")"
  | app function argument =>
    wrap function (render function) ++ " " ++ wrap argument (render argument)
where
  /-- The text of a term inside a larger one. -/
  wrap (t : Term) (text : String) : String :=
    match t with
    | app _ _ => "(" ++ text ++ ")"
    | _ => text

theorem toList_render_abs (p : Name) (body : Term) :
    (abs p body).render.toList =
      '(' :: 'λ' :: (p.toList ++
        '.' :: ' ' :: ((render.wrap body body.render).toList ++ [')'])) := by
  simp [render]

theorem toList_render_app (function argument : Term) :
    (app function argument).render.toList =
      (render.wrap function function.render).toList ++
        ' ' :: (render.wrap argument argument.render).toList := by
  simp [render]

/-- The calls that writing a term nests: two for every level. -/
def renderDepth (t : Term) : Nat := 2 * t.height

/-! ## The constructor form -/

/-- The word for the kind of a node. -/
def kindName : Term → String
  | var _ => "Identifier"
  | abs _ _ => "Abstraction"
  | app _ _ => "Application"

/-- The text that builds a term from its constructors, with quoted names. -/
def constructorForm : Term → String
  | var x => "Identifier(name=" ++ Text.quoted x ++ ")"
  | abs p body =>
    "Abstraction(parameter=" ++ Text.quoted p ++ ", body=" ++ constructorForm body ++ ")"
  | app function argument =>
    "Application(function=" ++ constructorForm function ++ ", argument=" ++
      constructorForm argument ++ ")"

/-! ## The tree form -/

/-- The blanks in front of a line at a depth: four for each level. -/
def indentation (depth : Nat) : String := String.ofList (List.replicate (4 * depth) ' ')

/-- What a node's first line says: its kind, its text form and, for an abstraction, its
parameter. -/
def heading (t : Term) : String :=
  match t with
  | abs p _ => t.kindName ++ "('" ++ t.render ++ "', parameter='" ++ p ++ "'"
  | _ => t.kindName ++ "('" ++ t.render ++ "'"

/-- The nodes of a term over indented lines, each under its parent. -/
def treeAt (depth : Nat) (t : Term) : String :=
  match t with
  | var _ => indentation depth ++ t.heading ++ ")"
  | abs _ body =>
    indentation depth ++ t.heading ++ ", nodes=[\n" ++ treeAt (depth + 1) body ++ "\n" ++
      indentation depth ++ "])"
  | app function argument =>
    indentation depth ++ t.heading ++ ", nodes=[\n" ++ treeAt (depth + 1) function ++ ",\n" ++
      treeAt (depth + 1) argument ++ "\n" ++ indentation depth ++ "])"

/-- The tree of a whole term. -/
def tree (t : Term) : String := t.treeAt 0

/-- A text with the lines of one more child, and a comma behind it. -/
def withChild (text child : String) : String := text ++ "\n" ++ child ++ ","

/-- The lines of a node around those of its children. There is a comma behind every child until the
last one is cut off. -/
def displayAround (depth : Nat) (t : Term) (children : List String) : String :=
  let opened := indentation depth ++ t.heading
  if children.isEmpty then
    opened ++ ")"
  else
    Text.before (children.foldl withChild (opened ++ ", nodes=[")) (-1) ++
      ("\n" ++ indentation depth ++ "]") ++ ")"

/-- The nodes of a term over indented lines, put together from those of the children. -/
def displayAt (depth : Nat) (t : Term) : String :=
  match t with
  | var _ => displayAround depth t []
  | abs _ body => displayAround depth t [displayAt (depth + 1) body]
  | app function argument =>
    displayAround depth t [displayAt (depth + 1) function, displayAt (depth + 1) argument]

/-- Only the last child is left without a comma. -/
theorem displayAround_concat (depth : Nat) (t : Term) (children : List String) (last : String) :
    displayAround depth t (children ++ [last]) =
      children.foldl withChild (indentation depth ++ t.heading ++ ", nodes=[") ++ "\n" ++ last ++
        ("\n" ++ indentation depth ++ "]") ++ ")" := by
  have filled : ¬(children ++ [last]).isEmpty = true := by simp
  rw [displayAround, if_neg filled, List.foldl_append, List.foldl_cons, List.foldl_nil]
  rw [withChild, Text.before_concat rfl]

theorem displayAt_eq (depth : Nat) (t : Term) : t.displayAt depth = t.treeAt depth := by
  have bracket : ", nodes=[" ++ "\n" = ", nodes=[\n" := by decide
  have closed : "]" ++ ")" = "])" := by decide
  induction t generalizing depth with
  | var x => rfl
  | abs p body ih =>
    refine (displayAround_concat depth (abs p body) [] _).trans ?_
    rw [ih, treeAt, ← bracket, ← closed]
    simp only [List.foldl_nil, String.append_assoc]
  | app function argument ihf iha =>
    have separated : "," ++ "\n" = ",\n" := by decide
    refine (displayAround_concat depth (app function argument) [_] _).trans ?_
    rw [ihf, iha, treeAt, ← bracket, ← closed, ← separated]
    simp only [List.foldl_cons, List.foldl_nil, withChild, String.append_assoc]

end Redex.Term
