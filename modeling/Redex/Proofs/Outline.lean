import Redex.Proofs.NameShapes

/-!
# The tree form, line by line

The tree form of a term opens every node on a line of its own and closes every node that has nodes
below it on another. `Line` names the two kinds of lines and spells them out; a node knows how deep
it lies and whether a sibling stands behind it, which is all that its lines depend on besides the
term itself.

`linesAt` lists the lines of a term as they follow each other, and the tree form is these lines with
line feeds between them (`intercalate_linesAt`). The opening lines go through the nodes in preorder
(`opened_linesAt`), each node that has nodes below it is closed once (`closed_linesAt`), and the
closing line of a node stands behind exactly its descendants (`nested_linesAt`).
-/

namespace Redex

namespace Text

/-- The lines that a text is made of, if it is cut at its line feeds. -/
def cutLines (text : String) : List String := (text.split '\n').toList.map (·.copy)

theorem cutLines_intercalate {lines : List String} (nonempty : lines ≠ [])
    (oneLine : ∀ line ∈ lines, '\n' ∉ line.toList) : cutLines ("\n".intercalate lines) = lines := by
  have cut := String.toList_split_intercalate oneLine
  rw [if_neg nonempty] at cut
  exact cut

end Text

namespace Term

/-! ## Nodes and lines -/

/-- A node of a term: how many nodes are above it, whether a sibling stands behind it, and the term
that it is the root of. -/
structure Node where
  depth : Nat
  followed : Bool
  term : Term

/-- The nodes of a term, each in front of those below it and the function of an application in front
of its argument. -/
def preorderAt (depth : Nat) (followed : Bool) (t : Term) : List Node :=
  ⟨depth, followed, t⟩ ::
    match t with
    | var _ => []
    | abs _ body => preorderAt (depth + 1) false body
    | app function argument =>
      preorderAt (depth + 1) true function ++ preorderAt (depth + 1) false argument

/-- The nodes of a whole term. -/
def preorder (t : Term) : List Node := t.preorderAt 0 false

namespace Node

/-- Whether there are nodes below a node. -/
def isCompound (node : Node) : Bool := !node.term.children.isEmpty

/-- The nodes below a node, in preorder. -/
def descendants (node : Node) : List Node :=
  (node.term.preorderAt node.depth node.followed).tail

/-- The blanks in front of the lines of a node. -/
def blanks (node : Node) : String := String.ofList (List.replicate (4 * node.depth) ' ')

/-- What the opening line says of a node: its kind, its text form and the parameter, if any. -/
def label (node : Node) : String :=
  let named := match node.term with
    | abs p _ => ", parameter='" ++ p ++ "'"
    | _ => ""
  node.term.kindName ++ "('" ++ node.term.render ++ "'" ++ named

/-- The end of the last line of a node. -/
def comma (node : Node) : String := if node.followed then "," else ""

end Node

/-- A line of the tree form. -/
inductive Line where
  | opening (node : Node)
  | closing (node : Node)

namespace Line

/-- The line in print. The opening line of a node is its last line if there is nothing below it. -/
def text : Line → String
  | opening node =>
    node.blanks ++ node.label ++ if node.isCompound then ", nodes=[" else ")" ++ node.comma
  | closing node => node.blanks ++ "])" ++ node.comma

/-- The node that a line opens. -/
def opened? : Line → Option Node
  | opening node => some node
  | closing _ => none

/-- The node that a line closes. -/
def closed? : Line → Option Node
  | opening _ => none
  | closing node => some node

end Line

/-- The lines of a term in the order in which they are printed. -/
def linesAt (depth : Nat) (followed : Bool) (t : Term) : List Line :=
  match t with
  | var _ => [.opening ⟨depth, followed, t⟩]
  | abs _ body =>
    .opening ⟨depth, followed, t⟩ ::
      (linesAt (depth + 1) false body ++ [.closing ⟨depth, followed, t⟩])
  | app function argument =>
    .opening ⟨depth, followed, t⟩ ::
      (linesAt (depth + 1) true function ++ linesAt (depth + 1) false argument ++
        [.closing ⟨depth, followed, t⟩])

/-! ## The text -/

theorem linesAt_ne_nil (depth : Nat) (followed : Bool) (t : Term) :
    linesAt depth followed t ≠ [] := by
  cases t <;> simp [linesAt]

/-- What stands between the first and the last line of a compound node. -/
theorem intercalate_between {first last : String} {lines : List String} (nonempty : lines ≠ []) :
    "\n".intercalate (first :: (lines ++ [last])) =
      first ++ "\n" ++ "\n".intercalate lines ++ "\n" ++ last := by
  have more : lines ++ [last] ≠ [] := by simp
  have single : [last] ≠ [] := by simp
  rw [String.intercalate_cons_of_ne_nil more, String.intercalate_append_of_ne_nil nonempty single,
    String.intercalate_singleton]
  simp only [String.append_assoc]

theorem label_eq_heading (node : Node) : node.label = node.term.heading := by
  obtain ⟨depth, followed, t⟩ := node
  cases t with
  | var x => exact String.append_empty
  | abs p body =>
    have quotes : "'" ++ ", parameter='" = "', parameter='" := by decide
    simp only [Node.label, heading, ← quotes, String.append_assoc]
  | app function argument => exact String.append_empty

theorem text_opening_var (depth : Nat) (followed : Bool) (x : Name) :
    (Line.opening ⟨depth, followed, var x⟩).text =
      treeAt depth (var x) ++ Node.comma ⟨depth, followed, var x⟩ := by
  have leaf : (⟨depth, followed, var x⟩ : Node).isCompound = false := rfl
  rw [Line.text, label_eq_heading, leaf, if_neg Bool.false_ne_true, ← String.append_assoc]
  rfl

theorem text_opening_compound {node : Node} (compound : node.isCompound = true) :
    (Line.opening node).text = indentation node.depth ++ node.term.heading ++ ", nodes=[" := by
  rw [Line.text, label_eq_heading, if_pos compound]
  rfl

theorem text_closing (node : Node) :
    (Line.closing node).text = indentation node.depth ++ "])" ++ node.comma := rfl

/-- The lines of a node, joined, are its tree form and perhaps a comma. -/
theorem intercalate_linesAt (depth : Nat) (followed : Bool) (t : Term) :
    "\n".intercalate ((linesAt depth followed t).map Line.text) =
      t.treeAt depth ++ Node.comma ⟨depth, followed, t⟩ := by
  have bracket : ", nodes=[" ++ "\n" = ", nodes=[\n" := by decide
  induction t generalizing depth followed with
  | var x =>
    simp only [linesAt, List.map_cons, List.map_nil, String.intercalate_singleton]
    exact text_opening_var depth followed x
  | abs p body ih =>
    have below : (linesAt (depth + 1) false body).map Line.text ≠ [] := by
      simp [linesAt_ne_nil]
    simp only [linesAt, List.map_cons, List.map_append, List.map_nil]
    rw [intercalate_between below, ih, text_opening_compound rfl, text_closing, treeAt, ← bracket]
    simp only [Node.comma, String.append_assoc, Bool.false_eq_true, ↓reduceIte, String.empty_append]
  | app function argument ihf iha =>
    have first : (linesAt (depth + 1) true function).map Line.text ≠ [] := by
      simp [linesAt_ne_nil]
    have second : (linesAt (depth + 1) false argument).map Line.text ≠ [] := by
      simp [linesAt_ne_nil]
    have separated : "," ++ "\n" = ",\n" := by decide
    simp only [linesAt, List.map_cons, List.map_append, List.map_nil]
    rw [intercalate_between (List.append_ne_nil_of_left_ne_nil first _),
      String.intercalate_append_of_ne_nil first second, ihf, iha, text_opening_compound rfl,
      text_closing, treeAt, ← bracket, ← separated]
    simp only [Node.comma, String.append_assoc, Bool.false_eq_true, ↓reduceIte, String.empty_append]

/-! ## The order of the lines -/

theorem length_preorderAt (depth : Nat) (followed : Bool) (t : Term) :
    (t.preorderAt depth followed).length = t.size := by
  induction t generalizing depth followed with
  | var x => rfl
  | abs p body ih => simp [preorderAt, size, ih]
  | app function argument ihf iha => simp [preorderAt, size, ihf, iha]

/-- The opening lines go through the nodes in preorder. -/
theorem opened_linesAt (depth : Nat) (followed : Bool) (t : Term) :
    (linesAt depth followed t).filterMap Line.opened? = t.preorderAt depth followed := by
  induction t generalizing depth followed with
  | var x => rfl
  | abs p body ih => simp [linesAt, preorderAt, Line.opened?, ih]
  | app function argument ihf iha => simp [linesAt, preorderAt, Line.opened?, ihf, iha]

/-- Each node that has nodes below it is closed once. -/
theorem closed_linesAt (depth : Nat) (followed : Bool) (t : Term) :
    ((linesAt depth followed t).filterMap Line.closed?).Perm
      ((t.preorderAt depth followed).filter Node.isCompound) := by
  induction t generalizing depth followed with
  | var x => exact List.Perm.refl _
  | abs p body ih =>
    have compound : (⟨depth, followed, abs p body⟩ : Node).isCompound = true := rfl
    simp only [linesAt, preorderAt, List.filterMap_cons, List.filterMap_append, List.filterMap_nil,
      Line.closed?, List.filter_cons_of_pos compound]
    exact (List.perm_append_singleton _ _).trans ((ih (depth + 1) false).cons _)
  | app function argument ihf iha =>
    have compound : (⟨depth, followed, app function argument⟩ : Node).isCompound = true := rfl
    have parts := (ihf (depth + 1) true).append (iha (depth + 1) false)
    simp only [linesAt, preorderAt, List.filterMap_cons, List.filterMap_append, List.filterMap_nil,
      Line.closed?, List.filter_cons_of_pos compound, List.filter_append]
    exact (List.perm_append_singleton _ _).trans (parts.cons _)

/-- Whether the lines between two others are those of the nodes below a node. -/
structure Encloses (node : Node) (inside : List Line) : Prop where
  opened : inside.filterMap Line.opened? = node.descendants
  closed : (inside.filterMap Line.closed?).Perm (node.descendants.filter Node.isCompound)

/-- Whether every closing line stands behind the opening line of its node, with the lines of the
nodes below it in between and no others. -/
def Nested (lines : List Line) : Prop :=
  ∀ front node rest, lines = front ++ .closing node :: rest →
    ∃ outside inside, front = outside ++ .opening node :: inside ∧ Encloses node inside

theorem Nested.append {lines lines' : List Line} (first : Nested lines) (second : Nested lines') :
    Nested (lines ++ lines') := by
  intro front node rest split
  rcases List.append_eq_append_iff.1 split with ⟨more, rfl, behind⟩ | ⟨more, here, behind⟩
  · obtain ⟨outside, inside, rfl, encloses⟩ := second more node rest behind
    exact ⟨lines ++ outside, inside, by rw [List.append_assoc], encloses⟩
  · cases more with
    | nil =>
      obtain ⟨outside, inside, nothing, -⟩ := second [] node rest behind.symm
      cases outside <;> cases nothing
    | cons line more =>
      rw [List.cons_append, List.cons.injEq] at behind
      rw [← behind.1] at here
      exact first front node more here

/-- A node around the lines of the nodes below it. -/
theorem Nested.around {node : Node} {inside : List Line} (nested : Nested inside)
    (encloses : Encloses node inside) :
    Nested (.opening node :: (inside ++ [.closing node])) := by
  intro front other rest split
  cases front with
  | nil => cases split
  | cons line front =>
    rw [List.cons_append, List.cons.injEq] at split
    obtain ⟨rfl, split⟩ := split
    rcases List.append_eq_append_iff.1 split with ⟨more, rfl, last⟩ | ⟨more, here, last⟩
    · cases more with
      | nil =>
        cases last
        exact ⟨[], inside, by rw [List.append_nil, List.nil_append], encloses⟩
      | cons _ more => simp at last
    · cases more with
      | nil =>
        rw [List.append_nil] at here
        rw [List.nil_append, List.cons.injEq, Line.closing.injEq] at last
        rw [last.1, ← here]
        exact ⟨[], inside, rfl, encloses⟩
      | cons line more =>
        rw [List.cons_append, List.cons.injEq] at last
        rw [← last.1] at here
        obtain ⟨outside, within, rfl, encloses'⟩ := nested front other more here
        exact ⟨.opening node :: outside, within, rfl, encloses'⟩

theorem nested_linesAt (depth : Nat) (followed : Bool) (t : Term) :
    Nested (linesAt depth followed t) := by
  induction t generalizing depth followed with
  | var x =>
    intro front node rest split
    cases front with
    | nil => cases split
    | cons line front => simp [linesAt] at split
  | abs p body ih =>
    refine (ih (depth + 1) false).around ⟨?_, ?_⟩
    · exact opened_linesAt (depth + 1) false body
    · exact closed_linesAt (depth + 1) false body
  | app function argument ihf iha =>
    refine ((ihf (depth + 1) true).append (iha (depth + 1) false)).around ⟨?_, ?_⟩
    · rw [List.filterMap_append, opened_linesAt, opened_linesAt]
      rfl
    · rw [List.filterMap_append]
      refine ((closed_linesAt _ _ _).append (closed_linesAt _ _ _)).trans ?_
      rw [← List.filter_append]
      exact List.Perm.refl _

/-! ## Cutting the text into its lines -/

theorem newline_not_mem_blanks (node : Node) : '\n' ∉ node.blanks.toList := by
  intro inside
  rw [Node.blanks, String.toList_ofList] at inside
  exact absurd (List.eq_of_mem_replicate inside) (by decide)

theorem newline_not_mem_comma (node : Node) : '\n' ∉ node.comma.toList := by
  unfold Node.comma
  split <;> decide

theorem newline_not_mem_label {node : Node} (oneLine : ∀ x ∈ node.term.names, OneLine x) :
    '\n' ∉ node.label.toList := by
  have text := newline_not_mem_render oneLine
  obtain ⟨depth, followed, t⟩ := node
  cases t with
  | var x => simpa [Node.label, kindName] using text
  | abs p body =>
    have parameter : '\n' ∉ p.toList := oneLine p (List.mem_cons_self ..)
    simpa [Node.label, kindName, parameter] using text
  | app function argument => simpa [Node.label, kindName] using text

theorem newline_not_mem_opening {node : Node} (oneLine : ∀ x ∈ node.term.names, OneLine x) :
    '\n' ∉ (Line.opening node).text.toList := by
  have blanks := newline_not_mem_blanks node
  have label := newline_not_mem_label oneLine
  have comma := newline_not_mem_comma node
  simp only [Line.text]
  split <;> simp [blanks, label, comma]

theorem newline_not_mem_closing (node : Node) : '\n' ∉ (Line.closing node).text.toList := by
  simp [Line.text, newline_not_mem_blanks, newline_not_mem_comma]

theorem newline_not_mem_linesAt (depth : Nat) (followed : Bool) {t : Term}
    (oneLine : ∀ x ∈ t.names, OneLine x) :
    ∀ line ∈ linesAt depth followed t, '\n' ∉ line.text.toList := by
  induction t generalizing depth followed with
  | var x => exact List.forall_mem_singleton.2 (newline_not_mem_opening oneLine)
  | abs p body ih =>
    have inBody := (List.forall_mem_cons.1 oneLine).2
    refine List.forall_mem_cons.2 ⟨newline_not_mem_opening oneLine, ?_⟩
    refine List.forall_mem_append.2 ⟨ih (depth + 1) false inBody, ?_⟩
    exact List.forall_mem_singleton.2 (newline_not_mem_closing _)
  | app function argument ihf iha =>
    obtain ⟨inFunction, inArgument⟩ := List.forall_mem_append.1 oneLine
    refine List.forall_mem_cons.2 ⟨newline_not_mem_opening oneLine, ?_⟩
    refine List.forall_mem_append.2 ⟨?_, List.forall_mem_singleton.2 (newline_not_mem_closing _)⟩
    exact List.forall_mem_append.2
      ⟨ihf (depth + 1) true inFunction, iha (depth + 1) false inArgument⟩

/-- The tree form lists the nodes of a term. Cut at its line feeds, it has one opening line for each
node, in preorder, and one closing line for each node that has nodes below it; the closing line of a
node stands behind its opening line and the lines of all its descendants, and behind no others.
What the lines look like is said by `Line.text`: four blanks for each level, the kind, the text form
and the parameter of the node, and a comma behind the last line of a node exactly if a sibling
stands behind it. Putting the text together with a comma behind every child and cutting the last
one off gives the same text. -/
theorem tree_lists_preorder {t : Term} (oneLine : ∀ x ∈ t.names, OneLine x) :
    t.displayAt 0 = t.tree ∧ ∃ lines : List Line,
      Text.cutLines t.tree = lines.map Line.text ∧
      (lines.filterMap Line.opened? = t.preorder ∧ t.preorder.length = t.size) ∧
      (lines.filterMap Line.closed?).Perm (t.preorder.filter Node.isCompound) ∧
      ∀ front node rest, lines = front ++ .closing node :: rest →
        ∃ outside inside, front = outside ++ .opening node :: inside ∧
          inside.filterMap Line.opened? = node.descendants ∧
          (inside.filterMap Line.closed?).Perm (node.descendants.filter Node.isCompound) := by
  have joined : t.tree = "\n".intercalate ((linesAt 0 false t).map Line.text) := by
    rw [intercalate_linesAt]
    exact String.append_empty.symm
  have nonempty : (linesAt 0 false t).map Line.text ≠ [] := by simp [linesAt_ne_nil]
  refine ⟨t.displayAt_eq 0, linesAt 0 false t, ?_,
    ⟨opened_linesAt 0 false t, length_preorderAt 0 false t⟩, closed_linesAt 0 false t, ?_⟩
  · rw [joined]
    apply Text.cutLines_intercalate nonempty
    exact List.forall_mem_map.2 (newline_not_mem_linesAt 0 false oneLine)
  · intro front node rest split
    obtain ⟨outside, inside, before, encloses⟩ := nested_linesAt 0 false t front node rest split
    exact ⟨outside, inside, before, encloses.opened, encloses.closed⟩

/-- Of the two children of the root, only the abstraction is followed by a sibling, and so a comma
stands behind the line that closes it. The argument of the root has a blank for a name. -/
theorem tree_lists_preorder_applied :
    let body := app (var "x") (var "y'")
    let t := app (abs "x" body) (var " ")
    (∀ x ∈ t.names, OneLine x) ∧
      t.tree = "Application('(λx. (x y'))  ', nodes=[\n" ++
        "    Abstraction('(λx. (x y'))', parameter='x', nodes=[\n" ++
        "        Application('x y'', nodes=[\n" ++
        "            Identifier('x'),\n" ++
        "            Identifier('y'')\n" ++
        "        ])\n" ++
        "    ]),\n" ++
        "    Identifier(' ')\n" ++
        "])" ∧
      ∃ lines : List Line, Text.cutLines t.tree = lines.map Line.text ∧
        lines.filterMap Line.opened? =
          [⟨0, false, t⟩, ⟨1, true, abs "x" body⟩, ⟨2, false, body⟩, ⟨3, true, var "x"⟩,
            ⟨3, false, var "y'"⟩, ⟨1, false, var " "⟩] ∧
        (lines.filterMap Line.closed?).Perm
          [⟨0, false, t⟩, ⟨1, true, abs "x" body⟩, ⟨2, false, body⟩] := by
  intro body t
  have oneLine : ∀ x ∈ t.names, OneLine x := by unfold OneLine; decide
  obtain ⟨-, lines, cut, ⟨opened, -⟩, closed, -⟩ := tree_lists_preorder oneLine
  exact ⟨oneLine, by decide +kernel, lines, cut, opened, closed⟩

end Term

end Redex
