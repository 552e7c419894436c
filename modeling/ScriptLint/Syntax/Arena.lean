/-
Arenas: the nodes of one program text in a table, each knowing its
parent. Checking needs to look upwards from a node as well as downwards,
which a tree does not allow; so the nodes are kept in an arena, children
before their parents and in source order.

A parser that writes an arena adds each node when it has read it
(`Arena.add`), and can leave behind nodes that nothing lists. A tree that is
there already is laid out without any choice (`Tree.layOut`), and the two
come to the same where the parser has read this tree.

Walks along parents and along names are cut off after a fixed number of
steps, so they end in any arena, whatever its links.
-/
import ScriptLint.Syntax.Tree
import ScriptLint.Text.LineMap

namespace ScriptLint

/-- A reference to a node of an arena, or to nothing. -/
abbrev Ref := Option Nat

/-- A node of an arena. The line is that of the first byte. -/
structure Node where
  form : Form Ref
  start : Nat
  stop : Nat
  line : Nat
  parent : Ref := none
  doc : Option String := none
  deriving Repr, DecidableEq

/-- The nodes of a program text, numbered in order of creation. -/
structure Arena where
  nodes : Array Node := #[]
  deriving Repr, DecidableEq

namespace Arena

-- ============================================================ building

/-- How many nodes there are. -/
def size (arena : Arena) : Nat := arena.nodes.size

/-- The arena with one more node, whose number is the old size. Its
children, as far as they exist, get it as their parent. -/
def add (arena : Arena) (node : Node) : Arena :=
  let parent := some arena.size
  let linked := node.form.children.foldl
    (fun nodes child => nodes.modify child fun n => { n with parent })
    arena.nodes
  ⟨linked.push node⟩

/-- Attaches a documentation comment. One that is there already is
kept. -/
def attachDoc (arena : Arena) (i : Nat) (doc : Option String) : Arena :=
  ⟨arena.nodes.modify i fun n => { n with doc := n.doc.or doc }⟩

/-- Changes the parent of a node and nothing else. -/
def setParent (arena : Arena) (i : Nat) (parent : Ref) : Arena :=
  ⟨arena.nodes.modify i fun n => { n with parent }⟩

/-- Changes the form of a node; the links of its children stay. -/
def setForm (arena : Arena) (i : Nat) (form : Form Ref) : Arena :=
  ⟨arena.nodes.modify i fun n => { n with form }⟩

-- ============================================================= reading

/-- The node under a reference. -/
def node? (arena : Arena) (ref : Ref) : Option Node :=
  ref.bind fun i => arena.nodes[i]?

/-- The form of the node under a reference. -/
def form? (arena : Arena) (ref : Ref) : Option (Form Ref) :=
  (arena.node? ref).map Node.form

/-- The parent of a node; nothing for a root and for no node. -/
def parentOf (arena : Arena) (ref : Ref) : Ref :=
  (arena.node? ref).bind Node.parent

/-- The line of a node, 0 for no node. -/
def lineOf (arena : Arena) (ref : Ref) : Nat :=
  (arena.node? ref).elim 0 Node.line

/-- The documentation comment attached to a node. -/
def docOf (arena : Arena) (ref : Ref) : Option String :=
  (arena.node? ref).bind Node.doc

/-- Whether the node is a function. -/
def isFunction (arena : Arena) (ref : Ref) : Bool :=
  match arena.form? ref with
  | some (.function ..) => true
  | _ => false

/-- Whether the node is the keyword `this`. -/
def isThis (arena : Arena) (ref : Ref) : Bool :=
  match arena.form? ref with
  | some .thisRef => true
  | _ => false

/-- Whether the node is an object literal. -/
def isObject (arena : Arena) (ref : Ref) : Bool :=
  match arena.form? ref with
  | some (.object _) => true
  | _ => false

/-- Whether the node is a member of `this`. -/
def isOwnMember (arena : Arena) (ref : Ref) : Bool :=
  match arena.form? ref with
  | some (.member owner _) => arena.isThis owner
  | _ => false

/-- The text of an identifier node. -/
def identifier? (arena : Arena) (ref : Ref) : Option String :=
  match arena.form? ref with
  | some (.identifier text) => some text
  | _ => none

-- =============================================================== walks

/-- How many steps a walk along parents, parentheses or names takes at
most. -/
def walkLimit : Nat := 10000

/-- What is left of a node after at most `steps` enclosing parentheses
are taken off. -/
def unwrap (arena : Arena) : Nat → Ref → Ref
  | 0, ref => ref
  | steps + 1, ref =>
    match arena.form? ref with
    | some (.paren inner) => arena.unwrap steps inner
    | _ => ref

/-- The node within any parentheses. -/
def skipParens (arena : Arena) (ref : Ref) : Ref :=
  arena.unwrap walkLimit ref

/-- The dotted name of a node, with the segments `tail` behind it, read
in at most `steps` steps. -/
def nameWith (arena : Arena) : Nat → Ref → List String → String
  | 0, _, tail => ".".intercalate tail
  | steps + 1, ref, tail =>
    match arena.form? ref with
    | some (.member owner name) =>
      match arena.identifier? name with
      | some segment => arena.nameWith steps owner (segment :: tail)
      | none => ""
    | some (.identifier text) => ".".intercalate (text :: tail)
    | some .thisRef => ".".intercalate ("this" :: tail)
    -- a literal has a name by itself, but lends none to its members
    | some (.string text) | some (.number text) =>
      if tail.isEmpty then text else ""
    | _ => ""

/-- The dotted name of a node: an identifier or `this` with the members
behind it; a literal string or number is named by its value. All other
nodes have the empty name. -/
def nameOf (arena : Arena) (ref : Ref) : String :=
  arena.nameWith walkLimit ref []

/-- The chain of parents from a reference on, `steps` links at most. -/
def chain (arena : Arena) : Nat → Ref → List Nat
  | 0, _ => []
  | _, none => []
  | steps + 1, some i => i :: arena.chain steps (arena.parentOf (some i))

/-- The nodes above a node, from its parent upwards. -/
def ancestors (arena : Arena) (ref : Ref) : List Nat :=
  arena.chain walkLimit (arena.parentOf ref)

/-- The nodes of the subtrees at several roots, each root before its
children, down to a depth, and then the nodes `after`. References to
nothing are passed over. -/
def forest (arena : Arena) : Nat → List Nat → List Nat → List Nat
  | 0, _, after => after
  | depth + 1, roots, after =>
    roots.foldr
      (fun i after =>
        match arena.nodes[i]? with
        | some node => i :: arena.forest depth node.form.children after
        | none => after)
      after

/-- The nodes of the subtree at a root in document order. No branch of a
tree is longer than its arena. -/
def preorder (arena : Arena) (root : Ref) : List Nat :=
  arena.forest arena.size root.toList []

end Arena

-- ======================================================= laying a tree

mutual

/-- Lays a tree out at the end of the arena and returns the number of
its root. -/
def Tree.layOut (lines : Text.LineMap) : Tree → StateM Arena Nat
  | .node start stop doc form => do
    let form ← layOutForm lines form
    let line := lines.lineOf start
    modifyGet fun arena =>
      (arena.size, arena.add { form, start, stop, line, doc })

/-- Lays out the tree in a slot, if there is one. -/
def layOutSlot (lines : Text.LineMap) : Option Tree → StateM Arena Ref
  | none => return none
  | some tree => return some (← tree.layOut lines)

/-- Lays out the trees of a list of slots in order. -/
def layOutSlots (lines : Text.LineMap) :
    List (Option Tree) → StateM Arena (List Ref)
  | [] => return []
  | slot :: slots =>
    return (← layOutSlot lines slot) :: (← layOutSlots lines slots)

/-- Lays out the children of a form in source order. -/
def layOutForm (lines : Text.LineMap) :
    Form (Option Tree) → StateM Arena (Form Ref)
  | .file statements => return .file (← layOutSlots lines statements)
  | .identifier text => return .identifier text
  | .thisRef => return .thisRef
  | .string value => return .string value
  | .number text => return .number text
  | .regex text => return .regex text
  | .boolean value => return .boolean value
  | .null => return .null
  | .array elements => return .array (← layOutSlots lines elements)
  | .object properties => return .object (← layOutSlots lines properties)
  | .property name initializer =>
    return .property (← layOutSlot lines name)
      (← layOutSlot lines initializer)
  | .function name parameters body isDeclaration =>
    return .function (← layOutSlot lines name)
      (← layOutSlots lines parameters) (← layOutSlot lines body)
      isDeclaration
  | .member owner name =>
    return .member (← layOutSlot lines owner) (← layOutSlot lines name)
  | .element owner index =>
    return .element (← layOutSlot lines owner) (← layOutSlot lines index)
  | .call callee arguments =>
    return .call (← layOutSlot lines callee)
      (← layOutSlots lines arguments)
  | .construct callee arguments =>
    return .construct (← layOutSlot lines callee)
      (← layOutSlots lines arguments)
  | .unary operator operand leading =>
    return .unary operator (← layOutSlot lines operand) leading
  | .binary left operator right =>
    return .binary (← layOutSlot lines left) operator
      (← layOutSlot lines right)
  | .assignment left operator right =>
    return .assignment (← layOutSlot lines left) operator
      (← layOutSlot lines right)
  | .conditional condition whenTrue whenFalse =>
    return .conditional (← layOutSlot lines condition)
      (← layOutSlot lines whenTrue) (← layOutSlot lines whenFalse)
  | .paren inner => return .paren (← layOutSlot lines inner)
  | .block statements => return .block (← layOutSlots lines statements)
  | .declarations items =>
    return .declarations (← layOutSlots lines items)
  | .declaration name initializer =>
    return .declaration (← layOutSlot lines name)
      (← layOutSlot lines initializer)
  | .expression value => return .expression (← layOutSlot lines value)
  | .branch condition consequent alternative =>
    return .branch (← layOutSlot lines condition)
      (← layOutSlot lines consequent) (← layOutSlot lines alternative)
  | .forLoop initializer condition step body =>
    return .forLoop (← layOutSlot lines initializer)
      (← layOutSlot lines condition) (← layOutSlot lines step)
      (← layOutSlot lines body)
  | .forIn target subject body =>
    return .forIn (← layOutSlot lines target)
      (← layOutSlot lines subject) (← layOutSlot lines body)
  | .whileLoop condition body =>
    return .whileLoop (← layOutSlot lines condition)
      (← layOutSlot lines body)
  | .doWhile body condition =>
    return .doWhile (← layOutSlot lines body)
      (← layOutSlot lines condition)
  | .returning value => return .returning (← layOutSlot lines value)
  | .breaking label => return .breaking (← layOutSlot lines label)
  | .continuing label => return .continuing (← layOutSlot lines label)
  | .throwing value => return .throwing (← layOutSlot lines value)
  | .trying body caught handler cleanup =>
    return .trying (← layOutSlot lines body) (← layOutSlot lines caught)
      (← layOutSlot lines handler) (← layOutSlot lines cleanup)
  | .switch subject clauses =>
    return .switch (← layOutSlot lines subject)
      (← layOutSlots lines clauses)
  | .clause test statements =>
    return .clause (← layOutSlot lines test)
      (← layOutSlots lines statements)
  | .labeled label statement =>
    return .labeled (← layOutSlot lines label)
      (← layOutSlot lines statement)
  | .empty => return .empty

end

/-- The arena of a tree alone, and the number of the root, the last
node. -/
def Arena.ofTree (lines : Text.LineMap) (tree : Tree) : Nat × Arena :=
  (tree.layOut lines).run {}

end ScriptLint
