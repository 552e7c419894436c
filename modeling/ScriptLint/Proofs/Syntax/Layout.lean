/-
Laying a tree out, node by node. The nodes of several trees that stand
side by side are a forest: below each root the forest of its children,
numbered first, then the root, then the trees to its right. `Forest`
says so of a list of nodes and of the slots that refer to them, and
`layOut_forest` says that laying out a tree appends such a forest, of a
single tree, and touches nothing else.

A form and its image in the arena have the same slots filled with
different things. Both are read off one form whose slots hold the two
side by side (`Form.map`), so that no proof needs to go through the
forms one by one but the two lemmas that set this up.

# What other files use

- `layOut_forest` and `layOutSlots_forest`: the run lemmas of the layout,
  from which everything about arenas of trees follows.
- `Tree.induct`: induction over trees by their children, whatever the form.
- `Form.map`, `Form.slots_map` and `Form.mem_children`: how to speak of two
  forms with the same shape.
-/
import ScriptLint.Syntax.Arena

namespace ScriptLint

-- =============================================================== forms

/-- The form with every slot changed by a function. -/
def Form.map {ι κ : Type} (f : ι → κ) : Form ι → Form κ
  | .file statements => .file (statements.map f)
  | .identifier text => .identifier text
  | .thisRef => .thisRef
  | .string value => .string value
  | .number text => .number text
  | .regex text => .regex text
  | .boolean value => .boolean value
  | .null => .null
  | .array elements => .array (elements.map f)
  | .object properties => .object (properties.map f)
  | .property name initializer => .property (f name) (f initializer)
  | .function name parameters body isDeclaration =>
    .function (f name) (parameters.map f) (f body) isDeclaration
  | .member owner name => .member (f owner) (f name)
  | .element owner index => .element (f owner) (f index)
  | .call callee arguments => .call (f callee) (arguments.map f)
  | .construct callee arguments => .construct (f callee) (arguments.map f)
  | .unary operator operand leading => .unary operator (f operand) leading
  | .binary left operator right => .binary (f left) operator (f right)
  | .assignment left operator right =>
    .assignment (f left) operator (f right)
  | .conditional condition whenTrue whenFalse =>
    .conditional (f condition) (f whenTrue) (f whenFalse)
  | .paren inner => .paren (f inner)
  | .block statements => .block (statements.map f)
  | .declarations items => .declarations (items.map f)
  | .declaration name initializer => .declaration (f name) (f initializer)
  | .expression value => .expression (f value)
  | .branch condition consequent alternative =>
    .branch (f condition) (f consequent) (f alternative)
  | .forLoop initializer condition step body =>
    .forLoop (f initializer) (f condition) (f step) (f body)
  | .forIn target subject body => .forIn (f target) (f subject) (f body)
  | .whileLoop condition body => .whileLoop (f condition) (f body)
  | .doWhile body condition => .doWhile (f body) (f condition)
  | .returning value => .returning (f value)
  | .breaking label => .breaking (f label)
  | .continuing label => .continuing (f label)
  | .throwing value => .throwing (f value)
  | .trying body caught handler cleanup =>
    .trying (f body) (f caught) (f handler) (f cleanup)
  | .switch subject clauses => .switch (f subject) (clauses.map f)
  | .clause test statements => .clause (f test) (statements.map f)
  | .labeled label statement => .labeled (f label) (f statement)
  | .empty => .empty

@[simp] theorem Form.slots_map {ι κ : Type} (f : ι → κ) (form : Form ι) :
    (form.map f).slots = form.slots.map f := by
  cases form <;> simp [map, slots]

theorem Form.mem_slots_map {ι κ : Type} (f : ι → κ) {form : Form ι}
    {slot : ι} (h : slot ∈ form.slots) : f slot ∈ (form.map f).slots := by
  rw [slots_map]
  exact List.mem_map_of_mem h

theorem Form.mem_children {ι : Type} {form : Form (Option ι)} {child : ι} :
    child ∈ form.children ↔ some child ∈ form.slots := by
  simp [children]

/-- What stands in a slot is smaller than the form. -/
theorem Form.sizeOf_lt_of_mem_slots {form : Form (Option Tree)}
    {tree : Tree} (h : some tree ∈ form.slots) :
    sizeOf tree < sizeOf form := by
  have hlist : ∀ {slots : List (Option Tree)}, some tree ∈ slots →
      sizeOf tree < sizeOf slots := by
    intro slots hmem
    have := List.sizeOf_lt_of_mem hmem
    rw [Option.some.sizeOf_spec] at this
    omega
  have hslot : ∀ {slot : Option Tree}, some tree = slot →
      sizeOf tree < sizeOf slot := by
    rintro slot rfl
    rw [Option.some.sizeOf_spec]
    omega
  cases form <;> simp only [slots, List.mem_cons, List.mem_append,
    List.not_mem_nil, or_false, List.cons_append] at h <;> simp <;> grind

/-- Induction over a tree by way of its children, whatever its form. -/
theorem Tree.induct {motive : Tree → Prop}
    (node : ∀ start stop doc form,
      (∀ child ∈ form.children, motive child) →
      motive (.node start stop doc form))
    (tree : Tree) : motive tree :=
  match tree with
  | .node start stop doc form => node start stop doc form fun child h =>
    have := Form.sizeOf_lt_of_mem_slots (Form.mem_children.1 h)
    Tree.induct node child
termination_by sizeOf tree
decreasing_by simp; omega

-- ============================================================ equations

variable (lines : Text.LineMap)

/-- A slot's content beside the reference to where it was laid out. -/
abbrev Placed := Ref × Option Tree

theorem layOutSlots_none (slots : List (Option Tree)) (arena : Arena) :
    (layOutSlots lines (none :: slots)).run arena
      = let (refs, arena) := (layOutSlots lines slots).run arena
        (none :: refs, arena) := rfl

theorem layOutSlots_some (tree : Tree) (slots : List (Option Tree))
    (arena : Arena) :
    (layOutSlots lines (some tree :: slots)).run arena
      = let (root, arena) := (tree.layOut lines).run arena
        let (refs, arena) := (layOutSlots lines slots).run arena
        (some root :: refs, arena) := rfl

theorem layOut_node (start stop : Nat) (doc : Option String)
    (form : Form (Option Tree)) (arena : Arena) :
    (Tree.layOut lines (.node start stop doc form)).run arena
      = let (form, arena) := (layOutForm lines form).run arena
        let line := lines.lineOf start
        (arena.size, arena.add { form, start, stop, line, doc }) := rfl

/-- Slots can be laid out in two parts. -/
theorem layOutSlots_append (slots more : List (Option Tree))
    (arena : Arena) :
    (layOutSlots lines (slots ++ more)).run arena
      = let (refs, arena) := (layOutSlots lines slots).run arena
        let (others, arena) := (layOutSlots lines more).run arena
        (refs ++ others, arena) := by
  induction slots generalizing arena with
  | nil => rfl
  | cons slot slots ih =>
      have hstep : (layOutSlots lines (slot :: slots ++ more)).run arena
          = let (ref, arena) := (layOutSlot lines slot).run arena
            let (refs, arena) :=
              (layOutSlots lines (slots ++ more)).run arena
            (ref :: refs, arena) := rfl
      rw [hstep]
      simp only [ih]
      rfl

/-- Laying out slots yields one reference for each. -/
theorem exists_placed (slots : List (Option Tree)) (arena : Arena) :
    ∃ placed : List Placed, placed.map Prod.snd = slots
      ∧ ((layOutSlots lines slots).run arena).1 = placed.map Prod.fst := by
  induction slots generalizing arena with
  | nil => exact ⟨[], rfl, rfl⟩
  | cons slot slots ih =>
      let laid := (layOutSlot lines slot).run arena
      obtain ⟨placed, hslots, hrefs⟩ := ih laid.2
      refine ⟨(laid.1, slot) :: placed, by rw [List.map_cons, hslots], ?_⟩
      rw [List.map_cons, ← hrefs]
      rfl

/-- Laying out a form is laying out its slots. -/
theorem layOutForm_run (form : Form (Option Tree)) (arena : Arena) :
    ∃ joint : Form Placed, joint.map Prod.snd = form
      ∧ ((layOutSlots lines form.slots).run arena).1
        = joint.slots.map Prod.fst
      ∧ (layOutForm lines form).run arena = (joint.map Prod.fst,
        ((layOutSlots lines form.slots).run arena).2) := by
  cases form with
  | identifier text => exact ⟨.identifier text, rfl, rfl, rfl⟩
  | thisRef => exact ⟨.thisRef, rfl, rfl, rfl⟩
  | string value => exact ⟨.string value, rfl, rfl, rfl⟩
  | number text => exact ⟨.number text, rfl, rfl, rfl⟩
  | regex text => exact ⟨.regex text, rfl, rfl, rfl⟩
  | boolean value => exact ⟨.boolean value, rfl, rfl, rfl⟩
  | null => exact ⟨.null, rfl, rfl, rfl⟩
  | empty => exact ⟨.empty, rfl, rfl, rfl⟩
  | property name initializer =>
      exact ⟨.property (_, name) (_, initializer), rfl, rfl, rfl⟩
  | member owner name => exact ⟨.member (_, owner) (_, name), rfl, rfl, rfl⟩
  | element owner index =>
      exact ⟨.element (_, owner) (_, index), rfl, rfl, rfl⟩
  | unary operator operand leading =>
      exact ⟨.unary operator (_, operand) leading, rfl, rfl, rfl⟩
  | binary left operator right =>
      exact ⟨.binary (_, left) operator (_, right), rfl, rfl, rfl⟩
  | assignment left operator right =>
      exact ⟨.assignment (_, left) operator (_, right), rfl, rfl, rfl⟩
  | conditional condition whenTrue whenFalse =>
      exact ⟨.conditional (_, condition) (_, whenTrue) (_, whenFalse),
        rfl, rfl, rfl⟩
  | paren inner => exact ⟨.paren (_, inner), rfl, rfl, rfl⟩
  | declaration name initializer =>
      exact ⟨.declaration (_, name) (_, initializer), rfl, rfl, rfl⟩
  | expression value => exact ⟨.expression (_, value), rfl, rfl, rfl⟩
  | branch condition consequent alternative =>
      exact ⟨.branch (_, condition) (_, consequent) (_, alternative),
        rfl, rfl, rfl⟩
  | forLoop initializer condition step body =>
      exact ⟨.forLoop (_, initializer) (_, condition) (_, step) (_, body),
        rfl, rfl, rfl⟩
  | forIn target subject body =>
      exact ⟨.forIn (_, target) (_, subject) (_, body), rfl, rfl, rfl⟩
  | whileLoop condition body =>
      exact ⟨.whileLoop (_, condition) (_, body), rfl, rfl, rfl⟩
  | doWhile body condition =>
      exact ⟨.doWhile (_, body) (_, condition), rfl, rfl, rfl⟩
  | returning value => exact ⟨.returning (_, value), rfl, rfl, rfl⟩
  | breaking label => exact ⟨.breaking (_, label), rfl, rfl, rfl⟩
  | continuing label => exact ⟨.continuing (_, label), rfl, rfl, rfl⟩
  | throwing value => exact ⟨.throwing (_, value), rfl, rfl, rfl⟩
  | trying body caught handler cleanup =>
      exact ⟨.trying (_, body) (_, caught) (_, handler) (_, cleanup),
        rfl, rfl, rfl⟩
  | labeled label statement =>
      exact ⟨.labeled (_, label) (_, statement), rfl, rfl, rfl⟩
  | file statements =>
      obtain ⟨placed, rfl, hrefs⟩ := exists_placed lines statements arena
      exact ⟨.file placed, rfl, hrefs,
        Prod.ext (congrArg Form.file hrefs) rfl⟩
  | array elements =>
      obtain ⟨placed, rfl, hrefs⟩ := exists_placed lines elements arena
      exact ⟨.array placed, rfl, hrefs,
        Prod.ext (congrArg Form.array hrefs) rfl⟩
  | object properties =>
      obtain ⟨placed, rfl, hrefs⟩ := exists_placed lines properties arena
      exact ⟨.object placed, rfl, hrefs,
        Prod.ext (congrArg Form.object hrefs) rfl⟩
  | block statements =>
      obtain ⟨placed, rfl, hrefs⟩ := exists_placed lines statements arena
      exact ⟨.block placed, rfl, hrefs,
        Prod.ext (congrArg Form.block hrefs) rfl⟩
  | declarations items =>
      obtain ⟨placed, rfl, hrefs⟩ := exists_placed lines items arena
      exact ⟨.declarations placed, rfl, hrefs,
        Prod.ext (congrArg Form.declarations hrefs) rfl⟩
  | call callee arguments =>
      let first := (layOutSlot lines callee).run arena
      obtain ⟨placed, rfl, hrefs⟩ := exists_placed lines arguments first.2
      exact ⟨.call (first.1, callee) placed, rfl,
        congrArg (first.1 :: ·) hrefs,
        Prod.ext (congrArg (Form.call first.1) hrefs) rfl⟩
  | construct callee arguments =>
      let first := (layOutSlot lines callee).run arena
      obtain ⟨placed, rfl, hrefs⟩ := exists_placed lines arguments first.2
      exact ⟨.construct (first.1, callee) placed, rfl,
        congrArg (first.1 :: ·) hrefs,
        Prod.ext (congrArg (Form.construct first.1) hrefs) rfl⟩
  | switch subject clauses =>
      let first := (layOutSlot lines subject).run arena
      obtain ⟨placed, rfl, hrefs⟩ := exists_placed lines clauses first.2
      exact ⟨.switch (first.1, subject) placed, rfl,
        congrArg (first.1 :: ·) hrefs,
        Prod.ext (congrArg (Form.switch first.1) hrefs) rfl⟩
  | clause test statements =>
      let first := (layOutSlot lines test).run arena
      obtain ⟨placed, rfl, hrefs⟩ := exists_placed lines statements first.2
      exact ⟨.clause (first.1, test) placed, rfl,
        congrArg (first.1 :: ·) hrefs,
        Prod.ext (congrArg (Form.clause first.1) hrefs) rfl⟩
  | function name parameters body isDeclaration =>
      let first := (layOutSlot lines name).run arena
      obtain ⟨placed, rfl, hrefs⟩ := exists_placed lines parameters first.2
      let last := (layOutSlot lines body).run
        ((layOutSlots lines (placed.map Prod.snd)).run first.2).2
      refine ⟨.function (first.1, name) placed (last.1, body) isDeclaration,
        rfl, ?_, ?_⟩
      · simp only [Form.slots, layOutSlots_append]
        simp only [List.map_append, List.map_cons, ← hrefs]
        rfl
      · simp only [Form.slots, Form.map, layOutSlots_append, ← hrefs]
        rfl

-- ============================================================= forests

/-- A node with the given parent, unless it has one already. -/
def Node.under (parent : Nat) (node : Node) : Node :=
  { node with parent := node.parent.or (some parent) }

theorem Node.under_of_eq_none {node : Node} (h : node.parent = none)
    (parent : Nat) :
    node.under parent = { node with parent := some parent } := by
  rw [under, h]
  rfl

theorem Node.under_of_eq_some {node : Node} {own : Nat}
    (h : node.parent = some own) (parent : Nat) :
    node.under parent = node := by
  rw [under, h, Option.some_or, ← h]

/-- The nodes of trees that stand side by side, numbered from a base on:
the children of a root come before it and have it as their parent, and
the trees to its right come behind it. The roots themselves have no
parent. A slot is empty or refers to its tree's root. -/
inductive Forest (lines : Text.LineMap) :
    Nat → List Placed → List Node → Prop where
  | nil (base : Nat) : Forest lines base [] []
  | skip {base : Nat} {placed : List Placed} {nodes : List Node} :
    Forest lines base placed nodes →
    Forest lines base ((none, none) :: placed) nodes
  | tree {base root start stop : Nat} {doc : Option String}
    {joint : Form Placed} {placed : List Placed} {below right : List Node} :
    Forest lines base joint.slots below →
    root = base + below.length →
    Forest lines (root + 1) placed right →
    Forest lines base
      ((some root, some (.node start stop doc (joint.map Prod.snd)))
        :: placed)
      (below.map (Node.under root)
        ++ { form := joint.map Prod.fst, start, stop,
             line := lines.lineOf start, doc } :: right)

namespace Forest

variable {lines} {base : Nat} {placed more : List Placed}
variable {nodes right : List Node}

/-- A forest goes on to the right of a forest. -/
theorem append (h : Forest lines base placed nodes)
    (hright : Forest lines (base + nodes.length) more right) :
    Forest lines base (placed ++ more) (nodes ++ right) := by
  induction h with
  | nil base => simpa using hright
  | skip h ih => exact .skip (ih hright)
  | tree hbelow hroot hmid ihbelow ihmid =>
      rw [List.append_assoc, List.cons_append, List.cons_append]
      refine .tree hbelow hroot (ihmid ?_)
      simp only [List.length_append, List.length_map, List.length_cons,
        ← Nat.add_assoc, ← hroot] at hright
      rwa [Nat.add_right_comm]

/-- The roots of a forest: what its slots refer to. -/
def roots (placed : List Placed) : List Nat :=
  (placed.map Prod.fst).filterMap id

@[simp] theorem roots_nil : roots [] = [] := rfl

@[simp] theorem roots_cons_none (tree : Option Tree) :
    roots ((none, tree) :: placed) = roots placed := rfl

@[simp] theorem roots_cons_some (root : Nat) (tree : Option Tree) :
    roots ((some root, tree) :: placed) = root :: roots placed := rfl

theorem children_map_fst (joint : Form Placed) :
    (joint.map Prod.fst).children = roots joint.slots := by
  rw [Form.children, Form.slots_map, roots]

/-- The roots of a forest are among its nodes. -/
theorem mem_roots_bounds (h : Forest lines base placed nodes) {root : Nat}
    (hroot : root ∈ roots placed) :
    base ≤ root ∧ root < base + nodes.length := by
  induction h with
  | nil base => cases hroot
  | skip h ih => exact ih hroot
  | tree hbelow hbase hright ihbelow ihright =>
      simp only [List.length_append, List.length_map, List.length_cons]
      rcases List.mem_cons.1 hroot with rfl | hroot
      · omega
      · have := ihright hroot
        omega

/-- The elements behind a given one. -/
theorem getElem?_back {α : Type} (front back : List α) (x : α) (j : Nat) :
    (front ++ x :: back)[front.length + 1 + j]? = back[j]? := by
  rw [List.getElem?_append_right (by omega),
    show front.length + 1 + j - front.length = j + 1 by omega,
    List.getElem?_cons_succ]

/-- Where an element of a list stands: in front of a given element, at
it or behind it. -/
theorem getElem?_append_cons {α : Type} {front back : List α} {x y : α}
    {k : Nat} (h : (front ++ x :: back)[k]? = some y) :
    front[k]? = some y ∧ k < front.length
      ∨ k = front.length ∧ x = y
      ∨ ∃ j, k = front.length + 1 + j ∧ back[j]? = some y := by
  rcases Nat.lt_trichotomy k front.length with hlt | rfl | hgt
  · rw [List.getElem?_append_left hlt] at h
    exact Or.inl ⟨h, hlt⟩
  · rw [List.getElem?_append_right (Nat.le_refl _), Nat.sub_self,
      List.getElem?_cons_zero] at h
    exact Or.inr (Or.inl ⟨rfl, Option.some.inj h⟩)
  · obtain ⟨j, rfl⟩ := Nat.exists_eq_add_of_lt hgt
    rw [Nat.add_right_comm, getElem?_back] at h
    exact Or.inr (Or.inr ⟨j, Nat.add_right_comm .., h⟩)

/-- The nodes of a forest without a parent are its roots. -/
theorem parent_eq_none_iff (h : Forest lines base placed nodes) {k : Nat}
    {node : Node} (hk : nodes[k]? = some node) :
    node.parent = none ↔ base + k ∈ roots placed := by
  induction h generalizing k with
  | nil base => simp at hk
  | skip h ih => exact ih hk
  | @tree base root _ _ _ joint placed below right
      hbelow hbase hright ihbelow ihright =>
      rw [roots_cons_some, List.mem_cons]
      rcases getElem?_append_cons hk with ⟨hk, hlt⟩ | ⟨rfl, rfl⟩
        | ⟨j, rfl, hj⟩
      · rw [List.getElem?_map] at hk
        obtain ⟨child, -, rfl⟩ := Option.map_eq_some_iff.1 hk
        rw [List.length_map] at hlt
        have hne : base + k ≠ root := by omega
        have hmem : base + k ∉ roots placed := fun hmem => by
          have := mem_roots_bounds hright hmem
          omega
        simp [Node.under, hne, hmem]
      · simp [hbase]
      · rw [List.length_map, ihright hj, hbase]
        have hne : base + (below.length + 1 + j) ≠ base + below.length := by
          omega
        rw [← Nat.add_assoc, ← Nat.add_assoc]
        exact ⟨Or.inr, fun h => h.resolve_left (by omega)⟩

end Forest

-- ================================================== laying out a forest

variable {lines}

/-- Setting the parents of some nodes, node by node. -/
theorem getElem?_foldl_modify (children : List Nat) (parent : Ref)
    (nodes : Array Node) (j : Nat) :
    (children.foldl (fun nodes child =>
      nodes.modify child fun n => { n with parent }) nodes)[j]?
      = if j ∈ children then nodes[j]?.map fun n => { n with parent }
        else nodes[j]? := by
  induction children generalizing nodes with
  | nil => rfl
  | cons child children ih =>
      rw [List.foldl_cons, ih, Array.getElem?_modify]
      by_cases hc : child = j
      · subst hc
        cases nodes[child]? <;> simp
      · simp [hc, Ne.symm hc]

/-- Putting the roots of a forest under a node leaves every other node as
it is. -/
theorem foldl_modify_forest {arena : Arena} {placed : List Placed}
    {below : List Node} (h : Forest lines arena.size placed below)
    (parent : Nat) :
    (Forest.roots placed).foldl (fun nodes child =>
      nodes.modify child fun n => { n with parent := some parent })
      (arena.nodes ++ below.toArray)
      = arena.nodes ++ (below.map (Node.under parent)).toArray := by
  refine Array.ext_getElem? fun j => ?_
  rw [getElem?_foldl_modify]
  -- nodes that were there before are nobody's children here
  rcases Nat.lt_or_ge j arena.size with hlt | hge
  · have hmem : j ∉ Forest.roots placed := fun hmem => by
      have := (h.mem_roots_bounds hmem).1
      omega
    rw [if_neg hmem, Array.getElem?_append_left hlt,
      Array.getElem?_append_left hlt]
  · obtain ⟨k, rfl⟩ := Nat.exists_eq_add_of_le hge
    rw [Array.getElem?_append_right hge, Array.getElem?_append_right hge]
    simp only [Arena.size, Nat.add_sub_cancel_left, List.getElem?_toArray,
      List.getElem?_map]
    cases hk : below[k]? with
    | none => simp
    | some node =>
        have hroot := h.parent_eq_none_iff hk
        rw [Arena.size] at hroot
        cases hp : node.parent with
        | none =>
            rw [if_pos (hroot.1 hp), Option.map_some, Option.map_some,
              Node.under_of_eq_none hp]
        | some p =>
            rw [if_neg fun hmem => by simp [hroot.2 hmem] at hp,
              Option.map_some, Node.under_of_eq_some hp]

/-- Adding the node above a forest puts the roots under it. -/
theorem add_forest {arena : Arena} {below : List Node} {joint : Form Placed}
    (h : Forest lines arena.size joint.slots below) {node : Node}
    (hform : node.form = joint.map Prod.fst) :
    Arena.add ⟨arena.nodes ++ below.toArray⟩ node
      = ⟨arena.nodes
          ++ (below.map (Node.under (arena.size + below.length))
            ++ [node]).toArray⟩ := by
  have hsize : Arena.size ⟨arena.nodes ++ below.toArray⟩
      = arena.size + below.length := by simp [Arena.size]
  rw [Arena.add, hsize, hform, Forest.children_map_fst,
    foldl_modify_forest h]
  simp

/-- A tree is laid out as a forest of that tree alone. -/
def LaysOut (lines : Text.LineMap) (tree : Tree) : Prop :=
  ∀ arena : Arena, ∃ root nodes,
    (tree.layOut lines).run arena = (root, ⟨arena.nodes ++ nodes.toArray⟩)
      ∧ Forest lines arena.size [(some root, some tree)] nodes

/-- Slots are laid out as a forest when each of their trees is. -/
theorem layOutSlots_forest {slots : List (Option Tree)}
    (h : ∀ tree, some tree ∈ slots → LaysOut lines tree) (arena : Arena) :
    ∃ placed nodes, placed.map Prod.snd = slots
      ∧ (layOutSlots lines slots).run arena = (placed.map Prod.fst,
        ⟨arena.nodes ++ nodes.toArray⟩)
      ∧ Forest lines arena.size placed nodes := by
  induction slots generalizing arena with
  | nil => exact ⟨[], [], rfl, by simp [layOutSlots]; rfl, .nil _⟩
  | cons slot slots ih =>
      have hslots := fun tree htree =>
        h tree (List.mem_cons_of_mem slot htree)
      cases slot with
      | none =>
          obtain ⟨placed, nodes, hsnd, hrun, hforest⟩ := ih hslots arena
          refine ⟨(none, none) :: placed, nodes, by simp [hsnd], ?_,
            .skip hforest⟩
          rw [layOutSlots_none, hrun]
          rfl
      | some tree =>
          obtain ⟨root, below, hroot, htree⟩ :=
            h tree (List.mem_cons_self ..) arena
          obtain ⟨placed, nodes, hsnd, hrun, hforest⟩ := ih hslots
            ⟨arena.nodes ++ below.toArray⟩
          -- the slots behind are laid out behind the nodes of this one
          have hsize : Arena.size ⟨arena.nodes ++ below.toArray⟩
              = arena.size + below.length := by simp [Arena.size]
          rw [hsize] at hforest
          refine ⟨(some root, some tree) :: placed, below ++ nodes,
            by simp [hsnd], ?_, htree.append hforest⟩
          rw [layOutSlots_some, hroot]
          simp only [hrun, List.map_cons, Array.append_assoc,
            List.append_toArray]

/-- Laying out a tree appends its nodes, the root last. -/
theorem layOut_forest (tree : Tree) : LaysOut lines tree := by
  induction tree using Tree.induct with
  | node start stop doc form ih =>
      intro arena
      obtain ⟨joint, rfl, hrefs, hform⟩ := layOutForm_run lines form arena
      obtain ⟨placed, below, hsnd, hrun, hforest⟩ := layOutSlots_forest
        (fun tree htree => ih tree (Form.mem_children.2 htree)) arena
      have hplaced : placed = joint.slots := by
        rw [hrun] at hrefs
        rw [Form.slots_map] at hsnd
        rw [List.zip_of_prod hrefs hsnd]
        exact (List.zip_of_prod rfl rfl).symm
      subst hplaced
      have hsize : Arena.size ⟨arena.nodes ++ below.toArray⟩
          = arena.size + below.length := by simp [Arena.size]
      refine ⟨arena.size + below.length, _, ?_,
        .tree hforest rfl (.nil _)⟩
      rw [layOut_node, hform, hrun]
      exact Prod.ext hsize (add_forest hforest rfl)

end ScriptLint
