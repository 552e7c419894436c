/-
Walking an arena with a stack. In an arena whose nodes list only nodes
before them (`Arena.Ordered`), with or without several parents for a node,
the walk that keeps the nodes still to come on a stack ends, and it has come
to the nodes of `preorder` in that order (`Arena.preorder_of_ordered`).

Both sides are compared by the equation for a single root
(`Arena.preorder_some`): there the depth to which `forest` goes down no
longer shows, and the stack may hold anything else below.

# The argument

- That a walk ends in some nodes is a relation built from its steps
  (`Ends`), and there is one way to end (`Ends.unique`).
- The nodes below a node have smaller numbers (`Ordered.lt_of_child`), so
  the walk over a node is an induction on its number: it ends with the
  nodes below it, whatever else is on the stack (`Ordered.walksOver`).
- Several parents for a node make it turn up several times, on both sides.
-/
import ScriptLint.Proofs.Syntax.Nodes

namespace ScriptLint.Arena

variable {arena : Arena} {i : Nat} {node : Node}

-- ============================================================== orders

/-- Every node lists only nodes with smaller numbers than its own. -/
def Ordered (arena : Arena) : Prop :=
  ∀ i < arena.size, ∀ child ∈ arena.childrenOf i, child < i

instance (arena : Arena) : Decidable arena.Ordered :=
  inferInstanceAs (Decidable
    (∀ i < arena.size, ∀ child ∈ arena.childrenOf i, child < i))

theorem Ordered.lt_of_child (h : arena.Ordered)
    (hnode : arena.nodes[i]? = some node) {child : Nat}
    (hchild : child ∈ node.form.children) : child < i := by
  have hlt : i < arena.size := (Array.getElem?_eq_some_iff.1 hnode).1
  exact h i hlt child (childrenOf_eq hnode ▸ hchild)

-- ============================================================= forests

/-- A walk over several trees is one over each of them in turn. -/
theorem forest_eq_flatMap (arena : Arena) (depth : Nat)
    (roots after : List Nat) :
    arena.forest depth roots after
      = (roots.flatMap fun i => arena.forest depth [i] []) ++ after := by
  induction depth generalizing roots after with
  | zero =>
      have hnone : (roots.flatMap fun i => arena.forest 0 [i] []) = [] :=
        List.flatMap_eq_nil_iff.2 fun _ _ => rfl
      rw [hnone]
      rfl
  | succ depth ih =>
      induction roots with
      | nil => rfl
      | cons i roots ihroots =>
          rw [Forest.forest_cons, List.flatMap_cons, List.append_assoc,
            ← ihroots, Forest.forest_cons]
          cases arena.nodes[i]? with
          | none => rfl
          | some node =>
              dsimp only
              rw [ih, ih _ (arena.forest (depth + 1) [] [])]
              simp only [List.cons_append, List.append_assoc]
              rfl

/-- Below its number a node has no branch that is cut off, however much
further the walk might go. -/
theorem Ordered.forest_single (h : arena.Ordered) {depth depth' : Nat}
    (hdepth : i < depth) (hdepth' : i < depth') :
    arena.forest depth [i] [] = arena.forest depth' [i] [] := by
  induction i using Nat.strongRecOn generalizing depth depth' with
  | ind i ih =>
      obtain ⟨depth, rfl⟩ :=
        Nat.exists_eq_add_one_of_ne_zero (by omega : depth ≠ 0)
      obtain ⟨depth', rfl⟩ :=
        Nat.exists_eq_add_one_of_ne_zero (by omega : depth' ≠ 0)
      rw [Forest.forest_cons, Forest.forest_cons]
      cases hnode : arena.nodes[i]? with
      | none => rfl
      | some node =>
          dsimp only
          rw [forest_eq_flatMap, forest_eq_flatMap arena depth']
          have hchildren : (node.form.children.flatMap fun child =>
              arena.forest depth [child] [])
              = node.form.children.flatMap fun child =>
                arena.forest depth' [child] [] :=
            List.flatMap_congr fun child hchild => by
              have hlt := h.lt_of_child hnode hchild
              exact ih child hlt (by omega) (by omega)
          rw [hchildren]
          rfl

/-- The order in which a walk comes to the nodes of a subtree: the root, and
then the subtrees of its children. -/
theorem Ordered.preorder_some (h : arena.Ordered)
    (hnode : arena.nodes[i]? = some node) :
    arena.preorder (some i)
      = i :: node.form.children.flatMap fun child =>
        arena.preorder (some child) := by
  have hlt : i < arena.size := (Array.getElem?_eq_some_iff.1 hnode).1
  have hroot : arena.preorder (some i) = arena.forest (i + 1) [i] [] :=
    h.forest_single hlt (Nat.lt_succ_self i)
  rw [hroot, Forest.forest_cons, hnode]
  dsimp only
  rw [forest_eq_flatMap, show arena.forest (i + 1) [] [] = [] from rfl,
    List.append_nil]
  refine congrArg (i :: ·) (List.flatMap_congr fun child hchild => ?_)
  have hchildlt := h.lt_of_child hnode hchild
  exact h.forest_single hchildlt (by omega)

/-- A reference to no node has no subtree. -/
theorem preorder_of_node?_eq_none {root : Ref}
    (h : arena.node? root = none) : arena.preorder root = [] := by
  cases root with
  | none => rw [preorder, Option.toList_none, forest_eq_flatMap]; rfl
  | some i =>
      have hnode : arena.nodes[i]? = none := h
      rw [preorder, Option.toList_some]
      cases arena.size with
      | zero => rfl
      | succ depth => rw [Forest.forest_cons, hnode]; rfl

-- =============================================================== walks

/-- A walk on its way: the nodes that it has come to, in order, and a stack
of the references to be looked at, the next one last. -/
structure Walk where
  order : List Nat := []
  stack : List Ref
  deriving Repr, DecidableEq

/-- Takes the next reference off the stack. If it is to a node, the walk has
come to that, and the children are put on the stack in reverse, so that the
first one is the next. With an empty stack the walk is over. -/
def advance? (arena : Arena) (walk : Walk) : Option Walk :=
  walk.stack.getLast?.map fun ref =>
    match ref, arena.node? ref with
    | some i, some node =>
      { order := walk.order ++ [i]
        stack := walk.stack.dropLast ++ (node.form.children.map some).reverse }
    | _, _ => { walk with stack := walk.stack.dropLast }

/-- The walk is over after some steps, and has come to certain nodes by
then. -/
inductive Ends (arena : Arena) : Walk → List Nat → Prop where
  | finished {walk : Walk} : arena.advance? walk = none →
    Ends arena walk walk.order
  | step {walk later : Walk} {order : List Nat} :
    arena.advance? walk = some later → Ends arena later order →
    Ends arena walk order

/-- A walk ends in one way. -/
theorem Ends.unique {walk : Walk} {order order' : List Nat}
    (h : arena.Ends walk order) (h' : arena.Ends walk order') :
    order = order' := by
  induction h with
  | finished hdone =>
      cases h' with
      | finished => rfl
      | step hstep => rw [hdone] at hstep; cases hstep
  | step hstep _ ih =>
      cases h' with
      | finished hdone => rw [hdone] at hstep; cases hstep
      | step hstep' hlater =>
          rw [hstep] at hstep'
          cases hstep'
          exact ih hlater

variable {order result : List Nat} {stack : List Ref}

theorem advance?_node (hnode : arena.nodes[i]? = some node) :
    arena.advance? ⟨order, stack ++ [some i]⟩
      = some ⟨order ++ [i],
          stack ++ (node.form.children.map some).reverse⟩ := by
  have hfound : arena.node? (some i) = some node := hnode
  simp only [advance?, List.getLast?_concat, Option.map_some, hfound,
    List.dropLast_concat]

theorem advance?_of_node?_eq_none {root : Ref}
    (h : arena.node? root = none) :
    arena.advance? ⟨order, stack ++ [root]⟩ = some ⟨order, stack⟩ := by
  simp only [advance?, List.getLast?_concat, Option.map_some, h,
    List.dropLast_concat]

/-- A reference on top of the stack is walked over first, whatever the walk
has come to before and whatever else lies below. -/
def WalksOver (arena : Arena) (root : Ref) : Prop :=
  ∀ order stack result,
    arena.Ends ⟨order ++ arena.preorder root, stack⟩ result →
    arena.Ends ⟨order, stack ++ [root]⟩ result

theorem walksOver_of_node?_eq_none {root : Ref}
    (h : arena.node? root = none) : arena.WalksOver root := by
  intro order stack result hend
  rw [preorder_of_node?_eq_none h, List.append_nil] at hend
  exact .step (advance?_of_node?_eq_none h) hend

/-- Children that have been put on the stack are walked over one by one. -/
theorem ends_of_children {children : List Nat}
    (hdone : ∀ child ∈ children, arena.WalksOver (some child))
    (h : arena.Ends ⟨order ++ children.flatMap fun child =>
      arena.preorder (some child), stack⟩ result) :
    arena.Ends ⟨order, stack ++ (children.map some).reverse⟩ result := by
  induction children generalizing order with
  | nil => simpa using h
  | cons child children ih =>
      obtain ⟨hfirst, hmore⟩ := List.forall_mem_cons.1 hdone
      rw [List.flatMap_cons, ← List.append_assoc] at h
      rw [List.map_cons, List.reverse_cons, ← List.append_assoc]
      exact hfirst _ _ _ (ih hmore h)

theorem Ordered.walksOver (h : arena.Ordered) (root : Ref) :
    arena.WalksOver root := by
  cases root with
  | none => exact walksOver_of_node?_eq_none rfl
  | some i =>
      -- on the number of the node: its children have smaller ones
      induction i using Nat.strongRecOn with
      | ind i ih =>
          cases hnode : arena.nodes[i]? with
          | none =>
              have hroot : arena.node? (some i) = none := hnode
              exact walksOver_of_node?_eq_none hroot
          | some node =>
              intro order stack result hend
              rw [h.preorder_some hnode, List.append_cons] at hend
              exact .step (advance?_node hnode) (ends_of_children
                (fun child hchild => ih child (h.lt_of_child hnode hchild))
                hend)

/-- The walk with a stack ends, whatever reference it begins with, and has
then come to the nodes of `preorder`: to the root and to the subtrees of its
children, in their order, or to none if the reference is to no node. -/
theorem preorder_of_ordered (arena : Arena) (h : arena.Ordered)
    (root : Ref) :
    arena.preorder root
        = (arena.node? root).elim [] (fun node => root.toList
          ++ node.form.children.flatMap fun child =>
            arena.preorder (some child))
      ∧ ∀ order, arena.Ends { stack := [root] } order
        ↔ order = arena.preorder root := by
  constructor
  · cases hnode : arena.node? root with
    | none => exact preorder_of_node?_eq_none hnode
    | some node =>
        obtain ⟨i, rfl, hfound⟩ := Option.bind_eq_some_iff.1 hnode
        exact h.preorder_some hfound
  · have hdone : arena.Ends ⟨arena.preorder root, []⟩
        (arena.preorder root) := .finished rfl
    have hend : arena.Ends { stack := [root] } (arena.preorder root) :=
      h.walksOver root [] [] _ hdone
    intro order
    constructor
    · intro horder
      exact horder.unique hend
    · rintro rfl
      exact hend

/-- A sum of a name and the same name in parentheses: both its own child and
that of the parentheses, the name is come to twice. -/
theorem preorder_of_ordered_shared :
    let arena : Arena := ⟨#[
      { form := .identifier "a", start := 0, stop := 1, line := 1 },
      { form := .paren (some 0), start := 0, stop := 3, line := 1 },
      { form := .binary (some 0) Punctuator.plus (some 1), start := 0,
        stop := 5, line := 1 }]⟩
    arena.Ordered ∧ arena.Ends { stack := [some 2] } [2, 0, 1, 0] := by
  intro arena
  have hordered : arena.Ordered := by decide
  refine ⟨hordered, ?_⟩
  exact ((arena.preorder_of_ordered hordered (some 2)).2 _).2 (by decide)

end ScriptLint.Arena
