/-
The arena of a tree is that tree again: a single tree of nodes, in which
parents list their children and children point back at their parents.
`isTree_ofTree` says so of the numbers alone, `shows_ofTree` ties each
number to the subtree that was laid out there.

Both speak of a tree that is there before its nodes are. The parser adds
nodes one by one and has no tree to go by; that it leaves the layout of the
tree that it reads, and so a single tree of nodes, is the matter of
`Arena.parse_eq` and `Arena.isTree_of_parse`.

Numbers only ever point downwards, to children that come before their
parent. What a proof needs from the links upwards it gets by going down:
a fact about the root that passes from every node to its children holds
of every node (`IsTree.induct`).

# What other files use

- `isTree_shows_ofTree`: the arena of a tree is one, and shows it at its
  root.
- `Shows`: which subtree a node is the root of. It determines the form, the
  places and the children of the node (`Shows.exists_joint`).
- `IsTree.induct`: what passes from parents to children holds everywhere.
-/
import ScriptLint.Proofs.Parse.Contract
import ScriptLint.Proofs.Syntax.Layout
import Mathlib.Data.List.Perm.Basic

namespace ScriptLint

variable {lines : Text.LineMap}

namespace Forest

variable {base : Nat} {placed : List Placed} {nodes : List Node}

-- =============================================================== links

/-- Every number of a forest stands either among the children of one of
its nodes or among its roots, and there once. -/
theorem listed_perm (h : Forest lines base placed nodes) :
    (nodes.flatMap (fun node => node.form.children) ++ roots placed).Perm
      (List.range' base nodes.length) := by
  induction h with
  | nil base => exact .refl _
  | skip h ih => exact ih
  | @tree base root _ _ _ joint placed below right
      hbelow hroot hright ihbelow ihright =>
      have hchildren : (below.map (Node.under root)).flatMap
          (fun node => node.form.children)
          = below.flatMap fun node => node.form.children := by
        rw [List.flatMap_map]
        rfl
      rw [List.flatMap_append, List.flatMap_cons, hchildren,
        children_map_fst, roots_cons_some, List.append_assoc,
        List.append_assoc, ← List.append_assoc, List.length_append,
        List.length_map, List.length_cons, ← List.range'_append_1, ← hroot,
        List.range'_succ]
      exact ihbelow.append (List.perm_middle.trans (ihright.cons root))

/-- The nodes below a root stand in front, linked to it. -/
theorem getElem?_below {below : List Node} {root k : Nat} {n : Node}
    (hk : below[k]? = some n) (node : Node) (right : List Node) :
    (below.map (Node.under root) ++ node :: right)[k]?
      = some (n.under root) := by
  have hlt : k < below.length := (List.getElem?_eq_some_iff.1 hk).1
  rw [List.getElem?_append_left (by simpa using hlt), List.getElem?_map,
    hk, Option.map_some]

/-- A child comes before the node that lists it, and that node is its
parent. -/
theorem parent_of_child (h : Forest lines base placed nodes) {k : Nat}
    {node : Node} (hk : nodes[k]? = some node) {child : Nat}
    (hchild : child ∈ node.form.children) :
    ∃ j n, child = base + j ∧ j < k ∧ nodes[j]? = some n
      ∧ n.parent = some (base + k) := by
  induction h generalizing k node with
  | nil base => simp at hk
  | skip h ih => exact ih hk hchild
  | @tree base root _ _ _ joint placed below right
      hbelow hroot hright ihbelow ihright =>
      -- the node lies below the root, is the root, or lies to the right of it
      rcases getElem?_append_cons hk with ⟨hk, hlt⟩ | ⟨rfl, rfl⟩
        | ⟨m, rfl, hm⟩
      · rw [List.getElem?_map] at hk
        obtain ⟨node, hnode, rfl⟩ := Option.map_eq_some_iff.1 hk
        obtain ⟨j, n, rfl, hj, hn, hp⟩ := ihbelow hnode hchild
        refine ⟨j, n, rfl, hj, ?_, hp⟩
        rw [getElem?_below hn, Node.under_of_eq_some hp]
      · rw [children_map_fst] at hchild
        have hbounds := hbelow.mem_roots_bounds hchild
        obtain ⟨j, rfl⟩ := Nat.exists_eq_add_of_le hbounds.1
        have hj : j < below.length := by omega
        have hn := List.getElem?_eq_getElem hj
        have hp := (hbelow.parent_eq_none_iff hn).2 hchild
        refine ⟨j, below[j].under root, rfl, by simpa using hj,
          getElem?_below hn _ _, ?_⟩
        rw [Node.under_of_eq_none hp, hroot, List.length_map]
      · obtain ⟨j, n, rfl, hj, hn, hp⟩ := ihright hm hchild
        refine ⟨_, n, ?_, ?_, (getElem?_back _ right _ j).trans hn, ?_⟩
        · rw [List.length_map]
          omega
        · omega
        · rw [hp, hroot, List.length_map]
          exact congrArg some (by omega)

-- =============================================================== walks

/-- An arena holds the nodes of a forest, if perhaps under other
parents. -/
def HeldBy (base : Nat) (nodes : List Node) (arena : Arena) : Prop :=
  ∀ k node, nodes[k]? = some node →
    ∃ parent, arena.nodes[base + k]? = some { node with parent }

theorem heldBy_self (nodes : List Node) :
    HeldBy 0 nodes ⟨nodes.toArray⟩ := by
  intro k node hk
  refine ⟨node.parent, ?_⟩
  rw [Nat.zero_add, List.getElem?_toArray, hk]

/-- The parts of a forest are held when it is. -/
theorem HeldBy.split {arena : Arena} {root : Nat} {node : Node}
    {below right : List Node} (hroot : root = base + below.length)
    (h : HeldBy base (below.map (Node.under root) ++ node :: right) arena) :
    HeldBy base below arena
      ∧ (∃ parent, arena.nodes[root]? = some { node with parent })
      ∧ HeldBy (root + 1) right arena := by
  subst hroot
  refine ⟨fun k child hk => ?_, ?_, fun k child hk => ?_⟩
  · obtain ⟨parent, hp⟩ := h k _ (getElem?_below hk node right)
    exact ⟨parent, hp⟩
  · have := h below.length node (by simp)
    exact this
  · have := h (below.length + 1 + k) child (by
      have hback := getElem?_back
        (below.map (Node.under (base + below.length))) right node k
      rw [List.length_map] at hback
      rw [hback, hk])
    simpa only [Nat.add_assoc] using this

theorem forest_cons (arena : Arena) (depth i : Nat) (roots after : List Nat) :
    arena.forest (depth + 1) (i :: roots) after
      = match arena.nodes[i]? with
        | some node => i :: arena.forest depth node.form.children
            (arena.forest (depth + 1) roots after)
        | none => arena.forest (depth + 1) roots after := rfl

/-- A walk over a forest, with room for its depth, comes to each of its
nodes once. -/
theorem exists_order (h : Forest lines base placed nodes) {arena : Arena}
    (hheld : HeldBy base nodes arena) {depth : Nat}
    (hdepth : nodes.length ≤ depth) (after : List Nat) :
    ∃ order, arena.forest depth (roots placed) after = order ++ after
      ∧ order.Perm (List.range' base nodes.length) := by
  induction h generalizing depth after with
  | nil base => cases depth <;> exact ⟨[], rfl, .refl _⟩
  | skip h ih => exact ih hheld hdepth after
  | @tree base root _ _ _ joint placed below right
      hbelow hroot hright ihbelow ihright =>
      simp only [List.length_append, List.length_map, List.length_cons]
        at hdepth ⊢
      obtain ⟨depth, rfl⟩ := Nat.exists_eq_add_of_lt
        (Nat.lt_of_lt_of_le (by omega : 0 < _) hdepth)
      obtain ⟨hheldBelow, ⟨parent, hnode⟩, hheldRight⟩ :=
        HeldBy.split hroot hheld
      obtain ⟨orderRight, hwalkRight, hpermRight⟩ :=
        ihright hheldRight (by omega : right.length ≤ 0 + depth + 1) after
      obtain ⟨orderBelow, hwalkBelow, hpermBelow⟩ :=
        ihbelow hheldBelow (by omega : below.length ≤ 0 + depth)
          (orderRight ++ after)
      refine ⟨root :: (orderBelow ++ orderRight), ?_, ?_⟩
      · rw [roots_cons_some, forest_cons, hnode, hwalkRight]
        simp only [children_map_fst, hwalkBelow, List.append_assoc,
          List.cons_append]
      · rw [← List.range'_append_1, ← hroot, List.range'_succ]
        refine List.Perm.trans ?_ List.perm_middle.symm
        exact (hpermBelow.append hpermRight).cons root

end Forest

namespace Arena

variable {arena : Arena}

-- ============================================================= display

/-- The node with a number is the root of a given subtree. -/
inductive Shows (lines : Text.LineMap) (arena : Arena) :
    Nat → Tree → Prop where
  | node {i start stop : Nat} {doc : Option String} {joint : Form Placed}
    {parent : Ref} :
    arena.nodes[i]? = some
      { form := joint.map Prod.fst, start, stop,
        line := lines.lineOf start, parent, doc } →
    (∀ slot ∈ joint.slots, slot.1.isSome = slot.2.isSome) →
    (∀ child tree, (some child, some tree) ∈ joint.slots →
      Shows lines arena child tree) →
    Shows lines arena i (.node start stop doc (joint.map Prod.snd))

/-- The slots of a forest are filled alike on both sides. -/
theorem isSome_of_forest {base : Nat} {placed : List Placed}
    {nodes : List Node} (h : Forest lines base placed nodes) :
    ∀ slot ∈ placed, slot.1.isSome = slot.2.isSome := by
  induction h with
  | nil base => intro slot hslot; cases hslot
  | skip h ih =>
      intro slot hslot
      rcases List.mem_cons.1 hslot with rfl | hslot
      · rfl
      · exact ih slot hslot
  | tree hbelow hroot hright ihbelow ihright =>
      intro slot hslot
      rcases List.mem_cons.1 hslot with rfl | hslot
      · rfl
      · exact ihright slot hslot

/-- Every root of a forest shows its tree. -/
theorem shows_of_forest {base : Nat} {placed : List Placed}
    {nodes : List Node} (h : Forest lines base placed nodes)
    (hheld : Forest.HeldBy base nodes arena) :
    ∀ i tree, (some i, some tree) ∈ placed → arena.Shows lines i tree := by
  induction h with
  | nil base => intro i tree hslot; cases hslot
  | skip h ih =>
      intro i tree hslot
      rcases List.mem_cons.1 hslot with heq | hslot
      · cases heq
      · exact ih hheld i tree hslot
  | tree hbelow hroot hright ihbelow ihright =>
      obtain ⟨hheldBelow, ⟨parent, hnode⟩, hheldRight⟩ := hheld.split hroot
      intro i tree hslot
      rcases List.mem_cons.1 hslot with heq | hslot
      · cases heq
        exact .node hnode (isSome_of_forest hbelow) (ihbelow hheldBelow)
      · exact ihright hheldRight i tree hslot

/-- The numbers of a node's children. -/
def childrenOf (arena : Arena) (i : Nat) : List Nat :=
  (arena.form? (some i)).elim [] Form.children

theorem childrenOf_eq {i : Nat} {node : Node}
    (h : arena.nodes[i]? = some node) :
    arena.childrenOf i = node.form.children := by
  simp [childrenOf, form?, node?, h]

theorem mem_childrenOf {i child : Nat} :
    child ∈ arena.childrenOf i
      ↔ ∃ node, arena.nodes[i]? = some node
        ∧ child ∈ node.form.children := by
  cases h : arena.nodes[i]? with
  | none => simp [childrenOf, form?, node?, h]
  | some node => simp [childrenOf_eq h]

theorem parentOf_eq {i : Nat} {node : Node}
    (h : arena.nodes[i]? = some node) :
    arena.parentOf (some i) = node.parent := by
  simp [parentOf, node?, h]

/-- There is nothing to unwrap but parentheses. -/
theorem unwrap_of_form? {ref : Ref} {form : Form Ref}
    (h : arena.form? ref = some form)
    (hform : ∀ inner, form ≠ .paren inner) (steps : Nat) :
    arena.unwrap steps ref = ref := by
  cases steps with
  | zero => rfl
  | succ steps =>
      rw [unwrap, h]
      split
      · rename_i inner hparen
        exact absurd (Option.some.inj hparen) (hform inner)
      · rfl

/-- Every child of a node shows a child of its tree. -/
theorem Shows.exists_child {i child : Nat} {tree : Tree}
    (h : arena.Shows lines i tree) (hchild : child ∈ arena.childrenOf i) :
    ∃ t ∈ tree.form.children, arena.Shows lines child t := by
  obtain ⟨hnode, hfilled, hbelow⟩ := h
  rw [childrenOf_eq hnode, Forest.children_map_fst, Forest.roots,
    List.mem_filterMap] at hchild
  obtain ⟨ref, hmem, rfl⟩ := hchild
  obtain ⟨⟨ref, slot⟩, hslot, rfl⟩ := List.mem_map.1 hmem
  have hsome := hfilled _ hslot
  obtain ⟨t, rfl⟩ := Option.isSome_iff_exists.1 hsome.symm
  exact ⟨t, Form.mem_children.2 (Form.mem_slots_map Prod.snd hslot),
    hbelow child t hslot⟩

-- =============================================================== trees

/-- The nodes of an arena are a single tree with the given root: the root
comes last and has no parent; the children listed all over the arena are
the numbers before the root, each once; a child comes before the node
that lists it and has it as its parent; and the walk from the root comes
to every node once. -/
structure IsTree (arena : Arena) (root : Nat) : Prop where
  size_eq : arena.size = root + 1
  parentOf_root : arena.parentOf (some root) = none
  listed_perm : (arena.nodes.toList.flatMap fun node =>
    node.form.children).Perm (List.range root)
  lt_of_child {i child : Nat} : child ∈ arena.childrenOf i → child < i
  parentOf_child {i child : Nat} : child ∈ arena.childrenOf i →
    arena.parentOf (some child) = some i
  preorder_perm : (arena.preorder (some root)).Perm
    (List.range arena.size)

/-- Every node but the root is the child of its parent. -/
theorem IsTree.exists_parent {root i : Nat} (h : arena.IsTree root)
    (hi : i < root) : ∃ p < arena.size, i ∈ arena.childrenOf p := by
  have hmem := h.listed_perm.mem_iff.2 (List.mem_range.2 hi)
  obtain ⟨node, hnode, hchild⟩ := List.mem_flatMap.1 hmem
  obtain ⟨p, hp⟩ := List.mem_iff_getElem?.1 hnode
  rw [Array.getElem?_toList] at hp
  refine ⟨p, (Array.getElem?_eq_some_iff.1 hp).1, ?_⟩
  rwa [childrenOf_eq hp]

/-- What holds of the root and passes from every node to its children
holds of every node. -/
theorem IsTree.induct {root : Nat} (h : arena.IsTree root)
    {motive : Nat → Prop} (hroot : motive root)
    (hchild : ∀ i child, child ∈ arena.childrenOf i → motive i →
      motive child) (i : Nat) (hi : i < arena.size) : motive i := by
  have hfrom : ∀ d i, i + d = root → motive i := by
    intro d
    induction d using Nat.strongRecOn with
    | ind d ih =>
        intro i hd
        cases d with
        | zero =>
            obtain rfl : i = root := hd
            exact hroot
        | succ d =>
            obtain ⟨p, hp, hmem⟩ := h.exists_parent (i := i) (by omega)
            have hlt := h.lt_of_child hmem
            rw [h.size_eq] at hp
            exact hchild p i hmem (ih (root - p) (by omega) p (by omega))
  rw [h.size_eq] at hi
  exact hfrom (root - i) i (by omega)

/-- A forest of one tree ends with its root. -/
theorem length_of_forest_single {base root : Nat} {tree : Option Tree}
    {nodes : List Node} (h : Forest lines base [(some root, tree)] nodes) :
    base + nodes.length = root + 1 := by
  cases h with
  | tree hbelow hroot hright =>
      cases hright
      simp
      omega

/-- The nodes of a forest of one tree, numbered from 0, are a tree. -/
theorem isTree_of_forest {root : Nat} {tree : Option Tree}
    {nodes : List Node} (h : Forest lines 0 [(some root, tree)] nodes) :
    IsTree ⟨nodes.toArray⟩ root := by
  have hlength := length_of_forest_single h
  rw [Nat.zero_add] at hlength
  have hlookup : ∀ k, (Arena.mk nodes.toArray).nodes[k]? = nodes[k]? :=
    fun k => List.getElem?_toArray
  have hroots : Forest.roots [(some root, tree)] = [root] := rfl
  -- each link downwards has its link upwards, and goes to a smaller number
  have hchild : ∀ {i child : Nat},
      child ∈ childrenOf ⟨nodes.toArray⟩ i →
      child < i ∧ parentOf ⟨nodes.toArray⟩ (some child) = some i := by
    intro i child hmem
    obtain ⟨node, hnode, hmem⟩ := mem_childrenOf.1 hmem
    rw [hlookup] at hnode
    obtain ⟨j, n, rfl, hj, hn, hp⟩ := h.parent_of_child hnode hmem
    rw [Nat.zero_add] at hp ⊢
    exact ⟨hj, by rw [parentOf_eq ((hlookup j).trans hn), hp]⟩
  refine ⟨by simp [size, hlength], ?_, ?_, fun hmem => (hchild hmem).1,
    fun hmem => (hchild hmem).2, ?_⟩
  · have hlast := List.getElem?_eq_getElem (by omega : root < nodes.length)
    rw [parentOf_eq ((hlookup root).trans hlast)]
    exact (h.parent_eq_none_iff hlast).2 (by simp [hroots])
  · have hperm := h.listed_perm
    rw [hroots, hlength, ← List.range_eq_range', List.range_succ] at hperm
    exact (List.perm_append_right_iff [root]).1 hperm
  · obtain ⟨order, hwalk, hperm⟩ := h.exists_order
      (Forest.heldBy_self nodes) (Nat.le_refl nodes.length) []
    rw [← List.range_eq_range'] at hperm
    rw [List.append_nil] at hwalk
    rw [preorder, Option.toList_some, size, List.size_toArray, ← hroots,
      hwalk]
    exact hperm

/-- The arena of a tree is a tree, and its root shows that tree. -/
theorem isTree_shows_ofTree (tree : Tree) :
    (ofTree lines tree).2.IsTree (ofTree lines tree).1
      ∧ (ofTree lines tree).2.Shows lines (ofTree lines tree).1 tree := by
  obtain ⟨root, nodes, hrun, hforest⟩ :=
    (layOut_forest tree : LaysOut lines tree) {}
  have hof : ofTree lines tree = (root, ⟨nodes.toArray⟩) := by
    rw [ofTree, hrun]
    simp
  rw [hof]
  exact ⟨isTree_of_forest hforest, shows_of_forest hforest
    (Forest.heldBy_self nodes) root tree (List.mem_cons_self ..)⟩

end Arena

end ScriptLint
