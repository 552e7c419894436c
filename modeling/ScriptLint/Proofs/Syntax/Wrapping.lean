/-
Parentheses around values. A tree wraps another one if it is the same but
for its places and for parentheses of its own: around what functions return,
and around what variables are initialised with (`Tree.Wraps`).

Of two such trees, the arenas have the same nodes but for the parentheses
(`Arena.Wrapping`). Which nodes belong together is seen from the roots
downwards: the children in a slot of two nodes that do, and the child and
what is in the parentheses where the slot is wrapped (`Arena.Linked`). The
walks over both arenas come to them in the same order
(`Arena.Wrapping.follows_preorder`).

# What other files use

- `Wrapping`: what is asked of two arenas in terms of nodes, so that the
  checks need not speak of trees.
- `Linked.forms` and `Linked.parents`: one step down and one step up from
  nodes that belong together.
- `Wrapping.follows_forest`: the two walks, side by side.
-/
import ScriptLint.Proofs.Parse.Precedence
import ScriptLint.Proofs.Syntax.Nodes
import ScriptLint.Proofs.Syntax.Places

namespace ScriptLint

variable {lines lines' : Text.LineMap}

-- =============================================================== forms

namespace Form

variable {ι κ : Type}

/-- Two forms of one shape, slot by slot. -/
def zip : Form ι → Form κ → Form (ι × κ)
  | .file xs, .file ys => .file (xs.zip ys)
  | .identifier text, _ => .identifier text
  | .thisRef, _ => .thisRef
  | .string value, _ => .string value
  | .number text, _ => .number text
  | .regex text, _ => .regex text
  | .boolean value, _ => .boolean value
  | .null, _ => .null
  | .array xs, .array ys => .array (xs.zip ys)
  | .object xs, .object ys => .object (xs.zip ys)
  | .property x y, .property x' y' => .property (x, x') (y, y')
  | .function x xs y isDeclaration, .function x' xs' y' _ =>
    .function (x, x') (xs.zip xs') (y, y') isDeclaration
  | .member x y, .member x' y' => .member (x, x') (y, y')
  | .element x y, .element x' y' => .element (x, x') (y, y')
  | .call x xs, .call x' xs' => .call (x, x') (xs.zip xs')
  | .construct x xs, .construct x' xs' => .construct (x, x') (xs.zip xs')
  | .unary operator x leading, .unary _ x' _ =>
    .unary operator (x, x') leading
  | .binary x operator y, .binary x' _ y' =>
    .binary (x, x') operator (y, y')
  | .assignment x operator y, .assignment x' _ y' =>
    .assignment (x, x') operator (y, y')
  | .conditional x y z, .conditional x' y' z' =>
    .conditional (x, x') (y, y') (z, z')
  | .paren x, .paren x' => .paren (x, x')
  | .block xs, .block ys => .block (xs.zip ys)
  | .declarations xs, .declarations ys => .declarations (xs.zip ys)
  | .declaration x y, .declaration x' y' => .declaration (x, x') (y, y')
  | .expression x, .expression x' => .expression (x, x')
  | .branch x y z, .branch x' y' z' => .branch (x, x') (y, y') (z, z')
  | .forLoop x y z w, .forLoop x' y' z' w' =>
    .forLoop (x, x') (y, y') (z, z') (w, w')
  | .forIn x y z, .forIn x' y' z' => .forIn (x, x') (y, y') (z, z')
  | .whileLoop x y, .whileLoop x' y' => .whileLoop (x, x') (y, y')
  | .doWhile x y, .doWhile x' y' => .doWhile (x, x') (y, y')
  | .returning x, .returning x' => .returning (x, x')
  | .breaking x, .breaking x' => .breaking (x, x')
  | .continuing x, .continuing x' => .continuing (x, x')
  | .throwing x, .throwing x' => .throwing (x, x')
  | .trying x y z w, .trying x' y' z' w' =>
    .trying (x, x') (y, y') (z, z') (w, w')
  | .switch x xs, .switch x' xs' => .switch (x, x') (xs.zip xs')
  | .clause x xs, .clause x' xs' => .clause (x, x') (xs.zip xs')
  | .labeled x y, .labeled x' y' => .labeled (x, x') (y, y')
  | _, _ => .empty

/-- Forms of one shape are the two sides of one form. -/
theorem exists_zip {a : Form ι} {b : Form κ}
    (h : a.map (fun _ => ()) = b.map (fun _ => ())) :
    ∃ joint : Form (ι × κ), joint.map Prod.fst = a
      ∧ joint.map Prod.snd = b := by
  have hlists {xs : List ι} {ys : List κ} (h : xs.length = ys.length) :
      (xs.zip ys).map Prod.fst = xs ∧ (xs.zip ys).map Prod.snd = ys :=
    ⟨List.map_fst_zip h.le, List.map_snd_zip h.ge⟩
  refine ⟨zip a b, ?_⟩
  cases a <;> cases b <;> first
    | (injection h; done)
    | simp_all [map, zip]

/-- Functions that agree on a form agree on its slots. -/
theorem eq_of_map_eq {f g : ι → κ} {form : Form ι}
    (h : form.map f = form.map g) : ∀ slot ∈ form.slots, f slot = g slot := by
  have hslots := congrArg slots h
  rw [slots_map, slots_map] at hslots
  exact List.map_inj_left.1 hslots

end Form

-- =============================================================== trees

namespace Tree

/-- Whether the tree is a function literal or declaration. -/
def isFunction : Tree → Bool
  | .node _ _ _ (.function ..) => true
  | _ => false

/-- Whether the tree is the keyword `this`. -/
def isThis : Tree → Bool
  | .node _ _ _ .thisRef => true
  | _ => false

/-- Whether the tree is a member of `this`. -/
def isOwnMember : Tree → Bool
  | .node _ _ _ (.member (some owner) _) => owner.isThis
  | _ => false

/-- The tree has fewer than so many pairs of parentheses around it, one in
the other. -/
inductive ParensBelow : Nat → Tree → Prop where
  | bare {n : Nat} {tree : Tree} : (∀ inner, tree.form ≠ .paren inner) →
    ParensBelow (n + 1) tree
  | paren {n : Nat} {tree inner : Tree} :
    tree.form = .paren (some inner) → ParensBelow n inner →
    ParensBelow (n + 1) tree

/-- The value of a return or a declaration that may get parentheses: an
expression that the nesting limit leaves room around. -/
structure Wrappable (value : Tree) : Prop where
  one_le_level : 1 ≤ value.level
  parensBelow : value.ParensBelow Grammar.maxDepth

/-- The second tree is the first one but for its places, in the same lines,
and for parentheses around some values: those of returns, and those of
declarations but for function literals and members of `this`. -/
inductive Wraps (lines lines' : Text.LineMap) : Tree → Tree → Prop where
  | node {start start' stop stop' : Nat} {doc : Option String}
    {joint : Form (Option Tree × Option Tree)} :
    lines.lineOf start = lines'.lineOf start' →
    (∀ slot ∈ joint.slots, slot.1.isSome = slot.2.isSome) →
    (∀ child child', (some child, some child') ∈ joint.slots →
      Wraps lines lines' child child') →
    Wraps lines lines' (.node start stop doc (joint.map Prod.fst))
      (.node start' stop' doc (joint.map Prod.snd))
  | returned {start start' stop stop' : Nat} {doc : Option String}
    {value value' : Tree} {opened closed : Nat} {parenDoc : Option String} :
    lines.lineOf start = lines'.lineOf start' →
    value.Wrappable → Wraps lines lines' value value' →
    Wraps lines lines' (.node start stop doc (.returning (some value)))
      (.node start' stop' doc (.returning
        (some (.node opened closed parenDoc (.paren (some value'))))))
  | initialised {start start' stop stop' : Nat} {doc : Option String}
    {name name' value value' : Tree} {opened closed : Nat}
    {parenDoc : Option String} :
    lines.lineOf start = lines'.lineOf start' →
    Wraps lines lines' name name' →
    value.Wrappable → value.isFunction = false →
    value.isOwnMember = false → Wraps lines lines' value value' →
    Wraps lines lines'
      (.node start stop doc (.declaration (some name) (some value)))
      (.node start' stop' doc (.declaration (some name')
        (some (.node opened closed parenDoc (.paren (some value'))))))

/-- Nodes of one form, slot by slot. -/
theorem Wraps.of_slots {start start' stop stop' : Nat} {doc : Option String}
    (joint : Form (Option Tree × Option Tree))
    (hline : lines.lineOf start = lines'.lineOf start')
    (hslots : ∀ slot ∈ joint.slots,
      Option.Rel (Wraps lines lines') slot.1 slot.2) :
    Wraps lines lines' (.node start stop doc (joint.map Prod.fst))
      (.node start' stop' doc (joint.map Prod.snd)) := by
  refine .node hline (fun slot hslot => ?_) fun child child' hmem => ?_
  · obtain ⟨part, part'⟩ := slot
    cases (show Option.Rel _ part part' from hslots _ hslot) <;> rfl
  · cases (show Option.Rel _ (some child) (some child')
      from hslots _ hmem) with
    | some hchild => exact hchild

end Tree

-- ============================================================== arenas

namespace Arena

variable {arena other : Arena} {pairs : Nat → Nat → Prop}

/-- Where what is left of a reference does not change with the number of
parentheses that are taken off, from some number below the limit on. -/
def UnwrapsInTime (arena : Arena) (ref : Ref) : Prop :=
  ∃ n < walkLimit, ∀ m, n ≤ m → arena.unwrap m ref = arena.unwrap n ref

/-- What stands in a slot of one arena belongs to what stands in one of
another, or to what is there in parentheses. -/
inductive SlotWraps (arena other : Arena) (pairs : Nat → Nat → Prop) :
    Ref → Ref → Prop where
  | plain {ref ref' : Ref} : Option.Rel pairs ref ref' →
    SlotWraps arena other pairs ref ref'
  | wrapped {i j w : Nat} : pairs i j →
    other.form? (some w) = some (.paren (some j)) →
    arena.UnwrapsInTime (some i) →
    SlotWraps arena other pairs (some i) (some w)

/-- The slots of two forms belong together, and are wrapped only where they
may be. -/
def FormWraps (arena other : Arena) (pairs : Nat → Nat → Prop) :
    Form (Ref × Ref) → Prop
  | .returning value => SlotWraps arena other pairs value.1 value.2
  | .declaration name value =>
    Option.Rel pairs name.1 name.2
      ∧ (Option.Rel pairs value.1 value.2
        ∨ SlotWraps arena other pairs value.1 value.2
          ∧ arena.isFunction value.1 = false
          ∧ arena.isOwnMember value.1 = false)
  | form => ∀ slot ∈ form.slots, Option.Rel pairs slot.1 slot.2

/-- The node returns a value or gives one to a variable. -/
def HoldsValue (arena : Arena) (i : Nat) : Prop :=
  (∃ value, arena.form? (some i) = some (.returning value))
    ∨ ∃ name value, arena.form? (some i) = some (.declaration name value)

/-- The parents of two nodes belong together, or the second node is in
parentheses and what they are in does. -/
inductive ParentWraps (arena other : Arena) (pairs : Nat → Nat → Prop)
    (i j : Nat) : Prop where
  | plain : Option.Rel pairs (arena.parentOf (some i))
      (other.parentOf (some j)) →
    ParentWraps arena other pairs i j
  | wrapped {p q w : Nat} : pairs p q →
    arena.parentOf (some i) = some p →
    other.parentOf (some j) = some w → other.parentOf (some w) = some q →
    other.form? (some w) = some (.paren (some j)) →
    arena.HoldsValue p →
    (∀ name value, arena.form? (some i) ≠ some (.property name value)) →
    ParentWraps arena other pairs i j

/-- The second arena is the first one with parentheses of its own. -/
structure Wrapping (arena other : Arena) (pairs : Nat → Nat → Prop) :
    Prop where
  forms {i j : Nat} : pairs i j → ∃ joint : Form (Ref × Ref),
    arena.form? (some i) = some (joint.map Prod.fst)
      ∧ other.form? (some j) = some (joint.map Prod.snd)
      ∧ FormWraps arena other pairs joint
  docOf {i j : Nat} : pairs i j →
    other.docOf (some j) = arena.docOf (some i)
  lineOf {i j : Nat} : pairs i j →
    other.lineOf (some j) = arena.lineOf (some i)
  parents {i j : Nat} : pairs i j → ParentWraps arena other pairs i j

/-- In all slots there are partners, wrapped or not. -/
theorem FormWraps.slotWraps {joint : Form (Ref × Ref)}
    (h : FormWraps arena other pairs joint) :
    ∀ slot ∈ joint.slots, SlotWraps arena other pairs slot.1 slot.2 := by
  intro slot hslot
  cases joint with
  | returning value =>
      rw [List.mem_singleton.1 hslot]
      exact h
  | declaration name value =>
      obtain ⟨hname, hvalue⟩ := h
      rcases List.mem_cons.1 hslot with rfl | hslot
      · exact .plain hname
      · rw [List.mem_singleton.1 hslot]
        exact hvalue.elim .plain And.left
  | _ => exact .plain (h slot hslot)

/-- Where nothing is wrapped, any form will do. -/
theorem FormWraps.of_plain {joint : Form (Ref × Ref)}
    (h : ∀ slot ∈ joint.slots, Option.Rel pairs slot.1 slot.2) :
    FormWraps arena other pairs joint := by
  cases joint with
  | returning value => exact .plain (h value (List.mem_singleton_self _))
  | declaration name value =>
      exact ⟨h name (List.mem_cons_self ..),
        .inl (h value (List.mem_cons_of_mem _ (List.mem_singleton_self _)))⟩
  | _ => exact h

-- =============================================================== shown

variable {i j : Nat} {tree : Tree}

/-- A node and the tree that it shows, slot by slot. -/
theorem Shows.split (h : arena.Shows lines i tree) :
    ∃ joint : Form Placed, arena.form? (some i) = some (joint.map Prod.fst)
      ∧ tree.form = joint.map Prod.snd
      ∧ ∀ slot ∈ joint.slots,
        Option.Rel (arena.Shows lines) slot.1 slot.2 := by
  obtain ⟨hnode, hfilled, hbelow⟩ := h
  refine ⟨_, by simp [form?, node?, hnode], rfl, ?_⟩
  rintro ⟨ref, part⟩ hslot
  cases part with
  | none =>
      have hempty := Option.isSome_eq_false_iff.1 (hfilled _ hslot)
      obtain rfl : ref = none := Option.isNone_iff_eq_none.1 hempty
      exact .none
  | some t =>
      obtain ⟨child, rfl⟩ := Option.isSome_iff_exists.1 (hfilled _ hslot)
      exact .some (hbelow child t hslot)

/-- A node beside whatever its tree has been made of. -/
theorem Shows.exists_beside {α : Type} {joint : Form α}
    {f : α → Option Tree} {start stop : Nat} {doc : Option String}
    (h : arena.Shows lines i (.node start stop doc (joint.map f))) :
    ∃ both : Form (Ref × α),
      arena.form? (some i) = some (both.map Prod.fst)
      ∧ both.map Prod.snd = joint
      ∧ ∀ slot ∈ both.slots,
        Option.Rel (arena.Shows lines) slot.1 (f slot.2) := by
  obtain ⟨placed, hform, hsame, hshown⟩ := h.split
  change joint.map f = placed.map Prod.snd at hsame
  obtain ⟨zipped, hplaced, hjoint⟩ := Form.exists_zip
    (a := placed) (b := joint) (by
      have hshape := congrArg (Form.map fun _ => ()) hsame.symm
      simpa only [Form.map_map, Function.comp_def] using hshape)
  subst hplaced hjoint
  simp only [Form.map_map] at hsame hform
  have hslots := Form.eq_of_map_eq hsame
  refine ⟨zipped.map fun slot => (slot.1.1, slot.2), ?_, ?_, ?_⟩
  · rw [hform, Form.map_map]
    rfl
  · rw [Form.map_map]
    rfl
  · intro slot hslot
    rw [Form.slots_map] at hslot
    obtain ⟨⟨⟨ref, part⟩, x⟩, hmem, rfl⟩ := List.mem_map.1 hslot
    obtain rfl : f x = part := hslots _ hmem
    exact hshown (ref, f x) (Form.mem_slots_map Prod.fst hmem)

/-- Whether a node is a function shows in its tree. -/
theorem Shows.isFunction_eq (h : arena.Shows lines i tree) :
    arena.isFunction (some i) = tree.isFunction := by
  obtain ⟨joint, hform, htree, -⟩ := h.split
  obtain ⟨start, stop, doc, form⟩ := tree
  obtain rfl : form = joint.map Prod.snd := htree
  unfold isFunction Tree.isFunction
  rw [hform]
  cases joint <;> rfl

/-- A node is the identifier that its tree is. -/
theorem Shows.identifier?_eq (h : arena.Shows lines i tree) :
    arena.identifier? (some i) = tree.identifier? := by
  obtain ⟨joint, hform, htree, -⟩ := h.split
  obtain ⟨start, stop, doc, form⟩ := tree
  obtain rfl : form = joint.map Prod.snd := htree
  unfold identifier? Tree.identifier?
  rw [hform]
  cases joint <;> rfl

/-- A node is the word `this` if its tree is. -/
theorem Shows.isThis_eq (h : arena.Shows lines i tree) :
    arena.isThis (some i) = tree.isThis := by
  obtain ⟨joint, hform, htree, -⟩ := h.split
  obtain ⟨start, stop, doc, form⟩ := tree
  obtain rfl : form = joint.map Prod.snd := htree
  unfold isThis Tree.isThis
  rw [hform]
  cases joint <;> rfl

/-- A node is a member of `this` if its tree is. -/
theorem Shows.isOwnMember_eq (h : arena.Shows lines i tree) :
    arena.isOwnMember (some i) = tree.isOwnMember := by
  obtain ⟨joint, hform, htree, hshown⟩ := h.split
  obtain ⟨start, stop, doc, form⟩ := tree
  obtain rfl : form = joint.map Prod.snd := htree
  unfold isOwnMember Tree.isOwnMember
  rw [hform]
  cases joint with
  | member owner name =>
      obtain ⟨ref, part⟩ := owner
      cases (show Option.Rel _ ref part from hshown _ (.head _)) with
      | none => rfl
      | some howner => exact howner.isThis_eq
  | _ => rfl

/-- An expression is no property. -/
theorem Shows.ne_property (h : arena.Shows lines i tree)
    (hlevel : 1 ≤ tree.level) (name value : Ref) :
    arena.form? (some i) ≠ some (.property name value) := by
  obtain ⟨joint, hform, htree, -⟩ := h.split
  unfold Tree.level at hlevel
  rw [htree] at hlevel
  rw [hform]
  intro hproperty
  cases joint with
  | property => exact absurd hlevel (by simp [Form.map, Form.level])
  | _ => cases hproperty

/-- Below a return stands what is returned. -/
theorem Shows.returning {start stop : Nat} {doc : Option String}
    {value : Tree}
    (h : arena.Shows lines i
      (.node start stop doc (.returning (some value)))) :
    ∃ c, arena.form? (some i) = some (.returning (some c))
      ∧ arena.Shows lines c value := by
  obtain ⟨joint, hform, htree, hshown⟩ := h.split
  cases joint with
  | returning slot =>
      obtain ⟨ref, part⟩ := slot
      obtain rfl := Form.returning.inj htree
      cases (show Option.Rel _ ref (some value) from hshown _ (.head _)) with
      | some hvalue => exact ⟨_, hform, hvalue⟩
  | _ => cases htree

/-- Below a pair of parentheses stands what is in them. -/
theorem Shows.paren {start stop : Nat} {doc : Option String} {inner : Tree}
    (h : arena.Shows lines i (.node start stop doc (.paren (some inner)))) :
    ∃ c, arena.form? (some i) = some (.paren (some c))
      ∧ arena.Shows lines c inner := by
  obtain ⟨joint, hform, htree, hshown⟩ := h.split
  cases joint with
  | paren slot =>
      obtain ⟨ref, part⟩ := slot
      obtain rfl := Form.paren.inj htree
      cases (show Option.Rel _ ref (some inner) from hshown _ (.head _)) with
      | some hinner => exact ⟨_, hform, hinner⟩
  | _ => cases htree

/-- Below a declaration stand the variable and its value. -/
theorem Shows.declaration {start stop : Nat} {doc : Option String}
    {name value : Tree} (h : arena.Shows lines i
      (.node start stop doc (.declaration (some name) (some value)))) :
    ∃ n c, arena.form? (some i) = some (.declaration (some n) (some c))
      ∧ arena.Shows lines n name ∧ arena.Shows lines c value := by
  obtain ⟨joint, hform, htree, hshown⟩ := h.split
  cases joint with
  | declaration first second =>
      obtain ⟨ref, part⟩ := first
      obtain ⟨ref', part'⟩ := second
      obtain ⟨rfl, rfl⟩ := Form.declaration.inj htree
      have hfirst : Option.Rel (arena.Shows lines) ref (some name) :=
        hshown _ (.head _)
      have hsecond : Option.Rel (arena.Shows lines) ref' (some value) :=
        hshown _ (.tail _ (.head _))
      cases hfirst with
      | some hname =>
          cases hsecond with
          | some hvalue => exact ⟨_, _, hform, hname, hvalue⟩
  | _ => cases htree

/-- Parentheses below the nesting limit are taken off in time. -/
theorem Shows.exists_unwrap (h : arena.Shows lines i tree) {n : Nat}
    (hparens : tree.ParensBelow n) :
    ∃ k < n, ∀ m, k ≤ m →
      arena.unwrap m (some i) = arena.unwrap k (some i) := by
  induction hparens generalizing i with
  | @bare n tree hbare =>
      obtain ⟨joint, hform, htree, -⟩ := h.split
      refine ⟨0, Nat.succ_pos n, fun m _ => unwrap_of_form? hform ?_ m⟩
      intro inner hparen
      cases joint with
      | paren => exact hbare _ htree
      | _ => cases hparen
  | @paren n tree inner hparen hbelow ih =>
      obtain ⟨start, stop, doc, form⟩ := tree
      obtain rfl : form = .paren (some inner) := hparen
      obtain ⟨c, hform, hinner⟩ := h.paren
      obtain ⟨k, hk, hunwrap⟩ := ih hinner
      have hstep (m : Nat) : arena.unwrap (m + 1) (some i)
          = arena.unwrap m (some c) := by
        rw [unwrap, hform]
      refine ⟨k + 1, Nat.succ_lt_succ hk, fun m hm => ?_⟩
      obtain ⟨m, rfl⟩ := Nat.exists_eq_add_of_le' hm
      rw [← Nat.add_assoc, hstep, hstep, hunwrap _ (by omega)]

/-- What is wrapped so few times is unwrapped in time. -/
theorem Shows.unwrapsInTime (h : arena.Shows lines i tree)
    (hwrappable : tree.Wrappable) : arena.UnwrapsInTime (some i) := by
  obtain ⟨k, hk, hunwrap⟩ := h.exists_unwrap hwrappable.parensBelow
  exact ⟨k, hk.trans (by decide), hunwrap⟩

/-- Documentation and line are those of the tree. -/
theorem Shows.docOf_lineOf {start stop : Nat} {doc : Option String}
    {form : Form (Option Tree)}
    (h : arena.Shows lines i (.node start stop doc form)) :
    arena.docOf (some i) = doc
      ∧ arena.lineOf (some i) = lines.lineOf start := by
  generalize htree : Tree.node start stop doc form = tree at h
  obtain ⟨hnode, -, -⟩ := h
  obtain ⟨rfl, -, rfl, -⟩ := Tree.node.inj htree
  simp [docOf, lineOf, node?, hnode]

/-- What stands in a slot is a child. -/
theorem mem_childrenOf_of_form? {form : Form Ref} {child : Nat}
    (h : arena.form? (some i) = some form)
    (hchild : some child ∈ form.slots) :
    child ∈ arena.childrenOf i := by
  unfold childrenOf
  rw [h]
  exact Form.mem_children.2 hchild

/-- Children come before their parents. -/
theorem IsTree.lt_of_slot (h : arena.IsTree root) {form : Form Ref}
    (hform : arena.form? (some i) = some form) {child : Nat}
    (hchild : some child ∈ form.slots) : child < i :=
  h.lt_of_child (mem_childrenOf_of_form? hform hchild)

-- =============================================================== links

/-- The nodes of two arenas that belong together: the roots, the children in
the same slots, and where the child of the second arena is a pair of
parentheses, what is in it. -/
inductive Linked (lines lines' : Text.LineMap) (arena other : Arena)
    (root root' : Nat) : Nat → Nat → Prop where
  | root {t t' : Tree} : arena.Shows lines root t →
    other.Shows lines' root' t' → t.Wraps lines lines' t' →
    Linked lines lines' arena other root root' root root'
  | child {p q i j : Nat} {t t' : Tree} :
    Linked lines lines' arena other root root' p q →
    i ∈ arena.childrenOf p → j ∈ other.childrenOf q →
    arena.Shows lines i t → other.Shows lines' j t' →
    t.Wraps lines lines' t' →
    Linked lines lines' arena other root root' i j
  | wrapped {p q w i j : Nat} {t t' : Tree} :
    Linked lines lines' arena other root root' p q →
    i ∈ arena.childrenOf p → w ∈ other.childrenOf q →
    other.form? (some w) = some (.paren (some j)) →
    arena.HoldsValue p →
    arena.Shows lines i t → 1 ≤ t.level → other.Shows lines' j t' →
    t.Wraps lines lines' t' →
    Linked lines lines' arena other root root' i j

variable {root root' : Nat}

/-- What belongs together shows a tree and one that wraps it. -/
theorem Linked.shown (h : Linked lines lines' arena other root root' i j) :
    ∃ t t', arena.Shows lines i t ∧ other.Shows lines' j t'
      ∧ t.Wraps lines lines' t' := by
  cases h with
  | root hi hj hwraps => exact ⟨_, _, hi, hj, hwraps⟩
  | child _ _ _ hi hj hwraps => exact ⟨_, _, hi, hj, hwraps⟩
  | wrapped _ _ _ _ _ hi _ hj hwraps => exact ⟨_, _, hi, hj, hwraps⟩

/-- Linked nodes have the same form, with linked or wrapped children. -/
theorem Linked.forms_of_node
    (h : Linked lines lines' arena other root root' i j)
    {start start' stop stop' : Nat} {doc : Option String}
    {joint : Form (Option Tree × Option Tree)}
    (hi : arena.Shows lines i (.node start stop doc (joint.map Prod.fst)))
    (hj : other.Shows lines' j
      (.node start' stop' doc (joint.map Prod.snd)))
    (hfilled : ∀ slot ∈ joint.slots, slot.1.isSome = slot.2.isSome)
    (hbelow : ∀ child child', (some child, some child') ∈ joint.slots →
      child.Wraps lines lines' child') :
    ∃ joint : Form (Ref × Ref),
      arena.form? (some i) = some (joint.map Prod.fst)
        ∧ other.form? (some j) = some (joint.map Prod.snd)
        ∧ FormWraps arena other
          (Linked lines lines' arena other root root') joint := by
  -- the two forms are brought together slot by slot: first one arena and both
  -- trees, then the other arena as well
  obtain ⟨both, hform, rfl, hshown⟩ := hi.exists_beside
  rw [Form.map_map] at hj
  obtain ⟨all, hform', rfl, hshown'⟩ := hj.exists_beside
  rw [Form.map_map] at hform
  refine ⟨all.map fun slot => (slot.2.1, slot.1), ?_, ?_, .of_plain ?_⟩
  · rw [hform, Form.map_map]
    rfl
  · rw [hform', Form.map_map]
    rfl
  · intro slot hslot
    rw [Form.slots_map] at hslot
    obtain ⟨⟨ref', ref, part, part'⟩, hmem, rfl⟩ := List.mem_map.1 hslot
    have hboth : (ref, part, part') ∈ (all.map Prod.snd).slots :=
      Form.mem_slots_map Prod.snd hmem
    have hparts :
        (part, part') ∈ ((all.map Prod.snd).map Prod.snd).slots :=
      Form.mem_slots_map Prod.snd hboth
    have hpart : Option.Rel (arena.Shows lines) ref part := hshown _ hboth
    have hpart' : Option.Rel (other.Shows lines') ref' part' :=
      hshown' _ hmem
    have hsame : part.isSome = part'.isSome := hfilled _ hparts
    cases hpart with
    | none =>
        cases hpart' with
        | none => exact .none
        | some => cases hsame
    | some hchild =>
        cases hpart' with
        | none => cases hsame
        | some hchild' =>
            have hin := mem_childrenOf_of_form? hform
              (Form.mem_slots_map _ hmem)
            have hin' := mem_childrenOf_of_form? hform'
              (Form.mem_slots_map _ hmem)
            exact .some (h.child hin hin' hchild hchild'
              (hbelow _ _ hparts))

/-- The forms of nodes that belong together differ in wrapped slots
alone. -/
theorem Linked.forms (h : Linked lines lines' arena other root root' i j) :
    ∃ joint : Form (Ref × Ref),
      arena.form? (some i) = some (joint.map Prod.fst)
        ∧ other.form? (some j) = some (joint.map Prod.snd)
        ∧ FormWraps arena other
          (Linked lines lines' arena other root root') joint := by
  obtain ⟨t, t', hi, hj, hwraps⟩ := h.shown
  cases hwraps with
  | node _ hfilled hbelow => exact h.forms_of_node hi hj hfilled hbelow
  | returned _ hwrappable hvalue =>
      obtain ⟨c, hform, hc⟩ := hi.returning
      obtain ⟨w, hform', hw⟩ := hj.returning
      obtain ⟨c', hparen, hc'⟩ := hw.paren
      have hlinked := h.wrapped (mem_childrenOf_of_form? hform (.head _))
        (mem_childrenOf_of_form? hform' (.head _)) hparen (.inl ⟨_, hform⟩)
        hc hwrappable.one_le_level hc' hvalue
      exact ⟨.returning (some c, some w), hform, hform',
        .wrapped hlinked hparen (hc.unwrapsInTime hwrappable)⟩
  | initialised _ hname hwrappable hfunction hown hvalue =>
      obtain ⟨n, c, hform, hn, hc⟩ := hi.declaration
      obtain ⟨n', w, hform', hn', hw⟩ := hj.declaration
      obtain ⟨c', hparen, hc'⟩ := hw.paren
      have hlinked := h.wrapped
        (mem_childrenOf_of_form? hform (.tail _ (.head _)))
        (mem_childrenOf_of_form? hform' (.tail _ (.head _))) hparen
        (.inr ⟨_, _, hform⟩) hc hwrappable.one_le_level hc' hvalue
      have hnames := h.child (mem_childrenOf_of_form? hform (.head _))
        (mem_childrenOf_of_form? hform' (.head _)) hn hn' hname
      exact ⟨.declaration (some n, some n') (some c, some w), hform, hform',
        .some hnames, .inr ⟨.wrapped hlinked hparen
          (hc.unwrapsInTime hwrappable), by rw [hc.isFunction_eq, hfunction],
          by rw [hc.isOwnMember_eq, hown]⟩⟩

/-- They have the same documentation and line. -/
theorem Linked.docOf_lineOf
    (h : Linked lines lines' arena other root root' i j) :
    other.docOf (some j) = arena.docOf (some i)
      ∧ other.lineOf (some j) = arena.lineOf (some i) := by
  obtain ⟨t, t', hi, hj, hwraps⟩ := h.shown
  cases hwraps with
  | node hline _ _ | returned hline _ _ | initialised hline _ _ _ _ _ =>
      rw [hi.docOf_lineOf.1, hi.docOf_lineOf.2, hj.docOf_lineOf.1,
        hj.docOf_lineOf.2, hline]
      exact ⟨rfl, rfl⟩

/-- Their parents are linked, or one has parentheses in between. -/
theorem Linked.parents (harena : arena.IsTree root)
    (hother : other.IsTree root')
    (h : Linked lines lines' arena other root root' i j) :
    ParentWraps arena other (Linked lines lines' arena other root root')
      i j := by
  cases h with
  | root =>
      refine .plain ?_
      rw [harena.parentOf_root, hother.parentOf_root]
      exact .none
  | child hparent hi hj =>
      refine .plain ?_
      rw [harena.parentOf_child hi, hother.parentOf_child hj]
      exact .some hparent
  | wrapped hparent hi hw hparen hplace hshows hlevel =>
      exact .wrapped hparent (harena.parentOf_child hi)
        (hother.parentOf_child (mem_childrenOf_of_form? hparen (.head _)))
        (hother.parentOf_child hw) hparen hplace
        (hshows.ne_property hlevel)

/-- The arenas of a tree and of one that wraps it. -/
theorem wrapping_of_linked (harena : arena.IsTree root)
    (hother : other.IsTree root') :
    Wrapping arena other
      (Linked lines lines' arena other root root') where
  forms := Linked.forms
  docOf h := h.docOf_lineOf.1
  lineOf h := h.docOf_lineOf.2
  parents := Linked.parents harena hother

-- =============================================================== order

/-- The second list of nodes is the first one with parentheses among the
nodes. -/
inductive Follows (other : Arena) (pairs : Nat → Nat → Prop) :
    List Nat → List Nat → Prop where
  | nil : Follows other pairs [] []
  | node {i j : Nat} {nodes nodes' : List Nat} : pairs i j →
    Follows other pairs nodes nodes' →
    Follows other pairs (i :: nodes) (j :: nodes')
  | paren {w : Nat} {inner : Ref} {nodes nodes' : List Nat} :
    other.form? (some w) = some (.paren inner) →
    Follows other pairs nodes nodes' →
    Follows other pairs nodes (w :: nodes')

/-- Without roots nothing is added. -/
theorem forest_nil (depth : Nat) (after : List Nat) :
    arena.forest depth [] after = after := by
  cases depth <;> rfl

/-- What stands to the right of a root comes behind what it leads to. -/
theorem forest_head (depth i : Nat) (roots after : List Nat) :
    arena.forest depth (i :: roots) after
      = arena.forest depth [i] (arena.forest depth roots after) := by
  cases depth <;> rfl

/-- A walk comes to a node, then to its children, then to what stands to the
right. -/
theorem forest_of_form? {form : Form Ref}
    (h : arena.form? (some i) = some form) {depth : Nat} (hdepth : i < depth)
    (roots after : List Nat) :
    arena.forest depth (i :: roots) after
      = i :: arena.forest (depth - 1) form.children
        (arena.forest depth roots after) := by
  obtain ⟨node, hnode, rfl⟩ := Option.map_eq_some_iff.1 h
  have hget : arena.nodes[i]? = some node := hnode
  obtain ⟨depth, rfl⟩ := Nat.exists_eq_add_one_of_ne_zero
    (Nat.ne_zero_of_lt hdepth)
  rw [Forest.forest_cons, hget]
  rfl

/-- The walks from what stands in the slots of nodes that belong together
come to the same nodes but for parentheses. -/
theorem Wrapping.follows_forest (h : Wrapping arena other pairs)
    (harena : arena.IsTree root) (hother : other.IsTree root')
    (depth depth' : Nat) (slots : List (Ref × Ref)) {after after' : List Nat}
    (hslots : ∀ slot ∈ slots, SlotWraps arena other pairs slot.1 slot.2)
    (hdepth : ∀ i, some i ∈ slots.map Prod.fst → i < depth)
    (hdepth' : ∀ j, some j ∈ slots.map Prod.snd → j < depth')
    (hafter : Follows other pairs after after') :
    Follows other pairs
      (arena.forest depth ((slots.map Prod.fst).filterMap id) after)
      (other.forest depth' ((slots.map Prod.snd).filterMap id) after') := by
  -- on how far down the second walk goes, and on the slots side by side
  induction depth' using Nat.strongRecOn generalizing
    depth slots after after' with
  | ind depth' ih =>
      induction slots with
      | nil =>
          simp only [List.map_nil, List.filterMap_nil, forest_nil]
          exact hafter
      | cons slot slots ihslots =>
          have hrest := ihslots
            (fun slot hslot => hslots slot (.tail _ hslot))
            (fun i hi => hdepth i (.tail _ hi))
            (fun j hj => hdepth' j (.tail _ hj))
          obtain ⟨ref, ref'⟩ := slot
          rcases hslots _ (.head _) with ⟨⟨hpair⟩ | _⟩ | ⟨hpair, hparen, -⟩
          · rename_i i j
            obtain ⟨joint, hform, hform', hwraps⟩ := h.forms hpair
            have hi := hdepth i (.head _)
            have hj := hdepth' j (.head _)
            show Follows other pairs (arena.forest depth (i :: _) after)
              (other.forest depth' (j :: _) after')
            rw [forest_of_form? hform hi, forest_of_form? hform' hj,
              Form.children, Form.children, Form.slots_map, Form.slots_map]
            refine .node hpair (ih (depth' - 1) (by omega) (depth - 1)
              joint.slots hwraps.slotWraps ?_ ?_ hrest)
            · intro c hc
              rw [← Form.slots_map] at hc
              have hlt := harena.lt_of_slot hform hc
              omega
            · intro c hc
              rw [← Form.slots_map] at hc
              have hlt := hother.lt_of_slot hform' hc
              omega
          · exact hrest
          · -- the parentheses, and then what they are around
            rename_i i j w
            have hw := hdepth' w (.head _)
            have hlt := hother.lt_of_slot hparen (.head _)
            show Follows other pairs (arena.forest depth (i :: _) after)
              (other.forest depth' (w :: _) after')
            rw [forest_head, forest_of_form? hparen hw]
            refine .paren hparen (ih (depth' - 1) (by omega) depth
              [(some i, some j)] ?_ ?_ ?_ hrest)
            · intro slot hslot
              rw [List.mem_singleton.1 hslot]
              exact .plain (.some hpair)
            · intro k hk
              obtain rfl := Option.some.inj (List.mem_singleton.1 hk)
              exact hdepth k (.head _)
            · intro k hk
              obtain rfl := Option.some.inj (List.mem_singleton.1 hk)
              omega

/-- In document order, the second arena has the nodes of the first one, with
parentheses among them. -/
theorem Wrapping.follows_preorder (h : Wrapping arena other pairs)
    (harena : arena.IsTree root) (hother : other.IsTree root')
    (hroot : pairs root root') :
    Follows other pairs (arena.preorder (some root))
      (other.preorder (some root')) := by
  refine h.follows_forest harena hother _ _ [(some root, some root')] ?_ ?_
    ?_ .nil
  · intro slot hslot
    rw [List.mem_singleton.1 hslot]
    exact .plain (.some hroot)
  · intro i hi
    obtain rfl := Option.some.inj (List.mem_singleton.1 hi)
    rw [harena.size_eq]
    exact Nat.lt_succ_self _
  · intro j hj
    obtain rfl := Option.some.inj (List.mem_singleton.1 hj)
    rw [hother.size_eq]
    exact Nat.lt_succ_self _

end Arena

end ScriptLint
