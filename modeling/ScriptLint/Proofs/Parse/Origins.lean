/-
What is known of the nodes of a program. Every node but the root has been
read off the tokens between two cursors, in the role that its parent gives
it (`Tree.IsReadIn`), and so have the children of every node, one after
the other between its start and its stop (`Tree.Holds`). The arena of a
program shows these trees at its nodes (`Arena.origin_of_parse`), so what
is proved of trees as they are read is known of the arena.

# What other files use

- `origin_of_parse`: what is known of any node, by its number. Spans,
  documentation, names and lines are all read off this.
- `Tree.IsReadIn.holds`: a tree that has been read holds children that have
  been read, which is what makes the descent from the root work
  (`Origin.child`).
- `Shows.parts`: the children of a node beside those of its tree, in the
  same roles.
-/
import ScriptLint.Proofs.Parse.Derivation
import ScriptLint.Proofs.Returns

namespace ScriptLint

-- =============================================================== parts

/-- The parts of a form are its children. -/
theorem Form.map_snd_parts {ι : Type} (form : Form (Option ι)) :
    form.parts.map Prod.snd = form.children := by
  have hslots : ∀ (slots : List (Option ι)) (k : Nat),
      ((slots.zipIdx k).filterMap form.partAt).map Prod.snd
        = slots.filterMap id := by
    intro slots
    induction slots with
    | nil => intro k; rfl
    | cons slot slots ih =>
        intro k
        rw [List.zipIdx_cons]
        cases slot <;> simp [List.filterMap_cons, ih]
  exact hslots form.slots 0

theorem Form.role_map {ι κ : Type} (f : ι → κ) (form : Form ι) (n : Nat) :
    (form.map f).role n = form.role n := by
  cases form <;> cases n <;> rfl

/-- A child in the role that the form gives it. -/
theorem Form.exists_role {ι : Type} {form : Form (Option ι)} {child : ι}
    (h : child ∈ form.children) : ∃ role, (role, child) ∈ form.parts := by
  rw [← Form.map_snd_parts] at h
  obtain ⟨⟨role, child⟩, hmem, rfl⟩ := List.mem_map.1 h
  exact ⟨role, hmem⟩

-- =============================================================== trees

/-- A tree that has been read in a text in a given role, from tokens that
the reading of the text has gone over. -/
inductive Tree.IsReadIn (text : String) (role : Role) : Tree → Prop where
  | node {cursor cursor' : Cursor} {form : Form (Option Tree)} :
    cursor.Reached text → Derives cursor form.parts cursor' →
    cursor'.consumed <:+ (Tree.read text).2.consumed →
    form.IsRead cursor cursor' →
    Tree.IsReadIn text role (.node cursor.token.start
      (max cursor'.lastStop cursor.token.start)
      (if form.takesDoc role then cursor.token.doc else none) form)

/-- The children of a tree have been read in order between its start and
its stop. -/
def Tree.Holds (text : String) (tree : Tree) : Prop :=
  tree.start ≤ tree.stop ∧ ∃ cursor cursor' : Cursor, cursor.Reached text
    ∧ Continues cursor tree.form.parts cursor'
    ∧ cursor'.consumed <:+ (Tree.read text).2.consumed
    ∧ tree.start ≤ cursor.token.start ∧ cursor'.lastStop ≤ tree.stop

variable {text : String}

/-- Each of the trees that are derived has been read. -/
theorem Derives.isReadIn {cursor cursor' : Cursor} {parts : List Part}
    (h : Derives cursor parts cursor') (hcursor : cursor.Reached text)
    (hconsumed : cursor'.consumed <:+ (Tree.read text).2.consumed) :
    ∀ part ∈ parts, part.2.IsReadIn text part.1 := by
  induction h with
  | token htakes => exact List.forall_mem_nil _
  | node role h hread ih =>
      exact List.forall_mem_singleton.2 (.node hcursor h hconsumed hread)
  | append h h' ih ih' =>
      exact List.forall_mem_append.2
        ⟨ih hcursor (h'.consumed_suffix.trans hconsumed),
          ih' (h.reached hcursor) hconsumed⟩

theorem Tree.IsReadIn.holds {role : Role} {tree : Tree}
    (h : tree.IsReadIn text role) : tree.Holds text := by
  obtain ⟨hcursor, h, hconsumed, hread⟩ := h
  exact ⟨Nat.le_max_right _ _, _, _, hcursor, .inr h, hconsumed,
    Nat.le_refl _, Nat.le_max_left _ _⟩

theorem Tree.Holds.isReadIn {tree : Tree} (h : tree.Holds text) :
    ∀ part ∈ tree.form.parts, part.2.IsReadIn text part.1 := by
  obtain ⟨-, cursor, cursor', hcursor, ⟨-, hparts⟩ | h, hconsumed, -⟩ := h
  · rw [hparts]
    exact List.forall_mem_nil _
  · exact h.isReadIn hcursor hconsumed

/-- A program holds its statements, from the first byte to the last. -/
theorem Tree.holds_of_parse {tree : Tree} (h : Tree.parse text = .ok tree) :
    tree.Holds text := by
  obtain ⟨cursor, hread⟩ := Tree.parse_eq_ok.1 h
  obtain ⟨statements, rfl, hderived, -⟩ := Tree.derives_of_read hread
  refine ⟨Nat.zero_le _, _, cursor, .first, ?_, ?_, Nat.zero_le _, ?_⟩
  · rw [Tree.form, Form.parts_of_plain fun _ => rfl]
    exact hderived
  · have hend : (Tree.read text).2.consumed = cursor.consumed := by
      rw [hread]
    exact hend ▸ List.suffix_refl _
  · have hreached : cursor.Reached text := hderived.reached .first
    exact Nat.le_trans hreached.lastStop_le hreached.tilesIn.start_le

-- =============================================================== arena

namespace Arena

variable {lines : Text.LineMap} {arena : Arena}

/-- The parts of a node show the parts of its tree, in the same roles. -/
theorem Shows.parts {i : Nat} {tree : Tree} {form : Form Ref}
    (h : arena.Shows lines i tree) (hform : arena.form? (some i) = some form) :
    List.Forall₂ (fun a b => a.1 = b.1 ∧ arena.Shows lines a.2 b.2)
      form.parts tree.form.parts := by
  obtain ⟨hnode, hfilled, hbelow⟩ := h
  rename_i joint parent
  have hform : form = joint.map Prod.fst := by
    simpa [form?, node?, hnode] using hform.symm
  subst hform
  -- the role of a slot depends on its number, so the slots are gone through
  -- from any number on
  have hslots : ∀ (slots : List Placed) (k : Nat),
      (∀ slot ∈ slots, slot ∈ joint.slots) →
      List.Forall₂ (fun a b => a.1 = b.1 ∧ arena.Shows lines a.2 b.2)
        (((slots.map Prod.fst).zipIdx k).filterMap
          (joint.map Prod.fst).partAt)
        (((slots.map Prod.snd).zipIdx k).filterMap
          (joint.map Prod.snd).partAt) := by
    intro slots
    induction slots with
    | nil => exact fun k _ => .nil
    | cons slot slots ih =>
        intro k hmem
        obtain ⟨hslot, hmem⟩ := List.forall_mem_cons.1 hmem
        have hrest := ih (k + 1) hmem
        have hsome := hfilled slot hslot
        obtain ⟨ref, tree⟩ := slot
        rw [List.map_cons, List.map_cons, List.zipIdx_cons,
          List.zipIdx_cons]
        cases ref <;> cases tree
        · exact hrest
        · cases hsome
        · cases hsome
        · exact .cons ⟨by simp only [Form.role_map], hbelow _ _ hslot⟩ hrest
  have hall := hslots joint.slots 0 fun _ => id
  rw [← Form.slots_map, ← Form.slots_map] at hall
  exact hall

/-- The root of a program is a file. -/
theorem Shows.exists_file {i : Nat} {tree : Tree}
    (h : arena.Shows lines i tree) (hparse : Tree.parse text = .ok tree) :
    ∃ statements, arena.form? (some i) = some (.file statements) := by
  obtain ⟨cursor, hrun⟩ := Tree.parse_eq_ok.1 hparse
  obtain ⟨statements, rfl, -⟩ := Tree.derives_of_read hrun
  obtain ⟨joint, hform, hjoint⟩ := h.exists_joint
  cases joint <;> cases hjoint
  exact ⟨_, hform⟩

/-- What is known of a node of a program: it shows a tree, which holds its
children, and it is the root, or the tree has been read in the role that
the parent of the node gives it. -/
def Origin (text : String) (lines : Text.LineMap) (arena : Arena)
    (root i : Nat) : Prop :=
  ∃ tree, arena.Shows lines i tree ∧ tree.Holds text
    ∧ (i = root ∧ Tree.parse text = .ok tree
      ∨ ∃ p form role, arena.parentOf (some i) = some p
        ∧ arena.form? (some p) = some form ∧ (role, i) ∈ form.parts
        ∧ tree.IsReadIn text role)

theorem Origin.child {root i child : Nat}
    (h : arena.Origin text lines root i)
    (hchild : child ∈ arena.childrenOf i)
    (hparent : arena.parentOf (some child) = some i) :
    arena.Origin text lines root child := by
  obtain ⟨tree, hshows, hholds, -⟩ := h
  obtain ⟨joint, hform, -⟩ := hshows.exists_joint
  rw [childrenOf, hform, Option.elim_some] at hchild
  obtain ⟨role, hpart⟩ := Form.exists_role hchild
  obtain ⟨k, hk, heq⟩ := List.mem_iff_getElem.1 hpart
  have hparts := hshows.parts hform
  have hlength := hparts.length_eq
  have hboth := List.Forall₂.get hparts hk (by omega)
  simp only [List.get_eq_getElem, heq] at hboth
  have hread := hholds.isReadIn _ (List.getElem_mem (by omega : k < _))
  rw [← hboth.1] at hread
  exact ⟨_, hboth.2, hread.holds, .inr ⟨i, _, role, hparent, hform, hpart,
    hread⟩⟩

/-- Every node of a program shows a tree that has been read, in the role that
its parent gives it. -/
theorem origin_of_parse {tree : Tree} (h : Tree.parse text = .ok tree)
    {i : Nat} (hi : i < (ofTree lines tree).2.size) :
    (ofTree lines tree).2.Origin text lines (ofTree lines tree).1 i := by
  obtain ⟨htree, hshows⟩ : (ofTree lines tree).2.IsTree (ofTree lines tree).1
      ∧ (ofTree lines tree).2.Shows lines (ofTree lines tree).1 tree :=
    isTree_shows_ofTree tree
  refine htree.induct ?_ ?_ i hi
  · exact ⟨tree, hshows, Tree.holds_of_parse h, .inl ⟨rfl, h⟩⟩
  · exact fun i child hchild horigin =>
      horigin.child hchild (htree.parentOf_child hchild)

end Arena

end ScriptLint
