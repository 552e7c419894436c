/-
The spans of the nodes of a program nest and follow each other like the
nodes themselves. A child lies within its parent, siblings lie one behind
the other, every node but the root takes up at least a byte of the text,
and a name, a number or a regular expression is written at its span
(`Arena.spans_of_parse`).

A node starts with its first token and stops with the last one consumed,
and what is read next starts no earlier than that; so all of this is read
off the derivation of its parts (`Derives.spans`).

# The argument

- A derivation gives the spans of the parts in the order of the text
  (`Derives.spans`), hence those of the children of each node
  (`Tree.Holds.spans`).
- The walk through the arena keeps a list of trees that are still to come.
  It is sorted by starts, and what is below a node starts before what is to
  its right (`forest_sorted`).
- Leaves are single tokens, and tokens are written at their places.
-/
import ScriptLint.Proofs.Parse.Origins

namespace ScriptLint

open Text

variable {text : String}

-- =============================================================== trees

/-- What has been read lies between the two cursors, part behind part. -/
theorem Derives.spans {cursor cursor' : Cursor} {parts : List Part}
    (h : Derives cursor parts cursor') (hcursor : cursor.Reached text) :
    cursor.token.start < cursor'.lastStop
      ∧ (∀ part ∈ parts, cursor.token.start ≤ part.2.start
        ∧ part.2.stop ≤ cursor'.lastStop)
      ∧ parts.Pairwise fun part other => part.2.stop ≤ other.2.start := by
  induction h with
  | token htakes =>
      exact ⟨htakes.start_lt hcursor, List.forall_mem_nil _, .nil⟩
  | node role h hread ih =>
      obtain ⟨hlt, -, -⟩ := ih hcursor
      refine ⟨hlt, List.forall_mem_singleton.2 ⟨Nat.le_refl _, ?_⟩,
        List.pairwise_singleton _ _⟩
      exact Nat.max_le.2 ⟨Nat.le_refl _, Nat.le_of_lt hlt⟩
  | append h h' ih ih' =>
      have hmiddle := h.reached hcursor
      obtain ⟨hlt, hwithin, hordered⟩ := ih hcursor
      obtain ⟨hlt', hwithin', hordered'⟩ := ih' hmiddle
      have hle := hmiddle.lastStop_le
      refine ⟨by omega, List.forall_mem_append.2 ⟨fun part hpart => ?_,
        fun part hpart => ?_⟩, List.pairwise_append.2
        ⟨hordered, hordered', fun part hpart other hother => ?_⟩⟩
      · have := hwithin part hpart
        omega
      · have := hwithin' part hpart
        omega
      · have := hwithin part hpart
        have := hwithin' other hother
        omega

/-- A tree that has been read takes up some of the text, and if it is a
word, a number or a regular expression it is written there. -/
theorem Tree.IsReadIn.spans {role : Role} {tree : Tree}
    (h : tree.IsReadIn text role) :
    tree.start < tree.stop ∧ tree.stop ≤ byteLength text.toList
      ∧ ∀ s, tree.form = .identifier s ∨ tree.form = .number s
          ∨ tree.form = .regex s →
        slice? text.toList tree.start tree.stop = some s.toList := by
  obtain ⟨hcursor, h, -, hread⟩ := h
  rename_i cursor cursor' form
  have hlt := (h.spans hcursor).1
  have hreached := h.reached hcursor
  have hle := hreached.lastStop_le
  have htile := hreached.tilesIn
  have hstart := htile.start_le
  have hstop := htile.stop_le
  have hmax : max cursor'.lastStop cursor.token.start = cursor'.lastStop :=
    Nat.max_eq_left (Nat.le_of_lt hlt)
  dsimp only [Tree.start, Tree.stop, Tree.form]
  rw [hmax]
  refine ⟨hlt, by omega, fun s hform => ?_⟩
  -- a leaf is a single token, which spells its value
  have hslice : ∀ token, cursor.Takes token cursor' →
      token.kind.isSpelled = true →
      slice? text.toList cursor.token.start cursor'.lastStop
        = some token.value.toList := by
    intro token htakes hkind
    have hslice := htakes.slice_eq hcursor hkind
    rwa [htakes.start_eq.1, ← htakes.lastStop_eq] at hslice
  rcases hform with rfl | rfl | rfl
  · obtain ⟨token, htakes, hkind, rfl⟩ := hread
    refine hslice token htakes ?_
    rcases hkind with hkind | hkind
    · rw [hkind]
      rfl
    · unfold TokenKind.isKeyword at hkind
      split at hkind
      · rename_i hkeyword
        rw [hkeyword]
        rfl
      · cases hkind
  · obtain ⟨token, htakes, hkind, rfl⟩ := hread
    exact hslice token htakes (by rw [hkind]; rfl)
  · obtain ⟨token, htakes, hkind, rfl⟩ := hread
    exact hslice token htakes (by rw [hkind]; rfl)

/-- The children of a tree lie within it, one behind the other. -/
theorem Tree.Holds.spans {tree : Tree} (h : tree.Holds text) :
    (∀ part ∈ tree.form.parts, tree.start ≤ part.2.start
        ∧ part.2.stop ≤ tree.stop)
      ∧ tree.form.parts.Pairwise fun part other =>
        part.2.stop ≤ other.2.start := by
  obtain ⟨-, cursor, cursor', hcursor, ⟨-, hparts⟩ | h, -, hstart, hstop⟩ := h
  · rw [hparts]
    exact ⟨List.forall_mem_nil _, .nil⟩
  · obtain ⟨-, hwithin, hordered⟩ := h.spans hcursor
    refine ⟨fun part hpart => ?_, hordered⟩
    have := hwithin part hpart
    omega

-- =============================================================== arena

namespace Arena

variable {lines : LineMap} {arena : Arena}

/-- Where a node starts, 0 for no node. -/
def startOf (arena : Arena) (ref : Ref) : Nat :=
  (arena.node? ref).elim 0 Node.start

/-- Where a node stops, 0 for no node. -/
def stopOf (arena : Arena) (ref : Ref) : Nat :=
  (arena.node? ref).elim 0 Node.stop

/-- A node has the span of its tree, and the line of its start. -/
theorem Shows.span_eq {i : Nat} {tree : Tree}
    (h : arena.Shows lines i tree) :
    arena.startOf (some i) = tree.start ∧ arena.stopOf (some i) = tree.stop
      ∧ arena.lineOf (some i) = lines.lineOf tree.start := by
  obtain ⟨hnode, hfilled, hbelow⟩ := h
  simp [startOf, stopOf, lineOf, node?, hnode, Tree.start, Tree.stop]

/-- The spans below a node: those of its children lie within its own, one
behind the other. -/
structure Nests (arena : Arena) (i : Nat) : Prop where
  start_le : arena.startOf (some i) ≤ arena.stopOf (some i)
  within : ∀ j ∈ arena.childrenOf i,
    arena.startOf (some i) ≤ arena.startOf (some j)
      ∧ arena.stopOf (some j) ≤ arena.stopOf (some i)
  ordered : (arena.childrenOf i).Pairwise fun j k =>
    arena.stopOf (some j) ≤ arena.startOf (some k)

/-- The children of a node have the spans of those of its tree. -/
theorem Shows.map_spans {i : Nat} {tree : Tree}
    (h : arena.Shows lines i tree) :
    (arena.childrenOf i).map (fun j =>
        (arena.startOf (some j), arena.stopOf (some j)))
      = tree.form.parts.map fun part => (part.2.start, part.2.stop) := by
  obtain ⟨joint, hform, -⟩ := h.exists_joint
  rw [childrenOf, hform, Option.elim_some, ← Form.map_snd_parts,
    List.map_map]
  refine List.forall₂_eq_eq_eq ▸ ?_
  rw [List.forall₂_map_left_iff, List.forall₂_map_right_iff]
  refine (h.parts hform).imp fun part other hboth => ?_
  obtain ⟨hstart, hstop, -⟩ := hboth.2.span_eq
  exact Prod.ext hstart hstop

theorem Origin.nests {root i : Nat}
    (h : arena.Origin text lines root i) : arena.Nests i := by
  obtain ⟨tree, hshows, hholds, -⟩ := h
  obtain ⟨hstart, hstop, -⟩ := hshows.span_eq
  obtain ⟨hwithin, hordered⟩ := hholds.spans
  have hspans := hshows.map_spans
  constructor
  case start_le =>
    rw [hstart, hstop]
    exact hholds.1
  case within =>
    rw [hstart, hstop]
    have hall : ∀ span ∈ (arena.childrenOf i).map (fun j =>
          (arena.startOf (some j), arena.stopOf (some j))),
        tree.start ≤ span.1 ∧ span.2 ≤ tree.stop := by
      rw [hspans]
      exact List.forall_mem_map.2 hwithin
    exact List.forall_mem_map.1 hall
  case ordered =>
    have hall : ((arena.childrenOf i).map (fun j =>
          (arena.startOf (some j), arena.stopOf (some j)))).Pairwise
        fun span other => span.2 ≤ other.1 := by
      rw [hspans]
      exact List.pairwise_map.2 hordered
    exact List.pairwise_map.1 hall

-- ====================================================== document order

/-- Where all spans nest, a walk over some trees, one behind the other, and
then over what follows them comes to later and later starts. -/
theorem forest_sorted (hnests : ∀ i < arena.size, arena.Nests i)
    {depth : Nat} {roots after : List Nat} (first : Nat)
    (hfirst : ∀ i ∈ roots, first ≤ arena.startOf (some i))
    (hroots : roots.Pairwise fun i j =>
      arena.stopOf (some i) ≤ arena.startOf (some j))
    (hafter : after.Pairwise fun i j =>
      arena.startOf (some i) ≤ arena.startOf (some j))
    (hbehind : ∀ j ∈ after, first ≤ arena.startOf (some j)
      ∧ ∀ i ∈ roots, arena.stopOf (some i) ≤ arena.startOf (some j)) :
    (arena.forest depth roots after).Pairwise
        (fun i j => arena.startOf (some i) ≤ arena.startOf (some j))
      ∧ ∀ j ∈ arena.forest depth roots after,
        first ≤ arena.startOf (some j) := by
  induction depth generalizing roots after first with
  | zero => exact ⟨hafter, fun j hj => (hbehind j hj).1⟩
  | succ depth ih =>
      induction roots generalizing first with
      | nil => exact ⟨hafter, fun j hj => (hbehind j hj).1⟩
      | cons i roots ihroots =>
          obtain ⟨hi, hfirst⟩ := List.forall_mem_cons.1 hfirst
          obtain ⟨hstop, hroots⟩ := List.pairwise_cons.1 hroots
          have hright : ∀ first', (∀ j ∈ roots,
              first' ≤ arena.startOf (some j)) →
              (∀ j ∈ after, first' ≤ arena.startOf (some j)) → _ :=
            fun first' hfirst' hafter' => ihroots first' hfirst'
              hroots fun j hj => ⟨hafter' j hj, fun k hk =>
                (hbehind j hj).2 k (List.mem_cons_of_mem _ hk)⟩
          rw [Forest.forest_cons]
          split
          · rename_i node hnode
            -- what is to the right of a node lies behind its stop
            obtain ⟨hsorted, hlater⟩ := hright (arena.stopOf (some i)) hstop
              fun j hj => (hbehind j hj).2 i (List.mem_cons_self ..)
            have hnest := hnests i (Array.getElem?_eq_some_iff.1 hnode).1
            have hchildren := childrenOf_eq hnode
            have hafter' : ∀ j ∈ arena.forest (depth + 1) roots after,
                arena.startOf (some i) ≤ arena.startOf (some j)
                  ∧ ∀ k ∈ node.form.children,
                    arena.stopOf (some k) ≤ arena.startOf (some j) := by
              intro j hj
              have hlater := hlater j hj
              have hle := hnest.start_le
              refine ⟨by omega, fun k hk => ?_⟩
              have := hnest.within k (hchildren ▸ hk)
              omega
            obtain ⟨hsorted', hlater'⟩ := ih (arena.startOf (some i))
              (fun j hj => (hnest.within j (hchildren ▸ hj)).1)
              (hchildren ▸ hnest.ordered) hsorted hafter'
            refine ⟨List.pairwise_cons.2 ⟨hlater', hsorted'⟩,
              List.forall_mem_cons.2 ⟨hi, fun j hj => ?_⟩⟩
            exact Nat.le_trans hi (hlater' j hj)
          · exact hright first hfirst fun j hj => (hbehind j hj).1

end Arena

end ScriptLint
