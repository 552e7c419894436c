/-
What encloses a node. Above every node stands one list of parents up to
the root (`Arena.Lineage`); the walk along parents comes to all of it when
that has no more nodes than the walk has steps, and else to its lower part
alone. So the function around a node is the innermost function that holds
the node, if the walk comes as far as that function
(`Arena.ancestors_ofTree`). Programs set no bound to the depth of their
trees, so there are nodes in a function around which no function is found
(`Arena.not_ancestors_longChain`).

# The argument

- `Lineage` builds the list of the nodes above a node from the root
  downwards, so a fact about all of it is an induction along that way
  (`Lineage.mem_iff`).
- The walk goes the other way. It comes to the front of the list that its
  steps allow (`Lineage.ancestors_eq`), and a search in a front finds what
  the search in the whole finds, or nothing (`find?_take_eq_some_iff`).
- The example of a node that is too deep is a function whose only statement
  is a chain of members. Its nodes are known by the tree of such a
  function, so it need not be parsed step by step.
-/
import Mathlib.Logic.Relation
import ScriptLint.Proofs.Parse.Chains

namespace ScriptLint

/-- A search that is cut off finds the same as the whole one where it finds
something, and it does so unless it is cut off before that. -/
theorem find?_take_eq_some_iff {α : Type} [BEq α] [LawfulBEq α]
    {p : α → Bool} {xs : List α} {n : Nat} {x : α} :
    (xs.take n).find? p = some x
      ↔ xs.find? p = some x ∧ xs.idxOf x < n := by
  constructor
  · intro hfound
    refine ⟨(List.take_prefix n xs).find?_eq_some hfound, ?_⟩
    have hmem := List.mem_of_find?_eq_some hfound
    rw [← List.take_append_drop n xs, List.idxOf_append_of_mem hmem]
    exact Nat.lt_of_lt_of_le (List.idxOf_lt_length_of_mem hmem)
      (List.length_take_le n xs)
  · rintro ⟨hfound, hlt⟩
    obtain ⟨hx, front, back, rfl, hfront⟩ :=
      List.find?_eq_some_iff_append.1 hfound
    have hfresh : x ∉ front := by
      intro hmem
      have hno := hfront x hmem
      rw [hx] at hno
      cases hno
    rw [List.idxOf_append_of_notMem hfresh, List.idxOf_cons_self,
      Nat.add_zero] at hlt
    obtain ⟨more, rfl⟩ := Nat.exists_eq_add_of_lt hlt
    refine List.find?_eq_some_iff_append.2
      ⟨hx, front, back.take more, ?_, hfront⟩
    rw [Nat.add_assoc, List.take_length_add_append, List.take_succ_cons]

namespace Arena

variable {arena : Arena} {lines : Text.LineMap} {root i f : Nat}
  {above : List Nat}

-- ============================================================= lineages

/-- The nodes above a node, from its parent up to the root. -/
inductive Lineage (arena : Arena) (root : Nat) : Nat → List Nat → Prop where
  | root : Lineage arena root root []
  | child {i parent : Nat} {above : List Nat} :
    i ∈ arena.childrenOf parent → Lineage arena root parent above →
    Lineage arena root i (parent :: above)

/-- Every node of a tree has such a list above it. -/
theorem IsTree.exists_lineage (h : arena.IsTree root) (hi : i < arena.size) :
    ∃ above, arena.Lineage root i above := by
  refine h.induct (motive := fun i => ∃ above, arena.Lineage root i above)
    ⟨[], .root⟩ ?_ i hi
  rintro parent child hchild ⟨above, hparent⟩
  exact ⟨parent :: above, .child hchild hparent⟩

/-- The run lemma: a walk from the parent on comes to as many of the nodes
above as it has steps. -/
theorem Lineage.chain_parentOf (h : arena.Lineage root i above)
    (htree : arena.IsTree root) (steps : Nat) :
    arena.chain steps (arena.parentOf (some i)) = above.take steps := by
  induction h generalizing steps with
  | root =>
      rw [htree.parentOf_root]
      cases steps <;> rfl
  | child hchild _ ih =>
      rw [htree.parentOf_child hchild]
      cases steps with
      | zero => rfl
      | succ steps => rw [chain, ih, List.take_succ_cons]

theorem Lineage.ancestors_eq (h : arena.Lineage root i above)
    (htree : arena.IsTree root) :
    arena.ancestors (some i) = above.take walkLimit :=
  h.chain_parentOf htree walkLimit

/-- Above each of the nodes above stand those behind it. -/
theorem Lineage.of_append {front back : List Nat}
    (h : arena.Lineage root i (front ++ f :: back)) :
    arena.Lineage root f back := by
  induction front generalizing i with
  | nil =>
      cases h with
      | child _ hf => exact hf
  | cons parent front ih =>
      cases h with
      | child _ hparent => exact ih hparent

-- ========================================================== containment

/-- The node contains another one: that is a child of it, or one of a child,
and so on. -/
def Contains (arena : Arena) : Nat → Nat → Prop :=
  Relation.TransGen fun parent child => child ∈ arena.childrenOf parent

/-- What contains a node comes behind it. -/
theorem Contains.lt (h : arena.Contains f i) (htree : arena.IsTree root) :
    i < f := by
  induction h with
  | single hchild => exact htree.lt_of_child hchild
  | tail _ hchild ih => exact Nat.lt_trans (htree.lt_of_child hchild) ih

/-- The nodes above a node are those that contain it. -/
theorem Lineage.mem_iff (h : arena.Lineage root i above)
    (htree : arena.IsTree root) : f ∈ above ↔ arena.Contains f i := by
  induction h with
  | root =>
      constructor
      · intro hmem
        cases hmem
      · -- the root is nobody's child
        intro hcontains
        obtain ⟨parent, -, hchild⟩ :=
          Relation.TransGen.tail'_iff.1 hcontains
        have hparent := htree.parentOf_child hchild
        rw [htree.parentOf_root] at hparent
        cases hparent
  | @child i parent above hchild _ ih =>
      rw [List.mem_cons, ih]
      constructor
      · rintro (rfl | hcontains)
        · exact .single hchild
        · exact .tail hcontains hchild
      · intro hcontains
        obtain ⟨other, hpath, hother⟩ :=
          Relation.TransGen.tail'_iff.1 hcontains
        -- a node has one parent
        have hsame : other = parent := by
          have hparent := htree.parentOf_child hother
          rw [htree.parentOf_child hchild] at hparent
          exact (Option.some.inj hparent).symm
        rw [hsame] at hpath
        rcases Relation.reflTransGen_iff_eq_or_transGen.1 hpath with
          heq | hcontains
        · exact .inl heq.symm
        · exact .inr hcontains

-- ============================================================ functions

/-- The innermost function that contains a node: any other one contains
this function, too. -/
def IsInnermostFunction (arena : Arena) (f i : Nat) : Prop :=
  arena.isFunction (some f) = true ∧ arena.Contains f i
    ∧ ∀ g, arena.isFunction (some g) = true → arena.Contains g i →
      g = f ∨ arena.Contains g f

/-- There is one innermost function at most. -/
theorem IsInnermostFunction.unique {g : Nat} (htree : arena.IsTree root)
    (hf : arena.IsInnermostFunction f i)
    (hg : arena.IsInnermostFunction g i) : f = g := by
  rcases hg.2.2 f hf.1 hf.2.1 with heq | hfg
  · exact heq
  · rcases hf.2.2 g hg.1 hg.2.1 with heq | hgf
    · exact heq.symm
    · exact absurd (hfg.lt htree) (Nat.lt_asymm (hgf.lt htree))

/-- The first function among the nodes above is the innermost one. -/
theorem Lineage.isInnermostFunction_iff (h : arena.Lineage root i above)
    (htree : arena.IsTree root) :
    arena.IsInnermostFunction f i
      ↔ above.find? (fun k => arena.isFunction (some k)) = some f := by
  have hfirst : ∀ {f : Nat},
      above.find? (fun k => arena.isFunction (some k)) = some f →
      arena.IsInnermostFunction f i := by
    intro f hfound
    obtain ⟨hf, front, back, heq, hfront⟩ :=
      List.find?_eq_some_iff_append.1 hfound
    have hmem := List.mem_of_find?_eq_some hfound
    refine ⟨hf, (h.mem_iff htree).1 hmem, fun g hg hcontains => ?_⟩
    have hback := (heq ▸ h).of_append
    have hgmem := (h.mem_iff htree).2 hcontains
    rw [heq, List.mem_append, List.mem_cons] at hgmem
    rcases hgmem with hgmem | hgmem | hgmem
    · have hno := hfront g hgmem
      rw [hg] at hno
      cases hno
    · exact .inl hgmem
    · exact .inr ((hback.mem_iff htree).1 hgmem)
  refine ⟨fun hf => ?_, hfirst⟩
  have hsome : (above.find? fun k => arena.isFunction (some k)).isSome := by
    rw [List.find?_isSome]
    exact ⟨f, (h.mem_iff htree).2 hf.2.1, hf.1⟩
  obtain ⟨g, hg⟩ := Option.isSome_iff_exists.1 hsome
  rw [hf.unique htree (hfirst hg), hg]

/-- The walk along parents comes to the nodes above a node one after the
other, to all of them exactly if they are no more than its steps. The
function around the node is the innermost one that contains it, if the walk
comes there. -/
theorem ancestors_ofTree (lines : Text.LineMap) (tree : Tree) :
    let arena := (ofTree lines tree).2
    ∀ i < arena.size, ∃ above, arena.Lineage (ofTree lines tree).1 i above
      ∧ arena.ancestors (some i) = above.take walkLimit
      ∧ (arena.ancestors (some i) = above ↔ above.length ≤ walkLimit)
      ∧ ∀ f, arena.functionAround? (some i) = some f
        ↔ arena.IsInnermostFunction f i ∧ above.idxOf f < walkLimit := by
  intro arena i hi
  have htree : arena.IsTree (ofTree lines tree).1 :=
    (isTree_shows_ofTree tree).1
  obtain ⟨above, hlineage⟩ := htree.exists_lineage hi
  have hancestors := hlineage.ancestors_eq htree
  refine ⟨above, hlineage, hancestors, ?_, fun f => ?_⟩
  · rw [hancestors, List.take_eq_self_iff]
  · rw [functionAround?, hancestors, find?_take_eq_some_iff,
      hlineage.isInnermostFunction_iff htree]

/-- A function that returns a variable. -/
def returningFunction : String := "function f()\x7breturn a;\x7d"

/-- Above the variable are the return, the block, the function and the
program. -/
theorem ancestors_ofTree_returned :
    Tree.Parses returningFunction fun tree =>
      let arena := (ofTree (.ofText returningFunction) tree).2
      1 < arena.size
        ∧ arena.Lineage (ofTree (.ofText returningFunction) tree).1 1
          [2, 3, 4, 5]
        ∧ arena.ancestors (some 1) = [2, 3, 4, 5]
        ∧ arena.functionAround? (some 1) = some 4
        ∧ arena.IsInnermostFunction 4 1 := by
  have hparses : Tree.Parses returningFunction fun tree =>
      let arena := (ofTree (.ofText returningFunction) tree).2
      1 < arena.size ∧ arena.ancestors (some 1) = [2, 3, 4, 5]
        ∧ arena.functionAround? (some 1) = some 4 := by decide +kernel
  obtain ⟨tree, hparse, hsize, hancestors, hfunction⟩ := hparses
  obtain ⟨above, hlineage, htake, hall, haround⟩ :=
    ancestors_ofTree (.ofText returningFunction) tree 1 hsize
  have hlength : above.length ≤ walkLimit := by
    have hlengths := congrArg List.length (hancestors.symm.trans htake)
    rw [List.length_take] at hlengths
    simp only [walkLimit, List.length_cons, List.length_nil] at hlengths ⊢
    omega
  obtain rfl : [2, 3, 4, 5] = above := hancestors.symm.trans (hall.2 hlength)
  exact ⟨tree, hparse, hsize, hlineage, hancestors, hfunction,
    ((haround 4).1 hfunction).1⟩

-- ========================================================== long chains

/-- The members of a chain stand above its root, and are no functions. -/
theorem MemberChain.exists_lineage {r v : Nat} {members : List String}
    (h : arena.MemberChain (some r) (some v) members)
    (hv : arena.Lineage root v above) :
    ∃ more, arena.Lineage root r (more ++ above)
      ∧ more.length = members.length
      ∧ ∀ k ∈ more, arena.isFunction (some k) = false := by
  generalize hend : some v = ref at h
  induction h generalizing v above with
  | root =>
      obtain rfl : v = r := Option.some.inj hend
      exact ⟨[], hv, rfl, List.forall_mem_nil _⟩
  | @member ref owner name segment members hform hname hchain ih =>
      subst hend
      cases owner with
      | none => cases hchain with | member hnone _ _ => cases hnone
      | some o =>
          have hchild : o ∈ arena.childrenOf v := by
            rw [childrenOf, hform]
            exact Form.mem_children.2 (.head _)
          obtain ⟨more, hmore, hlength, hplain⟩ := ih (.child hchild hv) rfl
          refine ⟨more ++ [v], ?_, ?_, ?_⟩
          · rwa [List.append_assoc]
          · rw [List.length_append, List.length_append, hlength]
            rfl
          · refine List.forall_mem_append.2 ⟨hplain, ?_⟩
            rw [List.forall_mem_singleton, isFunction, hform]

/-- The word that the chain begins with is in a function, and none is found
around it. -/
theorem not_ancestors_longChain :
    Tree.Parses longChain fun tree =>
      let arena := (ofTree (.ofText longChain) tree).2
      ∃ i f above, arena.Lineage (ofTree (.ofText longChain) tree).1 i above
        ∧ above.length = walkLimit + 4
        ∧ arena.ancestors (some i) ≠ above
        ∧ arena.IsInnermostFunction f i
        ∧ arena.functionAround? (some i) = none := by
  obtain ⟨tree, hparse, function, hfile, hruns⟩ := parses_longChain
  obtain ⟨r, v, s, b, f, value, hchain, -, -, -, hv, hs, hb, hf, hsplain,
    hbplain, hfunction⟩ :=
      exists_nodes_chain (.ofText longChain) hparse hfile hruns
  have htree : (ofTree (.ofText longChain) tree).2.IsTree
      (ofTree (.ofText longChain) tree).1 :=
    (isTree_shows_ofTree tree).1
  -- the way up goes along the members, and then through the statement, the
  -- block and the function
  obtain ⟨more, hlineage, hlength, hplain⟩ := hchain.exists_lineage
    (.child hv (.child hs (.child hb (.child hf .root))))
  rw [length_longMembers] at hlength
  have hancestors := hlineage.ancestors_eq htree
  rw [← hlength, List.take_left] at hancestors
  refine ⟨tree, hparse, r, f, _, hlineage, ?_, ?_, ?_, ?_⟩
  · rw [List.length_append, hlength]
    rfl
  · rw [hancestors]
    intro heq
    exact absurd (congrArg List.length heq) (by simp)
  · rw [hlineage.isInnermostFunction_iff htree,
      List.find?_eq_some_iff_append]
    refine ⟨hfunction, more ++ [s, b],
      [(ofTree (.ofText longChain) tree).1], by simp, ?_⟩
    have hbefore : ∀ k ∈ more ++ [s, b],
        (ofTree (.ofText longChain) tree).2.isFunction (some k) = false := by
      rw [List.forall_mem_append, List.forall_mem_cons,
        List.forall_mem_singleton]
      exact ⟨hplain, hsplain, hbplain⟩
    intro k hk
    rw [hbefore k hk]
    rfl
  · rw [functionAround?, hancestors, List.find?_eq_none]
    intro k hk
    rw [hplain k hk]
    exact Bool.false_ne_true

end Arena

end ScriptLint
