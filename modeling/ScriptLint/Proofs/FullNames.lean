/-
Full names. The name of a node is the dotted name of the tree that it
shows, with every member of a chain in it, exactly when the chain is
shorter than a walk may be long; of any other chain it is the last members
alone, as many as the walk has steps, whatever the chain begins with
(`Arena.names_of_parse`). Programs set no bound to chains, so there are
such nodes (`Arena.not_names_longChain`).

# The argument

- The walk along a chain collects members from the last one on; at the root
  it adds the root's own name or gives the whole name up
  (`Shows.nameWith_eq`).
- A chain that is shorter than the walk is therefore named in full
  (`MemberChain.nameOf_of_lt`), a longer one by its last members
  (`MemberChain.nameOf_of_le`).
- The two differ, as the latter is the name of fewer words
  (`MemberChain.join_rtake_ne`).
-/
import ScriptLint.Proofs.Parse.Chains

namespace ScriptLint

-- =============================================================== trees

namespace Tree

/-- The name that a tree gives to the members behind it: an identifier and
`this` come first in it, a string and a number have a name only by
themselves, and any other tree has none. -/
def nameBefore (t : Tree) (members : List String) : String :=
  match t.form with
  | .identifier word => ".".intercalate (word :: members)
  | .thisRef => ".".intercalate ("this" :: members)
  | .string text | .number text => if members.isEmpty then text else ""
  | _ => ""

/-- The dotted name of a tree, from the root of the chain to the last
member. -/
def dottedName (t : Tree) : String := t.chainRoot.nameBefore t.members

end Tree

namespace Arena

variable {arena : Arena} {lines : Text.LineMap} {text : String}
  {tree t : Tree} {r i : Nat} {members : List String}

-- =============================================================== roots

/-- At the root, a walk that has a step left knows the name. -/
theorem Shows.nameWith_eq (h : arena.Shows lines r t)
    (hend : ∀ owner name, t.form ≠ .member owner name) (steps : Nat)
    (members : List String) :
    arena.nameWith (steps + 1) (some r) members = t.nameBefore members := by
  obtain ⟨joint, hform, htree⟩ := h.exists_joint
  rw [htree] at hend
  rw [nameWith, hform, Tree.nameBefore, htree]
  cases joint with
  | member owner name => exact (hend _ _ rfl).elim
  | _ => rfl

/-- In front of members, a root has a word for them or gives them no name
at all. -/
theorem Shows.nameBefore_cases (h : arena.Shows lines r t)
    (hne : members ≠ []) :
    t.nameBefore members = ""
      ∨ ∃ word, arena.rootWord? (some r) = some word
        ∧ t.nameBefore members = ".".intercalate (word :: members) := by
  have hempty : members.isEmpty = false := by simpa using hne
  obtain ⟨joint, hform, htree⟩ := h.exists_joint
  rw [rootWord?, hform, Tree.nameBefore, htree, hempty]
  cases joint with
  | identifier word => exact .inr ⟨word, rfl, rfl⟩
  | thisRef => exact .inr ⟨"this", rfl, rfl⟩
  | _ => exact .inl rfl

-- =============================================================== names

/-- A chain that is longer than the walk is named by its last members. -/
theorem MemberChain.nameOf_of_le {root ref : Ref}
    (h : arena.MemberChain root ref members)
    (hlength : walkLimit ≤ members.length) :
    arena.nameOf ref = ".".intercalate (members.rtake walkLimit) := by
  rw [nameOf, h.nameWith_of_le hlength, List.append_nil]

/-- A chain that is shorter is named from its root on. -/
theorem MemberChain.nameOf_of_lt {ref : Ref}
    (h : arena.MemberChain (some r) ref members)
    (hlength : members.length < walkLimit) (hroot : arena.Shows lines r t)
    (hend : ∀ owner name, t.form ≠ .member owner name) :
    arena.nameOf ref = t.nameBefore members := by
  obtain ⟨steps, hsteps⟩ := Nat.exists_eq_add_of_lt hlength
  rw [nameOf, hsteps, Nat.add_assoc, h.nameWith_add, List.append_nil,
    hroot.nameWith_eq hend]

/-- The two names never agree: neither has a dot but between its words, and
they are not of the same number. -/
theorem MemberChain.join_rtake_ne (h : Tree.parse text = .ok tree) {ref : Ref}
    (hchain : (ofTree lines tree).2.MemberChain (some r) ref members)
    (hlength : walkLimit ≤ members.length)
    (hroot : (ofTree lines tree).2.Shows lines r t) :
    ".".intercalate (members.rtake walkLimit) ≠ t.nameBefore members := by
  have hdots := hchain.dot_notMem h
  have hlast : (members.rtake walkLimit).length = walkLimit := by
    rw [List.rtake, List.length_drop]
    omega
  have hpositive : 0 < walkLimit := by decide
  have hshort : (Naming.segments
      (".".intercalate (members.rtake walkLimit))).length = walkLimit := by
    rw [Naming.segments_intercalate, List.length_map, hlast]
    · apply List.ne_nil_of_length_pos
      rw [hlast]
      exact hpositive
    · exact fun word hword => hdots word (List.drop_subset _ _ hword)
  intro heq
  rw [heq] at hshort
  rcases hroot.nameBefore_cases
    (List.ne_nil_of_length_pos (Nat.lt_of_lt_of_le hpositive hlength)) with
    hnone | ⟨word, hword, hfull⟩
  · rw [hnone] at hshort
    exact absurd hshort (by decide)
  · rw [hfull, Naming.segments_intercalate (List.cons_ne_nil _ _)
      (List.forall_mem_cons.2 ⟨dot_notMem_rootWord? h hword, hdots⟩),
      List.length_map, List.length_cons] at hshort
    omega

/-- Every node of a program shows a tree, and has the full name of that
tree exactly if the chain has fewer members than a walk has steps; of a
longer chain the name is that of the last members. -/
theorem names_of_parse (h : Tree.parse text = .ok tree) :
    let lines := Text.LineMap.ofText text
    let arena := (ofTree lines tree).2
    ∀ i < arena.size, ∃ t, arena.Shows lines i t
      ∧ (arena.nameOf (some i) = t.dottedName
        ↔ t.members.length < walkLimit)
      ∧ (walkLimit ≤ t.members.length → arena.nameOf (some i)
        = ".".intercalate (t.members.rtake walkLimit)) := by
  intro lines arena i hi
  obtain ⟨t, r, hshows, hroot, hchain, hend⟩ :=
    exists_chain_of_parse lines h hi
  refine ⟨t, hshows, ⟨?_, ?_⟩, hchain.nameOf_of_le⟩
  · intro hname
    by_contra hlength
    rw [Nat.not_lt] at hlength
    rw [hchain.nameOf_of_le hlength] at hname
    exact hchain.join_rtake_ne h hlength hroot hname
  · exact fun hlength => hchain.nameOf_of_lt hlength hroot hend

/-- A chain has no more members than there are nodes before its end. -/
theorem Shows.length_members_le (h : arena.Shows lines i t)
    (hlt : ∀ {i child : Nat}, child ∈ arena.childrenOf i → child < i) :
    t.members.length ≤ i := by
  induction t using Tree.induct generalizing i with
  | node start stop doc form ih =>
      unfold Tree.members
      split
      · rename_i owner name heq
        cases heq
        have hchild : owner ∈ (Form.member (some owner) name).children :=
          Form.mem_children.2 (.head _)
        obtain ⟨k, hk, hshows⟩ := h.exists_number hchild
        have hbefore := ih owner hchild hshows
        have hsmall := hlt hk
        have hname : (name.bind Tree.identifier?).toList.length ≤ 1 :=
          Option.length_toList_le
        rw [List.length_append]
        omega
      · exact Nat.zero_le _

/-- A chain of three words, with its full name. -/
theorem names_of_parse_threeWords :
    Tree.Parses "a.b.c;" fun tree =>
      let lines := Text.LineMap.ofText "a.b.c;"
      let arena := (ofTree lines tree).2
      4 < arena.size ∧ ∃ t, arena.Shows lines 4 t ∧ t.dottedName = "a.b.c"
        ∧ arena.nameOf (some 4) = t.dottedName := by
  have hparses : Tree.Parses "a.b.c;" fun tree =>
      let arena := (ofTree (.ofText "a.b.c;") tree).2
      4 < arena.size ∧ arena.nameOf (some 4) = "a.b.c" := by
    decide +kernel
  obtain ⟨tree, hparse, hsize, hname⟩ := hparses
  obtain ⟨t, hshows, hfull, -⟩ := names_of_parse hparse 4 hsize
  have hlength := hshows.length_members_le
    (isTree_shows_ofTree tree).1.lt_of_child
  have heq := hfull.2 (Nat.lt_of_le_of_lt hlength (by decide))
  exact ⟨tree, hparse, hsize, t, hshows, heq.symm.trans hname, heq⟩

/-- The chain is named without the word that it begins with. -/
theorem not_names_longChain :
    Tree.Parses longChain fun tree =>
      let lines := Text.LineMap.ofText longChain
      let arena := (ofTree lines tree).2
      ∃ i t, arena.Shows lines i t
        ∧ t.dottedName = ".".intercalate ("x" :: longMembers)
        ∧ arena.nameOf (some i) = ".".intercalate longMembers
        ∧ arena.nameOf (some i) ≠ t.dottedName := by
  obtain ⟨tree, hparse, function, hfile, hruns⟩ := parses_longChain
  obtain ⟨r, v, -, -, -, value, hchain, hroot, hvalue, ⟨hword, hmembers⟩,
    -⟩ := exists_nodes_chain _ hparse hfile hruns
  have hlength := length_longMembers
  have hname := hchain.nameOf_of_le hlength.ge
  refine ⟨tree, hparse, v, value, hvalue, ?_, ?_, ?_⟩
  · rw [Tree.dottedName, Tree.nameBefore, hword, hmembers]
  · rw [hname, rtake_of_length_le hlength.le]
  · rw [hname, Tree.dottedName, hmembers]
    exact hchain.join_rtake_ne hparse hlength.ge hroot

end Arena

end ScriptLint
