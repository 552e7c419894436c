/-
Where statements end. Some statements are ended by a semicolon, which may
be left out in many places; the declarations in the head of a for loop
look like such a statement but are none. The ends of a tree are the stops
of the statements of that kind in it, the tree itself among them
(`Tree.ends`) or not (`Tree.innerEnds`).
-/
import ScriptLint.Proofs.Syntax.Layout

namespace ScriptLint

-- =============================================================== forms

namespace Form

variable {ι : Type}

/-- Whether a semicolon ends statements of this form. -/
def isEnded : Form ι → Bool
  | .declarations _ | .expression _ | .returning _ | .breaking _
  | .continuing _ | .throwing _ | .empty => true
  | _ => false

/-- What stands in the head of a for loop, where declarations are not a
statement. -/
def heads : Form ι → List ι
  | .forLoop initializer _ _ _ => [initializer]
  | .forIn target _ _ => [target]
  | _ => []

/-- All other slots. -/
def bodies : Form ι → List ι
  | .forLoop _ condition step body => [condition, step, body]
  | .forIn _ subject body => [subject, body]
  | form => form.slots

theorem mem_slots_of_mem_heads {form : Form ι} {slot : ι}
    (h : slot ∈ form.heads) : slot ∈ form.slots := by
  cases form <;> simp_all [heads, slots]

theorem mem_slots_of_mem_bodies {form : Form ι} {slot : ι}
    (h : slot ∈ form.bodies) : slot ∈ form.slots := by
  cases form <;> simp_all [bodies, slots]

end Form

-- =============================================================== trees

namespace Tree

/-- Where the tree ends if it is a statement that a semicolon ends, and is
not empty. -/
def ownEnds : Tree → List Nat
  | .node start stop _ form =>
    if form.isEnded && start < stop then [stop] else []

/-- Where the statements below the tree end. -/
def innerEnds : Tree → List Nat
  | .node _ _ _ form =>
    (form.heads.attach.flatMap fun
      | ⟨none, _⟩ => []
      | ⟨some child, _⟩ => child.innerEnds)
    ++ form.bodies.attach.flatMap fun
      | ⟨none, _⟩ => []
      | ⟨some child, _⟩ => child.ownEnds ++ child.innerEnds
termination_by tree => sizeOf tree
decreasing_by
  · have := Form.sizeOf_lt_of_mem_slots (Form.mem_slots_of_mem_heads ‹_›)
    simp
    omega
  · have := Form.sizeOf_lt_of_mem_slots (Form.mem_slots_of_mem_bodies ‹_›)
    simp
    omega

/-- Where the statements in the tree end. -/
def ends (tree : Tree) : List Nat := tree.ownEnds ++ tree.innerEnds

variable {y : Nat}

theorem mem_ownEnds {tree : Tree} :
    y ∈ tree.ownEnds ↔ tree.form.isEnded = true ∧ tree.start < tree.stop
      ∧ y = tree.stop := by
  obtain ⟨start, stop, doc, form⟩ := tree
  simp only [ownEnds, Bool.and_eq_true, decide_eq_true_eq, Tree.form,
    Tree.start, Tree.stop]
  split
  · simp [*]
  · simp
    grind

theorem mem_innerEnds {start stop : Nat} {doc : Option String}
    {form : Form (Option Tree)} :
    y ∈ (node start stop doc form).innerEnds
      ↔ (∃ child, some child ∈ form.heads ∧ y ∈ child.innerEnds)
        ∨ ∃ child, some child ∈ form.bodies ∧ y ∈ child.ends := by
  rw [innerEnds, List.mem_append, List.mem_flatMap, List.mem_flatMap]
  refine or_congr ?_ ?_
  · constructor
    · rintro ⟨⟨_ | child, hslot⟩, -, hy⟩
      · cases hy
      · exact ⟨child, hslot, hy⟩
    · rintro ⟨child, hslot, hy⟩
      exact ⟨⟨some child, hslot⟩, List.mem_attach _ _, hy⟩
  · constructor
    · rintro ⟨⟨_ | child, hslot⟩, -, hy⟩
      · cases hy
      · exact ⟨child, hslot, hy⟩
    · rintro ⟨child, hslot, hy⟩
      exact ⟨⟨some child, hslot⟩, List.mem_attach _ _, hy⟩

@[simp] theorem ends_withDoc (doc : Option String) (tree : Tree) :
    (tree.withDoc doc).ends = tree.ends := by
  obtain ⟨start, stop, own, form⟩ := tree
  rw [withDoc, ends, ends, ownEnds, ownEnds, innerEnds, innerEnds]

end Tree

end ScriptLint
