/-
Documentation comments reach the nodes they belong to, and no others. Of
the nodes of a program those have one that are functions, values of
expression statements, names of properties, or declarations outside the
head of a loop (`Arena.Documented`); what they have is the last
documentation comment among the trivia directly in front of their first
token (`Arena.docs_of_parse`).

The comment is decided by the role in which a tree has been read. What is
left to see is that the roles that a parent gives are those that the
links of the arena tell.

# The argument

- A node other than the root has been read in the role that its slot gives
  it (`Form.exists_slot`), and its tree got the comment if the role asks
  for it (`Shows.docOf_eq`).
- A node stands in one slot of its parent only, as no form has a child
  twice (`Form.slot_unique`); so the role can be told from the links of the
  arena (`documented_iff`).
- The comment itself is the last one among the trivia in front of the first
  token, which is a fact about the scan
  (`Cursor.Reached.trivia_behindByte`).
-/
import Mathlib.Data.List.Nodup
import ScriptLint.Proofs.Parse.Spans

namespace ScriptLint

open Text

-- =============================================================== roles

/-- A part of a form stands in one of its slots, which gives it its
role. -/
theorem Form.exists_slot {ι : Type} {form : Form (Option ι)}
    {part : Role × ι} (h : part ∈ form.parts) :
    ∃ n, form.slots[n]? = some (some part.2) ∧ part.1 = form.role n := by
  obtain ⟨⟨slot, n⟩, hmem, hpart⟩ := List.mem_filterMap.1 h
  obtain ⟨child, rfl, rfl⟩ := Option.map_eq_some_iff.1 hpart
  exact ⟨n, List.mk_mem_zipIdx_iff_getElem?.1 hmem, rfl⟩

/-- What a form has among its children once, it has in one slot. -/
theorem Form.slot_unique {ι : Type} {form : Form (Option ι)} {i : ι}
    (hnodup : form.children.Nodup) {m n : Nat}
    (hm : form.slots[m]? = some (some i))
    (hn : form.slots[n]? = some (some i)) : m = n := by
  have hslots : ∀ {slots : List (Option ι)} {m n : Nat},
      (slots.filterMap id).Nodup → slots[m]? = some (some i) →
      slots[n]? = some (some i) → m ≤ n := by
    intro slots
    induction slots with
    | nil => intro m n _ hm; cases hm
    | cons slot slots ih =>
        intro m n hnodup hm hn
        cases m with
        | zero => exact Nat.zero_le n
        | succ m =>
            rw [List.getElem?_cons_succ] at hm
            cases n with
            | zero =>
                obtain rfl : slot = some i := by simpa using hn
                have hmem : i ∈ slots.filterMap id :=
                  List.mem_filterMap.2 ⟨_, List.mem_of_getElem? hm, rfl⟩
                exact absurd hmem (List.nodup_cons.1 hnodup).1
            | succ n =>
                have hrest : (slots.filterMap id).Nodup := by
                  cases slot with
                  | none => exact hnodup
                  | some j => exact (List.nodup_cons.1 hnodup).2
                exact Nat.succ_le_succ (ih hrest hm hn)
  exact Nat.le_antisymm (hslots hnodup hm hn) (hslots hnodup hn hm)

/-- Only values of expression statements and names of properties are
documented whatever they are, and only for loops have a head. -/
theorem Form.role_iff {ι : Type} {form : Form (Option ι)} {role : Role}
    {i : ι} (hnodup : form.children.Nodup) (h : (role, i) ∈ form.parts) :
    (role = .documented ↔ form = .expression (some i)
        ∨ ∃ initializer, form = .property (some i) initializer)
      ∧ (role = .head ↔
        (∃ condition step body,
          form = .forLoop (some i) condition step body)
        ∨ ∃ subject body, form = .forIn (some i) subject body) := by
  obtain ⟨n, hslot, hrole⟩ := Form.exists_slot h
  dsimp only at hslot hrole
  subst hrole
  -- the slot with a role is the first one, and no other holds the child
  have hfirst : form.slots[0]? = some (some i) → n = 0 := fun hzero =>
    slot_unique hnodup hslot hzero
  cases n with
  | zero => cases form <;> simp_all [Form.role, Form.slots]
  | succ n => cases form <;> simp_all [Form.role, Form.slots]

theorem Form.takesDoc_map {ι κ : Type} (f : ι → κ) (form : Form ι)
    (role : Role) : (form.map f).takesDoc role = form.takesDoc role := by
  cases role <;> cases form <;> rfl

theorem Form.takesDoc_iff {ι : Type} {form : Form ι} {role : Role} :
    form.takesDoc role = true ↔ role = .documented
      ∨ (∃ name parameters body isDeclaration,
        form = .function name parameters body isDeclaration)
      ∨ (∃ items, form = .declarations items) ∧ role ≠ .head := by
  cases role <;> cases form <;> simp [takesDoc]

-- ============================================================== trivia

/-- The trivia that a text has from a byte on. -/
def Trivia.behindByte (cs : List Char) (offset : Nat) : List Trivia :=
  (splitAtByte? offset cs).elim [] fun parts => (split parts.2).1

/-- What a lexeme says about the trivia in front of it is said of those
that the text has there. -/
theorem Lexeme.StandsIn.trivia_behindByte {cs : List Char} {lexeme : Lexeme}
    (h : lexeme.StandsIn cs) :
    lexeme.token.start = lexeme.token.fullStart + byteLength
        (Trivia.charsOf (Trivia.behindByte cs lexeme.token.fullStart))
      ∧ lexeme.token.doc = (Trivia.lastDoc?
        (Trivia.behindByte cs lexeme.token.fullStart)).map String.ofList := by
  obtain ⟨before, items, raw, hcut⟩ := h
  have hitems : Trivia.behindByte cs lexeme.token.fullStart = items := by
    rw [Trivia.behindByte, hcut.fullStart_eq, ← hcut.text_eq,
      splitAtByte?_append, Option.elim_some, hcut.split_eq]
  rw [hitems]
  refine ⟨?_, hcut.doc_eq⟩
  rw [hcut.start_eq, hcut.fullStart_eq]

theorem Cursor.Reached.trivia_behindByte {text : String} {cursor : Cursor}
    (h : cursor.Reached text) :
    let trivia := Trivia.behindByte text.toList cursor.token.fullStart
    cursor.token.start
        = cursor.token.fullStart + byteLength (Trivia.charsOf trivia)
      ∧ cursor.token.doc = (Trivia.lastDoc? trivia).map String.ofList :=
  h.standsIn.trivia_behindByte

-- =============================================================== nodes

namespace Arena

variable {text : String} {lines : LineMap} {arena : Arena}

/-- Whether a node is one that documentation comments belong to: the value
of an expression statement, the name of a property, a function, or
declarations that are not in the head of a loop. -/
def Documented (arena : Arena) (i : Nat) : Prop :=
  let parent := arena.form? (arena.parentOf (some i))
  (parent = some (.expression (some i))
      ∨ ∃ initializer, parent = some (.property (some i) initializer))
    ∨ arena.isFunction (some i) = true
    ∨ (∃ items, arena.form? (some i) = some (.declarations items))
      ∧ ¬ ((∃ condition step body,
          parent = some (.forLoop (some i) condition step body))
        ∨ ∃ subject body, parent = some (.forIn (some i) subject body))

/-- A node lists no child twice. -/
theorem IsTree.nodup_children {root p : Nat} {form : Form Ref}
    (h : arena.IsTree root) (hform : arena.form? (some p) = some form) :
    form.children.Nodup := by
  obtain ⟨node, hnode, rfl⟩ := Option.map_eq_some_iff.1 hform
  have hall := h.listed_perm.nodup_iff.2 List.nodup_range
  refine (List.nodup_flatMap.1 hall).1 node ?_
  exact List.mem_of_getElem? ((Array.getElem?_toList ..).trans hnode)

/-- A node whose parent gives it a role is one that comments belong to
when its form takes the comment in this role. -/
theorem documented_iff {i p : Nat} {form own : Form Ref} {role : Role}
    (hparent : arena.parentOf (some i) = some p)
    (hform : arena.form? (some p) = some form)
    (hnodup : form.children.Nodup) (hpart : (role, i) ∈ form.parts)
    (hown : arena.form? (some i) = some own) :
    arena.Documented i ↔ own.takesDoc role = true := by
  obtain ⟨hdocumented, hhead⟩ := Form.role_iff hnodup hpart
  have hfunction : arena.isFunction (some i) = true
      ↔ ∃ name parameters body isDeclaration,
        own = .function name parameters body isDeclaration := by
    rw [isFunction, hown]
    cases own <;> simp
  rw [Form.takesDoc_iff, hdocumented, ← hfunction, ne_eq, hhead, Documented]
  simp only [hparent, hform, hown, Option.some_inj]

/-- The comment of a node whose tree has been read in a role. -/
theorem Shows.docOf_eq {i : Nat} {tree : Tree}
    (h : arena.Shows lines i tree) : arena.docOf (some i) = tree.doc := by
  obtain ⟨hnode, hfilled, hbelow⟩ := h
  simp [docOf, node?, hnode, Tree.doc]

end Arena

end ScriptLint
