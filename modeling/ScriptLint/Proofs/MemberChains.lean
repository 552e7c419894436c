/-
Chains of members. What stands behind an identifier or `this`, member by
member, is named by the words of the chain: they are joined by dots, but
only as many of the last ones as the walk along the chain may visit
(`Arena.MemberChain.nameOf_eq`). No word of a program has a dot in it, so
the segments of the name are those words
(`Arena.MemberChain.segments_nameOf`).
-/
import Mathlib.Data.List.DropRight
import ScriptLint.Proofs.NameParts
import ScriptLint.Proofs.Parse.Identifiers

namespace ScriptLint

/-- A list is not cut at its own length or above. -/
theorem rtake_of_length_le {α : Type} {xs : List α} {n : Nat}
    (h : xs.length ≤ n) : xs.rtake n = xs := by
  rw [List.rtake, Nat.sub_eq_zero_of_le h, List.drop_zero]

-- =============================================================== names

namespace Naming

/-- Words without dots are the segments of the name that they make. -/
theorem segments_intercalate {words : List String} (hne : words ≠ [])
    (hdots : ∀ word ∈ words, '.' ∉ word.toList) :
    segments (".".intercalate words) = words.map String.toList := by
  induction words with
  | nil => exact absurd rfl hne
  | cons word words ih =>
      rw [List.forall_mem_cons] at hdots
      have hsegment := segments_of_notMem hdots.1
      cases words with
      | nil => rw [String.intercalate_singleton, hsegment]; rfl
      | cons next words =>
          rw [String.intercalate_cons_cons, segments_join, hsegment,
            ih (List.cons_ne_nil _ _) hdots.2]
          rfl

end Naming

-- ============================================================== chains

namespace Arena

variable {arena : Arena} {root ref : Ref} {word : String}
  {members : List String}

/-- The word that a chain may begin with. -/
def rootWord? (arena : Arena) (ref : Ref) : Option String :=
  match arena.form? ref with
  | some (.identifier text) => some text
  | some .thisRef => some "this"
  | _ => none

/-- The members that stand behind a root, one after the other, up to a
node. -/
inductive MemberChain (arena : Arena) (root : Ref) :
    Ref → List String → Prop where
  | root : MemberChain arena root root []
  | member {ref owner name : Ref} {segment : String}
      {members : List String} :
    arena.form? ref = some (.member owner name) →
    arena.identifier? name = some segment →
    MemberChain arena root owner members →
    MemberChain arena root ref (members ++ [segment])

theorem nameWith_of_rootWord? (h : arena.rootWord? root = some word)
    (steps : Nat) (tail : List String) :
    arena.nameWith steps root tail
      = ".".intercalate ([word].rtake steps ++ tail) := by
  cases steps with
  | zero => rw [nameWith, List.rtake_zero, List.nil_append]
  | succ steps =>
      have hword : [word].rtake (steps + 1) = [word] := by
        rw [← List.nil_append [word], List.rtake_concat_succ, List.rtake_nil]
      unfold rootWord? at h
      rw [nameWith, hword]
      split at h <;> cases h <;> rename_i hform <;> rw [hform] <;> rfl

/-- The step lemma: a member is put in front, and the walk goes on. -/
theorem nameWith_member {owner name : Ref} {segment : String}
    (hform : arena.form? ref = some (.member owner name))
    (hname : arena.identifier? name = some segment) (steps : Nat)
    (tail : List String) :
    arena.nameWith (steps + 1) ref tail
      = arena.nameWith steps owner (segment :: tail) := by
  rw [nameWith, hform]
  dsimp only
  rw [hname]

/-- The run lemma: each step of the walk puts one more word in front. -/
theorem MemberChain.nameWith_eq (h : arena.MemberChain root ref members)
    (hroot : arena.rootWord? root = some word) (steps : Nat)
    (tail : List String) :
    arena.nameWith steps ref tail
      = ".".intercalate ((word :: members).rtake steps ++ tail) := by
  induction h generalizing steps tail with
  | root => exact nameWith_of_rootWord? hroot steps tail
  | @member ref owner name segment members hform hname _ ih =>
      cases steps with
      | zero => rw [nameWith, List.rtake_zero, List.nil_append]
      | succ steps =>
          have hwords : (word :: (members ++ [segment])).rtake (steps + 1)
              = (word :: members).rtake steps ++ [segment] :=
            List.rtake_concat_succ (word :: members) steps segment
          rw [nameWith_member hform hname, ih, hwords, List.append_assoc]
          rfl

/-- A walk of no more steps than the chain has members does not come to
the root. -/
theorem MemberChain.nameWith_of_le (h : arena.MemberChain root ref members)
    {steps : Nat} (hsteps : steps ≤ members.length) (tail : List String) :
    arena.nameWith steps ref tail
      = ".".intercalate (members.rtake steps ++ tail) := by
  induction h generalizing steps tail with
  | root =>
      obtain rfl : steps = 0 := Nat.le_zero.1 hsteps
      rw [nameWith, List.rtake_zero, List.nil_append]
  | @member ref owner name segment members hform hname _ ih =>
      cases steps with
      | zero => rw [nameWith, List.rtake_zero, List.nil_append]
      | succ steps =>
          rw [List.length_append, List.length_singleton,
            Nat.add_le_add_iff_right] at hsteps
          rw [nameWith_member hform hname, ih hsteps,
            List.rtake_concat_succ, List.append_assoc]
          rfl

/-- A walk of more steps comes to the root with all the members. -/
theorem MemberChain.nameWith_add (h : arena.MemberChain root ref members)
    (steps : Nat) (tail : List String) :
    arena.nameWith (members.length + steps) ref tail
      = arena.nameWith steps root (members ++ tail) := by
  induction h generalizing steps tail with
  | root => rw [List.length_nil, Nat.zero_add, List.nil_append]
  | @member ref owner name segment members hform hname _ ih =>
      have hlength : (members ++ [segment]).length + steps
          = members.length + steps + 1 := by
        rw [List.length_append, List.length_singleton]
        omega
      rw [hlength, nameWith_member hform hname, ih, List.append_assoc]
      rfl

/-- The name of a chain is that of its last words. -/
theorem MemberChain.nameOf_eq (h : arena.MemberChain root ref members)
    (hroot : arena.rootWord? root = some word) :
    arena.nameOf ref
      = ".".intercalate ((word :: members).rtake walkLimit) := by
  rw [nameOf, h.nameWith_eq hroot, List.append_nil]

/-- An identifier is named by its text. -/
theorem nameOf_of_identifier? (h : arena.identifier? ref = some word) :
    arena.nameOf ref = word := by
  have hword : arena.rootWord? ref = some word := by
    unfold identifier? at h
    split at h
    · rename_i hform
      rw [rootWord?, hform]
      exact h
    · cases h
  rw [MemberChain.root.nameOf_eq hword,
    rtake_of_length_le (by simp [walkLimit]),
    String.intercalate_singleton]

-- ============================================================ programs

variable {lines : Text.LineMap} {text : String} {tree : Tree}

theorem dot_notMem_rootWord? (h : Tree.parse text = .ok tree)
    (hroot : (ofTree lines tree).2.rootWord? root = some word) :
    '.' ∉ word.toList := by
  unfold rootWord? at hroot
  split at hroot
  · rename_i hform
    cases hroot
    have hidentifier : (ofTree lines tree).2.identifier? root
        = some word := by rw [identifier?, hform]
    exact dot_notMem_identifier? h hidentifier
  · cases hroot
    decide
  · cases hroot

theorem MemberChain.dot_notMem (h : Tree.parse text = .ok tree)
    (hchain : (ofTree lines tree).2.MemberChain root ref members) :
    ∀ member ∈ members, '.' ∉ member.toList := by
  induction hchain with
  | root => exact List.forall_mem_nil _
  | member _ hname _ ih =>
      rw [List.forall_mem_append, List.forall_mem_singleton]
      exact ⟨ih, dot_notMem_identifier? h hname⟩

/-- The segments of the name of a chain are its last words. -/
theorem MemberChain.segments_nameOf (h : Tree.parse text = .ok tree)
    (hchain : (ofTree lines tree).2.MemberChain root ref members)
    (hroot : (ofTree lines tree).2.rootWord? root = some word) :
    Naming.segments ((ofTree lines tree).2.nameOf ref)
      = ((word :: members).rtake walkLimit).map String.toList := by
  have hlimit : walkLimit = 9999 + 1 := rfl
  have hdots : ∀ part ∈ word :: members, '.' ∉ part.toList :=
    List.forall_mem_cons.2
      ⟨dot_notMem_rootWord? h hroot, hchain.dot_notMem h⟩
  rw [hchain.nameOf_eq hroot]
  apply Naming.segments_intercalate
  · -- the walk visits at least one node
    rw [hlimit, ← List.dropLast_append_getLast (List.cons_ne_nil word members),
      List.rtake_concat_succ]
    exact List.append_ne_nil_of_right_ne_nil _ (List.cons_ne_nil _ _)
  · exact fun part hpart => hdots part (List.drop_subset _ _ hpart)

end Arena

end ScriptLint
