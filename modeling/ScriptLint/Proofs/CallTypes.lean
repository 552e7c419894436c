/-
The types of calls of static members. What a call yields is told by the
name of what is called: a member that begins with a small letter is taken
for a method of the class before it, and any other word for a class. The
names of members also begin with underscores and are also in capitals, so
a call has the type of the class, like the member by itself, exactly when
the member begins with a small letter and the name is short enough to be
read in full (`Arena.callTypes_of_parse`). A private member has a type
named after itself (`Arena.not_callTypes_private`).

# The argument

- A chain that spells a static member has the segments of that member, if
  its name is read in full; the type of the member by itself follows from
  that (`MemberChain.inferType_eq_iff`).
- A call asks for the last segment once more and takes it off if it begins
  with a small letter, or else takes the whole name for a class
  (`MemberChain.inferType_call`).
- The two types differ, since a name with a member behind it has more
  segments than the name.
-/
import ScriptLint.Check.Infer
import ScriptLint.Proofs.Casts
import ScriptLint.Proofs.MemberChains

namespace ScriptLint

-- =============================================================== names

/-- Of the ASCII characters, the small letters are in lower case. -/
theorem Text.isLowercase_of_lt {c : Char} (h : c.toNat < 128) :
    isLowercase c = Naming.isSmall c := by
  have hall : ∀ n < 128,
      isLowercase (.ofNat n) = Naming.isSmall (.ofNat n) := by
    decide +kernel
  rw [← Char.ofNat_toNat c]
  exact hall c.toNat h

namespace Naming

open Text

variable {c : Char} {name owner member : String}

/-- Whether a name begins with a small letter. -/
def beginsSmall (name : String) : Bool := name.toList.head?.any isSmall

/-- Words that spell, with dots between them, the name of a class and a
static member behind it. -/
structure SpellsStatic (words : List String) (owner member : String) :
    Prop where
  join : ".".intercalate words = owner ++ "." ++ member
  isClassName : isClassName owner = true
  isMember : isMemberSegment member.toList = true

/-- The names of members are written in ASCII. -/
theorem toNat_lt_of_isNameChar (h : isNameChar c = true) : c.toNat < 128 := by
  have hle {d : Char} (hd : c ≤ d) : c.toNat ≤ d.toNat := hd
  simp only [isNameChar, isLetter, isDigit, Bool.or_eq_true,
    Bool.and_eq_true, decide_eq_true_eq, beq_iff_eq] at h
  obtain ((⟨-, hc⟩ | ⟨-, hc⟩) | ⟨-, hc⟩) | rfl := h
  · exact Nat.lt_of_le_of_lt (hle hc) (by decide)
  · exact Nat.lt_of_le_of_lt (hle hc) (by decide)
  · exact Nat.lt_of_le_of_lt (hle hc) (by decide)
  · decide

/-- A member begins with a name character. -/
theorem isNameChar_of_isMemberSegment {cs : List Char}
    (h : isMemberSegment (c :: cs) = true) : isNameChar c = true := by
  simp only [isMemberSegment, isFieldSegment, isConstantSegment, isShaped,
    isSmall, isCapital, Bool.or_eq_true, Bool.and_eq_true] at h
  simp only [isNameChar, isLetter, Bool.or_eq_true, Bool.and_eq_true]
  tauto

/-- A member begins in lower case exactly if it begins with a small letter. -/
theorem any_isLowercase (h : isMemberSegment member.toList = true) :
    member.toList.head?.any isLowercase = beginsSmall member := by
  rw [beginsSmall]
  cases hchars : member.toList with
  | nil => rfl
  | cons c cs =>
      rw [hchars] at h
      exact isLowercase_of_lt
        (toNat_lt_of_isNameChar (isNameChar_of_isMemberSegment h))

/-- A static member has one segment more than its class. -/
theorem length_segments_static (h : isStaticMemberName name = true) :
    (segments name).length
      = (segments (staticMemberClass name)).length + 1 := by
  obtain ⟨front, back, rfl, -, hback, -⟩ := isMemberPath_segments_iff.1 h
  rw [staticMemberClass_join hback, segments_join, segments_of_notMem hback,
    List.length_append, List.length_singleton]

variable {words : List String}

theorem SpellsStatic.isStaticMemberName
    (h : SpellsStatic words owner member) :
    isStaticMemberName (owner ++ "." ++ member) = true :=
  isMemberPath_segments_iff.2 ⟨owner, member, rfl, h.isClassName,
    dot_notMem_member h.isMember, h.isMember⟩

/-- The class has all the words but the last. -/
theorem SpellsStatic.length_segments (h : SpellsStatic words owner member)
    (hne : words ≠ []) (hdots : ∀ word ∈ words, '.' ∉ word.toList) :
    (segments owner).length + 1 = words.length := by
  have hwords : segments owner ++ segments member
      = words.map String.toList := by
    rw [← segments_join, ← h.join, segments_intercalate hne hdots]
  have hlength := congrArg List.length hwords
  rwa [segments_of_notMem (dot_notMem_member h.isMember),
    List.length_append, List.length_singleton, List.length_map] at hlength

theorem segments_length_pos (h : Naming.isClassName owner = true) :
    0 < (segments owner).length := by
  apply List.length_pos_of_ne_nil
  intro hnil
  rw [Naming.isClassName, hnil] at h
  cases h

end Naming

-- =============================================================== types

namespace ValueType

variable {name owner member : String}

/-- The types of the language have no dots in their names. -/
theorem ofName_of_dot (h : '.' ∈ name.toList) :
    ofName name = .ofClass name := by
  unfold ofName
  split
  case h_12 => rfl
  all_goals exact absurd h (by decide)

theorem ofName_eq_ofClass_iff (h : '.' ∈ owner.toList) :
    ofName name = .ofClass owner ↔ name = owner := by
  constructor
  · intro htype
    rw [← name_ofName name, htype]
    rfl
  · intro heq
    rw [heq, ofName_of_dot h]

/-- The call of a member has the type of the class if the member begins
with a small letter, and else one with the whole name. -/
theorem ofCall_join (howner : Naming.isClassName owner = true)
    (hmember : Naming.isMemberSegment member.toList = true) :
    ofCall (owner ++ "." ++ member)
      = if Naming.beginsSmall member then .ofClass owner
        else .ofClass (owner ++ "." ++ member) := by
  have hdot : '.' ∈ (owner ++ "." ++ member).toList := by simp
  unfold ofCall
  rw [Naming.splitLast?_join (Naming.dot_notMem_member hmember)]
  dsimp only
  rw [Naming.any_isLowercase hmember, String.ofList_toList,
    ofName_of_dot (Naming.dot_mem_of_isClassName howner), ofName_of_dot hdot]

end ValueType

namespace Arena

variable {arena : Arena} {lines : Text.LineMap} {text : String} {tree : Tree}
  {i k : Nat} {root : Ref} {word owner member : String} {members : List String}

theorem inferType_of_call {callee : Ref} {arguments : List Ref}
    (h : arena.form? (some i) = some (.call callee arguments)) :
    arena.inferType (some i) = .ofCall (arena.nameOf callee) := by
  have hself : arena.skipParens (some i) = some i :=
    unwrap_of_form? h nofun _
  unfold inferType
  rw [hself]
  dsimp only
  rw [h]
  rfl

theorem inferType_of_member {front name : Ref}
    (h : arena.form? (some k) = some (.member front name)) :
    arena.inferType (some k)
      = if Naming.isStaticMemberName (arena.nameOf (some k)) then
          .ofName (Naming.staticMemberClass (arena.nameOf (some k)))
        else .unknown := by
  have hself : arena.skipParens (some k) = some k :=
    unwrap_of_form? h nofun _
  unfold inferType
  rw [hself]
  dsimp only
  rw [h]
  rfl

-- =============================================================== calls

/-- A node calls a chain: an identifier or `this`, with members behind
it. -/
def CallsChain (arena : Arena) (i k : Nat) (word : String)
    (members : List String) : Prop :=
  (∃ arguments, arena.form? (some i) = some (.call (some k) arguments))
    ∧ ∃ root, arena.rootWord? root = some word
      ∧ arena.MemberChain root (some k) members

/-- The end of a chain that has members is a member. -/
theorem MemberChain.exists_form (h : arena.MemberChain root (some k) members)
    (hne : members ≠ []) :
    ∃ front name, arena.form? (some k) = some (.member front name) := by
  cases h with
  | root => exact absurd rfl hne
  | member hform => exact ⟨_, _, hform⟩

variable (hspells : Naming.SpellsStatic (word :: members) owner member)

include hspells

theorem MemberChain.length_segments_class (h : Tree.parse text = .ok tree)
    (hchain : (ofTree lines tree).2.MemberChain root (some k) members)
    (hroot : (ofTree lines tree).2.rootWord? root = some word) :
    (Naming.segments owner).length = members.length := by
  have hlength := hspells.length_segments (List.cons_ne_nil _ _)
    (List.forall_mem_cons.2
      ⟨dot_notMem_rootWord? h hroot, hchain.dot_notMem h⟩)
  exact Nat.succ.inj hlength

/-- The chain by itself has the type of the class exactly if a walk comes
to its root: else the name is cut, and has no more words than that of the
class. -/
theorem MemberChain.inferType_eq_iff (h : Tree.parse text = .ok tree)
    (hchain : (ofTree lines tree).2.MemberChain root (some k) members)
    (hroot : (ofTree lines tree).2.rootWord? root = some word) :
    (ofTree lines tree).2.inferType (some k) = .ofClass owner
      ↔ members.length < walkLimit := by
  have hdot := Naming.dot_mem_of_isClassName hspells.isClassName
  have hlast := Naming.dot_notMem_member hspells.isMember
  have hcount := hchain.length_segments_class hspells h hroot
  have hne : members ≠ [] := by
    apply List.ne_nil_of_length_pos
    rw [← hcount]
    exact Naming.segments_length_pos hspells.isClassName
  obtain ⟨front, name, hform⟩ := hchain.exists_form hne
  rw [inferType_of_member hform]
  constructor
  · intro htype
    by_contra hlong
    split at htype
    · rename_i hstatic
      rw [ValueType.ofName_eq_ofClass_iff hdot] at htype
      have hcut := Naming.length_segments_static hstatic
      rw [htype, hcount, hchain.segments_nameOf h hroot, List.length_map,
        List.rtake, List.length_drop, List.length_cons] at hcut
      omega
    · cases htype
  · intro hshort
    rw [hchain.nameOf_eq hroot, rtake_of_length_le hshort, hspells.join,
      if_pos hspells.isStaticMemberName,
      Naming.staticMemberClass_join hlast, ValueType.ofName_of_dot hdot]

/-- A call of such a chain has a type that is not that of the class unless
the member begins with a small letter. -/
theorem MemberChain.inferType_call
    (hchain : arena.MemberChain root (some k) members)
    (hroot : arena.rootWord? root = some word) {arguments : List Ref}
    (hcall : arena.form? (some i) = some (.call (some k) arguments))
    (hshort : members.length < walkLimit) :
    arena.inferType (some i)
      = if Naming.beginsSmall member then .ofClass owner
        else .ofClass (owner ++ "." ++ member) := by
  rw [inferType_of_call hcall, hchain.nameOf_eq hroot,
    rtake_of_length_le hshort, hspells.join,
    ValueType.ofCall_join hspells.isClassName hspells.isMember]

omit hspells

/-- A node that calls a chain which is spelled like the name of a class
with a static member behind it: the call and the chain both have the type
of the class exactly if a walk comes to the root of the chain and the
member begins with a small letter. Whenever a walk comes to the root, the
chain by itself has that type, and a call that does not has one that is
named after the member. -/
theorem callTypes_of_parse (h : Tree.parse text = .ok tree) :
    let arena := (ofTree (Text.LineMap.ofText text) tree).2
    ∀ i k word members owner member, arena.CallsChain i k word members →
      Naming.SpellsStatic (word :: members) owner member →
      (arena.inferType (some i) = .ofClass owner
          ∧ arena.inferType (some k) = .ofClass owner
        ↔ members.length < walkLimit ∧ Naming.beginsSmall member = true)
      ∧ (members.length < walkLimit →
        arena.inferType (some k) = .ofClass owner
        ∧ (Naming.beginsSmall member = false →
          arena.inferType (some i) = .ofClass (owner ++ "." ++ member))) := by
  intro arena i k word members owner member hcalls hspells
  obtain ⟨⟨arguments, hcall⟩, root, hroot, hchain⟩ := hcalls
  have haccess := hchain.inferType_eq_iff hspells h hroot
  have htype := hchain.inferType_call hspells hroot hcall
  -- the type of the call is either of two, which differ in length
  have hother : owner ++ "." ++ member ≠ owner := by
    intro heq
    have hstatic := Naming.length_segments_static hspells.isStaticMemberName
    rw [Naming.staticMemberClass_join
      (Naming.dot_notMem_member hspells.isMember), heq] at hstatic
    omega
  refine ⟨?_, fun hshort => ⟨haccess.2 hshort, fun hsmall => ?_⟩⟩
  · rw [haccess]
    constructor
    · intro hboth
      obtain ⟨hclass, hshort⟩ := hboth
      refine ⟨hshort, ?_⟩
      by_contra hsmall
      rw [htype hshort, if_neg hsmall] at hclass
      exact hother (ValueType.ofClass.inj hclass)
    · intro hboth
      obtain ⟨hshort, hsmall⟩ := hboth
      exact ⟨by rw [htype hshort, if_pos hsmall], hshort⟩
  · rw [htype hshort, hsmall]
    rfl

/-- A factory of an inner class. -/
def factoryCall : String := "var x=a.B.C.create();"

/-- The call of a factory has the type of its class. -/
theorem callTypes_of_parse_factory :
    Tree.Parses factoryCall fun tree =>
      let arena := (ofTree (.ofText factoryCall) tree).2
      ∃ i k, arena.CallsChain i k "a" ["B", "C", "create"]
        ∧ Naming.SpellsStatic ["a", "B", "C", "create"] "a.B.C" "create"
        ∧ 3 < walkLimit ∧ Naming.beginsSmall "create" = true
        ∧ arena.inferType (some i) = .ofClass "a.B.C" := by
  have hparses : Tree.Parses factoryCall fun tree =>
      let arena := (ofTree (.ofText factoryCall) tree).2
      arena.form? (some 8) = some (.call (some 7) [])
        ∧ arena.form? (some 7) = some (.member (some 5) (some 6))
        ∧ arena.identifier? (some 6) = some "create"
        ∧ arena.form? (some 5) = some (.member (some 3) (some 4))
        ∧ arena.identifier? (some 4) = some "C"
        ∧ arena.form? (some 3) = some (.member (some 1) (some 2))
        ∧ arena.identifier? (some 2) = some "B"
        ∧ arena.rootWord? (some 1) = some "a" := by
    decide +kernel
  obtain ⟨tree, hparse, hcall, hcreate, hcreate', hinner, hinner', houter,
    houter', hroot⟩ := hparses
  have hchain := MemberChain.member hcreate hcreate'
    (.member hinner hinner' (.member houter houter' .root))
  have hspells : Naming.SpellsStatic ["a", "B", "C", "create"]
      "a.B.C" "create" := ⟨by decide, by decide, by decide⟩
  have hshort : 3 < walkLimit := by decide
  have hsmall : Naming.beginsSmall "create" = true := by decide
  obtain ⟨htypes, -⟩ := callTypes_of_parse hparse 8 7 _ _ _ _
    ⟨⟨[], hcall⟩, some 1, hroot, hchain⟩ hspells
  exact ⟨tree, hparse, 8, 7, ⟨⟨[], hcall⟩, some 1, hroot, hchain⟩, hspells,
    hshort, hsmall, (htypes.2 ⟨hshort, hsmall⟩).1⟩

/-- A private method of a class. -/
def privateCall : String := "function f(){var x=a.B._m();}"

/-- The call of a private method has a type that is named after the
method, though the method by itself has the type of its class. -/
theorem not_callTypes_private :
    Tree.Parses privateCall fun tree =>
      let arena := (ofTree (.ofText privateCall) tree).2
      ∃ i k, arena.CallsChain i k "a" ["B", "_m"]
        ∧ Naming.SpellsStatic ["a", "B", "_m"] "a.B" "_m"
        ∧ Naming.isFieldSegment "_m".toList = true
        ∧ arena.inferType (some k) = .ofClass "a.B"
        ∧ arena.inferType (some i) = .ofClass "a.B._m"
        ∧ arena.inferType (some i) ≠ arena.inferType (some k) := by
  have hparses : Tree.Parses privateCall fun tree =>
      let arena := (ofTree (.ofText privateCall) tree).2
      arena.form? (some 7) = some (.call (some 6) [])
        ∧ arena.form? (some 6) = some (.member (some 4) (some 5))
        ∧ arena.identifier? (some 5) = some "_m"
        ∧ arena.form? (some 4) = some (.member (some 2) (some 3))
        ∧ arena.identifier? (some 3) = some "B"
        ∧ arena.rootWord? (some 2) = some "a"
        ∧ arena.inferType (some 6) = .ofClass "a.B"
        ∧ arena.inferType (some 7) = .ofClass "a.B._m" := by
    decide +kernel
  obtain ⟨tree, hparse, hcall, hmethod, hmethod', hclass, hclass', hroot,
    haccess, htype⟩ := hparses
  have hchain := MemberChain.member hmethod hmethod'
    (.member hclass hclass' .root)
  exact ⟨tree, hparse, 7, 6, ⟨⟨[], hcall⟩, some 2, hroot, hchain⟩,
    ⟨by decide, by decide, by decide⟩, by decide, haccess, htype,
    by rw [htype, haccess]; decide⟩

end Arena

end ScriptLint
