/-
Taking names apart. A name that is not a single segment is a shorter name,
a dot and a segment without dots (`Naming.segments_cases`), so each role is
told by the last segment and by what is before it.

The name of a static member is cut at its last dot, and that is where its
class ends (`Naming.isStaticMemberName_split`). The name of a prototype
member is cut where `.prototype` occurs for the last time. That is behind
its class, unless the member begins with `prototype` as well
(`Naming.prototypeClass_split`).

# The argument

- All cuts are cuts of texts at a separator. What is behind the last one is
  found if it has no separator in it (`splitLast?_append`).
- Names with the shape of a class or a member fall apart into segments,
  none of which has a dot (`dot_notMem_member`, `dot_notMem_field`). So the
  cut is where the last segment begins.
- For prototypes the separator is a word, which may overlap with what is
  behind it; that is the case which is told apart in
  `prototypeClass_member`.
-/
import ScriptLint.Proofs.Names

namespace ScriptLint

-- =============================================================== texts

namespace Text

/-- A text is cut where it has been put together. -/
theorem splitLast?_append {α : Type} [BEq α] [LawfulBEq α] {separator : α}
    {front back : List α} (h : separator ∉ back) :
    splitLast? separator (front ++ separator :: back)
      = some (front, back) := by
  have hback : ∀ c ∈ back.reverse, (c != separator) = true := by
    intro c hc
    rw [bne_iff_ne]
    rintro rfl
    exact h (List.mem_reverse.1 hc)
  have hreverse : (front ++ separator :: back).reverse
      = back.reverse ++ separator :: front.reverse := by simp
  unfold splitLast?
  simp only [hreverse, List.takeWhile_append_of_pos hback,
    List.dropWhile_append_of_pos hback, List.takeWhile_cons,
    List.dropWhile_cons, bne_self_eq_false, Bool.false_eq_true, if_false,
    List.append_nil, List.reverse_reverse]

variable {separator : Char} {front back : List Char}

/-- What is found in the back of a text is the last in all of it. -/
theorem beforeLast?_append {pattern before : List Char}
    (h : beforeLast? pattern back = some before) :
    beforeLast? pattern (front ++ back) = some (front ++ before) := by
  induction front with
  | nil => exact h
  | cons c front ih => rw [List.cons_append, beforeLast?, ih]; rfl

variable {pattern : List Char}

/-- A pattern that begins with a separator is not found in a piece, so a
piece in front changes nothing. -/
theorem beforeLast?_piece_append (h : separator ∉ front) :
    beforeLast? (separator :: pattern) (front ++ back)
      = (beforeLast? (separator :: pattern) back).map (front ++ ·) := by
  induction front with
  | nil => simp
  | cons c front ih =>
      rw [List.mem_cons, not_or] at h
      rw [List.cons_append, beforeLast?, ih h.2]
      cases beforeLast? (separator :: pattern) back with
      | none => simp [h.1]
      | some before => rfl

/-- In the last piece it is found right at the separator or not at all. -/
theorem beforeLast?_separator_cons (h : separator ∉ back) :
    beforeLast? (separator :: pattern) (separator :: back)
      = if pattern <+: back then some [] else none := by
  have hpiece : beforeLast? (separator :: pattern) (back ++ [])
      = (beforeLast? (separator :: pattern) []).map (back ++ ·) :=
    beforeLast?_piece_append h
  rw [List.append_nil] at hpiece
  rw [beforeLast?, hpiece]
  simp [beforeLast?]

end Text

-- =============================================================== names

namespace Naming

open Text

variable {name owner member : String}

theorem segments_of_notMem (h : '.' ∉ name.toList) :
    segments name = [name.toList] := pieces_of_not_mem h

/-- A name is a single segment, or a name with a segment behind it. -/
theorem segments_cases (name : String) :
    segments name = [name.toList]
      ∨ ∃ front back, front ++ "." ++ back = name
        ∧ segments name = segments front ++ [back.toList]
        ∧ '.' ∉ back.toList := by
  cases hsplit : splitLast? '.' name.toList with
  | none => exact .inl (pieces_of_not_mem (splitLast?_eq_none hsplit))
  | some parts =>
      obtain ⟨front, back⟩ := parts
      obtain ⟨hname, hback⟩ := splitLast?_eq_some hsplit
      have hjoin : String.ofList front ++ "." ++ String.ofList back = name := by
        apply String.toList_injective
        simp [hname]
      have hdot : '.' ∉ (String.ofList back).toList := by
        rwa [String.toList_ofList]
      refine .inr ⟨String.ofList front, String.ofList back, hjoin, ?_, hdot⟩
      rw [← hjoin, segments_join, segments_of_notMem hdot]

/-- A member path is the name of a class with a member behind it. -/
theorem isMemberPath_segments_iff {isMember : List Char → Bool} :
    isMemberPath isMember (segments name) = true
      ↔ ∃ owner member, owner ++ "." ++ member = name
        ∧ isClassName owner = true ∧ '.' ∉ member.toList
        ∧ isMember member.toList = true := by
  constructor
  · intro h
    obtain ⟨hclass, hmember⟩ := Bool.and_eq_true_iff.1 h
    rcases segments_cases name with hsegments | ⟨owner, member, hname,
      hsegments, hdot⟩
    · rw [hsegments] at hclass
      cases hclass
    · rw [hsegments, List.dropLast_concat] at hclass
      rw [hsegments, List.getLast?_concat, Option.any_some] at hmember
      exact ⟨owner, member, hname, hclass, hdot, hmember⟩
  · rintro ⟨owner, member, rfl, hclass, hdot, hmember⟩
    rw [isMemberPath, segments_join, segments_of_notMem hdot,
      List.dropLast_concat, List.getLast?_concat, Option.any_some, hmember,
      Bool.and_true]
    exact hclass

/-- The name of a class has a package in it. -/
theorem dot_mem_of_isClassName (h : isClassName name = true) :
    '.' ∈ name.toList := by
  by_contra hdot
  rw [isClassName, segments_of_notMem hdot, isClassPath, behindPackage?] at h
  split at h
  · rename_i hpath
    split at hpath <;> cases hpath
    cases h
  · cases h

/-- A segment has no characters but those of its shape. -/
theorem notMem_of_isShaped {first more : Char → Bool} {c : Char}
    {segment : List Char} (h : isShaped first more segment = true)
    (hfirst : first c = false) (hmore : more c = false) :
    c ∉ segment := by
  intro hmem
  cases segment with
  | nil => cases hmem
  | cons d ds =>
      obtain ⟨hd, hds⟩ := Bool.and_eq_true_iff.1 h
      rcases List.mem_cons.1 hmem with rfl | hmem
      · rw [hfirst] at hd
        cases hd
      · rw [List.all_eq_true.1 hds c hmem] at hmore
        cases hmore

/-- A class in a package is none of those that the language brings
along. -/
theorem not_isNativeName (h : isClassName name = true) :
    isNativeName name = false := by
  rw [← Bool.not_eq_true]
  intro hnative
  exact notMem_of_isShaped hnative (by decide) (by decide)
    (dot_mem_of_isClassName h)

theorem join_prototype (owner : String) :
    owner ++ "." ++ "prototype" = owner ++ ".prototype" := by
  rw [String.append_assoc]
  rfl

theorem join_prototypeMember (owner member : String) :
    owner ++ ".prototype" ++ "." ++ member
      = owner ++ ".prototype." ++ member := by
  simp only [String.append_assoc]
  rfl

/-- What is put behind a class is a class again exactly if all segments of
it begin with capitals. -/
theorem isClassPath_append {path : List (List Char)}
    (h : isClassPath path = true) (more : List (List Char)) :
    isClassPath (path ++ more) = more.all isClassSegment := by
  unfold isClassPath at h ⊢
  split at h
  · rename_i classes hpath
    obtain ⟨hsome, hall⟩ := Bool.and_eq_true_iff.1 h
    have hlonger : behindPackage? (path ++ more)
        = some (classes ++ more) := by
      cases path with
      | nil => cases hpath
      | cons head rest =>
          rw [behindPackage?] at hpath
          rw [List.cons_append, behindPackage?]
          split at hpath
          · cases hpath
            rw [if_pos ‹_›, List.dropWhile_append,
              if_neg (by simpa using hsome)]
          · cases hpath
    rw [hlonger]
    simp only [List.all_append, hall, Bool.true_and]
    cases classes with
    | nil => cases hsome
    | cons segment classes => rfl
  · cases h

/-- A prototype is no class. -/
theorem not_isClassName_prototype (h : isClassName owner = true) :
    isClassName (owner ++ ".prototype") = false := by
  have hsegment : segments "prototype" = [prototypeSegment] := by decide
  rw [← join_prototype, isClassName, segments_join, hsegment,
    isClassPath_append h]
  decide

-- ====================================================== static members

theorem splitLast?_join (h : '.' ∉ member.toList) :
    splitLast? '.' (owner ++ "." ++ member).toList
      = some (owner.toList, member.toList) := by
  simpa using splitLast?_append h

theorem staticMemberClass_join (h : '.' ∉ member.toList) :
    staticMemberClass (owner ++ "." ++ member) = owner := by
  rw [staticMemberClass, splitLast?_join h]
  exact String.ofList_toList

theorem staticMember_join (h : '.' ∉ member.toList) :
    staticMember (owner ++ "." ++ member) = member := by
  rw [staticMember, splitLast?_join h]
  exact String.ofList_toList

/-- A static member has a class. -/
theorem staticMemberClass_ne (h : isStaticMemberName name = true) :
    staticMemberClass name ≠ "" := by
  obtain ⟨owner, member, rfl, hclass, hdot, -⟩ :=
    isMemberPath_segments_iff.1 h
  rw [staticMemberClass_join hdot]
  rintro rfl
  exact absurd hclass (by decide)

/-- Static members of the same class and the same name are the same. -/
theorem eq_of_isStaticMemberName {other : String}
    (h : isStaticMemberName name = true)
    (hother : isStaticMemberName other = true)
    (hclass : staticMemberClass name = staticMemberClass other)
    (hmember : staticMember name = staticMember other) : name = other := by
  obtain ⟨owner, member, rfl, -, hdot, -⟩ := isMemberPath_segments_iff.1 h
  obtain ⟨owner', member', rfl, -, hdot', -⟩ :=
    isMemberPath_segments_iff.1 hother
  rw [staticMemberClass_join hdot, staticMemberClass_join hdot'] at hclass
  rw [staticMember_join hdot, staticMember_join hdot'] at hmember
  rw [hclass, hmember]

theorem dot_notMem_field {segment : List Char}
    (h : isFieldSegment segment = true) : '.' ∉ segment :=
  notMem_of_isShaped h (by decide) (by decide)

theorem dot_notMem_member {segment : List Char}
    (h : isMemberSegment segment = true) : '.' ∉ segment := by
  rcases Bool.or_eq_true_iff.1 h with hfield | hconstant
  · exact dot_notMem_field hfield
  · exact notMem_of_isShaped hconstant (by decide) (by decide)

/-- A name behind that of a class is a constant exactly if it is one by
itself. -/
theorem isConstantName_join (hclass : isClassName owner = true)
    (hdot : '.' ∉ member.toList) :
    isConstantName (owner ++ "." ++ member) = isConstantName member := by
  have halone : isConstantName member = isConstantSegment member.toList := by
    rw [isConstantName, segments_of_notMem hdot]
  have hpath : isMemberPath isConstantSegment
      (segments owner ++ [member.toList])
      = isConstantSegment member.toList := by
    rw [isMemberPath, List.dropLast_concat, List.getLast?_concat,
      Option.any_some, show isClassPath (segments owner) = true from hclass,
      Bool.true_and]
  rw [halone, isConstantName, segments_join, segments_of_notMem hdot]
  split
  · rename_i segment hsingle
    obtain rfl : member.toList = segment := by
      simpa using congrArg List.getLast? hsingle
    rfl
  · exact hpath

/-- The name of a static member is that of its class, a dot and the member,
and is cut into these two; it is a constant exactly if the member is.
Conversely, a class and a member make the name of a static member, which is
cut into them again. -/
theorem isStaticMemberName_split :
    (∀ name, isStaticMemberName name = true →
      isClassName (staticMemberClass name) = true
        ∧ '.' ∉ (staticMember name).toList
        ∧ staticMemberClass name ++ "." ++ staticMember name = name
        ∧ isConstantName name = isConstantName (staticMember name))
    ∧ ∀ owner member, isClassName owner = true →
      isMemberSegment member.toList = true →
      isStaticMemberName (owner ++ "." ++ member) = true
        ∧ staticMemberClass (owner ++ "." ++ member) = owner
        ∧ staticMember (owner ++ "." ++ member) = member := by
  constructor
  · intro name h
    obtain ⟨owner, member, rfl, hclass, hdot, -⟩ :=
      isMemberPath_segments_iff.1 h
    rw [staticMemberClass_join hdot, staticMember_join hdot]
    exact ⟨hclass, hdot, rfl, isConstantName_join hclass hdot⟩
  · intro owner member hclass hmember
    have hdot := dot_notMem_member hmember
    exact ⟨isMemberPath_segments_iff.2
        ⟨owner, member, rfl, hclass, hdot, hmember⟩,
      staticMemberClass_join hdot, staticMember_join hdot⟩

/-- A static constant of an inner class, and one that is put together. -/
theorem isStaticMemberName_split_inner :
    isStaticMemberName "comp.prj.Outer.Inner.MAX" = true
      ∧ isClassName (staticMemberClass "comp.prj.Outer.Inner.MAX") = true
      ∧ isConstantName "comp.prj.Outer.Inner.MAX"
        = isConstantName (staticMember "comp.prj.Outer.Inner.MAX")
      ∧ isClassName "a.B.C" = true ∧ isMemberSegment "D".toList = true
      ∧ staticMemberClass ("a.B.C" ++ "." ++ "D") = "a.B.C" := by
  have hname : isStaticMemberName "comp.prj.Outer.Inner.MAX" = true := by
    decide
  have hclass : isClassName "a.B.C" = true := by decide
  have hmember : isMemberSegment "D".toList = true := by decide
  obtain ⟨howner, -, -, hconstant⟩ := isStaticMemberName_split.1 _ hname
  obtain ⟨-, hcut, -⟩ := isStaticMemberName_split.2 "a.B.C" "D" hclass hmember
  exact ⟨hname, howner, hconstant, hclass, hmember, hcut⟩

-- =========================================================== prototypes

theorem isPrototypeName_iff :
    isPrototypeName name = true
      ↔ ∃ owner, owner ++ ".prototype" = name ∧ isClassName owner = true := by
  have hdot : '.' ∉ "prototype".toList := by decide
  rw [isPrototypeName, isMemberPath_segments_iff]
  constructor
  · rintro ⟨owner, member, rfl, hclass, -, hmember⟩
    obtain rfl : member = "prototype" :=
      String.toList_injective (eq_of_beq hmember)
    exact ⟨owner, (join_prototype owner).symm, hclass⟩
  · rintro ⟨owner, rfl, hclass⟩
    exact ⟨owner, "prototype", join_prototype owner, hclass, hdot, by decide⟩

theorem isPrototypeMemberName_iff :
    isPrototypeMemberName name = true
      ↔ ∃ owner member, owner ++ ".prototype." ++ member = name
        ∧ isClassName owner = true
        ∧ isFieldSegment member.toList = true := by
  constructor
  · intro h
    obtain ⟨hpath, hfield⟩ := Bool.and_eq_true_iff.1 h
    rcases segments_cases name with hsegments | ⟨front, member, rfl,
      hsegments, -⟩
    · rw [hsegments] at hpath
      cases hpath
    · rw [hsegments, List.dropLast_concat] at hpath
      rw [hsegments, List.getLast?_concat, Option.any_some] at hfield
      obtain ⟨owner, rfl, hclass⟩ := isPrototypeName_iff.1 hpath
      exact ⟨owner, member, (join_prototypeMember owner member).symm, hclass,
        hfield⟩
  · rintro ⟨owner, member, rfl, hclass, hfield⟩
    have hprototype : isPrototypeName (owner ++ ".prototype") = true :=
      isPrototypeName_iff.2 ⟨owner, rfl, hclass⟩
    unfold isPrototypeMemberName
    rw [← join_prototypeMember, segments_join,
      segments_of_notMem (dot_notMem_field hfield)]
    simp only [List.dropLast_concat, List.getLast?_concat, Option.any_some,
      hfield, Bool.and_true]
    exact hprototype

theorem prototypeClass_of_beforeLast?
    (h : beforeLast? ".prototype".toList name.toList = some owner.toList) :
    prototypeClass name = owner := by
  rw [prototypeClass, h]
  exact String.ofList_toList

/-- A prototype is cut behind its class. -/
theorem prototypeClass_prototype (owner : String) :
    prototypeClass (owner ++ ".prototype") = owner := by
  have hcut : beforeLast? ".prototype".toList ".prototype".toList
      = some [] := by decide
  apply prototypeClass_of_beforeLast?
  rw [String.toList_append, beforeLast?_append hcut, List.append_nil]

/-- The class of a prototype member is what stands in front of `.prototype`,
unless the member begins with `prototype`: then what is found last is the dot
in front of the member. -/
theorem prototypeClass_member (owner : String)
    (h : '.' ∉ member.toList) :
    prototypeClass (owner ++ ".prototype." ++ member)
      = if prototypeSegment <+: member.toList then owner ++ ".prototype"
        else owner := by
  have hpattern : ".prototype".toList = '.' :: prototypeSegment := rfl
  have hlast : beforeLast? ('.' :: prototypeSegment) ('.' :: member.toList)
      = if prototypeSegment <+: member.toList then some [] else none :=
    beforeLast?_separator_cons h
  by_cases hmember : prototypeSegment <+: member.toList
  · rw [if_pos hmember] at hlast ⊢
    have hchars : (owner ++ ".prototype." ++ member).toList
        = (owner ++ ".prototype").toList ++ '.' :: member.toList := by
      simp only [String.toList_append, List.append_assoc]
      rfl
    apply prototypeClass_of_beforeLast?
    rw [hpattern, hchars, beforeLast?_append hlast, List.append_nil]
  · rw [if_neg hmember] at hlast ⊢
    have hchars : (owner ++ ".prototype." ++ member).toList
        = owner.toList
          ++ '.' :: (prototypeSegment ++ '.' :: member.toList) := by
      simp only [String.toList_append, List.append_assoc]
      rfl
    have hcut : beforeLast? ('.' :: prototypeSegment)
        ('.' :: (prototypeSegment ++ '.' :: member.toList)) = some [] := by
      rw [beforeLast?, beforeLast?_piece_append (by decide), hlast]
      simp
    apply prototypeClass_of_beforeLast?
    rw [hpattern, hchars, beforeLast?_append hcut, List.append_nil]

/-- A prototype is cut between its class and `.prototype`. A prototype
member is cut in front of `.prototype.` and the member exactly if the member
does not begin with `prototype`; else only the member is cut off. -/
theorem prototypeClass_split (name : String) :
    (isPrototypeName name = true →
      isClassName (prototypeClass name) = true
        ∧ prototypeClass name ++ ".prototype" = name)
    ∧ (isPrototypeMemberName name = true →
      ((isClassName (prototypeClass name) = true
          ∧ ∃ member, '.' ∉ member.toList
            ∧ prototypeClass name ++ ".prototype." ++ member = name)
        ↔ ¬ prototypeSegment <+: (staticMember name).toList)
      ∧ (prototypeSegment <+: (staticMember name).toList →
        isPrototypeName (prototypeClass name) = true)) := by
  constructor
  · intro h
    obtain ⟨owner, rfl, hclass⟩ := isPrototypeName_iff.1 h
    rw [prototypeClass_prototype]
    exact ⟨hclass, rfl⟩
  · intro h
    obtain ⟨owner, member, rfl, hclass, hfield⟩ :=
      isPrototypeMemberName_iff.1 h
    have hdot := dot_notMem_field hfield
    have hlast : staticMember (owner ++ ".prototype." ++ member)
        = member := by
      rw [← join_prototypeMember, staticMember_join hdot]
    rw [hlast, prototypeClass_member owner hdot]
    -- the name is cut at the last place where the word stands, which the
    -- member itself may begin with
    split
    · rename_i hmember
      simp only [hmember, not_true_eq_false, iff_false, true_implies]
      refine ⟨fun hcut => ?_, isPrototypeName_iff.2 ⟨owner, rfl, hclass⟩⟩
      rw [not_isClassName_prototype hclass] at hcut
      cases hcut.1
    · rename_i hmember
      simp only [hmember, not_false_eq_true, iff_true, false_implies,
        and_true]
      exact ⟨hclass, member, hdot, rfl⟩

/-- A method of an inner class whose name ends like the separator. -/
theorem prototypeClass_split_method :
    isPrototypeMemberName "comp.prj.Outer.Inner.prototype.isprototype" = true
      ∧ ¬ prototypeSegment
        <+: (staticMember "comp.prj.Outer.Inner.prototype.isprototype").toList
      ∧ isClassName
        (prototypeClass "comp.prj.Outer.Inner.prototype.isprototype")
        = true := by
  have hname : isPrototypeMemberName
      "comp.prj.Outer.Inner.prototype.isprototype" = true := by decide
  have hmember : ¬ prototypeSegment
      <+: (staticMember "comp.prj.Outer.Inner.prototype.isprototype").toList :=
    by decide
  obtain ⟨hclass, -⟩ :=
    ((prototypeClass_split _).2 hname).1.2 hmember
  exact ⟨hname, hmember, hclass⟩

/-- A method that is called like the separator itself. -/
theorem not_prototypeClass_split_prototypeOf :
    isPrototypeMemberName "a.B.prototype.prototypeOf" = true
      ∧ ¬ (isClassName (prototypeClass "a.B.prototype.prototypeOf") = true
        ∧ ∃ member, '.' ∉ member.toList
          ∧ prototypeClass "a.B.prototype.prototypeOf" ++ ".prototype."
            ++ member = "a.B.prototype.prototypeOf") := by
  have hname : isPrototypeMemberName "a.B.prototype.prototypeOf" = true := by
    decide
  refine ⟨hname, fun hcut => ?_⟩
  exact absurd hcut.1 (by decide)

end Naming

end ScriptLint
