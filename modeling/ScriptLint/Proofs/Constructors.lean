/-
The classes of constructors. A function that is named like a class is its
constructor, and what is in it should be in that class. But the class
around a node is told by what the function is assigned to, and by a rule
that looks for static members first. So it is the class of the constructor
exactly if the constructor is assigned to the name of the class itself,
and that is not the name of a static member as well
(`Arena.ownClass_of_parse`).

# The argument

- A function that is named like a class was assigned to that name, or has
  the name of a key behind its object's name; other functions have no dots
  in their names (`dot_notMem_functionName`).
- The class of a function is read off the name that it was assigned to. It
  is never that of a key, since it is a front of a shorter name
  (`classOfFunction_ne_join`).
- Of a name that it was assigned to, it is the name itself unless that
  could be a static member (`classOfFunction_eq_self_iff`).
-/
import ScriptLint.Proofs.Classes
import ScriptLint.Proofs.MemberChains
import ScriptLint.Proofs.Parse.Enclosure

namespace ScriptLint

-- =============================================================== names

namespace Naming

variable {name : String}

/-- The class of a function is the front of its name. -/
theorem exists_append_classOfFunction (name : String) :
    ∃ rest, classOfFunction name ++ rest = name := by
  unfold classOfFunction
  split
  · rename_i hstatic
    obtain ⟨owner, member, rfl, -, hdot, -⟩ :=
      isMemberPath_segments_iff.1 hstatic
    exact ⟨"." ++ member, by
      rw [staticMemberClass_join hdot, String.append_assoc]⟩
  · split
    · rename_i hprototype
      rcases Bool.or_eq_true_iff.1 hprototype with hname | hmember
      · obtain ⟨owner, rfl, -⟩ := isPrototypeName_iff.1 hname
        exact ⟨".prototype", by rw [prototypeClass_prototype]⟩
      · obtain ⟨owner, member, rfl, -, hfield⟩ :=
          isPrototypeMemberName_iff.1 hmember
        rw [prototypeClass_member owner (dot_notMem_field hfield)]
        split
        · exact ⟨"." ++ member, by
            rw [← String.append_assoc, join_prototypeMember]⟩
        · exact ⟨".prototype." ++ member, by rw [String.append_assoc]⟩
    · exact ⟨"", String.append_empty⟩

/-- A name is longer than the class of its front. -/
theorem classOfFunction_ne_join (basis key : String) :
    classOfFunction basis ≠ basis ++ "." ++ key := by
  intro h
  obtain ⟨rest, hrest⟩ := exists_append_classOfFunction basis
  have hlength := congrArg (fun s => s.toList.length) hrest
  rw [h] at hlength
  simp at hlength

/-- The name of a class is neither that of a prototype nor that of a
prototype member. -/
theorem not_isPrototype_of_isClassName (h : isClassName name = true) :
    (isPrototypeName name || isPrototypeMemberName name) = false := by
  rw [Bool.or_eq_false_iff, ← Bool.not_eq_true, ← Bool.not_eq_true]
  constructor
  · intro hname
    obtain ⟨owner, rfl, hclass⟩ := isPrototypeName_iff.1 hname
    rw [not_isClassName_prototype hclass] at h
    cases h
  · intro hmember
    obtain ⟨owner, member, rfl, hclass, -⟩ :=
      isPrototypeMemberName_iff.1 hmember
    have hsegments : segments "prototype" = [prototypeSegment] := by decide
    rw [← join_prototypeMember, ← join_prototype, isClassName, segments_join,
      segments_join, hsegments, List.append_assoc,
      isClassPath_append hclass] at h
    cases h

/-- The class of a constructor is its own, unless its name is that of a
static member. -/
theorem classOfFunction_eq_self_iff (h : isClassName name = true) :
    classOfFunction name = name ↔ isStaticMemberName name = false := by
  unfold classOfFunction
  rw [not_isPrototype_of_isClassName h]
  cases hstatic : isStaticMemberName name with
  | false => simp
  | true =>
      obtain ⟨owner, member, rfl, -, hdot, -⟩ :=
        isMemberPath_segments_iff.1 hstatic
      rw [if_pos rfl, staticMemberClass_join hdot]
      simp only [Bool.true_eq_false, iff_false]
      intro hself
      have hlength := congrArg (fun s => s.toList.length) hself
      simp at hlength

end Naming

namespace Arena

variable {arena : Arena} {model : Model} {ref : Ref} {function : Nat}

-- ============================================================= classes

/-- The class around a node is the one with the name that the node is
in. -/
theorem exists_enclosingClass_iff {name : String} (hname : name ≠ "") :
    (∃ id, (arena.enclosingClass model ref).1 = some id
        ∧ (arena.enclosingClass model ref).2.classes.nameOf id = name)
      ↔ arena.className? ref = some name := by
  constructor
  · rintro ⟨id, hid, rfl⟩
    exact nameOf_enclosingClass hid
  · intro hclass
    rw [enclosingClass_of_className? hclass hname]
    exact ⟨_, rfl, ClassTable.nameOf_enter_self _ _⟩

theorem className?_of_functionAround?
    (h : arena.functionAround? ref = some function) :
    arena.className? ref
      = some (Naming.classOfFunction (arena.identityOf function).basis) := by
  rw [className?, h]

-- ========================================================== identities

/-- Whether the node stands in an assignment, which it is named after. -/
def isAssigned (arena : Arena) (function : Nat) : Bool :=
  match arena.form? (arena.parentOf (some function)) with
  | some (.assignment ..) => true
  | _ => false

/-- A node that shows an identifier is one. -/
theorem Shows.identifier? {lines : Text.LineMap} {i : Nat} {tree : Tree}
    {word : String} (h : arena.Shows lines i tree)
    (hword : tree.identifier? = some word) :
    arena.identifier? (some i) = some word := by
  rw [h.identifier?_eq, hword]

/-- The name of a function is an identifier, without dots. -/
theorem dot_notMem_functionName {lines : Text.LineMap} {text : String}
    {tree : Tree} (h : Tree.parse text = .ok tree) {i : Nat} {body : Ref}
    {parameters : List Ref} {isDeclaration : Bool}
    (hform : (ofTree lines tree).2.form? (some function)
      = some (.function (some i) parameters body isDeclaration)) :
    '.' ∉ ((ofTree lines tree).2.nameOf (some i)).toList := by
  have horigin : (ofTree lines tree).2.Origin text lines _ function :=
    origin_of_parse h (lt_size_of_form? hform)
  obtain ⟨shown, hshows, -, hroot | ⟨p, form, role, -, -, -, hread⟩⟩ :=
    horigin
  · obtain ⟨statements, hfile⟩ := hshows.exists_file hroot.2
    rw [hform] at hfile
    cases hfile
  · have hnames := hread.hasNames
    obtain ⟨hnode, hfilled, hbelow⟩ := hshows
    rename_i joint parent
    have hjoint : joint.map Prod.fst
        = .function (some i) parameters body isDeclaration := by
      simpa [form?, node?, hnode] using hform
    cases joint with
    | function name _ _ _ =>
        obtain ⟨ref, slot⟩ := name
        cases hjoint
        have hsome := hfilled (some i, slot) (List.mem_cons_self ..)
        obtain ⟨t, rfl⟩ := Option.isSome_iff_exists.1 hsome.symm
        have hisSome := hnames _ _ _ _ rfl (some t) (List.mem_cons_self ..) t
          rfl
        obtain ⟨word, hword⟩ := Option.isSome_iff_exists.1 hisSome
        have hshown := (hbelow i t (List.mem_cons_self ..)).identifier? hword
        rw [nameOf_of_identifier? hshown]
        exact dot_notMem_identifier? h hshown
    | _ => cases hjoint

/-- A function that is named like a class, and has no such name of its own,
is assigned to that name, or is the value of a key behind the name that its
class is derived from. -/
theorem identityOf_cases
    (hown : ∀ i parameters body isDeclaration,
      arena.form? (some function)
        = some (.function (some i) parameters body isDeclaration) →
      '.' ∉ (arena.nameOf (some i)).toList)
    (hclass : Naming.isClassName (arena.identityOf function).name = true) :
    arena.isAssigned function = true
        ∧ (arena.identityOf function).basis
          = (arena.identityOf function).name
      ∨ arena.isAssigned function = false
        ∧ ∃ key, (arena.identityOf function).name
          = (arena.identityOf function).basis ++ "." ++ key := by
  have hdot := Naming.dot_mem_of_isClassName hclass
  clear hclass
  revert hdot
  unfold identityOf
  dsimp only
  split
  · rename_i hform
    exact fun hdot => absurd hdot (hown _ _ _ _ hform)
  · rename_i hparent _
    exact fun _ => .inl ⟨by rw [isAssigned, hparent], rfl⟩
  · rename_i key value hparent _
    split
    · exact fun _ => .inr ⟨by rw [isAssigned, hparent], arena.nameOf key, rfl⟩
    · exact fun hdot => nomatch hdot
  · exact fun hdot => nomatch hdot

/-- The class around a node in a constructor is that of the constructor
exactly if the constructor is assigned to the name of the class, and that is
not the name of a static member as well. Fields that are declared in a
constructor are fields of its class exactly under the same condition. -/
theorem ownClass_of_parse {text : String} {tree : Tree}
    (h : Tree.parse text = .ok tree) :
    let arena := (ofTree (.ofText text) tree).2
    ∀ ref function, arena.functionAround? ref = some function →
      let name := (arena.identityOf function).name
      let own := arena.isAssigned function = true
        ∧ Naming.isStaticMemberName name = false
      Naming.isClassName name = true →
      (∀ model, let (owner, later) := arena.enclosingClass model ref
        (∃ id, owner = some id ∧ later.classes.nameOf id = name) ↔ own)
      ∧ ∀ i owner field, ref = some i → arena.DeclaresOwn i owner field →
        (owner = name ↔ own) := by
  intro arena ref function haround name own hclass
  have hcases := identityOf_cases
    (fun _ _ _ _ hform => dot_notMem_functionName h hform) hclass
  have hne : name ≠ "" := by
    intro hempty
    rw [hempty] at hclass
    cases hclass
  have hown : arena.className? ref = some name ↔ own := by
    rw [className?_of_functionAround? haround, Option.some_inj]
    -- the name was assigned to, or is that of a key behind the class it
    -- belongs to
    rcases hcases with ⟨hassigned, hbasis⟩ | ⟨hkey, key, hname⟩
    · rw [hbasis, Naming.classOfFunction_eq_self_iff hclass]
      exact (and_iff_right hassigned).symm
    · have hother := Naming.classOfFunction_ne_join
        (arena.identityOf function).basis key
      rw [← hname] at hother
      refine iff_of_false hother fun hown => ?_
      cases hkey.symm.trans hown.1
  refine ⟨fun model => (exists_enclosingClass_iff hne).trans hown, ?_⟩
  rintro i owner field rfl ⟨⟨hin, -⟩, -⟩
  rw [← hown, hin, Option.some_inj]

/-- The constructor of an inner class, which declares a field. -/
def innerClass : String :=
  "a.B.Inner=function()\x7b/** @type N */this.x=1;\x7d;"

/-- What is in it is in the inner class, and so is the field. -/
theorem ownClass_of_parse_innerClass :
    Tree.Parses innerClass fun tree =>
      let arena := (ofTree (.ofText innerClass) tree).2
      arena.functionAround? (some 9) = some 12
        ∧ (arena.identityOf 12).name = "a.B.Inner"
        ∧ Naming.isClassName "a.B.Inner" = true
        ∧ (∃ id, (arena.enclosingClass {} (some 9)).1 = some id
          ∧ (arena.enclosingClass {} (some 9)).2.classes.nameOf id
            = "a.B.Inner")
        ∧ arena.DeclaresOwn 9 "a.B.Inner" "x" := by
  have hparses : Tree.Parses innerClass fun tree =>
      let arena := (ofTree (.ofText innerClass) tree).2
      arena.functionAround? (some 9) = some 12
        ∧ (arena.identityOf 12).name = "a.B.Inner"
        ∧ arena.isAssigned 12 = true
        ∧ arena.form? (some 9)
          = some (.assignment (some 7) (.punctuator .equals) (some 8))
        ∧ arena.isOwnMember (some 7) = true
        ∧ arena.memberName (some 7) = "x"
        ∧ arena.isFunction (some 8) = false
        ∧ (arena.docOf (some 9)).isSome = true := by decide +kernel
  obtain ⟨tree, hparse, haround, hname, hassigned, hform, hmember, hfield,
    hright, hdoc⟩ := hparses
  have hclass : Naming.isClassName "a.B.Inner" = true := by decide
  have hstatic : Naming.isStaticMemberName "a.B.Inner" = false := by decide
  obtain ⟨henclosing, -⟩ := ownClass_of_parse hparse (some 9) 12 haround
    (by rw [hname]; exact hclass)
  rw [hname] at henclosing
  have hinner := (henclosing {}).2 ⟨hassigned, hstatic⟩
  refine ⟨tree, hparse, haround, hname, hclass, hinner, ⟨?_, ?_⟩, ?_, hdoc⟩
  · exact (exists_enclosingClass_iff (by decide)).1 hinner
  · exact ⟨_, _, _, hform, hmember, hfield, hright⟩
  · exact ⟨12, haround, by rw [hname]; exact hclass⟩

/-- The constructor of an inner class with capitals alone, which declares a
field. -/
def innerCapitals : String :=
  "a.B.C=function()\x7b/** @type N */this.x=1;\x7d;"

/-- What is in it is in the outer class, and so is the field. -/
theorem not_ownClass_innerCapitals :
    Tree.Parses innerCapitals fun tree =>
      let arena := (ofTree (.ofText innerCapitals) tree).2
      arena.functionAround? (some 9) = some 12
        ∧ (arena.identityOf 12).name = "a.B.C"
        ∧ Naming.isClassName "a.B.C" = true
        ∧ ¬ (∃ id, (arena.enclosingClass {} (some 9)).1 = some id
          ∧ (arena.enclosingClass {} (some 9)).2.classes.nameOf id
            = "a.B.C") := by
  have hparses : Tree.Parses innerCapitals fun tree =>
      let arena := (ofTree (.ofText innerCapitals) tree).2
      arena.functionAround? (some 9) = some 12
        ∧ (arena.identityOf 12).name = "a.B.C"
        ∧ arena.className? (some 9) = some "a.B" := by decide +kernel
  obtain ⟨tree, hparse, haround, hname, houter⟩ := hparses
  refine ⟨tree, hparse, haround, hname, by decide, ?_⟩
  rw [exists_enclosingClass_iff (by decide), houter]
  decide

end Arena

end ScriptLint
