/-
Members of `this`. What is behind `this` is a field, whatever it is called.
But roles are told by names, and in a name `this` reads like a package: so
`this.Foo` is named like a class, `this.Foo.prototype` like a prototype and
`this.Foo.MAX` like a static member. An assignment to a member of `this` is
checked as such exactly if its name has no role that what is assigned can
play (`Arena.ownMembers_of_parse`). No member has one unless some segment
begins with a capital.

# The argument

- The segments of the name of a member of `this` are `this` and its words,
  or less if the chain is long (`segments_ownMember`).
- Each test that comes before the one for members of `this` is a test of
  segments, so it fails unless the member plays the role
  (`checkAssignment_of_not_playsRole`).
- The other way round, in each role the outcome differs from that of a
  field already in an empty model (`ne_checkOwn_of_playsRole`).
-/
import ScriptLint.Proofs.Constants
import ScriptLint.Proofs.Definitions
import ScriptLint.Proofs.MemberChains
import ScriptLint.Proofs.Syntax.Wrapping

namespace ScriptLint

-- =============================================================== names

namespace Naming

variable {path : List (List Char)}

/-- In a class path some segment begins with a capital. -/
theorem exists_class_of_isClassPath (h : isClassPath path = true) :
    ∃ segment ∈ path, isClassSegment segment = true := by
  unfold isClassPath behindPackage? at h
  split at h
  · rename_i classes hpath
    split at hpath
    · cases hpath
    · split at hpath
      · cases hpath
        obtain ⟨hsome, hall⟩ := Bool.and_eq_true_iff.1 h
        rw [Bool.not_eq_true', List.isEmpty_eq_false_iff] at hsome
        obtain ⟨segment, hmem⟩ := List.exists_mem_of_ne_nil _ hsome
        exact ⟨segment,
          List.mem_cons_of_mem _ ((List.dropWhile_sublist _).subset hmem),
          List.all_eq_true.1 hall segment hmem⟩
      · cases hpath
  · cases h

/-- One of the segments of a member path is that of a class. -/
theorem exists_class_of_isMemberPath {isMember : List Char → Bool}
    (h : isMemberPath isMember path = true) :
    ∃ segment ∈ path, isClassSegment segment = true := by
  obtain ⟨segment, hmem, hclass⟩ :=
    exists_class_of_isClassPath (Bool.and_eq_true_iff.1 h).1
  exact ⟨segment, List.dropLast_subset _ hmem, hclass⟩

/-- A package with one segment behind it is no member path. -/
theorem not_isMemberPath_pair {isMember : List Char → Bool}
    (package member : List Char) :
    isMemberPath isMember [package, member] = false := by
  rw [isMemberPath, show [package, member].dropLast = [package] from rfl,
    isClassPath, behindPackage?]
  split
  · rename_i hpath
    split at hpath <;> cases hpath
    rfl
  · rfl

end Naming

namespace Arena

variable {arena : Arena} {model : Model} {i j : Nat} {root left right : Ref}
  {operator : TokenKind} {members : List String} {name : String}

-- ============================================================== chains

/-- The segments of the name of a member of `this`. -/
def ownSegments (members : List String) : List (List Char) :=
  (("this" :: members).rtake walkLimit).map String.toList

theorem segments_ownMember {lines : Text.LineMap} {text : String}
    {tree : Tree} (h : Tree.parse text = .ok tree)
    (hroot : (ofTree lines tree).2.form? root = some .thisRef)
    (hchain : (ofTree lines tree).2.MemberChain root left members) :
    Naming.segments ((ofTree lines tree).2.nameOf left)
      = ownSegments members :=
  hchain.segments_nameOf h (by rw [rootWord?, hroot])

/-- A chain of one member is a member of `this` itself. -/
theorem MemberChain.isOwnMember_iff
    (h : arena.MemberChain root left members)
    (hroot : arena.form? root = some .thisRef) :
    arena.isOwnMember left = true ↔ members.length = 1 := by
  unfold isOwnMember
  cases h with
  | root => simp [hroot]
  | member hform _ howner =>
      rw [hform]
      dsimp only
      unfold isThis
      cases howner with
      | root => simp [hroot]
      | member hmember => simp [hmember]

/-- A short chain is named by all of its words. -/
theorem ownSegments_of_lt (h : members.length < walkLimit) :
    ownSegments members = ("this" :: members).map String.toList := by
  rw [ownSegments, rtake_of_length_le h]

/-- A member of `this` itself has no member path. -/
theorem not_isMemberPath_ownSegments {isMember : List Char → Bool}
    (h : members.length = 1) :
    Naming.isMemberPath isMember (ownSegments members) = false := by
  rw [ownSegments_of_lt (by rw [h, walkLimit]; decide)]
  obtain ⟨member, rfl⟩ := List.length_eq_one_iff.1 h
  exact Naming.not_isMemberPath_pair _ _

/-- The segments of a member of `this` are `this` and the members, or some
of the members. -/
theorem mem_of_mem_ownSegments {segment : List Char}
    (h : segment ∈ ownSegments members) :
    ∃ word ∈ "this" :: members, word.toList = segment := by
  obtain ⟨word, hword, rfl⟩ := List.mem_map.1 h
  exact ⟨word, List.drop_subset _ _ hword, rfl⟩

-- =============================================================== roles

/-- The name of a member of `this` has a role that the right side of the
assignment can play: a class that is a function or an object literal, a
prototype, or a static member that is no function. -/
def PlaysRole (arena : Arena) (members : List String) (right : Ref) : Prop :=
  let path := ownSegments members
  Naming.isClassPath path = true
      ∧ (arena.isFunction right || arena.isObject right) = true
    ∨ Naming.isMemberPath (· == Naming.prototypeSegment) path = true
    ∨ Naming.isMemberPath Naming.isMemberSegment path = true
      ∧ arena.isFunction right = false

/-- Without a segment that begins with a capital there is no role. -/
theorem not_playsRole
    (h : ∀ member ∈ members,
      Naming.isClassSegment member.toList = false) (right : Ref) :
    ¬ arena.PlaysRole members right := by
  have hnone : ¬ ∃ segment ∈ ownSegments members,
      Naming.isClassSegment segment = true := by
    rintro ⟨segment, hmem, hclass⟩
    obtain ⟨word, hword, rfl⟩ := mem_of_mem_ownSegments hmem
    rcases List.mem_cons.1 hword with rfl | hmember
    · exact absurd hclass (by decide)
    · rw [h word hmember] at hclass
      cases hclass
  rintro (⟨hpath, -⟩ | hpath | ⟨hpath, -⟩)
  · exact hnone (Naming.exists_class_of_isClassPath hpath)
  · exact hnone (Naming.exists_class_of_isMemberPath hpath)
  · exact hnone (Naming.exists_class_of_isMemberPath hpath)

-- ============================================================== checks

/-- What there is to check of a member of `this`: a field is updated or
declared unless it is given a function, and what is behind a field is left
alone. -/
def checkOwn (arena : Arena) (model : Model) (assignment left right : Ref) :
    Outcome :=
  if arena.isOwnMember left && !arena.isFunction right then
    arena.checkInstanceField model assignment left
  else { model }

/-- Without a role an assignment is checked as one to a member of `this`. -/
theorem checkAssignment_of_not_playsRole
    (hsegments : Naming.segments (arena.nameOf left) = ownSegments members)
    (hrole : ¬ arena.PlaysRole members right) (model : Model)
    (assignment : Ref) :
    arena.checkAssignment model assignment left right
      = arena.checkOwn model assignment left right := by
  have hclass : (Naming.isClassName (arena.nameOf left)
      && (arena.isFunction right || arena.isObject right)) = false := by
    rw [← Bool.not_eq_true, Bool.and_eq_true]
    intro hbody
    rw [Naming.isClassName, hsegments] at hbody
    exact hrole (.inl hbody)
  have hfunction : (Naming.isClassName (arena.nameOf left)
      && arena.isFunction right) = false := by
    revert hclass
    cases Naming.isClassName (arena.nameOf left) <;>
      cases arena.isFunction right <;> simp
  have hprototype : Naming.isPrototypeName (arena.nameOf left) = false := by
    rw [← Bool.not_eq_true, Naming.isPrototypeName, hsegments]
    exact fun hpath => hrole (.inr (.inl hpath))
  have hstatic : (Naming.isStaticMemberName (arena.nameOf left)
      && !arena.isFunction right) = false := by
    rw [← Bool.not_eq_true, Bool.and_eq_true, Bool.not_eq_true',
      Naming.isStaticMemberName, hsegments]
    exact fun hpath => hrole (.inr (.inr hpath))
  unfold checkAssignment checkOwn
  simp only [defineClass, hclass, hfunction, hprototype, hstatic,
    Bool.false_eq_true, if_false]
  cases arena.isOwnMember left <;> cases arena.isFunction right <;> rfl

/-- The kinds of findings about a field of `this`. -/
def fieldKinds : List DiagnosticKind :=
  [.badThis, .noFieldDecl, .constAssign, .badApidoc, .noApidoc]

/-- All findings among the events are of some kinds. -/
def OfKinds (kinds : List DiagnosticKind) (events : List Event) : Prop :=
  ∀ kind line detail, .report kind line detail ∈ events → kind ∈ kinds

theorem ofKinds_fieldUpdate (model : Model) (assignment : Ref)
    (function : Nat) (owner : Option Nat) (field : String) :
    OfKinds fieldKinds
      (arena.fieldUpdate model assignment function owner field) := by
  intro kind line detail hmem
  unfold fieldUpdate report at hmem
  split_ifs at hmem <;> simp_all [fieldKinds]

theorem ofKinds_checkInstanceField (model : Model) (assignment left : Ref) :
    OfKinds fieldKinds
      (arena.checkInstanceField model assignment left).events := by
  have hupdate := arena.ofKinds_fieldUpdate
  intro kind line detail hmem
  unfold checkInstanceField at hmem
  split at hmem
  · simp_all [report, fieldKinds]
  · dsimp only at hmem
    split at hmem
    · split at hmem
      · rcases List.mem_append.1 hmem with hmisplaced | hmem
        · split at hmisplaced <;> simp_all [report, fieldKinds]
        · exact hupdate _ _ _ _ _ _ _ _ hmem
      · split at hmem <;> simp_all [report, fieldKinds]
    · exact hupdate _ _ _ _ _ _ _ _ hmem

/-- Fields are declared in classes, but define none. -/
theorem definedAt?_enclosingClass (model : Model) (ref : Ref)
    (name : String) :
    (arena.enclosingClass model ref).2.classes.definedAt? name
      = model.classes.definedAt? name := by
  unfold enclosingClass
  split
  · rfl
  · rfl
  · exact ClassTable.definedAt?_enter _ _ _

theorem definedAt?_checkInstanceField (model : Model)
    (assignment left : Ref) (name : String) :
    (arena.checkInstanceField model assignment left).model.classes.definedAt?
        name
      = model.classes.definedAt? name := by
  unfold checkInstanceField
  split
  · rfl
  · rename_i hfunction
    have hentered := (arena.definedAt?_enclosingClass _ assignment name).trans
      (congrArg (·.definedAt? name) (classes_of_enclosingFunction? hfunction))
    dsimp only
    split
    · split
      · exact hentered
      · split
        · exact hentered
        · rw [← hentered]
          unfold Model.updateClass
          split
          · exact ClassTable.definedAt?_update _ _ _ fun _ => rfl
          · rfl
    · exact hentered

theorem definedAt?_checkOwn (model : Model) (assignment left right : Ref)
    (name : String) :
    (arena.checkOwn model assignment left right).model.classes.definedAt? name
      = model.classes.definedAt? name := by
  unfold checkOwn
  split
  · exact definedAt?_checkInstanceField _ _ _ _
  · rfl

theorem ofKinds_checkOwn (model : Model) (assignment left right : Ref) :
    OfKinds fieldKinds
      (arena.checkOwn model assignment left right).events := by
  unfold checkOwn
  split
  · exact ofKinds_checkInstanceField _ _ _
  · exact fun _ _ _ hmem => nomatch hmem

theorem checkOwn_of_isFunction (h : arena.isFunction right = true)
    (model : Model) (assignment left : Ref) :
    arena.checkOwn model assignment left right = { model } := by
  rw [checkOwn, h, Bool.not_true, Bool.and_false]
  rfl

-- ================================================ what a role leads to

/-- A function or an object literal that is named like a class defines
it. -/
theorem ne_checkOwn_of_class
    (hform : arena.form? (some i) = some (.assignment left operator right))
    (hclass : Naming.isClassName (arena.nameOf left) = true)
    (hbody : (arena.isFunction right || arena.isObject right) = true) :
    arena.checkNode {} i ≠ .ok (arena.checkOwn {} (some i) left right) := by
  intro hown
  have hassigns : arena.assignsBody (arena.nameOf left) i = true := by
    rw [assignsBody, hform]
    exact Bool.and_eq_true_iff.2 ⟨beq_self_eq_true _, hbody⟩
  have hdefined := definedAt?_checkNode hown (arena.nameOf left)
  rw [definedAt?_checkOwn, definition?, hclass, hassigns] at hdefined
  cases hdefined

/-- Only an object literal is a prototype. -/
theorem badRvalue_mem_checkPrototype (h : arena.isObject right = false)
    (model : Model) (assignment : Ref) :
    arena.report .badRvalue assignment
      ∈ (arena.checkPrototype model assignment right).events := by
  unfold checkPrototype
  simp only [h, Bool.false_eq_true, if_false]
  split
  · exact List.mem_singleton_self _
  · split
    · exact List.mem_singleton_self _
    · exact List.mem_cons_self ..

theorem ne_checkOwn_of_prototype
    (hform : arena.form? (some i) = some (.assignment left operator right))
    (hprototype : Naming.isPrototypeName (arena.nameOf left) = true)
    (hright : arena.isObject right = false) :
    arena.checkNode {} i ≠ .ok (arena.checkOwn {} (some i) left right) := by
  have hclass : Naming.isClassName (arena.nameOf left) = false := by
    obtain ⟨owner, hname, howner⟩ := Naming.isPrototypeName_iff.1 hprototype
    rw [← hname]
    exact Naming.not_isClassName_prototype howner
  have hcheck : arena.checkNode {} i
      = .ok (arena.checkPrototype {} (some i) right) := by
    rw [checkNode_assignment hform]
    unfold checkAssignment
    simp [defineClass, hclass, hprototype]
  have hmem := badRvalue_mem_checkPrototype hright {} (some i)
  rw [hcheck]
  intro hown
  rw [Except.ok.inj hown] at hmem
  exact absurd (ofKinds_checkOwn _ _ _ _ _ _ _ hmem) (by decide)

theorem find?_declareStatic (model : Model) (assignment right : Ref)
    (owner : Option Nat) (field name : String) :
    (arena.declareStatic model assignment right owner field).model.classes.find?
        name
      = model.classes.find? name := by
  unfold declareStatic
  split
  · rfl
  · rfl
  · split
    · rfl
    · split
      · unfold Model.updateClass
        split
        · exact Registry.find?_update _ _ _
        · rfl
      · rfl

/-- What is named like a static member enters its class or the function
around it. -/
theorem model_checkStaticField_ne
    (hform : arena.form? (some i) = some (.assignment left operator right))
    (hstatic : Naming.isStaticMemberName (arena.nameOf left) = true) :
    (arena.checkStaticField {} (some i) right (arena.nameOf left)).model
      ≠ {} := by
  cases haround : arena.functionAround? (some i) with
  | none =>
      intro hmodel
      have hfind := congrArg (fun model : Model => model.classes.find?
        (Naming.staticMemberClass (arena.nameOf left))) hmodel
      rw [checkStaticField_outside haround hform hstatic] at hfind
      dsimp only at hfind
      rw [find?_declareStatic] at hfind
      dsimp only at hfind
      rw [ClassTable.enter, Registry.find?_intern_self] at hfind
      cases hfind
  | some function =>
      intro hmodel
      have hfind := congrArg (fun model : Model => model.functions.find?
        (arena.identityOf function).name) hmodel
      unfold checkStaticField enclosingFunction? at hfind
      rw [haround] at hfind
      dsimp only [Option.map_some] at hfind
      rw [find?_enterFunction] at hfind
      cases hfind

theorem ne_checkOwn_of_static
    (hform : arena.form? (some i) = some (.assignment left operator right))
    (hclass : (Naming.isClassName (arena.nameOf left)
      && (arena.isFunction right || arena.isObject right)) = false)
    (hprototype : Naming.isPrototypeName (arena.nameOf left) = false)
    (hown : arena.isOwnMember left = false)
    (hstatic : Naming.isStaticMemberName (arena.nameOf left) = true)
    (hright : arena.isFunction right = false) :
    arena.checkNode {} i ≠ .ok (arena.checkOwn {} (some i) left right) := by
  have hcheck : arena.checkNode {} i
      = .ok (arena.checkStaticField {} (some i) right
        (arena.nameOf left)) := by
    have hdefine : arena.defineClass {} (some i) right (arena.nameOf left)
        = {} := by
      rw [defineClass, hclass]
      rfl
    rw [checkNode_assignment hform]
    unfold checkAssignment
    simp [hdefine, hprototype, hown, hstatic, hright]
  rw [hcheck, checkOwn, hown]
  intro hsame
  exact model_checkStaticField_ne hform hstatic
    (congrArg Outcome.model (Except.ok.inj hsame))

/-- A role is checked, unless it is that of a prototype and an object
literal is given: there the check itself has nothing to say. -/
theorem ne_checkOwn_of_playsRole
    (hform : arena.form? (some i) = some (.assignment left operator right))
    (hsegments : Naming.segments (arena.nameOf left) = ownSegments members)
    (hown : arena.isOwnMember left = true → members.length = 1)
    (hrole : arena.PlaysRole members right)
    (hobject : Naming.isPrototypeName (arena.nameOf left) = true →
      arena.isObject right = false) :
    arena.checkNode {} i ≠ .ok (arena.checkOwn {} (some i) left right) := by
  -- the first role that applies is the one that is checked
  by_cases hclass : Naming.isClassPath (ownSegments members) = true
      ∧ (arena.isFunction right || arena.isObject right) = true
  · rw [← hsegments] at hclass
    exact ne_checkOwn_of_class hform hclass.1 hclass.2
  by_cases hprototype : Naming.isPrototypeName (arena.nameOf left) = true
  · exact ne_checkOwn_of_prototype hform hprototype (hobject hprototype)
  rcases hrole with hrole | hrole | ⟨hstatic, hright⟩
  · exact absurd hrole hclass
  · rw [← hsegments] at hrole
    exact absurd hrole hprototype
  · have hbehind : arena.isOwnMember left = false := by
      rw [← Bool.not_eq_true]
      intro hsingle
      rw [not_isMemberPath_ownSegments (hown hsingle)] at hstatic
      cases hstatic
    rw [← hsegments] at hclass hstatic
    rw [← Bool.and_eq_true, Bool.not_eq_true] at hclass
    rw [Bool.not_eq_true] at hprototype
    exact ne_checkOwn_of_static hform hclass hprototype hbehind hstatic hright

-- ============================================================ programs

/-- In a program, the right side of an assignment stands in it. -/
theorem parentOf_right {text : String} {tree : Tree}
    (hform : (ofTree (.ofText text) tree).2.form? (some i)
      = some (.assignment left operator (some j))) :
    (ofTree (.ofText text) tree).2.parentOf (some j) = some i :=
  (isTree_shows_ofTree tree).1.parentOf_child
    (mem_childrenOf_of_form? hform (by simp [Form.slots]))

/-- An object literal on the right is the body of a class exactly if the
left side is named like a prototype or a class. -/
theorem isClassBody_right {text : String} {tree : Tree}
    (hform : (ofTree (.ofText text) tree).2.form? (some i)
      = some (.assignment left operator right))
    (hright : (ofTree (.ofText text) tree).2.isObject right = true) :
    (ofTree (.ofText text) tree).2.isClassBody right
      = (Naming.isPrototypeName ((ofTree (.ofText text) tree).2.nameOf left)
        || Naming.isClassName
          ((ofTree (.ofText text) tree).2.nameOf left)) := by
  cases right with
  | none => cases hright
  | some j => rw [isClassBody, parentOf_right hform, hform]

/-- The kinds of findings about classes, prototypes and static members
alone. -/
def roleKinds : List DiagnosticKind :=
  [.noPackageDef, .badClassPackage, .ctorUnmarked, .badBodyDef, .ctorStatic]

/-- An assignment to a chain of members of `this` is checked as one to a
member of `this`, and an object literal in it is no class body, exactly if
the name has no role. Then no class is defined, a function is not looked
at, and nothing is found that is about a class, a prototype or a static
member. -/
theorem ownMembers_of_parse {text : String} {tree : Tree}
    (h : Tree.parse text = .ok tree) :
    let arena := (ofTree (.ofText text) tree).2
    ∀ i left operator right root members,
      arena.form? (some i) = some (.assignment left operator right) →
      arena.form? root = some .thisRef →
      arena.MemberChain root left members →
      let own model := arena.checkOwn model (some i) left right
      ((∀ model, arena.checkNode model i = .ok (own model))
          ∧ (arena.isObject right = true → arena.isClassBody right = false)
        ↔ ¬ arena.PlaysRole members right)
      ∧ ((∀ member ∈ members,
          Naming.isClassSegment member.toList = false) →
        ¬ arena.PlaysRole members right)
      ∧ ∀ model, (arena.isFunction right = true → own model = { model })
        ∧ (∀ name, (own model).model.classes.definedAt? name
          = model.classes.definedAt? name)
        ∧ ∀ kind ∈ roleKinds, ∀ line detail,
          .report kind line detail ∉ (own model).events := by
  intro arena i left operator right root members hform hroot hchain own
  have hsegments := segments_ownMember h hroot hchain
  have hbody := isClassBody_right hform
  refine ⟨⟨?_, ?_⟩, fun hsmall => not_playsRole hsmall right,
    fun model => ⟨fun hright => checkOwn_of_isFunction hright _ _ _,
      definedAt?_checkOwn _ _ _ _, ?_⟩⟩
  -- in a role, the outcome differs from that of a field already in an empty
  -- model
  · rintro ⟨hown, hnone⟩ hrole
    refine ne_checkOwn_of_playsRole hform hsegments
      (hchain.isOwnMember_iff hroot).1 hrole (fun hprototype => ?_) (hown {})
    rw [← Bool.not_eq_true]
    intro hright
    have hfalse := hnone hright
    rw [hbody hright, hprototype] at hfalse
    cases hfalse
  · intro hrole
    refine ⟨fun model => ?_, fun hright => ?_⟩
    · rw [checkNode_assignment hform,
        checkAssignment_of_not_playsRole hsegments hrole]
    · rw [hbody hright, Bool.or_eq_false_iff, ← Bool.not_eq_true,
        ← Bool.not_eq_true, Naming.isPrototypeName, Naming.isClassName,
        hsegments]
      exact ⟨fun hpath => hrole (.inr (.inl hpath)),
        fun hpath => hrole (.inl ⟨hpath, by rw [hright, Bool.or_true]⟩)⟩
  · intro kind hkind line detail hmem
    -- remarks on fields are of other kinds than those on roles
    have hdisjoint : ∀ kind ∈ roleKinds, kind ∉ fieldKinds := by decide
    exact hdisjoint kind hkind (ofKinds_checkOwn _ _ _ _ _ _ _ hmem)

/-- An object literal behind a field of `this` that is called like a
constant. -/
def behindField : String := "this.x.MAX=\x7b\x7d;"

/-- A member behind a field of `this` is no field of `this` itself, and is
left alone. -/
theorem ownMembers_of_parse_behindField :
    Tree.Parses behindField fun tree =>
      let arena := (ofTree (.ofText behindField) tree).2
      arena.form? (some 6)
          = some (.assignment (some 4) (.punctuator .equals) (some 5))
        ∧ arena.form? (some 0) = some .thisRef
        ∧ arena.MemberChain (some 0) (some 4) ["x", "MAX"]
        ∧ ¬ arena.PlaysRole ["x", "MAX"] (some 5)
        ∧ (∀ model, arena.checkNode model 6 = .ok { model })
        ∧ arena.isObject (some 5) = true
        ∧ arena.isClassBody (some 5) = false := by
  have hparses : Tree.Parses behindField fun tree =>
      let arena := (ofTree (.ofText behindField) tree).2
      arena.form? (some 6)
          = some (.assignment (some 4) (.punctuator .equals) (some 5))
        ∧ arena.form? (some 0) = some .thisRef
        ∧ arena.form? (some 2) = some (.member (some 0) (some 1))
        ∧ arena.identifier? (some 1) = some "x"
        ∧ arena.form? (some 4) = some (.member (some 2) (some 3))
        ∧ arena.identifier? (some 3) = some "MAX"
        ∧ arena.isOwnMember (some 4) = false
        ∧ arena.isObject (some 5) = true := by decide +kernel
  obtain ⟨tree, hparse, hform, hroot, hfield, hx, hmember, hmax, hown,
    hobject⟩ := hparses
  have hchain : (ofTree (.ofText behindField) tree).2.MemberChain
      (some 0) (some 4) ["x", "MAX"] :=
    .member hmember hmax (.member hfield hx .root)
  have hrole : ¬ (ofTree (.ofText behindField) tree).2.PlaysRole
      ["x", "MAX"] (some 5) := by
    -- a package but for its head has two characters at least
    have hclass : Naming.isClassPath (ownSegments ["x", "MAX"]) = false := by
      decide +kernel
    have hmember : Naming.isClassPath (ownSegments ["x", "MAX"]).dropLast
        = false := by decide +kernel
    rintro (⟨hpath, -⟩ | hpath | ⟨hpath, -⟩)
    · rw [hclass] at hpath
      cases hpath
    · rw [Naming.isMemberPath, hmember] at hpath
      cases hpath
    · rw [Naming.isMemberPath, hmember] at hpath
      cases hpath
  obtain ⟨hchecked, hbody⟩ :=
    (ownMembers_of_parse hparse 6 _ _ _ _ _ hform hroot hchain).1.2 hrole
  refine ⟨tree, hparse, hform, hroot, hchain, hrole, fun model => ?_,
    hobject, hbody hobject⟩
  rw [hchecked]
  dsimp only
  rw [checkOwn, hown]
  rfl

/-- A function that is a member of `this`, and has a capital. -/
def methodWithCapital : String :=
  "function f()\x7bthis.Foo=function()\x7b\x7d;\x7d"

/-- It is taken for a class, and that for one outside of a package. -/
theorem not_ownMembers_methodWithCapital :
    Tree.Parses methodWithCapital fun tree =>
      let arena := (ofTree (.ofText methodWithCapital) tree).2
      arena.form? (some 6)
          = some (.assignment (some 3) (.punctuator .equals) (some 5))
        ∧ arena.form? (some 1) = some .thisRef
        ∧ arena.MemberChain (some 1) (some 3) ["Foo"]
        ∧ arena.isFunction (some 5) = true
        ∧ ¬ ∀ outcome, arena.checkNode {} 6 = .ok outcome →
          (∀ name, outcome.model.classes.definedAt? name = none)
            ∧ ∀ kind ∈ roleKinds, ∀ line detail,
              .report kind line detail ∉ outcome.events := by
  have hparses : Tree.Parses methodWithCapital fun tree =>
      let arena := (ofTree (.ofText methodWithCapital) tree).2
      arena.form? (some 6)
          = some (.assignment (some 3) (.punctuator .equals) (some 5))
        ∧ arena.form? (some 1) = some .thisRef
        ∧ arena.form? (some 3) = some (.member (some 1) (some 2))
        ∧ arena.identifier? (some 2) = some "Foo"
        ∧ arena.isFunction (some 5) = true
        ∧ arena.checkNode {} 6 = .ok
          { model := { classes := (ClassTable.define {} "this.Foo" 1).2 }
            events := [.report .noPackageDef 1 none] } := by
    decide +kernel
  obtain ⟨tree, hparse, hform, hroot, hmember, hfoo, hright, hcheck⟩ :=
    hparses
  refine ⟨tree, hparse, hform, hroot, .member hmember hfoo .root, hright,
    fun hnone => ?_⟩
  exact (hnone _ hcheck).2 .noPackageDef (by decide) 1 none
    (List.mem_singleton_self _)

end Arena

end ScriptLint
