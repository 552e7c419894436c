/-
What a check does to the classes. Whatever node is checked, classes are
only entered, defined under class names, given a field that they have not
yet, and linked under class names (`ClassTable.Step`). The check functions
are gone through once to see that (`Arena.altered_checkNode`), and to see
what a step has to do with the node that makes it: a class is defined by
an assignment to its name, at the line of the node, a static field is
declared by an assignment to it, and classes are linked by a call of
`$extends` that names both (`Arena.Alters`).

So links join only classes whose names are class names, and as long as
there are no more classes than the look for circles visits, they close no
circle (`Sound`).

Later files prove facts about fields, definitions and superclasses from
these descriptions, and do not look into the checks again. A check that is
changed so that it does something else to classes therefore breaks one
lemma here, and whatever relied on what it no longer does.
-/
import ScriptLint.Proofs.Functions
import ScriptLint.Proofs.Inheritance
import ScriptLint.Proofs.Session
import Mathlib.Logic.Relation

namespace ScriptLint

namespace ClassTable

variable {classes later : ClassTable}

-- =============================================================== steps

/-- Whether a request is one that checking a node makes: it defines and
links only what is named like a class. -/
def Named (classes : ClassTable) : Request → Prop
  | .enter _ => True
  | .define name _ => Naming.isClassName name = true
  | .link id superId => Naming.isClassName (classes.nameOf id) = true
    ∧ Naming.isClassName (classes.nameOf superId) = true

/-- What checking a node does to the classes, one thing at a time. -/
inductive Step (classes : ClassTable) : ClassTable → Prop where
  | request (request : Request) : classes.Named request →
    Step classes (classes.apply request)
  | addField (id : Nat) (slot : Slot) :
    (∀ info ∈ classes.get? id, info.field? slot.name = none) →
    Step classes (classes.update id (.addField slot))
  | addStaticField (id : Nat) (slot : Slot) :
    (∀ info ∈ classes.get? id, info.staticField? slot.name = none) →
    Step classes (classes.update id (.addStaticField slot))

/-- One table becomes another in some steps. -/
abbrev Becomes : ClassTable → ClassTable → Prop :=
  Relation.ReflTransGen Step

/-- What has been entered has the name under which it was entered. -/
theorem nameOf_enter_self (classes : ClassTable) (name : String) :
    (classes.enter name).2.nameOf (classes.enter name).1 = name :=
  classes.nameOf_intern_self name {}

/-- Two classes that have been entered have their names. -/
theorem nameOf_entered (classes : ClassTable) (name superName : String) :
    let entered := ((classes.enter name).2.enter superName).2
    entered.nameOf (classes.enter name).1 = name
      ∧ entered.nameOf ((classes.enter name).2.enter superName).1
        = superName := by
  refine ⟨?_, nameOf_enter_self _ _⟩
  have hkept : ((classes.enter name).2.enter superName).2.nameOf
      (classes.enter name).1
      = (classes.enter name).2.nameOf (classes.enter name).1 :=
    Registry.nameOf_intern (classes.lt_size_intern name {}) superName {}
  rw [hkept, nameOf_enter_self]

/-- Two classes that have been entered may be linked. -/
theorem named_link (classes : ClassTable) {name superName : String}
    (hname : Naming.isClassName name = true)
    (hsuper : Naming.isClassName superName = true) :
    let entered := (classes.enter name).2
    (entered.enter superName).2.Named
      (.link (classes.enter name).1 (entered.enter superName).1) := by
  obtain ⟨hself, hother⟩ := classes.nameOf_entered name superName
  rw [Named, hself, hother]
  exact ⟨hname, hsuper⟩

-- ========================================================== invariants

/-- What steps keep: links stay within the table and join only what is
named like a class, and no walk along them is endless as long as the look
for circles comes around. -/
structure Sound (classes : ClassTable) : Prop where
  closed : classes.Closed
  grounded : classes.size ≤ maxDepth → classes.Grounded
  named (id superId : Nat) : classes.superOf? id = some superId →
    Naming.isClassName (classes.nameOf id) = true
      ∧ Naming.isClassName (classes.nameOf superId) = true

/-- An empty table is sound. -/
theorem sound_empty : Sound {} where
  closed := closed_empty
  grounded _ := grounded_empty
  named _ _ h := nomatch h

/-- Only entries have superclasses. -/
theorem lt_size_of_superOf? {a b : Nat} (h : classes.superOf? a = some b) :
    a < classes.size := by
  obtain ⟨info, hinfo, -⟩ := Option.bind_eq_some_iff.1 h
  exact Registry.lt_size_of_get? hinfo

/-- Walks go the way of the links. -/
theorem ancestor?_congr
    (h : ∀ a, later.superOf? a = classes.superOf? a) (n a : Nat) :
    later.ancestor? n a = classes.ancestor? n a := by
  induction n generalizing a with
  | zero => rfl
  | succ n ih =>
      rw [ancestor?, ancestor?, h]
      cases classes.superOf? a with
      | none => rfl
      | some next => exact ih next

/-- More classes, or more about them, but the same links. -/
theorem Sound.of_same_links (h : classes.Sound)
    (hlinks : ∀ a, later.superOf? a = classes.superOf? a)
    (hsize : classes.size ≤ later.size)
    (hnames : ∀ a < classes.size, later.nameOf a = classes.nameOf a) :
    later.Sound where
  closed a b hab := by
    rw [hlinks] at hab
    exact Nat.lt_of_lt_of_le (h.closed a b hab) hsize
  grounded hle id := by
    obtain ⟨steps, hsteps⟩ := h.grounded (Nat.le_trans hsize hle) id
    exact ⟨steps, by rw [ancestor?_congr hlinks, hsteps]⟩
  named id superId hsuper := by
    rw [hlinks] at hsuper
    rw [hnames id (lt_size_of_superOf? hsuper),
      hnames superId (h.closed id superId hsuper)]
    exact h.named id superId hsuper

/-- Requests by name are about entries. -/
theorem Named.known {request : Request} (h : classes.Named request) :
    classes.Known request := by
  have hlt : ∀ {id : Nat}, Naming.isClassName (classes.nameOf id) = true →
      id < classes.size := by
    intro id hname
    refine Registry.lt_size_of_nameOf_ne fun hempty => ?_
    rw [hempty] at hname
    exact absurd hname (by decide)
  cases request with
  | enter name => trivial
  | define name line => trivial
  | link id superId => exact ⟨hlt h.1, hlt h.2⟩

/-- A link between classes keeps a table sound. -/
theorem Sound.link {id superId : Nat} (h : classes.Sound)
    (hnamed : classes.Named (.link id superId)) :
    (classes.link id superId).2.Sound := by
  by_cases hg : classes.Grants id superId
  · have hknown := hnamed.known
    have hsize : (classes.link id superId).2.size = classes.size := by
      rw [link_of_grants hg, Registry.size_update]
    refine ⟨closed_apply hknown h.closed, fun hle => ?_,
      fun a b hab => ?_⟩
    · rw [hsize] at hle
      exact grounded_apply hknown (h.grounded hle)
        (not_closesUnseen_of_size_le hknown (h.grounded hle) h.closed hle)
    · rw [superOf?_link hknown.1 hg] at hab
      rw [link_of_grants hg, Registry.nameOf_update, Registry.nameOf_update]
      split at hab
      · next hid =>
        subst hid
        cases hab
        exact hnamed
      · exact h.named a b hab
  · rw [link_of_not_grants hg]
    exact h

/-- Changes to a class that leave its superclass alone. -/
theorem superOf?_update {f : ClassInfo → ClassInfo}
    (hf : ∀ info, (f info).superClass = info.superClass) (id a : Nat) :
    superOf? (classes.update id f) a = classes.superOf? a := by
  simp only [superOf?, Registry.get?_update]
  split
  · cases classes.get? a with
    | none => rfl
    | some info => exact hf info
  · rfl

/-- A change that leaves the superclass alone does too. -/
theorem Sound.update (h : classes.Sound) (id : Nat)
    (f : ClassInfo → ClassInfo)
    (hf : ∀ info, (f info).superClass = info.superClass) :
    Sound (classes.update id f) :=
  h.of_same_links (superOf?_update hf id)
    (Nat.le_of_eq (Registry.size_update id f).symm)
    fun a _ => Registry.nameOf_update id a f

/-- A class that is entered has no superclass yet. -/
theorem Sound.enter (h : classes.Sound) (name : String) :
    (classes.enter name).2.Sound :=
  h.of_same_links (superOf?_enter name) (classes.size_le_size_intern name {})
    fun _ ha => Registry.nameOf_intern ha name {}

/-- The step lemma. -/
theorem Sound.step (h : classes.Sound) (hstep : classes.Step later) :
    later.Sound := by
  cases hstep with
  | request request hnamed =>
      cases request with
      | enter name => exact h.enter name
      | define name line =>
          exact (h.enter name).update (classes.enter name).1
            (fun info =>
              { info with definedAt := info.definedAt.or (some line) })
            fun _ => rfl
      | link id superId => exact h.link hnamed
  | addField id slot _ => exact h.update id _ fun _ => rfl
  | addStaticField id slot _ => exact h.update id _ fun _ => rfl

/-- All steps of a check keep a table sound. -/
theorem Sound.becomes (h : classes.Sound) (hsteps : classes.Becomes later) :
    later.Sound := by
  induction hsteps with
  | refl => exact h
  | tail _ hstep ih => exact ih.step hstep

end ClassTable

-- ============================================================== checks

namespace Arena

variable {arena : Arena} {model later : Model} {ref : Ref} {i : Nat}

/-- The node writes a field of `this` in the class with a name, and what
it writes is no function. -/
def WritesOwn (arena : Arena) (i : Nat) (owner field : String) : Prop :=
  arena.className? (some i) = some owner
    ∧ ∃ left operator right,
      arena.form? (some i) = some (.assignment left operator right)
        ∧ arena.isOwnMember left = true ∧ arena.memberName left = field
        ∧ arena.isFunction right = false

/-- The node declares a field of a class: it writes it in a constructor,
and is documented. -/
def DeclaresOwn (arena : Arena) (i : Nat) (owner field : String) : Prop :=
  arena.WritesOwn i owner field ∧ arena.InConstructor i
    ∧ (arena.docOf (some i)).isSome = true

/-- Whether a reference is a value that a static field may be declared
with: no function, and nothing that is constructed or called. -/
def isPlain (arena : Arena) (ref : Ref) : Bool :=
  match arena.form? ref with
  | some (.function ..) | some (.construct ..) | some (.call ..) => false
  | _ => true

/-- The node gives a plain value to what has the name, outside of
functions. -/
def SetsPlainly (arena : Arena) (i : Nat) (name : String) : Prop :=
  arena.functionAround? (some i) = none
    ∧ ∃ left operator right,
      arena.form? (some i) = some (.assignment left operator right)
        ∧ arena.nameOf left = name ∧ arena.isPlain right = true

/-- The node declares a static field of a class: it is documented, and
sets the member plainly. -/
def DeclaresStatic (arena : Arena) (i : Nat) (owner field : String) :
    Prop :=
  ∃ name, Naming.isStaticMemberName name = true
    ∧ arena.SetsPlainly i name ∧ (arena.docOf (some i)).isSome = true
    ∧ owner = Naming.staticMemberClass name
    ∧ field = Naming.staticMember name

/-- Whether the node assigns a function or an object literal, which may be
the body of a class, to what has the name. -/
def assignsBody (arena : Arena) (name : String) (i : Nat) : Bool :=
  match arena.form? (some i) with
  | some (.assignment left _ right) =>
    arena.nameOf left == name
      && (arena.isFunction right || arena.isObject right)
  | _ => false

/-- What a call of `$extends` with two arguments names: a class, and the
superclass for it. -/
def extension? (arena : Arena) (i : Nat) : Option (String × String) :=
  match arena.form? (some i) with
  | some (.call callee [subject, target]) =>
    if arena.nameOf callee = "$extends" then
      some (arena.nameOf subject, arena.nameOf target)
    else none
  | _ => none

/-- What the check of a node does to the classes, one thing at a time. -/
inductive Alters (arena : Arena) (i : Nat) (classes : ClassTable) :
    ClassTable → Prop where
  | enter (name : String) : Alters arena i classes (classes.enter name).2
  | define (name : String) : Naming.isClassName name = true →
    arena.assignsBody name i = true →
    Alters arena i classes (classes.define name (arena.lineOf (some i))).2
  | link (id superId : Nat) : classes.Named (.link id superId) →
    arena.extension? i = some (classes.nameOf id, classes.nameOf superId) →
    Alters arena i classes (classes.link id superId).2
  | addField (id : Nat) (slot : Slot) :
    (∀ info ∈ classes.get? id, info.field? slot.name = none) →
    arena.DeclaresOwn i (classes.nameOf id) slot.name →
    Alters arena i classes (classes.update id (.addField slot))
  | addStaticField (id : Nat) (slot : Slot) :
    (∀ info ∈ classes.get? id, info.staticField? slot.name = none) →
    arena.DeclaresStatic i (classes.nameOf id) slot.name →
    Alters arena i classes (classes.update id (.addStaticField slot))

/-- The classes after several such changes. -/
abbrev Altered (arena : Arena) (i : Nat) : ClassTable → ClassTable → Prop :=
  Relation.ReflTransGen (arena.Alters i)

/-- What a node does to the classes is one step. -/
theorem Alters.step {classes classes' : ClassTable}
    (h : arena.Alters i classes classes') : classes.Step classes' := by
  cases h with
  | enter name => exact .request (.enter name) trivial
  | define name hname _ => exact .request (.define name _) hname
  | link id superId hnamed _ => exact .request (.link id superId) hnamed
  | addField id slot hnew _ => exact .addField id slot hnew
  | addStaticField id slot hnew _ => exact .addStaticField id slot hnew

/-- Looking up a function does not touch the classes. -/
theorem classes_of_enclosingFunction? {function : Nat}
    (h : arena.enclosingFunction? model ref = some (function, later)) :
    later.classes = model.classes := by
  obtain ⟨_, -, heq⟩ := Option.map_eq_some_iff.1 h
  cases heq
  rfl

/-- A named class around a node is entered. -/
theorem enclosingClass_of_className? {name : String}
    (h : arena.className? ref = some name) (hname : name ≠ "")
    (model : Model) :
    arena.enclosingClass model ref
      = (some (model.classes.enter name).1,
        { model with classes := (model.classes.enter name).2 }) := by
  unfold enclosingClass
  rw [h]
  split
  · rename_i hnone
    cases hnone
  · rename_i hempty
    exact absurd (Option.some.inj hempty) hname
  · rename_i hsome
    cases hsome
    rfl

/-- The class around a node is entered, if it was not there. -/
theorem altered_enclosingClass (arena : Arena) (i : Nat) (model : Model)
    (ref : Ref) :
    arena.Altered i model.classes
      (arena.enclosingClass model ref).2.classes := by
  unfold enclosingClass
  split
  · exact .refl
  · exact .refl
  · exact .single (.enter _)

/-- The class around a node has the name that the node is in. -/
theorem nameOf_enclosingClass {id : Nat}
    (h : (arena.enclosingClass model ref).1 = some id) :
    arena.className? ref
      = some ((arena.enclosingClass model ref).2.classes.nameOf id) := by
  unfold enclosingClass at h ⊢
  split at h
  · cases h
  · cases h
  · rename_i name hne hname
    cases h
    exact hname.trans (congrArg some (ClassTable.nameOf_enter_self _ _).symm)

/-- Variables are no matter of classes. -/
theorem classes_declareVariable (model : Model) (declaration name : Ref)
    (type : ValueType) :
    (arena.declareVariable model declaration name type).classes
      = model.classes := by
  cases hfunction : arena.enclosingFunction? model declaration with
  | none => simp only [declareVariable, hfunction]
  | some found =>
      simp only [declareVariable, hfunction]
      exact classes_of_enclosingFunction? hfunction

-- ========================================================= assignments

/-- An assignment that defines a class. -/
theorem altered_defineClass {left right : Ref} {operator : TokenKind}
    (hform : arena.form? (some i) = some (.assignment left operator right))
    (model : Model) :
    arena.Altered i model.classes
      (arena.defineClass model (some i) right (arena.nameOf left)).classes
      := by
  unfold defineClass
  split
  · rename_i hclass
    obtain ⟨hname, hbody⟩ := Bool.and_eq_true_iff.1 hclass
    refine .single (.define _ hname ?_)
    simp only [assignsBody, hform, beq_self_eq_true, Bool.true_and, hbody]
  · exact .refl

/-- A prototype changes no class. -/
theorem classes_checkPrototype (model : Model) (assignment right : Ref) :
    (arena.checkPrototype model assignment right).model.classes
      = model.classes := by
  unfold checkPrototype
  dsimp only
  split
  · rfl
  · split
    · rfl
    · rename_i hfunction
      exact classes_of_enclosingFunction? hfunction

/-- A field that the class has not yet. -/
theorem altered_addField {owner : Option Nat} {slot : Slot}
    (h : ¬ (model.field? owner slot.name).isSome = true)
    (hdeclares : ∀ id ∈ owner,
      arena.DeclaresOwn i (model.classes.nameOf id) slot.name) :
    arena.Altered i model.classes
      (model.updateClass owner (.addField slot)).classes := by
  cases owner with
  | none => exact .refl
  | some id =>
      refine .single (.addField id slot (fun info hinfo => ?_)
        (hdeclares id rfl))
      rw [Model.field?, Option.bind_some, Option.mem_def.1 hinfo] at h
      exact Option.not_isSome_iff_eq_none.1 h

/-- A static field is added to a class that is known. -/
theorem altered_addStaticField {owner : Option Nat} {slot : Slot}
    (h : ¬ (model.staticField? owner slot.name).isSome = true)
    (hdeclares : ∀ id ∈ owner,
      arena.DeclaresStatic i (model.classes.nameOf id) slot.name) :
    arena.Altered i model.classes
      (model.updateClass owner (.addStaticField slot)).classes := by
  cases owner with
  | none => exact .refl
  | some id =>
      refine .single (.addStaticField id slot (fun info hinfo => ?_)
        (hdeclares id rfl))
      rw [Model.staticField?, Option.bind_some, Option.mem_def.1 hinfo] at h
      exact Option.not_isSome_iff_eq_none.1 h

/-- An assignment to a member of `this` declares a field at most. -/
theorem altered_checkInstanceField {left right : Ref}
    {operator : TokenKind}
    (hform : arena.form? (some i) = some (.assignment left operator right))
    (hown : arena.isOwnMember left = true)
    (hright : arena.isFunction right = false) (model : Model) :
    arena.Altered i model.classes
      (arena.checkInstanceField model (some i) left).model.classes := by
  unfold checkInstanceField
  split
  · exact .refl
  · rename_i function inner hfunction
    rw [← classes_of_enclosingFunction? hfunction]
    refine (arena.altered_enclosingClass i _ (some i)).trans ?_
    dsimp only
    split
    · rename_i hconstructor
      rw [functions_enclosingClass,
        isConstructor_enclosingFunction? hfunction] at hconstructor
      split
      · exact .refl
      · rename_i hnew
        split
        · exact .refl
        · rename_i doc hdoc
          refine altered_addField hnew fun id hid => ?_
          have hname := nameOf_enclosingClass (Option.mem_def.1 hid)
          refine ⟨⟨hname, left, operator, right, hform, hown, rfl, hright⟩,
            hconstructor, ?_⟩
          rw [hdoc]
          rfl
    · exact .refl

/-- An assignment to a static member declares one if it has documentation and a
plain value. -/
theorem altered_declareStatic {right : Ref} {owner : Option Nat}
    {field : String} (hdeclares : arena.isPlain right = true →
      (arena.docOf (some i)).isSome = true →
      ∀ id ∈ owner, arena.DeclaresStatic i (model.classes.nameOf id) field)
    (hright : arena.isFunction right = false) :
    arena.Altered i model.classes
      (arena.declareStatic model (some i) right owner field).model.classes
      := by
  unfold declareStatic
  split
  · exact .refl
  · exact .refl
  · rename_i hconstruct hcall
    split
    · exact .refl
    · rename_i hnew
      split
      · rename_i doc hdoc
        refine altered_addStaticField (fun hsome => ?_)
          (hdeclares ?_ (by rw [hdoc]; rfl))
        · exact hnew (by rw [hsome, Bool.or_true])
        · unfold isPlain
          split
          · rename_i hform
            rw [isFunction, hform] at hright
            cases hright
          · exact absurd ‹_› (hconstruct _ _)
          · exact absurd ‹_› (hcall _ _)
          · rfl
      · exact .refl

/-- Whether it is a declaration depends on the function around it. -/
theorem altered_checkStaticField {left right : Ref} {operator : TokenKind}
    (hform : arena.form? (some i) = some (.assignment left operator right))
    (hstatic : Naming.isStaticMemberName (arena.nameOf left) = true)
    (hright : arena.isFunction right = false) (model : Model) :
    arena.Altered i model.classes
      (arena.checkStaticField model (some i) right
        (arena.nameOf left)).model.classes := by
  unfold checkStaticField
  refine (arena.altered_enclosingClass i model (some i)).trans ?_
  dsimp only
  split
  · rename_i hnone
    have haround : arena.functionAround? (some i) = none :=
      Option.map_eq_none_iff.1 hnone
    refine altered_declareStatic (fun hplain hdoc id hid => ?_) hright
    have hname := nameOf_enclosingClass (Option.mem_def.1 hid)
    simp only [className?, haround, hform, hstatic, if_true,
      Option.some.injEq] at hname
    exact ⟨arena.nameOf left, hstatic, ⟨haround, left, operator, right, hform,
      rfl, hplain⟩, hdoc, hname.symm, rfl⟩
  · rename_i hfunction
    rw [classes_of_enclosingFunction? hfunction]

/-- What an assignment does once it has defined the class that it names. -/
theorem altered_of_defineClass {left right : Ref} {operator : TokenKind}
    (hform : arena.form? (some i) = some (.assignment left operator right))
    (model : Model) :
    arena.Altered i
      (arena.defineClass model (some i) right (arena.nameOf left)).classes
      (arena.checkAssignment model (some i) left right).model.classes := by
  unfold checkAssignment
  dsimp only
  split
  · exact .refl
  · split
    · rw [classes_checkPrototype]
    · split
      · rename_i hown
        split
        · exact .refl
        · rename_i hright
          rw [Bool.not_eq_true] at hright
          exact altered_checkInstanceField hform hown hright _
      · split
        · rename_i hstatic
          rw [Bool.and_eq_true, Bool.not_eq_true'] at hstatic
          exact altered_checkStaticField hform hstatic.1 hstatic.2 _
        · exact .refl

/-- An assignment, of whatever kind, alters the classes in these ways only. -/
theorem altered_checkAssignment {left right : Ref} {operator : TokenKind}
    (hform : arena.form? (some i) = some (.assignment left operator right))
    (model : Model) :
    arena.Altered i model.classes
      (arena.checkAssignment model (some i) left right).model.classes :=
  (altered_defineClass hform model).trans (altered_of_defineClass hform model)

-- ========================================================== directives

/-- Both classes are entered before they are linked. -/
theorem altered_linkClasses (model : Model) (call : Ref)
    {name superName : String}
    (hextends : arena.extension? i = some (name, superName))
    (hname : Naming.isClassName name = true)
    (hsuper : Naming.isClassName superName = true) :
    arena.Altered i model.classes
      (arena.linkClasses model call name superName).model.classes := by
  have hnamed := model.classes.named_link hname hsuper
  obtain ⟨hself, hother⟩ := model.classes.nameOf_entered name superName
  have henter : arena.Altered i model.classes
      (ClassTable.enter (model.classes.enter name).2 superName).2 :=
    .tail (.single (.enter name)) (.enter superName)
  have hlink := henter.tail
    (.link _ _ hnamed (by rw [hself, hother, hextends]))
  unfold linkClasses
  dsimp only
  split <;> exact hlink

/-- A call that links two classes enters both of them first. -/
theorem altered_checkExtends {callee : Ref} {arguments : List Ref}
    (hform : arena.form? (some i) = some (.call callee arguments))
    (hcallee : arena.nameOf callee = "$extends") (model : Model)
    (call : Ref) :
    arena.Altered i model.classes
      (arena.checkExtends model call arguments).model.classes := by
  unfold checkExtends
  split
  · rename_i subject target
    have hextends : arena.extension? i
        = some (arena.nameOf subject, arena.nameOf target) := by
      simp only [extension?, hform, hcallee, if_true]
    dsimp only
    split
    · exact .refl
    · rename_i hname
      split
      · exact .refl
      · split
        · exact .refl
        · rename_i hsuper
          exact altered_linkClasses model call hextends (by simpa using hname)
            (by simpa using hsuper)
  · exact .refl

/-- The package is not a class. -/
theorem classes_checkPackage (model : Model) (call : Ref)
    (arguments : List Ref) :
    (arena.checkPackage model call arguments).model.classes
      = model.classes := by
  unfold checkPackage
  split
  · split <;> rfl
  · rfl

/-- Other calls leave the classes alone. -/
theorem altered_checkCall {callee : Ref} {arguments : List Ref}
    (hform : arena.form? (some i) = some (.call callee arguments))
    (model : Model) (call : Ref) :
    arena.Altered i model.classes
      (arena.checkCall model call callee arguments).model.classes := by
  unfold checkCall
  split
  · rw [classes_checkPackage]
  · exact .refl
  · rename_i hcallee
    exact altered_checkExtends hform hcallee model call
  · exact .refl
  · exact .refl

-- ============================================================== values

/-- A return enters the class around it at most. -/
theorem altered_checkReturn {statement value : Ref} {outcome : Outcome}
    (h : arena.checkReturn model statement value = .ok outcome) :
    arena.Altered i model.classes outcome.model.classes := by
  refine (arena.altered_enclosingClass i model statement).trans ?_
  unfold checkReturn at h
  dsimp only at h
  split at h
  · cases h
  · rename_i hfunction
    cases h
    rw [classes_of_enclosingFunction? hfunction]

/-- A declaration enters the class around it at most. -/
theorem altered_checkDeclaration (model : Model)
    (declaration name initializer : Ref) :
    arena.Altered i model.classes
      (arena.checkDeclaration model declaration name
        initializer).model.classes := by
  unfold checkDeclaration
  split
  · exact .refl
  · split
    · refine (arena.altered_enclosingClass i model declaration).trans ?_
      dsimp only
      split
      · rw [classes_declareVariable]
      · exact .refl
    · rw [classes_declareVariable]

-- =============================================================== nodes

/-- What is checked at an assignment. -/
theorem checkNode_assignment {left right : Ref} {operator : TokenKind}
    (hform : arena.form? (some i) = some (.assignment left operator right))
    (model : Model) :
    arena.checkNode model i
      = .ok (arena.checkAssignment model (some i) left right) := by
  unfold checkNode
  dsimp only
  rw [hform]

/-- What is checked at a call. -/
theorem checkNode_call {callee : Ref} {arguments : List Ref}
    (hform : arena.form? (some i) = some (.call callee arguments))
    (model : Model) :
    arena.checkNode model i
      = .ok (arena.checkCall model (some i) callee arguments) := by
  unfold checkNode
  dsimp only
  rw [hform]

/-- The check of any node. -/
theorem altered_checkNode {outcome : Outcome}
    (h : arena.checkNode model i = .ok outcome) :
    arena.Altered i model.classes outcome.model.classes := by
  unfold checkNode at h
  dsimp only at h
  split at h
  case h_5 => exact altered_checkReturn h
  all_goals cases h
  case h_1 hform => exact altered_checkAssignment hform model
  case h_2 hform => exact altered_checkCall hform model _
  case h_7 => exact altered_checkDeclaration _ _ _ _
  all_goals exact .refl

/-- A node changes the classes step by step. -/
theorem becomes_checkNode {outcome : Outcome}
    (h : arena.checkNode model i = .ok outcome) :
    model.classes.Becomes outcome.model.classes :=
  Relation.ReflTransGen.mono (fun _ _ hstep => hstep.step) _ _
    (altered_checkNode h)

end Arena

-- ============================================================ sessions

/-- The classes are sound at every point of a check. -/
theorem Session.Reaches.sound {session : Session} {file text : String}
    {model : Model} (h : session.Reaches file text model) :
    model.classes.Sound :=
  h.induct (P := fun model => model.classes.Sound)
    (fun _ => ClassTable.sound_empty)
    fun _ _ _ _ hmodel hrun => hmodel.becomes (Arena.becomes_checkNode hrun)

end ScriptLint
