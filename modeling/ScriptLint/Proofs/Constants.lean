/-
Constants. A field whose name has no small letters is written once, by its
declaration, and whatever writes it again is reported.

For the fields of `this` that holds (`Session.ownConstants_of_check`): a
write is silent exactly if it is the first one that declares the field, in
a constructor and with documentation. Each exit of the rule reports
something or declares the field, and a declared field stays declared.

For the static fields of a class it holds in functions, but not at the top
level. There the rule stops at a field that is declared already, before it
has looked at the name, so the declaration may be followed by any number
of silent writes (`Session.staticConstants_of_check`).

# The argument

- Of each rule it is said what it reports and when it reports nothing
  (`events_checkInstanceField`, `events_checkStaticField`), and when a
  field is there behind it (`isSome_checkInstanceField`,
  `isSome_checkStaticField`).
- `checkNode_own` and `checkNode_static` put this together for the node:
  being silent is declaring the field, or updating one in a way that is not
  reported.
- Whether the field was there before is then a question about the nodes
  before it, which the walk answers (`Heard.fieldOf?_visit_iff`,
  `Heard.staticFieldOf?_visit_iff`).
-/
import ScriptLint.Proofs.MemberChains
import ScriptLint.Proofs.Silence

namespace ScriptLint

namespace Arena

variable {arena : Arena} {model : Model} {i : Nat} {left right : Ref}
  {operator : TokenKind} {owner name : String}

-- =============================================================== names

/-- A member of `this` has no dotted name, or that of `this` and the
member. -/
theorem nameOf_ownMember (h : arena.isOwnMember left = true) :
    arena.nameOf left = ""
      ∨ ∃ ref, arena.identifier? ref = some (arena.memberName left)
        ∧ arena.nameOf left = "this" ++ "." ++ arena.memberName left := by
  unfold isOwnMember at h
  split at h
  · rename_i object member hform
    have hthis : arena.form? object = some .thisRef := by
      unfold isThis at h
      split at h
      · assumption
      · cases h
    cases hmember : arena.identifier? member with
    | none =>
        have hlimit : walkLimit = 9999 + 1 := rfl
        left
        rw [nameOf, hlimit, nameWith, hform]
        dsimp only
        rw [hmember]
    | some segment =>
        have hroot : arena.rootWord? object = some "this" := by
          rw [rootWord?, hthis]
        have hname : arena.memberName left = segment := by
          rw [memberName, hform]
          exact nameOf_of_identifier? hmember
        have hchain := MemberChain.member hform hmember .root
        right
        refine ⟨member, by rw [hmember, hname], ?_⟩
        rw [hname, hchain.nameOf_eq hroot,
          rtake_of_length_le (by simp [walkLimit])]
        rfl
  · cases h

/-- A constant of `this` is no prototype. -/
theorem not_isPrototypeName_ownMember (h : arena.isOwnMember left = true)
    (hconstant : Naming.isConstantName (arena.memberName left) = true) :
    Naming.isPrototypeName (arena.nameOf left) = false := by
  rcases nameOf_ownMember h with hname | ⟨-, -, hname⟩
  · rw [hname]
    decide
  · rw [hname]
    exact Naming.not_isPrototypeName (Naming.endsInConstant_join _
      (Naming.endsInConstant_of_isConstantName hconstant))

/-- In a program, a static member of a class is no member of `this`. -/
theorem not_isOwnMember_of_parse {lines : Text.LineMap} {text : String}
    {tree : Tree} (h : Tree.parse text = .ok tree)
    (hstatic : Naming.isStaticMemberName
      ((ofTree lines tree).2.nameOf left) = true) :
    (ofTree lines tree).2.isOwnMember left = false := by
  rw [← Bool.not_eq_true]
  intro hown
  rcases nameOf_ownMember hown with hname | ⟨ref, hmember, hname⟩
  · rw [hname] at hstatic
    exact absurd hstatic (by decide)
  · rw [hname, Naming.not_isStaticMemberName_this
      (dot_notMem_identifier? h hmember)] at hstatic
    cases hstatic

-- =============================================================== slots

/-- Defining a class does not touch the fields. -/
theorem slotOf?_defineClass {read : ClassInfo → Option Slot}
    (hread : ClassInfo.ReadsFields read) (model : Model)
    (assignment right : Ref) :
    (arena.defineClass model assignment right name).classes.slotOf? owner read
      = model.classes.slotOf? owner read := by
  unfold defineClass
  split
  · exact ClassTable.slotOf?_define hread _ _ _
  · rfl

/-- A slot that comes up in the classes belongs to a field that the node
declares. -/
theorem Alters.slotOf?_cases {read : ClassInfo → Option Slot}
    (hread : ClassInfo.ReadsFields read) {classes later : ClassTable}
    (hstep : arena.Alters i classes later)
    (h : (later.slotOf? owner read).isSome = true) :
    (classes.slotOf? owner read).isSome = true
      ∨ ∃ info slot, read info = none
        ∧ ((read (info.addField slot)).isSome = true
            ∧ arena.DeclaresOwn i owner slot.name
          ∨ (read (info.addStaticField slot)).isSome = true
            ∧ arena.DeclaresStatic i owner slot.name) := by
  cases hstep with
  | enter name =>
      rw [ClassTable.slotOf?_enter hread] at h
      exact .inl h
  | define name hname _ =>
      rw [ClassTable.slotOf?_define hread] at h
      exact .inl h
  | link id superId hnamed _ =>
      rw [ClassTable.slotOf?_link hread] at h
      exact .inl h
  | addField id slot hnew hdeclares =>
      rcases ClassTable.slotOf?_update_cases h with
        hold | ⟨rfl, info, hnone, hsome⟩
      · exact .inl hold
      · exact .inr ⟨info, slot, hnone, .inl ⟨hsome, hdeclares⟩⟩
  | addStaticField id slot hnew hdeclares =>
      rcases ClassTable.slotOf?_update_cases h with
        hold | ⟨rfl, info, hnone, hsome⟩
      · exact .inl hold
      · exact .inr ⟨info, slot, hnone, .inr ⟨hsome, hdeclares⟩⟩

-- ===================================================== instance fields

/-- A write of a constant of `this` is checked as such. -/
theorem checkNode_ownMember
    (hform : arena.form? (some i) = some (.assignment left operator right))
    (hown : arena.isOwnMember left = true)
    (hright : arena.isFunction right = false)
    (hconstant : Naming.isConstantName (arena.memberName left) = true) :
    arena.checkNode model i = .ok (arena.checkInstanceField
      (arena.defineClass model (some i) right (arena.nameOf left))
      (some i) left) := by
  have hprototype := not_isPrototypeName_ownMember hown hconstant
  rw [checkNode_assignment hform]
  unfold checkAssignment
  simp [hright, hprototype, hown]

/-- A constant is not updated without a report. -/
theorem fieldUpdate_ne_nil {field : String}
    (h : Naming.isConstantName field = true) (model : Model)
    (assignment : Ref) (function : Nat) (id : Option Nat) :
    arena.fieldUpdate model assignment function id field ≠ [] := by
  unfold fieldUpdate
  rw [if_pos h]
  split
  · exact List.cons_ne_nil _ _
  · split
    · exact List.cons_ne_nil _ _
    · split <;> exact List.cons_ne_nil _ _

/-- The class around a node that is looked up last, with its fields. -/
theorem field?_enclosingClass {inner : Model} {function : Nat}
    (hfunction : arena.enclosingFunction? model (some i)
      = some (function, inner)) (owner field : String) :
    Model.field? { inner with classes := (inner.classes.enter owner).2 }
        (some (inner.classes.enter owner).1) field
      = model.classes.fieldOf? owner field := by
  rw [Model.field?, Option.bind_some, classes_of_enclosingFunction? hfunction]
  exact ClassTable.bind_get?_enter (ClassInfo.readsFields_field? field) _ _

/-- A write of a constant of `this` is silent only where it declares the
constant. -/
theorem events_checkInstanceField
    (hclass : arena.className? (some i) = some owner) (howner : owner ≠ "")
    (hconstant : Naming.isConstantName (arena.memberName left) = true) :
    (arena.checkInstanceField model (some i) left).events = []
      ↔ (arena.InConstructor i ∧ (arena.docOf (some i)).isSome = true)
        ∧ (model.classes.fieldOf? owner (arena.memberName left)).isSome
          = false := by
  unfold checkInstanceField
  split
  · rename_i hnone
    -- at the top level there is no constructor, and the write is reported
    simp only [List.cons_ne_nil, false_iff]
    rintro ⟨⟨⟨f, hf, -⟩, -⟩, -⟩
    rw [enclosingFunction?, hf] at hnone
    cases hnone
  · rename_i function inner hfunction
    have hupdate := @fieldUpdate_ne_nil arena _ hconstant
    rw [enclosingClass_of_className? hclass howner,
      ← isConstructor_enclosingFunction? hfunction]
    dsimp only
    rw [field?_enclosingClass hfunction]
    cases inner.functions.isConstructor function with
    | false => simp [hupdate]
    | true =>
        cases model.classes.fieldOf? owner (arena.memberName left) with
        | some slot => simp [hupdate]
        | none => cases arena.docOf (some i) <;> simp

/-- A documented write in a constructor leaves the field declared. -/
theorem isSome_checkInstanceField
    (hclass : arena.className? (some i) = some owner) (howner : owner ≠ "")
    (hconstructor : arena.InConstructor i)
    (hdoc : (arena.docOf (some i)).isSome = true) :
    ((arena.checkInstanceField model (some i) left).model.classes.fieldOf?
      owner (arena.memberName left)).isSome = true := by
  unfold checkInstanceField
  split
  · rename_i hnone
    obtain ⟨f, hf, -⟩ := hconstructor
    rw [enclosingFunction?, hf] at hnone
    cases hnone
  · rename_i function inner hfunction
    rw [enclosingClass_of_className? hclass howner]
    dsimp only
    rw [if_pos ((isConstructor_enclosingFunction? hfunction).2 hconstructor),
      field?_enclosingClass hfunction]
    obtain ⟨doc, hdoc⟩ := Option.isSome_iff_exists.1 hdoc
    split
    · rename_i hsome
      dsimp only
      rw [classes_of_enclosingFunction? hfunction, ClassTable.fieldOf?,
        ClassTable.slotOf?_enter (ClassInfo.readsFields_field? _)]
      exact hsome
    · rw [hdoc]
      dsimp only [Model.updateClass]
      rw [ClassTable.fieldOf?, ClassTable.slotOf?_update_enter,
        ClassInfo.field?_addField, if_pos rfl, Option.isSome_or,
        Option.isSome_some, Bool.or_true]

/-- A field that comes up is declared by the node. -/
theorem Alters.fieldOf?_cases {classes later : ClassTable} {field : String}
    (hstep : arena.Alters i classes later)
    (h : (later.fieldOf? owner field).isSome = true) :
    (classes.fieldOf? owner field).isSome = true
      ∨ arena.DeclaresOwn i owner field := by
  rcases hstep.slotOf?_cases (ClassInfo.readsFields_field? field) h with
    hold | ⟨info, slot, hnone, ⟨hsome, hdeclares⟩ | ⟨hsome, -⟩⟩
  · exact .inl hold
  · rw [ClassInfo.field?_addField, hnone, Option.none_or] at hsome
    split at hsome
    · rename_i hslot
      exact .inr (hslot ▸ hdeclares)
    · cases hsome
  · rw [ClassInfo.field?_addStaticField, hnone] at hsome
    cases hsome

/-- What the check of a write of a constant does: it has nothing to say
only where it declares the constant, and where it might declare it the
constant is declared from then on. -/
theorem checkNode_own {field : String} (howner : owner ≠ "")
    (hconstant : Naming.isConstantName field = true)
    (hwrites : arena.WritesOwn i owner field) {outcome : Outcome}
    (hrun : arena.checkNode model i = .ok outcome) :
    (outcome.events = []
        ↔ arena.DeclaresOwn i owner field
          ∧ (model.classes.fieldOf? owner field).isSome = false)
      ∧ (arena.DeclaresOwn i owner field →
        (outcome.model.classes.fieldOf? owner field).isSome = true) := by
  have hdeclares : arena.DeclaresOwn i owner field
      ↔ arena.InConstructor i ∧ (arena.docOf (some i)).isSome = true :=
    and_iff_right hwrites
  obtain ⟨hclass, left, operator, right, hform, hown, rfl, hright⟩ := hwrites
  rw [checkNode_ownMember hform hown hright hconstant] at hrun
  cases hrun
  rw [hdeclares]
  -- what is written may define a class first, which leaves the fields alone
  constructor
  · rw [events_checkInstanceField hclass howner hconstant,
      ClassTable.fieldOf?,
      slotOf?_defineClass (ClassInfo.readsFields_field? _)]
    rfl
  · rintro ⟨hconstructor, hdoc⟩
    exact isSome_checkInstanceField hclass howner hconstructor hdoc

-- ======================================================= static fields

/-- The node writes what has the name, and what it writes is no
function. -/
def Writes (arena : Arena) (i : Nat) (name : String) : Prop :=
  ∃ left operator right,
    arena.form? (some i) = some (.assignment left operator right)
      ∧ arena.nameOf left = name ∧ arena.isFunction right = false

/-- A plain value is no function. -/
theorem SetsPlainly.writes (h : arena.SetsPlainly i name) :
    arena.Writes i name := by
  obtain ⟨-, left, operator, right, hform, hname, hplain⟩ := h
  refine ⟨left, operator, right, hform, hname, ?_⟩
  unfold isPlain at hplain
  unfold isFunction
  split at hplain <;> simp_all

/-- A write of a static constant is checked as such. -/
theorem checkNode_staticMember
    (hform : arena.form? (some i) = some (.assignment left operator right))
    (hown : arena.isOwnMember left = false)
    (hright : arena.isFunction right = false)
    (hstatic : Naming.isStaticMemberName (arena.nameOf left) = true)
    (hconstant : Naming.isConstantName (arena.nameOf left) = true) :
    arena.checkNode model i = .ok (arena.checkStaticField
      (arena.defineClass model (some i) right (arena.nameOf left))
      (some i) right (arena.nameOf left)) := by
  have hprototype := Naming.not_isPrototypeName
    (Naming.endsInConstant_of_isConstantName hconstant)
  rw [checkNode_assignment hform]
  unfold checkAssignment
  simp [hright, hprototype, hown, hstatic]

/-- A constant is not updated without a report. -/
theorem updateStatic_ne_nil (h : Naming.isConstantName name = true)
    (model : Model) (assignment : Ref) (function : Nat)
    (id : Option Nat) :
    arena.updateStatic model assignment function id name ≠ [] := by
  unfold updateStatic
  rw [if_pos h]
  exact List.append_ne_nil_of_right_ne_nil _ (List.cons_ne_nil _ _)

/-- A value that a static field is declared with. -/
theorem declareStatic_of_isPlain (hplain : arena.isPlain right = true)
    (assignment : Ref) (id : Nat) (field : String) :
    arena.declareStatic model assignment right (some id) field
      = if (model.staticField? (some id) field).isSome then { model }
        else
          match arena.docOf assignment with
          | some doc =>
            { model := model.updateClass (some id) (.addStaticField
                ⟨field, .ofName? (DocTags.parse doc).type?⟩) }
          | none =>
            { model
              events := [arena.report .noApidoc assignment
                "Missing type annotation for field declaration."] } := by
  unfold declareStatic
  unfold isPlain at hplain
  split
  · rename_i hform
    rw [hform] at hplain
    cases hplain
  · rename_i hform
    rw [hform] at hplain
    cases hplain
  · rfl

/-- Any other value but a function is reported. -/
theorem declareStatic_ne_nil (hplain : arena.isPlain right = false)
    (hright : arena.isFunction right = false) (assignment : Ref)
    (id : Option Nat) (field : String) :
    (arena.declareStatic model assignment right id field).events ≠ [] := by
  unfold declareStatic
  split
  · exact List.cons_ne_nil _ _
  · exact List.cons_ne_nil _ _
  · rename_i hconstruct hcall
    unfold isPlain at hplain
    split at hplain
    · rename_i hform
      rw [isFunction, hform] at hright
      cases hright
    · exact absurd ‹_› (hconstruct _ _)
    · exact absurd ‹_› (hcall _ _)
    · cases hplain

/-- Outside of functions, a static field is declared in its class. -/
theorem checkStaticField_outside
    (haround : arena.functionAround? (some i) = none)
    (hform : arena.form? (some i) = some (.assignment left operator right))
    (hstatic : Naming.isStaticMemberName (arena.nameOf left) = true) :
    arena.checkStaticField model (some i) right (arena.nameOf left)
      = let owner := Naming.staticMemberClass (arena.nameOf left)
        let (id, classes) := model.classes.enter owner
        arena.declareStatic { model with classes } (some i) right (some id)
          (Naming.staticMember (arena.nameOf left)) := by
  have hclass : arena.className? (some i)
      = some (Naming.staticMemberClass (arena.nameOf left)) := by
    simp only [className?, haround, hform, hstatic, if_true]
  unfold checkStaticField
  rw [enclosingClass_of_className? hclass
    (Naming.staticMemberClass_ne hstatic)]
  dsimp only
  rw [enclosingFunction?, haround]
  rfl

/-- The class that is entered last, with its static fields. -/
theorem staticField?_enter (model : Model) (owner field : String) :
    Model.staticField? { model with classes := (model.classes.enter owner).2 }
        (some (model.classes.enter owner).1) field
      = model.classes.staticFieldOf? owner field := by
  rw [Model.staticField?, Option.bind_some]
  exact ClassTable.bind_get?_enter (ClassInfo.readsFields_staticField? field)
    _ _

/-- A write of a static constant is silent only where it might declare the
constant, and is documented or comes too late. -/
theorem events_checkStaticField
    (hform : arena.form? (some i) = some (.assignment left operator right))
    (hright : arena.isFunction right = false)
    (hstatic : Naming.isStaticMemberName (arena.nameOf left) = true)
    (hconstant : Naming.isConstantName (arena.nameOf left) = true) :
    (arena.checkStaticField model (some i) right (arena.nameOf left)).events
        = []
      ↔ (arena.functionAround? (some i) = none
          ∧ arena.isPlain right = true)
        ∧ ((arena.docOf (some i)).isSome = true
          ∨ (model.classes.staticFieldOf?
            (Naming.staticMemberClass (arena.nameOf left))
            (Naming.staticMember (arena.nameOf left))).isSome = true) := by
  cases haround : arena.functionAround? (some i) with
  | some f =>
      have hupdate := @updateStatic_ne_nil arena _ hconstant
      unfold checkStaticField enclosingFunction?
      dsimp only
      rw [haround]
      simp [hupdate]
  | none =>
      rw [checkStaticField_outside haround hform hstatic]
      dsimp only
      cases hplain : arena.isPlain right with
      | false => simp [declareStatic_ne_nil hplain hright]
      | true =>
          rw [declareStatic_of_isPlain hplain, staticField?_enter]
          cases model.classes.staticFieldOf? _ _ with
          | some slot => simp
          | none => cases arena.docOf (some i) <;> simp

/-- A documented plain write outside of functions leaves the field
declared. -/
theorem isSome_checkStaticField
    (haround : arena.functionAround? (some i) = none)
    (hform : arena.form? (some i) = some (.assignment left operator right))
    (hplain : arena.isPlain right = true)
    (hdoc : (arena.docOf (some i)).isSome = true)
    (hstatic : Naming.isStaticMemberName (arena.nameOf left) = true) :
    ((arena.checkStaticField model (some i) right
        (arena.nameOf left)).model.classes.staticFieldOf?
      (Naming.staticMemberClass (arena.nameOf left))
      (Naming.staticMember (arena.nameOf left))).isSome = true := by
  rw [checkStaticField_outside haround hform hstatic]
  dsimp only
  rw [declareStatic_of_isPlain hplain, staticField?_enter]
  obtain ⟨doc, hdoc⟩ := Option.isSome_iff_exists.1 hdoc
  split
  · rename_i hsome
    dsimp only
    rw [ClassTable.staticFieldOf?,
      ClassTable.slotOf?_enter (ClassInfo.readsFields_staticField? _)]
    exact hsome
  · rw [hdoc]
    dsimp only [Model.updateClass]
    rw [ClassTable.staticFieldOf?, ClassTable.slotOf?_update_enter,
      ClassInfo.staticField?_addStaticField, if_pos rfl, Option.isSome_or,
      Option.isSome_some, Bool.or_true]

/-- A static field that comes up is declared by the node. -/
theorem Alters.staticFieldOf?_cases {classes later : ClassTable}
    {field : String} (hstep : arena.Alters i classes later)
    (h : (later.staticFieldOf? owner field).isSome = true) :
    (classes.staticFieldOf? owner field).isSome = true
      ∨ arena.DeclaresStatic i owner field := by
  rcases hstep.slotOf?_cases (ClassInfo.readsFields_staticField? field) h with
    hold | ⟨info, slot, hnone, ⟨hsome, -⟩ | ⟨hsome, hdeclares⟩⟩
  · exact .inl hold
  · rw [ClassInfo.staticField?_addField, hnone] at hsome
    cases hsome
  · rw [ClassInfo.staticField?_addStaticField, hnone,
      Option.none_or] at hsome
    split at hsome
    · rename_i hslot
      exact .inr (hslot ▸ hdeclares)
    · cases hsome

/-- What the check of a write of a static constant does: it has nothing to
say only outside of functions, with a plain value, and if it is documented
or the constant is declared already; and if it is documented the constant
is declared from then on. -/
theorem checkNode_static (hstatic : Naming.isStaticMemberName name = true)
    (hconstant : Naming.isConstantName name = true)
    (hown : ∀ left, arena.nameOf left = name →
      arena.isOwnMember left = false)
    (hwrites : arena.Writes i name) {outcome : Outcome}
    (hrun : arena.checkNode model i = .ok outcome) :
    (outcome.events = []
        ↔ arena.SetsPlainly i name
          ∧ ((arena.docOf (some i)).isSome = true
            ∨ (model.classes.staticFieldOf? (Naming.staticMemberClass name)
              (Naming.staticMember name)).isSome = true))
      ∧ (arena.SetsPlainly i name → (arena.docOf (some i)).isSome = true →
        (outcome.model.classes.staticFieldOf? (Naming.staticMemberClass name)
          (Naming.staticMember name)).isSome = true) := by
  obtain ⟨left, operator, right, hform, rfl, hright⟩ := hwrites
  -- the assignment is known, so it remains to ask for its value and for the
  -- function around it
  have hsets : arena.SetsPlainly i (arena.nameOf left)
      ↔ arena.functionAround? (some i) = none
        ∧ arena.isPlain right = true := by
    constructor
    · rintro ⟨haround, _, _, _, hsame, -, hplain⟩
      cases hform.symm.trans hsame
      exact ⟨haround, hplain⟩
    · rintro ⟨haround, hplain⟩
      exact ⟨haround, left, operator, right, hform, rfl, hplain⟩
  rw [checkNode_staticMember hform (hown _ rfl) hright hstatic hconstant]
    at hrun
  cases hrun
  rw [hsets]
  constructor
  · rw [events_checkStaticField hform hright hstatic hconstant,
      ClassTable.staticFieldOf?,
      slotOf?_defineClass (ClassInfo.readsFields_staticField? _)]
    rfl
  · rintro ⟨haround, hplain⟩ hdoc
    exact isSome_checkStaticField haround hform hplain hdoc hstatic

end Arena

-- ============================================================ sessions

namespace Session

variable {arena : Arena} {root : Ref} {session : Session} {i j : Nat}
  {owner field name : String}

/-- Behind some nodes, a constant of `this` is declared exactly if one of
them declares it. -/
theorem Heard.fieldOf?_visit_iff (h : Heard arena root)
    (hsession : session.model.classes = {}) (howner : owner ≠ "")
    (hconstant : Naming.isConstantName field = true) (nodes : List Nat) :
    ((visit arena nodes session).1.model.classes.fieldOf? owner field).isSome
        = true
      ↔ ∃ i ∈ nodes, arena.DeclaresOwn i owner field := by
  refine h.visit_iff_exists
    (P := fun classes => (classes.fieldOf? owner field).isSome = true)
    ?_ (fun hstep => hstep.fieldOf?_cases)
    (fun hgrows => hgrows.fieldOf?_isSome) ?_ nodes
  · rw [hsession]
    exact Bool.false_ne_true
  · intro model i outcome hdeclares hrun
    exact (Arena.checkNode_own howner hconstant hdeclares.1 hrun).2 hdeclares

/-- A write of a constant of `this` is silent exactly if it is the first
one to declare the constant. -/
theorem Heard.silentAt_own_iff (h : Heard arena root)
    (hclasses : session.model.classes = {})
    (hsink : session.sink.suppressed = []) (howner : owner ≠ "")
    (hconstant : Naming.isConstantName field = true)
    (hwrites : arena.WritesOwn j owner field)
    (hmem : j ∈ arena.preorder root) :
    SilentAt arena root session j
      ↔ arena.DeclaresOwn j owner field
        ∧ ¬ ∃ i, arena.Precedes root i j
          ∧ arena.DeclaresOwn i owner field := by
  obtain ⟨before, hleads⟩ := Arena.exists_before hmem
  obtain ⟨outcome, hrun⟩ := h.outcome (visit arena before session).1.model j
  rw [h.silentAt_iff hsink hleads hrun,
    (Arena.checkNode_own howner hconstant hwrites hrun).1,
    ← Bool.not_eq_true, h.fieldOf?_visit_iff hclasses howner hconstant]
  simp only [Arena.precedes_iff h.nodup hleads]

/-- Behind some nodes, a static constant is declared exactly if one of them
is a documented plain write outside of functions. -/
theorem Heard.staticFieldOf?_visit_iff (h : Heard arena root)
    (hsession : session.model.classes = {})
    (hstatic : Naming.isStaticMemberName name = true)
    (hconstant : Naming.isConstantName name = true)
    (hown : ∀ left, arena.nameOf left = name →
      arena.isOwnMember left = false) (nodes : List Nat) :
    ((visit arena nodes session).1.model.classes.staticFieldOf?
        (Naming.staticMemberClass name) (Naming.staticMember name)).isSome
        = true
      ↔ ∃ i ∈ nodes, arena.SetsPlainly i name
        ∧ (arena.docOf (some i)).isSome = true := by
  refine h.visit_iff_exists
    (P := fun classes => (classes.staticFieldOf?
      (Naming.staticMemberClass name) (Naming.staticMember name)).isSome
      = true) ?_ ?_ (fun hgrows => hgrows.staticFieldOf?_isSome) ?_ nodes
  · rw [hsession]
    exact Bool.false_ne_true
  · intro i classes later hstep hlater
    rcases hstep.staticFieldOf?_cases hlater with
      hold | ⟨other, hother, hsets, hdoc, hclass, hmember⟩
    · exact .inl hold
    · obtain rfl := Naming.eq_of_isStaticMemberName hstatic hother hclass
        hmember
      exact .inr ⟨hsets, hdoc⟩
  · rintro model i outcome ⟨hsets, hdoc⟩ hrun
    exact (Arena.checkNode_static hstatic hconstant hown hsets.writes
      hrun).2 hsets hdoc

/-- A write of a static constant is silent exactly if it is a plain one
outside of functions, and is documented or follows one that is. -/
theorem Heard.silentAt_static_iff (h : Heard arena root)
    (hclasses : session.model.classes = {})
    (hsink : session.sink.suppressed = [])
    (hstatic : Naming.isStaticMemberName name = true)
    (hconstant : Naming.isConstantName name = true)
    (hown : ∀ left, arena.nameOf left = name →
      arena.isOwnMember left = false) (hwrites : arena.Writes j name)
    (hmem : j ∈ arena.preorder root) :
    SilentAt arena root session j
      ↔ arena.SetsPlainly j name
        ∧ ((arena.docOf (some j)).isSome = true
          ∨ ∃ i, arena.Precedes root i j ∧ arena.SetsPlainly i name
            ∧ (arena.docOf (some i)).isSome = true) := by
  obtain ⟨before, hleads⟩ := Arena.exists_before hmem
  obtain ⟨outcome, hrun⟩ := h.outcome (visit arena before session).1.model j
  rw [h.silentAt_iff hsink hleads hrun,
    (Arena.checkNode_static hstatic hconstant hown hwrites hrun).1,
    h.staticFieldOf?_visit_iff hclasses hstatic hconstant hown]
  simp only [Arena.precedes_iff h.nodup hleads]

/-- In a program that does not call `$suppress`, a constant of `this` is
written silently at most once for each class, and by its declaration. A
write is silent exactly if it declares the constant, in a constructor and
with documentation, and no write before it does. -/
theorem ownConstants_of_check {text : String} {tree : Tree}
    (h : Tree.parse text = .ok tree) (session : Session) (file : String) :
    let root := some (Arena.ofTree (.ofText text) tree).1
    let arena := (Arena.ofTree (.ofText text) tree).2
    let silent := SilentAt arena root (session.reset file)
    (∀ i, ¬ arena.CallsSuppress i) → ∀ owner field, owner ≠ "" →
      Naming.isConstantName field = true →
      (∀ i, arena.WritesOwn i owner field → silent i →
        arena.DeclaresOwn i owner field
          ∧ ∀ j, arena.WritesOwn j owner field → silent j → j = i)
      ∧ ∀ j, arena.WritesOwn j owner field →
        (silent j ↔ arena.DeclaresOwn j owner field
          ∧ ¬ ∃ i, arena.Precedes root i j
            ∧ arena.DeclaresOwn i owner field) := by
  intro root arena silent hsuppress owner field howner hconstant
  have hheard : Heard arena root := heard_of_parse h hsuppress
  have hmem : ∀ {j}, arena.WritesOwn j owner field →
      j ∈ arena.preorder root := by
    rintro j ⟨-, left, operator, right, hform, -⟩
    exact Arena.mem_preorder_ofTree hform
  have hsilent : ∀ {j}, arena.WritesOwn j owner field →
      (silent j ↔ arena.DeclaresOwn j owner field
        ∧ ¬ ∃ i, arena.Precedes root i j
          ∧ arena.DeclaresOwn i owner field) := fun hwrites =>
    hheard.silentAt_own_iff rfl rfl howner hconstant hwrites (hmem hwrites)
  refine ⟨fun i hi hquiet => ?_, fun j hj => hsilent hj⟩
  obtain ⟨hdeclares, hfirst⟩ := (hsilent hi).1 hquiet
  refine ⟨hdeclares, fun j hj hquiet' => ?_⟩
  obtain ⟨hdeclares', hfirst'⟩ := (hsilent hj).1 hquiet'
  -- of two silent writes, the later one would not be the first to declare
  by_contra hne
  rcases Arena.precedes_or_precedes (hmem hi) (hmem hj) (Ne.symm hne) with
    hbefore | hafter
  · exact hfirst' ⟨i, hbefore, hdeclares⟩
  · exact hfirst ⟨j, hafter, hdeclares'⟩

/-- A constant that its constructor declares and then writes once more. -/
def declaredTwice : String :=
  "a.B=function()\x7b/** @type N */this.C=1;this.C=2;\x7d;"

/-- The declaration is silent, and so the other write is not. -/
theorem ownConstants_of_check_declaredTwice :
    Tree.Parses declaredTwice fun tree =>
      let root := some (Arena.ofTree (.ofText declaredTwice) tree).1
      let arena := (Arena.ofTree (.ofText declaredTwice) tree).2
      let silent := SilentAt arena root ((start {}).reset "f.js")
      (∀ i, ¬ arena.CallsSuppress i)
        ∧ Naming.isConstantName "C" = true
        ∧ arena.WritesOwn 7 "a.B" "C" ∧ arena.WritesOwn 13 "a.B" "C"
        ∧ silent 7 ∧ arena.DeclaresOwn 7 "a.B" "C" ∧ ¬ silent 13 := by
  have hparses : Tree.Parses declaredTwice fun tree =>
      let root := some (Arena.ofTree (.ofText declaredTwice) tree).1
      let arena := (Arena.ofTree (.ofText declaredTwice) tree).2
      let found nodes :=
        (visit arena nodes ((start {}).reset "f.js")).1.sink.diagnostics
      (∀ i < arena.size, arena.calleeName? i ≠ some "$suppress")
        ∧ arena.className? (some 7) = some "a.B"
        ∧ arena.form? (some 7)
          = some (.assignment (some 5) (.punctuator .equals) (some 6))
        ∧ arena.isOwnMember (some 5) = true
        ∧ arena.memberName (some 5) = "C"
        ∧ arena.isFunction (some 6) = false
        ∧ arena.className? (some 13) = some "a.B"
        ∧ arena.form? (some 13)
          = some (.assignment (some 11) (.punctuator .equals) (some 12))
        ∧ arena.isOwnMember (some 11) = true
        ∧ arena.memberName (some 11) = "C"
        ∧ arena.isFunction (some 12) = false
        ∧ [19, 18, 17, 2, 0, 1, 16, 15, 8, 7] <+: arena.preorder root
        ∧ found [19, 18, 17, 2, 0, 1, 16, 15, 8, 7]
          = found [19, 18, 17, 2, 0, 1, 16, 15, 8] := by decide +kernel
  obtain ⟨tree, hparse, hcalls, hclass, hform, hown, hname, hright,
    hclass', hform', hown', hname', hright', hleads, hfound⟩ := hparses
  refine ⟨tree, hparse, ?_⟩
  beta_reduce
  intro root arena silent
  have hsuppress := Arena.callsNone_of_lt hcalls
  have hconstant : Naming.isConstantName "C" = true := by decide
  obtain ⟨honce, -⟩ := ownConstants_of_check hparse (start {}) "f.js"
    hsuppress "a.B" "C" (by decide) hconstant
  have hwrites : arena.WritesOwn 7 "a.B" "C" :=
    ⟨hclass, _, _, _, hform, hown, hname, hright⟩
  have hwrites' : arena.WritesOwn 13 "a.B" "C" :=
    ⟨hclass', _, _, _, hform', hown', hname', hright'⟩
  have hsilent : silent 7 :=
    ⟨[19, 18, 17, 2, 0, 1, 16, 15, 8], hleads, hfound⟩
  obtain ⟨hdeclares, hlast⟩ := honce 7 hwrites hsilent
  refine ⟨hsuppress, hconstant, hwrites, hwrites', hsilent, hdeclares,
    fun hsilent' => ?_⟩
  exact absurd (hlast 13 hwrites' hsilent') (by decide)

/-- In a program that does not call `$suppress`, a write of a static
constant is silent exactly if it gives the constant a plain value outside
of functions, and is documented or follows such a write that is. So the
constant is written silently at most once, and by its declaration, exactly
if no plain write outside of functions follows a documented one. -/
theorem staticConstants_of_check {text : String} {tree : Tree}
    (h : Tree.parse text = .ok tree) (session : Session) (file : String) :
    let root := some (Arena.ofTree (.ofText text) tree).1
    let arena := (Arena.ofTree (.ofText text) tree).2
    let silent := SilentAt arena root (session.reset file)
    let documented i := (arena.docOf (some i)).isSome = true
    (∀ i, ¬ arena.CallsSuppress i) → ∀ name,
      Naming.isStaticMemberName name = true →
      Naming.isConstantName name = true →
      (∀ j, arena.Writes j name →
        (silent j ↔ arena.SetsPlainly j name
          ∧ (documented j ∨ ∃ i, arena.Precedes root i j
            ∧ arena.SetsPlainly i name ∧ documented i)))
      ∧ ((∀ i, arena.Writes i name → silent i →
          documented i ∧ ∀ j, arena.Writes j name → silent j → j = i)
        ↔ ¬ ∃ i j, arena.Precedes root i j ∧ arena.SetsPlainly i name
          ∧ documented i ∧ arena.SetsPlainly j name) := by
  intro root arena silent documented hsuppress name hstatic hconstant
  have hheard : Heard arena root := heard_of_parse h hsuppress
  have hown : ∀ left, arena.nameOf left = name →
      arena.isOwnMember left = false := by
    rintro left rfl
    exact Arena.not_isOwnMember_of_parse h hstatic
  have hmem : ∀ {j}, arena.Writes j name → j ∈ arena.preorder root := by
    rintro j ⟨left, operator, right, hform, -⟩
    exact Arena.mem_preorder_ofTree hform
  have hsilent : ∀ {j}, arena.Writes j name →
      (silent j ↔ arena.SetsPlainly j name
        ∧ (documented j ∨ ∃ i, arena.Precedes root i j
          ∧ arena.SetsPlainly i name ∧ documented i)) := fun hwrites =>
    hheard.silentAt_static_iff rfl rfl hstatic hconstant hown hwrites
      (hmem hwrites)
  refine ⟨fun j hj => hsilent hj, ?_⟩
  constructor
  · rintro honce ⟨i, j, hprecedes, hi, hdoc, hj⟩
    have hquiet := (hsilent hi.writes).2 ⟨hi, .inl hdoc⟩
    have hquiet' := (hsilent hj.writes).2 ⟨hj, .inr ⟨i, hprecedes, hi, hdoc⟩⟩
    obtain rfl := (honce i hi.writes hquiet).2 j hj.writes hquiet'
    exact Arena.Precedes.irrefl hheard.nodup hprecedes
  · -- under this condition no silent write follows the declaration, so each
    -- of them is documented itself
    intro hnone
    have hdocumented : ∀ {i}, arena.Writes i name → silent i →
        arena.SetsPlainly i name ∧ documented i := by
      intro i hi hquiet
      obtain ⟨hsets, hdoc | ⟨k, hprecedes, hk, hdoc⟩⟩ := (hsilent hi).1 hquiet
      · exact ⟨hsets, hdoc⟩
      · exact absurd ⟨k, i, hprecedes, hk, hdoc, hsets⟩ hnone
    intro i hi hquiet
    obtain ⟨hsets, hdoc⟩ := hdocumented hi hquiet
    refine ⟨hdoc, fun j hj hquiet' => ?_⟩
    obtain ⟨hsets', hdoc'⟩ := hdocumented hj hquiet'
    by_contra hne
    rcases Arena.precedes_or_precedes (hmem hi) (hmem hj) (Ne.symm hne) with
      hbefore | hafter
    · exact hnone ⟨i, j, hbefore, hsets, hdoc, hsets'⟩
    · exact hnone ⟨j, i, hafter, hsets', hdoc', hsets⟩

/-- A static constant that is declared, and then written in a function. -/
def writtenInFunction : String :=
  "/** @type N */a.B.MAX=1;function f()\x7ba.B.MAX=2;\x7d"

/-- Only the declaration is silent. -/
theorem staticConstants_of_check_writtenInFunction :
    Tree.Parses writtenInFunction fun tree =>
      let root := some (Arena.ofTree (.ofText writtenInFunction) tree).1
      let arena := (Arena.ofTree (.ofText writtenInFunction) tree).2
      let silent := SilentAt arena root ((start {}).reset "f.js")
      (∀ i, ¬ arena.CallsSuppress i)
        ∧ Naming.isStaticMemberName "a.B.MAX" = true
        ∧ Naming.isConstantName "a.B.MAX" = true
        ∧ arena.Writes 6 "a.B.MAX" ∧ arena.Writes 15 "a.B.MAX"
        ∧ silent 6 ∧ ¬ silent 15 := by
  have hparses : Tree.Parses writtenInFunction fun tree =>
      let arena := (Arena.ofTree (.ofText writtenInFunction) tree).2
      (∀ i < arena.size, arena.calleeName? i ≠ some "$suppress")
        ∧ arena.functionAround? (some 6) = none
        ∧ arena.form? (some 6)
          = some (.assignment (some 4) (.punctuator .equals) (some 5))
        ∧ arena.nameOf (some 4) = "a.B.MAX"
        ∧ arena.isPlain (some 5) = true
        ∧ (arena.docOf (some 6)).isSome = true
        ∧ arena.functionAround? (some 15) = some 18
        ∧ arena.form? (some 15)
          = some (.assignment (some 13) (.punctuator .equals) (some 14))
        ∧ arena.nameOf (some 13) = "a.B.MAX"
        ∧ arena.isFunction (some 14) = false := by decide +kernel
  obtain ⟨tree, hparse, hcalls, haround, hform, hname, hplain, hdoc,
    haround', hform', hname', hright'⟩ := hparses
  refine ⟨tree, hparse, ?_⟩
  beta_reduce
  intro root arena silent
  have hsuppress := Arena.callsNone_of_lt hcalls
  have hstatic : Naming.isStaticMemberName "a.B.MAX" = true := by decide
  have hconstant : Naming.isConstantName "a.B.MAX" = true := by decide
  obtain ⟨hsilent, -⟩ := staticConstants_of_check hparse (start {}) "f.js"
    hsuppress "a.B.MAX" hstatic hconstant
  have hsets : arena.SetsPlainly 6 "a.B.MAX" :=
    ⟨haround, _, _, _, hform, hname, hplain⟩
  have hwrites' : arena.Writes 15 "a.B.MAX" :=
    ⟨_, _, _, hform', hname', hright'⟩
  refine ⟨hsuppress, hstatic, hconstant, hsets.writes, hwrites',
    (hsilent 6 hsets.writes).2 ⟨hsets, .inl hdoc⟩, fun hsilent' => ?_⟩
  obtain ⟨⟨hnone, -⟩, -⟩ := (hsilent 15 hwrites').1 hsilent'
  rw [haround'] at hnone
  cases hnone

/-- A static constant that is declared, and then written again beside its
declaration. -/
def writtenAgain : String := "/** @type N */a.B.MAX=1;a.B.MAX=2;"

/-- At the top level both writes are silent. -/
theorem not_staticConstants_writtenAgain :
    Tree.Parses writtenAgain fun tree =>
      let root := some (Arena.ofTree (.ofText writtenAgain) tree).1
      let arena := (Arena.ofTree (.ofText writtenAgain) tree).2
      let silent := SilentAt arena root ((start {}).reset "f.js")
      (∀ i, ¬ arena.CallsSuppress i)
        ∧ Naming.isStaticMemberName "a.B.MAX" = true
        ∧ Naming.isConstantName "a.B.MAX" = true
        ∧ ¬ ∀ i j, arena.Writes i "a.B.MAX" → arena.Writes j "a.B.MAX" →
          silent i → silent j → i = j := by
  have hparses : Tree.Parses writtenAgain fun tree =>
      let root := some (Arena.ofTree (.ofText writtenAgain) tree).1
      let arena := (Arena.ofTree (.ofText writtenAgain) tree).2
      let found nodes :=
        (visit arena nodes ((start {}).reset "f.js")).1.sink.diagnostics
      (∀ i < arena.size, arena.calleeName? i ≠ some "$suppress")
        ∧ arena.form? (some 6)
          = some (.assignment (some 4) (.punctuator .equals) (some 5))
        ∧ arena.nameOf (some 4) = "a.B.MAX"
        ∧ arena.isFunction (some 5) = false
        ∧ arena.form? (some 14)
          = some (.assignment (some 12) (.punctuator .equals) (some 13))
        ∧ arena.nameOf (some 12) = "a.B.MAX"
        ∧ arena.isFunction (some 13) = false
        ∧ [16, 7, 6] <+: arena.preorder root
        ∧ found [16, 7, 6] = found [16, 7]
        ∧ [16, 7, 6, 4, 2, 0, 1, 3, 5, 15, 14] <+: arena.preorder root
        ∧ found [16, 7, 6, 4, 2, 0, 1, 3, 5, 15, 14]
          = found [16, 7, 6, 4, 2, 0, 1, 3, 5, 15] := by decide +kernel
  obtain ⟨tree, hparse, hcalls, hform, hname, hright, hform', hname', hright',
    hleads, hfound, hleads', hfound'⟩ := hparses
  refine ⟨tree, hparse, Arena.callsNone_of_lt hcalls, by decide, by decide,
    fun honce => ?_⟩
  have hsame := honce 6 14 ⟨_, _, _, hform, hname, hright⟩
    ⟨_, _, _, hform', hname', hright'⟩ ⟨[16, 7], hleads, hfound⟩
    ⟨[16, 7, 6, 4, 2, 0, 1, 3, 5, 15], hleads', hfound'⟩
  exact absurd hsame (by decide)

end Session

end ScriptLint
