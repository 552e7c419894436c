/-
Legacy mode. A file that begins in legacy mode is spared the findings
about prototypes that are set in functions; the question is whether
anything else depends on the mode.

Something does. Setting a prototype in a function makes a strict check
look the function up, which enters it in the table of functions; a legacy
check does not look. From there on the tables differ, and since functions
of one name share an entry, a function that is entered later may find its
parameters or find another's (`not_check_legacy_sharedEntry`). So the two
checks are compared under the condition that functions which share a name
with the function around a prototype also share what they would enter
(`Arena.EntersAlike`). Then the table of the legacy check lags behind, by
entries that nothing has asked for (`Arena.Lags`), and catches up with
each of them when it is first looked up (`Lags.enter`).

Two runs are compared step by step, a lenient one in legacy mode and a
strict one (`Model.Follows`). Their models agree in the classes and the
package. Functions may be entered in another order, so they have other
numbers, and are compared by name instead (`FunctionTable.SameAt`). The
findings of the lenient run are those of the strict one without the remarks
on prototypes (`Event.isBodyDef`); for every other check it has to be said
that it makes no such remark.
-/
import ScriptLint.Proofs.Functions
import ScriptLint.Proofs.Returns
import ScriptLint.Proofs.Session

namespace ScriptLint

namespace Arena

variable {arena : Arena} {lenient strict : FunctionTable}
  {f g function : Nat} {name : String} {ref : Ref}

-- ============================================================== lagging

/-- Whether a node sets a prototype. -/
def setsPrototype (arena : Arena) (i : Nat) : Bool :=
  match arena.form? (some i) with
  | some (.assignment left _ _) => Naming.isPrototypeName (arena.nameOf left)
  | _ => false

/-- Functions that share a name with the function around a prototype
share with it what they are entered with: the declared return type, and
the parameters. -/
def EntersAlike (arena : Arena) : Prop :=
  ∀ i ∈ List.range arena.size, ∀ j ∈ List.range arena.size,
    ∀ f ∈ arena.functionAround? (some i),
    ∀ g ∈ arena.functionAround? (some j), arena.setsPrototype i = true →
    (arena.identityOf f).name = (arena.identityOf g).name →
    arena.freshInfo f = arena.freshInfo g
  deriving Decidable

/-- The function is the one around a prototype. -/
def HoldsPrototype (arena : Arena) (f : Nat) : Prop :=
  ∃ i, arena.setsPrototype i = true ∧ arena.functionAround? (some i) = some f

/-- Only nodes have functions around them. -/
theorem exists_lt_size_of_functionAround? (h : arena.functionAround? ref
    = some g) : ∃ j < arena.size, ref = some j := by
  cases ref with
  | none => cases h
  | some j =>
      refine ⟨j, ?_, rfl⟩
      by_contra hle
      have hnode : arena.node? (some j) = none :=
        Array.getElem?_eq_none (Nat.le_of_not_lt hle)
      rw [functionAround?, ancestors, parentOf, hnode] at h
      cases h

/-- Functions of the same name would be entered alike. -/
theorem EntersAlike.freshInfo_eq (h : arena.EntersAlike)
    (hf : arena.HoldsPrototype f) (hg : arena.functionAround? ref = some g)
    (hname : (arena.identityOf f).name = (arena.identityOf g).name) :
    arena.freshInfo f = arena.freshInfo g := by
  obtain ⟨i, hset, hf⟩ := hf
  obtain ⟨j, hj, rfl⟩ := exists_lt_size_of_functionAround? hg
  obtain ⟨_, hi, heq⟩ := exists_lt_size_of_functionAround? hf
  cases heq
  exact h i (List.mem_range.2 hi) j (List.mem_range.2 hj) f hf g hg hset
    hname

/-- A table of functions that lags behind another one: it lacks some
functions around prototypes, of which the other one knows what they were
entered with and no more. -/
structure Lags (arena : Arena) (lenient strict : FunctionTable) : Prop where
  entry (name : String) : lenient.lookUp? name = strict.lookUp? name
    ∨ lenient.lookUp? name = none ∧ ∃ f, arena.HoldsPrototype f
      ∧ (arena.identityOf f).name = name
      ∧ strict.lookUp? name = some (arena.freshInfo f)
  returnType {f : Nat} {info : FunctionInfo} : arena.HoldsPrototype f →
    strict.lookUp? (arena.identityOf f).name = some info →
    info.returnType = (arena.freshInfo f).returnType

/-- Two empty tables have nothing to catch up with. -/
theorem lags_empty : arena.Lags {} {} where
  entry _ := .inl rfl
  returnType _ h := nomatch h

/-- What is entered for a new function, entering it again keeps. -/
theorem entered_of_returnType {info : FunctionInfo}
    (h : info.returnType = (arena.freshInfo g).returnType) :
    arena.entered g (some info) = info := by
  rw [freshInfo] at h
  dsimp only at h
  rw [entered]
  cases hdeclared : arena.declaredReturn? g with
  | none => rfl
  | some type =>
      rw [hdeclared, Option.getD_some] at h
      rw [Option.getD_some, ← h]

/-- Entering a function keeps return types those of functions around
prototypes. -/
theorem Lags.returnType_entered (h : arena.Lags lenient strict)
    (hf : arena.HoldsPrototype f)
    (hname : (arena.identityOf f).name = name)
    (hfresh : arena.freshInfo f = arena.freshInfo g) :
    (arena.entered g (strict.lookUp? name)).returnType
      = (arena.freshInfo f).returnType := by
  cases hold : strict.lookUp? name with
  | none => rw [hfresh, entered]
  | some info =>
      have hreturn := h.returnType hf (hname ▸ hold)
      rw [entered_of_returnType (hreturn.trans (by rw [hfresh])), hreturn]

/-- A lookup in both tables catches up: it leaves one entry for the
function that is looked up. -/
theorem Lags.enter (h : arena.Lags lenient strict)
    (halike : arena.EntersAlike) (hg : arena.functionAround? ref = some g) :
    arena.Lags (arena.enterFunction lenient g).2
        (arena.enterFunction strict g).2
      ∧ (arena.enterFunction lenient g).2.lookUp? (arena.identityOf g).name
        = (arena.enterFunction strict g).2.lookUp?
          (arena.identityOf g).name := by
  have hself : arena.entered g (lenient.lookUp? (arena.identityOf g).name)
      = arena.entered g (strict.lookUp? (arena.identityOf g).name) := by
    rcases h.entry (arena.identityOf g).name with
      heq | ⟨hnone, f, hf, hname, hsome⟩
    · rw [heq]
    · rw [hnone, hsome, halike.freshInfo_eq hf hg hname,
        entered_of_returnType rfl, entered]
  refine ⟨⟨fun name => ?_, fun {f info} hf hinfo => ?_⟩, ?_⟩
  · rw [lookUp?_enterFunction, lookUp?_enterFunction]
    split
    · rename_i hname
      rw [hname, hself]
      exact .inl rfl
    · exact h.entry name
  · rw [lookUp?_enterFunction] at hinfo
    split at hinfo
    · rename_i hname
      rw [← Option.some.inj hinfo]
      exact h.returnType_entered hf rfl (halike.freshInfo_eq hf hg hname)
    · exact h.returnType hf hinfo
  · rw [lookUp?_enterFunction, lookUp?_enterFunction, if_pos rfl, if_pos rfl,
      hself]

/-- A lookup in the other table alone, for a prototype, leaves the first
one behind, or further behind. -/
theorem Lags.enter_strict (h : arena.Lags lenient strict)
    (halike : arena.EntersAlike) (hg : arena.HoldsPrototype g) :
    arena.Lags lenient (arena.enterFunction strict g).2 := by
  obtain ⟨i, -, haround⟩ := id hg
  refine ⟨fun name => ?_, fun {f info} hf hinfo => ?_⟩
  · rw [lookUp?_enterFunction]
    split
    · rename_i hname
      cases hold : strict.lookUp? name with
      | none =>
          refine .inr ⟨?_, g, hg, hname.symm, rfl⟩
          rcases h.entry name with heq | ⟨hnone, -⟩
          · rw [heq, hold]
          · exact hnone
      | some info =>
          rw [entered_of_returnType (h.returnType hg (hname ▸ hold)), ← hold]
          exact h.entry name
    · exact h.entry name
  · rw [lookUp?_enterFunction] at hinfo
    split at hinfo
    · rename_i hname
      rw [← Option.some.inj hinfo]
      exact h.returnType_entered hf rfl
        (halike.freshInfo_eq hf haround hname)
    · exact h.returnType hf hinfo

/-- A variable may be declared in an entry that both tables have. -/
theorem Lags.addVariable (h : arena.Lags lenient strict) {id strictId : Nat}
    (hlenient : lenient.find? name = some id)
    (hstrict : strict.find? name = some strictId)
    (hentry : lenient.lookUp? name = strict.lookUp? name) (slot : Slot) :
    arena.Lags (lenient.update id (.addVariable slot))
      (strict.update strictId (.addVariable slot)) := by
  refine ⟨fun other => ?_, fun {f info} hf hinfo => ?_⟩
  · rw [Registry.lookUp?_update hlenient, Registry.lookUp?_update hstrict]
    split
    · rename_i heq
      rw [heq, hentry]
      exact .inl rfl
    · exact h.entry other
  · rw [Registry.lookUp?_update hstrict] at hinfo
    split at hinfo
    · obtain ⟨old, hold, rfl⟩ := Option.map_eq_some_iff.1 hinfo
      show old.returnType = _
      exact h.returnType hf hold
    · exact h.returnType hf hinfo

end Arena

-- =============================================================== models

/-- A model in legacy mode that follows another one: it knows the same
classes, and lags behind in functions. -/
structure Model.Follows (arena : Arena) (lenient strict : Model) : Prop where
  classes_eq : lenient.classes = strict.classes
  package_eq : lenient.package = strict.package
  legacy_eq : lenient.legacy = true
  strict_eq : strict.legacy = false
  functions : arena.Lags lenient.functions strict.functions

/-- Numbers under which two tables have the same function. -/
structure FunctionTable.SameAt (lenient strict : FunctionTable)
    (id strictId : Nat) : Prop where
  nameOf_eq : lenient.nameOf id = strict.nameOf strictId
  get?_eq : lenient.get? id = strict.get? strictId

/-- The finding that legacy mode spares a file. -/
def Event.isBodyDef : Event → Bool
  | .report .badBodyDef _ _ => true
  | _ => false

/-- An outcome in legacy mode that follows another one: it says the same
but for what legacy mode spares. -/
structure Outcome.Follows (arena : Arena) (lenient strict : Outcome) :
    Prop where
  model : Model.Follows arena lenient.model strict.model
  events_eq : lenient.events = strict.events.filter (!·.isBodyDef)

namespace Arena

variable {arena : Arena} {lenient strict : Model} {ref : Ref}

/-- Where the classes are as before, the events may be any but remarks on
prototypes. -/
theorem follows_of_events (h : lenient.Follows arena strict)
    {events : List Event} (hevents : ∀ e ∈ events, e.isBodyDef = false) :
    Outcome.Follows arena { model := lenient, events }
      { model := strict, events } where
  model := h
  events_eq := by
    rw [List.filter_eq_self.2 fun e he => by rw [hevents e he]; rfl]

/-- Outcomes without events follow each other where their models do. -/
theorem follows_of_no_events (h : lenient.Follows arena strict) :
    Outcome.Follows arena { model := lenient } { model := strict } :=
  follows_of_events h (List.forall_mem_nil _)

/-- A finding of another kind is not spared. -/
theorem isBodyDef_report {kind : DiagnosticKind} (h : kind ≠ .badBodyDef)
    (detail : Option String) :
    (arena.report kind ref detail).isBodyDef = false := by
  cases kind <;> first | rfl | exact absurd rfl h

-- =============================================================== scopes

/-- Looking up the function around a node, in both models, finds none or
the same. -/
theorem enclosingFunction?_follows (h : lenient.Follows arena strict)
    (halike : arena.EntersAlike) (ref : Ref) :
    (arena.enclosingFunction? lenient ref = none
        ∧ arena.enclosingFunction? strict ref = none)
      ∨ ∃ name id strictId lenient' strict',
        arena.enclosingFunction? lenient ref = some (id, lenient')
        ∧ arena.enclosingFunction? strict ref = some (strictId, strict')
        ∧ lenient'.Follows arena strict'
        ∧ lenient'.functions.find? name = some id
        ∧ strict'.functions.find? name = some strictId
        ∧ lenient'.functions.lookUp? name
          = strict'.functions.lookUp? name := by
  unfold enclosingFunction?
  cases haround : arena.functionAround? ref with
  | none => exact .inl ⟨rfl, rfl⟩
  | some g =>
      obtain ⟨hlags, hentry⟩ := h.functions.enter halike haround
      exact .inr ⟨_, _, _, _, _, rfl, rfl,
        { h with functions := hlags }, find?_enterFunction ..,
        find?_enterFunction .., hentry⟩

/-- Two numbers stand for the same function if the same entry is found under
its name. -/
theorem sameAt_of_find? {lenient strict : FunctionTable} {name : String}
    {id strictId : Nat} (hlenient : lenient.find? name = some id)
    (hstrict : strict.find? name = some strictId)
    (hentry : lenient.lookUp? name = strict.lookUp? name) :
    lenient.SameAt strict id strictId where
  nameOf_eq := (Registry.nameOf_of_find? hlenient).trans
    (Registry.nameOf_of_find? hstrict).symm
  get?_eq := by
    rwa [Registry.lookUp?_of_find? hlenient,
      Registry.lookUp?_of_find? hstrict] at hentry

/-- Looking up the class around a node does the same to both models. -/
theorem enclosingClass_follows (h : lenient.Follows arena strict)
    (ref : Ref) :
    (arena.enclosingClass lenient ref).1 = (arena.enclosingClass strict ref).1
      ∧ (arena.enclosingClass lenient ref).2.Follows arena
        (arena.enclosingClass strict ref).2 := by
  unfold enclosingClass
  split
  · exact ⟨rfl, h⟩
  · exact ⟨rfl, h⟩
  · rw [h.classes_eq]
    exact ⟨rfl, { h with classes_eq := rfl }⟩

/-- Classes are changed on both sides. -/
theorem updateClass_follows (h : lenient.Follows arena strict)
    (owner : Option Nat) (f : ClassInfo → ClassInfo) :
    (lenient.updateClass owner f).Follows arena
      (strict.updateClass owner f) := by
  cases owner with
  | none => exact h
  | some id =>
      exact { h with classes_eq := by simp [Model.updateClass, h.classes_eq] }

/-- Fields are the same on both sides. -/
theorem field?_follows (h : lenient.Follows arena strict)
    (owner : Option Nat) (name : String) :
    lenient.field? owner name = strict.field? owner name := by
  rw [Model.field?, Model.field?, h.classes_eq]

/-- Static fields are as well. -/
theorem staticField?_follows (h : lenient.Follows arena strict)
    (owner : Option Nat) (name : String) :
    lenient.staticField? owner name = strict.staticField? owner name := by
  rw [Model.staticField?, Model.staticField?, h.classes_eq]

-- ========================================================== assignments

/-- Setting a prototype is what legacy mode is about. -/
theorem checkPrototype_follows (h : lenient.Follows arena strict)
    (halike : arena.EntersAlike) {i : Nat}
    (hset : arena.setsPrototype i = true) (right : Ref) :
    (arena.checkPrototype lenient (some i) right).Follows arena
      (arena.checkPrototype strict (some i) right) := by
  have hshape : ∀ e ∈ (if arena.isObject right = true then []
      else [arena.report .badRvalue (some i)]), e.isBodyDef = false := by
    split <;> simp [report, Event.isBodyDef]
  unfold checkPrototype
  rw [h.legacy_eq, h.strict_eq]
  dsimp only
  rw [if_pos rfl, if_neg Bool.false_ne_true, enclosingFunction?]
  cases haround : arena.functionAround? (some i) with
  | none => exact follows_of_events h hshape
  | some g =>
      refine ⟨{ h with functions :=
        h.functions.enter_strict halike ⟨i, hset, haround⟩ }, ?_⟩
      show _ = (_ ++ [arena.report .badBodyDef (some i)]).filter _
      rw [List.filter_append, ← (follows_of_events h hshape).events_eq]
      simp [report, Event.isBodyDef]

/-- What is remarked about an update depends on the function around it by
name. -/
theorem fieldUpdate_eq (h : lenient.Follows arena strict) {id strictId : Nat}
    (hsame : lenient.functions.SameAt strict.functions id strictId)
    (assignment : Ref) (owner : Option Nat) (field : String) :
    arena.fieldUpdate lenient assignment id owner field
      = arena.fieldUpdate strict assignment strictId owner field := by
  rw [fieldUpdate, fieldUpdate, FunctionTable.isStatic,
    FunctionTable.isStatic, FunctionTable.isAnonymous,
    FunctionTable.isAnonymous, hsame.nameOf_eq, field?_follows h]

/-- None of these events is a remark on a prototype; likewise for the other
checks below. -/
theorem isBodyDef_fieldUpdate {model : Model} {assignment : Ref} {id : Nat}
    {owner : Option Nat} {field : String} :
    ∀ e ∈ arena.fieldUpdate model assignment id owner field,
      e.isBodyDef = false := by
  unfold fieldUpdate
  split_ifs <;> simp [report, Event.isBodyDef]

/-- A field of `this` is looked for with the function around the assignment
entered on both sides. -/
theorem checkInstanceField_follows (h : lenient.Follows arena strict)
    (halike : arena.EntersAlike) (assignment left : Ref) :
    (arena.checkInstanceField lenient assignment left).Follows arena
      (arena.checkInstanceField strict assignment left) := by
  rcases enclosingFunction?_follows h halike assignment with
    ⟨hnone, hnone'⟩
    | ⟨name, id, strictId, lenient, strict, hsome, hsome', h, hfind,
      hfind', hentry⟩
  · rw [checkInstanceField, checkInstanceField, hnone, hnone']
    exact follows_of_events h (by simp [report, Event.isBodyDef])
  · have hsame := sameAt_of_find? hfind hfind' hentry
    have hfunctions (model : Model) :
        model.functions = (arena.enclosingClass model assignment).2.functions :=
      (functions_enclosingClass model assignment).symm
    rw [hfunctions lenient, hfunctions strict] at hsame
    obtain ⟨howner, h⟩ := enclosingClass_follows h assignment
    rw [checkInstanceField, checkInstanceField, hsome, hsome']
    dsimp only
    rw [howner, fieldUpdate_eq h hsame, field?_follows h,
      FunctionTable.isConstructor, FunctionTable.isConstructor,
      hsame.nameOf_eq]
    split
    · split
      · refine follows_of_events h ?_
        rw [List.forall_mem_append]
        refine ⟨?_, isBodyDef_fieldUpdate⟩
        split <;> simp [report, Event.isBodyDef]
      · split
        · exact follows_of_events h (by simp [report, Event.isBodyDef])
        · exact follows_of_no_events (updateClass_follows h _ _)
    · exact follows_of_events h isBodyDef_fieldUpdate

/-- A static field is declared alike. -/
theorem declareStatic_follows (h : lenient.Follows arena strict)
    (assignment right : Ref) (owner : Option Nat) (field : String) :
    (arena.declareStatic lenient assignment right owner field).Follows arena
      (arena.declareStatic strict assignment right owner field) := by
  unfold declareStatic
  split
  · exact follows_of_events h (by simp [report, Event.isBodyDef])
  · exact follows_of_events h (by simp [report, Event.isBodyDef])
  · rw [staticField?_follows h]
    split
    · exact follows_of_no_events h
    · split
      · exact follows_of_no_events (updateClass_follows h _ _)
      · exact follows_of_events h (by simp [report, Event.isBodyDef])

/-- Its updates are judged alike. -/
theorem updateStatic_eq (h : lenient.Follows arena strict) {id strictId : Nat}
    (hsame : lenient.functions.SameAt strict.functions id strictId)
    (assignment : Ref) (owner : Option Nat) (name : String) :
    arena.updateStatic lenient assignment id owner name
      = arena.updateStatic strict assignment strictId owner name := by
  rw [updateStatic, updateStatic, FunctionTable.isConstructor,
    FunctionTable.isConstructor, hsame.nameOf_eq, h.classes_eq,
    staticField?_follows h]

theorem isBodyDef_updateStatic {model : Model} {assignment : Ref} {id : Nat}
    {owner : Option Nat} {name : String} :
    ∀ e ∈ arena.updateStatic model assignment id owner name,
      e.isBodyDef = false := by
  unfold updateStatic
  dsimp only
  split_ifs <;> simp [report, Event.isBodyDef]

/-- Which of the two it is depends on the classes. -/
theorem checkStaticField_follows (h : lenient.Follows arena strict)
    (halike : arena.EntersAlike) (assignment right : Ref) (name : String) :
    (arena.checkStaticField lenient assignment right name).Follows arena
      (arena.checkStaticField strict assignment right name) := by
  obtain ⟨howner, h⟩ := enclosingClass_follows h assignment
  rw [checkStaticField, checkStaticField]
  dsimp only
  rw [howner]
  rcases enclosingFunction?_follows h halike assignment with
    ⟨hnone, hnone'⟩
    | ⟨_, id, strictId, lenient, strict, hsome, hsome', h, hfind,
      hfind', hentry⟩
  · rw [hnone, hnone']
    exact declareStatic_follows h _ _ _ _
  · rw [hsome, hsome']
    dsimp only
    rw [updateStatic_eq h (sameAt_of_find? hfind hfind' hentry)]
    exact follows_of_events h isBodyDef_updateStatic

/-- A class is defined alike. -/
theorem defineClass_follows (h : lenient.Follows arena strict)
    (assignment right : Ref) (name : String) :
    (arena.defineClass lenient assignment right name).Follows arena
      (arena.defineClass strict assignment right name) := by
  unfold defineClass
  split
  · exact { h with classes_eq := by rw [h.classes_eq] }
  · exact h

/-- Its name is judged alike. -/
theorem checkClass_eq (h : lenient.Follows arena strict)
    (assignment : Ref) (name : String) :
    arena.checkClass lenient assignment name
      = arena.checkClass strict assignment name := by
  rw [checkClass, checkClass, h.package_eq]

theorem isBodyDef_checkClass {model : Model} {assignment : Ref}
    {name : String} :
    ∀ e ∈ arena.checkClass model assignment name, e.isBodyDef = false := by
  unfold checkClass
  cases model.package with
  | none => simp [report, Event.isBodyDef]
  | some package =>
      dsimp only
      rw [List.forall_mem_append]
      refine ⟨by split <;> simp [report, Event.isBodyDef], ?_⟩
      split
      · simp [report, Event.isBodyDef]
      · split <;> simp [report, Event.isBodyDef]

/-- Of the checks of an assignment, only the one of prototypes asks for the
mode. -/
theorem checkAssignment_follows (h : lenient.Follows arena strict)
    (halike : arena.EntersAlike) {i : Nat} {left right : Ref}
    {operator : TokenKind}
    (hform : arena.form? (some i) = some (.assignment left operator right)) :
    (arena.checkAssignment lenient (some i) left right).Follows arena
      (arena.checkAssignment strict (some i) left right) := by
  have h := defineClass_follows h (some i) right (arena.nameOf left)
  unfold checkAssignment
  dsimp only
  split
  · rw [checkClass_eq h]
    exact follows_of_events h isBodyDef_checkClass
  · split
    · rename_i hprototype
      have hset : arena.setsPrototype i = true := by
        rw [setsPrototype, hform]
        exact hprototype
      exact checkPrototype_follows h halike hset right
    · split
      · split
        · exact follows_of_no_events h
        · exact checkInstanceField_follows h halike _ _
      · split
        · exact checkStaticField_follows h halike _ _ _
        · exact follows_of_no_events h

end Arena

namespace Arena

variable {arena : Arena} {lenient strict : Model}

-- ================================================================ calls

/-- Whether a node calls the directive that sets legacy mode. -/
def callsLegacy (arena : Arena) (i : Nat) : Bool :=
  match arena.form? (some i) with
  | some (.call callee _) => arena.nameOf callee == "$legacy"
  | _ => false

/-- The package is set alike. -/
theorem checkPackage_follows (h : lenient.Follows arena strict)
    (call : Ref) (arguments : List Ref) :
    (arena.checkPackage lenient call arguments).Follows arena
      (arena.checkPackage strict call arguments) := by
  unfold checkPackage
  split
  · split
    · exact follows_of_no_events { h with package_eq := rfl }
    · exact follows_of_events h (by simp [report, Event.isBodyDef])
  · exact follows_of_events h (by simp [report, Event.isBodyDef])

theorem isBodyDef_checkSuppress {call : Ref} {arguments : List Ref} :
    ∀ e ∈ arena.checkSuppress call arguments, e.isBodyDef = false := by
  unfold checkSuppress
  split
  · split
    · intro e he
      rw [Option.mem_toList, Option.map_eq_some_iff] at he
      obtain ⟨kind, -, rfl⟩ := he
      rfl
    · simp [report, Event.isBodyDef]
  · simp [report, Event.isBodyDef]

/-- Links are made or refused by the classes alone. -/
theorem linkClasses_follows (h : lenient.Follows arena strict) (call : Ref)
    (name superName : String) :
    (arena.linkClasses lenient call name superName).Follows arena
      (arena.linkClasses strict call name superName) := by
  have hsame : ∀ classes, Model.Follows arena { lenient with classes }
      { strict with classes } := fun classes => { h with classes_eq := rfl }
  unfold linkClasses
  rw [h.classes_eq]
  dsimp only
  split
  · exact follows_of_no_events (hsame _)
  · exact follows_of_no_events (hsame _)
  · exact follows_of_events (hsame _) (by simp [report, Event.isBodyDef])
  · exact follows_of_events (hsame _) (by simp [report, Event.isBodyDef])

/-- A call that asks for a link is judged by the classes alone, as the link
is. -/
theorem checkExtends_follows (h : lenient.Follows arena strict)
    (call : Ref) (arguments : List Ref) :
    (arena.checkExtends lenient call arguments).Follows arena
      (arena.checkExtends strict call arguments) := by
  unfold checkExtends
  split
  · rw [h.classes_eq]
    dsimp only
    split_ifs
    · exact follows_of_events h (by simp [report, Event.isBodyDef])
    · exact follows_of_events h (by simp [report, Event.isBodyDef])
    · exact follows_of_events h (by simp [report, Event.isBodyDef])
    · exact linkClasses_follows h _ _ _
  · exact follows_of_events h (by simp [report, Event.isBodyDef])

/-- A call that is not the one that changes the mode. -/
theorem checkCall_follows (h : lenient.Follows arena strict)
    (call callee : Ref) (arguments : List Ref)
    (hlegacy : arena.nameOf callee ≠ "$legacy") :
    (arena.checkCall lenient call callee arguments).Follows arena
      (arena.checkCall strict call callee arguments) := by
  unfold checkCall
  split
  · exact checkPackage_follows h _ _
  · exact follows_of_events h isBodyDef_checkSuppress
  · exact checkExtends_follows h _ _
  · rename_i hname
    exact absurd hname hlegacy
  · exact follows_of_no_events h

-- =============================================================== values

/-- What is returned has the same type in both runs. -/
theorem returned_eq (h : lenient.Follows arena strict) {id strictId : Nat}
    (hsame : lenient.functions.SameAt strict.functions id strictId)
    (owner : Option Nat) (value : Ref) :
    arena.returned lenient id owner value
      = arena.returned strict strictId owner value := by
  unfold returned
  rw [hsame.get?_eq, h.classes_eq]
  simp only [field?_follows h]

/-- It is judged by the classes and by that type. -/
theorem judge_eq (h : lenient.Follows arena strict) {id strictId : Nat}
    (hsame : lenient.functions.SameAt strict.functions id strictId)
    (declared : ValueType) (returned : Returned) :
    judge lenient id declared returned
      = judge strict strictId declared returned := by
  unfold judge
  rw [FunctionTable.isConstructor, FunctionTable.isConstructor,
    hsame.nameOf_eq, h.classes_eq]

/-- A return is never judged to be a prototype in a function. -/
theorem judge_returned_ne {model : Model} {id : Nat} {owner : Option Nat}
    {value : Ref} {declared : ValueType} {kind : DiagnosticKind}
    (h : judge model id declared (arena.returned model id owner value)
      = some kind) : kind ≠ .badBodyDef := by
  rintro rfl
  have hslot : ∀ slot kind, kind ≠ .badBodyDef →
      Returned.ofSlot slot kind ≠ .undeclared .badBodyDef := by
    intro slot kind hkind
    cases slot <;> simp [Returned.ofSlot, hkind]
  have hreturned : arena.returned model id owner value
      ≠ .undeclared .badBodyDef := by
    unfold returned
    split <;> try split
    all_goals first | exact hslot _ _ (by simp) | simp
  unfold judge at h
  split at h <;> try split_ifs at h
  all_goals simp_all

/-- A return enters the function around it in both runs, or is stray in
both. -/
theorem checkReturn_follows (h : lenient.Follows arena strict)
    (halike : arena.EntersAlike) (statement value : Ref) :
    (∃ stray, arena.checkReturn lenient statement value = .error stray
        ∧ arena.checkReturn strict statement value = .error stray)
      ∨ ∃ outcome outcome',
        arena.checkReturn lenient statement value = .ok outcome
        ∧ arena.checkReturn strict statement value = .ok outcome'
        ∧ outcome.Follows arena outcome' := by
  obtain ⟨howner, h⟩ := enclosingClass_follows h statement
  rw [checkReturn, checkReturn]
  dsimp only
  rw [howner]
  rcases enclosingFunction?_follows h halike statement with
    ⟨hnone, hnone'⟩
    | ⟨_, id, strictId, lenient, strict, hsome, hsome', h, hfind,
      hfind', hentry⟩
  · rw [hnone, hnone']
    exact .inl ⟨_, rfl, rfl⟩
  · have hsame := sameAt_of_find? hfind hfind' hentry
    rw [hsome, hsome']
    dsimp only
    rw [returned_eq h hsame, judge_eq h hsame, hsame.get?_eq]
    refine .inr ⟨_, _, rfl, rfl, follows_of_events h fun e he => ?_⟩
    rw [Option.mem_toList, Option.map_eq_some_iff] at he
    obtain ⟨kind, hkind, rfl⟩ := he
    exact isBodyDef_report (judge_returned_ne hkind) none

/-- A variable is declared with the function of the same name. -/
theorem declareVariable_follows (h : lenient.Follows arena strict)
    (halike : arena.EntersAlike) (declaration name : Ref)
    (type : ValueType) :
    (arena.declareVariable lenient declaration name type).Follows arena
      (arena.declareVariable strict declaration name type) := by
  unfold declareVariable
  rcases enclosingFunction?_follows h halike declaration with
    ⟨hnone, hnone'⟩
    | ⟨_, id, strictId, lenient, strict, hsome, hsome', h, hfind,
      hfind', hentry⟩
  · rw [hnone, hnone']
    exact h
  · rw [hsome, hsome']
    exact { h with functions :=
      h.functions.addVariable hfind hfind' hentry _ }

/-- A declaration gives its variable the same type on both sides. -/
theorem checkDeclaration_follows (h : lenient.Follows arena strict)
    (halike : arena.EntersAlike) (declaration name initializer : Ref) :
    (arena.checkDeclaration lenient declaration name initializer).Follows
      arena (arena.checkDeclaration strict declaration name initializer) := by
  unfold checkDeclaration
  split
  · exact follows_of_events h (by simp [report, Event.isBodyDef])
  · split
    · obtain ⟨howner, h⟩ := enclosingClass_follows h declaration
      dsimp only
      rw [howner, field?_follows h]
      split
      · exact follows_of_no_events
          (declareVariable_follows h halike _ _ _)
      · exact follows_of_events h (by simp [report, Event.isBodyDef])
    · exact follows_of_no_events (declareVariable_follows h halike _ _ _)

-- =============================================================== shapes

theorem isBodyDef_checkConstruct {construct callee : Ref} :
    ∀ e ∈ arena.checkConstruct construct callee, e.isBodyDef = false := by
  unfold checkConstruct
  dsimp only
  split <;> simp [report, Event.isBodyDef]

theorem isBodyDef_checkKeys {documented : Bool} {seen : List String}
    {keys : List Ref} :
    ∀ e ∈ arena.checkKeys documented seen keys, e.isBodyDef = false := by
  induction keys generalizing seen with
  | nil => exact List.forall_mem_nil _
  | cons key keys ih =>
      rw [checkKeys, List.forall_mem_append, List.forall_mem_append]
      refine ⟨⟨?_, ?_⟩, ih⟩
      · split <;> simp [report, Event.isBodyDef]
      · split <;> simp [report, Event.isBodyDef]

theorem isBodyDef_checkSwitch {switch : Ref} {clauses : List Ref} :
    ∀ e ∈ arena.checkSwitch switch clauses, e.isBodyDef = false := by
  unfold checkSwitch
  rw [List.forall_mem_append]
  refine ⟨fun e he => ?_, ?_⟩
  · obtain ⟨clause, -, rfl⟩ := List.mem_map.1 he
    rfl
  · split <;> simp [report, Event.isBodyDef]

-- ================================================================ nodes

/-- The check of any node keeps one model following the other. -/
theorem checkNode_follows (h : lenient.Follows arena strict)
    (halike : arena.EntersAlike) {i : Nat}
    (hlegacy : arena.callsLegacy i = false) :
    (∃ stray, arena.checkNode lenient i = .error stray
        ∧ arena.checkNode strict i = .error stray)
      ∨ ∃ outcome outcome', arena.checkNode lenient i = .ok outcome
        ∧ arena.checkNode strict i = .ok outcome'
        ∧ outcome.Follows arena outcome' := by
  unfold checkNode
  dsimp only
  split
  case h_1 hform =>
      exact .inr ⟨_, _, rfl, rfl, checkAssignment_follows h halike hform⟩
  case h_2 hform =>
      rw [callsLegacy, hform] at hlegacy
      exact .inr ⟨_, _, rfl, rfl,
        checkCall_follows h _ _ _ (ne_of_beq_false hlegacy)⟩
  case h_3 =>
      exact .inr ⟨_, _, rfl, rfl,
        follows_of_events h isBodyDef_checkConstruct⟩
  case h_4 =>
      exact .inr ⟨_, _, rfl, rfl, follows_of_events h isBodyDef_checkKeys⟩
  case h_5 => exact checkReturn_follows h halike _ _
  case h_6 =>
      exact .inr ⟨_, _, rfl, rfl, follows_of_events h isBodyDef_checkSwitch⟩
  case h_7 =>
      exact .inr ⟨_, _, rfl, rfl, checkDeclaration_follows h halike _ _ _⟩
  case h_8 => exact .inr ⟨_, _, rfl, rfl, follows_of_no_events h⟩

end Arena

-- ============================================================= sessions

/-- A sink that has been spared some findings and is otherwise like
another one. -/
structure Sink.Follows (lenient strict : Sink) : Prop where
  file_eq : lenient.file = strict.file
  suppressed_eq : lenient.suppressed = strict.suppressed
  diagnostics_eq : lenient.diagnostics
    = strict.diagnostics.filter (·.kind ≠ .badBodyDef)

namespace Sink

variable {lenient strict : Sink}

/-- An event that is in both runs is taken or dropped in both. -/
theorem Follows.take (h : lenient.Follows strict) {event : Event}
    (hevent : event.isBodyDef = false) :
    (lenient.take event).Follows (strict.take event) := by
  obtain ⟨hfile, hkinds, hfound⟩ := h
  cases event with
  | suppress kind => exact ⟨hfile, congrArg (kind :: ·) hkinds, hfound⟩
  | report kind line detail =>
      have hkind : kind ≠ .badBodyDef := by
        rintro rfl
        cases hevent
      have hdrop : lenient.isSuppressed kind = strict.isSuppressed kind := by
        rw [isSuppressed, isSuppressed, hkinds]
      by_cases hdropped : strict.isSuppressed kind = true
      · simp only [Sink.take, hdrop, hdropped, if_true]
        exact ⟨hfile, hkinds, hfound⟩
      · simp only [Sink.take, hdrop, hdropped]
        refine ⟨hfile, hkinds, ?_⟩
        simp [hfound, hfile, List.filter_append, Diagnostic.of, hkind]

/-- A remark on a prototype is taken in the strict run only. -/
theorem Follows.take_bodyDef (h : lenient.Follows strict) {event : Event}
    (hevent : event.isBodyDef = true) :
    lenient.Follows (strict.take event) := by
  obtain ⟨hfile, hkinds, hfound⟩ := h
  unfold Event.isBodyDef at hevent
  split at hevent
  · by_cases hdropped : strict.isSuppressed .badBodyDef = true
    · simp only [Sink.take, hdropped, if_true]
      exact ⟨hfile, hkinds, hfound⟩
    · simp only [Sink.take, hdropped]
      refine ⟨hfile, hkinds, ?_⟩
      simp [hfound, List.filter_append, Diagnostic.of]
  · cases hevent

/-- Events are taken in turn. -/
theorem Follows.takeAll (h : lenient.Follows strict) (events : List Event) :
    (lenient.takeAll (events.filter (!·.isBodyDef))).Follows
      (strict.takeAll events) := by
  induction events generalizing lenient strict with
  | nil => exact h
  | cons event events ih =>
      cases hevent : event.isBodyDef with
      | true =>
          rw [List.filter_cons_of_neg (by simp [hevent])]
          exact ih (h.take_bodyDef hevent)
      | false =>
          rw [List.filter_cons_of_pos (by simp [hevent])]
          exact ih (h.take hevent)

end Sink

namespace Session

variable {arena : Arena} {lenient strict : Session}

/-- A session in legacy mode that follows another one. -/
structure Follows (arena : Arena) (lenient strict : Session) : Prop where
  requireSuper_eq : lenient.options.requireSuper
    = strict.options.requireSuper
  model : Model.Follows arena lenient.model strict.model
  sink : Sink.Follows lenient.sink strict.sink

/-- Along the walk, both runs go on together and stop together. -/
theorem visit_follows (halike : arena.EntersAlike)
    (hlegacy : ∀ i, arena.callsLegacy i = false) (nodes : List Nat)
    (h : Follows arena lenient strict) :
    Follows arena (visit arena nodes lenient).1 (visit arena nodes strict).1
      ∧ (visit arena nodes lenient).2 = (visit arena nodes strict).2 := by
  induction nodes generalizing lenient strict with
  | nil => exact ⟨h, rfl⟩
  | cons i nodes ih =>
      rw [visit, visit]
      rcases Arena.checkNode_follows h.model halike (hlegacy i) with
        ⟨stray, hrun, hrun'⟩ | ⟨outcome, outcome', hrun, hrun', houtcome⟩
      · rw [hrun, hrun']
        exact ⟨h, rfl⟩
      · rw [hrun, hrun']
        refine ih ⟨h.requireSuper_eq, houtcome.model, ?_⟩
        show Sink.Follows (lenient.sink.takeAll outcome.events) _
        rw [houtcome.events_eq]
        exact h.sink.takeAll outcome'.events

/-- The closing reports are none either. -/
theorem isBodyDef_missingSupers (model : Model) :
    ∀ e ∈ model.missingSupers, e.isBodyDef = false := by
  intro e he
  obtain ⟨⟨name, info⟩, -, hreport⟩ := List.mem_filterMap.1 he
  dsimp only at hreport
  split at hreport
  · split at hreport
    · cases hreport
    · cases hreport
      rfl
  · cases hreport

/-- Checking a whole tree, one run follows the other to the end, and both end
alike. -/
theorem checkTree_follows (halike : arena.EntersAlike)
    (hlegacy : ∀ i, arena.callsLegacy i = false) (root : Ref)
    (h : Follows arena lenient strict) :
    Sink.Follows (lenient.checkTree arena root).1.sink
        (strict.checkTree arena root).1.sink
      ∧ (lenient.checkTree arena root).2
        = (strict.checkTree arena root).2 := by
  obtain ⟨hlast, hstray⟩ := visit_follows halike hlegacy
    (arena.preorder root) h
  rcases hrun : visit arena (arena.preorder root) lenient with ⟨last, stray⟩
  rcases hrun' : visit arena (arena.preorder root) strict
    with ⟨last', stray'⟩
  rw [hrun, hrun'] at hlast hstray
  obtain rfl : stray = stray' := hstray
  cases stray with
  | some stray =>
      rw [checkTree_of_stray hrun, checkTree_of_stray hrun']
      exact ⟨hlast.sink, rfl⟩
  | none =>
      rw [checkTree_of_visit hrun, checkTree_of_visit hrun']
      refine ⟨?_, rfl⟩
      -- the closing reports depend on the classes, in which the two runs agree
      have hsame : last.closingEvents
          = last'.closingEvents.filter (!·.isBodyDef) := by
        have hsupers : last.model.missingSupers
            = last'.model.missingSupers := by
          rw [Model.missingSupers, hlast.model.classes_eq]
          rfl
        have hkept : last'.model.missingSupers.filter (!·.isBodyDef)
            = last'.model.missingSupers :=
          List.filter_eq_self.2 fun e he => by
            rw [isBodyDef_missingSupers _ e he]
            rfl
        rw [closingEvents, closingEvents, hlast.requireSuper_eq, hsupers]
        split
        · exact hkept.symm
        · rfl
      show Sink.Follows (last.sink.takeAll last.closingEvents) _
      rw [hsame]
      exact hlast.sink.takeAll last'.closingEvents

end Session

namespace Arena

/-- Whether no node calls the directive that sets legacy mode. -/
def CallsNoLegacy (arena : Arena) : Prop :=
  ∀ i ∈ List.range arena.size, arena.callsLegacy i = false
  deriving Decidable

/-- What calls no directive in the tree calls none at any number. -/
theorem CallsNoLegacy.all {arena : Arena} (h : arena.CallsNoLegacy)
    (i : Nat) : arena.callsLegacy i = false := by
  by_cases hi : i < arena.size
  · exact h i (List.mem_range.2 hi)
  · have hform : arena.form? (some i) = none := by
      rw [form?, node?, Option.bind_some,
        Array.getElem?_eq_none (Nat.le_of_not_lt hi)]
      rfl
    rw [callsLegacy, hform]

end Arena

namespace Session

/-- Legacy mode spares a file the findings about prototypes in functions
and changes no other: for any program that does not set the mode itself,
provided that the functions around its prototypes are entered alike with
those that share their names. -/
theorem check_legacy {text : String} {tree : Tree}
    (hparse : Tree.parse text = .ok tree)
    (hlegacy : (Arena.ofTree (.ofText text) tree).2.CallsNoLegacy)
    (halike : (Arena.ofTree (.ofText text) tree).2.EntersAlike)
    (requireSuper : Bool) (file : String) :
    ∃ found,
      ((start { legacy := false, requireSuper }).check file text).2
          = .ok found
        ∧ ((start { legacy := true, requireSuper }).check file text).2
          = .ok (found.filter (·.kind ≠ .badBodyDef)) := by
  -- both runs begin without functions, so nothing lags behind yet
  have hbegin : Follows (Arena.ofTree (.ofText text) tree).2
      ((start { legacy := true, requireSuper }).reset file)
      ((start { legacy := false, requireSuper }).reset file) :=
    ⟨rfl, ⟨rfl, rfl, rfl, rfl, Arena.lags_empty⟩, ⟨rfl, rfl, rfl⟩⟩
  obtain ⟨hsink, hstray⟩ := checkTree_follows halike hlegacy.all
    (some (Arena.ofTree (.ofText text) tree).1) hbegin
  have hnone : (((start { legacy := false, requireSuper }).reset file).checkTree
      (Arena.ofTree (.ofText text) tree).2
      (some (Arena.ofTree (.ofText text) tree).1)).2 = none :=
    checkTree_of_outcomes (Arena.exists_outcome fun i value hform =>
      Arena.exists_function_of_returning hparse hform) _ _
  rw [check_of_parse hparse, check_of_parse hparse]
  dsimp only
  rw [hnone] at hstray
  rcases hstrict : ((start { legacy := false, requireSuper }).reset
    file).checkTree (Arena.ofTree (.ofText text) tree).2
    (some (Arena.ofTree (.ofText text) tree).1) with ⟨last, stray⟩
  rcases hlenient : ((start { legacy := true, requireSuper }).reset
    file).checkTree (Arena.ofTree (.ofText text) tree).2
    (some (Arena.ofTree (.ofText text) tree).1) with ⟨last', stray'⟩
  rw [hstrict] at hnone hsink
  rw [hlenient] at hstray hsink
  obtain rfl : stray = none := hnone
  obtain rfl : stray' = none := hstray
  exact ⟨_, rfl, congrArg Except.ok hsink.diagnostics_eq⟩

/-- A function with a prototype in it, and a return behind that. -/
def loneFunction : String :=
  "function f(b)\x7ba.B.prototype=\x7b\x7d;return b;\x7d"

theorem check_legacy_loneFunction : ∃ found,
    ((start { legacy := false, requireSuper := true }).check "f.js"
        loneFunction).2 = .ok found
      ∧ ((start { legacy := true, requireSuper := true }).check "f.js"
        loneFunction).2 = .ok (found.filter (·.kind ≠ .badBodyDef)) := by
  have hparses : Tree.Parses loneFunction fun tree =>
      (Arena.ofTree (.ofText loneFunction) tree).2.CallsNoLegacy
        ∧ (Arena.ofTree (.ofText loneFunction) tree).2.EntersAlike := by
    decide +kernel
  obtain ⟨tree, hparse, hlegacy, halike⟩ := hparses
  exact check_legacy hparse hlegacy halike true "f.js"

/-- Two anonymous functions, which share an entry. The first one sets a
prototype and has no parameter; the second one has a parameter. -/
def sharedEntry : String :=
  "(function()\x7ba.B.prototype=\x7b\x7d;\x7d)(function(b)\x7breturn b;\x7d);"

/-- Where functions share a name but not what they are entered with, the
mode may show elsewhere: a strict check finds the parameter undeclared, a
legacy check finds its type wrong. -/
theorem not_check_legacy_sharedEntry :
    (Tree.Parses sharedEntry fun tree =>
        (Arena.ofTree (.ofText sharedEntry) tree).2.CallsNoLegacy)
      ∧ ¬ ∃ found,
        ((start { legacy := false }).check "f.js" sharedEntry).2 = .ok found
          ∧ ((start { legacy := true }).check "f.js" sharedEntry).2
            = .ok (found.filter (·.kind ≠ .badBodyDef)) := by
  have hne : ((start { legacy := true }).check "f.js" sharedEntry).2
      ≠ ((start { legacy := false }).check "f.js" sharedEntry).2.map
        (·.filter (·.kind ≠ .badBodyDef)) := by decide +kernel
  refine ⟨by decide +kernel, ?_⟩
  rintro ⟨found, hstrict, hlenient⟩
  rw [hstrict, hlenient] at hne
  exact hne rfl

end Session

end ScriptLint
