/-
Checking does not look at lines. A node knows the line it starts on, and
from there lines come into findings and into the definitions of classes,
but no check ever decides by one. So changing all lines by a function
(`mapLines`) before a check or behind it comes to the same, for every
step: reading an arena, asking or changing the model, checking a node,
visiting the nodes in turn. The function has to keep the 0 that stands
where there is no node.

Hence two texts whose trees agree in what a function keeps of their lines
are checked with results that agree in it (`Session.check_of_mapPlaces`).

The file goes through the checker from the inside out: first what is read
off an arena, then the registries and the model, then the checks of single
nodes, and at last the sink, the session and the walk. Wherever a function
of the model is called by another one, its lemma is tagged for `simp`, so
that the one for the caller is mostly a case analysis over the form of the
node with nothing to do in the cases.

Lines go in at two places only, where a finding is made (`report_mapLines`)
and where a class is defined (`define_mapLines`); they come out where a
missing superclass is reported (`Model.missingSupers_mapLines`). Everywhere
else they are handed through.
-/
import ScriptLint.Proofs.Syntax.Places
import ScriptLint.Proofs.Session

namespace ScriptLint

variable {f : Nat → Nat}

-- ============================================================= reading

namespace Arena

section

variable (arena : Arena)

@[simp] theorem size_mapLines : (arena.mapLines f).size = arena.size := by
  simp [mapLines, size]

/-- What is at a reference is what was there, with its line changed. -/
@[simp] theorem node?_mapLines (ref : Ref) :
    (arena.mapLines f).node? ref = (arena.node? ref).map (Node.mapLine f) := by
  cases ref <;> simp [mapLines, node?]

@[simp] theorem form?_mapLines (ref : Ref) :
    (arena.mapLines f).form? ref = arena.form? ref := by
  simp only [form?, node?_mapLines, Option.map_map]
  rfl

@[simp] theorem parentOf_mapLines (ref : Ref) :
    (arena.mapLines f).parentOf ref = arena.parentOf ref := by
  simp only [parentOf, node?_mapLines, Option.bind_map]
  rfl

@[simp] theorem docOf_mapLines (ref : Ref) :
    (arena.mapLines f).docOf ref = arena.docOf ref := by
  simp only [docOf, node?_mapLines, Option.bind_map]
  rfl

/-- Where there is no node, the line is 0. -/
theorem lineOf_mapLines (hf : f 0 = 0) (ref : Ref) :
    (arena.mapLines f).lineOf ref = f (arena.lineOf ref) := by
  rw [lineOf, lineOf, node?_mapLines]
  cases arena.node? ref with
  | none => exact hf.symm
  | some node => rfl

/-- What kind of node it is does not depend on lines; likewise for the kinds
below. -/
@[simp] theorem isFunction_mapLines (ref : Ref) :
    (arena.mapLines f).isFunction ref = arena.isFunction ref := by
  simp only [isFunction, form?_mapLines]

@[simp] theorem isThis_mapLines (ref : Ref) :
    (arena.mapLines f).isThis ref = arena.isThis ref := by
  simp only [isThis, form?_mapLines]

@[simp] theorem isObject_mapLines (ref : Ref) :
    (arena.mapLines f).isObject ref = arena.isObject ref := by
  simp only [isObject, form?_mapLines]

@[simp] theorem isOwnMember_mapLines (ref : Ref) :
    (arena.mapLines f).isOwnMember ref = arena.isOwnMember ref := by
  simp only [isOwnMember, form?_mapLines, isThis_mapLines]

@[simp] theorem identifier?_mapLines (ref : Ref) :
    (arena.mapLines f).identifier? ref = arena.identifier? ref := by
  simp only [identifier?, form?_mapLines]

/-- Parentheses are taken off by forms alone. -/
theorem unwrap_mapLines (steps : Nat) (ref : Ref) :
    (arena.mapLines f).unwrap steps ref = arena.unwrap steps ref := by
  induction steps generalizing ref with
  | zero => rfl
  | succ steps ih => simp only [unwrap, form?_mapLines, ih]

@[simp] theorem skipParens_mapLines (ref : Ref) :
    (arena.mapLines f).skipParens ref = arena.skipParens ref :=
  arena.unwrap_mapLines _ ref

/-- Names are joined from identifiers, which have no lines. -/
theorem nameWith_mapLines (steps : Nat) (ref : Ref) (tail : List String) :
    (arena.mapLines f).nameWith steps ref tail
      = arena.nameWith steps ref tail := by
  induction steps generalizing ref tail with
  | zero => rfl
  | succ steps ih =>
      simp only [nameWith, form?_mapLines, identifier?_mapLines, ih]

@[simp] theorem nameOf_mapLines (ref : Ref) :
    (arena.mapLines f).nameOf ref = arena.nameOf ref :=
  arena.nameWith_mapLines _ ref []

/-- The way up follows the links to the parents. -/
theorem chain_mapLines (steps : Nat) (ref : Ref) :
    (arena.mapLines f).chain steps ref = arena.chain steps ref := by
  induction steps generalizing ref with
  | zero => rfl
  | succ steps ih =>
      cases ref with
      | none => rfl
      | some i => simp only [chain, parentOf_mapLines, ih]

@[simp] theorem ancestors_mapLines (ref : Ref) :
    (arena.mapLines f).ancestors ref = arena.ancestors ref := by
  simp only [ancestors, parentOf_mapLines, chain_mapLines]

/-- The way down follows the forms. -/
theorem forest_mapLines (depth : Nat) (roots after : List Nat) :
    (arena.mapLines f).forest depth roots after
      = arena.forest depth roots after := by
  induction depth generalizing roots after with
  | zero => rfl
  | succ depth ih =>
      have hget (i : Nat) : (arena.mapLines f).nodes[i]?
          = arena.nodes[i]?.map (Node.mapLine f) := Array.getElem?_map
      simp only [forest, ih, hget]
      congr 1
      funext i after
      cases arena.nodes[i]? <;> rfl

@[simp] theorem preorder_mapLines (root : Ref) :
    (arena.mapLines f).preorder root = arena.preorder root := by
  simp only [preorder, size_mapLines, forest_mapLines]

/-- The function around a node is the first one on the way up. -/
@[simp] theorem functionAround?_mapLines (ref : Ref) :
    (arena.mapLines f).functionAround? ref = arena.functionAround? ref := by
  simp only [functionAround?, ancestors_mapLines, isFunction_mapLines]

/-- What a function is called is read off the nodes around it. -/
@[simp] theorem identityOf_mapLines (function : Nat) :
    (arena.mapLines f).identityOf function = arena.identityOf function := by
  simp only [identityOf, docOf_mapLines, parentOf_mapLines,
    form?_mapLines, nameOf_mapLines]

/-- Tables of functions hold no lines, so the very same table comes out. -/
@[simp] theorem enterFunction_mapLines (functions : FunctionTable)
    (function : Nat) :
    (arena.mapLines f).enterFunction functions function
      = arena.enterFunction functions function := by
  simp only [enterFunction, identityOf_mapLines, parametersOf,
    form?_mapLines, identifier?_mapLines]

@[simp] theorem memberName_mapLines (ref : Ref) :
    (arena.mapLines f).memberName ref = arena.memberName ref := by
  simp only [memberName, form?_mapLines, nameOf_mapLines]

@[simp] theorem className?_mapLines (ref : Ref) :
    (arena.mapLines f).className? ref = arena.className? ref := by
  simp only [className?, functionAround?_mapLines, identityOf_mapLines,
    form?_mapLines, nameOf_mapLines]

@[simp] theorem inferType_mapLines (ref : Ref) :
    (arena.mapLines f).inferType ref = arena.inferType ref := by
  simp only [inferType, skipParens_mapLines, form?_mapLines,
    nameOf_mapLines]

end

end Arena

-- =============================================================== model

/-- The registry with its entries changed by a function; the names
stay. -/
def Registry.map {α β : Type} (g : α → β) (registry : Registry α) :
    Registry β :=
  ⟨registry.entries.map fun entry => (entry.1, g entry.2)⟩

namespace Registry

variable {α β : Type} (g : α → β) (registry : Registry α)

@[simp] theorem find?_map (name : String) :
    (registry.map g).find? name = registry.find? name := by
  simp [find?, map, List.findIdx?_map, Function.comp_def]

@[simp] theorem get?_map (id : Nat) :
    (registry.map g).get? id = (registry.get? id).map g := by
  simp [get?, map, Function.comp_def]

@[simp] theorem nameOf_map (id : Nat) :
    (registry.map g).nameOf id = registry.nameOf id := by
  simp only [nameOf, map, List.getElem?_map]
  cases registry.entries[id]? <;> rfl

/-- A fresh entry may be mapped before or behind entering it. -/
theorem intern_map (name : String) (fresh : α) :
    (registry.map g).intern name (g fresh)
      = ((registry.intern name fresh).1,
        (registry.intern name fresh).2.map g) := by
  simp only [intern, find?_map]
  cases registry.find? name with
  | some id => rfl
  | none => simp [map, size]

/-- A change that commutes with the mapping may be made before or behind it. -/
theorem update_map {h : α → α} {h' : β → β}
    (hcomm : ∀ a, h' (g a) = g (h a)) (id : Nat) :
    (registry.map g).update id h' = (registry.update id h).map g := by
  simp only [update, map]
  refine congrArg Registry.mk (List.ext_getElem? fun i => ?_)
  simp only [List.getElem?_modify, List.getElem?_map]
  cases registry.entries[i]? <;> split <;> simp [hcomm]

end Registry

/-- The class with the line of its definition changed by a function. -/
def ClassInfo.mapLine (f : Nat → Nat) (info : ClassInfo) : ClassInfo :=
  { info with definedAt := info.definedAt.map f }

/-- The classes with the lines of their definitions changed by a
function. -/
def ClassTable.mapLines (f : Nat → Nat) (classes : ClassTable) : ClassTable :=
  classes.map (ClassInfo.mapLine f)

namespace ClassTable

variable (classes : ClassTable)

@[simp] theorem find?_mapLines (name : String) :
    (classes.mapLines f).find? name = classes.find? name :=
  classes.find?_map _ name

@[simp] theorem nameOf_mapLines (id : Nat) :
    (classes.mapLines f).nameOf id = classes.nameOf id :=
  classes.nameOf_map _ id

@[simp] theorem get?_mapLines (id : Nat) :
    (classes.mapLines f).get? id
      = (classes.get? id).map (ClassInfo.mapLine f) :=
  classes.get?_map _ id

/-- A class that is entered is not defined yet, so it has no line to change. -/
@[simp] theorem enter_mapLines (name : String) :
    enter (classes.mapLines f) name
      = ((classes.enter name).1, (classes.enter name).2.mapLines f) :=
  classes.intern_map (ClassInfo.mapLine f) name {}

/-- Changing a class in a way that leaves its line alone, or changes it
alike. -/
theorem update_mapLines {g g' : ClassInfo → ClassInfo}
    (hg : ∀ info : ClassInfo, g' (info.mapLine f) = (g info).mapLine f)
    (id : Nat) :
    Registry.update (classes.mapLines f) id g'
      = ClassTable.mapLines f (classes.update id g) :=
  Registry.update_map _ _ hg id

/-- A definition notes its line, the one place where a class gets one. -/
theorem define_mapLines (name : String) (line : Nat) :
    define (classes.mapLines f) name (f line)
      = ((classes.define name line).1,
        (classes.define name line).2.mapLines f) := by
  simp only [define, enter_mapLines]
  refine congrArg (Prod.mk _) (update_mapLines _ (fun info => ?_) _)
  simp only [ClassInfo.mapLine]
  cases info.definedAt <;> rfl

/-- Whether a class is defined does not depend on where. -/
@[simp] theorem isDefined_mapLines (name : String) :
    isDefined (classes.mapLines f) name = classes.isDefined name := by
  simp only [isDefined, find?_mapLines]
  cases classes.find? name with
  | none => rfl
  | some id =>
      simp only [Option.bind_some, get?_mapLines]
      cases classes.get? id with
      | none => rfl
      | some info => simp [ClassInfo.mapLine]

@[simp] theorem superOf?_mapLines (id : Nat) :
    superOf? (classes.mapLines f) id = classes.superOf? id := by
  simp only [superOf?, get?_mapLines]
  cases classes.get? id <;> rfl

/-- So the way along superclasses is the same, step by step. -/
theorem reaches_mapLines (ancestor steps : Nat) (id : Option Nat) :
    reaches (classes.mapLines f) ancestor steps id
      = classes.reaches ancestor steps id := by
  induction steps generalizing id with
  | zero => rfl
  | succ steps ih =>
      cases id with
      | none => rfl
      | some id => simp only [reaches, superOf?_mapLines, ih]

@[simp] theorem inherits_mapLines (id ancestor : Nat) :
    inherits (classes.mapLines f) id ancestor
      = classes.inherits id ancestor :=
  classes.reaches_mapLines _ _ _

/-- A link is made or refused alike. -/
theorem link_mapLines (id superId : Nat) :
    link (classes.mapLines f) id superId
      = ((classes.link id superId).1,
        (classes.link id superId).2.mapLines f) := by
  simp only [link, superOf?_mapLines, inherits_mapLines]
  split
  · split <;> rfl
  · split
    · rfl
    · exact congrArg (Prod.mk _) (update_mapLines (f := f)
        (g := fun info => { info with superClass := some superId })
        classes (fun _ => rfl) id)

/-- The relation between types asks for names and superclasses alone. -/
@[simp] theorem isKind_mapLines (source target : ValueType) :
    isKind (classes.mapLines f) source target
      = classes.isKind source target := by
  simp only [isKind, casts, find?_mapLines, inherits_mapLines]

end ClassTable

/-- The model with the lines of its classes changed by a function. -/
def Model.mapLines (f : Nat → Nat) (model : Model) : Model :=
  { model with classes := model.classes.mapLines f }

namespace Model

variable (model : Model)

@[simp] theorem classes_mapLines :
    (model.mapLines f).classes = model.classes.mapLines f := rfl

@[simp] theorem functions_mapLines :
    (model.mapLines f).functions = model.functions := rfl

@[simp] theorem package_mapLines :
    (model.mapLines f).package = model.package := rfl

@[simp] theorem legacy_mapLines :
    (model.mapLines f).legacy = model.legacy := rfl

/-- A field has no line; it is found by its name. -/
@[simp] theorem field?_mapLines (owner : Option Nat) (name : String) :
    (model.mapLines f).field? owner name = model.field? owner name := by
  cases owner with
  | none => rfl
  | some id =>
      simp only [field?, Option.bind_some, classes_mapLines,
        ClassTable.get?_mapLines]
      cases model.classes.get? id <;> rfl

/-- Looking up a static field does not depend on lines. -/
@[simp] theorem staticField?_mapLines (owner : Option Nat) (name : String) :
    (model.mapLines f).staticField? owner name
      = model.staticField? owner name := by
  cases owner with
  | none => rfl
  | some id =>
      simp only [staticField?, Option.bind_some, classes_mapLines,
        ClassTable.get?_mapLines]
      cases model.classes.get? id <;> rfl

/-- A change of a class that does not look at its line may be made before or
behind. -/
theorem updateClass_mapLines {g : ClassInfo → ClassInfo}
    (hg : ∀ info : ClassInfo, g (info.mapLine f) = (g info).mapLine f)
    (owner : Option Nat) :
    (model.mapLines f).updateClass owner g
      = (model.updateClass owner g).mapLines f := by
  cases owner with
  | none => rfl
  | some id =>
      exact congrArg (fun classes => { model with classes })
        (ClassTable.update_mapLines _ hg id)

@[simp] theorem addField_mapLines (owner : Option Nat) (field : Slot) :
    (model.mapLines f).updateClass owner (.addField field)
      = (model.updateClass owner (.addField field)).mapLines f :=
  updateClass_mapLines (g := .addField field) model (fun _ => rfl) owner

@[simp] theorem addStaticField_mapLines (owner : Option Nat)
    (field : Slot) :
    (model.mapLines f).updateClass owner (.addStaticField field)
      = (model.updateClass owner (.addStaticField field)).mapLines f :=
  updateClass_mapLines (g := .addStaticField field) model (fun _ => rfl)
    owner

end Model

-- ============================================================ outcomes

/-- The event with its line changed by a function. -/
def Event.mapLine (f : Nat → Nat) : Event → Event
  | .report kind line detail => .report kind (f line) detail
  | .suppress kind => .suppress kind

/-- The outcome with all its lines changed by a function. -/
def Outcome.mapLines (f : Nat → Nat) (outcome : Outcome) : Outcome :=
  ⟨outcome.model.mapLines f, outcome.events.map (Event.mapLine f)⟩

/-- The stray return with its line changed by a function. -/
def StrayReturn.mapLine (f : Nat → Nat) (stray : StrayReturn) : StrayReturn :=
  ⟨f stray.line⟩

/-- Classes without a superclass are reported on the lines of their
definitions, which have been changed. -/
theorem Model.missingSupers_mapLines (model : Model) :
    (model.mapLines f).missingSupers
      = model.missingSupers.map (Event.mapLine f) := by
  simp only [missingSupers, classes_mapLines, ClassTable.mapLines, Registry.map, List.filterMap_map,
    List.map_filterMap]
  congr 1
  funext entry
  simp only [Function.comp_apply, ClassInfo.mapLine]
  cases entry.2.definedAt with
  | none => rfl
  | some line => simp only [Option.map_some]; split <;> rfl

namespace Arena

variable (arena : Arena) (model : Model)

/-- The function around a node is the same, and is registered in the changed
model. -/
@[simp] theorem enclosingFunction?_mapLines (ref : Ref) :
    (arena.mapLines f).enclosingFunction? (model.mapLines f) ref
      = (arena.enclosingFunction? model ref).map fun found =>
        (found.1, found.2.mapLines f) := by
  simp only [enclosingFunction?, functionAround?_mapLines,
    enterFunction_mapLines, Model.functions_mapLines, Option.map_map]
  rfl

/-- The class around a node is the same, and is entered in the changed
model. -/
@[simp] theorem enclosingClass_mapLines (ref : Ref) :
    (arena.mapLines f).enclosingClass (model.mapLines f) ref
      = ((arena.enclosingClass model ref).1,
        (arena.enclosingClass model ref).2.mapLines f) := by
  simp only [enclosingClass, className?_mapLines, Model.classes_mapLines,
    ClassTable.enter_mapLines]
  split <;> rfl

variable {arena model} (hf : f 0 = 0)
include hf

/-- A finding is on the line of its node, the other place where lines go in;
where there is no node, it is on line 0. -/
theorem report_mapLines (kind : DiagnosticKind) (ref : Ref)
    (detail : Option String) :
    (arena.mapLines f).report kind ref detail
      = (arena.report kind ref detail).mapLine f := by
  simp only [report, arena.lineOf_mapLines hf, Event.mapLine]

-- ======================================================== assignments

/-- Names of classes are judged by their letters. -/
theorem checkClass_mapLines (assignment : Ref) (name : String) :
    (arena.mapLines f).checkClass (model.mapLines f) assignment name
      = (arena.checkClass model assignment name).map (Event.mapLine f) := by
  simp only [checkClass, Model.package_mapLines, docOf_mapLines,
    report_mapLines hf]
  cases model.package with
  | none => rfl
  | some package =>
      dsimp only
      rw [List.map_append]
      cases arena.docOf assignment with
      | none => split <;> rfl
      | some doc => dsimp only; split <;> split <;> rfl

/-- A prototype calls for an object and for the right place. -/
theorem checkPrototype_mapLines (assignment right : Ref) :
    (arena.mapLines f).checkPrototype (model.mapLines f) assignment right
      = (arena.checkPrototype model assignment right).mapLines f := by
  simp only [checkPrototype, isObject_mapLines, Model.legacy_mapLines,
    enclosingFunction?_mapLines, report_mapLines hf]
  cases arena.isObject right <;> cases model.legacy <;>
    cases arena.enclosingFunction? model assignment <;> rfl

/-- Whether a field may be written follows from where it has been declared, not
from the line. -/
theorem fieldUpdate_mapLines (assignment : Ref) (function : Nat)
    (owner : Option Nat) (field : String) :
    (arena.mapLines f).fieldUpdate (model.mapLines f) assignment function
        owner field
      = (arena.fieldUpdate model assignment function owner field).map
        (Event.mapLine f) := by
  simp only [fieldUpdate, Model.functions_mapLines, Model.field?_mapLines,
    report_mapLines hf]
  repeat' split
  all_goals rfl

/-- A field is declared or updated alike. -/
theorem checkInstanceField_mapLines (assignment left : Ref) :
    (arena.mapLines f).checkInstanceField (model.mapLines f) assignment left
      = (arena.checkInstanceField model assignment left).mapLines f := by
  simp only [checkInstanceField, enclosingFunction?_mapLines,
    memberName_mapLines, docOf_mapLines]
  cases arena.enclosingFunction? model assignment with
  | none => simp only [Option.map_none, report_mapLines hf]; rfl
  | some found =>
      simp only [Option.map_some, enclosingClass_mapLines,
        Model.functions_mapLines, Model.field?_mapLines,
        fieldUpdate_mapLines hf, report_mapLines hf]
      split
      · split
        · cases (arena.docOf assignment).isSome <;> rfl
        · cases arena.docOf assignment with
          | none => rfl
          | some doc => simp only [Model.addField_mapLines]; rfl
      · rfl

/-- A static field is declared alike, if that is a declaration. -/
theorem declareStatic_mapLines (assignment right : Ref)
    (owner : Option Nat) (field : String) :
    (arena.mapLines f).declareStatic (model.mapLines f) assignment right
        owner field
      = (arena.declareStatic model assignment right owner field).mapLines
        f := by
  simp only [declareStatic, form?_mapLines, docOf_mapLines,
    Model.staticField?_mapLines, report_mapLines hf]
  split
  · rfl
  · rfl
  · split
    · rfl
    · cases arena.docOf assignment with
      | none => rfl
      | some doc => simp only [Model.addStaticField_mapLines]; rfl

/-- Its update is judged alike. -/
theorem updateStatic_mapLines (assignment : Ref) (function : Nat)
    (owner : Option Nat) (name : String) :
    (arena.mapLines f).updateStatic (model.mapLines f) assignment function
        owner name
      = (arena.updateStatic model assignment function owner name).map
        (Event.mapLine f) := by
  simp only [updateStatic, Model.functions_mapLines, Model.classes_mapLines,
    ClassTable.nameOf_mapLines, Model.staticField?_mapLines,
    report_mapLines hf, List.map_append]
  congr 1
  · congr 1 <;> split <;> rfl
  · split <;> rfl

/-- Which of the two it is depends on the model. -/
theorem checkStaticField_mapLines (assignment right : Ref) (name : String) :
    (arena.mapLines f).checkStaticField (model.mapLines f) assignment right
        name
      = (arena.checkStaticField model assignment right name).mapLines f := by
  simp only [checkStaticField, enclosingClass_mapLines,
    enclosingFunction?_mapLines]
  cases arena.enclosingFunction? (arena.enclosingClass model assignment).2
      assignment with
  | none => exact declareStatic_mapLines hf ..
  | some found =>
      simp only [Option.map_some, updateStatic_mapLines hf]
      rfl

/-- A class gets the changed line of its assignment. -/
theorem defineClass_mapLines (assignment right : Ref) (name : String) :
    (arena.mapLines f).defineClass (model.mapLines f) assignment right name
      = (arena.defineClass model assignment right name).mapLines f := by
  simp only [defineClass, isFunction_mapLines, isObject_mapLines,
    Model.classes_mapLines, arena.lineOf_mapLines hf,
    ClassTable.define_mapLines]
  split <;> rfl

/-- The tests of an assignment are made in the same order with the same
answers. -/
theorem checkAssignment_mapLines (assignment left right : Ref) :
    (arena.mapLines f).checkAssignment (model.mapLines f) assignment left
        right
      = (arena.checkAssignment model assignment left right).mapLines f := by
  simp only [checkAssignment, nameOf_mapLines, isFunction_mapLines,
    isOwnMember_mapLines, defineClass_mapLines hf, checkClass_mapLines hf,
    checkPrototype_mapLines hf, checkInstanceField_mapLines hf,
    checkStaticField_mapLines hf]
  repeat' split
  all_goals rfl

-- ========================================================= directives

/-- A package is a name. -/
theorem checkPackage_mapLines (call : Ref) (arguments : List Ref) :
    (arena.mapLines f).checkPackage (model.mapLines f) call arguments
      = (arena.checkPackage model call arguments).mapLines f := by
  simp only [checkPackage, stringValue?, form?_mapLines, report_mapLines hf]
  repeat' split
  all_goals rfl

/-- What is suppressed are kinds of findings, from now on or to the end. -/
theorem checkSuppress_mapLines (call : Ref) (arguments : List Ref) :
    (arena.mapLines f).checkSuppress call arguments
      = (arena.checkSuppress call arguments).map (Event.mapLine f) := by
  simp only [checkSuppress, stringValue?, form?_mapLines,
    report_mapLines hf]
  split
  · rename_i argument
    split
    · rename_i token _
      cases DiagnosticKind.ofToken? token <;> rfl
    · rfl
  · rfl

/-- Each objection to a link is about the two classes. -/
theorem linkClasses_mapLines (call : Ref) (name superName : String) :
    (arena.mapLines f).linkClasses (model.mapLines f) call name superName
      = (arena.linkClasses model call name superName).mapLines f := by
  simp only [linkClasses, Model.classes_mapLines, ClassTable.enter_mapLines,
    ClassTable.link_mapLines, ClassTable.nameOf_mapLines,
    report_mapLines hf]
  split <;> rfl

/-- The names of the two classes are read off literals or members. -/
theorem checkExtends_mapLines (call : Ref) (arguments : List Ref) :
    (arena.mapLines f).checkExtends (model.mapLines f) call arguments
      = (arena.checkExtends model call arguments).mapLines f := by
  simp only [checkExtends, nameOf_mapLines, Model.classes_mapLines,
    ClassTable.isDefined_mapLines, linkClasses_mapLines hf,
    report_mapLines hf]
  repeat' split
  all_goals rfl

/-- A directive is known by the name of the callee. -/
theorem checkCall_mapLines (call callee : Ref) (arguments : List Ref) :
    (arena.mapLines f).checkCall (model.mapLines f) call callee arguments
      = (arena.checkCall model call callee arguments).mapLines f := by
  simp only [checkCall, nameOf_mapLines, checkPackage_mapLines hf,
    checkSuppress_mapLines hf, checkExtends_mapLines hf]
  split <;> rfl

-- ============================================================== shapes

/-- Whether parentheses are missing is a matter of form. -/
theorem checkConstruct_mapLines (construct callee : Ref) :
    (arena.mapLines f).checkConstruct construct callee
      = (arena.checkConstruct construct callee).map (Event.mapLine f) := by
  simp only [checkConstruct, nameOf_mapLines, report_mapLines hf]
  split <;> rfl

/-- Keys are judged one after the other, against those that came before. -/
theorem checkKeys_mapLines (documented : Bool) (seen : List String)
    (keys : List Ref) :
    (arena.mapLines f).checkKeys documented seen keys
      = (arena.checkKeys documented seen keys).map (Event.mapLine f) := by
  induction keys generalizing seen with
  | nil => rfl
  | cons key keys ih =>
      simp only [checkKeys, nameOf_mapLines, docOf_mapLines,
        report_mapLines hf, ih, List.map_append]
      congr 2 <;> split <;> rfl

/-- The keys of an object are judged in turn. -/
theorem checkObject_mapLines (literal : Ref) (properties : List Ref) :
    (arena.mapLines f).checkObject literal properties
      = (arena.checkObject literal properties).map (Event.mapLine f) := by
  simp only [checkObject, isClassBody, keysOf, form?_mapLines,
    parentOf_mapLines, nameOf_mapLines, checkKeys_mapLines hf]

/-- Clauses are judged by their kinds and by their last statements. -/
theorem checkSwitch_mapLines (switch : Ref) (clauses : List Ref) :
    (arena.mapLines f).checkSwitch switch clauses
      = (arena.checkSwitch switch clauses).map (Event.mapLine f) := by
  have hbreak : (arena.mapLines f).isBreak = arena.isBreak :=
    funext fun ref => by simp only [isBreak, form?_mapLines]
  have hlacks : (arena.mapLines f).lacksBreak = arena.lacksBreak :=
    funext fun ref => by simp only [lacksBreak, form?_mapLines, hbreak]
  have hdefault : (arena.mapLines f).isDefault = arena.isDefault :=
    funext fun ref => by simp only [isDefault, form?_mapLines]
  simp only [checkSwitch, hlacks, hdefault, report_mapLines hf,
    List.map_append, List.map_map]
  congr 1
  split <;> rfl

-- ============================================================== values

omit hf in
/-- What is returned has a type, or is a member whose type is looked up. -/
theorem returned_mapLines (function : Nat) (owner : Option Nat)
    (value : Ref) :
    (arena.mapLines f).returned (model.mapLines f) function owner value
      = arena.returned model function owner value := by
  simp only [returned, form?_mapLines, inferType_mapLines,
    Model.functions_mapLines, isThis_mapLines, Model.field?_mapLines,
    nameOf_mapLines, Model.classes_mapLines, ClassTable.nameOf_mapLines]

omit hf in
/-- A return is judged by types and by what the classes are to each other. -/
theorem judge_mapLines (function : Nat) (declared : ValueType)
    (returned : Returned) :
    judge (model.mapLines f) function declared returned
      = judge model function declared returned := by
  cases returned <;> simp only [judge, Model.functions_mapLines,
    Model.classes_mapLines, ClassTable.isKind_mapLines]

/-- A return that stands in no function is an error with a line, which is
changed as well. -/
theorem checkReturn_mapLines (statement value : Ref) :
    (arena.mapLines f).checkReturn (model.mapLines f) statement value
      = ((arena.checkReturn model statement value).mapError
          (StrayReturn.mapLine f)).map (Outcome.mapLines f) := by
  simp only [checkReturn, enclosingClass_mapLines,
    enclosingFunction?_mapLines]
  cases arena.enclosingFunction? (arena.enclosingClass model statement).2
      statement with
  | none => simp only [Option.map_none, arena.lineOf_mapLines hf]; rfl
  | some found =>
      simp only [Option.map_some, skipParens_mapLines, returned_mapLines,
        judge_mapLines, Model.functions_mapLines, report_mapLines hf]
      generalize judge _ _ _ _ = verdict
      cases verdict <;> rfl

omit hf in
/-- A variable becomes known to the function around it. -/
theorem declareVariable_mapLines (declaration name : Ref)
    (type : ValueType) :
    (arena.mapLines f).declareVariable (model.mapLines f) declaration name
        type
      = (arena.declareVariable model declaration name type).mapLines f := by
  simp only [declareVariable, enclosingFunction?_mapLines, nameOf_mapLines]
  cases arena.enclosingFunction? model declaration <;> rfl

/-- Its type is that of its documentation, or that of its initial value. -/
theorem checkDeclaration_mapLines (declaration name initializer : Ref) :
    (arena.mapLines f).checkDeclaration (model.mapLines f) declaration name
        initializer
      = (arena.checkDeclaration model declaration name
          initializer).mapLines f := by
  simp only [checkDeclaration, isFunction_mapLines, isOwnMember_mapLines,
    enclosingClass_mapLines, form?_mapLines, nameOf_mapLines,
    Model.field?_mapLines, inferType_mapLines, report_mapLines hf,
    declareVariable_mapLines]
  repeat' split
  all_goals simp_all [Outcome.mapLines]

-- =============================================================== nodes

/-- So every node is checked alike, whatever it is. -/
theorem checkNode_mapLines (i : Nat) :
    (arena.mapLines f).checkNode (model.mapLines f) i
      = ((arena.checkNode model i).mapError (StrayReturn.mapLine f)).map
        (Outcome.mapLines f) := by
  simp only [checkNode, form?_mapLines, checkAssignment_mapLines hf,
    checkCall_mapLines hf, checkConstruct_mapLines hf,
    checkObject_mapLines hf, checkReturn_mapLines hf,
    checkSwitch_mapLines hf, checkDeclaration_mapLines hf]
  split <;> rfl

end Arena

-- ============================================================ sessions

/-- The finding with its line changed by a function. -/
def Diagnostic.mapLine (f : Nat → Nat) (found : Diagnostic) : Diagnostic :=
  { found with line := f found.line }

/-- The sink with the lines of its findings changed by a function. -/
def Sink.mapLines (f : Nat → Nat) (sink : Sink) : Sink :=
  { sink with diagnostics := sink.diagnostics.map (Diagnostic.mapLine f) }

/-- The session with all its lines changed by a function. -/
def Session.mapLines (f : Nat → Nat) (session : Session) : Session :=
  { session with
    model := session.model.mapLines f
    sink := session.sink.mapLines f }

/-- What came of a check, with all lines changed by a function. -/
def Session.mapResult (f : Nat → Nat)
    (result : Session × Except StrayReturn (List Diagnostic)) :
    Session × Except StrayReturn (List Diagnostic) :=
  (result.1.mapLines f,
    (result.2.mapError (StrayReturn.mapLine f)).map
      (List.map (Diagnostic.mapLine f)))

/-- Where all lines are kept, so is all that came of a check. -/
theorem Session.mapResult_id
    (result : Session × Except StrayReturn (List Diagnostic)) :
    mapResult id result = result := by
  have hclasses (classes : ClassTable) : classes.mapLines id = classes := by
    simp [ClassTable.mapLines, Registry.map, ClassInfo.mapLine]
  have hfound (found : List Diagnostic) :
      found.map (Diagnostic.mapLine id) = found := by
    exact List.map_id found
  have hsession (session : Session) : session.mapLines id = session := by
    simp only [mapLines, Model.mapLines, Sink.mapLines, hclasses, hfound]
  obtain ⟨session, stray | found⟩ := result
  · exact Prod.ext (hsession session) rfl
  · exact Prod.ext (hsession session) (congrArg Except.ok (hfound found))

/-- Whether an event is dropped depends on its kind and on what is
suppressed. -/
theorem Sink.take_mapLines (sink : Sink) (event : Event) :
    (sink.mapLines f).take (event.mapLine f)
      = (sink.take event).mapLines f := by
  cases event with
  | suppress kind => rfl
  | report kind line detail =>
      simp only [Event.mapLine, take]
      rw [show (sink.mapLines f).isSuppressed kind = sink.isSuppressed kind
        from rfl]
      split
      · rfl
      · simp [mapLines, Diagnostic.mapLine, Diagnostic.of]

/-- Events are taken one after the other. -/
theorem Sink.takeAll_mapLines (sink : Sink) (events : List Event) :
    (sink.mapLines f).takeAll (events.map (Event.mapLine f))
      = (sink.takeAll events).mapLines f := by
  induction events generalizing sink with
  | nil => rfl
  | cons event events ih =>
      simp only [takeAll, List.map_cons, List.foldl_cons] at ih ⊢
      rw [take_mapLines, ih]

namespace Session

/-- A session takes over a changed outcome as a whole. -/
theorem absorb_mapLines (session : Session) (outcome : Outcome) :
    (session.mapLines f).absorb (outcome.mapLines f)
      = (session.absorb outcome).mapLines f := by
  simp only [absorb, mapLines, Outcome.mapLines, Sink.takeAll_mapLines]

variable (hf : f 0 = 0)
include hf

/-- The walk goes on or stops at the same node, since only a stray return stops
it. -/
theorem visit_mapLines (arena : Arena) (nodes : List Nat)
    (session : Session) :
    visit (arena.mapLines f) nodes (session.mapLines f)
      = ((visit arena nodes session).1.mapLines f,
        (visit arena nodes session).2.map (StrayReturn.mapLine f)) := by
  induction nodes generalizing session with
  | nil => rfl
  | cons i nodes ih =>
      have hnode : (arena.mapLines f).checkNode (session.model.mapLines f) i
          = _ := Arena.checkNode_mapLines hf i
      rw [visit, visit]
      rw [show (session.mapLines f).model = session.model.mapLines f
        from rfl, hnode]
      cases arena.checkNode session.model i with
      | error stray => rfl
      | ok outcome =>
          rw [← ih, ← absorb_mapLines]
          rfl

/-- A check is a walk between the reset and the closing reports. -/
theorem checkTree_mapLines (session : Session) (arena : Arena) (root : Ref) :
    (session.mapLines f).checkTree (arena.mapLines f) root
      = ((session.checkTree arena root).1.mapLines f,
        (session.checkTree arena root).2.map (StrayReturn.mapLine f)) := by
  simp only [checkTree, Arena.preorder_mapLines, visit_mapLines hf]
  rcases visit arena (arena.preorder root) session with ⟨after, _ | stray⟩
  · dsimp only [Option.map_none]
    rw [show (after.mapLines f).options = after.options from rfl,
      show (after.mapLines f).model = after.model.mapLines f from rfl,
      Model.missingSupers_mapLines]
    cases after.options.requireSuper with
    | false => rfl
    | true =>
        exact congrArg (fun sink => ({ after.mapLines f with sink }, none))
          (after.sink.takeAll_mapLines _)
  · rfl

omit hf in
/-- A session that begins a file knows no lines yet. -/
theorem reset_mapLines (session : Session) (file : String) :
    (session.reset file).mapLines f = session.reset file := rfl

/-- What a check answers once the tree has been gone through. -/
def conclude : Session × Option StrayReturn →
    Session × Except StrayReturn (List Diagnostic)
  | (last, some stray) => (last, .error stray)
  | (last, none) => (last.drain.1, .ok last.sink.diagnostics)

/-- What is kept of a check is what a check of the kept lines answers. -/
theorem mapResult_check {text : String} {tree : Tree}
    (h : Tree.parse text = .ok tree) (session : Session) (file : String) :
    mapResult f (session.check file text)
      = conclude ((session.reset file).checkTree
          ((Arena.ofTree (.ofText text) tree).2.mapLines f)
          (some (Arena.ofTree (.ofText text) tree).1)) := by
  rw [check_of_parse h]
  dsimp only
  rw [← reset_mapLines (f := f), checkTree_mapLines hf, reset_mapLines]
  rcases (session.reset file).checkTree _ _ with ⟨last, _ | stray⟩ <;> rfl

/-- Texts whose trees agree in what is kept of the lines are checked with
results that agree in it. -/
theorem check_of_mapPlaces {text text' : String} {tree tree' : Tree}
    (h : Tree.parse text = .ok tree) (h' : Tree.parse text' = .ok tree')
    (hsame : tree.mapPlaces (f ∘ (Text.LineMap.ofText text).lineOf)
      = tree'.mapPlaces (f ∘ (Text.LineMap.ofText text').lineOf))
    (session : Session) (file : String) :
    mapResult f (session.check file text)
      = mapResult f (session.check file text') := by
  obtain ⟨hroot, harena⟩ := Arena.mapLines_ofTree hsame
  rw [mapResult_check hf h, mapResult_check hf h', harena, hroot]

/-- What a check answers that comes to one event and ends. -/
def refuse (session : Session) (event : Event) :
    Session × Except StrayReturn (List Diagnostic) :=
  ({ session with sink := session.sink.take event }.drain.1,
    .ok (session.sink.take event).diagnostics)

omit hf in
/-- A text that is not accepted is checked by refusing it, on the line of the
error. -/
theorem check_of_error {text : String} {e : SyntaxError}
    (h : Tree.parse text = .error e) (session : Session) (file : String) :
    session.check file text
      = (session.reset file).refuse (.report .badSyntax
          ((Text.LineMap.ofText text).lineOf e.offset) e.fault.message) := by
  rw [check_eq, h]
  rfl

omit hf in
/-- A refusal has one finding, whose line is changed. -/
theorem mapResult_refuse (session : Session) (event : Event) :
    mapResult f (session.refuse event)
      = (session.mapLines f).refuse (event.mapLine f) := by
  rw [refuse, refuse, show (session.mapLines f).sink
    = session.sink.mapLines f from rfl, Sink.take_mapLines]
  rfl

omit hf in
/-- Texts that are no programs for the same reason are checked with
results that agree if the lines of the faults do. -/
theorem check_of_fault {text text' : String} {e e' : SyntaxError}
    (h : Tree.parse text = .error e) (h' : Tree.parse text' = .error e')
    (hline : f ((Text.LineMap.ofText text).lineOf e.offset)
      = f ((Text.LineMap.ofText text').lineOf e'.offset))
    (hfault : e'.fault = e.fault) (session : Session) (file : String) :
    mapResult f (session.check file text)
      = mapResult f (session.check file text') := by
  rw [check_of_error h, check_of_error h', mapResult_refuse,
    mapResult_refuse, Event.mapLine, Event.mapLine]
  simp only [hline, hfault]

end Session

end ScriptLint
