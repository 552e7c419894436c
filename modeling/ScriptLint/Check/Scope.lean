/-
Scopes: the function and the class around a node. What is known about a
program text is kept in a model, and looking up a scope enters it there:
a function with its documented types and parameters, a class by its
name.

An anonymous function is known by what it initialises: the left side of
an assignment, or a property of an object literal that is assigned.
-/
import ScriptLint.DocTags
import ScriptLint.FunctionTable
import ScriptLint.Sink
import ScriptLint.Syntax.Arena

namespace ScriptLint

-- =============================================================== model

/-- What is known about a program text at some point of the check. -/
structure Model where
  classes : ClassTable := {}
  functions : FunctionTable := {}
  /-- The package that classes must lie in. -/
  package : Option String := none
  /-- Whether prototypes may be set anywhere. -/
  legacy : Bool := false
  deriving Repr, DecidableEq

/-- The result of checking a node. -/
structure Outcome where
  model : Model
  events : List Event := []
  deriving Repr, DecidableEq

namespace Arena

/-- A finding at a node. -/
def report (arena : Arena) (kind : DiagnosticKind) (ref : Ref)
    (detail : Option String := none) : Event :=
  .report kind (arena.lineOf ref) detail

-- =========================================================== functions

/-- The innermost function strictly above a node. -/
def functionAround? (arena : Arena) (ref : Ref) : Option Nat :=
  (arena.ancestors ref).find? fun i => arena.isFunction (some i)

/-- How a function is known. -/
structure Identity where
  /-- Its dotted name, empty for an anonymous function. -/
  name : String := ""
  /-- The comment that documents it. -/
  doc : Option String
  /-- The name from which its class is derived. -/
  basis : String := ""
  deriving Repr, DecidableEq

/-- How a function node is known. A name of its own comes first; else an
assignment lends it the name of its left side, or an assigned object
literal that name and the key behind it. -/
def identityOf (arena : Arena) (function : Nat) : Identity :=
  let own := arena.docOf (some function)
  let parent := arena.parentOf (some function)
  match arena.form? (some function), arena.form? parent with
  | some (.function (some name) _ _ _), _ =>
    let name := arena.nameOf (some name)
    { name, doc := own, basis := name }
  | _, some (.assignment left _ _) =>
    let name := arena.nameOf left
    { name, doc := arena.docOf parent, basis := name }
  | _, some (.property key _) =>
    -- above the property stands the literal, and above that the assignment
    match arena.form? (arena.parentOf (arena.parentOf parent)) with
    | some (.assignment left _ _) =>
      let basis := arena.nameOf left
      { name := s!"{basis}.{arena.nameOf key}", doc := arena.docOf key,
        basis }
    | _ => { doc := own }
  | _, _ => { doc := own }

/-- The parameters of a function node, typed by the documentation in
order of position. -/
def parametersOf (arena : Arena) (function : Nat)
    (tags : Option DocTags) : List Slot :=
  match arena.form? (some function) with
  | some (.function _ parameters _ _) =>
    parameters.zipIdx.filterMap fun (parameter, position) =>
      (arena.identifier? parameter).map fun name =>
        let type := (tags.bind (·.paramType? position)).elim .unknown .ofName
        { name, type }
  | _ => []

/-- Enters a function node into the table. Documentation sets the return
type each time; parameters are declared only when the function is
new. -/
def enterFunction (arena : Arena) (functions : FunctionTable)
    (function : Nat) : Nat × FunctionTable :=
  let identity := arena.identityOf function
  let tags := identity.doc.map DocTags.parse
  let isNew := (functions.find? identity.name).isNone
  let (id, functions) := functions.enter identity.name
  let functions := match tags with
    | some tags => functions.update id fun info =>
      { info with returnType := .ofName? tags.returnType? }
    | none => functions
  let functions :=
    if isNew then
      functions.update id fun info =>
        (arena.parametersOf function tags).foldl
          (fun info slot => info.addVariable slot) info
    else functions
  (id, functions)

/-- The function around a node, entered into the model. -/
def enclosingFunction? (arena : Arena) (model : Model) (ref : Ref) :
    Option (Nat × Model) :=
  (arena.functionAround? ref).map fun function =>
    let (id, functions) := arena.enterFunction model.functions function
    (id, { model with functions })

-- ============================================================= classes

/-- The name of the class around a node. Outside of functions only the
assignment of a static member lies in a class. -/
def className? (arena : Arena) (ref : Ref) : Option String :=
  match arena.functionAround? ref with
  | some function =>
    some (Naming.classOfFunction (arena.identityOf function).basis)
  | none =>
    match arena.form? ref with
    | some (.assignment left _ _) =>
      let name := arena.nameOf left
      if Naming.isStaticMemberName name then
        some (Naming.staticMemberClass name)
      else none
    | _ => none

/-- The class around a node, entered into the model. The empty name
stands for no class. -/
def enclosingClass (arena : Arena) (model : Model) (ref : Ref) :
    Option Nat × Model :=
  match arena.className? ref with
  | none | some "" => (none, model)
  | some name =>
    let (id, classes) := model.classes.enter name
    (some id, { model with classes })

end Arena

-- ============================================================== fields

/-- The instance field of a class, if the class is known. -/
def Model.field? (model : Model) (owner : Option Nat) (name : String) :
    Option Slot :=
  (owner.bind model.classes.get?).bind (·.field? name)

/-- The static field of a class, if the class is known. -/
def Model.staticField? (model : Model) (owner : Option Nat)
    (name : String) : Option Slot :=
  (owner.bind model.classes.get?).bind (·.staticField? name)

/-- Changes a class, if there is one. -/
def Model.updateClass (model : Model) (owner : Option Nat)
    (f : ClassInfo → ClassInfo) : Model :=
  match owner with
  | some id => { model with classes := model.classes.update id f }
  | none => model

end ScriptLint
