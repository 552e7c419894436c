/-
Assignments, which declare most things of the dialect. The name on the
left tells what is assigned, in this order: a class, the prototype of a
class, a field of `this`, a static field.
-/
import ScriptLint.Check.Scope

namespace ScriptLint.Arena

-- ================================================ classes and prototypes

/-- A class must lie in the declared package and be documented as a
constructor. -/
def checkClass (arena : Arena) (model : Model) (assignment : Ref)
    (name : String) : List Event :=
  match model.package with
  | none => [arena.report .noPackageDef assignment]
  | some package =>
    let inPackage := (package ++ ".").toList.isPrefixOf name.toList
    (if inPackage then [] else [arena.report .badClassPackage assignment])
      ++ match arena.docOf assignment with
        | none => [arena.report .noApidoc assignment]
        | some doc =>
          if (DocTags.parse doc).hasConstructor then []
          else [arena.report .ctorUnmarked assignment]

/-- A prototype is an object literal, set outside of functions unless
the file is in legacy mode. -/
def checkPrototype (arena : Arena) (model : Model) (assignment right : Ref) :
    Outcome :=
  let events :=
    if arena.isObject right then []
    else [arena.report .badRvalue assignment]
  if model.legacy then { model, events }
  else
    match arena.enclosingFunction? model assignment with
    | none => { model, events }
    | some (_, model) =>
      { model, events := events ++ [arena.report .badBodyDef assignment] }

-- ===================================================== instance fields

/-- The name of the member that a reference stands for. -/
def memberName (arena : Arena) (ref : Ref) : String :=
  match arena.form? ref with
  | some (.member _ name) => arena.nameOf name
  | _ => ""

/-- A later assignment to a field of `this`: not from a static or
anonymous function, only to a declared field, and never to a
constant. -/
def fieldUpdate (arena : Arena) (model : Model) (assignment : Ref)
    (function : Nat) (owner : Option Nat) (field : String) : List Event :=
  if model.functions.isStatic function then
    [arena.report .badThis assignment
      "Assignment to static field using this pointer."]
  else if model.functions.isAnonymous function then
    [arena.report .badThis assignment
      "Attempt to use this pointer as lvalue in anonymous function."]
  else if (model.field? owner field).isNone then
    [arena.report .noFieldDecl assignment
      "Instance field must be declared in constructor."]
  else if Naming.isConstantName field then
    [arena.report .constAssign assignment]
  else []

/-- An assignment to a field of `this`. In a constructor the first one
declares the field and is documented with its type; later ones, there
and in methods, are not documented in a constructor and only update. -/
def checkInstanceField (arena : Arena) (model : Model)
    (assignment left : Ref) : Outcome :=
  match arena.enclosingFunction? model assignment with
  | none =>
    { model
      events := [arena.report .badThis assignment
        "Attempt to use this pointer as lvalue in global space."] }
  | some (function, model) =>
    let field := arena.memberName left
    let (owner, model) := arena.enclosingClass model assignment
    let doc := arena.docOf assignment
    let update := arena.fieldUpdate model assignment function owner field
    -- fields are declared in constructors; anywhere else an assignment is an
    -- update
    if model.functions.isConstructor function then
      if (model.field? owner field).isSome then
        let misplaced :=
          if doc.isSome then [arena.report .badApidoc assignment] else []
        { model, events := misplaced ++ update }
      else
        match doc with
        | none =>
          { model
            events := [arena.report .noApidoc assignment
              "Missing type annotation for field declaration."] }
        | some doc =>
          let type := .ofName? (DocTags.parse doc).type?
          { model := model.updateClass owner (.addField ⟨field, type⟩) }
    else { model, events := update }

-- ======================================================= static fields

/-- A static field at top level: declared by its first assignment, which
documents its type and gives it a plain value. -/
def declareStatic (arena : Arena) (model : Model) (assignment right : Ref)
    (owner : Option Nat) (field : String) : Outcome :=
  match arena.form? right with
  | some (.construct ..) =>
    { model
      events := [arena.report .badRvalue assignment
        "Can't initialize static field using new operator."] }
  | some (.call ..) =>
    { model
      events := [arena.report .badRvalue assignment
        "Can't initialize static field from function call."] }
  | _ =>
    -- a field that is there already is left alone, even if it is a constant
    if owner.isNone || (model.staticField? owner field).isSome then
      { model }
    else
      match arena.docOf assignment with
      | some doc =>
        let type := .ofName? (DocTags.parse doc).type?
        { model := model.updateClass owner (.addStaticField ⟨field, type⟩) }
      | none =>
        { model
          events := [arena.report .noApidoc assignment
            "Missing type annotation for field declaration."] }

/-- A static field in a function: not in a constructor, declared if it
belongs to the class around, and not a constant. -/
def updateStatic (arena : Arena) (model : Model) (assignment : Ref)
    (function : Nat) (owner : Option Nat) (name : String) : List Event :=
  let field := Naming.staticMember name
  let isOwn := owner.any fun id =>
    model.classes.nameOf id == Naming.staticMemberClass name
  (if model.functions.isConstructor function then
      [arena.report .ctorStatic assignment]
    else [])
  ++ (if isOwn && (model.staticField? owner field).isNone then
      [arena.report .noFieldDecl assignment]
    else [])
  ++ (if Naming.isConstantName name then
      [arena.report .constAssign assignment]
    else [])

/-- An assignment to a static field. -/
def checkStaticField (arena : Arena) (model : Model)
    (assignment right : Ref) (name : String) : Outcome :=
  let (owner, model) := arena.enclosingClass model assignment
  match arena.enclosingFunction? model assignment with
  | none =>
    arena.declareStatic model assignment right owner
      (Naming.staticMember name)
  | some (function, model) =>
    { model
      events := arena.updateStatic model assignment function owner name }

-- ========================================================= assignments

/-- Enters the class that an assignment defines: one whose name is given
a function or an object literal. -/
def defineClass (arena : Arena) (model : Model) (assignment right : Ref)
    (name : String) : Model :=
  if Naming.isClassName name
      && (arena.isFunction right || arena.isObject right) then
    { model with
      classes :=
        (model.classes.define name (arena.lineOf assignment)).2 }
  else model

/-- An assignment, by the role of the name on its left. Functions are
not checked as values of fields. -/
def checkAssignment (arena : Arena) (model : Model)
    (assignment left right : Ref) : Outcome :=
  let name := arena.nameOf left
  let isFunction := arena.isFunction right
  let model := arena.defineClass model assignment right name
  -- roles are told by names before a member of `this` is looked for
  if Naming.isClassName name && isFunction then
    { model, events := arena.checkClass model assignment name }
  else if Naming.isPrototypeName name then
    arena.checkPrototype model assignment right
  else if arena.isOwnMember left then
    if isFunction then { model }
    else arena.checkInstanceField model assignment left
  else if Naming.isStaticMemberName name && !isFunction then
    arena.checkStaticField model assignment right name
  else { model }

end ScriptLint.Arena
