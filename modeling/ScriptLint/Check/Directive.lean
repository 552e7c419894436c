/-
Directives: calls that tell the checker about the rest of the file.
`$package` names the package of its classes, `$suppress` silences a kind
of finding, `$extends` links a class to its superclass, and `$legacy`
allows prototypes to be set anywhere.
-/
import ScriptLint.Check.Scope

namespace ScriptLint.Arena

/-- The value of a string literal. -/
def stringValue? (arena : Arena) (ref : Ref) : Option String :=
  match arena.form? ref with
  | some (.string value) => some value
  | _ => none

/-- Declares the package. -/
def checkPackage (arena : Arena) (model : Model) (call : Ref)
    (arguments : List Ref) : Outcome :=
  match arguments with
  | [argument] =>
    match arena.stringValue? argument with
    | some package => { model := { model with package := some package } }
    | none => { model, events := [arena.report .badArgType call] }
  | _ =>
    { model
      events := [arena.report .badArgsCount call
        "$package pseudo-operator needs exactly one argument."] }

/-- Suppresses a kind of finding. A token that names none is ignored. -/
def checkSuppress (arena : Arena) (call : Ref) (arguments : List Ref) :
    List Event :=
  match arguments with
  | [argument] =>
    match arena.stringValue? argument with
    | some token =>
      ((DiagnosticKind.ofToken? token).map Event.suppress).toList
    | none => [arena.report .badArgType call]
  | _ =>
    [arena.report .badArgsCount call
      "$suppress pseudo-operator needs exactly one argument."]

/-- Links two classes, of which the first must be defined. -/
def linkClasses (arena : Arena) (model : Model) (call : Ref)
    (name superName : String) : Outcome :=
  let (id, classes) := model.classes.enter name
  -- both classes are entered, whether they get linked or not
  let (superId, classes) := ClassTable.enter classes superName
  let (link, classes) := ClassTable.link classes id superId
  let model := { model with classes }
  match link with
  | .linked | .unchanged => { model }
  | .circular =>
    { model
      events := [arena.report .notSupported call
        s!"Circular inheritance [{name}] -> [{superName}]."] }
  | .alreadySet existing =>
    let existingName := classes.nameOf existing
    { model
      events := [arena.report .notSupported call
        s!"Super class of [{name}] already set to [{existingName}]."] }

/-- Gives a class its superclass. Both names must be class names, and
the first class must be defined by then. -/
def checkExtends (arena : Arena) (model : Model) (call : Ref)
    (arguments : List Ref) : Outcome :=
  match arguments with
  | [subject, target] =>
    let name := arena.nameOf subject
    let superName := arena.nameOf target
    if !Naming.isClassName name then
      { model
        events := [arena.report .badClassName call
          s!"Bad subclass name format [{name}]."] }
    else if !model.classes.isDefined name then
      { model, events := [arena.report .noClassDef call] }
    else if !Naming.isClassName superName then
      { model
        events := [arena.report .badClassName call
          s!"Bad superclass name format [{superName}]."] }
    else arena.linkClasses model call name superName
  | _ =>
    { model
      events := [arena.report .badArgsCount call
        "$extends pseudo-operator needs exactly 2 arguments."] }

/-- A call: a directive by the name of what is called, else nothing. -/
def checkCall (arena : Arena) (model : Model) (call callee : Ref)
    (arguments : List Ref) : Outcome :=
  match arena.nameOf callee with
  | "$package" => arena.checkPackage model call arguments
  | "$suppress" => { model, events := arena.checkSuppress call arguments }
  | "$extends" => arena.checkExtends model call arguments
  | "$legacy" => { model := { model with legacy := true } }
  | _ => { model }

end ScriptLint.Arena
