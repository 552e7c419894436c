/-
Values against their declared types: what functions return, and what
variables are initialised with.
-/
import ScriptLint.Check.Infer
import ScriptLint.Check.Scope

namespace ScriptLint

/-- A return statement outside of any function. No text that parses has
one. -/
structure StrayReturn where
  line : Nat
  deriving Repr, DecidableEq

/-- The message for a stray return in a file. -/
def StrayReturn.message (stray : StrayReturn) (file : String) : String :=
  s!"{file}:{stray.line}: return statement outside of any function"

namespace Arena

-- ============================================================= returns

/-- What a return statement gives back, as far as the type is known. -/
inductive Returned where
  /-- Nothing at all. -/
  | nothing
  /-- A value whose type only running the program would show. -/
  | computed
  /-- A member of some object, which is not followed. -/
  | untracked
  /-- A variable or field that is not declared. -/
  | undeclared (kind : DiagnosticKind)
  | typed (type : ValueType)
  deriving Repr, DecidableEq

/-- The type of a declared slot, or a finding that there is none. -/
def Returned.ofSlot (slot : Option Slot) (kind : DiagnosticKind) :
    Returned :=
  slot.elim (.undeclared kind) fun slot => .typed slot.type

/-- What the value of a return statement is, in a function and a
class. -/
def returned (arena : Arena) (model : Model) (function : Nat)
    (owner : Option Nat) (value : Ref) : Returned :=
  match arena.form? value with
  | none => .nothing
  -- only running the program would tell
  | some (.conditional ..) | some (.call ..) | some (.binary ..)
  | some (.assignment ..) => .computed
  | some (.identifier text) =>
    if text = "undefined" then .typed (arena.inferType value)
    else
      .ofSlot ((model.functions.get? function).bind (·.slot? text))
        .noVarDecl
  | some (.member object name) =>
    if arena.isThis object then
      .ofSlot (model.field? owner (arena.nameOf name)) .noFieldDecl
    else .untracked
  | some (.element ..) => .untracked
  | some .thisRef =>
    .typed (owner.elim .unknown fun id =>
      .ofName (model.classes.nameOf id))
  | some _ => .typed (arena.inferType value)

/-- Judges what is returned against the declared type. Constructors
return nothing; the undefined value goes with any type; void goes with
void alone, and every other type must be of the declared kind. -/
def judge (model : Model) (function : Nat) (declared : ValueType) :
    Returned → Option DiagnosticKind
  | .nothing => if declared = .void then none else some .badReturn
  | .computed => if declared = .void then some .badReturn else none
  | .untracked => none
  | .undeclared kind => some kind
  | .typed type =>
    if model.functions.isConstructor function && type ≠ .void then
      some .ctorReturn
    else if type = .undefined then none
    else if (type = .void ↔ declared = .void)
        ∧ model.classes.isKind type declared then none
    else some .badReturn

/-- A return statement. -/
def checkReturn (arena : Arena) (model : Model) (statement value : Ref) :
    Except StrayReturn Outcome :=
  let (owner, model) := arena.enclosingClass model statement
  match arena.enclosingFunction? model statement with
  | none => .error ⟨arena.lineOf statement⟩
  | some (function, model) =>
    -- the function has been entered by now, so its own documentation counts
    let declared :=
      ((model.functions.get? function).map (·.returnType)).getD .void
    let returned :=
      arena.returned model function owner (arena.skipParens value)
    let events := (judge model function declared returned).map
      (arena.report · statement)
    .ok { model, events := events.toList }

-- =========================================================== variables

/-- Declares a variable in the function around it. Variables at top
level belong to no function. -/
def declareVariable (arena : Arena) (model : Model)
    (declaration name : Ref) (type : ValueType) : Model :=
  match arena.enclosingFunction? model declaration with
  | none => model
  | some (function, model) =>
    let slot : Slot := { name := arena.nameOf name, type }
    { model with
      functions := model.functions.update function (.addVariable slot) }

/-- A variable declaration. A function must be declared as one; a field
of `this` lends its declared type; any other value is typed by its
shape. -/
def checkDeclaration (arena : Arena) (model : Model)
    (declaration name initializer : Ref) : Outcome :=
  if arena.isFunction initializer then
    { model, events := [arena.report .badFuncDef declaration] }
  else if arena.isOwnMember initializer then
    let (owner, model) := arena.enclosingClass model declaration
    let field := match arena.form? initializer with
      | some (.member _ field) => arena.nameOf field
      | _ => ""
    match model.field? owner field with
    | some slot =>
      { model := arena.declareVariable model declaration name slot.type }
    | none => { model, events := [arena.report .noFieldDecl declaration] }
  else
    { model := arena.declareVariable model declaration name
        (arena.inferType initializer) }

end Arena

end ScriptLint
