/-
Checks that depend on the shape of the text alone: `new` on a member,
the keys of object literals, and the clauses of switch statements.
-/
import ScriptLint.Check.Scope

namespace ScriptLint.Arena

-- ================================================================= new

/-- What is constructed must not be a member of a class. -/
def checkConstruct (arena : Arena) (construct callee : Ref) : List Event :=
  let name := arena.nameOf callee
  if Naming.isStaticMemberName name then
    [arena.report .notSupported construct
      s!"Can't use new operator on member [{name}]."]
  else []

-- ===================================================== object literals

/-- Whether an object literal is the body of a class: it is assigned to
a class or to a prototype. -/
def isClassBody (arena : Arena) (literal : Ref) : Bool :=
  match arena.form? (arena.parentOf literal) with
  | some (.assignment left _ _) =>
    let name := arena.nameOf left
    Naming.isPrototypeName name || Naming.isClassName name
  | _ => false

/-- The keys of an object literal. -/
def keysOf (arena : Arena) (properties : List Ref) : List Ref :=
  properties.filterMap fun property =>
    match arena.form? property with
    | some (.property key _) => some key
    | _ => none

/-- Keys must differ from those before them and, in a class body, be
documented. -/
def checkKeys (arena : Arena) (documented : Bool) :
    List String → List Ref → List Event
  | _, [] => []
  | seen, key :: keys =>
    let name := arena.nameOf key
    (if documented && (arena.docOf key).isNone then
        [arena.report .noApidoc key]
      else [])
    ++ (if seen.contains name then [arena.report .overload key] else [])
    ++ arena.checkKeys documented (name :: seen) keys

/-- An object literal. -/
def checkObject (arena : Arena) (literal : Ref) (properties : List Ref) :
    List Event :=
  arena.checkKeys (arena.isClassBody literal) [] (arena.keysOf properties)

-- =================================================== switch statements

/-- Whether a reference is a break statement. -/
def isBreak (arena : Arena) (ref : Ref) : Bool :=
  match arena.form? ref with
  | some (.breaking _) => true
  | _ => false

/-- Whether a reference is a default clause. -/
def isDefault (arena : Arena) (ref : Ref) : Bool :=
  match arena.form? ref with
  | some (.clause none _) => true
  | _ => false

/-- Whether a clause has a test but no break among its own
statements. -/
def lacksBreak (arena : Arena) (ref : Ref) : Bool :=
  match arena.form? ref with
  | some (.clause (some _) statements) => !statements.any arena.isBreak
  | _ => false

/-- A switch statement needs a default, and each case a break. -/
def checkSwitch (arena : Arena) (switch : Ref) (clauses : List Ref) :
    List Event :=
  (clauses.filter arena.lacksBreak).map (arena.report .noBreak ·)
    ++ if clauses.any arena.isDefault then []
      else [arena.report .noDefault switch]

end ScriptLint.Arena
