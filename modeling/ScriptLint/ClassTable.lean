/-
The classes of a program text, with their fields and superclasses. A
class is entered when it is first mentioned and defined when something
is assigned to its name. Superclasses are set once; a link that would
close a circle is refused, as far as a walk of limited length along the
superclasses can tell.
-/
import ScriptLint.Naming
import ScriptLint.Registry
import ScriptLint.ValueType

namespace ScriptLint

/-- A field of a class, or a variable of a function. -/
structure Slot where
  name : String
  type : ValueType
  deriving Repr, DecidableEq

/-- What is known about a class. -/
structure ClassInfo where
  superClass : Option Nat := none
  fields : List Slot := []
  staticFields : List Slot := []
  /-- The line of the first assignment that defines the class. -/
  definedAt : Option Nat := none
  deriving Repr, DecidableEq

namespace ClassInfo

/-- The instance field with a name. -/
def field? (info : ClassInfo) (name : String) : Option Slot :=
  info.fields.find? (·.name == name)

/-- The static field with a name. -/
def staticField? (info : ClassInfo) (name : String) : Option Slot :=
  info.staticFields.find? (·.name == name)

/-- Declares one more instance field. -/
def addField (field : Slot) (info : ClassInfo) : ClassInfo :=
  { info with fields := info.fields ++ [field] }

/-- Declares one more static field. -/
def addStaticField (field : Slot) (info : ClassInfo) : ClassInfo :=
  { info with staticFields := info.staticFields ++ [field] }

end ClassInfo

/-- The classes of a program text. -/
abbrev ClassTable := Registry ClassInfo

/-- What became of the wish to link a class to a superclass. -/
inductive SuperLink where
  | linked
  /-- The class has that superclass already. -/
  | unchanged
  /-- The class would be its own ancestor. -/
  | circular
  /-- The class has another superclass already. -/
  | alreadySet (existing : Nat)
  deriving Repr, DecidableEq

namespace ClassTable

-- ============================================================= entries

/-- The number of a class, entered if it is new. -/
def enter (classes : ClassTable) (name : String) : Nat × ClassTable :=
  classes.intern name {}

/-- Enters a class as defined at a line. An earlier line is kept. -/
def define (classes : ClassTable) (name : String) (line : Nat) :
    Nat × ClassTable :=
  let (id, classes) := classes.enter name
  (id, classes.update id fun info =>
    { info with definedAt := info.definedAt.or (some line) })

/-- Whether the class with a name is defined. -/
def isDefined (classes : ClassTable) (name : String) : Bool :=
  ((classes.find? name).bind classes.get?).any (·.definedAt.isSome)

/-- The class that all others descend from. -/
def rootName : String := "js.lang.Object"

/-- Whether a class comes with the language or is the root: such classes
need no superclass. -/
def isNative (name : String) : Bool :=
  Naming.isNativeName name || name == rootName

-- ========================================================= inheritance

/-- The superclass of a class. -/
def superOf? (classes : ClassTable) (id : Nat) : Option Nat :=
  (classes.get? id).bind ClassInfo.superClass

/-- Whether a class is among the first `steps` of the classes that begin
with `id` and go on from superclass to superclass. -/
def reaches (classes : ClassTable) (ancestor : Nat) :
    Nat → Option Nat → Bool
  | 0, _ => false
  | _, none => false
  | steps + 1, some id =>
    id == ancestor || classes.reaches ancestor steps (classes.superOf? id)

/-- How many classes a walk along superclasses looks at. -/
def maxDepth : Nat := 256

/-- Whether a class is another one or descends from it. -/
def inherits (classes : ClassTable) (id ancestor : Nat) : Bool :=
  classes.reaches ancestor maxDepth (some id)

/-- Links a class to a superclass, unless it has one or would become its
own ancestor. -/
def link (classes : ClassTable) (id superId : Nat) :
    SuperLink × ClassTable :=
  match classes.superOf? id with
  | some existing =>
    if existing = superId then (.unchanged, classes)
    else (.alreadySet existing, classes)
  | none =>
    if classes.inherits superId id then (.circular, classes)
    else
      (.linked, classes.update id fun info =>
        { info with superClass := some superId })

-- =============================================================== casts

/-- Whether values of one type may stand where another is declared. Null
goes wherever a value is; objects go along superclasses, and all of them
to the general object type; a few simple values go to Boolean. -/
def casts (classes : ClassTable) (source target : ValueType) : Bool :=
  if source = .null then target ≠ .void
  else if source = target then true
  else if source.isObject && target.isObject then
    if target = .object then true
    else
      match classes.find? source.name, classes.find? target.name with
      | some id, some ancestor => classes.inherits id ancestor
      | _, _ => false
  else
    target = .boolean
      && (source = .undefined || source = .string || source = .number)

/-- Whether one type is another or casts to it. -/
def isKind (classes : ClassTable) (source target : ValueType) : Bool :=
  source = target || classes.casts source target

end ClassTable

end ScriptLint
