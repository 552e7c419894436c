/-
The functions of a program text, with their variables and declared
return types. A function is known by its name, so all anonymous
functions are one entry; the name also tells the function's role.
-/
import ScriptLint.ClassTable

namespace ScriptLint

/-- What is known about a function. -/
structure FunctionInfo where
  returnType : ValueType := .void
  /-- Parameters and local variables, in order of declaration. -/
  locals : List Slot := []
  deriving Repr, DecidableEq

namespace FunctionInfo

/-- The first variable with a name. -/
def slot? (info : FunctionInfo) (name : String) : Option Slot :=
  info.locals.find? (·.name == name)

/-- Declares one more variable. -/
def addVariable (slot : Slot) (info : FunctionInfo) : FunctionInfo :=
  { info with locals := info.locals ++ [slot] }

end FunctionInfo

/-- The functions of a program text. -/
abbrev FunctionTable := Registry FunctionInfo

namespace FunctionTable

/-- The number of a function, entered if it is new. -/
def enter (functions : FunctionTable) (name : String) :
    Nat × FunctionTable :=
  functions.intern name {}

/-- Whether the function has no name. -/
def isAnonymous (functions : FunctionTable) (id : Nat) : Bool :=
  (functions.nameOf id).isEmpty

/-- Whether the function is named like a class: its constructor. -/
def isConstructor (functions : FunctionTable) (id : Nat) : Bool :=
  Naming.isClassName (functions.nameOf id)

/-- Whether the function is a static member of a class. -/
def isStatic (functions : FunctionTable) (id : Nat) : Bool :=
  Naming.isStaticMemberName (functions.nameOf id)

/-- Whether the function is an instance method of a class. -/
def isInstance (functions : FunctionTable) (id : Nat) : Bool :=
  Naming.isPrototypeMemberName (functions.nameOf id)

end FunctionTable

end ScriptLint
