/-
The types of values: a fixed set of built-in types and one type for each
class name. A type is known by its name alone; nothing is said here
about which classes exist.
-/

namespace ScriptLint

/-- A type. -/
inductive ValueType where
  | void
  | undefined
  | null
  | string
  | number
  | boolean
  | object
  | array
  | regExp
  | function
  | unknown
  /-- A class, of the language or of the dialect. -/
  | ofClass (name : String)
  deriving Repr, DecidableEq

namespace ValueType

/-- The type with the given name. Names are case sensitive: `void` names
a class. -/
def ofName : String → ValueType
  | "Void" => .void
  | "Undefined" => .undefined
  | "Null" => .null
  | "String" => .string
  | "Number" => .number
  | "Boolean" => .boolean
  | "Object" => .object
  | "Array" => .array
  | "RegExp" => .regExp
  | "Function" => .function
  | "Unknown" => .unknown
  | name => .ofClass name

/-- The type that a documentation comment names; void when it names
none. -/
def ofName? (name : Option String) : ValueType := name.elim .void ofName

/-- The name of the type. -/
def name : ValueType → String
  | .void => "Void"
  | .undefined => "Undefined"
  | .null => "Null"
  | .string => "String"
  | .number => "Number"
  | .boolean => "Boolean"
  | .object => "Object"
  | .array => "Array"
  | .regExp => "RegExp"
  | .function => "Function"
  | .unknown => "Unknown"
  | .ofClass name => name

/-- Whether values of the type are objects: those of classes, of the
general object type, and of no known type. -/
def isObject : ValueType → Bool
  | .object | .unknown | .ofClass _ => true
  | _ => false

end ValueType

end ScriptLint
