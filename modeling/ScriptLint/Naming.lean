/-
Naming conventions. The dialect has no syntax for classes; the shape of
a dotted name tells its role. `comp.prj.Class` is a class in a package,
`comp.prj.Class.Inner` a class within it, `comp.prj.Class.field` a static
member, `comp.prj.Class.prototype` the namespace of its instance
methods, and `comp.prj.Class.prototype.method` one of those.

A name is judged by its segments. Package segments come first and begin
with a small letter, class segments follow and begin with a capital, so
the border between the two is never in doubt.
-/
import ScriptLint.Text.CharClass
import ScriptLint.Text.Split

namespace ScriptLint.Naming

open Text

-- ==================================================== character ranges

/-- Small ASCII letters. -/
def isSmall (c : Char) : Bool := 'a' ≤ c && c ≤ 'z'

/-- Capital ASCII letters. -/
def isCapital (c : Char) : Bool := 'A' ≤ c && c ≤ 'Z'

/-- What a name segment may consist of. -/
def isNameChar (c : Char) : Bool := isLetter c || isDigit c || c == '_'

-- ============================================================ segments

/-- Whether a segment begins with a character of one sort and goes on
with any number of characters of another. -/
def isShaped (first more : Char → Bool) : List Char → Bool
  | [] => false
  | c :: cs => first c && cs.all more

/-- The first segment of a package: small letters and digits. -/
def isPackageHead : List Char → Bool :=
  isShaped isSmall fun c => isSmall c || isDigit c

/-- A further segment of a package, of at least two characters. -/
def isPackageSegment (segment : List Char) : Bool :=
  isPackageHead segment && 2 ≤ segment.length

/-- A class segment begins with a capital. -/
def isClassSegment : List Char → Bool := isShaped isCapital isNameChar

/-- A field or method segment begins with a small letter or an
underscore. -/
def isFieldSegment : List Char → Bool :=
  isShaped (fun c => isSmall c || c == '_') isNameChar

/-- A constant segment has no small letters. -/
def isConstantSegment : List Char → Bool :=
  let isConstantChar c := isCapital c || isDigit c || c == '_'
  isShaped isConstantChar isConstantChar

/-- A member segment names a field, a method or a constant. -/
def isMemberSegment (segment : List Char) : Bool :=
  isFieldSegment segment || isConstantSegment segment

/-- The segments of a dotted name. -/
def segments (name : String) : List (List Char) := pieces '.' name.toList

/-- The segment that names the instance methods of a class. -/
def prototypeSegment : List Char := "prototype".toList

-- =============================================================== paths

/-- What follows the package at the front of the segments; `none` when
there is no package. -/
def behindPackage? : List (List Char) → Option (List (List Char))
  | [] => none
  | head :: more =>
    if isPackageHead head then some (more.dropWhile isPackageSegment)
    else none

/-- A package and at least one class segment behind it. -/
def isClassPath (path : List (List Char)) : Bool :=
  match behindPackage? path with
  | some classes => !classes.isEmpty && classes.all isClassSegment
  | none => false

/-- A class path with one more segment behind it, of a given sort. -/
def isMemberPath (isMember : List Char → Bool) (path : List (List Char)) :
    Bool :=
  isClassPath path.dropLast && path.getLast?.any isMember

-- ========================================================== predicates

/-- The name of a class in its package. -/
def isClassName (name : String) : Bool := isClassPath (segments name)

/-- A package, exactly one class segment, and at most one member. -/
def isQualifiedName (name : String) : Bool :=
  match behindPackage? (segments name) with
  | some [owner] => isClassSegment owner
  | some [owner, member] => isClassSegment owner && isMemberSegment member
  | _ => false

/-- A bare capitalised word, such as `Date`: a class that the language
brings along. -/
def isNativeName (name : String) : Bool :=
  isShaped isCapital isLetter name.toList

/-- A class name with `prototype` behind it. -/
def isPrototypeName (name : String) : Bool :=
  isMemberPath (· == prototypeSegment) (segments name)

/-- An instance method of a class: a field segment behind the class
name and `prototype`. -/
def isPrototypeMemberName (name : String) : Bool :=
  let path := segments name
  isMemberPath (· == prototypeSegment) path.dropLast
    && path.getLast?.any isFieldSegment

/-- A constant by itself or as a static member of a class. -/
def isConstantName (name : String) : Bool :=
  match segments name with
  | [segment] => isConstantSegment segment
  | path => isMemberPath isConstantSegment path

/-- A field, method or constant of a class itself. -/
def isStaticMemberName (name : String) : Bool :=
  isMemberPath isMemberSegment (segments name)

-- =============================================================== parts

/-- The class of a static member: all before the last dot, nothing when
there is no dot. -/
def staticMemberClass (name : String) : String :=
  match splitLast? '.' name.toList with
  | some (owner, _) => String.ofList owner
  | none => ""

/-- The last segment of a static member's name. -/
def staticMember (name : String) : String :=
  match splitLast? '.' name.toList with
  | some (_, member) => String.ofList member
  | none => name

/-- The class of a prototype or of a prototype member: all before the
last `.prototype`, the whole name when there is none. -/
def prototypeClass (name : String) : String :=
  match beforeLast? ".prototype".toList name.toList with
  | some owner => String.ofList owner
  | none => name

/-- The class part of a function's name: static methods, prototypes and
prototype members lose their last segments; a constructor is named like
its class. -/
def classOfFunction (name : String) : String :=
  if isStaticMemberName name then staticMemberClass name
  else if isPrototypeName name || isPrototypeMemberName name then
    prototypeClass name
  else name

end ScriptLint.Naming
