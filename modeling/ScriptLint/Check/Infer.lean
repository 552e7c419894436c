/-
Types read off the shape of an expression. Nothing is computed: a
literal has its type, `new` that of its class, a call that of the class
whose static member it seems to be; operators that need the types of
their operands have none that is known.
-/
import ScriptLint.Naming
import ScriptLint.Syntax.Arena
import ScriptLint.ValueType

namespace ScriptLint

/-- The type of a call by the name of what is called. A member that
begins with a small letter is a static method of the class before it,
anything else a class used as a function. -/
def ValueType.ofCall (callee : String) : ValueType :=
  match Text.splitLast? '.' callee.toList with
  | none => .unknown
  | some (owner, member) =>
    if member.head?.any Text.isLowercase then .ofName (String.ofList owner)
    else .ofName callee

/-- The type of a unary operation by its operator. -/
def ValueType.ofUnary : TokenKind → ValueType
  | .punctuator .bang | .keyword .deleteWord => .boolean
  | .keyword .typeofWord => .string
  | .keyword .voidWord => .undefined
  | .punctuator .minus | .punctuator .plus | .punctuator .tilde
  | .punctuator .plusPlus | .punctuator .minusMinus => .number
  | _ => .unknown

/-- The type of an expression; void where there is none. -/
def Arena.inferType (arena : Arena) (ref : Ref) : ValueType :=
  if ref.isNone then .void
  else
    let value := arena.skipParens ref
    match arena.form? value with
    | some (.construct callee _) =>
      let name := arena.nameOf callee
      if name.isEmpty then .unknown else .ofName name
    | some (.call callee _) => .ofCall (arena.nameOf callee)
    | some (.identifier text) =>
      if text.toList.map Char.toLower = "undefined".toList then .undefined
      else .unknown
    | some (.member _ _) =>
      let name := arena.nameOf value
      if Naming.isStaticMemberName name then
        .ofName (Naming.staticMemberClass name)
      else .unknown
    | some (.string _) => .string
    | some (.number _) => .number
    | some (.boolean _) => .boolean
    | some .null => .null
    | some (.object _) => .object
    | some (.function ..) => .function
    | some (.array _) => .array
    | some (.regex _) => .regExp
    | some (.unary operator _ _) => .ofUnary operator
    | _ => .unknown

end ScriptLint
