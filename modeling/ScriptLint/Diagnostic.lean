/-
What the checker can report. Every kind of finding has a fixed message
and a token by which a program text can suppress it; a finding is a kind
at a line of a file, with an optional detail sentence behind the
message.
-/

namespace ScriptLint

/-- The kinds of findings. -/
inductive DiagnosticKind where
  | badSyntax
  | globalAssign
  | constAssign
  | notSupported
  | badArgsCount
  | badClassPackage
  | badClassName
  | badArgType
  | badReturn
  | badBodyDef
  | badFuncDef
  | badRvalue
  | badThis
  | ctorReturn
  | ctorStatic
  | ctorUnmarked
  | badApidoc
  | noApidoc
  | noPackageDef
  | noClassDef
  | noFieldDecl
  | noVarDecl
  | noSuper
  | overload
  | noBreak
  | noDefault
  deriving Repr, DecidableEq

namespace DiagnosticKind

/-- All kinds, in the order of the catalog. -/
def all : List DiagnosticKind :=
  [.badSyntax, .globalAssign, .constAssign, .notSupported, .badArgsCount,
   .badClassPackage, .badClassName, .badArgType, .badReturn, .badBodyDef,
   .badFuncDef, .badRvalue, .badThis, .ctorReturn, .ctorStatic,
   .ctorUnmarked, .badApidoc, .noApidoc, .noPackageDef, .noClassDef,
   .noFieldDecl, .noVarDecl, .noSuper, .overload, .noBreak, .noDefault]

/-- The name by which a program text suppresses the kind. -/
def token : DiagnosticKind → String
  | .badSyntax => "BAD_SYNTAX"
  | .globalAssign => "GLOBAL_ASSIGN"
  | .constAssign => "CONST_ASSIGN"
  | .notSupported => "NOT_SUPPORTED"
  | .badArgsCount => "BAD_ARGS_COUNT"
  | .badClassPackage => "BAD_CLASS_PACKAGE"
  | .badClassName => "BAD_CLASS_NAME"
  | .badArgType => "BAD_ARG_TYPE"
  | .badReturn => "BAD_RETURN"
  | .badBodyDef => "BAD_BODY_DEF"
  | .badFuncDef => "BAD_FUNC_DEF"
  | .badRvalue => "BAD_RVALUE"
  | .badThis => "BAD_THIS"
  | .ctorReturn => "CTOR_RETURN"
  | .ctorStatic => "CTOR_STATIC"
  | .ctorUnmarked => "CTOR_ANNOTATION"
  | .badApidoc => "BAD_APIDOC"
  | .noApidoc => "NO_APIDOC"
  | .noPackageDef => "NO_PACKAGE_DEF"
  | .noClassDef => "NO_CLASS_DEF"
  | .noFieldDecl => "NO_FIELD_DECL"
  | .noVarDecl => "NO_VAR_DECL"
  | .noSuper => "NO_SUPER"
  | .overload => "OVERLOAD"
  | .noBreak => "NO_BREAK"
  | .noDefault => "NO_DEFAULT"

/-- The fixed message, without its full stop. -/
def message : DiagnosticKind → String
  | .badSyntax => "Bad syntax"
  | .globalAssign => "Global assignment"
  | .constAssign => "Assignment to constant"
  | .notSupported => "Operation not supported"
  | .badArgsCount => "Bad arguments count"
  | .badClassPackage => "Bad class package"
  | .badClassName => "Bad class name"
  | .badArgType => "Bad argument type"
  | .badReturn => "Return type does not match declaration"
  | .badBodyDef => "Bad class body definition"
  | .badFuncDef => "Bad function definition"
  | .badRvalue => "Bad right value"
  | .badThis => "Invalid this pointer usage"
  | .ctorReturn => "Return value from constructor"
  | .ctorStatic => "Can't access static member from constructor"
  | .ctorUnmarked => "Missing constructor annotation"
  | .badApidoc => "Unexpected API documentation"
  | .noApidoc => "Missing API documentation"
  | .noPackageDef => "Missing package definition"
  | .noClassDef => "Missing class definition"
  | .noFieldDecl => "Missing field declaration"
  | .noVarDecl => "Missing variable declaration"
  | .noSuper => "Missing super class"
  | .overload => "Member overloading"
  | .noBreak => "Switch clause with no break statement"
  | .noDefault => "Switch statement with missing default clause"

/-- The kind with the given token. Tokens are case sensitive. -/
def ofToken? (token : String) : Option DiagnosticKind :=
  all.find? fun kind => kind.token == token

/-- Only a text that cannot be parsed is an error; every finding about a
parsed text is a warning. -/
def isError : DiagnosticKind → Bool
  | .badSyntax => true
  | _ => false

/-- The message with its full stop, and the detail behind it. -/
def describe (kind : DiagnosticKind) : Option String → String
  | some detail => s!"{kind.message}. {detail}"
  | none => s!"{kind.message}."

end DiagnosticKind

/-- A finding: its kind, the file and line (from 1) it is about, and the
text shown for it. -/
structure Diagnostic where
  kind : DiagnosticKind
  file : String
  line : Nat
  text : String
  deriving Repr, DecidableEq

/-- The finding of a kind, described with its detail. -/
def Diagnostic.of (kind : DiagnosticKind) (file : String) (line : Nat)
    (detail : Option String) : Diagnostic :=
  { kind, file, line, text := kind.describe detail }

end ScriptLint
