/-
Settings of the log, which come from the environment.
-/
import ScriptLint.Text.CharClass

namespace ScriptLint

/-- The layouts of a log. -/
inductive LogFormat where
  | text
  /-- One indented block for each file. -/
  | tree
  /-- One object for each event. -/
  | json
  deriving Repr, DecidableEq

/-- The layout of a given name, whose case and surrounding white space do
not matter. A name that is not known means text. -/
def LogFormat.ofName (name : String) : LogFormat :=
  let front := name.toList.dropWhile Text.isWhiteSpace
  let trimmed := (front.reverse.dropWhile Text.isWhiteSpace).reverse
  match String.ofList (trimmed.map Char.toLower) with
  | "tree" => .tree
  | "json" => .json
  | _ => .text

/-- What is logged, and how. -/
structure LogSettings where
  directives : String
  format : LogFormat
  deriving Repr, DecidableEq

/-- The settings for the variables of the environment. `own` takes
precedence over `common`; without either, nothing is logged. -/
def LogSettings.ofVariables? (own common format : Option String) :
    Option LogSettings :=
  (own <|> common).map fun directives =>
    { directives, format := format.elim .text LogFormat.ofName }

end ScriptLint
