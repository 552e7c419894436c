/-
The forms of syntax nodes: the kinds of expressions and statements of
the dialect, each with its own data and a slot for every child. A form
does not fix what stands in the slots: in a tree it is a subtree or
nothing, in an arena the number of a node or nothing.
-/
import ScriptLint.Token.Kind

namespace ScriptLint

/-- One node of the syntax, with children of type `ι`. -/
inductive Form (ι : Type) where
  | file (statements : List ι)
  -- Primary expressions.
  | identifier (text : String)
  | thisRef
  | string (value : String)
  | number (text : String)
  | regex (text : String)
  | boolean (value : Bool)
  | null
  /-- An array literal; a hole in it is an absent element. -/
  | array (elements : List ι)
  | object (properties : List ι)
  | property (name initializer : ι)
  /-- A function declaration or expression; an anonymous one has no
  name. -/
  | function (name : ι) (parameters : List ι) (body : ι)
    (isDeclaration : Bool)
  -- Compound expressions.
  | member (owner name : ι)
  | element (owner index : ι)
  | call (callee : ι) (arguments : List ι)
  | construct (callee : ι) (arguments : List ι)
  /-- A unary operator before its operand when `leading`, else behind
  it. -/
  | unary (operator : TokenKind) (operand : ι) (leading : Bool)
  /-- A binary operator, the comma among them. -/
  | binary (left : ι) (operator : TokenKind) (right : ι)
  /-- A plain or compound assignment. -/
  | assignment (left : ι) (operator : TokenKind) (right : ι)
  | conditional (condition whenTrue whenFalse : ι)
  | paren (inner : ι)
  -- Statements.
  | block (statements : List ι)
  | declarations (items : List ι)
  | declaration (name initializer : ι)
  | expression (value : ι)
  | branch (condition consequent alternative : ι)
  | forLoop (initializer condition step body : ι)
  | forIn (target subject body : ι)
  | whileLoop (condition body : ι)
  | doWhile (body condition : ι)
  | returning (value : ι)
  | breaking (label : ι)
  | continuing (label : ι)
  | throwing (value : ι)
  | trying (body caught handler cleanup : ι)
  | switch (subject : ι) (clauses : List ι)
  /-- A clause of a switch statement; the default clause has no test. -/
  | clause (test : ι) (statements : List ι)
  | labeled (label statement : ι)
  /-- A lone semicolon or a debugger statement. -/
  | empty
  deriving Repr, DecidableEq

/-- The slots of a form, in source order. -/
def Form.slots {ι : Type} : Form ι → List ι
  | .file statements | .block statements => statements
  | .identifier _ | .thisRef | .string _ | .number _ | .regex _
  | .boolean _ | .null | .empty => []
  | .array elements => elements
  | .object properties => properties
  | .property name initializer => [name, initializer]
  | .function name parameters body _ => name :: parameters ++ [body]
  | .member owner name => [owner, name]
  | .element owner index => [owner, index]
  | .call callee arguments | .construct callee arguments =>
    callee :: arguments
  | .unary _ operand _ => [operand]
  | .binary left _ right | .assignment left _ right => [left, right]
  | .conditional condition whenTrue whenFalse =>
    [condition, whenTrue, whenFalse]
  | .paren inner => [inner]
  | .declarations items => items
  | .declaration name initializer => [name, initializer]
  | .expression value | .returning value | .throwing value => [value]
  | .branch condition consequent alternative =>
    [condition, consequent, alternative]
  | .forLoop initializer condition step body =>
    [initializer, condition, step, body]
  | .forIn target subject body => [target, subject, body]
  | .whileLoop condition body => [condition, body]
  | .doWhile body condition => [body, condition]
  | .breaking label | .continuing label => [label]
  | .trying body caught handler cleanup =>
    [body, caught, handler, cleanup]
  | .switch subject clauses => subject :: clauses
  | .clause test statements => test :: statements
  | .labeled label statement => [label, statement]

/-- The children of a form with optional slots: those that are there, in
source order. -/
def Form.children {ι : Type} (form : Form (Option ι)) : List ι :=
  form.slots.filterMap id

end ScriptLint
