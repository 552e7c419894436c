/-
Expressions. Every construct that can nest in itself is parsed through a
`Grammar`, the parsers for what may stand one nesting level further in;
the parsers defined here work for any such grammar. Closing the loop, and
bounding the depth at the same time, is left to the statements, which
also occur inside expressions, as function bodies.

Binary operators are parsed by their precedence: an operand is extended
to the right as long as an operator follows that binds more tightly than
the one on its left.
-/
import ScriptLint.Parse.Basic

namespace ScriptLint

-- ============================================================= grammar

/-- What encloses a statement: a function body, and within it a loop and
a switch statement. Jumps never leave a function body. -/
structure Surroundings where
  inFunction : Bool := false
  inLoop : Bool := false
  inSwitch : Bool := false
  deriving Repr, DecidableEq

/-- The parsers for constructs one nesting level further in. The flag
`noIn` excludes the operator `in`, as the head of a for statement
needs. -/
structure Grammar where
  /-- An assignment expression: any expression without a comma. -/
  assignment (noIn : Bool) : Parse Tree
  /-- The right operand of an operator of precedence `above`. -/
  operand (above : Nat) (noIn : Bool) : Parse Tree
  /-- The operand of a leading unary operator. -/
  unary : Parse Tree
  /-- What `new` constructs: members without calls. -/
  callee : Parse Tree
  statement (surroundings : Surroundings) : Parse Tree

namespace Parse

-- ======================================================= simple pieces

/-- An identifier, or also a keyword where `orKeyword` allows. -/
def name (orKeyword : Bool) : Parse Tree := do
  let token ← look (·.token)
  if token.kind == .identifier || (orKeyword && token.kind.isKeyword) then
    advance
    finish token.start (.identifier token.value)
  else fail .expectedIdentifier

/-- The literal that the current token is: a string, a number, or else a
regular expression. -/
def literal : Parse Tree := do
  let token ← look (·.token)
  if token.isOpen then fail .expectedExpression
  else
    advance
    finish token.start
      (match token.kind with
        | .string => .string token.value
        | .number => .number token.value
        | _ => .regex token.value)

/-- A single token that is an expression by itself. -/
def atom (form : Form (Option Tree)) : Parse Tree := do
  let start ← here
  advance
  finish start form

/-- Reads the current slash as the start of a regular expression. -/
def enterRegex : Parse Unit :=
  modify fun cursor => { cursor with lexeme := cursor.lexeme.asRegex }

/-- Whether a tree may stand on the left of an assignment, parentheses
or not. A call may. -/
def isTarget : Tree → Bool
  | .node _ _ _ (.paren (some inner)) => isTarget inner
  | .node _ _ _ (.identifier _) | .node _ _ _ (.member _ _)
  | .node _ _ _ (.element _ _) | .node _ _ _ (.call _ _) => true
  | _ => false

end Parse

namespace Grammar

open Parse

-- ==================================================== whole expressions

/-- An expression: assignment expressions with commas between them. -/
def expression (g : Grammar) (noIn : Bool) : Parse Tree := do
  let start ← here
  let first ← g.assignment noIn
  iterate
    (fun left => do
      if ← accept Punctuator.comma then
        let right ← g.assignment noIn
        let both ← finish start
          (.binary (some left) Punctuator.comma (some right))
        return some both
      else return none)
    first

/-- The arguments of a call in their parentheses. -/
def arguments (g : Grammar) : Parse (List (Option Tree)) := do
  expect Punctuator.openParen
  let arguments ←
    if ← isAt Punctuator.closeParen then pure []
    else separated (g.assignment false)
  expect Punctuator.closeParen
  return arguments.map some

-- ============================================================ functions

/-- Statements up to a closing brace, a case, a default or the end. -/
def statements (g : Grammar) (surroundings : Surroundings) :
    Parse (List (Option Tree)) :=
  many do
    match ← look Cursor.kind with
    | .punctuator .closeBrace | .keyword .caseWord
    | .keyword .defaultWord | .endOfText => return none
    | _ => return some (some (← g.statement surroundings))

/-- Statements in braces. -/
def block (g : Grammar) (surroundings : Surroundings) : Parse Tree := do
  let start ← here
  expect Punctuator.openBrace
  let statements ← g.statements surroundings
  expect Punctuator.closeBrace
  finish start (.block statements)

/-- A function from its keyword on. A declaration needs a name. -/
def function (g : Grammar) (isDeclaration : Bool) : Parse Tree := do
  let start ← here
  expect Keyword.functionWord
  let name ←
    if isDeclaration then some <$> name false
    else if ← isAt .identifier then some <$> name false
    else pure none
  expect Punctuator.openParen
  let parameters ←
    if ← isAt Punctuator.closeParen then pure []
    else separated (Parse.name false)
  expect Punctuator.closeParen
  let body ← g.block { inFunction := true }
  finish start
    (.function name (parameters.map some) (some body) isDeclaration)

-- ============================================================= literals

/-- An array literal. Each comma without an element in front of it is a
hole; a comma behind the last element is not. -/
def array (g : Grammar) : Parse Tree := do
  let start ← here
  expect Punctuator.openBracket
  let elements ← iterate
    (fun (done, more) => do
      if !more || (← isAt Punctuator.closeBracket) then return none
      else if ← accept Punctuator.comma then
        return some (none :: done, true)
      else
        let element ← g.assignment false
        let more ← accept Punctuator.comma
        return some (some element :: done, more))
    (([] : List (Option Tree)), true)
  expect Punctuator.closeBracket
  finish start (.array elements.1.reverse)

/-- A property of an object literal. The documentation comment in front
of it belongs to the key. -/
def property (g : Grammar) : Parse Tree := do
  let token ← look (·.token)
  let key ← match token.kind with
    | .string | .number => literal
    | _ => name true
  let isAccessor := match key.identifier? with
    | some "get" | some "set" => true
    | _ => false
  if isAccessor && !(← isAt Punctuator.colon) then
    failAt token.start .accessorProperty
  else
    expect Punctuator.colon
    let value ← g.assignment false
    finish token.start
      (.property (some (key.withDoc token.doc)) (some value))

/-- An object literal. A comma may stand behind the last property. -/
def object (g : Grammar) : Parse Tree := do
  let start ← here
  expect Punctuator.openBrace
  let properties ← iterate
    (fun (done, more) => do
      if !more || (← isAt Punctuator.closeBrace) then return none
      else
        let property ← g.property
        let more ← accept Punctuator.comma
        return some (some property :: done, more))
    (([] : List (Option Tree)), true)
  expect Punctuator.closeBrace
  finish start (.object properties.1.reverse)

/-- An expression that no operator, member or call extends. -/
def primary (g : Grammar) : Parse Tree := do
  let token ← look (·.token)
  match token.kind with
  | .identifier => name false
  | .keyword .thisWord => atom .thisRef
  | .keyword .nullWord => atom .null
  | .keyword .trueWord => atom (.boolean true)
  | .keyword .falseWord => atom (.boolean false)
  | .string | .number => literal
  | .punctuator .slash | .punctuator .slashEquals =>
    enterRegex
    literal
  | .punctuator .openParen =>
    advance
    let inner ← g.expression false
    expect Punctuator.closeParen
    finish token.start (.paren (some inner))
  | .punctuator .openBracket => g.array
  | .punctuator .openBrace => g.object
  | .keyword .functionWord =>
    let function ← g.function false
    return function.withDoc token.doc
  | _ => fail .expectedExpression

-- ============================================================ operators

/-- What members, elements and, with `calls`, calls follow an
expression. -/
def extend (g : Grammar) (calls : Bool) (start : Nat) (owner : Tree) :
    Parse (Option Tree) := do
  match ← look Cursor.kind with
  | .punctuator .dot =>
    advance
    let name ← name true
    some <$> finish start (.member (some owner) (some name))
  | .punctuator .openBracket =>
    advance
    let index ← g.expression false
    expect Punctuator.closeBracket
    some <$> finish start (.element (some owner) (some index))
  | .punctuator .openParen =>
    if calls then
      let arguments ← g.arguments
      some <$> finish start (.call (some owner) arguments)
    else return none
  | _ => return none

/-- A `new` expression or a primary one. The arguments that directly
follow what `new` constructs belong to it. -/
def head (g : Grammar) : Parse Tree := do
  let start ← here
  if ← accept Keyword.newWord then
    let callee ← g.callee
    let arguments ←
      if ← isAt Punctuator.openParen then g.arguments else pure []
    finish start (.construct (some callee) arguments)
  else g.primary

/-- Members and, with `calls`, calls of a head. -/
def leftHand (g : Grammar) (calls : Bool) : Parse Tree := do
  let start ← here
  let head ← g.head
  iterate (g.extend calls start) head

/-- The operators that stand in front of an operand. -/
def isLeadingOperator : TokenKind → Bool
  | .punctuator .bang | .punctuator .tilde | .punctuator .minus
  | .punctuator .plus | .punctuator .plusPlus
  | .punctuator .minusMinus | .keyword .typeofWord
  | .keyword .voidWord | .keyword .deleteWord => true
  | _ => false

/-- An expression with unary operators in front, or an increment or
decrement behind it on the same line. -/
def unaryExpression (g : Grammar) : Parse Tree := do
  let token ← look (·.token)
  if isLeadingOperator token.kind then
    advance
    let operand ← g.unary
    finish token.start (.unary token.kind (some operand) true)
  else
    let operand ← g.leftHand true
    let next ← look (·.token)
    -- on the next line the operator would belong to what follows it
    if (next.kind == Punctuator.plusPlus
        || next.kind == Punctuator.minusMinus) && !next.afterBreak then
      advance
      finish token.start (.unary next.kind (some operand) false)
    else return operand

/-- An operand and all operators behind it that bind more tightly than
precedence `above`. -/
def binaryExpression (g : Grammar) (above : Nat) (noIn : Bool) :
    Parse Tree := do
  let start ← here
  let first ← g.unaryExpression
  iterate
    (fun left => do
      let operator ← look Cursor.kind
      if operator.precedence ≤ above
          || (noIn && operator == Keyword.inWord) then return none
      else
        advance
        -- the right operand takes what binds more tightly than this operator
        let right ← g.operand operator.precedence noIn
        let both ← finish start (.binary (some left) operator (some right))
        return some both)
    first

/-- A binary expression, or two alternatives behind it as a
condition. -/
def conditional (g : Grammar) (noIn : Bool) : Parse Tree := do
  let start ← here
  let condition ← g.binaryExpression 0 noIn
  if ← accept Punctuator.question then
    let whenTrue ← g.assignment false
    expect Punctuator.colon
    let whenFalse ← g.assignment noIn
    finish start
      (.conditional (some condition) (some whenTrue) (some whenFalse))
  else return condition

/-- A conditional expression, or an assignment to one. -/
def assignmentExpression (g : Grammar) (noIn : Bool) : Parse Tree := do
  let start ← here
  let left ← g.conditional noIn
  let operator ← look Cursor.kind
  if operator.isAssignment then
    if isTarget left then
      advance
      let right ← g.assignment noIn
      finish start (.assignment (some left) operator (some right))
    else fail .badAssignmentTarget
  else return left

end Grammar

end ScriptLint
