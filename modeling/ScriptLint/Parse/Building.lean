/-
Parsing into an arena. The parsers here write the nodes of a program down
while they read it: whenever a construct is complete, its node is added to
the arena behind those of its parts (`Building.finish`), and what a parser
yields is the number of that node. Nothing else stands for the construct,
so a parser that forgot a number would leave a node without a parent, and
one that used a number twice would list a node twice.

The grammar is that of `Grammar`, production by production, with the same
steps over tokens. Two questions that are put to a tree there are put to
the arena here: whether a node may be assigned to, with its parentheses
taken off in a limited number of steps, and whether it is a lone
identifier. Documentation comments are attached to nodes that stand in the
arena already.

This is the parser that runs. What it leaves in the arena is what
`Arena.ofTree` makes of the tree, and that is how its results are reasoned
about.
-/
import ScriptLint.Parse.Statement

namespace ScriptLint

-- ================================================================= sites

/-- A place in the text with the nodes made on the way to it. The lines of
the text are known from the start. -/
structure Site where
  lines : Text.LineMap
  cursor : Cursor
  arena : Arena := {}

/-- A parser that builds: it moves the cursor, adds to the arena, and
yields a result or fails. What a failing parser has added stays. -/
abbrev Building := ExceptT SyntaxError (StateM Site)

namespace Building

open Parse (accept advance fail here look)

variable {α σ : Type}

-- ================================================================ steps

/-- Something read off the nodes made so far. -/
def survey (f : Arena → α) : Building α := (fun site => f site.arena) <$> get

/-- Adds a node behind those that are there, and yields its number. -/
def add (start : Nat) (stop : Cursor → Nat) (form : Form Ref) :
    Building Nat :=
  modifyGet fun { lines, cursor, arena } =>
    let stop := stop cursor
    let line := lines.lineOf start
    (arena.size,
      { lines, cursor, arena := arena.add { form, start, stop, line } })

/-- Adds the node of a construct that starts at a byte and ends with the
last consumed token. Its parts have their nodes already. -/
def finish (start : Nat) (form : Form Ref) : Building Nat :=
  add start (fun cursor => max cursor.lastStop start) form

/-- Attaches a documentation comment to a node, unless it has one. -/
def attachDoc (i : Nat) (doc : Option String) : Building Unit :=
  modify fun site => { site with arena := site.arena.attachDoc i doc }

/-- A parser that builds nothing. -/
def lift (p : Parse α) : Building α := fun site =>
  let (result, cursor) := p.run.run site.cursor
  (result, { site with cursor })

instance : MonadLift Parse Building where
  monadLift := lift

-- ================================================================ loops

/-- Repeats a step from state to state until it declines. A step that
consumes nothing is not repeated. -/
def iterate (step : σ → Building (Option σ)) (state : σ) (site : Site) :
    Except SyntaxError σ × Site :=
  match (step state).run.run site with
  | (.error e, site) => (.error e, site)
  | (.ok none, site) => (.ok state, site)
  | (.ok (some state), site') =>
    if site'.cursor.remaining < site.cursor.remaining then
      iterate step state site'
    else (.ok state, site')
termination_by site.cursor.remaining

/-- The results of a step that is repeated until it declines. -/
def many (step : Building (Option α)) : Building (List α) := do
  let reversed ← iterate
    (fun (done : List α) => do
      let result ← step
      return result.map (· :: done))
    []
  return reversed.reverse

/-- One or more items with commas between them. -/
def separated (item : Building α) : Building (List α) := do
  let first ← item
  let more ← many do
    if ← accept Punctuator.comma then some <$> item else return none
  return first :: more

-- ======================================================== simple pieces

/-- An identifier, or also a keyword where `orKeyword` allows. -/
def name (orKeyword : Bool) : Building Nat := do
  let token ← look (·.token)
  if token.kind == .identifier || (orKeyword && token.kind.isKeyword) then
    advance
    finish token.start (.identifier token.value)
  else fail .expectedIdentifier

/-- The literal that the current token is: a string, a number, or else a
regular expression. -/
def literal : Building Nat := do
  let token ← look (·.token)
  if token.isOpen then fail .expectedExpression
  else
    advance
    finish token.start
      (match token.kind with
        | .string => .string token.value
        | .number => .number token.value
        | _ => .regex token.value)

/-- A single token that is an expression by itself. -/
def atom (form : Form Ref) : Building Nat := do
  let start ← here
  advance
  finish start form

end Building

/-- Whether the form may stand on the left of an assignment. A call may. -/
def Form.isTarget {ι : Type} : Form ι → Bool
  | .identifier _ | .member _ _ | .element _ _ | .call _ _ => true
  | _ => false

/-- Whether a node may stand on the left of an assignment, parentheses or
not. -/
def Arena.isTarget (arena : Arena) (i : Nat) : Bool :=
  (arena.form? (arena.skipParens (some i))).any Form.isTarget

/-- Whether the head of a for-in loop declares other than one variable. -/
def Arena.declaresMany (arena : Arena) (i : Nat) : Bool :=
  match arena.form? (some i) with
  | some (.declarations items) => items.length ≠ 1
  | _ => false

-- ============================================================== grammar

/-- The parsers for constructs one nesting level further in. -/
structure BuildingGrammar where
  assignment (noIn : Bool) : Building Nat
  operand (above : Nat) (noIn : Bool) : Building Nat
  unary : Building Nat
  callee : Building Nat
  statement (surroundings : Surroundings) : Building Nat

namespace BuildingGrammar

open Parse (accept advance endStatement enterRegex expect fail failAt here
  isAt look mayEnd)
open Building (atom attachDoc finish iterate literal many name separated
  survey)

-- ==================================================== whole expressions

/-- Assignment expressions with commas between them. -/
def expression (g : BuildingGrammar) (noIn : Bool) : Building Nat := do
  let start ← here
  let first ← g.assignment noIn
  iterate
    (fun left => do
      if ← accept Punctuator.comma then
        let right ← g.assignment noIn
        let both ← finish start
          (.binary (some left) Punctuator.comma (some right))
        return some both
      else return none)
    first

/-- The arguments of a call in their parentheses. -/
def arguments (g : BuildingGrammar) : Building (List Ref) := do
  expect Punctuator.openParen
  let arguments ←
    if ← isAt Punctuator.closeParen then pure []
    else separated (g.assignment false)
  expect Punctuator.closeParen
  return arguments.map some

-- ============================================================ functions

/-- Statements up to a closing brace, a case, a default or the end. -/
def statements (g : BuildingGrammar) (surroundings : Surroundings) :
    Building (List Ref) :=
  many do
    match ← look Cursor.kind with
    | .punctuator .closeBrace | .keyword .caseWord
    | .keyword .defaultWord | .endOfText => return none
    | _ => return some (some (← g.statement surroundings))

/-- Statements in braces. -/
def block (g : BuildingGrammar) (surroundings : Surroundings) :
    Building Nat := do
  let start ← here
  expect Punctuator.openBrace
  let statements ← g.statements surroundings
  expect Punctuator.closeBrace
  finish start (.block statements)

/-- A function from its keyword on. -/
def function (g : BuildingGrammar) (isDeclaration : Bool) :
    Building Nat := do
  let start ← here
  expect Keyword.functionWord
  let name ←
    if isDeclaration then some <$> name false
    else if ← isAt .identifier then some <$> name false
    else pure none
  expect Punctuator.openParen
  let parameters ←
    if ← isAt Punctuator.closeParen then pure []
    else separated (Building.name false)
  expect Punctuator.closeParen
  let body ← g.block { inFunction := true }
  finish start
    (.function name (parameters.map some) (some body) isDeclaration)

-- ============================================================= literals

/-- An array literal. -/
def array (g : BuildingGrammar) : Building Nat := do
  let start ← here
  expect Punctuator.openBracket
  let elements ← iterate
    (fun (done, more) => do
      if !more || (← isAt Punctuator.closeBracket) then return none
      else if ← accept Punctuator.comma then
        return some (none :: done, true)
      else
        let element ← g.assignment false
        let more ← accept Punctuator.comma
        return some (some element :: done, more))
    (([] : List Ref), true)
  expect Punctuator.closeBracket
  finish start (.array elements.1.reverse)

/-- A property of an object literal. The documentation comment in front
of it is attached to the key before the value is read. -/
def property (g : BuildingGrammar) : Building Nat := do
  let token ← look (·.token)
  let key ← match token.kind with
    | .string | .number => literal
    | _ => name true
  let text ← survey (·.identifier? (some key))
  let isAccessor := match text with
    | some "get" | some "set" => true
    | _ => false
  if isAccessor && !(← isAt Punctuator.colon) then
    failAt token.start .accessorProperty
  else
    attachDoc key token.doc
    expect Punctuator.colon
    let value ← g.assignment false
    finish token.start (.property (some key) (some value))

/-- An object literal. -/
def object (g : BuildingGrammar) : Building Nat := do
  let start ← here
  expect Punctuator.openBrace
  let properties ← iterate
    (fun (done, more) => do
      if !more || (← isAt Punctuator.closeBrace) then return none
      else
        let property ← g.property
        let more ← accept Punctuator.comma
        return some (some property :: done, more))
    (([] : List Ref), true)
  expect Punctuator.closeBrace
  finish start (.object properties.1.reverse)

/-- An expression that no operator, member or call extends. -/
def primary (g : BuildingGrammar) : Building Nat := do
  let token ← look (·.token)
  match token.kind with
  | .identifier => name false
  | .keyword .thisWord => atom .thisRef
  | .keyword .nullWord => atom .null
  | .keyword .trueWord => atom (.boolean true)
  | .keyword .falseWord => atom (.boolean false)
  | .string | .number => literal
  | .punctuator .slash | .punctuator .slashEquals =>
    enterRegex
    literal
  | .punctuator .openParen =>
    advance
    let inner ← g.expression false
    expect Punctuator.closeParen
    finish token.start (.paren (some inner))
  | .punctuator .openBracket => g.array
  | .punctuator .openBrace => g.object
  | .keyword .functionWord =>
    let function ← g.function false
    attachDoc function token.doc
    return function
  | _ => fail .expectedExpression

-- ============================================================ operators

/-- What members, elements and, with `calls`, calls follow an
expression. -/
def extend (g : BuildingGrammar) (calls : Bool) (start : Nat)
    (owner : Nat) : Building (Option Nat) := do
  match ← look Cursor.kind with
  | .punctuator .dot =>
    advance
    let name ← name true
    some <$> finish start (.member (some owner) (some name))
  | .punctuator .openBracket =>
    advance
    let index ← g.expression false
    expect Punctuator.closeBracket
    some <$> finish start (.element (some owner) (some index))
  | .punctuator .openParen =>
    if calls then
      let arguments ← g.arguments
      some <$> finish start (.call (some owner) arguments)
    else return none
  | _ => return none

/-- A `new` expression or a primary one. -/
def head (g : BuildingGrammar) : Building Nat := do
  let start ← here
  if ← accept Keyword.newWord then
    let callee ← g.callee
    let arguments ←
      if ← isAt Punctuator.openParen then g.arguments else pure []
    finish start (.construct (some callee) arguments)
  else g.primary

/-- Members and, with `calls`, calls of a head. -/
def leftHand (g : BuildingGrammar) (calls : Bool) : Building Nat := do
  let start ← here
  let head ← g.head
  iterate (g.extend calls start) head

/-- An expression with unary operators in front, or an increment or
decrement behind it on the same line. -/
def unaryExpression (g : BuildingGrammar) : Building Nat := do
  let token ← look (·.token)
  if Grammar.isLeadingOperator token.kind then
    advance
    let operand ← g.unary
    finish token.start (.unary token.kind (some operand) true)
  else
    let operand ← g.leftHand true
    let next ← look (·.token)
    if (next.kind == Punctuator.plusPlus
        || next.kind == Punctuator.minusMinus) && !next.afterBreak then
      advance
      finish token.start (.unary next.kind (some operand) false)
    else return operand

/-- An operand and all operators behind it that bind more tightly than
precedence `above`. -/
def binaryExpression (g : BuildingGrammar) (above : Nat) (noIn : Bool) :
    Building Nat := do
  let start ← here
  let first ← g.unaryExpression
  iterate
    (fun left => do
      let operator ← look Cursor.kind
      if operator.precedence ≤ above
          || (noIn && operator == Keyword.inWord) then return none
      else
        advance
        let right ← g.operand operator.precedence noIn
        let both ← finish start (.binary (some left) operator (some right))
        return some both)
    first

/-- A binary expression, or two alternatives behind it as a
condition. -/
def conditional (g : BuildingGrammar) (noIn : Bool) : Building Nat := do
  let start ← here
  let condition ← g.binaryExpression 0 noIn
  if ← accept Punctuator.question then
    let whenTrue ← g.assignment false
    expect Punctuator.colon
    let whenFalse ← g.assignment noIn
    finish start
      (.conditional (some condition) (some whenTrue) (some whenFalse))
  else return condition

/-- A conditional expression, or an assignment to one. -/
def assignmentExpression (g : BuildingGrammar) (noIn : Bool) :
    Building Nat := do
  let start ← here
  let left ← g.conditional noIn
  let operator ← look Cursor.kind
  if operator.isAssignment then
    if ← survey (·.isTarget left) then
      advance
      let right ← g.assignment noIn
      finish start (.assignment (some left) operator (some right))
    else fail .badAssignmentTarget
  else return left

-- ======================================================== declarations

/-- A variable with its initial value, if any. -/
def declaration (g : BuildingGrammar) (noIn : Bool) : Building Nat := do
  let start ← here
  let name ← Building.name false
  let initializer ←
    if ← accept Punctuator.equals then some <$> g.assignment noIn
    else pure none
  finish start (.declaration (some name) initializer)

/-- The keyword `var` and variables with commas between them. -/
def declarations (g : BuildingGrammar) (noIn : Bool) : Building Nat := do
  let start ← here
  expect Keyword.varWord
  let items ← separated (g.declaration noIn)
  finish start (.declarations (items.map some))

-- ========================================================== conditions

/-- An expression in parentheses, which get no node here. -/
def condition (g : BuildingGrammar) : Building Nat := do
  expect Punctuator.openParen
  let condition ← g.expression false
  expect Punctuator.closeParen
  return condition

/-- An expression, unless the given token ends its place already. -/
def optionalExpression (g : BuildingGrammar) (stop : Punctuator) :
    Building Ref := do
  if ← isAt stop then return none else some <$> g.expression false

/-- A statement under `if`, with its alternative. -/
def branch (g : BuildingGrammar) (s : Surroundings) : Building Nat := do
  let start ← here
  expect Keyword.ifWord
  let condition ← g.condition
  let consequent ← g.statement s
  let alternative ←
    if ← accept Keyword.elseWord then some <$> g.statement s
    else pure none
  finish start (.branch (some condition) (some consequent) alternative)

-- =============================================================== loops

/-- A loop body. -/
def loopBody (g : BuildingGrammar) (s : Surroundings) : Building Nat :=
  g.statement { s with inLoop := true }

/-- A for-in loop behind its `in`. -/
def forInTail (g : BuildingGrammar) (s : Surroundings) (start : Nat)
    (target : Nat) : Building Nat := do
  if ← survey (·.declaresMany target) then fail .manyLoopVariables
  else
    let subject ← g.expression false
    expect Punctuator.closeParen
    let body ← g.loopBody s
    finish start (.forIn (some target) (some subject) (some body))

/-- A for loop behind its first part. -/
def forTail (g : BuildingGrammar) (s : Surroundings) (start : Nat)
    (initializer : Ref) : Building Nat := do
  expect Punctuator.semicolon
  let condition ← g.optionalExpression .semicolon
  expect Punctuator.semicolon
  let step ← g.optionalExpression .closeParen
  expect Punctuator.closeParen
  let body ← g.loopBody s
  finish start (.forLoop initializer condition step (some body))

/-- A loop under `for`: what follows the first part decides its kind. -/
def forLoop (g : BuildingGrammar) (s : Surroundings) : Building Nat := do
  let start ← here
  expect Keyword.forWord
  expect Punctuator.openParen
  match ← look Cursor.kind with
  | .punctuator .semicolon => g.forTail s start none
  | kind =>
    let first ←
      if kind == Keyword.varWord then g.declarations true
      else g.expression true
    if ← accept Keyword.inWord then g.forInTail s start first
    else g.forTail s start (some first)

/-- A loop under `while`. -/
def whileLoop (g : BuildingGrammar) (s : Surroundings) : Building Nat := do
  let start ← here
  expect Keyword.whileWord
  let condition ← g.condition
  let body ← g.loopBody s
  finish start (.whileLoop (some condition) (some body))

/-- A loop under `do`. -/
def doWhile (g : BuildingGrammar) (s : Surroundings) : Building Nat := do
  let start ← here
  expect Keyword.doWord
  let body ← g.loopBody s
  expect Keyword.whileWord
  let condition ← g.condition
  let _ ← accept Punctuator.semicolon
  finish start (.doWhile (some body) (some condition))

-- =============================================================== jumps

/-- A break or continue statement. -/
def jump (s : Surroundings) : Building Nat := do
  let start ← here
  let isBreak ← isAt Keyword.breakWord
  advance
  let token ← look (·.token)
  let label ←
    if token.kind == .identifier && !token.afterBreak then
      some <$> Building.name false
    else pure none
  if label.isNone && isBreak && !s.inLoop && !s.inSwitch then
    failAt start .breakOutside
  else if label.isNone && !isBreak && !s.inLoop then
    failAt start .continueOutside
  else
    endStatement
    finish start (if isBreak then .breaking label else .continuing label)

/-- A return statement, which only a function body may hold. -/
def returning (g : BuildingGrammar) (s : Surroundings) : Building Nat := do
  if !s.inFunction then fail .returnOutside
  else
    let start ← here
    expect Keyword.returnWord
    let value ←
      if ← look mayEnd then pure none else some <$> g.expression false
    endStatement
    finish start (.returning value)

/-- A throw statement. -/
def throwing (g : BuildingGrammar) : Building Nat := do
  let start ← here
  expect Keyword.throwWord
  if ← look (·.token.afterBreak) then fail .breakAfterThrow
  else
    let value ← g.expression false
    endStatement
    finish start (.throwing (some value))

/-- A try statement with a handler, a cleanup or both. -/
def trying (g : BuildingGrammar) (s : Surroundings) : Building Nat := do
  let start ← here
  expect Keyword.tryWord
  let body ← g.block s
  let handler ←
    if ← accept Keyword.catchWord then
      expect Punctuator.openParen
      let caught ← Building.name false
      expect Punctuator.closeParen
      some <$> (caught, ·) <$> g.block s
    else pure none
  let cleanup ←
    if ← accept Keyword.finallyWord then some <$> g.block s
    else pure none
  if handler.isNone && cleanup.isNone then fail .expectedHandler
  else
    finish start
      (.trying (some body) (handler.map (·.1)) (handler.map (·.2)) cleanup)

-- ============================================================== switch

/-- The test of a switch clause with its keyword: nothing for the
default clause, which may come only once. -/
def clauseTest (g : BuildingGrammar) (hasDefault : Bool) :
    Building Ref := do
  match ← look Cursor.kind with
  | .keyword .caseWord =>
    advance
    some <$> g.expression false
  | .keyword .defaultWord =>
    if hasDefault then fail .secondDefault
    else
      advance
      return none
  | _ => fail .expectedClause

/-- A clause of a switch statement, and whether it is the default. -/
def clause (g : BuildingGrammar) (s : Surroundings) (hasDefault : Bool) :
    Building (Nat × Bool) := do
  let start ← here
  let test ← g.clauseTest hasDefault
  expect Punctuator.colon
  let statements ← g.statements { s with inSwitch := true }
  let clause ← finish start (.clause test statements)
  return (clause, test.isNone)

/-- A switch statement. -/
def switch (g : BuildingGrammar) (s : Surroundings) : Building Nat := do
  let start ← here
  expect Keyword.switchWord
  let subject ← g.condition
  expect Punctuator.openBrace
  let clauses ← iterate
    (fun (done, hasDefault) => do
      if ← isAt Punctuator.closeBrace then return none
      else
        let (clause, isDefault) ← g.clause s hasDefault
        return some (some clause :: done, hasDefault || isDefault))
    (([] : List Ref), false)
  expect Punctuator.closeBrace
  finish start (.switch (some subject) clauses.1.reverse)

-- ========================================================== statements

/-- A statement that begins with an expression: a labelled one when a
colon follows a lone identifier. The documentation comment in front of
an expression statement is attached to the expression. -/
def expressionStatement (g : BuildingGrammar) (s : Surroundings) :
    Building Nat := do
  let token ← look (·.token)
  let value ← g.expression false
  let text ← survey (·.identifier? (some value))
  if text.isSome && (← isAt Punctuator.colon) then
    advance
    let statement ← g.statement s
    finish token.start (.labeled (some value) (some statement))
  else
    endStatement
    attachDoc value token.doc
    finish token.start (.expression (some value))

/-- A statement. Documentation comments are attached to variable and
function declarations and to expressions. -/
def statementHere (g : BuildingGrammar) (s : Surroundings) :
    Building Nat := do
  let token ← look (·.token)
  match token.kind with
  | .punctuator .openBrace => g.block s
  | .punctuator .semicolon => atom .empty
  | .keyword .debuggerWord =>
    advance
    endStatement
    finish token.start .empty
  | .keyword .varWord =>
    let statement ← g.declarations false
    endStatement
    attachDoc statement token.doc
    return statement
  | .keyword .functionWord =>
    let function ← g.function true
    attachDoc function token.doc
    return function
  | .keyword .ifWord => g.branch s
  | .keyword .forWord => g.forLoop s
  | .keyword .whileWord => g.whileLoop s
  | .keyword .doWord => g.doWhile s
  | .keyword .continueWord | .keyword .breakWord => jump s
  | .keyword .returnWord => g.returning s
  | .keyword .throwWord => g.throwing
  | .keyword .tryWord => g.trying s
  | .keyword .switchWord => g.switch s
  | .identifier =>
    if token.value == "with" then failAt token.start .withStatement
    else g.expressionStatement s
  | _ => g.expressionStatement s

-- =============================================================== depth

/-- No level is left: whatever would nest fails. -/
def exhausted : BuildingGrammar where
  assignment _ := fail .tooDeep
  operand _ _ := fail .tooDeep
  unary := fail .tooDeep
  callee := fail .tooDeep
  statement _ := fail .tooDeep

/-- The grammar one level further out. -/
def outer (g : BuildingGrammar) : BuildingGrammar where
  assignment := g.assignmentExpression
  operand := g.binaryExpression
  unary := g.unaryExpression
  callee := g.leftHand false
  statement := g.statementHere

/-- The grammar with a number of nesting levels. -/
def levels : Nat → BuildingGrammar
  | 0 => exhausted
  | n + 1 => (levels n).outer

-- ============================================================ programs

/-- The statements of a program, to the end of the text. Its node reaches
from the first byte to that end. -/
def program (g : BuildingGrammar) : Building Nat := do
  let statements ← many do
    if ← isAt .endOfText then return none
    else return some (some (← g.statement {}))
  let token ← look (·.token)
  match token.openComment with
  | some offset => failAt offset .openComment
  | none => Building.add 0 (fun _ => token.stop) (.file statements)

end BuildingGrammar

/-- What building the arena of a program text comes to: the number of its
root or the first error in it, and the site where that was. -/
def Arena.build (text : String) : Except SyntaxError Nat × Site :=
  (BuildingGrammar.levels Grammar.maxDepth).program.run.run
    { lines := .ofText text, cursor := { lexeme := Lexeme.first text } }

/-- The arena of a program text with the number of its root, or the first
error in the text. -/
def Arena.parse (text : String) : Except SyntaxError (Nat × Arena) :=
  match Arena.build text with
  | (.ok root, site) => .ok (root, site.arena)
  | (.error e, _) => .error e

end ScriptLint
