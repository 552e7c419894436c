/-
Parsing with counters. `Grammar.levels` bounds the nesting by how many
levels it has, and its statements are told what surrounds them. The parsers
here find both in counters instead (`Depths`), which they count up in front
of what nests, of a function body, of a loop body and of a switch clause,
and have to count down again behind it, also when it fails. The grammar is
otherwise the same, step by step.

Nothing bounds these parsers from outside. What is to be parsed one level
further in is asked of a grammar that may be any at all
(`CountingGrammar.levels`), and a loop that is to go on without having
consumed anything is not stopped but said to be endless (`Halt.endless`).
That neither is ever noticed is what there is to prove.

A counter that is changed in front of a parser is changed back whatever
comes of it, with one step for the way out of success and of failure
(`Counting.thenChange`); so a parser cannot be left by an error with its
counters changed. The nesting is the only counter that stops anything. What
the others count is asked for by jumps and by `return` alone, and only
whether it is zero.

How deep constructs have nested on the way is recorded beside the counters
(`Tally.deepest`). Nothing that parses reads it, and it never goes down
again, so what is said of it at the end of a text is said of every place
before.

The definitions follow those of the grammar by levels one by one, under the
same names. What is shown of the two together is in
`CountingGrammar.Agrees`.
-/
import ScriptLint.Parse.Statement

namespace ScriptLint

open Parse

-- ============================================================= counters

/-- What a parser counts: how deeply constructs nest where it is, how many
function bodies enclose it, and how many loops and switch statements of the
innermost one do. -/
structure Depths where
  nesting : Nat := 0
  functions : Nat := 0
  loops : Nat := 0
  switches : Nat := 0
  deriving Repr, DecidableEq

/-- What the counters say about the place of a statement. -/
def Depths.surroundings (depths : Depths) : Surroundings where
  inFunction := depths.functions != 0
  inLoop := depths.loops != 0
  inSwitch := depths.switches != 0

/-- A place in the text with the counters there, and how deeply constructs
have nested on the way to it. -/
structure Tally where
  cursor : Cursor
  depths : Depths := {}
  deepest : Nat := 0

/-- Why a parser does not succeed. -/
inductive Halt where
  | error (error : SyntaxError)
  /-- A loop goes on and on at the same place. -/
  | endless
  deriving Repr, DecidableEq

/-- A parser that counts. -/
abbrev Counting := ExceptT Halt (StateM Tally)

namespace Counting

variable {α σ : Type}

/-- The counters. -/
def depths : Counting Depths := Tally.depths <$> get

/-- Changes the counters. -/
def change (f : Depths → Depths) : Counting Unit :=
  modify fun tally => { tally with depths := f tally.depths }

/-- Counts one level more, and keeps in mind how deep that is. -/
def deepen : Counting Unit := modify fun { cursor, depths, deepest } =>
  { cursor
    depths := { depths with nesting := depths.nesting + 1 }
    deepest := max deepest (depths.nesting + 1) }

/-- A parser that has nothing to count. -/
def lift (p : Parse α) : Counting α := fun tally =>
  match p.run.run tally.cursor with
  | (.ok a, cursor) => (.ok a, { tally with cursor })
  | (.error e, cursor) => (.error (.error e), { tally with cursor })

instance : MonadLift Parse Counting where
  monadLift := lift

/-- Whatever comes of the parser, changes the counters behind it. -/
def thenChange (p : Counting α) (f : Depths → Depths) : Counting α :=
  fun tally =>
    let (result, tally) := p.run.run tally
    (result, { tally with depths := f tally.depths })

/-- One level further in, if there is one. -/
def enter : Counting Unit := do
  if Grammar.maxDepth ≤ (← depths).nesting then fail .tooDeep else deepen

/-- A parser for a construct that nests. -/
def nested (p : Counting α) : Counting α := do
  enter
  p.thenChange fun depths => { depths with nesting := depths.nesting - 1 }

/-- A parser for the body of a loop. -/
def inLoop (p : Counting α) : Counting α := do
  change fun depths => { depths with loops := depths.loops + 1 }
  p.thenChange fun depths => { depths with loops := depths.loops - 1 }

/-- A parser for the statements of a switch clause. -/
def inSwitch (p : Counting α) : Counting α := do
  change fun depths => { depths with switches := depths.switches + 1 }
  p.thenChange fun depths => { depths with switches := depths.switches - 1 }

/-- A parser for the body of a function. Jumps never leave it, so the loops
and switch statements around it do not count inside. -/
def inFunction (p : Counting α) : Counting α := do
  let outer ← depths
  change fun depths =>
    { depths with functions := depths.functions + 1, loops := 0, switches := 0 }
  p.thenChange fun depths =>
    { depths with
      functions := depths.functions - 1
      loops := outer.loops
      switches := outer.switches }

/-- Repeats a step from state to state until it declines. -/
def iterate (step : σ → Counting (Option σ)) (state : σ) (tally : Tally) :
    Except Halt σ × Tally :=
  match (step state).run.run tally with
  | (.error halt, tally) => (.error halt, tally)
  | (.ok none, tally) => (.ok state, tally)
  | (.ok (some state), tally') =>
    if tally'.cursor.remaining < tally.cursor.remaining then
      iterate step state tally'
    else (.error .endless, tally')
termination_by tally.cursor.remaining

/-- The results of a step that is repeated until it declines. -/
def many (step : Counting (Option α)) : Counting (List α) := do
  let reversed ← iterate
    (fun (done : List α) => do
      let result ← step
      return result.map (· :: done))
    []
  return reversed.reverse

/-- One or more items with commas between them. -/
def separated (item : Counting α) : Counting (List α) := do
  let first ← item
  let more ← many do
    if ← accept Punctuator.comma then some <$> item else return none
  return first :: more

end Counting

-- ============================================================== grammar

/-- The parsers for constructs that nest, each of which enters a level. -/
structure CountingGrammar where
  assignment (noIn : Bool) : Counting Tree
  operand (above : Nat) (noIn : Bool) : Counting Tree
  unary : Counting Tree
  callee : Counting Tree
  statement : Counting Tree

namespace CountingGrammar

open Counting (depths inFunction inLoop inSwitch nested)

-- ==================================================== whole expressions

/-- An expression with commas in it. -/
def expression (g : CountingGrammar) (noIn : Bool) : Counting Tree := do
  let start ← here
  let first ← g.assignment noIn
  Counting.iterate
    (fun left => do
      if ← accept Punctuator.comma then
        let right ← g.assignment noIn
        let both ← finish start
          (.binary (some left) Punctuator.comma (some right))
        return some both
      else return none)
    first

/-- The arguments of a call, in parentheses. -/
def arguments (g : CountingGrammar) : Counting (List (Option Tree)) := do
  expect Punctuator.openParen
  let arguments ←
    if ← isAt Punctuator.closeParen then pure []
    else Counting.separated (g.assignment false)
  expect Punctuator.closeParen
  return arguments.map some

-- ============================================================ functions

/-- The statements up to a brace or a clause. -/
def statements (g : CountingGrammar) : Counting (List (Option Tree)) :=
  Counting.many do
    match ← look Cursor.kind with
    | .punctuator .closeBrace | .keyword .caseWord
    | .keyword .defaultWord | .endOfText => return none
    | _ => return some (some (← g.statement))

/-- Statements in braces. -/
def block (g : CountingGrammar) : Counting Tree := do
  let start ← here
  expect Punctuator.openBrace
  let statements ← g.statements
  expect Punctuator.closeBrace
  finish start (.block statements)

/-- A function; a declaration must have a name. The counters are changed for
its body only. -/
def function (g : CountingGrammar) (isDeclaration : Bool) :
    Counting Tree := do
  let start ← here
  expect Keyword.functionWord
  let name ←
    if isDeclaration then some <$> name false
    else if ← isAt .identifier then some <$> name false
    else pure none
  expect Punctuator.openParen
  let parameters ←
    if ← isAt Punctuator.closeParen then pure []
    else Counting.separated (Parse.name false)
  expect Punctuator.closeParen
  let body ← inFunction g.block
  finish start
    (.function name (parameters.map some) (some body) isDeclaration)

-- ============================================================= literals

/-- An array literal, which may have holes. A comma at its end adds none. -/
def array (g : CountingGrammar) : Counting Tree := do
  let start ← here
  expect Punctuator.openBracket
  let elements ← Counting.iterate
    (fun (done, more) => do
      if !more || (← isAt Punctuator.closeBracket) then return none
      else if ← accept Punctuator.comma then
        return some (none :: done, true)
      else
        let element ← g.assignment false
        let more ← accept Punctuator.comma
        return some (some element :: done, more))
    (([] : List (Option Tree)), true)
  expect Punctuator.closeBracket
  finish start (.array elements.1.reverse)

/-- A property of an object literal. `get` and `set` may be keys, but are not
followed by another. -/
def property (g : CountingGrammar) : Counting Tree := do
  let token ← look (·.token)
  let key ← match token.kind with
    | .string | .number => literal
    | _ => name true
  let isAccessor := match key.identifier? with
    | some "get" | some "set" => true
    | _ => false
  if isAccessor && !(← isAt Punctuator.colon) then
    failAt token.start .accessorProperty
  else
    expect Punctuator.colon
    let value ← g.assignment false
    finish token.start
      (.property (some (key.withDoc token.doc)) (some value))

/-- An object literal. -/
def object (g : CountingGrammar) : Counting Tree := do
  let start ← here
  expect Punctuator.openBrace
  let properties ← Counting.iterate
    (fun (done, more) => do
      if !more || (← isAt Punctuator.closeBrace) then return none
      else
        let property ← g.property
        let more ← accept Punctuator.comma
        return some (some property :: done, more))
    (([] : List (Option Tree)), true)
  expect Punctuator.closeBrace
  finish start (.object properties.1.reverse)

/-- What stands at the front of an operand. -/
def primary (g : CountingGrammar) : Counting Tree := do
  let token ← look (·.token)
  match token.kind with
  | .identifier => name false
  | .keyword .thisWord => atom .thisRef
  | .keyword .nullWord => atom .null
  | .keyword .trueWord => atom (.boolean true)
  | .keyword .falseWord => atom (.boolean false)
  | .string | .number => literal
  | .punctuator .slash | .punctuator .slashEquals =>
    enterRegex
    literal
  | .punctuator .openParen =>
    advance
    let inner ← g.expression false
    expect Punctuator.closeParen
    finish token.start (.paren (some inner))
  | .punctuator .openBracket => g.array
  | .punctuator .openBrace => g.object
  | .keyword .functionWord =>
    let function ← g.function false
    return function.withDoc token.doc
  | _ => fail .expectedExpression

-- ============================================================ operators

/-- What can be put behind an operand: a member, an index, or arguments where
calls are allowed. -/
def extend (g : CountingGrammar) (calls : Bool) (start : Nat)
    (owner : Tree) : Counting (Option Tree) := do
  match ← look Cursor.kind with
  | .punctuator .dot =>
    advance
    let name ← name true
    some <$> finish start (.member (some owner) (some name))
  | .punctuator .openBracket =>
    advance
    let index ← g.expression false
    expect Punctuator.closeBracket
    some <$> finish start (.element (some owner) (some index))
  | .punctuator .openParen =>
    if calls then
      let arguments ← g.arguments
      some <$> finish start (.call (some owner) arguments)
    else return none
  | _ => return none

/-- A construction, or what stands at the front of an operand. -/
def head (g : CountingGrammar) : Counting Tree := do
  let start ← here
  if ← accept Keyword.newWord then
    let callee ← g.callee
    let arguments ←
      if ← isAt Punctuator.openParen then g.arguments else pure []
    finish start (.construct (some callee) arguments)
  else g.primary

/-- An operand with all that is put behind it. -/
def leftHand (g : CountingGrammar) (calls : Bool) : Counting Tree := do
  let start ← here
  let head ← g.head
  Counting.iterate (g.extend calls start) head

/-- An operand with operators in front of it or behind it. -/
def unaryExpression (g : CountingGrammar) : Counting Tree := do
  let token ← look (·.token)
  if Grammar.isLeadingOperator token.kind then
    advance
    let operand ← g.unary
    finish token.start (.unary token.kind (some operand) true)
  else
    let operand ← g.leftHand true
    let next ← look (·.token)
    if (next.kind == Punctuator.plusPlus
        || next.kind == Punctuator.minusMinus) && !next.afterBreak then
      advance
      finish token.start (.unary next.kind (some operand) false)
    else return operand

/-- Operators that bind more tightly than those `above`. In the head of a loop
`in` is none of them. -/
def binaryExpression (g : CountingGrammar) (above : Nat) (noIn : Bool) :
    Counting Tree := do
  let start ← here
  let first ← g.unaryExpression
  Counting.iterate
    (fun left => do
      let operator ← look Cursor.kind
      if operator.precedence ≤ above
          || (noIn && operator == Keyword.inWord) then return none
      else
        advance
        let right ← g.operand operator.precedence noIn
        let both ← finish start (.binary (some left) operator (some right))
        return some both)
    first

/-- A condition with two branches, or what may be one. -/
def conditional (g : CountingGrammar) (noIn : Bool) : Counting Tree := do
  let start ← here
  let condition ← g.binaryExpression 0 noIn
  if ← accept Punctuator.question then
    let whenTrue ← g.assignment false
    expect Punctuator.colon
    let whenFalse ← g.assignment noIn
    finish start
      (.conditional (some condition) (some whenTrue) (some whenFalse))
  else return condition

/-- An assignment, or what may stand on the left of one. -/
def assignmentExpression (g : CountingGrammar) (noIn : Bool) :
    Counting Tree := do
  let start ← here
  let left ← g.conditional noIn
  let operator ← look Cursor.kind
  if operator.isAssignment then
    if isTarget left then
      advance
      let right ← g.assignment noIn
      finish start (.assignment (some left) operator (some right))
    else fail .badAssignmentTarget
  else return left

-- ======================================================== declarations

/-- A variable, perhaps with an initializer. -/
def declaration (g : CountingGrammar) (noIn : Bool) : Counting Tree := do
  let start ← here
  let name ← Parse.name false
  let initializer ←
    if ← accept Punctuator.equals then some <$> g.assignment noIn
    else pure none
  finish start (.declaration (some name) initializer)

/-- Variables with commas between them. -/
def declarations (g : CountingGrammar) (noIn : Bool) : Counting Tree := do
  let start ← here
  expect Keyword.varWord
  let items ← Counting.separated (g.declaration noIn)
  finish start (.declarations (items.map some))

-- ========================================================== conditions

/-- An expression in parentheses. -/
def condition (g : CountingGrammar) : Counting Tree := do
  expect Punctuator.openParen
  let condition ← g.expression false
  expect Punctuator.closeParen
  return condition

/-- An expression, unless a token stops it before it begins. -/
def optionalExpression (g : CountingGrammar) (stop : Punctuator) :
    Counting (Option Tree) := do
  if ← isAt stop then return none else some <$> g.expression false

/-- A branch, perhaps with an alternative. -/
def branch (g : CountingGrammar) : Counting Tree := do
  let start ← here
  expect Keyword.ifWord
  let condition ← g.condition
  let consequent ← g.statement
  let alternative ←
    if ← accept Keyword.elseWord then some <$> g.statement
    else pure none
  finish start (.branch (some condition) (some consequent) alternative)

-- =============================================================== loops

/-- The body of a loop. -/
def loopBody (g : CountingGrammar) : Counting Tree :=
  inLoop g.statement

/-- The rest of a loop over the members of an object. -/
def forInTail (g : CountingGrammar) (start : Nat) (target : Tree) :
    Counting Tree := do
  if Grammar.declaresMany target then fail .manyLoopVariables
  else
    let subject ← g.expression false
    expect Punctuator.closeParen
    let body ← g.loopBody
    finish start (.forIn (some target) (some subject) (some body))

/-- The rest of a loop that counts. -/
def forTail (g : CountingGrammar) (start : Nat)
    (initializer : Option Tree) : Counting Tree := do
  expect Punctuator.semicolon
  let condition ← g.optionalExpression .semicolon
  expect Punctuator.semicolon
  let step ← g.optionalExpression .closeParen
  expect Punctuator.closeParen
  let body ← g.loopBody
  finish start (.forLoop initializer condition step (some body))

/-- A loop of either kind, which are told apart behind the first expression. -/
def forLoop (g : CountingGrammar) : Counting Tree := do
  let start ← here
  expect Keyword.forWord
  expect Punctuator.openParen
  match ← look Cursor.kind with
  | .punctuator .semicolon => g.forTail start none
  | kind =>
    let first ←
      if kind == Keyword.varWord then g.declarations true
      else g.expression true
    if ← accept Keyword.inWord then g.forInTail start first
    else g.forTail start (some first)

/-- A loop with the condition in front. -/
def whileLoop (g : CountingGrammar) : Counting Tree := do
  let start ← here
  expect Keyword.whileWord
  let condition ← g.condition
  let body ← g.loopBody
  finish start (.whileLoop (some condition) (some body))

/-- A loop with the condition behind its body. -/
def doWhile (g : CountingGrammar) : Counting Tree := do
  let start ← here
  expect Keyword.doWord
  let body ← g.loopBody
  expect Keyword.whileWord
  let condition ← g.condition
  let _ ← accept Punctuator.semicolon
  finish start (.doWhile (some body) (some condition))

-- =============================================================== jumps

/-- A jump, given what the counters say about its surroundings. -/
def jump : Counting Tree := do
  Grammar.jump (← depths).surroundings

/-- The end of a function, which must be within one. -/
def returning (g : CountingGrammar) : Counting Tree := do
  if !(← depths).surroundings.inFunction then fail .returnOutside
  else
    let start ← here
    expect Keyword.returnWord
    let value ←
      if ← look mayEnd then pure none else some <$> g.expression false
    endStatement
    finish start (.returning value)

/-- An exception. The value must begin in the same line. -/
def throwing (g : CountingGrammar) : Counting Tree := do
  let start ← here
  expect Keyword.throwWord
  if ← look (·.token.afterBreak) then fail .breakAfterThrow
  else
    let value ← g.expression false
    endStatement
    finish start (.throwing (some value))

/-- A block with a handler, with a block that is run in any case, or with
both. -/
def trying (g : CountingGrammar) : Counting Tree := do
  let start ← here
  expect Keyword.tryWord
  let body ← g.block
  let handler ←
    if ← accept Keyword.catchWord then
      expect Punctuator.openParen
      let caught ← Parse.name false
      expect Punctuator.closeParen
      some <$> (caught, ·) <$> g.block
    else pure none
  let cleanup ←
    if ← accept Keyword.finallyWord then some <$> g.block
    else pure none
  if handler.isNone && cleanup.isNone then fail .expectedHandler
  else
    finish start
      (.trying (some body) (handler.map (·.1)) (handler.map (·.2)) cleanup)

-- ============================================================== switch

/-- The test of a case, or none for the default, which a switch statement has
once. -/
def clauseTest (g : CountingGrammar) (hasDefault : Bool) :
    Counting (Option Tree) := do
  match ← look Cursor.kind with
  | .keyword .caseWord =>
    advance
    some <$> g.expression false
  | .keyword .defaultWord =>
    if hasDefault then fail .secondDefault
    else
      advance
      return none
  | _ => fail .expectedClause

/-- A clause, and whether it is the default. Its statements may be left by
`break`. -/
def clause (g : CountingGrammar) (hasDefault : Bool) :
    Counting (Tree × Bool) := do
  let start ← here
  let test ← g.clauseTest hasDefault
  expect Punctuator.colon
  let statements ← inSwitch g.statements
  let clause ← finish start (.clause test statements)
  return (clause, test.isNone)

/-- A switch statement. -/
def switch (g : CountingGrammar) : Counting Tree := do
  let start ← here
  expect Keyword.switchWord
  let subject ← g.condition
  expect Punctuator.openBrace
  let clauses ← Counting.iterate
    (fun (done, hasDefault) => do
      if ← isAt Punctuator.closeBrace then return none
      else
        let (clause, isDefault) ← g.clause hasDefault
        return some (some clause :: done, hasDefault || isDefault))
    (([] : List (Option Tree)), false)
  expect Punctuator.closeBrace
  finish start (.switch (some subject) clauses.1.reverse)

-- ========================================================== statements

/-- An expression, or a statement with a label in front. A name is known to be
a label only when the colon is seen. -/
def expressionStatement (g : CountingGrammar) : Counting Tree := do
  let token ← look (·.token)
  let value ← g.expression false
  if value.identifier?.isSome && (← isAt Punctuator.colon) then
    advance
    let statement ← g.statement
    finish token.start (.labeled (some value) (some statement))
  else
    endStatement
    finish token.start (.expression (some (value.withDoc token.doc)))

/-- The statement that the current token begins. -/
def statementHere (g : CountingGrammar) : Counting Tree := do
  let token ← look (·.token)
  match token.kind with
  | .punctuator .openBrace => g.block
  | .punctuator .semicolon => atom .empty
  | .keyword .debuggerWord =>
    advance
    endStatement
    finish token.start .empty
  | .keyword .varWord =>
    let statement ← g.declarations false
    endStatement
    return statement.withDoc token.doc
  | .keyword .functionWord =>
    let function ← g.function true
    return function.withDoc token.doc
  | .keyword .ifWord => g.branch
  | .keyword .forWord => g.forLoop
  | .keyword .whileWord => g.whileLoop
  | .keyword .doWord => g.doWhile
  | .keyword .continueWord | .keyword .breakWord => jump
  | .keyword .returnWord => g.returning
  | .keyword .throwWord => g.throwing
  | .keyword .tryWord => g.trying
  | .keyword .switchWord => g.switch
  | .identifier =>
    if token.value == "with" then failAt token.start .withStatement
    else g.expressionStatement
  | _ => g.expressionStatement

-- =============================================================== depth

/-- The grammar one level further out. -/
def outer (g : CountingGrammar) : CountingGrammar where
  assignment noIn := nested (g.assignmentExpression noIn)
  operand above noIn := nested (g.binaryExpression above noIn)
  unary := nested g.unaryExpression
  callee := nested (g.leftHand false)
  statement := nested g.statementHere

/-- The grammar a number of levels out from one that may be any at all. -/
def levels (base : CountingGrammar) : Nat → CountingGrammar
  | 0 => base
  | n + 1 => (levels base n).outer

-- ============================================================ programs

/-- All statements up to the end. A comment that is open there is an error by
itself. -/
def program (g : CountingGrammar) : Counting Tree := do
  let statements ← Counting.many do
    if ← isAt .endOfText then return none
    else return some (some (← g.statement))
  let token ← look (·.token)
  match token.openComment with
  | some offset => failAt offset .openComment
  | none => return .node 0 token.stop none (.file statements)

/-- The parsers for expressions and statements: those of a grammar that
counts, and those of one that does not, where it is told what surrounds
them. -/
inductive IsRule (counting : CountingGrammar) (g : Grammar)
    (s : Surroundings) : {α : Type} → Counting α → Parse α → Prop where
  | assignment (noIn : Bool) :
    counting.IsRule g s (counting.assignment noIn) (g.assignment noIn)
  | operand (above : Nat) (noIn : Bool) :
    counting.IsRule g s (counting.operand above noIn) (g.operand above noIn)
  | unary : counting.IsRule g s counting.unary g.unary
  | callee : counting.IsRule g s counting.callee g.callee
  | statement : counting.IsRule g s counting.statement (g.statement s)
  | name (orKeyword : Bool) :
    counting.IsRule g s (liftM (Parse.name orKeyword)) (Parse.name orKeyword)
  | literal : counting.IsRule g s (liftM Parse.literal) Parse.literal
  | expression (noIn : Bool) :
    counting.IsRule g s (counting.expression noIn) (g.expression noIn)
  | arguments : counting.IsRule g s counting.arguments g.arguments
  | statements : counting.IsRule g s counting.statements (g.statements s)
  | block : counting.IsRule g s counting.block (g.block s)
  | function (isDeclaration : Bool) :
    counting.IsRule g s (counting.function isDeclaration)
      (g.function isDeclaration)
  | array : counting.IsRule g s counting.array g.array
  | property : counting.IsRule g s counting.property g.property
  | object : counting.IsRule g s counting.object g.object
  | primary : counting.IsRule g s counting.primary g.primary
  | extend (calls : Bool) (start : Nat) (owner : Tree) :
    counting.IsRule g s (counting.extend calls start owner)
      (g.extend calls start owner)
  | head : counting.IsRule g s counting.head g.head
  | leftHand (calls : Bool) :
    counting.IsRule g s (counting.leftHand calls) (g.leftHand calls)
  | unaryExpression :
    counting.IsRule g s counting.unaryExpression g.unaryExpression
  | binaryExpression (above : Nat) (noIn : Bool) :
    counting.IsRule g s (counting.binaryExpression above noIn)
      (g.binaryExpression above noIn)
  | conditional (noIn : Bool) :
    counting.IsRule g s (counting.conditional noIn) (g.conditional noIn)
  | assignmentExpression (noIn : Bool) :
    counting.IsRule g s (counting.assignmentExpression noIn)
      (g.assignmentExpression noIn)
  | declaration (noIn : Bool) :
    counting.IsRule g s (counting.declaration noIn) (g.declaration noIn)
  | declarations (noIn : Bool) :
    counting.IsRule g s (counting.declarations noIn) (g.declarations noIn)
  | condition : counting.IsRule g s counting.condition g.condition
  | optionalExpression (stop : Punctuator) :
    counting.IsRule g s (counting.optionalExpression stop)
      (g.optionalExpression stop)
  | branch : counting.IsRule g s counting.branch (g.branch s)
  | loopBody : counting.IsRule g s counting.loopBody (g.loopBody s)
  | forInTail (start : Nat) (target : Tree) :
    counting.IsRule g s (counting.forInTail start target)
      (g.forInTail s start target)
  | forTail (start : Nat) (initializer : Option Tree) :
    counting.IsRule g s (counting.forTail start initializer)
      (g.forTail s start initializer)
  | forLoop : counting.IsRule g s counting.forLoop (g.forLoop s)
  | whileLoop : counting.IsRule g s counting.whileLoop (g.whileLoop s)
  | doWhile : counting.IsRule g s counting.doWhile (g.doWhile s)
  | jump : counting.IsRule g s jump (Grammar.jump s)
  | returning : counting.IsRule g s counting.returning (g.returning s)
  | throwing : counting.IsRule g s counting.throwing g.throwing
  | trying : counting.IsRule g s counting.trying (g.trying s)
  | clauseTest (hasDefault : Bool) :
    counting.IsRule g s (counting.clauseTest hasDefault)
      (g.clauseTest hasDefault)
  | clause (hasDefault : Bool) :
    counting.IsRule g s (counting.clause hasDefault) (g.clause s hasDefault)
  | switch : counting.IsRule g s counting.switch (g.switch s)
  | expressionStatement :
    counting.IsRule g s counting.expressionStatement
      (g.expressionStatement s)
  | statementHere :
    counting.IsRule g s counting.statementHere (g.statementHere s)

end CountingGrammar

end ScriptLint
