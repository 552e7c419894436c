/-
Statements and whole programs. The parsers for one nesting level are
built from those for the level further in; a program is parsed with a
fixed number of levels, and what would nest deeper fails at the token
where the levels run out.
-/
import ScriptLint.Parse.Expression
import ScriptLint.Syntax.Arena

namespace ScriptLint

namespace Grammar

open Parse

-- ======================================================== declarations

/-- A variable with its initial value, if any. -/
def declaration (g : Grammar) (noIn : Bool) : Parse Tree := do
  let start ← here
  let name ← Parse.name false
  let initializer ←
    if ← accept Punctuator.equals then some <$> g.assignment noIn
    else pure none
  finish start (.declaration (some name) initializer)

/-- The keyword `var` and variables with commas between them. -/
def declarations (g : Grammar) (noIn : Bool) : Parse Tree := do
  let start ← here
  expect Keyword.varWord
  let items ← separated (g.declaration noIn)
  finish start (.declarations (items.map some))

-- ========================================================== conditions

/-- An expression in parentheses. -/
def condition (g : Grammar) : Parse Tree := do
  expect Punctuator.openParen
  let condition ← g.expression false
  expect Punctuator.closeParen
  return condition

/-- An expression, unless the given token ends its place already. -/
def optionalExpression (g : Grammar) (stop : Punctuator) :
    Parse (Option Tree) := do
  if ← isAt stop then return none else some <$> g.expression false

/-- A statement under `if`, with its alternative. -/
def branch (g : Grammar) (s : Surroundings) : Parse Tree := do
  let start ← here
  expect Keyword.ifWord
  let condition ← g.condition
  let consequent ← g.statement s
  let alternative ←
    if ← accept Keyword.elseWord then some <$> g.statement s
    else pure none
  finish start (.branch (some condition) (some consequent) alternative)

-- =============================================================== loops

/-- A loop body. -/
def loopBody (g : Grammar) (s : Surroundings) : Parse Tree :=
  g.statement { s with inLoop := true }

/-- Whether the head of a for-in loop declares other than one
variable. -/
def declaresMany : Tree → Bool
  | .node _ _ _ (.declarations items) => items.length ≠ 1
  | _ => false

/-- A for-in loop behind its `in`. -/
def forInTail (g : Grammar) (s : Surroundings) (start : Nat)
    (target : Tree) : Parse Tree := do
  if declaresMany target then fail .manyLoopVariables
  else
    let subject ← g.expression false
    expect Punctuator.closeParen
    let body ← g.loopBody s
    finish start (.forIn (some target) (some subject) (some body))

/-- A for loop behind its first part. -/
def forTail (g : Grammar) (s : Surroundings) (start : Nat)
    (initializer : Option Tree) : Parse Tree := do
  expect Punctuator.semicolon
  let condition ← g.optionalExpression .semicolon
  expect Punctuator.semicolon
  let step ← g.optionalExpression .closeParen
  expect Punctuator.closeParen
  let body ← g.loopBody s
  finish start (.forLoop initializer condition step (some body))

/-- A loop under `for`: what follows the first part decides its kind. -/
def forLoop (g : Grammar) (s : Surroundings) : Parse Tree := do
  let start ← here
  expect Keyword.forWord
  expect Punctuator.openParen
  match ← look Cursor.kind with
  | .punctuator .semicolon => g.forTail s start none
  | kind =>
    let first ←
      if kind == Keyword.varWord then g.declarations true
      else g.expression true
    if ← accept Keyword.inWord then g.forInTail s start first
    else g.forTail s start (some first)

/-- A loop under `while`. -/
def whileLoop (g : Grammar) (s : Surroundings) : Parse Tree := do
  let start ← here
  expect Keyword.whileWord
  let condition ← g.condition
  let body ← g.loopBody s
  finish start (.whileLoop (some condition) (some body))

/-- A loop under `do`. The semicolon behind it may always be left
out. -/
def doWhile (g : Grammar) (s : Surroundings) : Parse Tree := do
  let start ← here
  expect Keyword.doWord
  let body ← g.loopBody s
  expect Keyword.whileWord
  let condition ← g.condition
  let _ ← accept Punctuator.semicolon
  finish start (.doWhile (some body) (some condition))

-- =============================================================== jumps

/-- A break or continue statement. A label counts only on the same line;
it is not looked up, so a labelled jump may stand anywhere. -/
def jump (s : Surroundings) : Parse Tree := do
  let start ← here
  let isBreak ← isAt Keyword.breakWord
  advance
  let token ← look (·.token)
  let label ←
    if token.kind == .identifier && !token.afterBreak then
      some <$> Parse.name false
    else pure none
  if label.isNone && isBreak && !s.inLoop && !s.inSwitch then
    failAt start .breakOutside
  else if label.isNone && !isBreak && !s.inLoop then
    failAt start .continueOutside
  else
    endStatement
    finish start (if isBreak then .breaking label else .continuing label)

/-- A return statement, which only a function body may hold. The value
must begin on the same line. -/
def returning (g : Grammar) (s : Surroundings) : Parse Tree := do
  if !s.inFunction then fail .returnOutside
  else
    let start ← here
    expect Keyword.returnWord
    let value ←
      if ← look mayEnd then pure none else some <$> g.expression false
    endStatement
    finish start (.returning value)

/-- A throw statement; its value must begin on the same line. -/
def throwing (g : Grammar) : Parse Tree := do
  let start ← here
  expect Keyword.throwWord
  if ← look (·.token.afterBreak) then fail .breakAfterThrow
  else
    let value ← g.expression false
    endStatement
    finish start (.throwing (some value))

/-- A try statement with a handler, a cleanup or both. -/
def trying (g : Grammar) (s : Surroundings) : Parse Tree := do
  let start ← here
  expect Keyword.tryWord
  let body ← g.block s
  let handler ←
    if ← accept Keyword.catchWord then
      expect Punctuator.openParen
      let caught ← Parse.name false
      expect Punctuator.closeParen
      some <$> (caught, ·) <$> g.block s
    else pure none
  let cleanup ←
    if ← accept Keyword.finallyWord then some <$> g.block s
    else pure none
  if handler.isNone && cleanup.isNone then fail .expectedHandler
  else
    finish start
      (.trying (some body) (handler.map (·.1)) (handler.map (·.2)) cleanup)

-- ============================================================== switch

/-- The test of a switch clause with its keyword: nothing for the
default clause, which may come only once. -/
def clauseTest (g : Grammar) (hasDefault : Bool) :
    Parse (Option Tree) := do
  match ← look Cursor.kind with
  | .keyword .caseWord =>
    advance
    some <$> g.expression false
  | .keyword .defaultWord =>
    if hasDefault then fail .secondDefault
    else
      advance
      return none
  | _ => fail .expectedClause

/-- A clause of a switch statement, and whether it is the default. -/
def clause (g : Grammar) (s : Surroundings) (hasDefault : Bool) :
    Parse (Tree × Bool) := do
  let start ← here
  let test ← g.clauseTest hasDefault
  expect Punctuator.colon
  let statements ← g.statements { s with inSwitch := true }
  let clause ← finish start (.clause test statements)
  return (clause, test.isNone)

/-- A switch statement. -/
def switch (g : Grammar) (s : Surroundings) : Parse Tree := do
  let start ← here
  expect Keyword.switchWord
  let subject ← g.condition
  expect Punctuator.openBrace
  let clauses ← iterate
    (fun (done, hasDefault) => do
      if ← isAt Punctuator.closeBrace then return none
      else
        let (clause, isDefault) ← g.clause s hasDefault
        return some (some clause :: done, hasDefault || isDefault))
    (([] : List (Option Tree)), false)
  expect Punctuator.closeBrace
  finish start (.switch (some subject) clauses.1.reverse)

-- ========================================================== statements

/-- A statement that begins with an expression: a labelled one when a
colon follows a lone identifier. The documentation comment in front of
an expression statement belongs to the expression. -/
def expressionStatement (g : Grammar) (s : Surroundings) :
    Parse Tree := do
  let token ← look (·.token)
  let value ← g.expression false
  if value.identifier?.isSome && (← isAt Punctuator.colon) then
    advance
    let statement ← g.statement s
    finish token.start (.labeled (some value) (some statement))
  else
    endStatement
    finish token.start (.expression (some (value.withDoc token.doc)))

/-- A statement. Documentation comments belong to variable and function
declarations and to expressions. -/
def statementHere (g : Grammar) (s : Surroundings) : Parse Tree := do
  let token ← look (·.token)
  match token.kind with
  | .punctuator .openBrace => g.block s
  | .punctuator .semicolon => atom .empty
  | .keyword .debuggerWord =>
    advance
    endStatement
    finish token.start .empty
  | .keyword .varWord =>
    let statement ← g.declarations false
    endStatement
    return statement.withDoc token.doc
  | .keyword .functionWord =>
    let function ← g.function true
    return function.withDoc token.doc
  | .keyword .ifWord => g.branch s
  | .keyword .forWord => g.forLoop s
  | .keyword .whileWord => g.whileLoop s
  | .keyword .doWord => g.doWhile s
  | .keyword .continueWord | .keyword .breakWord => jump s
  | .keyword .returnWord => g.returning s
  | .keyword .throwWord => g.throwing
  | .keyword .tryWord => g.trying s
  | .keyword .switchWord => g.switch s
  | .identifier =>
    if token.value == "with" then failAt token.start .withStatement
    else g.expressionStatement s
  | _ => g.expressionStatement s

-- =============================================================== depth

/-- No level is left: whatever would nest fails. -/
def exhausted : Grammar where
  assignment _ := fail .tooDeep
  operand _ _ := fail .tooDeep
  unary := fail .tooDeep
  callee := fail .tooDeep
  statement _ := fail .tooDeep

/-- The grammar one level further out. -/
def outer (g : Grammar) : Grammar where
  assignment := g.assignmentExpression
  operand := g.binaryExpression
  unary := g.unaryExpression
  callee := g.leftHand false
  statement := g.statementHere

/-- The grammar with a number of nesting levels. -/
def levels : Nat → Grammar
  | 0 => exhausted
  | n + 1 => (levels n).outer

/-- How deeply constructs may nest. -/
def maxDepth : Nat := 256

-- ============================================================ programs

/-- The statements of a program, to the end of the text. -/
def program (g : Grammar) : Parse Tree := do
  let statements ← many do
    if ← isAt .endOfText then return none
    else return some (some (← g.statement {}))
  let token ← look (·.token)
  match token.openComment with
  | some offset => failAt offset .openComment
  | none => return .node 0 token.stop none (.file statements)

end Grammar

/-- What reading a program text comes to: its syntax tree or the first
error in it, and the cursor where reading ended. -/
def Tree.read (text : String) : Except SyntaxError Tree × Cursor :=
  (Grammar.levels Grammar.maxDepth).program.run.run
    { lexeme := Lexeme.first text }

/-- The syntax tree of a program text, or the first error in it. -/
def Tree.parse (text : String) : Except SyntaxError Tree :=
  (Tree.read text).1

end ScriptLint
