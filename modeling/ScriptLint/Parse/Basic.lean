/-
The ground of parsing: a cursor on the current token, the ways in which
a text can fail to be a program, and the elementary steps over tokens.
Parsing stops at the first error. Errors are found at the current token
unless a step names another place, and a token that is itself at fault
(an unknown character, a literal or comment never closed) takes
precedence over what was expected in its place.
-/
import ScriptLint.Token
import ScriptLint.Syntax.Tree

namespace ScriptLint

-- ============================================================== errors

/-- Why a text is not a program. -/
inductive SyntaxFault where
  | expected (kind : TokenKind)
  | expectedIdentifier
  | expectedExpression
  | expectedClause
  | expectedHandler
  | invalidCharacter
  | openString
  | openRegex
  | openComment
  | tooDeep
  | badAssignmentTarget
  | accessorProperty
  | withStatement
  | manyLoopVariables
  | secondDefault
  | returnOutside
  | breakOutside
  | continueOutside
  | breakAfterThrow
  deriving Repr, DecidableEq

/-- The message for a fault. -/
def SyntaxFault.message : SyntaxFault → String
  | .expected kind => s!"'{kind.text}' expected."
  | .expectedIdentifier => "Identifier expected."
  | .expectedExpression => "Expression expected."
  | .expectedClause => "'case' or 'default' expected."
  | .expectedHandler => "'catch' or 'finally' expected."
  | .invalidCharacter => "Invalid character."
  | .openString => "Unterminated string literal."
  | .openRegex => "Unterminated regular expression literal."
  | .openComment => "Unterminated comment."
  | .tooDeep => "Maximum nesting depth exceeded."
  | .badAssignmentTarget => "Invalid left-hand side in assignment."
  | .accessorProperty => "Accessor properties are not supported."
  | .withStatement => "'with' statements are not supported."
  | .manyLoopVariables =>
    "Only a single variable declaration is allowed in a 'for...in' "
      ++ "statement."
  | .secondDefault =>
    "A 'default' clause cannot appear more than once in a 'switch' "
      ++ "statement."
  | .returnOutside =>
    "A 'return' statement can only be used within a function body."
  | .breakOutside =>
    "A 'break' statement can only be used within an enclosing iteration "
      ++ "or switch statement."
  | .continueOutside =>
    "A 'continue' statement can only be used within an enclosing "
      ++ "iteration statement."
  | .breakAfterThrow => "Line break not permitted here."

/-- A fault and the byte at which it lies. -/
structure SyntaxError where
  fault : SyntaxFault
  offset : Nat
  deriving Repr, DecidableEq

-- ============================================================== cursor

/-- A place in the text: the current token, not yet consumed, and the
tokens that were, the last one first. -/
structure Cursor where
  lexeme : Lexeme
  consumed : List Token := []
  deriving Repr, DecidableEq

namespace Cursor

def token (cursor : Cursor) : Token := cursor.lexeme.token

/-- Where the last consumed token ends. -/
def lastStop (cursor : Cursor) : Nat :=
  cursor.consumed.head?.elim 0 Token.stop

def kind (cursor : Cursor) : TokenKind := cursor.token.kind

/-- How much text is left, the current token included. -/
def remaining (cursor : Cursor) : Nat := cursor.lexeme.ahead.length

/-- The cursor on the next token. -/
def next (cursor : Cursor) : Cursor :=
  { lexeme := cursor.lexeme.next
    consumed := cursor.token :: cursor.consumed }

/-- The error at the current token when `fault` is what the grammar has
against it. -/
def error (cursor : Cursor) (fault : SyntaxFault) : SyntaxError :=
  match cursor.token.openComment with
  | some offset => ⟨.openComment, offset⟩
  | none =>
    let fault := match cursor.kind, cursor.token.isOpen with
      | .unknown, _ => .invalidCharacter
      | .string, true => .openString
      | .regex, true => .openRegex
      | _, _ => fault
    ⟨fault, cursor.token.start⟩

end Cursor

/-- A parser: it moves the cursor and yields a result or fails, and the
cursor stays where it failed. -/
abbrev Parse := ExceptT SyntaxError (StateM Cursor)

namespace Parse

-- =============================================================== steps

/-- Something read off the cursor. -/
def look {α : Type} (f : Cursor → α) : Parse α := f <$> get

/-- Where the current token starts. -/
def here : Parse Nat := look (·.token.start)

/-- Whether the current token is of the kind. -/
def isAt (kind : TokenKind) : Parse Bool := look (·.kind == kind)

/-- Consumes the current token. -/
def advance : Parse Unit := modify Cursor.next

/-- Fails at the current token. -/
def fail {α : Type} (fault : SyntaxFault) : Parse α := do
  throw ((← get).error fault)

/-- Fails at a given byte. -/
def failAt {α : Type} (offset : Nat) (fault : SyntaxFault) : Parse α :=
  throw ⟨fault, offset⟩

/-- Consumes the current token if it is of the kind, and says whether it
was. -/
def accept (kind : TokenKind) : Parse Bool := do
  if ← isAt kind then
    advance
    return true
  else return false

/-- Consumes a token of the kind, or fails. -/
def expect (kind : TokenKind) : Parse Unit := do
  unless ← accept kind do fail (.expected kind)

/-- Whether a statement may end in front of the current token: it is a
semicolon, a closing brace or the end of the text, or it stands on a new
line. -/
def mayEnd (cursor : Cursor) : Bool :=
  cursor.kind == .punctuator .semicolon
    || cursor.kind == .punctuator .closeBrace
    || cursor.kind == .endOfText || cursor.token.afterBreak

/-- Ends a statement: consumes a semicolon, or nothing where none is
needed. -/
def endStatement : Parse Unit := do
  unless ← accept Punctuator.semicolon do
    unless ← look mayEnd do fail (.expected Punctuator.semicolon)

/-- A node that starts at a byte and ends with the last consumed
token. -/
def finish (start : Nat) (form : Form (Option Tree)) : Parse Tree :=
  look fun cursor => .node start (max cursor.lastStop start) none form

-- =============================================================== loops

/-- Repeats a step from state to state until it declines. A step that
consumes nothing is not repeated. -/
def iterate {σ : Type} (step : σ → Parse (Option σ)) (state : σ)
    (cursor : Cursor) : Except SyntaxError σ × Cursor :=
  match (step state).run.run cursor with
  | (.error e, cursor) => (.error e, cursor)
  | (.ok none, cursor) => (.ok state, cursor)
  | (.ok (some state), cursor') =>
    if cursor'.remaining < cursor.remaining then
      iterate step state cursor'
    else (.ok state, cursor')
termination_by cursor.remaining

/-- The results of a step that is repeated until it declines. -/
def many {α : Type} (step : Parse (Option α)) : Parse (List α) := do
  let reversed ← iterate
    (fun (done : List α) => do
      let result ← step
      return result.map (· :: done))
    []
  return reversed.reverse

/-- One or more items with commas between them. -/
def separated {α : Type} (item : Parse α) : Parse (List α) := do
  let first ← item
  let more ← many do
    if ← accept Punctuator.comma then some <$> item else return none
  return first :: more

end Parse

end ScriptLint
