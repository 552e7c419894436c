/-
Tokens. A text is read token by token; each token knows its place, the
trivia facts in front of it and its value, and comes with the text
around it so that a slash can be read again as the start of a regular
expression once the grammar expects an operand there.
-/
import ScriptLint.Token.Kind
import ScriptLint.Token.Trivia
import ScriptLint.Token.Literal

namespace ScriptLint

open Text

/-- A token. Positions are byte offsets; `value` is the identifier or
keyword, the value of a string, the text of a number or regular
expression, and empty for all other kinds. -/
structure Token where
  kind : TokenKind
  value : String
  /-- Where the trivia in front of the token begins. -/
  fullStart : Nat
  start : Nat
  stop : Nat
  /-- Whether a line break precedes the token. -/
  afterBreak : Bool
  /-- The last documentation comment in front of the token. -/
  doc : Option String
  /-- Whether the token, or a comment in front of it, is not closed. -/
  isOpen : Bool
  /-- Where the comment in front of the token begins that is not
  closed. -/
  openComment : Option Nat
  deriving Repr, DecidableEq

namespace Token

-- ========================================================= one reading

/-- What stands at the front of a text, behind the trivia. -/
structure Reading where
  kind : TokenKind
  value : List Char
  raw : List Char
  isOpen : Bool := false
  deriving Repr, DecidableEq

namespace Reading

/-- A string in the given quotes, with `cs` behind the opening one. -/
def string (quote : Char) (cs : List Char) : Reading :=
  let (parts, rest) := StringLiteral.parts quote cs
  let closed := rest.head? == some quote
  { kind := .string
    value := StringLiteral.valueOf parts
    raw := quote :: StringLiteral.rawOf parts
      ++ (if closed then [quote] else [])
    isOpen := !closed }

/-- An identifier or, when it is spelled like one, a keyword. -/
def word (cs : List Char) : Reading :=
  let raw := cs.takeWhile isIdentifierPart
  let kind := match Keyword.ofText? (String.ofList raw) with
    | some keyword => .keyword keyword
    | none => .identifier
  { kind, value := raw, raw }

/-- A number. -/
def number (cs : List Char) : Reading :=
  let raw := NumberLiteral.read cs
  { kind := .number, value := raw, raw }

/-- The longest punctuator, or a single unknown character. -/
def mark (c : Char) (cs : List Char) : Reading :=
  match Punctuator.longest? (c :: cs) with
  | some p => { kind := .punctuator p, value := [], raw := p.text.toList }
  | none => { kind := .unknown, value := [], raw := [c] }

/-- The token at the front of a text. -/
def of : List Char → Reading
  | [] => { kind := .endOfText, value := [], raw := [] }
  | c :: cs =>
    if c == '"' || c == '\'' then string c cs
    else if NumberLiteral.startsAt (c :: cs) then number (c :: cs)
    else if isIdentifierStart c then word (c :: cs)
    else mark c cs

end Reading

end Token

-- ============================================================= lexemes

/-- A token within its text. -/
structure Lexeme where
  token : Token
  /-- The text from the token on. -/
  ahead : Stretch
  /-- The text behind the token. -/
  rest : Stretch
  deriving Repr, DecidableEq

namespace Lexeme

/-- The lexeme at the front of a text that begins at byte `offset`. -/
def read (offset : Nat) (text : Stretch) : Lexeme :=
  let (trivia, ahead) := Trivia.cut text
  let reading := Token.Reading.of ahead.chars
  let start := offset + byteLength (Trivia.charsOf trivia)
  let openComment := Trivia.openComment? offset trivia
  { token :=
      { kind := reading.kind
        value := String.ofList reading.value
        fullStart := offset
        start
        stop := start + byteLength reading.raw
        afterBreak := Trivia.breakLine trivia
        doc := (Trivia.lastDoc? trivia).map String.ofList
        isOpen := reading.isOpen || openComment.isSome
        openComment }
    ahead
    rest := ahead.drop reading.raw.length }

/-- The first lexeme of a text. -/
def first (text : String) : Lexeme := read 0 (.ofList text.toList)

/-- The lexeme behind this one. Behind the end there is only the end. -/
def next (lexeme : Lexeme) : Lexeme := read lexeme.token.stop lexeme.rest

/-- A slash, alone or with an equals sign, read as the beginning of a
regular expression; any other lexeme as it is. What is known about the
trivia in front of it stays. -/
def asRegex (lexeme : Lexeme) : Lexeme :=
  match lexeme.token.kind with
  | .punctuator .slash | .punctuator .slashEquals =>
    let (raw, closed) := RegexLiteral.read (lexeme.ahead.chars.drop 1)
    { lexeme with
      token := { lexeme.token with
        kind := .regex
        value := String.ofList raw
        stop := lexeme.token.start + byteLength raw
        isOpen := lexeme.token.isOpen || !closed }
      rest := lexeme.ahead.drop raw.length }
  | _ => lexeme

end Lexeme

end ScriptLint
