/-
The kinds of tokens: punctuators, keywords, literals, identifiers, the
end of the text, and characters that begin no token. Operators carry
their roles here: which of them assign, and how tightly the binary ones
bind.
-/

namespace ScriptLint

-- ========================================================= punctuators

/-- Punctuation marks and operators. -/
inductive Punctuator where
  | openBrace
  | closeBrace
  | openParen
  | closeParen
  | openBracket
  | closeBracket
  | dot
  | semicolon
  | comma
  | less
  | greater
  | lessEquals
  | greaterEquals
  | equalsEquals
  | bangEquals
  | equalsEqualsEquals
  | bangEqualsEquals
  | plus
  | minus
  | star
  | slash
  | percent
  | plusPlus
  | minusMinus
  | shiftLeft
  | shiftRight
  | shiftRightUnsigned
  | ampersand
  | bar
  | caret
  | bang
  | tilde
  | ampersandAmpersand
  | barBar
  | question
  | colon
  | equals
  | plusEquals
  | minusEquals
  | starEquals
  | slashEquals
  | percentEquals
  | shiftLeftEquals
  | shiftRightEquals
  | shiftRightUnsignedEquals
  | ampersandEquals
  | barEquals
  | caretEquals
  deriving Repr, DecidableEq

namespace Punctuator

/-- All punctuators; among those that begin alike the longest stands
first. -/
def all : List Punctuator :=
  [.shiftRightUnsignedEquals, .equalsEqualsEquals, .bangEqualsEquals,
   .shiftRightUnsigned, .shiftLeftEquals, .shiftRightEquals, .lessEquals,
   .greaterEquals, .equalsEquals, .bangEquals, .plusPlus, .minusMinus,
   .shiftLeft, .shiftRight, .ampersandAmpersand, .barBar, .plusEquals,
   .minusEquals, .starEquals, .slashEquals, .percentEquals,
   .ampersandEquals, .barEquals, .caretEquals, .openBrace, .closeBrace,
   .openParen, .closeParen, .openBracket, .closeBracket, .dot, .semicolon,
   .comma, .less, .greater, .plus, .minus, .star, .slash, .percent,
   .ampersand, .bar, .caret, .bang, .tilde, .question, .colon, .equals]

/-- How the punctuator is written. -/
def text : Punctuator → String
  | .openBrace => "\x7b"
  | .closeBrace => "\x7d"
  | .openParen => "("
  | .closeParen => ")"
  | .openBracket => "["
  | .closeBracket => "]"
  | .dot => "."
  | .semicolon => ";"
  | .comma => ","
  | .less => "<"
  | .greater => ">"
  | .lessEquals => "<="
  | .greaterEquals => ">="
  | .equalsEquals => "=="
  | .bangEquals => "!="
  | .equalsEqualsEquals => "==="
  | .bangEqualsEquals => "!=="
  | .plus => "+"
  | .minus => "-"
  | .star => "*"
  | .slash => "/"
  | .percent => "%"
  | .plusPlus => "++"
  | .minusMinus => "--"
  | .shiftLeft => "<<"
  | .shiftRight => ">>"
  | .shiftRightUnsigned => ">>>"
  | .ampersand => "&"
  | .bar => "|"
  | .caret => "^"
  | .bang => "!"
  | .tilde => "~"
  | .ampersandAmpersand => "&&"
  | .barBar => "||"
  | .question => "?"
  | .colon => ":"
  | .equals => "="
  | .plusEquals => "+="
  | .minusEquals => "-="
  | .starEquals => "*="
  | .slashEquals => "/="
  | .percentEquals => "%="
  | .shiftLeftEquals => "<<="
  | .shiftRightEquals => ">>="
  | .shiftRightUnsignedEquals => ">>>="
  | .ampersandEquals => "&="
  | .barEquals => "|="
  | .caretEquals => "^="

/-- The longest punctuator that the text begins with. -/
def longest? (cs : List Char) : Option Punctuator :=
  all.find? fun p => p.text.toList.isPrefixOf cs

/-- The equals sign and the compound assignment operators. -/
def isAssignment : Punctuator → Bool
  | .equals | .plusEquals | .minusEquals | .starEquals | .slashEquals
  | .percentEquals | .shiftLeftEquals | .shiftRightEquals
  | .shiftRightUnsignedEquals | .ampersandEquals | .barEquals
  | .caretEquals => true
  | _ => false

end Punctuator

-- ============================================================ keywords

/-- Reserved words. -/
inductive Keyword where
  | breakWord
  | caseWord
  | catchWord
  | continueWord
  | debuggerWord
  | defaultWord
  | deleteWord
  | doWord
  | elseWord
  | falseWord
  | finallyWord
  | forWord
  | functionWord
  | ifWord
  | inWord
  | instanceofWord
  | newWord
  | nullWord
  | returnWord
  | switchWord
  | thisWord
  | throwWord
  | trueWord
  | tryWord
  | typeofWord
  | varWord
  | voidWord
  | whileWord
  deriving Repr, DecidableEq

namespace Keyword

/-- All keywords, in alphabetical order. -/
def all : List Keyword :=
  [.breakWord, .caseWord, .catchWord, .continueWord, .debuggerWord,
   .defaultWord, .deleteWord, .doWord, .elseWord, .falseWord, .finallyWord,
   .forWord, .functionWord, .ifWord, .inWord, .instanceofWord, .newWord,
   .nullWord, .returnWord, .switchWord, .thisWord, .throwWord, .trueWord,
   .tryWord, .typeofWord, .varWord, .voidWord, .whileWord]

/-- How the keyword is written. -/
def text : Keyword → String
  | .breakWord => "break"
  | .caseWord => "case"
  | .catchWord => "catch"
  | .continueWord => "continue"
  | .debuggerWord => "debugger"
  | .defaultWord => "default"
  | .deleteWord => "delete"
  | .doWord => "do"
  | .elseWord => "else"
  | .falseWord => "false"
  | .finallyWord => "finally"
  | .forWord => "for"
  | .functionWord => "function"
  | .ifWord => "if"
  | .inWord => "in"
  | .instanceofWord => "instanceof"
  | .newWord => "new"
  | .nullWord => "null"
  | .returnWord => "return"
  | .switchWord => "switch"
  | .thisWord => "this"
  | .throwWord => "throw"
  | .trueWord => "true"
  | .tryWord => "try"
  | .typeofWord => "typeof"
  | .varWord => "var"
  | .voidWord => "void"
  | .whileWord => "while"

/-- The keyword with the given spelling. -/
def ofText? (text : String) : Option Keyword :=
  all.find? fun keyword => keyword.text == text

end Keyword

-- =============================================================== kinds

/-- What a token is. -/
inductive TokenKind where
  /-- A character that begins no token. -/
  | unknown
  | endOfText
  | number
  | string
  | regex
  | identifier
  | punctuator (p : Punctuator)
  | keyword (k : Keyword)
  deriving Repr, DecidableEq

namespace TokenKind

instance : Coe Punctuator TokenKind := ⟨.punctuator⟩

instance : Coe Keyword TokenKind := ⟨.keyword⟩

/-- How a token of the kind is named in messages: as it is written when
there is only one way, else by its class. -/
def text : TokenKind → String
  | .unknown => "<unknown>"
  | .endOfText => "<end of file>"
  | .number => "<number>"
  | .string => "<string>"
  | .regex => "<regexp>"
  | .identifier => "<identifier>"
  | .punctuator p => p.text
  | .keyword k => k.text

/-- Whether the token is a reserved word. -/
def isKeyword : TokenKind → Bool
  | .keyword _ => true
  | _ => false

/-- Whether the token assigns. -/
def isAssignment : TokenKind → Bool
  | .punctuator p => p.isAssignment
  | _ => false

/-- How tightly a binary operator binds, from 1; 0 for tokens that are
no binary operators. The comma is not among them. -/
def precedence : TokenKind → Nat
  | .punctuator .barBar => 1
  | .punctuator .ampersandAmpersand => 2
  | .punctuator .bar => 3
  | .punctuator .caret => 4
  | .punctuator .ampersand => 5
  | .punctuator .equalsEquals | .punctuator .bangEquals
  | .punctuator .equalsEqualsEquals
  | .punctuator .bangEqualsEquals => 6
  | .punctuator .less | .punctuator .greater
  | .punctuator .lessEquals | .punctuator .greaterEquals
  | .keyword .instanceofWord | .keyword .inWord => 7
  | .punctuator .shiftLeft | .punctuator .shiftRight
  | .punctuator .shiftRightUnsigned => 8
  | .punctuator .plus | .punctuator .minus => 9
  | .punctuator .star | .punctuator .slash
  | .punctuator .percent => 10
  | _ => 0

end TokenKind

end ScriptLint
