/-
The character classes of the dialect's lexical grammar and of its
documentation comments: line breaks, blanks, identifier characters,
digits and word characters. ASCII is decided by name; everything else
goes through the Unicode tables.
-/
import ScriptLint.Text.Alphabetic
import ScriptLint.Text.Number
import ScriptLint.Text.Mark
import ScriptLint.Text.Lowercase

namespace ScriptLint.Text

-- ========================================================== white space

/-- The Unicode property White_Space. -/
def isWhiteSpace (c : Char) : Bool :=
  CodeRanges.has
    [(0x9, 0xd), (0x20, 0x20), (0x85, 0x85), (0xa0, 0xa0),
     (0x1680, 0x1680), (0x2000, 0x200a), (0x2028, 0x2029),
     (0x202f, 0x202f), (0x205f, 0x205f), (0x3000, 0x3000)] c

/-- The four characters that end a line of program text: line feed,
carriage return, and the line and paragraph separators. -/
def isLineBreak (c : Char) : Bool :=
  c == '\n' || c == '\r' || c == '\u2028' || c == '\u2029'

/-- The two line ends that close a line comment and that count lines. -/
def isLineEnd (c : Char) : Bool := c == '\n' || c == '\r'

/-- White space that stays on its line. The byte order mark counts as
white space although Unicode does not list it. -/
def isBlank (c : Char) : Bool :=
  c == ' ' || c == '\t' || c == '\x0b' || c == '\x0c'
    || c == '\u00a0' || c == '\ufeff'
    || (c.toNat > 0x7f && isWhiteSpace c && !isLineBreak c)

-- =============================================================== digits

/-- The ten ASCII digits. -/
def isDigit (c : Char) : Bool := '0' ≤ c && c ≤ '9'

/-- The value of a hexadecimal digit, of either case. -/
def hexValue? (c : Char) : Option Nat :=
  if isDigit c then some (c.toNat - '0'.toNat)
  else if 'a' ≤ c && c ≤ 'f' then some (c.toNat - 'a'.toNat + 10)
  else if 'A' ≤ c && c ≤ 'F' then some (c.toNat - 'A'.toNat + 10)
  else none

/-- The ASCII hexadecimal digits. -/
def isHexDigit (c : Char) : Bool := (hexValue? c).isSome

-- ========================================================== identifiers

/-- ASCII letters of either case. -/
def isLetter (c : Char) : Bool :=
  ('a' ≤ c && c ≤ 'z') || ('A' ≤ c && c ≤ 'Z')

/-- What an identifier may begin with. -/
def isIdentifierStart (c : Char) : Bool :=
  isLetter c || c == '$' || c == '_'
    || (c.toNat > 0x7f && isAlphabetic c)

/-- What an identifier may go on with. -/
def isIdentifierPart (c : Char) : Bool :=
  isIdentifierStart c || isDigit c
    || (c.toNat > 0x7f && (isAlphabetic c || isNumber c))

-- ================================================================ words

/-- The characters that words of any script are made of; a word boundary
lies where exactly one of two neighbours is one of them. Words go by
Unicode 16, an edition behind identifiers. -/
def isWordChar (c : Char) : Bool :=
  (isAlphabetic c && !isNewlyAlphabetic c) || isMark c || isDecimal c
    || isConnector c || c == '\u200c' || c == '\u200d'

end ScriptLint.Text
