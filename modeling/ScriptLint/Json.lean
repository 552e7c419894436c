/-
JSON, as far as the checker needs it: reading flat objects whose values
are truth values, texts and lists of texts, and writing strings. Numbers
and nested objects are not read, since no setting takes them.
-/
import ScriptLint.Text.CharClass

namespace ScriptLint.Json

-- ============================================================= strings

/-- What stands in a string literal: a character, or a UTF-16 code unit
given by its four digits. -/
inductive Item where
  | char (c : Char)
  | unit (n : Nat)
  deriving Repr, DecidableEq

/-- The characters of a string literal. A code unit that is half of a
surrogate pair must stand next to the other half. -/
def charsOf? : List Item → Option (List Char)
  | [] => some []
  | .char c :: items => (charsOf? items).map (c :: ·)
  | .unit high :: .unit low :: items =>
    if 0xD800 ≤ high && high < 0xDC00 then
      if 0xDC00 ≤ low && low < 0xE000 then
        let code := 0x10000 + (high - 0xD800) * 0x400 + (low - 0xDC00)
        (charsOf? items).map (Char.ofNat code :: ·)
      else none
    else if 0xDC00 ≤ high && high < 0xE000 then none
    else (charsOf? (.unit low :: items)).map (Char.ofNat high :: ·)
  | .unit n :: items =>
    if 0xD800 ≤ n && n < 0xE000 then none
    else (charsOf? items).map (Char.ofNat n :: ·)

/-- The character that a backslash and a letter stand for. -/
def escaped? : Char → Option Char
  | '"' => some '"'
  | '\\' => some '\\'
  | '/' => some '/'
  | 'b' => some '\x08'
  | 'f' => some '\x0c'
  | 'n' => some '\n'
  | 'r' => some '\r'
  | 't' => some '\t'
  | _ => none

/-- The value of four hexadecimal digits. -/
def unitOf? (digits : List Char) : Option Nat :=
  digits.foldlM (fun n c => (Text.hexValue? c).map (16 * n + ·)) 0

-- ============================================================== tokens

/-- The tokens of JSON, without numbers. -/
inductive Token where
  | openBrace
  | closeBrace
  | openBracket
  | closeBracket
  | colon
  | comma
  | null
  | flag (value : Bool)
  | text (value : String)
  deriving Repr, DecidableEq

/-- Whether a character may stand between tokens. -/
def isSpace (c : Char) : Bool :=
  c == ' ' || c == '\t' || c == '\n' || c == '\r'

/-- The token that a character is by itself. -/
def markOf? : Char → Option Token
  | '\x7b' => some .openBrace
  | '\x7d' => some .closeBrace
  | '[' => some .openBracket
  | ']' => some .closeBracket
  | ':' => some .colon
  | ',' => some .comma
  | _ => none

mutual

/-- The tokens of a text. -/
def tokens? : List Char → Option (List Token)
  | [] => some []
  | '"' :: cs => tokensWithin? [] cs
  | 'n' :: 'u' :: 'l' :: 'l' :: cs => (tokens? cs).map (.null :: ·)
  | 't' :: 'r' :: 'u' :: 'e' :: cs => (tokens? cs).map (.flag true :: ·)
  | 'f' :: 'a' :: 'l' :: 's' :: 'e' :: cs =>
    (tokens? cs).map (.flag false :: ·)
  | c :: cs =>
    if isSpace c then tokens? cs
    else
      match markOf? c with
      | some token => (tokens? cs).map (token :: ·)
      | none => none

/-- The tokens of a text that begins within a string literal, of which
some items are read already, the last one first. -/
def tokensWithin? (read : List Item) : List Char → Option (List Token)
  | [] => none
  | '"' :: cs => do
    let text ← charsOf? read.reverse
    return .text (String.ofList text) :: (← tokens? cs)
  | '\\' :: 'u' :: a :: b :: c :: d :: cs => do
    let n ← unitOf? [a, b, c, d]
    tokensWithin? (.unit n :: read) cs
  | '\\' :: c :: cs => do
    let c ← escaped? c
    tokensWithin? (.char c :: read) cs
  | c :: cs =>
    if c < ' ' || c == '\\' then none
    else tokensWithin? (.char c :: read) cs

end

-- ============================================================== values

/-- What is left of some tokens when at least one of them is read. -/
abbrev Rest (tokens : List Token) :=
  { rest : List Token // rest.length < tokens.length }

/-- The values that a setting can have: nothing, a truth value, a text or
a list of texts. -/
inductive Value where
  | null
  | flag (value : Bool)
  | text (value : String)
  | texts (values : List String)
  deriving Repr, DecidableEq

/-- Reads items with commas between them, at least one, and the token that
closes them. -/
def itemsUpTo {α : Type} (close : Token)
    (item : (tokens : List Token) → Option (α × Rest tokens))
    (tokens : List Token) : Option (List α × Rest tokens) :=
  match item tokens with
  | some (x, ⟨.comma :: rest, h⟩) =>
    match itemsUpTo close item rest with
    | some (xs, ⟨rest', h'⟩) =>
      some (x :: xs, ⟨rest', by simp only [List.length_cons] at h; omega⟩)
    | none => none
  | some (x, ⟨token :: rest, h⟩) =>
    if token == close then
      some ([x], ⟨rest, by simp only [List.length_cons] at h; omega⟩)
    else none
  | some (_, ⟨[], _⟩) | none => none
termination_by tokens.length
decreasing_by simp only [List.length_cons] at h; omega

/-- Reads items with commas between them, or none at all, and the token
that closes them. -/
def listUpTo {α : Type} (close : Token)
    (item : (tokens : List Token) → Option (α × Rest tokens)) :
    (tokens : List Token) → Option (List α × Rest tokens)
  | [] => none
  | token :: rest =>
    if token == close then some ([], ⟨rest, by simp⟩)
    else itemsUpTo close item (token :: rest)

/-- Reads a text. -/
def readText : (tokens : List Token) → Option (String × Rest tokens)
  | .text s :: rest => some (s, ⟨rest, by simp⟩)
  | _ => none

/-- Reads a value. -/
def readValue : (tokens : List Token) → Option (Value × Rest tokens)
  | .null :: rest => some (.null, ⟨rest, by simp⟩)
  | .flag b :: rest => some (.flag b, ⟨rest, by simp⟩)
  | .text s :: rest => some (.text s, ⟨rest, by simp⟩)
  | .openBracket :: rest =>
    match listUpTo .closeBracket readText rest with
    | some (texts, ⟨rest', h⟩) =>
      some (.texts texts, ⟨rest', by simp only [List.length_cons]; omega⟩)
    | none => none
  | _ => none

/-- Reads a key and its value. -/
def readMember :
    (tokens : List Token) → Option ((String × Value) × Rest tokens)
  | .text key :: .colon :: rest =>
    match readValue rest with
    | some (value, ⟨rest', h⟩) =>
      some ((key, value), ⟨rest', by simp only [List.length_cons]; omega⟩)
    | none => none
  | _ => none

/-- The members of a text that is an object, in the order written. A text
that is an array gives its values to the keys of `names`, in order, and
must not have more values than there are names. -/
def members? (names : List String) (text : String) :
    Option (List (String × Value)) := do
  match ← tokens? text.toList with
  | .openBrace :: rest =>
    match ← listUpTo .closeBrace readMember rest with
    | (members, ⟨[], _⟩) => return members
    | _ => none
  | .openBracket :: rest =>
    match ← listUpTo .closeBracket readValue rest with
    | (values, ⟨[], _⟩) =>
      if values.length ≤ names.length then return names.zip values else none
    | _ => none
  | _ => none

-- ============================================================= writing

/-- A hexadecimal digit, in small letters. -/
def hexDigit (n : Nat) : Char :=
  if n < 10 then Char.ofNat ('0'.toNat + n)
  else Char.ofNat ('a'.toNat + (n - 10))

/-- How a character is written within quotes: quotes, backslashes and
control characters are escaped, everything else stands for itself. -/
def escape (c : Char) : List Char :=
  match c with
  | '"' => ['\\', '"']
  | '\\' => ['\\', '\\']
  | '\x08' => ['\\', 'b']
  | '\x0c' => ['\\', 'f']
  | '\n' => ['\\', 'n']
  | '\r' => ['\\', 'r']
  | '\t' => ['\\', 't']
  | c =>
    if c < ' ' then
      ['\\', 'u', '0', '0', hexDigit (c.toNat / 16), hexDigit (c.toNat % 16)]
    else [c]

/-- A string literal. -/
def quote (text : String) : String :=
  String.ofList ('"' :: text.toList.flatMap escape ++ ['"'])

end ScriptLint.Json
