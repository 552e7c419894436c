/-
Literals: numbers, strings and regular expressions, each read off the
front of a text. A number is a longest match; a string is a sequence of
parts, each the text of one character or escape beside what it stands
for; a regular expression is its body, delimited by slashes outside
character classes, and its flags.
-/
import ScriptLint.Text.CharClass

namespace ScriptLint

open Text

-- ============================================================= numbers

namespace NumberLiteral

/-- The fraction that the text begins with: a point and any digits. -/
def fraction : List Char → List Char
  | '.' :: cs => '.' :: cs.takeWhile isDigit
  | _ => []

/-- The exponent that the text begins with: the letter, a sign or none,
and at least one digit. -/
def exponent : List Char → List Char
  | e :: cs =>
    let digits (ds : List Char) := ds.takeWhile isDigit
    if e == 'e' || e == 'E' then
      match cs with
      | sign :: ds =>
        if sign == '+' || sign == '-' then
          if (digits ds).isEmpty then [] else e :: sign :: digits ds
        else if (digits cs).isEmpty then [] else e :: digits cs
      | [] => []
    else []
  | [] => []

/-- The decimal number that the text begins with. -/
def decimal (cs : List Char) : List Char :=
  let whole := cs.takeWhile isDigit
  let cs := cs.dropWhile isDigit
  let part := fraction cs
  whole ++ part ++ exponent (cs.drop part.length)

/-- The number that the text begins with: hexadecimal behind `0x`, where
no digit need follow, else decimal. -/
def read : List Char → List Char
  | '0' :: x :: cs =>
    if x == 'x' || x == 'X' then '0' :: x :: cs.takeWhile isHexDigit
    else decimal ('0' :: x :: cs)
  | cs => decimal cs

/-- Whether a number stands at the front of the text: a digit, or a
point with a digit behind it. -/
def startsAt : List Char → Bool
  | '.' :: c :: _ => isDigit c
  | c :: _ => isDigit c
  | [] => false

end NumberLiteral

-- ============================================================= strings

namespace StringLiteral

/-- The character that `count` hexadecimal digits at the front of the
text denote. A plus sign may stand in the place of the first digit. No
character results when a digit is missing or the code point is a
surrogate. -/
def hexChar? (count : Nat) (cs : List Char) : Option Char := do
  let places := cs.take count
  guard (places.length = count)
  let digits := match places with
    | '+' :: digits => digits
    | digits => digits
  let values ← digits.mapM hexValue?
  let code := values.foldl (fun value digit => 16 * value + digit) 0
  if code.isValidChar then some (Char.ofNat code) else none

/-- What the characters behind a backslash stand for, and how many of
them belong to the escape. A line break behind a backslash stands for
nothing; a letter without a meaning stands for itself, and so do `x` and
`u` when their digits are missing. -/
def escape : List Char → List Char × Nat
  | [] => ([], 0)
  | '\r' :: '\n' :: _ => ([], 2)
  | c :: cs =>
    match c with
    | 'n' => (['\n'], 1)
    | 't' => (['\t'], 1)
    | 'r' => (['\r'], 1)
    | 'b' => (['\x08'], 1)
    | 'f' => (['\x0c'], 1)
    | 'v' => (['\x0b'], 1)
    -- in front of a digit a zero is just a zero
    | '0' => (if cs.head?.any isDigit then ['0'] else ['\x00'], 1)
    | 'x' =>
      match hexChar? 2 cs with
      | some decoded => ([decoded], 3)
      | none => (['x'], 1)
    | 'u' =>
      match hexChar? 4 cs with
      | some decoded => ([decoded], 5)
      | none => (['u'], 1)
    | c => (if isLineBreak c then [] else [c], 1)

/-- One character or escape of a string literal: its text and what it
stands for. -/
structure Part where
  raw : List Char
  value : List Char
  deriving Repr, DecidableEq

/-- The part that the text begins with; `none` where the string ends: at
its quote, at a line break and at the end of the text. -/
def part? (quote : Char) : List Char → Option (Part × List Char)
  | [] => none
  | c :: cs =>
    if c == quote || isLineBreak c then none
    else if c == '\\' then
      let (value, count) := escape cs
      some (⟨c :: cs.take count, value⟩, cs.drop count)
    else some (⟨[c], [c]⟩, cs)

/-- A part is a non-empty piece of the text. -/
theorem part?_eq_some {quote : Char} {cs rest : List Char} {part : Part}
    (h : part? quote cs = some (part, rest)) :
    part.raw ++ rest = cs ∧ part.raw ≠ [] := by
  unfold part? at h
  split at h
  · cases h
  · split at h
    · cases h
    · split at h
      all_goals
        simp only [Option.some.injEq, Prod.mk.injEq] at h
        obtain ⟨rfl, rfl⟩ := h
        simp

/-- The parts up to the end of the string, and the rest from there
on. -/
def parts (quote : Char) (cs : List Char) : List Part × List Char :=
  match _h : part? quote cs with
  | none => ([], cs)
  | some (part, rest) =>
    let (more, rest) := parts quote rest
    (part :: more, rest)
termination_by cs.length
decreasing_by
  obtain ⟨h, hne⟩ := part?_eq_some _h
  have := List.length_pos_iff.2 hne
  simp [← h, this]

/-- The text of several parts. -/
def rawOf (parts : List Part) : List Char := parts.flatMap Part.raw

/-- What several parts stand for. -/
def valueOf (parts : List Part) : List Char := parts.flatMap Part.value

/-- The parts and the rest make up the text. -/
theorem rawOf_append_parts (quote : Char) (cs : List Char) :
    rawOf (parts quote cs).1 ++ (parts quote cs).2 = cs := by
  fun_induction parts quote cs with
  | case1 => simp [rawOf]
  | case2 cs part rest h more rest' hs ih =>
    simp only [hs, rawOf, List.flatMap_cons, List.append_assoc] at ih ⊢
    rw [ih, (part?_eq_some h).1]

end StringLiteral

-- ================================================= regular expressions

namespace RegexLiteral

/-- The body that follows the opening slash, with its closing slash, and
whether there is one. Within a character class a slash does not close;
a backslash takes the next character with it unless that breaks the
line. -/
def body : Bool → List Char → List Char × Bool
  | _, [] => ([], false)
  | inClass, '\\' :: c :: cs =>
    if isLineBreak c then (['\\'], false)
    else
      let (raw, closed) := body inClass cs
      ('\\' :: c :: raw, closed)
  | inClass, c :: cs =>
    if isLineBreak c then ([], false)
    else if c == '/' && !inClass then ([c], true)
    else
      let inClass := if c == '[' then true
        else if c == ']' then false else inClass
      let (raw, closed) := body inClass cs
      (c :: raw, closed)

/-- The literal whose opening slash has `cs` behind it: its text with
the flags, and whether it is closed. -/
def read (cs : List Char) : List Char × Bool :=
  let (raw, closed) := body false cs
  let flags := (cs.drop raw.length).takeWhile isIdentifierPart
  ('/' :: raw ++ flags, closed)

end RegexLiteral

end ScriptLint
