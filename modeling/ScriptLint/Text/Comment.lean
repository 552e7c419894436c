/-
Comments. A line comment runs to the next line end; a block comment runs
to the first star and slash behind its opening. A documentation comment
is a block comment that opens with exactly two stars and has a body.
-/
import ScriptLint.Text.CharClass
import ScriptLint.Text.Offset

namespace ScriptLint.Text.Comment

/-- The body of a line comment: everything before the line end. -/
def lineBody (cs : List Char) : List Char :=
  cs.takeWhile fun c => !isLineEnd c

/-- What follows the body of a line comment, from the line end on. -/
def afterLine (cs : List Char) : List Char :=
  cs.dropWhile fun c => !isLineEnd c

@[simp] theorem lineBody_append_afterLine (cs : List Char) :
    lineBody cs ++ afterLine cs = cs :=
  List.takeWhile_append_dropWhile

/-- The body of a block comment up to its closing star and slash, and
what follows them; `none` when the comment is never closed. -/
def blockBody? : List Char → Option (List Char × List Char)
  | [] => none
  | '*' :: '/' :: cs => some ([], cs)
  | c :: cs => (blockBody? cs).map fun (body, rest) => (c :: body, rest)

/-- A closed block comment is its body, the two closing characters and
the rest. -/
theorem eq_of_blockBody? {cs body rest : List Char}
    (h : blockBody? cs = some (body, rest)) :
    cs = body ++ '*' :: '/' :: rest := by
  fun_induction blockBody? cs generalizing body with
  | case1 => simp at h
  | case2 cs => simp at h; simp [← h.1, ← h.2]
  | case3 c cs _ ih =>
    obtain ⟨⟨body', rest'⟩, hb, he⟩ := Option.map_eq_some_iff.1 h
    simp only [Prod.mk.injEq] at he
    obtain ⟨rfl, rfl⟩ := he
    simp [ih hb]

/-- Whether a comment, given with its delimiters, is a documentation
comment: `/**/` has no body and a third star makes it a banner. -/
def isDoc (comment : List Char) : Bool :=
  4 < byteLength comment && ['/', '*', '*'].isPrefixOf comment
    && !(['/', '*', '*', '*'].isPrefixOf comment)

-- ==================================================== by byte position

/-- The byte behind the close of the block comment whose body starts at
byte `start`. -/
def blockEnd? (text : String) (start : Nat) : Option Nat := do
  let cs := text.toList
  guard (start ≤ byteLength cs)
  let (_, rest) ← blockBody? (dropBytes start cs)
  return byteLength cs - byteLength rest

/-- The byte at which the line comment that covers byte `start` ends. -/
def lineEnd (text : String) (start : Nat) : Nat :=
  let cs := text.toList
  byteLength cs - byteLength (afterLine (dropBytes start cs))

/-- A comment as a range of bytes. -/
structure Range where
  start : Nat
  stop : Nat
  isBlock : Bool
  deriving Repr, DecidableEq

namespace Range

/-- The text under the range; empty when the range is. -/
def text (range : Range) (source : String) : String :=
  if range.start < range.stop then
    ((slice? source.toList range.start range.stop).map
      String.ofList).getD ""
  else ""

/-- Whether the range holds a documentation comment. -/
def isDoc (range : Range) (source : String) : Bool :=
  range.isBlock && Comment.isDoc (range.text source).toList

end Range

end ScriptLint.Text.Comment
