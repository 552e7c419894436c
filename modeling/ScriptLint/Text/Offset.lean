/-
Positions in a program text are counted in UTF-8 bytes, while the text
itself is walked as a list of characters. This module converts between
the two: the byte length of a list of characters, and the cuts at a
given byte, which exist only between characters.

Offsets, and the lines and node numbers that are counted along with them,
are natural numbers throughout. They stand for numbers of 32 bits, and so
for texts of less than 2^32 bytes; for longer ones they are what the stored
numbers would be if these did not wrap around. Where that matters to what
is stored, which is in the table of line starts, the width is spelled out
(`LineTable`) and the bound is a hypothesis.
-/

namespace ScriptLint.Text

/-- How many bytes the characters take in UTF-8. -/
def byteLength (cs : List Char) : Nat :=
  cs.foldr (fun c length => c.utf8Size + length) 0

@[simp] theorem byteLength_nil : byteLength [] = 0 := rfl

@[simp] theorem byteLength_cons (c : Char) (cs : List Char) :
    byteLength (c :: cs) = c.utf8Size + byteLength cs := rfl

@[simp] theorem byteLength_append (cs ds : List Char) :
    byteLength (cs ++ ds) = byteLength cs + byteLength ds := by
  induction cs with
  | nil => simp
  | cons c cs ih => simp [ih, Nat.add_assoc]

/-- The text cut at byte `n`; `none` when the text is shorter or the
byte lies inside a character. -/
def splitAtByte? : Nat → List Char → Option (List Char × List Char)
  | 0, cs => some ([], cs)
  | _ + 1, [] => none
  | n + 1, c :: cs =>
    if c.utf8Size ≤ n + 1 then
      (splitAtByte? (n + 1 - c.utf8Size) cs).map
        fun (front, back) => (c :: front, back)
    else none

/-- The characters between two bytes; `none` when the bytes are out of
order, out of range or inside a character. -/
def slice? (cs : List Char) (start stop : Nat) : Option (List Char) :=
  if start ≤ stop then do
    let (_, back) ← splitAtByte? start cs
    let (middle, _) ← splitAtByte? (stop - start) back
    return middle
  else none

/-- What is left of the text behind the characters that begin before
byte `n`. -/
def dropBytes : Nat → List Char → List Char
  | 0, cs => cs
  | _ + 1, [] => []
  | n + 1, c :: cs => dropBytes (n + 1 - c.utf8Size) cs

end ScriptLint.Text
