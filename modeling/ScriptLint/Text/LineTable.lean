/-
Line maps as they are stored. Offsets and lines are counted elsewhere by
numbers without a bound; a table of line starts holds them in 32 bits, and
so are the offsets and lines that it is asked with and answers with. What
does not fit wraps around: behind 2^32 bytes a line is stored as if it
began near the start of the text.

The table is built and searched like a line map (`LineMap.startsAfter`,
`LineMap.search`), but for the widths. The two agree for all texts that
have less than 2^32 bytes and less than 2^32 lines; there a line map stands
for the table that is stored.
-/
import ScriptLint.Text.LineMap

namespace ScriptLint.Text

/-- Where the lines of a text begin, in 32 bits each. -/
structure LineTable where
  starts : List UInt32
  deriving Repr, DecidableEq

namespace LineTable

/-- What is stored for the line that begins behind a byte. -/
def behind (last : Nat) : UInt32 := UInt32.ofNat last + 1

/-- What is stored for the lines behind the first, for a text that begins
at byte `offset`. -/
def startsAfter : Nat → List Char → List UInt32
  | _, [] => []
  | offset, '\r' :: '\n' :: cs =>
    behind (offset + 1) :: startsAfter (offset + 2) cs
  | offset, c :: cs =>
    if isLineEnd c then behind offset :: startsAfter (offset + 1) cs
    else startsAfter (offset + c.utf8Size) cs

/-- The table of a text. -/
def ofText (text : String) : LineTable :=
  ⟨0 :: startsAfter 0 text.toList⟩

/-- How many lines the text has. They are counted, not stored, so this
number does not wrap. -/
def count (table : LineTable) : Nat := table.starts.length

/-- The line map that lists what the table holds. -/
def toLineMap (table : LineTable) : LineMap :=
  ⟨table.starts.map UInt32.toNat⟩

/-- The line of a byte, from the place among the starts at which the byte
is found or would have to be put in. -/
def lineOf (table : LineTable) (offset : UInt32) : UInt32 :=
  match LineMap.search offset.toNat table.toLineMap.starts with
  | .found index => UInt32.ofNat index + 1
  | .missed below => UInt32.ofNat below

/-- The text of a line without its end. -/
def lineText? (table : LineTable) (source : String) (line : UInt32) :
    Option String := do
  guard (line ≠ 0)
  let start ← table.starts[line.toNat - 1]?
  let cs := source.toList
  let stop := table.starts[line.toNat]?.elim (byteLength cs) UInt32.toNat
  let slice ← slice? cs start.toNat stop
  return String.ofList (slice.reverse.dropWhile isLineEnd).reverse

end LineTable

end ScriptLint.Text
