/-
A text that knows its length. The length of a list has to be counted;
where it is asked for again and again on the way through a text, it is
kept beside the characters instead.
-/

namespace ScriptLint.Text

/-- Some characters and their number. -/
structure Stretch where
  chars : List Char
  length : Nat
  length_eq : length = chars.length
  deriving Repr, DecidableEq

namespace Stretch

/-- The stretch of all given characters. -/
def ofList (chars : List Char) : Stretch := ⟨chars, chars.length, rfl⟩

/-- The stretch behind the first `n` characters. -/
def drop (n : Nat) (text : Stretch) : Stretch where
  chars := text.chars.drop n
  length := text.length - n
  length_eq := by rw [text.length_eq, List.length_drop]

end Stretch

end ScriptLint.Text
