/-
Texts as a file system keeps them. The names of files are sequences of
bytes. Most of them are UTF-8 and can be taken for the text that they
encode, but nothing makes them so: a name may hold any bytes but that of a
slash. Such a name has no characters, so no question about its characters
has an answer, and where it is shown there are marks for what cannot be
read.
-/
import ScriptLint.Text.Utf8

namespace ScriptLint

/-- A text that is known by its bytes, which need not be UTF-8. -/
structure RawText where
  bytes : List UInt8
  deriving Repr, DecidableEq

namespace RawText

/-- The bytes that encode a text. -/
def ofText (text : String) : RawText := ⟨Text.Utf8.encode text.toList⟩

instance : Coe String RawText := ⟨ofText⟩

@[simp] theorem ofText_empty : ofText "" = ⟨[]⟩ := rfl

/-- The text that the bytes encode, if they encode one. -/
def text? (raw : RawText) : Option String := Text.Utf8.text? raw.bytes

/-- The bytes as they are shown. -/
def shown (raw : RawText) : String :=
  String.ofList (Text.Utf8.shown raw.bytes)

instance : Append RawText := ⟨fun a b => ⟨a.bytes ++ b.bytes⟩⟩

/-- Raw texts are ordered by their bytes. -/
instance : Ord RawText := ⟨fun a b => compare a.bytes b.bytes⟩

end RawText

end ScriptLint
