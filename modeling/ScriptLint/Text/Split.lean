/-
Cutting texts at a separator: into all pieces, or once at the last
place. A text may be made of characters or of bytes.
-/

namespace ScriptLint.Text

variable {α : Type} [BEq α]

/-- The pieces of a text between the separators, of which there is one
more than separators. -/
def pieces (separator : α) : List α → List (List α)
  | [] => [[]]
  | c :: cs =>
    if c == separator then [] :: pieces separator cs
    else
      match pieces separator cs with
      | [] => [[c]]
      | piece :: more => (c :: piece) :: more

/-- What stands before and behind the last separator, if there is
one. -/
def splitLast? (separator : α) (cs : List α) : Option (List α × List α) :=
  let reversed := cs.reverse
  let back := reversed.takeWhile (· != separator)
  match reversed.dropWhile (· != separator) with
  | [] => none
  | _ :: front => some (front.reverse, back.reverse)

/-- What stands before the last occurrence of a pattern. -/
def beforeLast? (pattern : List Char) : List Char → Option (List Char)
  | [] => if pattern.isEmpty then some [] else none
  | c :: cs =>
    match beforeLast? pattern cs with
    | some front => some (c :: front)
    | none => if pattern.isPrefixOf (c :: cs) then some [] else none

end ScriptLint.Text
