/-
The trivia in front of a token: blanks, line breaks and comments. A text
is cut into trivia items and the rest, and every fact that parsing needs
about the trivia is read off the items: whether a line break precedes
the token, which documentation comment does, and where a comment that is
never closed begins.
-/
import ScriptLint.Text.Comment
import ScriptLint.Text.Stretch

namespace ScriptLint

open Text

/-- One piece of trivia. -/
inductive Trivia where
  /-- A run of white space within a line. -/
  | blanks (run : List Char)
  /-- A single character that breaks the line. -/
  | lineBreak (c : Char)
  /-- Two slashes and all that follows them on the line. -/
  | lineComment (body : List Char)
  /-- A block comment; `closed` is false when it runs to the end of the
  text. -/
  | blockComment (body : List Char) (closed : Bool)
  deriving Repr, DecidableEq

namespace Trivia

/-- The text of the item. -/
def chars : Trivia → List Char
  | .blanks run => run
  | .lineBreak c => [c]
  | .lineComment body => '/' :: '/' :: body
  | .blockComment body true => '/' :: '*' :: body ++ ['*', '/']
  | .blockComment body false => '/' :: '*' :: body

/-- Whether the item separates the lines of its neighbours. Block
comments do so by the line ends in their body. -/
def breaksLine : Trivia → Bool
  | .lineBreak _ => true
  | .blockComment body _ => body.any isLineEnd
  | _ => false

/-- The text of the item if it is a documentation comment. -/
def doc? (item : Trivia) : Option (List Char) :=
  match item with
  | .blockComment _ _ =>
    if Comment.isDoc item.chars then some item.chars else none
  | _ => none

/-- Whether the item is a comment that is never closed. -/
def isOpenComment : Trivia → Bool
  | .blockComment _ closed => !closed
  | _ => false

-- ============================================================= cutting

/-- The trivia item that the text begins with, and the rest. -/
def first? : List Char → Option (Trivia × List Char)
  | [] => none
  | '/' :: '/' :: cs =>
    some (.lineComment (Comment.lineBody cs), Comment.afterLine cs)
  | '/' :: '*' :: cs =>
    match Comment.blockBody? cs with
    | some (body, rest) => some (.blockComment body true, rest)
    | none => some (.blockComment cs false, [])
  | c :: cs =>
    if isLineBreak c then some (.lineBreak c, cs)
    else if isBlank c then
      some (.blanks (c :: cs.takeWhile isBlank), cs.dropWhile isBlank)
    else none

/-- Cutting an item off loses nothing, and no item is empty. -/
theorem first?_eq_some {cs rest : List Char} {item : Trivia}
    (h : first? cs = some (item, rest)) :
    item.chars ++ rest = cs ∧ item.chars ≠ [] := by
  unfold first? at h
  split at h
  · cases h
  · simp only [Option.some.injEq, Prod.mk.injEq] at h
    obtain ⟨rfl, rfl⟩ := h
    simp [chars]
  · split at h
    · next hb =>
      simp only [Option.some.injEq, Prod.mk.injEq] at h
      obtain ⟨rfl, rfl⟩ := h
      simp [chars, Comment.eq_of_blockBody? hb]
    · simp only [Option.some.injEq, Prod.mk.injEq] at h
      obtain ⟨rfl, rfl⟩ := h
      simp [chars]
  · split at h
    · simp only [Option.some.injEq, Prod.mk.injEq] at h
      obtain ⟨rfl, rfl⟩ := h
      simp [chars]
    · split at h
      · simp only [Option.some.injEq, Prod.mk.injEq] at h
        obtain ⟨rfl, rfl⟩ := h
        simp [chars]
      · cases h

theorem length_lt_of_first? {cs rest : List Char} {item : Trivia}
    (h : first? cs = some (item, rest)) : rest.length < cs.length := by
  obtain ⟨h, hne⟩ := first?_eq_some h
  have := List.length_pos_iff.2 hne
  simp [← h, this]

/-- The trivia that the text begins with, and the rest, which begins
with none. -/
def split (cs : List Char) : List Trivia × List Char :=
  match _h : first? cs with
  | none => ([], cs)
  | some (item, rest) =>
    let (items, rest) := split rest
    (item :: items, rest)
termination_by cs.length
decreasing_by exact length_lt_of_first? _h

/-- The text of several items. -/
def charsOf (items : List Trivia) : List Char := items.flatMap chars

/-- Nothing is lost by cutting the trivia off. -/
theorem charsOf_append_split (cs : List Char) :
    charsOf (split cs).1 ++ (split cs).2 = cs := by
  fun_induction split cs with
  | case1 => simp [charsOf]
  | case2 cs item rest h items rest' hs ih =>
    simp only [hs, charsOf, List.flatMap_cons, List.append_assoc] at ih ⊢
    rw [ih, (first?_eq_some h).1]

/-- The trivia that a stretch of text begins with, and the rest. -/
def cut (text : Stretch) : List Trivia × Stretch :=
  let parts := split text.chars
  (parts.1,
    { chars := parts.2
      length := text.length - (charsOf parts.1).length
      length_eq := by
        rw [text.length_eq, ← charsOf_append_split text.chars]
        simp [parts] })

-- =============================================================== facts

/-- Whether the items put a line break in front of the token. -/
def breakLine (items : List Trivia) : Bool := items.any breaksLine

/-- The last documentation comment among the items. -/
def lastDoc? (items : List Trivia) : Option (List Char) :=
  items.reverse.findSome? doc?

/-- The byte at which the open comment begins, for items that begin at
byte `offset`. -/
def openComment? (offset : Nat) : List Trivia → Option Nat
  | [] => none
  | item :: items =>
    if item.isOpenComment then some offset
    else openComment? (offset + byteLength item.chars) items

end Trivia

end ScriptLint
