/-
The tags of documentation comments. Five tags carry meaning: the mark of
a constructor, and the types of a return value, a field, a parameter and
a thrown value. Each takes the next word on its line as its value.

A line holds at most one tag, at its first at sign. Something must stand
before the sign: characters on its own line, or else the whole line
before, which then must hold no at sign.
-/
import ScriptLint.Text.CharClass
import ScriptLint.Text.Split

namespace ScriptLint

open Text

/-- The tags with a meaning. -/
inductive DocTag where
  | constructor
  | returns
  | type
  | param
  | throws
  deriving Repr, DecidableEq

namespace DocTag

def all : List DocTag := [.constructor, .returns, .type, .param, .throws]

/-- How the tag is written behind its at sign. -/
def text : DocTag → String
  | .constructor => "constructor"
  | .returns => "return"
  | .type => "type"
  | .param => "param"
  | .throws => "throws"

/-- The tag that the text begins with, as a whole word, and the text
behind it. -/
def read? (cs : List Char) : Option (DocTag × List Char) :=
  all.findSome? fun tag =>
    let word := tag.text.toList
    let rest := cs.drop word.length
    if word.isPrefixOf cs && !rest.head?.any isWordChar then
      some (tag, rest)
    else none

end DocTag

/-- The tags of a comment in order, each with its value if it has
one. -/
abbrev DocTags := List (DocTag × Option String)

namespace DocTags

-- ============================================================= reading

/-- The value of a tag with `cs` behind it: the next word behind spaces
or tabs. -/
def valueIn? (cs : List Char) : Option String :=
  let isGap c := c == ' ' || c == '\t'
  let word := (cs.dropWhile isGap).takeWhile fun c => !isWhiteSpace c
  if cs.head?.any isGap && !word.isEmpty then some (String.ofList word)
  else none

/-- The entry at the first at sign of a line, which has something in
front of it when `preceded`. -/
def entryIn? (preceded : Bool) (line : List Char) :
    Option (DocTag × Option String) :=
  let front := line.takeWhile (· != '@')
  match line.dropWhile (· != '@') with
  | [] => none
  | _ :: cs =>
    if preceded || !front.isEmpty then
      (DocTag.read? cs).map fun (tag, rest) => (tag, valueIn? rest)
    else none

/-- The entries of the lines, the first of which follows a line without
an at sign when `preceded`. -/
def ofLines : Bool → List (List Char) → DocTags
  | _, [] => []
  | preceded, line :: lines =>
    (entryIn? preceded line).toList ++ ofLines (!line.contains '@') lines

/-- The tags of a comment. -/
def parse (comment : String) : DocTags :=
  ofLines false (pieces '\n' comment.toList)

/-- The tags of a comment, none when there is no comment. -/
def ofComment? (comment : Option String) : DocTags :=
  (comment.map parse).getD []

-- ============================================================= queries

/-- The values of all entries of a tag, in order. -/
def values (tags : DocTags) (tag : DocTag) : List (Option String) :=
  (tags.filter (·.1 == tag)).map (·.2)

/-- The value of the entry of a tag with a given position; `none` also
when the entry has no value. -/
def value? (tags : DocTags) (tag : DocTag) (position : Nat) :
    Option String :=
  (tags.values tag)[position]?.join

/-- Whether the comment marks a constructor. -/
def hasConstructor (tags : DocTags) : Bool :=
  tags.any (·.1 == .constructor)

/-- The documented type of a return value. -/
def returnType? (tags : DocTags) : Option String := tags.value? .returns 0

/-- The documented type of a field. -/
def type? (tags : DocTags) : Option String := tags.value? .type 0

/-- The documented type of a parameter, by its position. -/
def paramType? (tags : DocTags) (position : Nat) : Option String :=
  tags.value? .param position

/-- The documented type of a thrown value, by its position. -/
def throwsType? (tags : DocTags) (position : Nat) : Option String :=
  tags.value? .throws position

end DocTags

end ScriptLint
