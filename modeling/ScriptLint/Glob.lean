/-
Patterns over paths. `?` stands for one byte, `*` for any number of them,
slashes included, `[a-z]` for one byte of a set and `{a,b}` for either of
some patterns; `**` as a whole component spans any number of components.
A backslash takes the next character as it is.

A pattern is read into a shape, of which a path is an instance as a
whole. An instance is looked for by keeping the set of all places of the
path that the shape can have come to, so the work grows with the product
of both lengths. A pattern also has a depth, to which its groups, sets and
repetitions nest; a pattern that is too deep is of no use.
-/

namespace ScriptLint

-- ============================================================== shapes

/-- What a pattern means: a set of byte sequences. -/
inductive Shape where
  /-- The empty sequence. -/
  | nothing
  /-- One byte within one of the ranges, or within none of them. -/
  | oneByte (within : Bool) (ranges : List (UInt8 × UInt8))
  /-- Any sequence. -/
  | anything
  | sequence (first second : Shape)
  | either (first second : Shape)
  deriving Repr, DecidableEq

namespace Shape

/-- Whether a byte is in a set given by ranges. -/
def admits (within : Bool) (ranges : List (UInt8 × UInt8)) (byte : UInt8) :
    Bool :=
  ranges.any (fun (low, high) => low ≤ byte && byte ≤ high) == within

/-- Marks every place from the first marked one on. -/
def markOnwards : Bool → List Bool → List Bool
  | _, [] => []
  | seen, mark :: marks =>
    (seen || mark) :: markOnwards (seen || mark) marks

/-- The places that a shape leads to from the marked ones. A list of
marks has one entry for each byte of the text, and one for its end. -/
def advance (text : List UInt8) : Shape → List Bool → List Bool
  | nothing, marks => marks
  | oneByte within ranges, marks =>
    false :: List.zipWith (fun byte mark => mark && admits within ranges byte)
      text marks
  | anything, marks => markOnwards false marks
  | sequence first second, marks =>
    second.advance text (first.advance text marks)
  | either first second, marks =>
    List.zipWith (· || ·) (first.advance text marks)
      (second.advance text marks)

/-- Whether a text as a whole is an instance of a shape. -/
def accepts (shape : Shape) (text : List UInt8) : Bool :=
  let start := true :: text.map fun _ => false
  (shape.advance text start).getLastD false

/-- The shape of one given byte. -/
def byte (b : UInt8) : Shape := oneByte true [(b, b)]

/-- Shapes one after the other. -/
def sequenceOf : List Shape → Shape := List.foldr sequence nothing

/-- The shape of one given character. -/
def char (c : Char) : Shape :=
  sequenceOf ((String.singleton c).toUTF8.toList.map byte)

/-- The shape of a slash. -/
def slash : Shape := char '/'

end Shape

-- ============================================================ patterns

/-- What a pattern, or a group in it, comes to. -/
structure Glob where
  shape : Shape
  /-- The number of levels on which its parts nest. -/
  depth : Nat
  deriving Repr, DecidableEq

namespace Glob

/-- A part of a pattern. -/
inductive Part where
  /-- A character that stands for itself. -/
  | literal (c : Char)
  /-- `?` -/
  | oneByte
  /-- `*` -/
  | anything
  /-- `**` at the front of a pattern, with the slash behind it. -/
  | leadingPath
  /-- `**` at the end of a pattern, with the slash in front of it. -/
  | trailingPath
  /-- `**` inside a pattern, with the slashes on both sides of it. -/
  | innerPath
  /-- A class in brackets. -/
  | oneOf (within : Bool) (ranges : List (Char × Char))
  /-- A group in braces; it has no content when all its alternatives are
  empty. -/
  | group (content : Option Glob)
  deriving Repr, DecidableEq

/-- The bytes of a range of characters, taken byte by byte: the range
spans from the last byte of its first character to the first byte of its
last one, and the other bytes of both stand for themselves. -/
def byteRanges (range : Char × Char) : List (UInt8 × UInt8) :=
  let bytes c := (String.singleton c).toUTF8.toList
  let self b := (b, b)
  let (low, high) := range
  if low == high then (bytes low).map self
  else
    match (bytes low).reverse, bytes high with
    | last :: front, first :: back =>
      front.map self ++ (last, first) :: back.map self
    | _, _ => []

/-- The shape of a part. -/
def Part.shape : Part → Shape
  | literal c => .char c
  | oneByte => .oneByte false []
  | anything => .anything
  | leadingPath =>
    .either (.either .nothing .slash) (.sequence .anything .slash)
  | trailingPath => .sequence .slash .anything
  | innerPath =>
    .either .slash (.sequenceOf [.slash, .anything, .slash])
  | oneOf within ranges => .oneByte within (ranges.flatMap byteRanges)
  | group content => content.elim .nothing (·.shape)

/-- Whether parts say nothing at all. -/
def isVacuous (parts : List Part) : Bool := parts.all (· == .group none)

/-- The shape of parts in a row. -/
def shapeOf (parts : List Part) : Shape :=
  .sequenceOf (parts.map Part.shape)

-- ============================================================== depth

/-- How many items a part adds to the row it stands in. A character is an
item for each of its bytes, and the end of a path is a slash and what
follows it. -/
def Part.items : Part → Nat
  | literal c => c.utf8Size
  | trailingPath => 2
  | group none => 0
  | _ => 1

/-- The depth of a part by itself. A repetition is one level; a set is one,
and a second one when it has several entries. Components in front or in
between are a group of alternatives, the longest of which is a row with a
repetition in it. -/
def Part.depth : Part → Nat
  | literal _ | oneByte => 0
  | anything | trailingPath => 1
  | leadingPath | innerPath => 4
  | oneOf _ ranges => if 1 < (ranges.flatMap byteRanges).length then 2 else 1
  | group content => content.elim 0 (·.depth)

/-- The depth of the deepest of some parts. -/
def deepest (parts : List Part) : Nat := (parts.map Part.depth).foldr max 0

/-- The depth of parts in a row. The row is a level of its own unless it is
no more than one item. -/
def rowDepth (parts : List Part) : Nat :=
  if 1 < (parts.map Part.items).foldr (· + ·) 0 then deepest parts + 1
  else deepest parts

/-- The depth of a group: one level for the group, and one for the choice
when there are several alternatives. -/
def groupDepth (alternatives : List (List Part)) : Nat :=
  let inner := (alternatives.map rowDepth).foldr max 0
  if 1 < alternatives.length then inner + 2 else inner + 1

/-- The group of some alternatives. Those that say nothing are left
out. -/
def groupOf (alternatives : List (List Part)) : Part :=
  match alternatives.filter (!isVacuous ·) with
  | [] => .group none
  | first :: more =>
    let shape := (more.map shapeOf).foldl .either (shapeOf first)
    .group (some { shape, depth := groupDepth (first :: more) })

-- ============================================================= classes

/-- Adds a character to the ranges of a class, the last of which comes
first. Behind a dash it ends the last range, which must not run
backwards. -/
def extendRanges (dashed : Bool) (c : Char) :
    List (Char × Char) → Option (List (Char × Char))
  | [] => some [(c, c)]
  | (low, high) :: more =>
    if !dashed then some ((c, c) :: (low, high) :: more)
    else if low ≤ c then some ((low, c) :: more)
    else none

/-- Reads a class to its closing bracket. A bracket or a dash that comes
first stands for itself, and so does a dash that comes last. -/
def readClass (ranges : List (Char × Char)) (dashed : Bool) :
    List Char → Option (List (Char × Char) × List Char)
  | [] => none
  | c :: cs =>
    if c == ']' && !ranges.isEmpty then
      some (if dashed then ('-', '-') :: ranges else ranges, cs)
    else if c == '-' && !ranges.isEmpty && !dashed then
      readClass ranges true cs
    else do
      let ranges ← extendRanges dashed c ranges
      readClass ranges false cs

/-- Reading a class uses up characters. -/
theorem length_lt_of_readClass {cs rest : List Char}
    {ranges found : List (Char × Char)} {dashed : Bool}
    (h : readClass ranges dashed cs = some (found, rest)) :
    rest.length < cs.length := by
  fun_induction readClass ranges dashed cs with
  | case1 => simp at h
  | case2 ranges dashed c cs _ =>
    simp only [Option.some.injEq, Prod.mk.injEq] at h
    simp [h.2]
  | case3 ranges dashed c cs _ _ ih =>
    have := ih h
    simp only [List.length_cons]
    omega
  | case4 ranges dashed c cs _ _ ih =>
    simp only [Option.bind_eq_bind, Option.bind_eq_some_iff] at h
    obtain ⟨next, _, h⟩ := h
    have := ih next h
    simp only [List.length_cons]
    omega

/-- Reads a class behind its opening bracket. A mark of exclamation or a
circumflex in front turns it around. -/
def readSet (cs : List Char) : Option (Part × List Char) :=
  let read within cs := (readClass [] false cs).map
    fun (ranges, rest) => (Part.oneOf within ranges, rest)
  match cs with
  | '!' :: cs | '^' :: cs => read false cs
  | cs => read true cs

theorem length_lt_of_readSet {cs rest : List Char} {part : Part}
    (h : readSet cs = some (part, rest)) : rest.length < cs.length := by
  unfold readSet at h
  split at h
  all_goals
    simp only [Option.map_eq_some_iff, Prod.mk.injEq, Prod.exists] at h
    obtain ⟨_, _, h, _, rfl⟩ := h
    have := length_lt_of_readClass h
  · exact Nat.lt_succ_of_lt this
  · exact Nat.lt_succ_of_lt this
  · exact this

-- ============================================================= reading

/-- What has been read of one level of groups: the alternatives that are
complete, and the parts of the current one in reverse. -/
structure Level where
  complete : List (List Part) := []
  current : List Part := []
  deriving Repr, DecidableEq

namespace Level

/-- Adds a part to the current alternative. -/
def push (level : Level) (part : Part) : Level :=
  { level with current := part :: level.current }

/-- Lets a part that spans components take the place of the slash in front
of it. Two that meet are one. -/
def span (level : Level) (part : Part) : Level :=
  match level.current with
  | .leadingPath :: _ | .trailingPath :: _ => level
  | _ :: front => { level with current := part :: front }
  | [] => level

/-- Ends the current alternative. -/
def alternatives (level : Level) : List (List Part) :=
  level.current.reverse :: level.complete

end Level

/-- Reads a pattern into its parts. `before` is the character read last,
and `outer` are the levels around the current one. A pattern is invalid
when it ends within a class, a group or an escape, or closes a group that
is not open. -/
def readParts (before : Option Char) (level : Level) (outer : List Level) :
    List Char → Option (List Part)
  | [] => if outer.isEmpty then some level.current.reverse else none
  | '?' :: cs => readParts (some '?') (level.push .oneByte) outer cs
  | '*' :: '*' :: cs =>
    let stars := (level.push .anything).push .anything
    if level.current.isEmpty then
      match cs with
      | [] => readParts none (level.push .leadingPath) outer []
      | '/' :: cs =>
        readParts (some '/') (level.push .leadingPath) outer cs
      | cs => readParts (some '*') stars outer cs
    -- two stars span directories only where they have a piece to themselves
    else if before == some '/'
        || (!outer.isEmpty && (before == some ',' || before == some '\x7b'))
    then
      match cs with
      | [] => readParts none (level.span .trailingPath) outer []
      | '/' :: cs => readParts (some '/') (level.span .innerPath) outer cs
      | c :: cs =>
        if !outer.isEmpty && (c == ',' || c == '\x7d') then
          readParts (some '*') (level.span .trailingPath) outer (c :: cs)
        else readParts (some '*') stars outer (c :: cs)
    else readParts (some '*') stars outer cs
  | '*' :: cs => readParts (some '*') (level.push .anything) outer cs
  | '[' :: cs =>
    match _h : readSet cs with
    | some (part, rest) => readParts (some ']') (level.push part) outer rest
    | none => none
  | '\\' :: c :: cs => readParts (some c) (level.push (.literal c)) outer cs
  | '\\' :: [] => none
  | c :: cs =>
    if c == '\x7b' then readParts (some c) {} (level :: outer) cs
    else if c == '\x7d' then
      match outer with
      | level' :: outer =>
        let group := groupOf level.alternatives
        readParts (some c) (level'.push group) outer cs
      | [] => none
    else if c == ',' && !outer.isEmpty then
      readParts (some c) { complete := level.alternatives } outer cs
    else readParts (some c) (level.push (.literal c)) outer cs
termination_by cs => cs.length
decreasing_by
  all_goals try have := length_lt_of_readSet _h
  all_goals simp only [List.length_cons, List.length_nil]
  all_goals omega

/-- What a pattern comes to; `none` when it is invalid. A pattern that is
nothing but `**` admits everything. A pattern as a whole counts as a row of
several items, since it is held at both ends. -/
def parse? (pattern : String) : Option Glob :=
  (readParts none {} [] pattern.toList).map fun parts =>
    { shape := if parts == [.leadingPath] then .anything else shapeOf parts
      depth := deepest parts + 1 }

/-- How deep a pattern may nest. -/
def maxDepth : Nat := 250

end Glob

end ScriptLint
