/-
Paths. A path is kept as it was written, byte by byte; what it means is the
list of its components. Doubled slashes and dots that stand for the
directory they are in vanish from that list, a dot at the front of a
relative path and the step up do not.

What is written need not be UTF-8, and a name in a path need not be
either. Only slashes and dots mean anything here, and these are single
bytes that are part of no other character.
-/
import ScriptLint.Text.RawText
import ScriptLint.Text.Split

namespace ScriptLint

/-- A path as it was written. -/
structure Path where
  raw : RawText
  deriving Repr, DecidableEq

namespace Path

/-- The path as it is shown. -/
def text (path : Path) : String := path.raw.shown

/-- The byte that parts components. -/
def slash : UInt8 := 0x2F

/-- The byte that hides names and begins extensions. -/
def dot : UInt8 := 0x2E

-- ========================================================= components

/-- What a path is made of: the root, the dot that a relative path begins
with, a step up, and names. -/
inductive Component where
  | root
  | here
  | up
  | name (text : RawText)
  deriving Repr, DecidableEq

/-- The component that a piece between two slashes stands for, if it
stands for one. -/
def Component.ofPiece? (piece : RawText) : Option Component :=
  if piece = "" ∨ piece = "." then none
  else if piece = ".." then some .up
  else some (.name piece)

/-- Whether a path begins at the root. -/
def isAbsolute (path : Path) : Bool := path.raw.bytes.head? == some slash

/-- The texts between the slashes of some bytes. -/
def piecesOf (bytes : List UInt8) : List RawText :=
  (Text.pieces slash bytes).map RawText.mk

/-- Relative pieces, with a leading dot as a component. -/
def relative : List RawText → Option Component × List RawText
  | [] => (none, [])
  | first :: more =>
    if first = "." then (some .here, more) else (none, first :: more)

/-- The component that stands only at the front, the root or the leading
dot, and the pieces behind it. -/
def opened (path : Path) : Option Component × List RawText :=
  if path.isAbsolute then (some .root, piecesOf path.raw.bytes.tail)
  else relative (piecesOf path.raw.bytes)

/-- The components of a path. -/
def components (path : Path) : List Component :=
  let (front, pieces) := path.opened
  front.toList ++ pieces.filterMap Component.ofPiece?

/-- Pieces with slashes between them. -/
def joined (pieces : List RawText) : RawText :=
  ⟨List.intercalate [slash] (pieces.map RawText.bytes)⟩

/-- The path of a front component and pieces. -/
def ofPieces (front : Option Component) (pieces : List RawText) : Path :=
  match front with
  | some .root => ⟨"/" ++ joined pieces⟩
  | some .here =>
    if pieces.isEmpty then ⟨"."⟩ else ⟨"./" ++ joined pieces⟩
  | _ => ⟨joined pieces⟩

-- ============================================================ joining

/-- A path read from a directory. An absolute path stays as it is;
any other is written behind the directory with a slash between them. -/
def join (base path : Path) : Path :=
  if path.isAbsolute then path
  else if base.raw.bytes.getLast?.all (· == slash) then
    ⟨base.raw ++ path.raw⟩
  else ⟨base.raw ++ "/" ++ path.raw⟩

instance : HDiv Path RawText Path where
  hDiv base raw := base.join ⟨raw⟩

instance : HDiv Path String Path where
  hDiv base text := base.join ⟨text⟩

-- ======================================================= cutting apart

/-- Pieces that stand for no component, taken off the front. -/
def dropBlank (pieces : List RawText) : List RawText :=
  pieces.dropWhile fun piece => (Component.ofPiece? piece).isNone

/-- Pieces that stand for no component, taken off the end. -/
def dropBlankEnd (pieces : List RawText) : List RawText :=
  (dropBlank pieces.reverse).reverse

/-- The pieces behind the first `n` components. -/
def dropComponents : Nat → List RawText → List RawText
  | 0, pieces => pieces
  | _ + 1, [] => []
  | n + 1, piece :: pieces =>
    match Component.ofPiece? piece with
    | some _ => dropComponents n pieces
    | none => dropComponents (n + 1) pieces

/-- A path as seen from a directory above it: what it says behind the
components of the directory. There is no such path when the directory is
not above it. -/
def below? (path base : Path) : Option Path :=
  let (front, pieces) := path.opened
  if base.components.isPrefixOf path.components then
    match base.components.length, front with
    | 0, _ => some (ofPieces front (dropBlankEnd pieces))
    | n + 1, some _ | n, none =>
      let rest := dropComponents n pieces
      some (ofPieces none (dropBlankEnd (dropBlank rest)))
  else none

/-- The path without its last component. The root and the empty path have
no directory. -/
def directory? (path : Path) : Option Path :=
  let (front, pieces) := path.opened
  match dropBlankEnd pieces, front with
  | [], some .here => some ⟨""⟩
  | [], _ => none
  | pieces, _ => some (ofPieces front (dropBlankEnd pieces.dropLast))

/-- A path relative to a directory when it is below that directory, and as
it is otherwise. -/
def seenFrom (path base : Path) : Path := (path.below? base).getD path

/-- The name of a path in messages. -/
def shownFrom (path base : Path) : String := (path.seenFrom base).text

/-- What stands behind the last dot of a file name. A name that has its
only dot in front has no extension. -/
def extension? (name : RawText) : Option RawText :=
  match Text.splitLast? dot name.bytes with
  | some (_ :: _, back) => some ⟨back⟩
  | _ => none

-- ============================================================== order

/-- The root sorts first, then the leading dot, then steps up, then
names. -/
def Component.rank : Component → Nat
  | .root => 0
  | .here => 1
  | .up => 2
  | .name _ => 3

/-- The order of components; names are ordered by their bytes. -/
def Component.order : Component → Component → Ordering
  | .name a, .name b => compare a b
  | a, b => compare a.rank b.rank

/-- Paths are ordered by their components, one after the other. -/
def order (a b : Path) : Ordering :=
  List.compareLex Component.order a.components b.components

/-- Whether a path may stand before another in a sorted list. -/
def precedes (a b : Path) : Bool := (order a b).isLE

end Path

end ScriptLint
