/-
Searching a source tree. Packages map to directories; hidden entries and
the directories of excluded packages are left out with all that is below
them. What remains are the program texts, less those that a pattern leaves
out.

An entry is hidden by the first character of its name, and a name that is
not UTF-8 has none; so an entry with such a name is visited even if the
first byte is that of a dot.
-/
import ScriptLint.FileTree
import ScriptLint.Glob

namespace ScriptLint

/-- The directory of a dotted package below a root. -/
def packageDirectory (root : Path) (package : String) : Path :=
  let segments := (Text.pieces '.' package.toList).filter (!·.isEmpty)
  segments.foldl (fun path segment => path / String.ofList segment) root

/-- Why patterns cannot be used. -/
inductive PatternFault where
  | malformed (pattern : String)
  | tooDeep
  deriving Repr, DecidableEq

/-- Which files below a root to take. -/
structure SourceFilter where
  root : Path
  /-- The packages to leave out. -/
  packages : List String
  /-- Whether a path relative to the root is to be left out. -/
  ignores : Path → Bool

namespace SourceFilter

/-- The filter for packages and patterns. All patterns are read before the
depth of any of them is looked at. -/
def ofPatterns (root : Path) (packages patterns : List String) :
    Except PatternFault SourceFilter := do
  let globs ← patterns.mapM fun pattern =>
    (Glob.parse? pattern).elim (.error (.malformed pattern)) .ok
  if globs.any (Glob.maxDepth < ·.depth) then throw .tooDeep
  let ignores (path : Path) := globs.any (·.shape.accepts path.raw.bytes)
  return { root, packages, ignores }

/-- Whether a directory belongs to an excluded package. -/
def isExcluded (filter : SourceFilter) (path : Path) : Bool :=
  filter.packages.any fun package =>
    (packageDirectory filter.root package).components == path.components

/-- Whether a name hides what it names: it is a text, and the first
character is a dot. -/
def isHidden (name : RawText) : Bool :=
  name.text?.any fun text => text.toList.head? == some '.'

/-- Whether to visit an entry. -/
def visits {α : Type} (filter : SourceFilter) (path : Path) (name : RawText)
    (tree : FileTree α) : Bool :=
  !isHidden name && !(tree.isDirectory && filter.isExcluded path)

/-- Package descriptions are no program texts. -/
def packageInfo : String := "package-info.js"

/-- Whether a file is a program text to be taken. -/
def takes (filter : SourceFilter) (path : Path) (name : RawText) : Bool :=
  (Path.extension? name).bind RawText.text? == some "js"
    && name.text? != some packageInfo
    && !filter.ignores (path.seenFrom filter.root)

/-- Puts what has been found below the entries of a directory into the
order of their names. -/
def inOrder (found : List (RawText × List Path)) : List Path :=
  (found.mergeSort fun a b => (compare a.1 b.1).isLE).flatMap (·.2)

mutual

/-- The program texts at an entry that is visited. -/
def sourcesAt {α : Type} (filter : SourceFilter) (path : Path)
    (name : RawText) : FileTree α → List Path
  | .file _ => if filter.takes path name then [path] else []
  | .directory entries => inOrder (filter.sourcesIn path entries)

/-- The program texts below the entries of a directory, by the names of
the entries. -/
def sourcesIn {α : Type} (filter : SourceFilter) (directory : Path) :
    List (RawText × FileTree α) → List (RawText × List Path)
  | [] => []
  | (name, tree) :: more =>
    let path := directory / name
    let found :=
      if filter.visits path name tree then filter.sourcesAt path name tree
      else []
    (name, found) :: filter.sourcesIn directory more

end

/-- The program texts below the root, each directory in the order of its
names. The root itself may be hidden. -/
def sources {α : Type} (filter : SourceFilter) (tree : FileTree α) :
    List Path :=
  inOrder (filter.sourcesIn filter.root tree.entries)

end SourceFilter

end ScriptLint
