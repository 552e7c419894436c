/-
Directory trees, and what a run asks of a file system. The entries of a
directory are named by bytes, of which no more is asked than that they can
be told apart. A tree held in memory is a file system too: a path is
followed through it piece by piece, and every step but the last must lead
to a directory.
-/
import ScriptLint.Path

namespace ScriptLint

/-- A file, or a directory with its named entries, where files hold an
`α`. -/
inductive FileTree (α : Type) where
  | file (content : α)
  | directory (entries : List (RawText × FileTree α))

namespace FileTree

variable {α : Type}

/-- The entries of a directory; a file has none. -/
def entries : FileTree α → List (RawText × FileTree α)
  | file _ => []
  | directory entries => entries

def isDirectory : FileTree α → Bool
  | file _ => false
  | directory _ => true

/-- The content of a file. -/
def content? : FileTree α → Option α
  | file content => some content
  | directory _ => none

/-- The entry of a directory with a given name. -/
def entry? (tree : FileTree α) (name : RawText) : Option (FileTree α) :=
  tree.entries.lookup name

-- ============================================================ building

/-- The tree in which the entry behind some names is made anew from what
is there. Directories on the way are created. -/
def update (change : Option (FileTree α) → FileTree α) :
    List RawText → Option (FileTree α) → FileTree α
  | [], tree => change tree
  | name :: names, tree =>
    let entries := (tree.map FileTree.entries).getD []
    let entry := update change names (entries.lookup name)
    let place := entries.findIdx (·.1 == name)
    .directory (entries.take place ++ (name, entry) :: entries.drop (place + 1))

/-- The names on the way along a path. -/
def names (path : Path) : List RawText :=
  path.components.filterMap fun
    | .name name => some name
    | _ => none

/-- Writes a file. -/
def addFile (tree : FileTree α) (path : Path) (content : α) : FileTree α :=
  update (fun _ => .file content) (names path) (some tree)

/-- Makes a directory, unless it is there. -/
def addDirectory (tree : FileTree α) (path : Path) : FileTree α :=
  let make
    | some (.directory entries) => .directory entries
    | _ => .directory []
  update make (names path) (some tree)

-- =========================================================== following

/-- Follows the pieces of a path from a place in a tree, given with the
directories around it, the nearest first. A step up from the root stays
there. -/
def follow (around : List (FileTree α)) (place : FileTree α) :
    List RawText → Option (FileTree α)
  | [] => some place
  | piece :: pieces =>
    match place with
    | .file _ => none
    | .directory _ =>
      match Path.Component.ofPiece? piece with
      | some (.name name) => do
        follow (place :: around) (← place.entry? name) pieces
      | some .up =>
        match around with
        | [] => follow [] place pieces
        | outer :: around => follow around outer pieces
      | _ => follow around place pieces

/-- What an absolute path leads to. -/
def at? (root : FileTree α) (path : Path) : Option (FileTree α) :=
  match path.opened with
  | (some .root, pieces) => follow [] root pieces
  | _ => none

mutual

/-- The tree without the contents of its files. -/
def outline : FileTree α → FileTree Unit
  | file _ => .file ()
  | directory entries => .directory (outlines entries)

def outlines : List (RawText × FileTree α) → List (RawText × FileTree Unit)
  | [] => []
  | (name, tree) :: more => (name, tree.outline) :: outlines more

end

end FileTree

-- ======================================================== file systems

/-- What a run asks of a file system, each time for a path. -/
structure FileSystem (m : Type → Type) where
  /-- Whether there is a file. -/
  isFile : Path → m Bool
  /-- The bytes of a file, if it can be read. -/
  read? : Path → m (Option (List UInt8))
  /-- A directory with all that is below it. -/
  directory? : Path → m (Option (FileTree Unit))

/-- The file system of a tree held in memory. -/
def FileSystem.ofTree (root : FileTree (List UInt8)) : FileSystem Id where
  isFile path := ((root.at? path).bind FileTree.content?).isSome
  read? path := (root.at? path).bind FileTree.content?
  directory? path :=
    ((root.at? path).filter (·.isDirectory)).map (·.outline)

end ScriptLint
