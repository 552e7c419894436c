/-
Checking the files of a run. Each file is checked by a session of its own,
so the findings of one do not depend on the others; the results are put
into the order of the paths.
-/
import ScriptLint.Path
import ScriptLint.Session
import ScriptLint.Text.Utf8

namespace ScriptLint

/-- A file with its findings. `name` is how it is called in messages. -/
structure CheckedFile where
  path : Path
  name : String
  diagnostics : List Diagnostic
  deriving Repr, DecidableEq

namespace CheckedFile

/-- The line of the first byte that is not UTF-8, counted by the line
feeds before it. -/
def undecodableLine (bytes : List UInt8) : Nat :=
  1 + (Text.Utf8.decode bytes).1.count '\n'

/-- The findings about a file with the given bytes. -/
def diagnose (options : Options) (name : String) (bytes : List UInt8) :
    Except StrayReturn (List Diagnostic) :=
  match Text.Utf8.text? bytes with
  | some text => ((Session.start options).check name text).2
  | none =>
    let detail := "Source is not valid UTF-8."
    .ok [.of .badSyntax name (undecodableLine bytes) detail]

/-- Checks a file with the given bytes. -/
def ofBytes (options : Options) (cwd path : Path) (bytes : List UInt8) :
    Except StrayReturn CheckedFile := do
  let name := path.shownFrom cwd
  return { path, name, diagnostics := ← diagnose options name bytes }

/-- Files in the order of their paths. -/
def inOrder (files : List CheckedFile) : List CheckedFile :=
  files.mergeSort fun a b => a.path.precedes b.path

end CheckedFile

end ScriptLint
