/-
The command `jsl`. It answers what a run asks of a file system from the
disk, prints what the run has come to, and ends with 0 when nothing was
found, with 1 when something was, and with 2 when it failed.
-/
import ScriptLint.Run

namespace ScriptLint.Main

/-- The answer of an action, or nothing when it fails. -/
def attempt {α : Type} (action : IO α) : IO (Option α) := do
  return (← action.toBaseIO).toOption

/-- The entries of a directory with all that is below them. Links are not
followed, and what cannot be read is left out. The system is asked by
texts here, so names that are not UTF-8 come as they are shown. -/
partial def outline (path : Path) : IO (FileTree Unit) := do
  let place := (← IO.currentDir) / path.text
  let some found ← attempt place.readDir | return .directory []
  let mut entries : Array (RawText × FileTree Unit) := #[]
  for entry in found do
    match ← attempt entry.path.symlinkMetadata with
    | some data =>
      match data.type with
      | .dir =>
        let tree ← outline (path / entry.fileName)
        entries := entries.push (entry.fileName, tree)
      | .file => entries := entries.push (entry.fileName, .file ())
      | _ => pure ()
    | none => pure ()
  return .directory entries.toList

/-- The file system of the machine. -/
def disk : FileSystem IO where
  isFile path := do
    let place := (← IO.currentDir) / path.text
    return match ← attempt place.metadata with
    | some data => data.type == .file
    | none => false
  read? path := do
    let bytes ← attempt (IO.FS.readBinFile path.text)
    return bytes.map ByteArray.toList
  directory? path := do
    let place := (← IO.currentDir) / path.text
    if ← place.isDir then return some (← outline path) else return none

/-- How the command is used, line by line. -/
def usage : List String :=
  ["Usage: jsl [OPTIONS] [FILES]...",
   "",
   "Options:",
   "  -s, --sourcepath <PATH>       Root of the source tree",
   "      --excludes <PACKAGES>     Packages to skip",
   "      --exclude-pattern <GLOB>  Files to skip",
   "  -c, --config <FILE>           Configuration file",
   "      --legacy                  Start every file in legacy mode",
   "      --require-super           Report classes without a superclass",
   "      --threads <COUNT>         Number of worker threads",
   "  -v, --verbose                 List each file as it is checked",
   "      --format <FORMAT>         Output format: text or json",
   "      --pretty <BOOL>           Colorize text output: true or false",
   "      --no-color                Never colorize output",
   "  -h, --help                    Print help",
   "  -V, --version                 Print version"]

/-- What is wrong with a command line. -/
def complaint : ArgumentError → String
  | .unknownArgument => "unexpected argument"
  | .invalidValue => "missing or invalid value"
  | .badNumber => "invalid number"
  | .repeated => "an option cannot be used multiple times"
  | .unneededValue => "unexpected value for an option"
  | .help | .version => ""

/-- Runs the checker in the working directory. -/
def run (arguments : Arguments) : IO UInt32 := do
  let cwd : Path := ⟨(← IO.currentDir).toString⟩
  match ← (disk.run arguments cwd).run with
  | .error e =>
    IO.eprintln s!"error: {e.message}"
    return 2
  | .ok result =>
    let terminal ← (← IO.getStdout).isTty
    let output := result.output arguments terminal
    IO.print (if arguments.format == .json then output ++ "\n" else output)
    return if result.report.isAny then 1 else 0

end ScriptLint.Main

/-- Reads the command line and runs the checker. -/
def main (argv : List String) : IO UInt32 := do
  match ScriptLint.Arguments.parse argv with
  | .ok arguments => ScriptLint.Main.run arguments
  | .error .help =>
    for line in ScriptLint.Main.usage do IO.println line
    return 0
  | .error .version =>
    IO.println "jsl 0.1.0"
    return 0
  | .error e =>
    IO.eprintln s!"error: {ScriptLint.Main.complaint e}"
    return 2
