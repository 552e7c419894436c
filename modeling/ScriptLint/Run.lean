/-
A run of the checker: settings are loaded, files are collected, each is
checked, and a report is written. Runs differ in the file system they use
and are alike in everything else, so they are written for any monad in
which a file system answers.
-/
import ScriptLint.Config
import ScriptLint.Report
import ScriptLint.Sources

namespace ScriptLint

/-- Why a run fails. -/
inductive RunError where
  | noConfig (path : Path)
  | unreadableConfig (path : Path)
  | badConfig (path : Path)
  | badPatterns (fault : PatternFault)
  | noDirectory (path : Path)
  | unreadableSource (path : Path)
  | unchecked (name : String)
  deriving Repr, DecidableEq

/-- The message for a failure. -/
def RunError.message : RunError → String
  | noConfig path => s!"config file not found: {path.text}"
  | unreadableConfig path => s!"failed to read config: {path.text}"
  | badConfig path => s!"failed to parse config: {path.text}"
  | badPatterns (.malformed pattern) => s!"invalid exclude pattern: {pattern}"
  | badPatterns .tooDeep => "failed to build exclude patterns"
  | noDirectory path => s!"source path is not a directory: {path.text}"
  | unreadableSource path => s!"failed to read source file: {path.text}"
  | unchecked name => s!"failed to check {name}"

namespace FileSystem

variable {m : Type → Type} [Monad m]

/-- The path of the configuration file, if there is one. It must exist
when it is asked for. -/
def configPath? (files : FileSystem m) (arguments : Arguments) (cwd : Path) :
    ExceptT RunError m (Option Path) := do
  match arguments.config with
  | some path =>
    let path := cwd.join path
    if ← files.isFile path then return some path
    else throw (.noConfig path)
  | none =>
    let path := cwd / Config.fileName
    if ← files.isFile path then return some path
    else return none

/-- Reads a configuration file. -/
def readConfig (files : FileSystem m) (path : Path) :
    ExceptT RunError m Config := do
  let bytes ← files.read? path
  match bytes.bind Text.Utf8.text? with
  | none => throw (.unreadableConfig path)
  | some text =>
    match Config.parse? text with
    | some config => return config
    | none => throw (.badConfig path)

/-- The settings for a command line. -/
def loadSettings (files : FileSystem m) (arguments : Arguments)
    (cwd : Path) : ExceptT RunError m Settings := do
  match ← files.configPath? arguments cwd with
  | none => return .resolve arguments {} cwd cwd
  | some path =>
    let config ← files.readConfig path
    return .resolve arguments config (path.directory?.getD cwd) cwd

/-- The files to check: those that are named, or else what is found below
the source path. -/
def collect (files : FileSystem m) (settings : Settings) :
    ExceptT RunError m (List Path) := do
  if !settings.files.isEmpty then return settings.files
  let root := settings.sourcepath
  match SourceFilter.ofPatterns root settings.excludes
      settings.excludePatterns with
  | .error fault => throw (.badPatterns fault)
  | .ok filter =>
    match ← files.directory? root with
    | some tree => return filter.sources tree
    | none => throw (.noDirectory root)

/-- Reads and checks a file. -/
def checkFile (files : FileSystem m) (options : Options) (cwd path : Path) :
    ExceptT RunError m CheckedFile := do
  match ← files.read? path with
  | none => throw (.unreadableSource path)
  | some bytes =>
    match CheckedFile.ofBytes options cwd path bytes with
    | .ok file => return file
    | .error _ => throw (.unchecked (path.shownFrom cwd))

/-- Reads and checks files. The results are in the order of the paths. -/
def checkFiles (files : FileSystem m) (options : Options) (cwd : Path)
    (paths : List Path) : ExceptT RunError m (List CheckedFile) := do
  return CheckedFile.inOrder (← paths.mapM (files.checkFile options cwd))

end FileSystem

/-- What a run has come to. -/
structure RunResult where
  settings : Settings
  /-- The files to check, as they were collected. -/
  sources : List Path
  report : Report
  deriving Repr, DecidableEq

/-- Runs the checker for a command line. -/
def FileSystem.run {m : Type → Type} [Monad m] (files : FileSystem m)
    (arguments : Arguments) (cwd : Path) : ExceptT RunError m RunResult := do
  let settings ← files.loadSettings arguments cwd
  let sources ← files.collect settings
  let checked ← files.checkFiles settings.options cwd sources
  return { settings, sources, report := ⟨checked⟩ }

/-- What a run prints. Text is colored when that is asked for, or when it
goes to a terminal and nothing else is asked for. -/
def RunResult.output (result : RunResult) (arguments : Arguments)
    (terminal : Bool) : String :=
  match arguments.format with
  | .json => result.report.toJson
  | .text =>
    let color := !arguments.noColor && arguments.pretty.getD terminal
    result.report.toText color result.settings.verbose

end ScriptLint
