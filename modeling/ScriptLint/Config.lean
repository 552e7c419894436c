/-
Settings of a run. They come from a configuration file and from the
command line, which takes precedence; lists from both are merged. Paths
in the file are relative to its directory, those of the command line to
the working directory.
-/
import ScriptLint.Arguments
import ScriptLint.Json
import ScriptLint.Session

namespace ScriptLint

-- ======================================================= configuration

/-- What a configuration file says. -/
structure Config where
  sourcepath : Option Path := none
  excludes : List String := []
  excludePatterns : List String := []
  legacy : Option Bool := none
  requireSuper : Option Bool := none
  verbose : Option Bool := none
  deriving Repr, DecidableEq

namespace Config

/-- The name of the configuration file that is used without being asked
for. -/
def fileName : String := "jsl.json"

/-- The keys of a configuration file. -/
def keys : List String :=
  ["sourcepath", "excludes", "excludePatterns", "legacy", "requireSuper",
   "verbose"]

/-- Gives a key its value; `none` when there is no such key or its values
are of another sort. Where a key may be missing, null is the same as
that; lists cannot be null. -/
def assign? (config : Config) (member : String × Json.Value) :
    Option Config :=
  match member with
  | ("sourcepath", .text s) => some { config with sourcepath := some ⟨s⟩ }
  | ("sourcepath", .null) => some config
  | ("excludes", .texts excludes) => some { config with excludes }
  | ("excludePatterns", .texts excludePatterns) =>
    some { config with excludePatterns }
  | ("legacy", .flag b) => some { config with legacy := some b }
  | ("legacy", .null) => some config
  | ("requireSuper", .flag b) => some { config with requireSuper := some b }
  | ("requireSuper", .null) => some config
  | ("verbose", .flag b) => some { config with verbose := some b }
  | ("verbose", .null) => some config
  | _ => none

/-- Reads a configuration. No key may be given twice. -/
def parse? (text : String) : Option Config := do
  let members ← Json.members? keys text
  guard (members.map (·.1)).Nodup
  members.foldlM assign? {}

end Config

-- ============================================================ settings

/-- The settings of a run. -/
structure Settings where
  files : List Path
  sourcepath : Path
  excludes : List String
  excludePatterns : List String
  verbose : Bool
  threads : Option Nat
  options : Options
  deriving Repr, DecidableEq

namespace Settings

/-- The entries of a list, and those of another that are new to it. -/
def merge (base more : List String) : List String :=
  more.foldl (fun all s => if all.contains s then all else all ++ [s]) base

/-- The settings for a command line and a configuration from directory
`configDir`. Without any source path the working directory is searched. -/
def resolve (arguments : Arguments) (config : Config)
    (configDir cwd : Path) : Settings where
  files := arguments.files.map cwd.join
  sourcepath :=
    match arguments.sourcepath, config.sourcepath with
    | some path, _ => cwd.join path
    | none, some path => configDir.join path
    | none, none => cwd
  excludes := merge config.excludes arguments.excludes
  excludePatterns := merge config.excludePatterns arguments.excludePatterns
  verbose := arguments.verbose || config.verbose.getD false
  threads := arguments.threads
  options :=
    { legacy := arguments.legacy || config.legacy.getD false
      requireSuper :=
        arguments.requireSuper || config.requireSuper.getD false }

end Settings

end ScriptLint
