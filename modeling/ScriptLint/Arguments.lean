/-
The command line. Arguments are read from left to right, and the first
error is the answer. An option that takes a value may find it in its own
argument or in the next; until then the option is pending, and it is
settled, with its value checked, when the next option or file begins.
-/
import ScriptLint.Path

namespace ScriptLint

/-- How findings are written. -/
inductive ReportFormat where
  | text
  | json
  deriving Repr, DecidableEq

/-- What a command line asks for. -/
structure Arguments where
  /-- The files to check; the source path is not searched if there are
  any. -/
  files : List Path := []
  /-- The root of the source tree. -/
  sourcepath : Option Path := none
  /-- The packages to leave out. -/
  excludes : List String := []
  /-- Patterns of files to leave out. -/
  excludePatterns : List String := []
  /-- The configuration file. -/
  config : Option Path := none
  legacy : Bool := false
  requireSuper : Bool := false
  /-- How many files to check at a time. -/
  threads : Option Nat := none
  /-- List each file as it is checked. -/
  verbose : Bool := false
  format : ReportFormat := .text
  /-- Whether to use color; as the output allows when not given. -/
  pretty : Option Bool := none
  noColor : Bool := false
  deriving Repr, DecidableEq

/-- Why a command line is not run. -/
inductive ArgumentError where
  /-- There is no such option. -/
  | unknownArgument
  /-- A value is missing, empty or not one of those allowed. -/
  | invalidValue
  /-- A value is not a number. -/
  | badNumber
  /-- What may be given once is given twice. -/
  | repeated
  /-- An option that takes no value has one. -/
  | unneededValue
  /-- Help is asked for. -/
  | help
  /-- The version is asked for. -/
  | version
  deriving Repr, DecidableEq

namespace Arguments

-- ============================================================= options

/-- The options that are on or off. -/
inductive Flag where
  | legacy
  | requireSuper
  | verbose
  | noColor
  deriving Repr, DecidableEq

/-- The options that take a value. -/
inductive Setting where
  | sourcepath
  | excludes
  | excludePattern
  | config
  | threads
  | format
  | pretty
  deriving Repr, DecidableEq

/-- What the name of an option stands for. -/
inductive Switch where
  | help
  | version
  | flag (flag : Flag)
  | setting (setting : Setting)
  deriving Repr, DecidableEq

/-- The options by their long names. -/
def Switch.ofName? : String → Option Switch
  | "help" => some .help
  | "version" => some .version
  | "legacy" => some (.flag .legacy)
  | "require-super" => some (.flag .requireSuper)
  | "verbose" => some (.flag .verbose)
  | "no-color" => some (.flag .noColor)
  | "sourcepath" => some (.setting .sourcepath)
  | "excludes" => some (.setting .excludes)
  | "exclude-pattern" => some (.setting .excludePattern)
  | "config" => some (.setting .config)
  | "threads" => some (.setting .threads)
  | "format" => some (.setting .format)
  | "pretty" => some (.setting .pretty)
  | _ => none

/-- The options by their letters. -/
def Switch.ofLetter? : Char → Option Switch
  | 'h' => some .help
  | 'V' => some .version
  | 'v' => some (.flag .verbose)
  | 's' => some (.setting .sourcepath)
  | 'c' => some (.setting .config)
  | _ => none

/-- Lists are extended by a further occurrence; everything else may be
given once. -/
def Setting.isList : Setting → Bool
  | .excludes | .excludePattern => true
  | _ => false

-- ============================================================== values

/-- A path must not be empty. -/
def readPath (text : String) : Except ArgumentError Path :=
  if text.isEmpty then .error .invalidValue else .ok ⟨text⟩

/-- A decimal number below 2^64, perhaps with a plus in front. -/
def readNumber (text : String) : Except ArgumentError Nat :=
  let digits :=
    match text.toList with
    | '+' :: cs => cs
    | cs => cs
  if digits.isEmpty || !digits.all (fun c => '0' ≤ c && c ≤ '9') then
    .error .badNumber
  else
    let n := digits.foldl (fun n c => 10 * n + (c.toNat - '0'.toNat)) 0
    if n < 0x10000000000000000 then .ok n else .error .badNumber

/-- Turns a flag on. -/
def raise (arguments : Arguments) : Flag → Arguments
  | .legacy => { arguments with legacy := true }
  | .requireSuper => { arguments with requireSuper := true }
  | .verbose => { arguments with verbose := true }
  | .noColor => { arguments with noColor := true }

/-- Gives a setting its value. Excluded packages may be listed with
commas between them. -/
def assign (arguments : Arguments) (setting : Setting) (value : String) :
    Except ArgumentError Arguments :=
  match setting with
  | .sourcepath => do
    return { arguments with sourcepath := ← readPath value }
  | .excludes =>
    let packages := (Text.pieces ',' value.toList).map String.ofList
    .ok { arguments with excludes := arguments.excludes ++ packages }
  | .excludePattern =>
    let excludePatterns := arguments.excludePatterns ++ [value]
    .ok { arguments with excludePatterns }
  | .config => do return { arguments with config := ← readPath value }
  | .threads => do return { arguments with threads := ← readNumber value }
  | .format =>
    match value with
    | "text" => .ok { arguments with format := .text }
    | "json" => .ok { arguments with format := .json }
    | _ => .error .invalidValue
  | .pretty =>
    match value with
    | "true" => .ok { arguments with pretty := some true }
    | "false" => .ok { arguments with pretty := some false }
    | _ => .error .invalidValue

-- ============================================================= reading

/-- What is begun and not yet settled. -/
inductive Pending where
  | nothing
  /-- A setting, with its value once that has come. -/
  | setting (setting : Setting) (value : Option String)
  /-- Files in a row. -/
  | files (texts : List String)
  deriving Repr, DecidableEq

/-- A command line that is read in part. -/
structure Reader where
  arguments : Arguments := {}
  flags : List Flag := []
  settings : List Setting := []
  pending : Pending := .nothing
  /-- Whether two dashes have ended the options. -/
  ended : Bool := false
  deriving Repr, DecidableEq

namespace Reader

/-- Gives a setting its value, unless it has one already. -/
def take (reader : Reader) (setting : Setting) (value : String) :
    Except ArgumentError Reader := do
  if reader.settings.contains setting && !setting.isList then
    throw .repeated
  let arguments ← reader.arguments.assign setting value
  return { reader with
    arguments, settings := setting :: reader.settings, pending := .nothing }

/-- Settles what is pending. -/
def settle (reader : Reader) : Except ArgumentError Reader :=
  match reader.pending with
  | .nothing => .ok reader
  | .setting _ none => .error .invalidValue
  | .setting setting (some value) => reader.take setting value
  | .files texts => do
    let files := reader.arguments.files ++ (← texts.mapM readPath)
    let arguments := { reader.arguments with files }
    return { reader with arguments, pending := .nothing }

/-- Reads a file. -/
def addFile (reader : Reader) (text : String) :
    Except ArgumentError Reader := do
  match reader.pending with
  | .files texts => return { reader with pending := .files (texts ++ [text]) }
  | _ => return { ← reader.settle with pending := .files [text] }

/-- Reads a flag, which may be given once. -/
def raise (reader : Reader) (flag : Flag) : Except ArgumentError Reader := do
  let reader ← reader.settle
  if reader.flags.contains flag then throw .repeated
  return { reader with
    arguments := reader.arguments.raise flag, flags := flag :: reader.flags }

/-- Reads a setting. A value in the same argument settles it at once. -/
def begin (reader : Reader) (setting : Setting) (value : Option String) :
    Except ArgumentError Reader := do
  let reader ← reader.settle
  match value with
  | some value => reader.take setting value
  | none => return { reader with pending := .setting setting none }

/-- Reads an option by its long name, perhaps with a value behind an equals
sign. -/
def long (reader : Reader) (cs : List Char) : Except ArgumentError Reader :=
  let name := String.ofList (cs.takeWhile (· != '='))
  let value :=
    match cs.dropWhile (· != '=') with
    | [] => none
    | _ :: cs => some (String.ofList cs)
  match Switch.ofName? name, value with
  | none, _ => .error .unknownArgument
  | some (.setting setting), value => reader.begin setting value
  | some _, some _ => .error .unneededValue
  | some (.flag flag), none => reader.raise flag
  | some .help, none => reader.settle.bind fun _ => .error .help
  | some .version, none => reader.settle.bind fun _ => .error .version

/-- Reads options by their letters. A setting takes the rest as its value,
less an equals sign; without any rest it waits for the next argument. -/
def short (reader : Reader) : List Char → Except ArgumentError Reader
  | [] => .ok reader
  | c :: cs =>
    match Switch.ofLetter? c with
    | none => .error .unknownArgument
    | some (.flag flag) => do short (← reader.raise flag) cs
    | some .help => reader.settle.bind fun _ => .error .help
    | some .version => reader.settle.bind fun _ => .error .version
    | some (.setting setting) =>
      match cs with
      | [] => reader.begin setting none
      | '=' :: cs => reader.begin setting (some (String.ofList cs))
      | cs => reader.begin setting (some (String.ofList cs))

/-- Reads one argument. A dash alone is no option. -/
def step (reader : Reader) (text : String) : Except ArgumentError Reader :=
  if reader.ended then reader.addFile text
  else
    match text.toList, reader.pending with
    | ['-', '-'], _ => .ok { reader with ended := true }
    | '-' :: '-' :: cs, _ => reader.long cs
    | '-' :: c :: cs, _ => reader.short (c :: cs)
    | _, .setting setting none =>
      .ok { reader with pending := .setting setting (some text) }
    | _, _ => reader.addFile text

end Reader

/-- Reads a command line, without the name of the program. -/
def parse (argv : List String) : Except ArgumentError Arguments := do
  let reader ← argv.foldlM Reader.step {}
  return (← reader.settle).arguments

end Arguments

end ScriptLint
