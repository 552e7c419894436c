/-
The report of a run, as text with one line for each finding and a summary
at the end, or as JSON.
-/
import ScriptLint.CheckedFile
import ScriptLint.Json

namespace ScriptLint

/-- What a run reports on. -/
structure Report where
  files : List CheckedFile
  deriving Repr, DecidableEq

namespace Report

/-- All findings, file after file. -/
def diagnostics (report : Report) : List Diagnostic :=
  report.files.flatMap (·.diagnostics)

/-- Whether there is any finding. -/
def isAny (report : Report) : Bool := !report.diagnostics.isEmpty

-- ============================================================== styles

/-- How text is shown on a terminal. -/
inductive Style where
  | bold
  | dimmed
  | red
  | green
  | yellow
  | boldYellow
  deriving Repr, DecidableEq

namespace Style

/-- The codes that select a style. -/
def codes : Style → String
  | bold => "1"
  | dimmed => "2"
  | red => "31"
  | green => "32"
  | yellow => "33"
  | boldYellow => "1;33"

/-- The sequence that ends all styles. -/
def reset : String := "\x1b[0m"

/-- The sequence that begins a style. -/
def start (style : Style) : String := "\x1b[" ++ style.codes ++ "m"

/-- Begins a style again wherever a text ends all styles. -/
def resume (style : Style) : List Char → List Char
  | [] => []
  | '\x1b' :: '[' :: '0' :: 'm' :: cs =>
    (reset ++ style.start).toList ++ resume style cs
  | c :: cs => c :: resume style cs

/-- A text in a style, or plain without color. -/
def paint (color : Bool) (style : Style) (text : String) : String :=
  if color then
    style.start ++ String.ofList (style.resume text.toList) ++ reset
  else text

end Style

-- ================================================================ text

/-- The line for a finding. -/
def line (color : Bool) (d : Diagnostic) : String :=
  let place := Style.bold.paint color s!"{d.file}:{d.line}:"
  let style := if d.kind.isError then Style.red else Style.yellow
  let token := Style.dimmed.paint color s!"[{d.kind.token}]"
  s!"{place} {style.paint color d.text} {token}"

/-- A number of things, of which one is named in the singular. -/
def countOf (n : Nat) (one many : String) : String :=
  if n = 1 then s!"1 {one}" else s!"{n} {many}"

/-- The line behind all findings. -/
def summary (color : Bool) (report : Report) : String :=
  let files := countOf report.files.length "file" "files"
  let found :=
    match report.diagnostics.length with
    | 0 => "no diagnostics"
    | n => countOf n "diagnostic" "diagnostics"
  let style := if report.isAny then Style.boldYellow else Style.green
  style.paint color s!"Checked {files}: {found}."

/-- The lines for a file. -/
def fileLines (color verbose : Bool) (file : CheckedFile) : List String :=
  let header := if verbose then [s!"Checking {file.name}"] else []
  header ++ file.diagnostics.map (line color)

/-- The lines of a report. A verbose one names every file before its
findings. -/
def lines (color verbose : Bool) (report : Report) : List String :=
  report.files.flatMap (fileLines color verbose) ++ [report.summary color]

/-- A report as text. -/
def toText (color verbose : Bool) (report : Report) : String :=
  String.join ((report.lines color verbose).map (· ++ "\n"))

-- ================================================================ JSON

/-- A finding as a JSON object, indented as an entry of the report. -/
def entry (d : Diagnostic) : String :=
  let member (key value : String) := s!"    {Json.quote key}: {value}"
  let members :=
    [member "file" (Json.quote d.file),
     member "line" (toString d.line),
     member "kind" (Json.quote d.kind.token),
     member "message" (Json.quote d.text)]
  "  \x7b\n" ++ String.intercalate ",\n" members ++ "\n  \x7d"

/-- A report as JSON: the list of all findings. -/
def toJson (report : Report) : String :=
  if report.diagnostics.isEmpty then "[]"
  else
    "[\n" ++ String.intercalate ",\n" (report.diagnostics.map entry) ++ "\n]"

end Report

end ScriptLint
