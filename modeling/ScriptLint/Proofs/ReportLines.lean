/-
The lines of a text report. Each finding is written on a line of its own,
the findings of all files in order and the summary behind them. What is
written of a finding breaks no line but where the finding quotes a string
literal that does; so the report has exactly those lines as long as no
checked file quotes such a literal, and has more lines than that if one
does (`Report.isLineByLine_iff`).

# The argument

- A report is rows, each with a line feed behind it. Cut at line breaks it
  falls apart into just these rows exactly if no row has one in it
  (`splitOnP_rows_iff`).
- A row is a finding or the summary. The summary is made of numbers and
  fixed words; a finding breaks exactly if its detail does
  (`exists_broken_diagnose_iff`).
- Which findings have such a detail has been said in terms of the program,
  for each file by itself.
-/
import ScriptLint.Proofs.CheckedFiles
import ScriptLint.Proofs.Lines
import ScriptLint.Proofs.Quotes
import ScriptLint.Proofs.Text.Utf8
import ScriptLint.Report

namespace ScriptLint

open Text

-- ================================================================ rows

namespace Text

variable {α : Type} {p : α → Bool} {x : α} {rows : List (List α)}

/-- A list is cut at each of the elements at which it is to be cut. -/
theorem length_splitOnP (p : α → Bool) (xs : List α) :
    (xs.splitOnP p).length = xs.countP p + 1 := by
  induction xs with
  | nil => rfl
  | cons y xs ih =>
      rw [List.splitOnP_cons_eq_if_modifyHead, List.countP_cons]
      split
      · rw [List.length_cons, ih]
      · rw [List.length_modifyHead, ih, Nat.add_zero]

/-- Rows that are each ended by a separator are what the whole is cut into
exactly if there are no separators in them. -/
theorem splitOnP_rows_iff (hx : p x = true) :
    (rows.flatMap (· ++ [x])).splitOnP p = rows ++ [[]]
      ↔ ∀ row ∈ rows, ∀ y ∈ row, p y = false := by
  constructor
  · intro h
    have hlength := congrArg List.length h
    -- there is a piece more than there are separators, and each row ends with
    -- one already
    have hcount : (rows.flatMap (· ++ [x])).countP p
        = (rows.map (List.countP p)).sum + rows.length := by
      clear h hlength
      induction rows with
      | nil => rfl
      | cons row rows ih =>
          rw [List.flatMap_cons, List.countP_append, List.countP_append, ih,
            List.map_cons, List.sum_cons, List.length_cons,
            List.countP_singleton, if_pos hx]
          omega
    rw [length_splitOnP, hcount, List.length_append] at hlength
    have hnone : (rows.map (List.countP p)).sum = 0 := by
      simpa using hlength
    rw [List.sum_eq_zero_iff_forall_eq_nat] at hnone
    intro row hrow y hy
    have hrow := hnone _ (List.mem_map_of_mem hrow)
    rw [List.countP_eq_zero] at hrow
    exact Bool.eq_false_iff.2 (hrow y hy)
  · intro h
    induction rows with
    | nil => rfl
    | cons row rows ih =>
        rw [List.forall_mem_cons] at h
        rw [List.flatMap_cons, List.append_assoc, List.singleton_append,
          List.splitOnP_append_cons_of_forall_mem h.1 x hx, ih h.2]
        rfl

end Text

variable {ends : Char → Bool}

-- =============================================================== files

theorem SyntaxFault.oneLine_message (fault : SyntaxFault) :
    OneLine isLineBreak fault.message := by
  cases fault with
  | expected kind =>
      have hkind : OneLine isLineBreak kind.text := by
        cases kind with
        | punctuator p => cases p <;> exact oneLine_ofList (by decide)
        | keyword k => cases k <;> exact oneLine_ofList (by decide)
        | _ => exact oneLine_ofList (by decide)
      show OneLine isLineBreak ("'" ++ kind.text ++ "' expected.")
      rw [oneLine_append, oneLine_append]
      exact ⟨⟨by decide, hkind⟩, by decide⟩
  | manyLoopVariables | secondDefault | breakOutside | continueOutside =>
      unfold message
      exact oneLine_append.2
        ⟨oneLine_ofList (by decide), oneLine_ofList (by decide)⟩
  | _ => exact oneLine_ofList (by decide)

namespace CheckedFile

/-- The bytes are those of a program that gives a literal with a line break
to a call of `$extends`, in such a way that it is quoted. -/
def QuotesBreak (ends : Char → Bool) (bytes : List UInt8) : Prop :=
  ∃ text tree, Utf8.text? bytes = some text ∧ Tree.parse text = .ok tree
    ∧ (Arena.ofTree (.ofText text) tree).2.QuotesBreak ends
      (some (Arena.ofTree (.ofText text) tree).1)

/-- What is found in a file is said to be of it. -/
theorem file_of_diagnose {options : Options} {name : String}
    {bytes : List UInt8} {found : List Diagnostic}
    (h : diagnose options name bytes = .ok found) :
    ∀ d ∈ found, d.file = name := by
  unfold diagnose at h
  split at h
  · rename_i text htext
    cases hparse : Tree.parse text with
    | error e =>
        rw [Session.check_of_error hparse] at h
        cases h
        exact List.forall_mem_singleton.2 rfl
    | ok tree =>
        exact fun d hd =>
          (Session.lined_check_of_parse hparse _ name h d hd).1
  · cases h
    exact List.forall_mem_singleton.2 rfl

/-- A finding in a file breaks a line exactly if the file quotes a literal
that does. -/
theorem exists_broken_diagnose_iff
    (hends : ∀ c, ends c = true → isLineBreak c = true) {options : Options}
    {name : String} {bytes : List UInt8} {found : List Diagnostic}
    (h : diagnose options name bytes = .ok found) :
    (∃ d ∈ found, ¬ OneLine ends d.text) ↔ QuotesBreak ends bytes := by
  -- a file that is refused has one finding, with a detail that does not quote
  -- it
  have hfixed {kind : DiagnosticKind} {line : Nat} {detail : String}
      (hdetail : OneLine isLineBreak detail) :
      ¬ ∃ d ∈ [Diagnostic.of kind name line detail],
        ¬ OneLine ends d.text := by
    intro hbroken
    obtain ⟨d, hd, hbroken⟩ := hbroken
    obtain rfl := List.mem_singleton.1 hd
    rw [Diagnostic.oneLine_of_iff hends] at hbroken
    apply hbroken
    intro s hs
    obtain rfl := Option.some.inj hs
    exact hdetail.of_isLineBreak hends
  unfold diagnose at h
  split at h
  · rename_i text htext
    cases hparse : Tree.parse text with
    | error e =>
        rw [Session.check_of_error hparse] at h
        cases h
        refine iff_of_false (hfixed e.fault.oneLine_message) ?_
        intro hquotes
        obtain ⟨text', tree, htext', hparse', -⟩ := hquotes
        rw [htext] at htext'
        cases htext'
        rw [hparse] at hparse'
        cases hparse'
    | ok tree =>
        rw [Session.exists_broken_check_iff hparse hends _ name h]
        constructor
        · intro hquotes
          exact ⟨text, tree, htext, hparse, hquotes⟩
        · intro hquotes
          obtain ⟨text', tree', htext', hparse', hquotes⟩ := hquotes
          rw [htext] at htext'
          cases htext'
          rw [hparse] at hparse'
          cases hparse'
          exact hquotes
  · rename_i hnone
    cases h
    refine iff_of_false (hfixed (by decide)) ?_
    intro hquotes
    obtain ⟨text, tree, htext, -⟩ := hquotes
    rw [hnone] at htext
    cases htext

/-- Files are checked one after the other, each of them whatever is in
it. -/
theorem exists_mapM_ofBytes (options : Options) (cwd : Path)
    (sources : List (Path × List UInt8)) :
    ∃ files : List CheckedFile,
      sources.mapM (fun source => ofBytes options cwd source.1 source.2)
        = .ok files
      ∧ List.Forall₂ (fun source file => file.name = source.1.shownFrom cwd
        ∧ diagnose options file.name source.2 = .ok file.diagnostics)
        sources files := by
  induction sources with
  | nil => exact ⟨[], rfl, .nil⟩
  | cons source sources ih =>
      obtain ⟨files, hfiles, hall⟩ := ih
      obtain ⟨found, hfound⟩ := exists_diagnose_eq_ok options
        (source.1.shownFrom cwd) source.2
      refine ⟨⟨source.1, source.1.shownFrom cwd, found⟩ :: files, ?_,
        .cons ⟨rfl, hfound⟩ hall⟩
      rw [List.mapM_cons, hfiles, ofBytes, hfound]
      rfl

end CheckedFile

-- ============================================================== reports

namespace Report

/-- A number is written without line breaks. -/
theorem oneLine_toString (n : Nat) : OneLine isLineBreak (toString n) := by
  intro c hc
  rw [Nat.toString_eq_ofList_toDigits, String.toList_ofList] at hc
  have hdigit := Nat.isDigit_of_mem_toDigits (by decide) (by decide) hc
  exact isLineBreak_of_holds (q := Char.isDigit) (by decide) hdigit

theorem oneLine_countOf (n : Nat) {one many : String}
    (hone : OneLine isLineBreak one) (hmany : OneLine isLineBreak many) :
    OneLine isLineBreak (countOf n one many) := by
  unfold countOf
  split
  · exact oneLine_append.2 ⟨by decide, hone⟩
  · show OneLine isLineBreak (toString n ++ " " ++ many)
    rw [oneLine_append, oneLine_append]
    exact ⟨⟨oneLine_toString n, by decide⟩, hmany⟩

theorem oneLine_summary (report : Report) :
    OneLine isLineBreak (report.summary false) := by
  have hfiles : OneLine isLineBreak
      (countOf report.files.length "file" "files") :=
    oneLine_countOf _ (by decide) (by decide)
  show OneLine isLineBreak ("Checked " ++ countOf report.files.length
    "file" "files" ++ ": " ++ _ ++ ".")
  simp only [oneLine_append]
  refine ⟨⟨⟨⟨by decide, hfiles⟩, by decide⟩, ?_⟩, by decide⟩
  split
  · decide
  · exact oneLine_countOf _ (by decide) (by decide)

/-- The line for a finding. -/
theorem line_eq (d : Diagnostic) :
    line false d = s!"{d.file}:{d.line}: {d.text} [{d.kind.token}]" := by
  show d.file ++ ":" ++ toString d.line ++ ":" ++ " " ++ d.text ++ " "
      ++ ("[" ++ d.kind.token ++ "]")
    = d.file ++ ":" ++ toString d.line ++ ": " ++ d.text ++ " ["
      ++ d.kind.token ++ "]"
  simp only [String.append_assoc]
  rfl

theorem oneLine_line_iff
    (hends : ∀ c, ends c = true → isLineBreak c = true) {d : Diagnostic}
    (hfile : OneLine ends d.file) :
    OneLine ends (line false d) ↔ OneLine ends d.text := by
  have hfixed {s : String} (h : OneLine isLineBreak s) : OneLine ends s :=
    h.of_isLineBreak hends
  have htoken : OneLine isLineBreak d.kind.token := by
    cases d.kind <;> exact oneLine_ofList (by decide)
  rw [line_eq]
  show OneLine ends (d.file ++ ":" ++ toString d.line ++ ": " ++ d.text
    ++ " [" ++ d.kind.token ++ "]") ↔ _
  simp only [oneLine_append, hfile, hfixed (oneLine_toString d.line),
    hfixed htoken, hfixed (show OneLine isLineBreak ":" by decide),
    hfixed (show OneLine isLineBreak ": " by decide),
    hfixed (show OneLine isLineBreak " [" by decide),
    hfixed (show OneLine isLineBreak "]" by decide), true_and, and_true]

/-- A report ends each of its lines. -/
theorem toList_toText (report : Report) :
    (report.toText false false).toList
      = ((report.lines false false).map String.toList).flatMap
        (· ++ ['\n']) := by
  rw [toText, String.toList_join, List.flatMap_map, List.flatMap_map]
  apply List.flatMap_congr
  intro line _
  exact String.toList_append

theorem lines_eq (report : Report) :
    report.lines false false
      = report.diagnostics.map (line false) ++ [report.summary false] := by
  rw [lines, diagnostics, List.map_flatMap]
  rfl

/-- The lines for what is found in files break exactly if one of the files
quotes a literal that does. -/
theorem oneLine_lines_iff
    (hends : ∀ c, ends c = true → isLineBreak c = true) {options : Options}
    {cwd : Path} {sources : List (Path × List UInt8)}
    {files : List CheckedFile}
    (h : List.Forall₂ (fun source file =>
      file.name = source.1.shownFrom cwd
        ∧ CheckedFile.diagnose options file.name source.2
          = .ok file.diagnostics) sources files)
    (hnames : ∀ source ∈ sources, OneLine ends (source.1.shownFrom cwd)) :
    (∀ d ∈ files.flatMap (·.diagnostics), OneLine ends (line false d))
      ↔ ∀ source ∈ sources, ¬ CheckedFile.QuotesBreak ends source.2 := by
  induction h with
  | nil => simp
  | @cons source file sources files hfile _ ih =>
      rw [List.forall_mem_cons] at hnames
      obtain ⟨hname, hfound⟩ := hfile
      have hfiles := CheckedFile.file_of_diagnose hfound
      have hown : (∀ d ∈ file.diagnostics, OneLine ends (line false d))
          ↔ ¬ CheckedFile.QuotesBreak ends source.2 := by
        rw [← CheckedFile.exists_broken_diagnose_iff hends hfound]
        simp only [not_exists, not_and, not_not]
        refine forall₂_congr fun d hd => oneLine_line_iff hends ?_
        rw [hfiles d hd, hname]
        exact hnames.1
      rw [List.flatMap_cons, List.forall_mem_append, hown, ih hnames.2,
        List.forall_mem_cons]

/-- The text of the report is made of one line for each finding, file after
file, with its place in front and the token of its kind at the end, and of
the summary behind them. Every line is ended, so nothing is left behind the
last one. -/
def IsLineByLine (ends : Char → Bool) (report : Report) : Prop :=
  (report.toText false false).toList.splitOnP ends
    = ((report.files.flatMap (·.diagnostics)).map (fun d =>
          s!"{d.file}:{d.line}: {d.text} [{d.kind.token}]")
        ++ [report.summary false, ""]).map String.toList

instance (ends : Char → Bool) (report : Report) :
    Decidable (report.IsLineByLine ends) :=
  inferInstanceAs (Decidable (_ = _))

/-- The report of files, whatever is in them, has just these lines exactly
if none of the files quotes a string literal with a line break; no name of
a file may have one either. Which characters break lines does not matter,
as long as the line feed is one of them. -/
theorem isLineByLine_iff (hfeed : ends '\n' = true)
    (hends : ∀ c, ends c = true → isLineBreak c = true) (options : Options)
    (cwd : Path) (sources : List (Path × List UInt8))
    (hnames : ∀ source ∈ sources, OneLine ends (source.1.shownFrom cwd)) :
    ∃ files : List CheckedFile,
      sources.mapM (fun source =>
          CheckedFile.ofBytes options cwd source.1 source.2) = .ok files
        ∧ ((Report.mk files).IsLineByLine ends
          ↔ ∀ source ∈ sources,
            ¬ CheckedFile.QuotesBreak ends source.2) := by
  obtain ⟨files, hfiles, hall⟩ :=
    CheckedFile.exists_mapM_ofBytes options cwd sources
  refine ⟨files, hfiles, ?_⟩
  have hlines := lines_eq (Report.mk files)
  have hrows : ((files.flatMap (·.diagnostics)).map (fun d =>
        s!"{d.file}:{d.line}: {d.text} [{d.kind.token}]")
      ++ [(Report.mk files).summary false, ""]).map String.toList
      = ((Report.mk files).lines false false).map String.toList ++ [[]] := by
    rw [hlines, ← funext line_eq, List.map_append, List.map_append,
      List.append_assoc]
    rfl
  rw [IsLineByLine, hrows, toList_toText, splitOnP_rows_iff hfeed,
    ← oneLine_lines_iff hends hall hnames, hlines]
  simp only [List.forall_mem_map, List.forall_mem_append,
    List.forall_mem_singleton]
  exact and_iff_left ((oneLine_summary _).of_isLineBreak hends)

/-- A call of `$extends` that is told of an identifier. -/
def misnamedCall : String := "$extends(b,a.B);"

/-- The identifier is quoted on the line of the finding. -/
theorem isLineByLine_iff_misnamedCall :
    let sources : List (Path × List UInt8) :=
      [(⟨"/T/a.js"⟩, Utf8.encode misnamedCall.toList)]
    (∀ source ∈ sources,
        OneLine isLineBreak (source.1.shownFrom ⟨"/T"⟩))
      ∧ ∃ files : List CheckedFile,
        sources.mapM (fun source =>
            CheckedFile.ofBytes {} ⟨"/T"⟩ source.1 source.2) = .ok files
          ∧ (files.flatMap (·.diagnostics)).map (·.text)
            = ["Bad class name. Bad subclass name format [b]."]
          ∧ (Report.mk files).IsLineByLine isLineBreak := by
  intro sources
  have hnames : ∀ source ∈ sources,
      OneLine isLineBreak (source.1.shownFrom ⟨"/T"⟩) := by
    decide +kernel
  have hchecked : sources.mapM (fun source =>
        CheckedFile.ofBytes {} ⟨"/T"⟩ source.1 source.2)
      = .ok [⟨⟨"/T/a.js"⟩, "a.js", [⟨.badClassName, "a.js", 1,
        "Bad class name. Bad subclass name format [b]."⟩]⟩] := by
    decide +kernel
  have htext : Utf8.text? (Utf8.encode misnamedCall.toList)
      = some misnamedCall := by
    decide +kernel
  have hparses : Tree.Parses misnamedCall fun tree =>
      let arena := (Arena.ofTree (.ofText misnamedCall) tree).2
      ∀ i < arena.size, arena.stringValue? (some i) = none := by
    decide +kernel
  obtain ⟨tree, hparse, hnone⟩ := hparses
  have hquotes : ∀ source ∈ sources,
      ¬ CheckedFile.QuotesBreak isLineBreak source.2 := by
    intro source hsource hquotes
    obtain rfl := List.mem_singleton.1 hsource
    obtain ⟨text, tree', htext', hparse', i, value, hgives, -⟩ := hquotes
    rw [htext] at htext'
    cases htext'
    rw [hparse] at hparse'
    cases hparse'
    obtain ⟨ref, hvalue⟩ := hgives.exists_stringValue?
    rw [Arena.stringValue?_eq_none hnone ref] at hvalue
    cases hvalue
  obtain ⟨files, hfiles, hlines⟩ := isLineByLine_iff (by decide)
    (fun _ => id) {} ⟨"/T"⟩ sources hnames
  refine ⟨hnames, files, hfiles, ?_, hlines.2 hquotes⟩
  rw [hchecked] at hfiles
  obtain rfl := Except.ok.inj hfiles
  rfl

/-- A call of `$extends` that is told of a literal with a line feed in
it. -/
def brokenLiteral : String := "$extends(\"x\\ny\",a.B);"

/-- The report of its one finding has two lines in front of the summary,
and the second begins with what stands in the literal. -/
theorem not_isLineByLine_brokenLiteral :
    let sources : List (Path × List UInt8) :=
      [(⟨"/T/a.js"⟩, Utf8.encode brokenLiteral.toList)]
    (∀ source ∈ sources,
        OneLine isLineBreak (source.1.shownFrom ⟨"/T"⟩))
      ∧ ∃ files : List CheckedFile,
        sources.mapM (fun source =>
            CheckedFile.ofBytes {} ⟨"/T"⟩ source.1 source.2) = .ok files
          ∧ (files.flatMap (·.diagnostics)).length = 1
          ∧ ((Report.mk files).toText false false).toList.splitOnP (· == '\n')
            = ["a.js:1: Bad class name. Bad subclass name format [x",
              "y]. [BAD_CLASS_NAME]",
              "Checked 1 file: 1 diagnostic.", ""].map String.toList
          ∧ ¬ (Report.mk files).IsLineByLine (· == '\n') := by
  intro sources
  have hchecked : sources.mapM (fun source =>
        CheckedFile.ofBytes {} ⟨"/T"⟩ source.1 source.2)
      = .ok [⟨⟨"/T/a.js"⟩, "a.js", [⟨.badClassName, "a.js", 1,
        "Bad class name. Bad subclass name format [x\ny]."⟩]⟩] := by
    decide +kernel
  exact ⟨by decide +kernel, _, hchecked, rfl, by decide +kernel,
    by decide +kernel⟩

end Report

end ScriptLint
