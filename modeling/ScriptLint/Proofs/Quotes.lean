/-
What the findings of a file quote of it. The details of most findings are
fixed sentences; some have the name of a class or of a static member in
them, which breaks no line. Only a call of `$extends` is told of any name
that it gives, as long as it is not that of a class
(`Arena.misnamed?`); and such a name breaks a line just if it is the value
of a string literal. So a finding that breaks a line is that of a call of
`$extends` with a string literal (`Session.exists_broken_check_iff`).
-/
import ScriptLint.Proofs.NameTexts
import ScriptLint.Proofs.Orphans

namespace ScriptLint

open Text

-- ============================================================== events

/-- The detail of the event, if it has one, breaks no line. -/
def Event.IsOneLine : Event → Prop
  | .report _ _ detail => ∀ s ∈ detail, OneLine isLineBreak s
  | .suppress _ => True

/-- None of the events has a detail that breaks a line. -/
abbrev Event.AllOneLine (events : List Event) : Prop :=
  ∀ event ∈ events, event.IsOneLine

namespace Arena

open Event

variable {arena : Arena} {model : Model} {ref : Ref}

/-- Without events, all of them are on one line. -/
theorem allOneLine_nil : AllOneLine [] := nofun

/-- A report is on one line if its detail is. -/
theorem allOneLine_report (kind : DiagnosticKind) (ref : Ref)
    {detail : Option String} (h : ∀ s ∈ detail, OneLine isLineBreak s) :
    AllOneLine [arena.report kind ref detail] :=
  List.forall_mem_singleton.2 h

/-- A report with a detail on one line. -/
theorem allOneLine_detailed (kind : DiagnosticKind) (ref : Ref)
    {detail : String} (h : OneLine isLineBreak detail) :
    AllOneLine [arena.report kind ref detail] :=
  allOneLine_report kind ref fun _ hs => Option.some.inj hs ▸ h

/-- Remarks are on one line. -/
theorem isOneLine_of_remarkedAt {event : Event}
    (h : event.RemarkedAt arena ref) : event.IsOneLine := by
  obtain ⟨kind, detail, rfl, hdetail⟩ := h
  exact hdetail

/-- All remarks at a node together break no line. -/
theorem RemarksAt.allOneLine {events : List Event}
    (h : arena.RemarksAt ref events) : AllOneLine events :=
  fun event hevent => isOneLine_of_remarkedAt (h event hevent)

-- ======================================================= single checks

/-- Classes that are linked, or cannot be, have names that break no line,
and so have the superclasses of all others. -/
theorem allOneLine_linkClasses (h : model.classes.Sound) (call : Ref)
    {name superName : String} (hname : Naming.isClassName name = true)
    (hsuper : Naming.isClassName superName = true) :
    AllOneLine (arena.linkClasses model call name superName).events := by
  have hentered := (h.enter name).enter superName
  have hself := Naming.oneLine_of_isClassName hname
  have hother := Naming.oneLine_of_isClassName hsuper
  unfold linkClasses
  dsimp only
  split
  · exact allOneLine_nil
  · exact allOneLine_nil
  · apply allOneLine_detailed
    simp only [oneLine_append]
    exact ⟨⟨⟨⟨by decide, hself⟩, by decide⟩, hother⟩, by decide⟩
  · rename_i existing hlink
    have hset := ClassTable.superOf?_of_alreadySet hlink
    have hold := Naming.oneLine_of_isClassName
      (hentered.named _ existing hset).2
    have hsame := ClassTable.link_of_not_grants
      (ClassTable.not_grants_of_alreadySet hlink)
    apply allOneLine_detailed
    rw [hsame]
    simp only [oneLine_append]
    exact ⟨⟨⟨⟨by decide, hself⟩, by decide⟩, hold⟩, by decide⟩

/-- What is said of a construction is on one line. -/
theorem allOneLine_checkConstruct (construct callee : Ref) :
    AllOneLine (arena.checkConstruct construct callee) := by
  unfold checkConstruct
  dsimp only
  split
  · rename_i hmember
    apply allOneLine_detailed
    rw [oneLine_append, oneLine_append]
    exact ⟨⟨by decide, Naming.oneLine_of_isStaticMemberName hmember⟩,
      by decide⟩
  · exact allOneLine_nil

/-- What is said of a call that suppresses findings is on one line. -/
theorem allOneLine_checkSuppress (call : Ref) (arguments : List Ref) :
    AllOneLine (arena.checkSuppress call arguments) := by
  intro event hevent
  obtain hremark | ⟨kind, rfl⟩ := checkSuppress_cases hevent
  · exact isOneLine_of_remarkedAt hremark
  · trivial

/-- What is said of an object is on one line. -/
theorem allOneLine_checkObject (literal : Ref) (properties : List Ref) :
    AllOneLine (arena.checkObject literal properties) := by
  intro event hevent
  obtain ⟨key, -, hremark⟩ := exists_key_of_checkKeys hevent
  exact isOneLine_of_remarkedAt hremark

/-- What is said of a switch statement is on one line. -/
theorem allOneLine_checkSwitch (switch : Ref) (clauses : List Ref) :
    AllOneLine (arena.checkSwitch switch clauses) := by
  have hdefault : AllOneLine (if clauses.any arena.isDefault then []
      else [arena.report .noDefault switch]) :=
    (remarksAt_ite remarksAt_nil (remarksAt_plain _ _)).allOneLine
  refine List.forall_mem_append.2 ⟨?_, hdefault⟩
  intro event hevent
  obtain ⟨clause, -, rfl⟩ := List.mem_map.1 hevent
  nofun

-- ======================================================== class names

/-- The name in a call of `$extends` that is told not to be that of a
class: the first one, or the second one if the first is that of a class
that is defined. -/
def misnamed? (arena : Arena) (classes : ClassTable) (i : Nat) :
    Option String :=
  (arena.extension? i).bind fun (name, superName) =>
    if Naming.isClassName name = false then some name
    else if classes.definedAt? name = none then none
    else if Naming.isClassName superName = false then some superName
    else none

/-- Which of the names is not that of a class, by the call that asks for a
link. -/
theorem misnamed?_of_extension? {i : Nat} {name superName : String}
    (h : arena.extension? i = some (name, superName))
    (classes : ClassTable) :
    arena.misnamed? classes i
      = if Naming.isClassName name = false then some name
        else if classes.definedAt? name = none then none
        else if Naming.isClassName superName = false then some superName
        else none := by
  rw [misnamed?, h]
  rfl

/-- Both names are read off the arguments. -/
theorem extension?_of_call {i : Nat} {callee subject target : Ref}
    (hform : arena.form? (some i) = some (.call callee [subject, target]))
    (hcallee : arena.nameOf callee = "$extends") :
    arena.extension? i
      = some (arena.nameOf subject, arena.nameOf target) := by
  rw [extension?, hform]
  exact if_pos hcallee

/-- The call that has such a name, and what it is. -/
theorem misnamed?_eq_some_iff {i : Nat} {classes : ClassTable}
    {name : String} :
    arena.misnamed? classes i = some name
      ↔ ∃ callee subject target,
        arena.form? (some i) = some (.call callee [subject, target])
          ∧ arena.nameOf callee = "$extends"
          ∧ (Naming.isClassName (arena.nameOf subject) = false
              ∧ arena.nameOf subject = name
            ∨ Naming.isClassName (arena.nameOf subject) = true
              ∧ (classes.definedAt? (arena.nameOf subject)).isSome = true
              ∧ Naming.isClassName (arena.nameOf target) = false
              ∧ arena.nameOf target = name) := by
  constructor
  · intro h
    cases hextends : arena.extension? i with
    | none =>
        rw [misnamed?, hextends] at h
        cases h
    | some names =>
        obtain ⟨callee, subject, target, hform, hcallee, -⟩ :=
          exists_call_of_extension? hextends
        rw [misnamed?_of_extension? (extension?_of_call hform hcallee)] at h
        refine ⟨callee, subject, target, hform, hcallee, ?_⟩
        split at h
        case isTrue hname => exact .inl ⟨hname, Option.some.inj h⟩
        case isFalse hname =>
          rw [Bool.not_eq_false] at hname
          split at h
          · cases h
          · rename_i hdefined
            split at h
            · rename_i hsuper
              exact .inr ⟨hname, Option.isSome_iff_ne_none.2 hdefined, hsuper,
                Option.some.inj h⟩
            · cases h
  · rintro ⟨callee, subject, target, hform, hcallee, hwhich⟩
    rw [misnamed?_of_extension? (extension?_of_call hform hcallee)]
    obtain ⟨hname, rfl⟩ | ⟨hname, hdefined, hsuper, rfl⟩ := hwhich
    · rw [if_pos hname]
    · rw [if_neg (by rw [hname]; decide),
        if_neg (Option.isSome_iff_ne_none.1 hdefined), if_pos hsuper]

/-- What a call of `$extends` says of such a name, and that it says nothing
that breaks a line if there is none. -/
theorem checkExtends_cases (h : model.classes.Sound) {i : Nat}
    {subject target : Ref} (hextends : arena.extension? i
      = some (arena.nameOf subject, arena.nameOf target)) (call : Ref) :
    let events := (arena.checkExtends model call [subject, target]).events
    (arena.misnamed? model.classes i = none → AllOneLine events)
      ∧ ∀ name, arena.misnamed? model.classes i = some name →
        ∃ front back, OneLine isLineBreak front
          ∧ OneLine isLineBreak back
          ∧ events = [arena.report .badClassName call
            (some (front ++ name ++ back))] := by
  intro events
  rw [misnamed?_of_extension? hextends]
  have hevents : events
      = (arena.checkExtends model call [subject, target]).events := rfl
  unfold checkExtends at hevents
  dsimp only at hevents
  rw [ClassTable.isDefined_eq] at hevents
  by_cases hname : Naming.isClassName (arena.nameOf subject) = true
  swap
  · rw [Bool.not_eq_true] at hname
    rw [hname] at hevents ⊢
    refine ⟨nofun, fun name hsome => ?_⟩
    obtain rfl := Option.some.inj hsome
    exact ⟨"Bad subclass name format [", "].", by decide, by decide, hevents⟩
  by_cases hdefined : model.classes.definedAt? (arena.nameOf subject) = none
  · rw [hname, hdefined] at hevents
    rw [hname, hdefined, hevents]
    exact ⟨fun _ => allOneLine_report _ _ nofun, nofun⟩
  by_cases hsuper : Naming.isClassName (arena.nameOf target) = true
  swap
  · rw [Bool.not_eq_true] at hsuper
    rw [hname, Option.isSome_iff_ne_none.2 hdefined, hsuper] at hevents
    rw [hname, hsuper, if_neg (by decide), if_neg hdefined]
    refine ⟨nofun, fun name hsome => ?_⟩
    obtain rfl := Option.some.inj hsome
    exact ⟨"Bad superclass name format [", "].", by decide, by decide,
      hevents⟩
  rw [hname, Option.isSome_iff_ne_none.2 hdefined, hsuper] at hevents
  rw [hname, hsuper, if_neg (by decide), if_neg hdefined, hevents]
  exact ⟨fun _ => allOneLine_linkClasses h call hname hsuper, nofun⟩

/-- A call says nothing that breaks a line, unless it is one of
`$extends`. -/
theorem allOneLine_checkCall {i : Nat} {callee : Ref}
    {arguments : List Ref}
    (hform : arena.form? (some i) = some (.call callee arguments))
    (hextends : arena.extension? i = none) (model : Model) (call : Ref) :
    AllOneLine (arena.checkCall model call callee arguments).events := by
  unfold checkCall
  split
  · exact (remarksAt_checkPackage _ _ _).allOneLine
  · exact allOneLine_checkSuppress _ _
  · rename_i hcallee
    unfold checkExtends
    split
    · rw [extension?, hform] at hextends
      dsimp only at hextends
      rw [if_pos hcallee] at hextends
      cases hextends
    · exact (remarksAt_detailed _ _ (by decide)).allOneLine
  · exact allOneLine_nil
  · exact allOneLine_nil

/-- A node that does not say so of a name says nothing that breaks a
line. -/
theorem allOneLine_checkNode {i : Nat} {outcome : Outcome}
    (h : model.classes.Sound) (hnone : arena.misnamed? model.classes i = none)
    (hrun : arena.checkNode model i = .ok outcome) :
    AllOneLine outcome.events := by
  cases hextends : arena.extension? i with
  | some names =>
      obtain ⟨callee, subject, target, hform, hcallee, -⟩ :=
        exists_call_of_extension? hextends
      rw [checkNode_call hform, checkCall, hcallee] at hrun
      cases hrun
      exact (checkExtends_cases h (extension?_of_call hform hcallee)
        (some i)).1 hnone
  | none =>
      unfold checkNode at hrun
      dsimp only at hrun
      split at hrun
      case h_5 => exact (remarksAt_checkReturn hrun).allOneLine
      all_goals cases hrun
      case h_1 => exact (remarksAt_checkAssignment _ _ _ _).allOneLine
      case h_2 hform => exact allOneLine_checkCall hform hextends _ _
      case h_3 => exact allOneLine_checkConstruct _ _
      case h_4 => exact allOneLine_checkObject _ _
      case h_6 => exact allOneLine_checkSwitch _ _
      case h_7 => exact (remarksAt_checkDeclaration _ _ _ _).allOneLine
      case h_8 => exact allOneLine_nil

/-- A node that says so says nothing else. -/
theorem events_of_misnamed? {i : Nat} {outcome : Outcome} {name : String}
    (h : model.classes.Sound)
    (hsome : arena.misnamed? model.classes i = some name)
    (hrun : arena.checkNode model i = .ok outcome) :
    ∃ front back, OneLine isLineBreak front ∧ OneLine isLineBreak back
      ∧ outcome.events = [arena.report .badClassName (some i)
        (some (front ++ name ++ back))] := by
  obtain ⟨callee, subject, target, hform, hcallee, -⟩ :=
    misnamed?_eq_some_iff.1 hsome
  rw [checkNode_call hform, checkCall, hcallee] at hrun
  cases hrun
  exact (checkExtends_cases h (extension?_of_call hform hcallee)
    (some i)).2 name hsome

end Arena

-- =============================================================== sinks

variable {ends : Char → Bool}

/-- Messages are on one line. -/
theorem DiagnosticKind.oneLine_message (kind : DiagnosticKind) :
    OneLine isLineBreak kind.message := by
  cases kind <;> exact oneLine_ofList (by decide)

/-- A finding breaks a line where its detail does. -/
theorem Diagnostic.oneLine_of_iff
    (hends : ∀ c, ends c = true → isLineBreak c = true)
    (kind : DiagnosticKind) (file : String) (line : Nat)
    (detail : Option String) :
    OneLine ends (Diagnostic.of kind file line detail).text
      ↔ ∀ s ∈ detail, OneLine ends s := by
  have hmessage := kind.oneLine_message.of_isLineBreak hends
  have hgap : OneLine ends ". " :=
    OneLine.of_isLineBreak hends (by decide)
  have hstop : OneLine ends "." :=
    OneLine.of_isLineBreak hends (by decide)
  cases detail with
  | none =>
      have htext : (Diagnostic.of kind file line none).text
          = kind.message ++ "." := rfl
      rw [htext, oneLine_append]
      exact ⟨fun _ => nofun, fun _ => ⟨hmessage, hstop⟩⟩
  | some s =>
      have htext : (Diagnostic.of kind file line (some s)).text
          = kind.message ++ ". " ++ s := rfl
      rw [htext, oneLine_append, oneLine_append,
        and_iff_right ⟨hmessage, hgap⟩]
      simp

namespace Sink

/-- Some finding breaks a line. -/
def Breaks (ends : Char → Bool) (sink : Sink) : Prop :=
  ∃ d ∈ sink.diagnostics, ¬ OneLine ends d.text

/-- A report that is taken breaks a line if its detail does. -/
theorem breaks_take_report_iff
    (hends : ∀ c, ends c = true → isLineBreak c = true) (sink : Sink)
    (kind : DiagnosticKind) (line : Nat) (detail : Option String) :
    (sink.take (.report kind line detail)).Breaks ends
      ↔ sink.Breaks ends ∨ sink.isSuppressed kind = false
        ∧ ¬ ∀ s ∈ detail, OneLine ends s := by
  rw [← Diagnostic.oneLine_of_iff hends kind sink.file line detail, take]
  cases hkind : sink.isSuppressed kind with
  | true => simp
  | false =>
      unfold Breaks
      simp only [Bool.false_eq_true, if_false, List.mem_append,
        List.mem_singleton, or_and_right, exists_or, exists_eq_left,
        true_and]

/-- Events that break no line leave it at that. -/
theorem breaks_takeAll_iff
    (hends : ∀ c, ends c = true → isLineBreak c = true) (sink : Sink)
    {events : List Event} (h : Event.AllOneLine events) :
    (sink.takeAll events).Breaks ends ↔ sink.Breaks ends := by
  induction events generalizing sink with
  | nil => exact Iff.rfl
  | cons event events ih =>
      obtain ⟨hevent, hmore⟩ := List.forall_mem_cons.1 h
      refine (ih (sink.take event) hmore).trans ?_
      cases event with
      | suppress kind => exact Iff.rfl
      | report kind line detail =>
          have hdetail : ∀ s ∈ detail, OneLine ends s :=
            fun s hs => (hevent s hs).of_isLineBreak hends
          rw [breaks_take_report_iff hends]
          simp only [not_not.2 hdetail, and_false, or_false]

end Sink

-- ============================================================ sessions

namespace Session

variable {arena : Arena} {root : Ref} {session : Session}

/-- A finding breaks a line behind some nodes exactly if one of them is a
call of `$extends` that is told of a name with a line break, and such
findings have not been suppressed before. -/
theorem Passes.breaks_visit_iff (h : Passes arena root)
    (hends : ∀ c, ends c = true → isLineBreak c = true)
    (hclasses : session.model.classes.Coherent)
    (hsuppressed : session.sink.suppressed = [])
    (hfound : session.sink.diagnostics = []) (nodes : List Nat) :
    (visit arena nodes session).1.sink.Breaks ends
      ↔ ∃ before i, before ++ [i] <+: nodes
        ∧ (∃ name, arena.misnamed?
            (visit arena before session).1.model.classes i = some name
          ∧ ¬ OneLine ends name)
        ∧ ∀ j ∈ before, arena.suppression? j ≠ some .badClassName := by
  refine h.visit_iff_exists (P := fun session => session.sink.Breaks ends)
    (Q := fun before i => (∃ name, arena.misnamed?
        (visit arena before session).1.model.classes i = some name
      ∧ ¬ OneLine ends name)
      ∧ ∀ j ∈ before, arena.suppression? j ≠ some .badClassName) ?_ ?_ nodes
  · rw [Sink.Breaks, hfound]
    simp
  · intro before i outcome hrun
    have hsound : (visit arena before session).1.model.classes.Sound :=
      (coherent_visit before hclasses).sound
    show (Sink.takeAll _ outcome.events).Breaks ends ↔ _
    -- only a misnamed class can break a line, and then by its name
    cases hname : arena.misnamed?
        (visit arena before session).1.model.classes i with
    | none =>
        rw [Sink.breaks_takeAll_iff hends _
          (Arena.allOneLine_checkNode hsound hname hrun)]
        simp
    | some name =>
        obtain ⟨front, back, hfront, hback, hevents⟩ :=
          Arena.events_of_misnamed? hsound hname hrun
        have hloud : (visit arena before session).1.sink.isSuppressed
              .badClassName = false
            ↔ ∀ j ∈ before, arena.suppression? j ≠ some .badClassName := by
          rw [← Bool.not_eq_true,
            h.isSuppressed_visit_iff hsuppressed before]
          simp only [not_exists, not_and, Ne]
        have hquoted : (∀ s ∈ some (front ++ name ++ back), OneLine ends s)
            ↔ OneLine ends name := by
          simp only [Option.mem_def, Option.some_inj, forall_eq',
            oneLine_quoted_iff (hfront.of_isLineBreak hends)
              (hback.of_isLineBreak hends)]
        rw [hevents]
        show (Sink.take _ (arena.report _ _ _)).Breaks ends ↔ _
        rw [Arena.report, Sink.breaks_take_report_iff hends, hloud, hquoted]
        simp [and_comm]

/-- What is reported at the end are names of classes. -/
theorem Passes.allOneLine_closingEvents (h : Passes arena root)
    (hclasses : session.model.classes = {}) (nodes : List Nat) :
    Event.AllOneLine (visit arena nodes session).1.closingEvents := by
  have hcoherent : session.model.classes.Coherent := by
    rw [hclasses]
    exact ClassTable.coherent_empty
  unfold closingEvents
  split
  · rw [Model.missingSupers_eq (coherent_visit nodes hcoherent)]
    intro event hevent
    obtain ⟨name, hname, rfl⟩ := List.mem_map.1 hevent
    obtain ⟨hdefined, -⟩ := ClassTable.mem_orphans_iff.1 hname
    rw [h.isSome_definedAt?_visit_iff hclasses] at hdefined
    intro s hs
    obtain rfl := Option.some.inj hs
    rw [oneLine_append, oneLine_append]
    exact ⟨⟨by decide, Naming.oneLine_of_isClassName hdefined.1⟩,
      by decide⟩
  · exact Arena.allOneLine_nil

end Session

-- ============================================================ programs

namespace Arena

variable {arena : Arena} {root : Ref} {i : Nat}

/-- The node is a call of `$extends` that gives the value as a string
literal, where the name of a class is asked for: as the first name, or
behind the name of a class that some node before the call has defined. -/
def GivesLiteral (arena : Arena) (root : Ref) (i : Nat) (value : String) :
    Prop :=
  ∃ callee subject target,
    arena.form? (some i) = some (.call callee [subject, target])
      ∧ arena.nameOf callee = "$extends"
      ∧ (arena.stringValue? subject = some value
        ∨ arena.stringValue? target = some value
          ∧ Naming.isClassName (arena.nameOf subject) = true
          ∧ ∃ j, arena.Precedes root j i
            ∧ arena.assignsBody (arena.nameOf subject) j = true)

/-- Some call of `$extends` gives a literal with a line break in it, and
findings about the names of classes are not suppressed before it. -/
def QuotesBreak (ends : Char → Bool) (arena : Arena) (root : Ref) : Prop :=
  ∃ i value, arena.GivesLiteral root i value ∧ ¬ OneLine ends value
    ∧ ∀ j, arena.Precedes root j i →
      arena.suppression? j ≠ some .badClassName

/-- What a literal gives is its value. -/
theorem GivesLiteral.exists_stringValue? {value : String}
    (h : arena.GivesLiteral root i value) :
    ∃ ref, arena.stringValue? ref = some value := by
  obtain ⟨_, subject, target, -, -, hsubject | ⟨htarget, -⟩⟩ := h
  · exact ⟨subject, hsubject⟩
  · exact ⟨target, htarget⟩

/-- An arena without string literals among its nodes has none at all. -/
theorem stringValue?_eq_none
    (h : ∀ i < arena.size, arena.stringValue? (some i) = none) (ref : Ref) :
    arena.stringValue? ref = none := by
  cases hvalue : arena.stringValue? ref with
  | none => rfl
  | some value =>
      cases hform : arena.form? ref with
      | none =>
          rw [stringValue?, hform] at hvalue
          cases hvalue
      | some form =>
          cases ref with
          | none => cases hform
          | some i =>
              rw [h i (lt_size_of_form? hform)] at hvalue
              cases hvalue

end Arena

namespace Session

variable {text : String} {tree : Tree} {session : Session}
  {before : List Nat} {i : Nat}

/-- The names with line breaks that calls of `$extends` are told of are the
literals that they give. -/
theorem exists_misnamed?_iff (h : Tree.parse text = .ok tree)
    (hends : ∀ c, ends c = true → isLineBreak c = true)
    (hclasses : session.model.classes = {})
    (hbefore : before ++ [i] <+: (Arena.ofTree (.ofText text) tree).2.preorder
      (some (Arena.ofTree (.ofText text) tree).1)) :
    let root := some (Arena.ofTree (.ofText text) tree).1
    let arena := (Arena.ofTree (.ofText text) tree).2
    (∃ name, arena.misnamed?
          (visit arena before session).1.model.classes i = some name
        ∧ ¬ OneLine ends name)
      ↔ ∃ value, arena.GivesLiteral root i value ∧ ¬ OneLine ends value := by
  intro root arena
  have hpasses : Passes arena root := passes_of_parse h
  -- a name with a line break can only be the value of a literal
  have hliteral {ref : Ref} (hbroken : ¬ OneLine ends (arena.nameOf ref)) :
      arena.stringValue? ref = some (arena.nameOf ref) := by
    obtain hline | hvalue := Arena.oneLine_nameOf_or h ref
    · exact absurd (hline.of_isLineBreak hends) hbroken
    · exact hvalue
  -- and is not that of a class
  have hmisnamed {name : String} (hbroken : ¬ OneLine ends name) :
      Naming.isClassName name = false := by
    rw [← Bool.not_eq_true]
    intro hclass
    exact hbroken
      ((Naming.oneLine_of_isClassName hclass).of_isLineBreak hends)
  have hdefined (name : String) :
      ((visit arena before session).1.model.classes.definedAt? name).isSome
          = true
        ↔ Naming.isClassName name = true
          ∧ ∃ j, arena.Precedes root j i
            ∧ arena.assignsBody name j = true := by
    rw [hpasses.isSome_definedAt?_visit_iff hclasses]
    simp only [Arena.precedes_iff hpasses.nodup hbefore]
  constructor
  · intro hname
    obtain ⟨name, hname, hbroken⟩ := hname
    obtain ⟨callee, subject, target, hform, hcallee,
      ⟨-, rfl⟩ | ⟨-, hknown, -, rfl⟩⟩ := Arena.misnamed?_eq_some_iff.1 hname
    · exact ⟨_, ⟨callee, subject, target, hform, hcallee,
        .inl (hliteral hbroken)⟩, hbroken⟩
    · exact ⟨_, ⟨callee, subject, target, hform, hcallee,
        .inr ⟨hliteral hbroken, (hdefined _).1 hknown⟩⟩, hbroken⟩
  · intro hvalue
    obtain ⟨value, ⟨callee, subject, target, hform, hcallee, hgiven⟩,
      hbroken⟩ := hvalue
    refine ⟨value, Arena.misnamed?_eq_some_iff.2
      ⟨callee, subject, target, hform, hcallee, ?_⟩, hbroken⟩
    obtain hsubject | ⟨htarget, hclass, hbody⟩ := hgiven
    · have hname := Arena.nameOf_of_stringValue? hsubject
      exact .inl ⟨hname ▸ hmisnamed hbroken, hname⟩
    · have hname := Arena.nameOf_of_stringValue? htarget
      exact .inr ⟨hclass, (hdefined _).2 ⟨hclass, hbody⟩,
        hname ▸ hmisnamed hbroken, hname⟩

/-- A finding of a program breaks a line exactly if some call of `$extends`
gives it a literal that does. -/
theorem exists_broken_check_iff (h : Tree.parse text = .ok tree)
    (hends : ∀ c, ends c = true → isLineBreak c = true) (session : Session)
    (file : String) {found : List Diagnostic}
    (hfound : (session.check file text).2 = .ok found) :
    (∃ d ∈ found, ¬ OneLine ends d.text)
      ↔ (Arena.ofTree (.ofText text) tree).2.QuotesBreak ends
        (some (Arena.ofTree (.ofText text) tree).1) := by
  have hpasses := passes_of_parse h
  have hclasses : (session.reset file).model.classes = {} := rfl
  rw [check_eq_of_passes h] at hfound
  obtain rfl := Except.ok.inj hfound
  refine (Sink.breaks_takeAll_iff hends _
    (hpasses.allOneLine_closingEvents hclasses _)).trans ?_
  rw [hpasses.breaks_visit_iff hends ClassTable.coherent_empty rfl rfl]
  constructor
  · intro hbreaks
    obtain ⟨before, i, hbefore, hname, hloud⟩ := hbreaks
    obtain ⟨value, hgives, hbroken⟩ :=
      (exists_misnamed?_iff h hends hclasses hbefore).1 hname
    refine ⟨i, value, hgives, hbroken, fun j hj => ?_⟩
    exact hloud j ((Arena.precedes_iff hpasses.nodup hbefore).1 hj)
  · intro hquotes
    obtain ⟨i, value, hgives, hbroken, hloud⟩ := hquotes
    obtain ⟨callee, subject, target, hform, -⟩ := id hgives
    obtain ⟨before, hbefore⟩ :=
      Arena.exists_before (Arena.mem_preorder_ofTree hform)
    refine ⟨before, i, hbefore,
      (exists_misnamed?_iff h hends hclasses hbefore).2
        ⟨value, hgives, hbroken⟩, fun j hj => ?_⟩
    exact hloud j ((Arena.precedes_iff hpasses.nodup hbefore).2 hj)

end Session

end ScriptLint
