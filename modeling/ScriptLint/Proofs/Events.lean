/-
What the check of a node says, and where. Almost every finding is reported
at the node that is checked; a key of an object literal and a clause of a
switch statement are reported at their own nodes (`Arena.Concerns`). Only
a call of `$suppress` has something else to say than findings
(`Arena.concerns_checkNode`). The details of most findings are fixed
sentences (`Arena.RemarksAt`); only those of `$extends` and `new` have
names in them. The line of a node also comes into the
classes, where the node defines one, and no other line does
(`Arena.Altered.defines`).

The lemmas follow the checks from the inside out, one for each function
that makes events. Most of them are remarks, which is the stronger
statement, since it also says that the detail is on one line; the reports
of `$extends` and of constructions may quote the file and are only said to
be in their place.
-/
import ScriptLint.Proofs.Classes
import ScriptLint.Proofs.Text.OneLine

namespace ScriptLint

open Text

-- ============================================================== events

/-- The event is a finding at a node. -/
def Event.ReportedAt (arena : Arena) (ref : Ref) (event : Event) : Prop :=
  ∃ kind detail, event = arena.report kind ref detail

/-- The event is a finding at a node with a detail that breaks no line, or
with none. -/
def Event.RemarkedAt (arena : Arena) (ref : Ref) (event : Event) : Prop :=
  ∃ kind detail, event = arena.report kind ref detail
    ∧ ∀ s ∈ detail, OneLine isLineBreak s

/-- A remark is a report. -/
theorem Event.RemarkedAt.reportedAt {arena : Arena} {ref : Ref}
    {event : Event} (h : event.RemarkedAt arena ref) :
    event.ReportedAt arena ref := by
  obtain ⟨kind, detail, rfl, -⟩ := h
  exact ⟨kind, detail, rfl⟩

/-- All of the events are findings at one node. -/
abbrev Arena.ReportsAt (arena : Arena) (ref : Ref) (events : List Event) :
    Prop :=
  ∀ event ∈ events, event.ReportedAt arena ref

/-- All of the events are such findings at one node that break no line. -/
abbrev Arena.RemarksAt (arena : Arena) (ref : Ref) (events : List Event) :
    Prop :=
  ∀ event ∈ events, event.RemarkedAt arena ref

namespace Arena

variable {arena : Arena} {model later : Model} {ref : Ref}

/-- Remarks at a node are reports at that node. -/
theorem RemarksAt.reportsAt {events : List Event}
    (h : arena.RemarksAt ref events) : arena.ReportsAt ref events :=
  fun event hevent => (h event hevent).reportedAt

/-- Nothing is reported at a wrong place. -/
theorem reportsAt_nil : arena.ReportsAt ref [] := nofun

/-- A report is where it is made. -/
theorem reportsAt_report (kind : DiagnosticKind) (ref : Ref)
    (detail : Option String) :
    arena.ReportsAt ref [arena.report kind ref detail] := by
  intro event hevent
  rw [List.mem_singleton.1 hevent]
  exact ⟨kind, detail, rfl⟩

theorem remarksAt_nil : arena.RemarksAt ref [] := nofun

/-- A report is a remark if its detail is on one line. -/
theorem remarksAt_report (kind : DiagnosticKind) (ref : Ref)
    {detail : Option String} (h : ∀ s ∈ detail, OneLine isLineBreak s) :
    arena.RemarksAt ref [arena.report kind ref detail] := by
  intro event hevent
  rw [List.mem_singleton.1 hevent]
  exact ⟨kind, detail, rfl, h⟩

/-- A finding with a fixed sentence for a detail. -/
theorem remarksAt_detailed (kind : DiagnosticKind) (ref : Ref)
    {cs : List Char} (h : cs.any isLineBreak = false) :
    arena.RemarksAt ref [arena.report kind ref (String.ofList cs)] :=
  remarksAt_report kind ref fun _ hs =>
    Option.some.inj hs ▸ oneLine_ofList h

/-- A finding without a detail. -/
theorem remarksAt_plain (kind : DiagnosticKind) (ref : Ref) :
    arena.RemarksAt ref [arena.report kind ref] :=
  remarksAt_report kind ref nofun

/-- Remarks of two checks of the same node. -/
theorem remarksAt_append {events more : List Event}
    (h : arena.RemarksAt ref events) (h' : arena.RemarksAt ref more) :
    arena.RemarksAt ref (events ++ more) :=
  List.forall_mem_append.2 ⟨h, h'⟩

/-- A finding or none. -/
theorem remarksAt_ite {c : Prop} [Decidable c] {events more : List Event}
    (h : arena.RemarksAt ref events) (h' : arena.RemarksAt ref more) :
    arena.RemarksAt ref (if c then events else more) := by
  split
  · exact h
  · exact h'

-- ========================================================= assignments

/-- The names of classes are on one line, being names. -/
theorem remarksAt_checkClass (model : Model) (assignment : Ref)
    (name : String) :
    arena.RemarksAt assignment (arena.checkClass model assignment name) := by
  unfold checkClass
  split
  · exact remarksAt_plain _ _
  · refine remarksAt_append
      (remarksAt_ite remarksAt_nil (remarksAt_plain _ _)) ?_
    split
    · exact remarksAt_plain _ _
    · exact remarksAt_ite remarksAt_nil (remarksAt_plain _ _)

/-- A prototype is remarked upon without detail, or with a name. -/
theorem remarksAt_checkPrototype (model : Model) (assignment right : Ref) :
    arena.RemarksAt assignment
      (arena.checkPrototype model assignment right).events := by
  have hright : arena.RemarksAt assignment
      (if arena.isObject right then []
        else [arena.report .badRvalue assignment]) :=
    remarksAt_ite remarksAt_nil (remarksAt_plain _ _)
  unfold checkPrototype
  dsimp only
  split
  · exact hright
  · split
    · exact hright
    · exact remarksAt_append hright (remarksAt_plain _ _)

/-- An update of a field is remarked upon where it is made. -/
theorem remarksAt_fieldUpdate (model : Model) (assignment : Ref)
    (function : Nat) (owner : Option Nat) (field : String) :
    arena.RemarksAt assignment
      (arena.fieldUpdate model assignment function owner field) := by
  unfold fieldUpdate
  refine remarksAt_ite (remarksAt_detailed _ _ (by decide)) ?_
  refine remarksAt_ite (remarksAt_detailed _ _ (by decide)) ?_
  refine remarksAt_ite (remarksAt_detailed _ _ (by decide)) ?_
  exact remarksAt_ite (remarksAt_plain _ _) remarksAt_nil

/-- A field of `this`, declared or updated, is remarked on at the assignment.
-/
theorem remarksAt_checkInstanceField (model : Model)
    (assignment left : Ref) :
    arena.RemarksAt assignment
      (arena.checkInstanceField model assignment left).events := by
  unfold checkInstanceField
  split
  · exact remarksAt_detailed _ _ (by decide)
  · dsimp only
    split
    · split
      · exact remarksAt_append
          (remarksAt_ite (remarksAt_plain _ _) remarksAt_nil)
          (remarksAt_fieldUpdate _ _ _ _ _)
      · split
        · exact remarksAt_detailed _ _ (by decide)
        · exact remarksAt_nil
    · exact remarksAt_fieldUpdate _ _ _ _ _

/-- The declaration of a static field has remarks at the assignment. -/
theorem remarksAt_declareStatic (model : Model) (assignment right : Ref)
    (owner : Option Nat) (field : String) :
    arena.RemarksAt assignment
      (arena.declareStatic model assignment right owner field).events := by
  unfold declareStatic
  split
  · exact remarksAt_detailed _ _ (by decide)
  · exact remarksAt_detailed _ _ (by decide)
  · split
    · exact remarksAt_nil
    · split
      · exact remarksAt_nil
      · exact remarksAt_detailed _ _ (by decide)

/-- Its update has them there as well. -/
theorem remarksAt_updateStatic (model : Model) (assignment : Ref)
    (function : Nat) (owner : Option Nat) (name : String) :
    arena.RemarksAt assignment
      (arena.updateStatic model assignment function owner name) :=
  remarksAt_append
    (remarksAt_append
      (remarksAt_ite (remarksAt_plain _ _) remarksAt_nil)
      (remarksAt_ite (remarksAt_plain _ _) remarksAt_nil))
    (remarksAt_ite (remarksAt_plain _ _) remarksAt_nil)

/-- Declared or updated, the remarks are at the assignment. -/
theorem remarksAt_checkStaticField (model : Model) (assignment right : Ref)
    (name : String) :
    arena.RemarksAt assignment
      (arena.checkStaticField model assignment right name).events := by
  unfold checkStaticField
  dsimp only
  split
  · exact remarksAt_declareStatic _ _ _ _ _
  · exact remarksAt_updateStatic _ _ _ _ _

/-- Whatever is assigned to, all remarks are at the assignment. -/
theorem remarksAt_checkAssignment (model : Model)
    (assignment left right : Ref) :
    arena.RemarksAt assignment
      (arena.checkAssignment model assignment left right).events := by
  unfold checkAssignment
  dsimp only
  split
  · exact remarksAt_checkClass _ _ _
  · split
    · exact remarksAt_checkPrototype _ _ _
    · split
      · split
        · exact remarksAt_nil
        · exact remarksAt_checkInstanceField _ _ _
      · split
        · exact remarksAt_checkStaticField _ _ _ _
        · exact remarksAt_nil

-- ========================================================== directives

/-- A package has no detail to report. -/
theorem remarksAt_checkPackage (model : Model) (call : Ref)
    (arguments : List Ref) :
    arena.RemarksAt call
      (arena.checkPackage model call arguments).events := by
  unfold checkPackage
  split
  · split
    · exact remarksAt_nil
    · exact remarksAt_plain _ _
  · exact remarksAt_detailed _ _ (by decide)

/-- The name of a class in such a call may be a literal of any text. -/
theorem reportsAt_checkExtends (model : Model) (call : Ref)
    (arguments : List Ref) :
    arena.ReportsAt call
      (arena.checkExtends model call arguments).events := by
  unfold checkExtends
  split
  · dsimp only
    split
    · exact reportsAt_report _ _ _
    · split
      · exact reportsAt_report _ _ _
      · split
        · exact reportsAt_report _ _ _
        · unfold linkClasses
          dsimp only
          split
          · exact reportsAt_nil
          · exact reportsAt_nil
          · exact reportsAt_report _ _ _
          · exact reportsAt_report _ _ _
  · exact reportsAt_report _ _ _

/-- The node is a call of `$suppress`. -/
def CallsSuppress (arena : Arena) (i : Nat) : Prop :=
  ∃ callee arguments, arena.form? (some i) = some (.call callee arguments)
    ∧ arena.nameOf callee = "$suppress"

/-- A request to suppress findings is what only `$suppress` makes. -/
theorem reportsAt_checkCall (model : Model) (call callee : Ref)
    (arguments : List Ref) (hname : arena.nameOf callee ≠ "$suppress") :
    arena.ReportsAt call
      (arena.checkCall model call callee arguments).events := by
  unfold checkCall
  split
  · exact (remarksAt_checkPackage _ _ _).reportsAt
  · rename_i hsuppress
    exact absurd hsuppress hname
  · exact reportsAt_checkExtends _ _ _
  · exact reportsAt_nil
  · exact reportsAt_nil

/-- What a call of `$suppress` is told when it is not one, at the call. -/
theorem checkSuppress_cases {call : Ref} {arguments : List Ref}
    {event : Event} (h : event ∈ arena.checkSuppress call arguments) :
    event.RemarkedAt arena call ∨ ∃ kind, event = .suppress kind := by
  unfold checkSuppress at h
  split at h
  · split at h
    · rw [Option.mem_toList] at h
      obtain ⟨kind, -, rfl⟩ := Option.map_eq_some_iff.1 h
      exact .inr ⟨kind, rfl⟩
    · exact .inl (remarksAt_plain _ _ event h)
  · exact .inl (remarksAt_detailed _ _ (by decide) event h)

-- ============================================================== values

/-- A return is remarked upon at the statement. -/
theorem remarksAt_checkReturn {statement value : Ref} {outcome : Outcome}
    (h : arena.checkReturn model statement value = .ok outcome) :
    arena.RemarksAt statement outcome.events := by
  unfold checkReturn at h
  dsimp only at h
  split at h
  · cases h
  · cases h
    intro event hevent
    rw [Option.mem_toList] at hevent
    obtain ⟨kind, -, rfl⟩ := Option.map_eq_some_iff.1 hevent
    exact ⟨kind, none, rfl, nofun⟩

/-- A variable is remarked upon at its declaration. -/
theorem remarksAt_checkDeclaration (model : Model)
    (declaration name initializer : Ref) :
    arena.RemarksAt declaration
      (arena.checkDeclaration model declaration name initializer).events := by
  unfold checkDeclaration
  split
  · exact remarksAt_plain _ _
  · split
    · dsimp only
      split
      · exact remarksAt_nil
      · exact remarksAt_plain _ _
    · exact remarksAt_nil

-- =============================================================== shape

/-- A key is remarked upon at the key itself. -/
theorem exists_key_of_checkKeys {documented : Bool} {seen : List String}
    {keys : List Ref} {event : Event}
    (h : event ∈ arena.checkKeys documented seen keys) :
    ∃ key ∈ keys, event.RemarkedAt arena key := by
  induction keys generalizing seen with
  | nil => cases h
  | cons key keys ih =>
      rw [checkKeys, List.mem_append, List.mem_append] at h
      rcases h with (h | h) | h
      · exact ⟨key, List.mem_cons_self .., remarksAt_ite
          (remarksAt_plain _ _) remarksAt_nil event h⟩
      · exact ⟨key, List.mem_cons_self .., remarksAt_ite
          (remarksAt_plain _ _) remarksAt_nil event h⟩
      · obtain ⟨found, hfound, hreported⟩ := ih h
        exact ⟨found, List.mem_cons_of_mem _ hfound, hreported⟩

/-- The nodes that the check of a node may report at: the node itself, the
keys of an object literal, and the clauses of a switch statement. -/
inductive Concerns (arena : Arena) (i : Nat) : Ref → Prop where
  | node : Concerns arena i (some i)
  | key {properties : List Ref} {key : Ref} :
    arena.form? (some i) = some (.object properties) →
    key ∈ arena.keysOf properties → Concerns arena i key
  | clause {subject clause : Ref} {clauses : List Ref} {form : Form Ref} :
    arena.form? (some i) = some (.switch subject clauses) →
    clause ∈ clauses → arena.form? clause = some form →
    Concerns arena i clause

/-- A clause without a break is a clause. -/
theorem exists_form_of_lacksBreak {clause : Ref}
    (h : arena.lacksBreak clause = true) :
    ∃ form, arena.form? clause = some form := by
  unfold lacksBreak at h
  split at h
  · exact ⟨_, ‹_›⟩
  · cases h

/-- What the check of a node says: findings at the nodes that it concerns,
and requests to suppress findings only where it is such a call. -/
theorem concerns_checkNode {i : Nat} {outcome : Outcome} {event : Event}
    (h : arena.checkNode model i = .ok outcome)
    (hevent : event ∈ outcome.events) :
    (∃ ref, arena.Concerns i ref ∧ event.ReportedAt arena ref)
      ∨ arena.CallsSuppress i ∧ ∃ kind, event = .suppress kind := by
  have hnode : ∀ {events : List Event}, arena.ReportsAt (some i) events →
      event ∈ events → ∃ ref, arena.Concerns i ref
        ∧ event.ReportedAt arena ref :=
    fun hreports hmem => ⟨_, .node, hreports event hmem⟩
  have hremark : ∀ {events : List Event}, arena.RemarksAt (some i) events →
      event ∈ events → ∃ ref, arena.Concerns i ref
        ∧ event.ReportedAt arena ref :=
    fun hremarks => hnode hremarks.reportsAt
  unfold checkNode at h
  dsimp only at h
  split at h
  case h_5 => exact .inl (hremark (remarksAt_checkReturn h) hevent)
  all_goals cases h
  case h_1 => exact .inl (hremark (remarksAt_checkAssignment _ _ _ _) hevent)
  case h_2 callee arguments hform =>
      by_cases hname : arena.nameOf callee = "$suppress"
      · rw [checkCall, hname] at hevent
        rcases checkSuppress_cases hevent with hreported | hsuppress
        · exact .inl ⟨_, .node, hreported.reportedAt⟩
        · exact .inr ⟨⟨callee, arguments, hform, hname⟩, hsuppress⟩
      · exact .inl (hnode (reportsAt_checkCall _ _ _ _ hname) hevent)
  case h_3 =>
      refine .inl (hnode ?_ hevent)
      unfold checkConstruct
      dsimp only
      split
      · exact reportsAt_report _ _ _
      · exact reportsAt_nil
  case h_4 properties hform =>
      obtain ⟨key, hkey, hreported⟩ := exists_key_of_checkKeys hevent
      exact .inl ⟨key, .key hform hkey, hreported.reportedAt⟩
  case h_6 subject clauses hform =>
      rcases List.mem_append.1 hevent with hlacking | hdefault
      · obtain ⟨clause, hclause, rfl⟩ := List.mem_map.1 hlacking
        obtain ⟨hmem, hlacks⟩ := List.mem_filter.1 hclause
        obtain ⟨form, hclauseForm⟩ := exists_form_of_lacksBreak hlacks
        exact .inl ⟨clause, .clause hform hmem hclauseForm, _, _, rfl⟩
      · refine .inl (hremark ?_ hdefault)
        exact remarksAt_ite remarksAt_nil (remarksAt_plain _ _)
  case h_7 =>
      exact .inl (hremark (remarksAt_checkDeclaration _ _ _ _) hevent)
  case h_8 => cases hevent

end Arena

-- ========================================================= definitions

namespace ClassTable

variable {classes : ClassTable} {line : Nat}

/-- Some class is defined at the line. -/
def Defines (classes : ClassTable) (line : Nat) : Prop :=
  ∃ id info, classes.get? id = some info ∧ info.definedAt = some line

/-- Changes to a class that leave its definition alone. -/
theorem Defines.of_update {id : Nat} {f : ClassInfo → ClassInfo}
    (h : Defines (classes.update id f) line)
    (hf : ∀ info, (f info).definedAt = info.definedAt) :
    classes.Defines line := by
  obtain ⟨a, info, hinfo, hline⟩ := h
  rw [Registry.get?_update] at hinfo
  split at hinfo
  · obtain ⟨old, hold, rfl⟩ := Option.map_eq_some_iff.1 hinfo
    exact ⟨a, old, hold, hf old ▸ hline⟩
  · exact ⟨a, info, hinfo, hline⟩

/-- A class that is only entered is not defined. -/
theorem Defines.of_enter {name : String}
    (h : (classes.enter name).2.Defines line) : classes.Defines line := by
  obtain ⟨a, info, hinfo, hline⟩ := h
  rcases Registry.get?_intern classes name {} a with hold | ⟨-, hfresh⟩
  · exact ⟨a, info, hold ▸ hinfo, hline⟩
  · obtain rfl := Option.some.inj (hinfo.symm.trans hfresh)
    cases hline

/-- The lines of definitions are those before, and the new one. -/
theorem Defines.of_define {name : String} {n : Nat}
    (h : (classes.define name n).2.Defines line) :
    classes.Defines line ∨ line = n := by
  obtain ⟨a, info, hinfo, hline⟩ := h
  rw [define, Registry.get?_update] at hinfo
  split at hinfo
  · obtain ⟨old, hold, rfl⟩ := Option.map_eq_some_iff.1 hinfo
    rcases Option.or_eq_some_iff.1 hline with hline | ⟨-, hline⟩
    · exact .inl (Defines.of_enter ⟨a, old, hold, hline⟩)
    · exact .inr (Option.some.inj hline).symm
  · exact .inl (Defines.of_enter ⟨a, info, hinfo, hline⟩)

/-- A link defines nothing. -/
theorem Defines.of_link {id superId : Nat}
    (h : (classes.link id superId).2.Defines line) :
    classes.Defines line := by
  unfold link at h
  split at h
  · split at h <;> exact h
  · split at h
    · exact h
    · exact h.of_update fun _ => rfl

end ClassTable

namespace Arena

variable {arena : Arena} {model : Model} {i line : Nat}

/-- The step lemma. -/
theorem Alters.defines {classes later : ClassTable}
    (hstep : arena.Alters i classes later) (h : later.Defines line) :
    classes.Defines line ∨ line = arena.lineOf (some i) := by
  cases hstep with
  | enter name => exact .inl h.of_enter
  | define name hname _ => exact h.of_define
  | link id superId hnamed _ => exact .inl h.of_link
  | addField id slot hnew _ => exact .inl (h.of_update fun _ => rfl)
  | addStaticField id slot hnew hdeclares =>
      exact .inl (h.of_update fun _ => rfl)

/-- A node defines classes on its own line. -/
theorem Altered.defines {classes later : ClassTable}
    (hsteps : arena.Altered i classes later) (h : later.Defines line) :
    classes.Defines line ∨ line = arena.lineOf (some i) := by
  induction hsteps with
  | refl => exact .inl h
  | tail _ hstep ih => exact (hstep.defines h).elim ih .inr

end Arena

end ScriptLint
