/-
What a node adds to the findings. A finding is kept unless its kind is
suppressed by then, and a kind is suppressed by then exactly if some node
before is a call of `$suppress` that names it
(`Session.Passes.isSuppressed_visit_iff`). So the findings behind a node
are those before it and what the node has to say, less the kinds that have
been named (`Session.Passes.diagnostics_concat`).
-/
import ScriptLint.Proofs.Silence
import ScriptLint.Proofs.Suppression

namespace ScriptLint

-- =============================================================== sinks

namespace Sink

variable {sink : Sink} {kind : DiagnosticKind}

theorem file_take (sink : Sink) (event : Event) :
    (sink.take event).file = sink.file := by
  cases event with
  | suppress kind => rfl
  | report kind line detail =>
      rw [take]
      split <;> rfl

theorem file_takeAll (sink : Sink) (events : List Event) :
    (sink.takeAll events).file = sink.file := by
  induction events generalizing sink with
  | nil => rfl
  | cons event events ih => exact (ih _).trans (file_take sink event)

/-- Findings suppress nothing. -/
theorem isSuppressed_take_report (sink : Sink) (kind : DiagnosticKind)
    (line : Nat) (detail : Option String) (other : DiagnosticKind) :
    (sink.take (.report kind line detail)).isSuppressed other
      = sink.isSuppressed other := by
  rw [take]
  split <;> rfl

/-- A kind is suppressed if it has been or if one of the events asks for
it. -/
theorem isSuppressed_takeAll (sink : Sink) (events : List Event)
    (kind : DiagnosticKind) :
    (sink.takeAll events).isSuppressed kind = true
      ↔ sink.isSuppressed kind = true ∨ .suppress kind ∈ events := by
  induction events generalizing sink with
  | nil => simp [takeAll]
  | cons event events ih =>
      show ((sink.take event).takeAll events).isSuppressed kind = true ↔ _
      rw [ih, List.mem_cons]
      cases event with
      | report other line detail =>
          rw [isSuppressed_take_report]
          simp
      | suppress other =>
          rw [isSuppressed_take_suppress, Event.suppress.injEq, or_assoc,
            or_left_comm]

/-- Of several findings at a line those are kept whose kinds are not
suppressed. -/
theorem filterMap_keeps? (line : Nat) (detail : Option String)
    (kinds : List DiagnosticKind) :
    kinds.filterMap (fun kind => sink.keeps? (.report kind line detail))
      = (kinds.filter fun kind => !sink.isSuppressed kind).map
        fun kind => .of kind sink.file line detail := by
  induction kinds with
  | nil => rfl
  | cons kind kinds ih =>
      rw [List.filterMap_cons, List.filter_cons, ih]
      cases hkind : sink.isSuppressed kind <;> simp [keeps?, hkind]

/-- One finding is kept or dropped. -/
theorem map_filter_singleton {α : Type} (sink : Sink) (kind : DiagnosticKind)
    (f : DiagnosticKind → α) :
    ([kind].filter fun kind => !sink.isSuppressed kind).map f
      = if sink.isSuppressed kind then [] else [f kind] := by
  cases hkind : sink.isSuppressed kind <;> simp [hkind]

/-- If one finding is kept of at most one, it was of that kind. -/
theorem eq_some_of_kept {found : Option DiagnosticKind}
    {kind : DiagnosticKind} {line : Nat} {detail other : Option String}
    (h : ((found.toList.filter fun kind => !sink.isSuppressed kind).map
        fun kind => Diagnostic.of kind sink.file line detail)
      = [.of kind sink.file line other]) :
    found = some kind ∧ sink.isSuppressed kind = false := by
  cases found with
  | none => cases h
  | some first =>
      rw [Option.toList_some, map_filter_singleton] at h
      split at h
      · cases h
      · rename_i hloud
        obtain rfl : first = kind :=
          congrArg Diagnostic.kind (List.singleton_inj.1 h)
        exact ⟨rfl, by simpa using hloud⟩

theorem kept_of_eq_some {found : Option DiagnosticKind}
    {kind : DiagnosticKind} (hfound : found = some kind)
    (hloud : sink.isSuppressed kind = false) (line : Nat)
    (detail : Option String) :
    ((found.toList.filter fun kind => !sink.isSuppressed kind).map
        fun kind => Diagnostic.of kind sink.file line detail)
      = [.of kind sink.file line detail] := by
  rw [hfound, Option.toList_some, map_filter_singleton, hloud]
  rfl

/-- Findings of one kind that is not suppressed are all kept. -/
theorem takeAll_map_report {α : Type} (h : sink.isSuppressed kind = false)
    (line : α → Nat) (detail : α → Option String) (xs : List α) :
    (sink.takeAll
        (xs.map fun x => .report kind (line x) (detail x))).diagnostics
      = sink.diagnostics
        ++ xs.map fun x => .of kind sink.file (line x) (detail x) := by
  have hreports : ∀ event ∈ xs.map fun x =>
      Event.report kind (line x) (detail x), event.IsReport := by
    intro event hevent
    obtain ⟨x, -, rfl⟩ := List.mem_map.1 hevent
    exact ⟨kind, line x, detail x, rfl⟩
  rw [takeAll_of_reports hreports, List.filterMap_map]
  have hkept : (sink.keeps? ∘ fun x => .report kind (line x) (detail x))
      = fun x => some (.of kind sink.file (line x) (detail x)) := by
    funext x
    simp [keeps?, h]
  rw [hkept]
  simp

end Sink

-- ============================================================ requests

namespace Arena

variable {arena : Arena} {model : Model} {i : Nat}

/-- The kind of findings that a call of `$suppress` names. -/
def suppression? (arena : Arena) (i : Nat) : Option DiagnosticKind :=
  match arena.form? (some i) with
  | some (.call callee [argument]) =>
    if arena.nameOf callee = "$suppress" then
      (arena.stringValue? argument).bind DiagnosticKind.ofToken?
    else none
  | _ => none

theorem exists_call_of_suppression? {kind : DiagnosticKind}
    (h : arena.suppression? i = some kind) :
    ∃ callee argument, arena.form? (some i) = some (.call callee [argument])
      ∧ arena.nameOf callee = "$suppress" := by
  unfold suppression? at h
  split at h
  · split at h
    · exact ⟨_, _, ‹_›, ‹_›⟩
    · cases h
  · cases h

/-- What a call of `$suppress` asks for is to suppress the kind that it
names. -/
theorem suppress_mem_checkSuppress_iff {callee : Ref} {arguments : List Ref}
    {call : Ref} {kind : DiagnosticKind}
    (hform : arena.form? (some i) = some (.call callee arguments))
    (hname : arena.nameOf callee = "$suppress") :
    .suppress kind ∈ arena.checkSuppress call arguments
      ↔ arena.suppression? i = some kind := by
  unfold checkSuppress suppression?
  rw [hform]
  split
  · rename_i argument
    dsimp only
    rw [if_pos hname]
    split
    · rename_i token hvalue
      simp [hvalue, Option.map_eq_some_iff]
    · rename_i hvalue
      simp [hvalue, report]
  · rename_i hcount
    split
    · rename_i argument hcall
      cases hcall
      exact absurd rfl (hcount argument)
    · simp [report]

/-- A program without such calls suppresses nothing. -/
theorem suppression?_of_callsNone
    (h : ∀ i < arena.size, arena.calleeName? i ≠ some "$suppress")
    (i : Nat) : arena.suppression? i = none := by
  cases hsuppression : arena.suppression? i with
  | none => rfl
  | some kind =>
      obtain ⟨callee, argument, hcall⟩ :=
        exists_call_of_suppression? hsuppression
      exact absurd ⟨callee, [argument], hcall⟩ (callsNone_of_lt h i)

/-- Only such a call asks for it. -/
theorem suppress_mem_events_iff {outcome : Outcome} {kind : DiagnosticKind}
    (h : arena.checkNode model i = .ok outcome) :
    .suppress kind ∈ outcome.events
      ↔ arena.suppression? i = some kind := by
  have hcall : ∀ {callee arguments},
      arena.form? (some i) = some (.call callee arguments) →
      arena.nameOf callee = "$suppress" →
      outcome.events = arena.checkSuppress (some i) arguments := by
    intro callee arguments hform hname
    rw [checkNode_call hform] at h
    cases h
    rw [checkCall, hname]
    rfl
  constructor
  · intro hevent
    rcases concerns_checkNode h hevent with
      ⟨ref, -, other, detail, hreported⟩ | ⟨⟨callee, arguments, hform,
        hname⟩, -⟩
    · cases hreported
    · rw [hcall hform hname] at hevent
      exact (suppress_mem_checkSuppress_iff hform hname).1 hevent
  · intro hsuppression
    obtain ⟨callee, argument, hform, hname⟩ :=
      exists_call_of_suppression? hsuppression
    rw [hcall hform hname]
    exact (suppress_mem_checkSuppress_iff hform hname).2 hsuppression

end Arena

-- ============================================================ sessions

namespace Session

variable {arena : Arena} {root : Ref} {session : Session} {i : Nat}
  {kind : DiagnosticKind}

theorem file_visit (arena : Arena) (nodes : List Nat) (session : Session) :
    (visit arena nodes session).1.sink.file = session.sink.file := by
  induction nodes generalizing session with
  | nil => rfl
  | cons i nodes ih =>
      rw [visit]
      split
      · rfl
      · exact (ih _).trans (Sink.file_takeAll _ _)

/-- Behind some nodes, a kind is suppressed exactly if one of them names
it in a call of `$suppress`. -/
theorem Passes.isSuppressed_visit_iff (h : Passes arena root)
    (hsink : session.sink.suppressed = []) (nodes : List Nat) :
    (visit arena nodes session).1.sink.isSuppressed kind = true
      ↔ ∃ i ∈ nodes, arena.suppression? i = some kind := by
  rw [← exists_prefix_iff]
  refine h.visit_iff_exists
    (P := fun session => session.sink.isSuppressed kind = true) ?_ ?_ nodes
  · simp [Sink.isSuppressed, hsink]
  · intro before i outcome hrun
    show (Sink.takeAll _ outcome.events).isSuppressed kind = true ↔ _
    rw [Sink.isSuppressed_takeAll, Arena.suppress_mem_events_iff hrun]

/-- A node that only reports adds its findings, as far as their kinds are
not suppressed. -/
theorem Passes.diagnostics_concat (h : Passes arena root)
    {before : List Nat} {outcome : Outcome} {kinds : List DiagnosticKind}
    {detail : Option String}
    (hrun : arena.checkNode (visit arena before session).1.model i
      = .ok outcome)
    (hevents : outcome.events
      = kinds.map fun kind => arena.report kind (some i) detail) :
    (visit arena (before ++ [i]) session).1.sink.diagnostics
      = (visit arena before session).1.sink.diagnostics
        ++ (kinds.filter fun kind =>
            !(visit arena before session).1.sink.isSuppressed kind).map
          fun kind => .of kind (visit arena before session).1.sink.file
            (arena.lineOf (some i)) detail := by
  have hreports : ∀ event ∈ outcome.events, event.IsReport := by
    intro event hevent
    rw [hevents] at hevent
    obtain ⟨kind, -, rfl⟩ := List.mem_map.1 hevent
    exact ⟨kind, _, detail, rfl⟩
  rw [h.visit_concat before hrun, absorb, Sink.takeAll_of_reports hreports,
    hevents, List.filterMap_map]
  exact congrArg (_ ++ ·) (Sink.filterMap_keeps? _ _ kinds)

/-- What a node finds, if it finds one thing at most, is reported exactly if
it is of the kind and no node before has suppressed that kind. -/
theorem Passes.reported_iff (h : Passes arena root)
    (hsink : session.sink.suppressed = []) {before : List Nat}
    {outcome : Outcome} {found : Option DiagnosticKind}
    {detail : Option String}
    (hrun : arena.checkNode (visit arena before session).1.model i
      = .ok outcome)
    (hevents : outcome.events
      = found.toList.map fun kind => arena.report kind (some i) detail) :
    (visit arena (before ++ [i]) session).1.sink.diagnostics
        = (visit arena before session).1.sink.diagnostics
          ++ [.of kind session.sink.file (arena.lineOf (some i)) detail]
      ↔ found = some kind ∧ ∀ j ∈ before, arena.suppression? j ≠ some kind := by
  have hloud :
      (visit arena before session).1.sink.isSuppressed kind = false
        ↔ ∀ j ∈ before, arena.suppression? j ≠ some kind := by
    rw [← Bool.not_eq_true, h.isSuppressed_visit_iff hsink before]
    simp only [not_exists, not_and, Ne]
  rw [h.diagnostics_concat hrun hevents, List.append_right_inj, ← hloud,
    ← file_visit arena before session]
  constructor
  · exact Sink.eq_some_of_kept
  · rintro ⟨hfound, hunsuppressed⟩
    exact Sink.kept_of_eq_some hfound hunsuppressed _ detail

end Session

end ScriptLint
