/-
Suppression drops findings and does nothing else. Two checks of the same
nodes, one of them with some kinds suppressed beforehand, give their
sinks the same events. The sinks differ by the findings of those kinds,
and that difference stays the same from event to event (`Quieter`),
requests to suppress among them.

# The argument

- Checking never looks at the sink, so the two runs have the same outcomes
  node by node; the proof is about the two sinks alone.
- A finding of a suppressed kind is kept by one sink only, and belongs to
  the difference. Any other is kept or dropped by both, since what is
  suppressed later on is suppressed in both (`Quieter.take`).
-/
import ScriptLint.Proofs.Session

namespace ScriptLint

-- =============================================================== sinks

namespace Sink

variable {kinds : List DiagnosticKind} {quiet sink : Sink}

/-- A sink that has some kinds suppressed and is otherwise like another
one. -/
structure Quieter (kinds : List DiagnosticKind) (quiet sink : Sink) :
    Prop where
  file_eq : quiet.file = sink.file
  isSuppressed_iff : ∀ kind, quiet.isSuppressed kind = true
    ↔ kind ∈ kinds ∨ sink.isSuppressed kind = true
  diagnostics_eq : quiet.diagnostics
    = sink.diagnostics.filter fun found => found.kind ∉ kinds

theorem isSuppressed_take_suppress (sink : Sink)
    (kind other : DiagnosticKind) :
    (sink.take (.suppress kind)).isSuppressed other = true
      ↔ other = kind ∨ sink.isSuppressed other = true := by
  simp [take, isSuppressed]

/-- Both sinks may take the same event. -/
theorem Quieter.take (h : Quieter kinds quiet sink) (event : Event) :
    Quieter kinds (quiet.take event) (sink.take event) := by
  obtain ⟨hfile, hkinds, hfound⟩ := h
  cases event with
  | suppress kind =>
      refine ⟨hfile, fun other => ?_, hfound⟩
      rw [isSuppressed_take_suppress, isSuppressed_take_suppress, hkinds]
      exact or_left_comm
  | report kind line detail =>
      by_cases hloud : sink.isSuppressed kind = true
      · have hquiet := (hkinds kind).2 (.inr hloud)
        simp only [Sink.take, hloud, hquiet, if_true]
        exact ⟨hfile, hkinds, hfound⟩
      by_cases hkind : kind ∈ kinds
      · have hquiet := (hkinds kind).2 (.inl hkind)
        simp only [Sink.take, hloud, hquiet, if_true]
        refine ⟨hfile, hkinds, ?_⟩
        simp [hfound, List.filter_append, Diagnostic.of, hkind]
      · have hquiet : ¬ quiet.isSuppressed kind = true := fun hdropped =>
          ((hkinds kind).1 hdropped).elim hkind hloud
        simp only [Sink.take, hloud, hquiet]
        refine ⟨hfile, hkinds, ?_⟩
        simp [hfound, hfile, List.filter_append, Diagnostic.of, hkind]

theorem Quieter.takeAll (h : Quieter kinds quiet sink)
    (events : List Event) :
    Quieter kinds (quiet.takeAll events) (sink.takeAll events) := by
  induction events generalizing quiet sink with
  | nil => exact h
  | cons event events ih => exact ih (h.take event)

theorem takeAll_suppress (sink : Sink) (kinds : List DiagnosticKind) :
    sink.takeAll (kinds.map .suppress)
      = { sink with suppressed := kinds.reverse ++ sink.suppressed } := by
  induction kinds generalizing sink with
  | nil => rfl
  | cons kind kinds ih =>
      rw [List.reverse_cons, List.append_assoc]
      exact ih (sink.take (.suppress kind))

/-- Before the first finding, requests to suppress kinds make a sink
quieter. -/
theorem quieter_of_reset (sink : Sink) (file : String)
    (kinds : List DiagnosticKind) :
    Quieter kinds ((sink.reset file).takeAll (kinds.map .suppress))
      (sink.reset file) := by
  rw [takeAll_suppress]
  refine ⟨rfl, fun kind => ?_, rfl⟩
  simp [isSuppressed]

end Sink

-- ============================================================ sessions

namespace Session

/-- The session with some kinds of findings suppressed. -/
def suppressing (session : Session) (kinds : List DiagnosticKind) :
    Session :=
  session.withSink (session.sink.takeAll (kinds.map .suppress))

/-- Suppression never influences a check: with some kinds of findings
suppressed beforehand, it goes on as far, ends with the same model, and
finds the same but for findings of those kinds. -/
theorem checkTree_suppressing (session : Session) (file : String)
    (kinds : List DiagnosticKind) (arena : Arena) (root : Ref) :
    let plain := (session.reset file).checkTree arena root
    let quiet := ((session.reset file).suppressing kinds).checkTree arena root
    quiet.2 = plain.2 ∧ quiet.1.model = plain.1.model
      ∧ quiet.1.sink.diagnostics = plain.1.sink.diagnostics.filter
        fun found => found.kind ∉ kinds := by
  obtain ⟨events, hevents⟩ :=
    exists_events_checkTree (session.reset file) arena root
  intro plain quiet
  have hplain : plain = (plain.1.withSink _, plain.2) :=
    hevents (session.reset file).sink
  have hsink : plain.1.sink = (session.reset file).sink.takeAll events :=
    congrArg (·.1.sink) hplain
  have hquiet : quiet = (plain.1.withSink _, plain.2) := hevents _
  have hkept :=
    (Sink.quieter_of_reset session.sink file kinds).takeAll events
  refine ⟨congrArg (·.2) hquiet, congrArg (·.1.model) hquiet, ?_⟩
  calc quiet.1.sink.diagnostics
      = (((session.reset file).suppressing kinds).sink.takeAll
          events).diagnostics := congrArg (·.1.sink.diagnostics) hquiet
    _ = ((session.reset file).sink.takeAll events).diagnostics.filter
          fun found => found.kind ∉ kinds := hkept.diagnostics_eq
    _ = plain.1.sink.diagnostics.filter fun found => found.kind ∉ kinds :=
        by rw [hsink]

end Session

end ScriptLint
