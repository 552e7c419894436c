/-
Findings on their way to the report. Checking a node yields events:
findings, and requests to suppress a kind of finding. A sink takes the
events of one file in order and keeps the findings that no earlier
request suppresses.
-/
import ScriptLint.Diagnostic

namespace ScriptLint

/-- What checking a node has to say. -/
inductive Event where
  | report (kind : DiagnosticKind) (line : Nat) (detail : Option String)
  /-- Drop findings of the kind from here to the end of the file. -/
  | suppress (kind : DiagnosticKind)
  deriving Repr, DecidableEq

/-- The findings of a file so far, and the kinds no longer wanted. -/
structure Sink where
  file : String := ""
  suppressed : List DiagnosticKind := []
  diagnostics : List Diagnostic := []
  deriving Repr, DecidableEq

namespace Sink

/-- Whether findings of the kind are dropped. -/
def isSuppressed (sink : Sink) (kind : DiagnosticKind) : Bool :=
  sink.suppressed.contains kind

/-- Takes one event. -/
def take (sink : Sink) : Event → Sink
  | .suppress kind => { sink with suppressed := kind :: sink.suppressed }
  | .report kind line detail =>
    if sink.isSuppressed kind then sink
    else { sink with diagnostics :=
      sink.diagnostics ++ [.of kind sink.file line detail] }

/-- Takes several events in order. -/
def takeAll (sink : Sink) (events : List Event) : Sink :=
  events.foldl take sink

/-- Forgets everything and starts over with another file. -/
def reset (_ : Sink) (file : String) : Sink := { file }

end Sink

end ScriptLint
