/-
Checking files. The nodes of a file are checked in document order, each
with the model that those before it have built; a session keeps the
model and the findings of the file it checked last.
-/
import ScriptLint.Check.Assignment
import ScriptLint.Check.Directive
import ScriptLint.Check.Shape
import ScriptLint.Check.Value
import ScriptLint.Parse.Building

namespace ScriptLint

-- ================================================================ nodes

/-- Checks one node. Most forms have nothing to be checked. -/
def Arena.checkNode (arena : Arena) (model : Model) (i : Nat) :
    Except StrayReturn Outcome :=
  let node := some i
  match arena.form? node with
  | some (.assignment left _ right) =>
    .ok (arena.checkAssignment model node left right)
  | some (.call callee arguments) =>
    .ok (arena.checkCall model node callee arguments)
  | some (.construct callee _) =>
    .ok { model, events := arena.checkConstruct node callee }
  | some (.object properties) =>
    .ok { model, events := arena.checkObject node properties }
  | some (.returning value) => arena.checkReturn model node value
  | some (.switch _ clauses) =>
    .ok { model, events := arena.checkSwitch node clauses }
  | some (.declaration name initializer) =>
    .ok (arena.checkDeclaration model node name initializer)
  | _ => .ok { model }

/-- The classes that need a superclass and have none, each reported at
its definition. -/
def Model.missingSupers (model : Model) : List Event :=
  model.classes.entries.filterMap fun (name, info) =>
    match info.definedAt with
    | some line =>
      if ClassTable.isNative name || info.superClass.isSome then none
      else some (.report .noSuper line s!"Class [{name}].")
    | none => none

-- ============================================================= sessions

/-- What holds for every file of a run. -/
structure Options where
  /-- Begin every file in legacy mode. -/
  legacy : Bool := false
  /-- Report classes without a superclass. -/
  requireSuper : Bool := false
  deriving Repr, DecidableEq

/-- A checker with the state of its current file. -/
structure Session where
  options : Options
  model : Model
  sink : Sink := {}
  deriving Repr, DecidableEq

namespace Session

/-- A session that has checked nothing yet. -/
def start (options : Options) : Session :=
  { options, model := { legacy := options.legacy } }

/-- Forgets the last file and begins another. -/
def reset (session : Session) (file : String) : Session :=
  { session with
    model := { legacy := session.options.legacy }
    sink := session.sink.reset file }

/-- The session after a node with the given outcome. -/
def absorb (session : Session) (outcome : Outcome) : Session :=
  { session with
    model := outcome.model
    sink := session.sink.takeAll outcome.events }

/-- Checks nodes in order, up to a stray return. -/
def visit (arena : Arena) :
    List Nat → Session → Session × Option StrayReturn
  | [], session => (session, none)
  | i :: nodes, session =>
    match arena.checkNode session.model i with
    | .error stray => (session, some stray)
    | .ok outcome => visit arena nodes (session.absorb outcome)

/-- Checks the tree at a root, and its classes at the end. -/
def checkTree (session : Session) (arena : Arena) (root : Ref) :
    Session × Option StrayReturn :=
  match visit arena (arena.preorder root) session with
  | (session, some stray) => (session, some stray)
  | (session, none) =>
    if session.options.requireSuper then
      let events := session.model.missingSupers
      ({ session with sink := session.sink.takeAll events }, none)
    else (session, none)

/-- Takes the findings out of the session. -/
def drain (session : Session) : Session × List Diagnostic :=
  ({ session with sink := { session.sink with diagnostics := [] } },
    session.sink.diagnostics)

/-- Parses and checks a file. A text that does not parse has one
finding, at the line of its first error. -/
def check (session : Session) (file text : String) :
    Session × Except StrayReturn (List Diagnostic) :=
  let session := session.reset file
  match Arena.parse text with
  | .error e =>
    let line := (Text.LineMap.ofText text).lineOf e.offset
    let event := .report .badSyntax line e.fault.message
    let (session, found) :=
      { session with sink := session.sink.take event }.drain
    (session, .ok found)
  | .ok (root, arena) =>
    match session.checkTree arena (some root) with
    | (session, some stray) => (session, .error stray)
    | (session, none) =>
      let (session, found) := session.drain
      (session, .ok found)

end Session

end ScriptLint
