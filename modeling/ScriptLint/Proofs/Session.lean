/-
How a check goes. Its nodes are checked in turn, each with the model
that those before it have left; the sink takes what they report and is
never asked. So a check is a list of events, the same for every sink
(`exists_events_checkTree`), and what holds of the first model and is
kept by the check of any node holds of every model that a check comes
to (`Reaches.induct`).

No file leaves anything behind for the next one: a check begins with a
session of which only the options are old, and no check changes those
(`check_afterChecking`).

# What other files use

- `Reaches.induct`: an invariant of the model that holds of the first one
  and is kept by the check of any node holds wherever a check may come to.
  Most facts about classes and functions are proved with it.
- `check_of_parse`, `checkTree_of_visit` and `check_eq`: a check of a text,
  unfolded into the walk over the nodes of its arena.
- `closingEvents`: what is reported behind the last node, which is the one
  thing that the options decide.
-/
import ScriptLint.Proofs.Parse.Built
import ScriptLint.Session

namespace ScriptLint

theorem Sink.takeAll_append (sink : Sink) (events more : List Event) :
    sink.takeAll (events ++ more) = (sink.takeAll events).takeAll more :=
  List.foldl_append

namespace Session

variable {arena : Arena}

-- =============================================================== sinks

/-- The session with another sink. -/
def withSink (session : Session) (sink : Sink) : Session :=
  { session with sink }

/-- Checking nodes gives the sink some events, whatever it has taken
before, and does not depend on it. -/
theorem exists_events_visit (arena : Arena) (nodes : List Nat)
    (session : Session) :
    ∃ events, ∀ sink, visit arena nodes (session.withSink sink)
      = ((visit arena nodes session).1.withSink (sink.takeAll events),
        (visit arena nodes session).2) := by
  induction nodes generalizing session with
  | nil => exact ⟨[], fun sink => rfl⟩
  | cons i nodes ih =>
      cases hnode : arena.checkNode session.model i with
      | error stray =>
          refine ⟨[], fun sink => ?_⟩
          simp only [visit, withSink, hnode]
          rfl
      | ok outcome =>
          obtain ⟨events, hevents⟩ := ih (session.absorb outcome)
          refine ⟨outcome.events ++ events, fun sink => ?_⟩
          have hrest := hevents (sink.takeAll outcome.events)
          rw [← Sink.takeAll_append] at hrest
          simp only [visit, withSink, hnode]
          exact hrest

/-- What is reported behind the last node. -/
def closingEvents (session : Session) : List Event :=
  if session.options.requireSuper then session.model.missingSupers else []

theorem checkTree_of_stray {session last : Session} {root : Ref}
    {stray : StrayReturn}
    (h : visit arena (arena.preorder root) session = (last, some stray)) :
    session.checkTree arena root = (last, some stray) := by
  rw [checkTree, h]

theorem checkTree_of_visit {session last : Session} {root : Ref}
    (h : visit arena (arena.preorder root) session = (last, none)) :
    session.checkTree arena root
      = (last.withSink (last.sink.takeAll last.closingEvents), none) := by
  rw [checkTree, h, closingEvents]
  dsimp only
  split <;> rfl

theorem exists_events_checkTree (session : Session) (arena : Arena)
    (root : Ref) :
    ∃ events, ∀ sink, (session.withSink sink).checkTree arena root
      = ((session.checkTree arena root).1.withSink (sink.takeAll events),
        (session.checkTree arena root).2) := by
  obtain ⟨events, hevents⟩ :=
    exists_events_visit arena (arena.preorder root) session
  rcases hrun : visit arena (arena.preorder root) session with ⟨last, stray⟩
  rw [hrun] at hevents
  cases stray with
  | some stray =>
      refine ⟨events, fun sink => ?_⟩
      rw [checkTree_of_stray hrun, checkTree_of_stray (hevents sink)]
  | none =>
      refine ⟨events ++ last.closingEvents, fun sink => ?_⟩
      rw [checkTree_of_visit hrun, checkTree_of_visit (hevents sink),
        Sink.takeAll_append]
      rfl

/-- The arena that is checked is the one that the tree of the text is laid
out in. -/
theorem check_eq (session : Session) (file text : String) :
    session.check file text =
      let session := session.reset file
      let lines := Text.LineMap.ofText text
      match Tree.parse text with
      | .error e =>
        let event := .report .badSyntax (lines.lineOf e.offset) e.fault.message
        let (session, found) :=
          { session with sink := session.sink.take event }.drain
        (session, .ok found)
      | .ok tree =>
        let (root, arena) := Arena.ofTree lines tree
        match session.checkTree arena (some root) with
        | (session, some stray) => (session, .error stray)
        | (session, none) =>
          let (session, found) := session.drain
          (session, .ok found) := by
  rw [check, Arena.parse_eq]
  cases Tree.parse text <;> rfl

/-- The check of a program is that of its tree. -/
theorem check_of_parse {text : String} {tree : Tree}
    (h : Tree.parse text = .ok tree) (session : Session) (file : String) :
    session.check file text =
      let (root, arena) := Arena.ofTree (.ofText text) tree
      match (session.reset file).checkTree arena (some root) with
      | (last, some stray) => (last, .error stray)
      | (last, none) => (last.drain.1, .ok last.sink.diagnostics) := by
  rw [check_eq, h]
  rfl

-- =============================================================== reach

/-- The models that checking a file comes to: the first one, and in a
program those behind each of its nodes. -/
inductive Reaches (session : Session) (file text : String) :
    Model → Prop where
  | start : Reaches session file text (session.reset file).model
  | visit {tree : Tree} {nodes : List Nat} :
    Tree.parse text = .ok tree →
    nodes <+: (Arena.ofTree (.ofText text) tree).2.preorder
      (some (Arena.ofTree (.ofText text) tree).1) →
    Reaches session file text (Session.visit
      (Arena.ofTree (.ofText text) tree).2 nodes
      (session.reset file)).1.model

/-- The model at the end of a check is that behind its last node. -/
theorem model_checkTree (session : Session) (arena : Arena) (root : Ref) :
    (session.checkTree arena root).1.model
      = (visit arena (arena.preorder root) session).1.model := by
  rcases hrun : visit arena (arena.preorder root) session with ⟨last, stray⟩
  cases stray with
  | some stray => rw [checkTree_of_stray hrun]
  | none =>
      rw [checkTree_of_visit hrun]
      rfl

theorem reaches_check (session : Session) (file text : String) :
    session.Reaches file text (session.check file text).1.model := by
  rw [check_eq]
  dsimp only
  cases hparse : Tree.parse text with
  | error e => exact .start
  | ok tree =>
      have hlast : session.Reaches file text (visit
          (Arena.ofTree (.ofText text) tree).2 _
          (session.reset file)).1.model := .visit hparse (List.prefix_refl _)
      rw [← model_checkTree] at hlast
      dsimp only
      split <;> rename_i hrun <;> rw [hrun] at hlast <;> exact hlast

variable {P : Model → Prop} {session : Session}

/-- What the check of any node keeps is kept by checking nodes. -/
theorem visit_induct
    (hnode : ∀ model i outcome, P model →
      arena.checkNode model i = .ok outcome → P outcome.model)
    (nodes : List Nat) (h : P session.model) :
    P (visit arena nodes session).1.model := by
  induction nodes generalizing session with
  | nil => exact h
  | cons i nodes ih =>
      rw [visit]
      cases hrun : arena.checkNode session.model i with
      | error stray => exact h
      | ok outcome =>
          have hnext : P (session.absorb outcome).model :=
            hnode _ i outcome h hrun
          exact ih hnext

/-- What holds of every first model and is kept by the check of any node
holds of every model that a check comes to. -/
theorem Reaches.induct {file text : String} {model : Model}
    (h : session.Reaches file text model)
    (hstart : ∀ legacy, P { legacy })
    (hnode : ∀ arena model i outcome, P model →
      Arena.checkNode arena model i = .ok outcome → P outcome.model) :
    P model := by
  cases h with
  | start => exact hstart _
  | visit hparse hnodes => exact visit_induct (hnode _) _ (hstart _)

-- ======================================================= several files

theorem options_visit (arena : Arena) (nodes : List Nat)
    (session : Session) :
    (visit arena nodes session).1.options = session.options := by
  induction nodes generalizing session with
  | nil => rfl
  | cons i nodes ih =>
      rw [visit]
      split
      · rfl
      · exact ih _

theorem options_checkTree (session : Session) (arena : Arena)
    (root : Ref) :
    (session.checkTree arena root).1.options = session.options := by
  have hvisit := options_visit arena (arena.preorder root) session
  rcases hrun : visit arena (arena.preorder root) session with ⟨last, stray⟩
  rw [hrun] at hvisit
  cases stray with
  | some stray =>
      rw [checkTree_of_stray hrun]
      exact hvisit
  | none =>
      rw [checkTree_of_visit hrun]
      exact hvisit

/-- A check keeps the options, whatever becomes of the file. -/
theorem options_check (session : Session) (file text : String) :
    (session.check file text).1.options = session.options := by
  rw [check_eq]
  dsimp only
  cases Tree.parse text with
  | error e => rfl
  | ok tree =>
      have htree := options_checkTree (session.reset file)
        (Arena.ofTree (.ofText text) tree).2
        (some (Arena.ofTree (.ofText text) tree).1)
      dsimp only
      split <;> rename_i hrun <;> rw [hrun] at htree <;> exact htree

/-- Nothing but the options outlives the beginning of a file. -/
theorem reset_congr {session other : Session}
    (h : session.options = other.options) (file : String) :
    session.reset file = other.reset file := by
  simp only [reset, h, Sink.reset]

/-- The session after some files, each with its name and its text, have
been checked in turn. -/
def afterChecking (session : Session) (files : List (String × String)) :
    Session :=
  files.foldl (fun session (file, text) => (session.check file text).1)
    session

theorem options_afterChecking (session : Session)
    (files : List (String × String)) :
    (session.afterChecking files).options = session.options := by
  induction files generalizing session with
  | nil => rfl
  | cons file files ih =>
      have hrest := ih (session.check file.1 file.2).1
      rw [options_check] at hrest
      exact hrest

/-- Files do not interfere. Whatever has been checked before, the check of
a file yields what it yields in a new session with the same options, and
leaves the same session behind. -/
theorem check_afterChecking (options : Options)
    (earlier : List (String × String)) (file text : String) :
    ((start options).afterChecking earlier).check file text
      = (start options).check file text := by
  have hreset := reset_congr (options_afterChecking (start options) earlier)
    file
  rw [check_eq, check_eq, hreset]

end Session

end ScriptLint
