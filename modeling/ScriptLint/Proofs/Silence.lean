/-
Silent nodes. As long as nothing is suppressed, a check keeps every
finding, so a node adds nothing to the findings exactly if its own check
has nothing to say (`Session.Heard.silentAt_iff`). Nodes are checked in
document order, each once, and of two different nodes one precedes the
other (`Arena.precedes_or_precedes`); that is what tells a first write of a
field from a later one.

What a check has come to know at a node is what some node before it has
brought about (`Session.Passes.visit_iff_exists`).

# What other files use

- `Passes`: every node is come to once, in document order, and has an
  outcome. `passes_of_parse` says so of programs.
- `Passes.visit_concat` and `Passes.visit_iff_exists`: from what one node
  brings about to what some node before has brought about.
- `Heard`: the same where nothing is suppressed, so that reports and
  findings are one.
-/
import ScriptLint.Proofs.Events
import ScriptLint.Proofs.Fields
import ScriptLint.Proofs.Returns

namespace ScriptLint

-- =============================================================== order

namespace Arena

variable {arena : Arena} {root : Ref} {i j : Nat} {before before' : List Nat}

/-- The node comes before another one in document order. -/
def Precedes (arena : Arena) (root : Ref) (i j : Nat) : Prop :=
  ∃ before, before ++ [j] <+: arena.preorder root ∧ i ∈ before

/-- What is come to up to a node is that node, or is come to before it. -/
theorem prefix_concat_cases (h : before ++ [i] <+: before' ++ [j]) :
    (before = before' ∧ i = j) ∨ before ++ [i] <+: before' := by
  rcases List.prefix_concat_iff.1 h with heq | hsooner
  · obtain ⟨hsame, hlast⟩ := List.append_inj' heq rfl
    exact .inl ⟨hsame, List.singleton_inj.1 hlast⟩
  · exact .inr hsooner

/-- Two nodes that are come to are the same, or one is come to later. -/
theorem prefix_cases {nodes : List Nat} (h : before ++ [i] <+: nodes)
    (h' : before' ++ [j] <+: nodes) :
    (before = before' ∧ i = j) ∨ before ++ [i] <+: before'
      ∨ before' ++ [j] <+: before := by
  rcases List.prefix_or_prefix_of_prefix h h' with hle | hle
  · rcases prefix_concat_cases hle with hsame | hlater
    · exact .inl hsame
    · exact .inr (.inl hlater)
  · rcases prefix_concat_cases hle with ⟨rfl, rfl⟩ | hsooner
    · exact .inl ⟨rfl, rfl⟩
    · exact .inr (.inr hsooner)

/-- What was come to before a node was come to precedes it. -/
theorem precedes_of_later (h : before ++ [i] <+: before')
    (h' : before' ++ [j] <+: arena.preorder root) :
    arena.Precedes root i j :=
  ⟨before', h', h.subset (List.mem_append_right _ (List.mem_singleton.2 rfl))⟩

theorem notMem_before (hnodup : (arena.preorder root).Nodup)
    (h : before ++ [i] <+: arena.preorder root) : i ∉ before := by
  intro hi
  have hconcat := hnodup.sublist h.sublist
  exact List.disjoint_of_nodup_append hconcat hi (List.mem_singleton.2 rfl)

/-- A node is come to once. -/
theorem before_unique (hnodup : (arena.preorder root).Nodup)
    (h : before ++ [i] <+: arena.preorder root)
    (h' : before' ++ [i] <+: arena.preorder root) : before = before' := by
  have hself : ∀ nodes, i ∈ nodes ++ [i] := fun _ =>
    List.mem_append_right _ (List.mem_singleton.2 rfl)
  rcases prefix_cases h h' with ⟨hsame, -⟩ | hlater | hsooner
  · exact hsame
  · exact absurd (hlater.subset (hself _)) (notMem_before hnodup h')
  · exact absurd (hsooner.subset (hself _)) (notMem_before hnodup h)

/-- Whatever precedes a node has been come to before it. -/
theorem precedes_iff (hnodup : (arena.preorder root).Nodup)
    (h : before ++ [j] <+: arena.preorder root) :
    arena.Precedes root i j ↔ i ∈ before := by
  constructor
  · rintro ⟨before', hleads, hi⟩
    rw [before_unique hnodup h hleads]
    exact hi
  · intro hi
    exact ⟨before, h, hi⟩

theorem Precedes.irrefl (hnodup : (arena.preorder root).Nodup) :
    ¬ arena.Precedes root i i := by
  rintro ⟨before, hleads, hi⟩
  exact notMem_before hnodup hleads hi

/-- Every node is come to. -/
theorem exists_before (hi : i ∈ arena.preorder root) :
    ∃ before, before ++ [i] <+: arena.preorder root := by
  obtain ⟨before, more, hsplit⟩ := List.append_of_mem hi
  refine ⟨before, more, ?_⟩
  rw [hsplit, List.append_assoc, List.singleton_append]

/-- Of two different nodes one precedes the other. -/
theorem precedes_or_precedes (hi : i ∈ arena.preorder root)
    (hj : j ∈ arena.preorder root) (hne : i ≠ j) :
    arena.Precedes root i j ∨ arena.Precedes root j i := by
  obtain ⟨before, hleads⟩ := exists_before hi
  obtain ⟨before', hleads'⟩ := exists_before hj
  rcases prefix_cases hleads hleads' with ⟨-, heq⟩ | hlater | hsooner
  · exact absurd heq hne
  · exact .inl (precedes_of_later hlater hleads')
  · exact .inr (precedes_of_later hsooner hleads)

/-- The name of what a node calls, if it is a call. -/
def calleeName? (arena : Arena) (i : Nat) : Option String :=
  match arena.form? (some i) with
  | some (.call callee _) => some (arena.nameOf callee)
  | _ => none

theorem callsSuppress_iff :
    arena.CallsSuppress i ↔ arena.calleeName? i = some "$suppress" := by
  unfold calleeName?
  constructor
  · rintro ⟨callee, arguments, hform, hname⟩
    rw [hform, ← hname]
  · intro hname
    split at hname
    · rename_i hform
      exact ⟨_, _, hform, Option.some.inj hname⟩
    · cases hname

/-- It is enough to look at the nodes that there are. -/
theorem callsNone_of_lt
    (h : ∀ i < arena.size, arena.calleeName? i ≠ some "$suppress") (i : Nat) :
    ¬ arena.CallsSuppress i := by
  intro hcalls
  have hname := callsSuppress_iff.1 hcalls
  obtain ⟨callee, arguments, hform, -⟩ := hcalls
  exact h i (lt_size_of_form? hform) hname

/-- The walk through a tree that is laid out comes to each of its nodes. -/
theorem mem_preorder_ofTree {lines : Text.LineMap} {tree : Tree}
    {form : Form Ref}
    (hform : (ofTree lines tree).2.form? (some i) = some form) :
    i ∈ (ofTree lines tree).2.preorder (some (ofTree lines tree).1) := by
  rw [(isTree_shows_ofTree tree).1.preorder_perm.mem_iff, List.mem_range]
  exact lt_size_of_form? hform

end Arena

-- =============================================================== sinks

/-- The event is a finding. -/
def Event.IsReport (event : Event) : Prop :=
  ∃ kind line detail, event = .report kind line detail

namespace Sink

variable {sink : Sink} {events : List Event}

/-- What the sink makes of an event: nothing, or one more finding. -/
def keeps? (sink : Sink) : Event → Option Diagnostic
  | .report kind line detail =>
    if sink.isSuppressed kind then none
    else some (.of kind sink.file line detail)
  | .suppress _ => none

/-- Findings alone add to the findings, as far as their kinds are not
suppressed, and do nothing else. -/
theorem takeAll_of_reports (hevents : ∀ event ∈ events, event.IsReport) :
    sink.takeAll events
      = { sink with
          diagnostics := sink.diagnostics ++ events.filterMap sink.keeps? }
      := by
  induction events generalizing sink with
  | nil => simp [takeAll]
  | cons event events ih =>
      obtain ⟨⟨kind, line, detail, rfl⟩, hrest⟩ :=
        List.forall_mem_cons.1 hevents
      have hstep : sink.take (.report kind line detail)
          = { sink with diagnostics := sink.diagnostics
              ++ (sink.keeps? (.report kind line detail)).toList } := by
        rw [take, keeps?]
        split <;> simp
      -- the kinds that are suppressed, and the file, are those of before
      have hkeeps : ∀ found, keeps?
          { sink with diagnostics := sink.diagnostics ++ found }
          = sink.keeps? := by
        intro found
        funext event
        cases event <;> rfl
      show (sink.take _).takeAll events = _
      rw [hstep, ih hrest, List.filterMap_cons, hkeeps]
      cases sink.keeps? (.report kind line detail) <;> simp

/-- A sink that suppresses nothing takes every finding, and goes on to
suppress nothing. -/
theorem takeAll_reports (hsink : sink.suppressed = [])
    (hevents : ∀ event ∈ events, event.IsReport) :
    (sink.takeAll events).suppressed = []
      ∧ (sink.takeAll events).diagnostics.length
        = sink.diagnostics.length + events.length := by
  rw [takeAll_of_reports hevents]
  refine ⟨hsink, ?_⟩
  have hkept : (events.filterMap sink.keeps?).length = events.length := by
    rw [List.filterMap_length_eq_length]
    intro event hevent
    obtain ⟨kind, line, detail, rfl⟩ := hevents event hevent
    simp [keeps?, isSuppressed, hsink]
  rw [List.length_append, hkept]

end Sink

-- ============================================================== checks

namespace Session

variable {arena : Arena} {root : Ref} {i : Nat} {session : Session}

/-- The check of the node adds nothing to the findings of the session. -/
def SilentAt (arena : Arena) (root : Ref) (session : Session) (i : Nat) :
    Prop :=
  ∃ before, before ++ [i] <+: arena.preorder root
    ∧ (visit arena (before ++ [i]) session).1.sink.diagnostics
      = (visit arena before session).1.sink.diagnostics

/-- Every node of the tree is checked, once. -/
structure Passes (arena : Arena) (root : Ref) : Prop where
  outcome : ∀ model i, ∃ outcome, arena.checkNode model i = .ok outcome
  nodup : (arena.preorder root).Nodup

/-- One more node. -/
theorem Passes.visit_concat (h : Passes arena root) (before : List Nat)
    {outcome : Outcome}
    (hrun : arena.checkNode (visit arena before session).1.model i
      = .ok outcome) :
    (visit arena (before ++ [i]) session).1
      = (visit arena before session).1.absorb outcome := by
  have hnone := visit_of_outcomes h.outcome before session
  rcases hvisit : visit arena before session with ⟨last, stray⟩
  rw [hvisit] at hnone hrun
  obtain rfl : stray = none := hnone
  rw [visit_append, hvisit]
  dsimp only
  rw [visit, hrun]
  rfl

/-- What does not hold at first, and holds behind a node exactly if it held
before or the node brings it about, holds behind some nodes exactly if one
of them brings it about. -/
theorem Passes.visit_iff_exists (h : Passes arena root)
    {P : Session → Prop} {Q : List Nat → Nat → Prop} (hstart : ¬ P session)
    (hstep : ∀ {before i outcome},
      arena.checkNode (visit arena before session).1.model i = .ok outcome →
      (P ((visit arena before session).1.absorb outcome)
        ↔ P (visit arena before session).1 ∨ Q before i))
    (nodes : List Nat) :
    P (visit arena nodes session).1
      ↔ ∃ before i, before ++ [i] <+: nodes ∧ Q before i := by
  -- from the back: the last node is checked with what the others have left
  induction nodes using List.reverseRecOn with
  | nil => simpa [visit] using hstart
  | append_singleton nodes k ih =>
      obtain ⟨outcome, hrun⟩ :=
        h.outcome (visit arena nodes session).1.model k
      rw [h.visit_concat nodes hrun, hstep hrun, ih]
      constructor
      · rintro (⟨before, i, hleads, hholds⟩ | hholds)
        · exact ⟨before, i, hleads.trans (List.prefix_append _ _), hholds⟩
        · exact ⟨nodes, k, List.prefix_refl _, hholds⟩
      · rintro ⟨before, i, hleads, hholds⟩
        rcases Arena.prefix_concat_cases hleads with ⟨rfl, rfl⟩ | hleads
        · exact .inr hholds
        · exact .inl ⟨before, i, hleads, hholds⟩

/-- Some node brings it about, wherever that is come to. -/
theorem exists_prefix_iff {Q : Nat → Prop} {nodes : List Nat} :
    (∃ before i, before ++ [i] <+: nodes ∧ Q i) ↔ ∃ i ∈ nodes, Q i := by
  constructor
  · rintro ⟨before, i, hleads, hholds⟩
    exact ⟨i, hleads.subset (by simp), hholds⟩
  · rintro ⟨i, hi, hholds⟩
    obtain ⟨before, more, rfl⟩ := List.append_of_mem hi
    exact ⟨before, i, ⟨more, by simp⟩, hholds⟩

/-- The check of a program passes over each of its nodes. -/
theorem passes_of_parse {text : String} {tree : Tree}
    (h : Tree.parse text = .ok tree) :
    Passes (Arena.ofTree (.ofText text) tree).2
      (some (Arena.ofTree (.ofText text) tree).1) where
  outcome := Arena.exists_outcome fun _ _ hform =>
    Arena.exists_function_of_returning h hform
  nodup := (Arena.isTree_shows_ofTree tree).1.preorder_perm.nodup_iff.2
    List.nodup_range

/-- Every node of the tree is checked, once, and what it finds is not
suppressed. -/
structure Heard (arena : Arena) (root : Ref) : Prop where
  outcome : ∀ model i, ∃ outcome, arena.checkNode model i = .ok outcome
  nodup : (arena.preorder root).Nodup
  callsNone : ∀ i, ¬ arena.CallsSuppress i

theorem Heard.passes (h : Heard arena root) : Passes arena root :=
  ⟨h.outcome, h.nodup⟩

theorem Heard.isReport (h : Heard arena root) {model : Model}
    {outcome : Outcome} (hrun : arena.checkNode model i = .ok outcome) :
    ∀ event ∈ outcome.events, event.IsReport := by
  intro event hevent
  rcases Arena.concerns_checkNode hrun hevent with
    ⟨ref, -, kind, detail, rfl⟩ | ⟨hsuppress, -⟩
  · exact ⟨kind, _, detail, rfl⟩
  · exact absurd hsuppress (h.callsNone i)

theorem Heard.suppressed_visit (h : Heard arena root) (nodes : List Nat)
    (hsession : session.sink.suppressed = []) :
    (visit arena nodes session).1.sink.suppressed = [] := by
  induction nodes generalizing session with
  | nil => exact hsession
  | cons i nodes ih =>
      obtain ⟨outcome, hrun⟩ := h.outcome session.model i
      rw [visit, hrun]
      exact ih (Sink.takeAll_reports hsession (h.isReport hrun)).1

/-- A node is silent exactly if its check, with the model that it is come
to with, has nothing to say. -/
theorem Heard.silentAt_iff (h : Heard arena root)
    (hsession : session.sink.suppressed = []) {before : List Nat}
    {outcome : Outcome} (hleads : before ++ [i] <+: arena.preorder root)
    (hrun : arena.checkNode (visit arena before session).1.model i
      = .ok outcome) :
    SilentAt arena root session i ↔ outcome.events = [] := by
  have hadded :
      (visit arena (before ++ [i]) session).1.sink.diagnostics.length
        = (visit arena before session).1.sink.diagnostics.length
          + outcome.events.length := by
    rw [h.passes.visit_concat before hrun]
    exact (Sink.takeAll_reports (h.suppressed_visit before hsession)
      (h.isReport hrun)).2
  constructor
  · -- the node is come to once, so it is silent where it is come to here
    rintro ⟨before', hleads', hsame⟩
    rw [← Arena.before_unique h.nodup hleads hleads'] at hsame
    rw [hsame] at hadded
    exact List.eq_nil_of_length_eq_zero (by omega)
  · intro hevents
    refine ⟨before, hleads, ?_⟩
    rw [h.passes.visit_concat before hrun, absorb, hevents]
    rfl

/-- What comes up in the classes only with certain nodes, and stays there,
is there behind some nodes exactly if one of them is such a node. -/
theorem Heard.visit_iff_exists (h : Heard arena root)
    {P : ClassTable → Prop} {Q : Nat → Prop}
    (hempty : ¬ P session.model.classes)
    (horigin : ∀ {i classes later}, arena.Alters i classes later →
      P later → P classes ∨ Q i)
    (hkept : ∀ {classes later : ClassTable}, classes.Grows later →
      P classes → P later)
    (hdeclares : ∀ {model i outcome}, Q i →
      arena.checkNode model i = .ok outcome → P outcome.model.classes)
    (nodes : List Nat) :
    P (visit arena nodes session).1.model.classes
      ↔ ∃ i ∈ nodes, Q i := by
  -- a node changes the classes in several steps, and the first that brings it
  -- about is enough
  have hnode : ∀ {i classes later}, arena.Altered i classes later →
      P later → P classes ∨ Q i := by
    intro i classes later haltered hlater
    induction haltered with
    | refl => exact .inl hlater
    | tail _ hstep ih =>
        rcases horigin hstep hlater with hbefore | hhere
        · exact ih hbefore
        · exact .inr hhere
  rw [← exists_prefix_iff]
  refine h.passes.visit_iff_exists (P := fun session =>
    P session.model.classes) hempty ?_ nodes
  intro before i outcome hrun
  constructor
  · exact hnode (Arena.altered_checkNode hrun)
  · rintro (hbefore | hhere)
    · exact hkept (Arena.becomes_checkNode hrun).grows hbefore
    · exact hdeclares hhere hrun

/-- The check of a program that does not call `$suppress`. -/
theorem heard_of_parse {text : String} {tree : Tree}
    (h : Tree.parse text = .ok tree)
    (hsuppress : ∀ i, ¬ (Arena.ofTree (.ofText text) tree).2.CallsSuppress i) :
    Heard (Arena.ofTree (.ofText text) tree).2
      (some (Arena.ofTree (.ofText text) tree).1) where
  outcome := (passes_of_parse h).outcome
  nodup := (passes_of_parse h).nodup
  callsNone := hsuppress

end Session

end ScriptLint
