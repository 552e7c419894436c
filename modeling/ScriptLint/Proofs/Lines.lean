/-
Findings lie in the file that is checked. All of them carry its name, and
a line that the text has: that of a node, or of the error that keeps the
text from being a program (`Session.lines_of_check`).

A node that is not there would have the line 0, so the nodes that findings
are reported at have to be there. Of most it is clear, since they have a
form that the check has looked at; a key of an object literal is there
because every property has been read with one.

# The argument

- A sink is `Lined` if all that it has kept lies in the file. Taking an
  event keeps it so, if the event is a finding on a line of the text.
- Of each node of the program it is known where it starts, and the line of
  that start is one that the text has (`has_lineOf_of_parse`).
- The closing reports are on lines of definitions, which are lines of
  nodes.
-/
import ScriptLint.Proofs.Events
import ScriptLint.Proofs.Parse.Faults
import ScriptLint.Proofs.Parse.Spans
import ScriptLint.Proofs.Relining

namespace ScriptLint

open Text

variable {text : String} {lines : LineMap} {file : String}

-- =============================================================== lines

namespace Text.LineMap

/-- The text has a line with the number. -/
def Has (lines : LineMap) (line : Nat) : Prop :=
  1 ≤ line ∧ line ≤ lines.count

/-- The first line begins at byte 0, so there is one for every byte. -/
theorem has_lineOf (text : String) (offset : Nat) :
    (ofText text).Has ((ofText text).lineOf offset) := by
  rw [lineOf_ofText]
  refine ⟨?_, List.countP_le_length⟩
  rw [ofText, List.countP_cons_of_pos (by simp)]
  omega

end Text.LineMap

namespace Arena

variable {arena : Arena} {tree : Tree} {i : Nat} {ref : Ref}

/-- Where a node is there, its line is one of the text. -/
theorem has_lineOf_of_parse (h : Tree.parse text = .ok tree)
    (hi : i < (ofTree (.ofText text) tree).2.size) :
    (LineMap.ofText text).Has
      ((ofTree (.ofText text) tree).2.lineOf (some i)) := by
  have horigin : (ofTree (.ofText text) tree).2.Origin text (.ofText text)
      _ i := origin_of_parse h hi
  obtain ⟨shown, hshows, -⟩ := horigin
  rw [hshows.span_eq.2.2]
  exact LineMap.has_lineOf _ _

/-- The key of a property is there. -/
theorem exists_key_of_parse (h : Tree.parse text = .ok tree)
    {key initializer : Ref}
    (hform : (ofTree lines tree).2.form? (some i)
      = some (.property key initializer)) :
    ∃ k < (ofTree lines tree).2.size, key = some k := by
  have horigin : (ofTree lines tree).2.Origin text lines _ i :=
    origin_of_parse h (lt_size_of_form? hform)
  obtain ⟨shown, hshows, -, hroot | ⟨p, form, role, -, -, -, hread⟩⟩ :=
    horigin
  · obtain ⟨statements, hfile⟩ := hshows.exists_file hroot.2
    rw [hform] at hfile
    cases hfile
  · obtain ⟨hcursor, hderives, hconsumed, hread⟩ := hread
    obtain ⟨hnode, hfilled, hbelow⟩ := hshows
    rename_i joint parent
    rw [form?, node?, Option.bind_some, hnode, Option.map_some,
      Option.some_inj] at hform
    cases joint <;> cases hform
    rename_i slot other
    obtain ⟨key, keyTree⟩ := slot
    have hsome : keyTree.isSome = true := hread
    have hkey := hfilled (key, keyTree) (List.mem_cons_self ..)
    obtain ⟨t, rfl⟩ := Option.isSome_iff_exists.1 hsome
    obtain ⟨k, rfl⟩ := Option.isSome_iff_exists.1 (hkey.trans rfl)
    obtain ⟨joint, hkeyForm, -⟩ :=
      (hbelow k t (List.mem_cons_self ..)).exists_joint
    exact ⟨k, lt_size_of_form? hkeyForm, rfl⟩

/-- What the check of a node concerns is there. -/
theorem Concerns.exists_node (h : Tree.parse text = .ok tree)
    (hi : i < (ofTree lines tree).2.size)
    (hconcerns : (ofTree lines tree).2.Concerns i ref) :
    ∃ k < (ofTree lines tree).2.size, ref = some k := by
  cases hconcerns with
  | node => exact ⟨i, hi, rfl⟩
  | key hform hkey =>
      obtain ⟨property, -, hproperty⟩ := List.mem_filterMap.1 hkey
      split at hproperty
      · rename_i key initializer hpropertyForm
        cases hproperty
        cases property with
        | none => cases hpropertyForm
        | some p => exact exists_key_of_parse h hpropertyForm
      · cases hproperty
  | clause hform hclause hclauseForm =>
      cases ref with
      | none => cases hclauseForm
      | some k => exact ⟨k, lt_size_of_form? hclauseForm, rfl⟩

end Arena

-- =============================================================== sinks

/-- The event is about a line of the text, if it is about one. -/
def Event.LineIn (lines : LineMap) : Event → Prop
  | .report _ line _ => lines.Has line
  | .suppress _ => True

theorem Event.ReportedAt.lineIn {arena : Arena} {ref : Ref} {event : Event}
    (h : event.ReportedAt arena ref) (href : lines.Has (arena.lineOf ref)) :
    event.LineIn lines := by
  obtain ⟨kind, detail, rfl⟩ := h
  exact href

/-- A sink with findings of one file, each at a line of its text. -/
structure Sink.Lined (lines : LineMap) (file : String) (sink : Sink) :
    Prop where
  file_eq : sink.file = file
  found : ∀ d ∈ sink.diagnostics, d.file = file ∧ lines.Has d.line

theorem Sink.Lined.take {sink : Sink} {event : Event}
    (h : sink.Lined lines file) (hevent : event.LineIn lines) :
    (sink.take event).Lined lines file := by
  cases event with
  | suppress kind => exact ⟨h.file_eq, h.found⟩
  | report kind line detail =>
      rw [Sink.take]
      split
      · exact h
      · refine ⟨h.file_eq, List.forall_mem_append.2 ⟨h.found, ?_⟩⟩
        exact List.forall_mem_singleton.2 ⟨h.file_eq, hevent⟩

theorem Sink.Lined.takeAll {sink : Sink} {events : List Event}
    (h : sink.Lined lines file)
    (hevents : ∀ event ∈ events, event.LineIn lines) :
    (sink.takeAll events).Lined lines file := by
  induction events generalizing sink with
  | nil => exact h
  | cons event events ih =>
      obtain ⟨hevent, hmore⟩ := List.forall_mem_cons.1 hevents
      exact ih (h.take hevent) hmore

-- ============================================================ sessions

namespace Session

/-- A session whose findings and whose classes are about lines of the
text. -/
structure Lined (lines : LineMap) (file : String) (session : Session) :
    Prop where
  sink : session.sink.Lined lines file
  classes : ∀ line, session.model.classes.Defines line → lines.Has line

variable {session : Session} {arena : Arena}

theorem lined_reset (session : Session) (lines : LineMap) (file : String) :
    (session.reset file).Lined lines file where
  sink := ⟨rfl, nofun⟩
  classes line h := by
    obtain ⟨id, info, hinfo, -⟩ := h
    cases hinfo

/-- One node and then the next: each has its line in the text, and so has
all that it concerns. -/
theorem Lined.visit {nodes : List Nat} (h : session.Lined lines file)
    (hnodes : ∀ i ∈ nodes, ∀ ref, arena.Concerns i ref →
      lines.Has (arena.lineOf ref)) :
    (Session.visit arena nodes session).1.Lined lines file := by
  induction nodes generalizing session with
  | nil => exact h
  | cons i nodes ih =>
      obtain ⟨hi, hmore⟩ := List.forall_mem_cons.1 hnodes
      rw [Session.visit]
      cases hrun : arena.checkNode session.model i with
      | error stray => exact h
      | ok outcome =>
          refine ih ⟨h.sink.takeAll fun event hevent => ?_,
            fun line hline => ?_⟩ hmore
          · rcases Arena.concerns_checkNode hrun hevent with
              ⟨ref, hconcerns, hreported⟩ | ⟨-, kind, rfl⟩
            · exact hreported.lineIn (hi ref hconcerns)
            · trivial
          · rcases (Arena.altered_checkNode hrun).defines hline with hold | rfl
            · exact h.classes line hold
            · exact hi _ .node

/-- A class that lacks a superclass is reported where it is defined. -/
theorem Lined.closingEvents (h : session.Lined lines file) :
    ∀ event ∈ session.closingEvents, event.LineIn lines := by
  intro event hevent
  unfold Session.closingEvents at hevent
  split at hevent
  · obtain ⟨⟨name, info⟩, hentry, hmissing⟩ := List.mem_filterMap.1 hevent
    obtain ⟨id, hid⟩ := List.mem_iff_getElem?.1 hentry
    dsimp only at hmissing
    split at hmissing
    · rename_i line hline
      split at hmissing
      · cases hmissing
      · cases hmissing
        exact h.classes line ⟨id, info, by rw [Registry.get?, hid]; rfl, hline⟩
    · cases hmissing
  · cases hevent

theorem Lined.checkTree {root : Ref} (h : session.Lined lines file)
    (hnodes : ∀ i ∈ arena.preorder root, ∀ ref, arena.Concerns i ref →
      lines.Has (arena.lineOf ref)) :
    (session.checkTree arena root).1.Lined lines file := by
  have hvisit := h.visit hnodes
  rcases hrun : Session.visit arena (arena.preorder root) session with
    ⟨last, stray⟩
  rw [hrun] at hvisit
  cases stray with
  | some stray =>
      rw [checkTree_of_stray hrun]
      exact hvisit
  | none =>
      rw [checkTree_of_visit hrun]
      exact ⟨hvisit.sink.takeAll hvisit.closingEvents, hvisit.classes⟩

/-- All that the check of a program finds lies in it. -/
theorem lined_check_of_parse {tree : Tree} (h : Tree.parse text = .ok tree)
    (session : Session) (file : String) {found : List Diagnostic}
    (hfound : (session.check file text).2 = .ok found) :
    ∀ d ∈ found, d.file = file ∧ (LineMap.ofText text).Has d.line := by
  obtain ⟨htree, -⟩ := Arena.isTree_shows_ofTree tree
  have hnodes : ∀ i ∈ (Arena.ofTree (.ofText text) tree).2.preorder
      (some (Arena.ofTree (.ofText text) tree).1),
      ∀ ref, (Arena.ofTree (.ofText text) tree).2.Concerns i ref →
        (LineMap.ofText text).Has
          ((Arena.ofTree (.ofText text) tree).2.lineOf ref) := by
    intro i hi ref hconcerns
    have hlt := List.mem_range.1 (htree.preorder_perm.mem_iff.1 hi)
    obtain ⟨k, hk, rfl⟩ := hconcerns.exists_node h hlt
    exact Arena.has_lineOf_of_parse h hk
  have hlast := (lined_reset session (.ofText text) file).checkTree hnodes
  rw [check_of_parse h] at hfound
  dsimp only at hfound
  split at hfound
  · cases hfound
  · rename_i last hrun
    rw [hrun] at hlast
    cases hfound
    exact hlast.sink.found

end Session

end ScriptLint
