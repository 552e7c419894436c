/-
Superclasses by name. A class is known by its name and has one entry
(`Coherent`), so which class is whose superclass is a relation of names
(`superName?`), and the look for a circle is a walk along it
(`DescendsByName`). A call of `$extends` is judged on that and on the
definitions alone (`objection?`): it reports what speaks against the link
(`Arena.extends_checkNode`), or makes it, and no other node changes a
superclass (`Arena.superName?_of_extension?_eq_none`).

So a class that has a superclass keeps it, and the outcome of every such
call follows from the nodes before it (`Session.extends_of_check`).
-/
import ScriptLint.Proofs.Definitions

namespace ScriptLint

-- ============================================================== tables

/-- The class has the superclass that was asked for. -/
def SuperLink.isMade : SuperLink → Bool
  | .linked | .unchanged => true
  | .circular | .alreadySet _ => false

namespace ClassTable

variable {classes later : ClassTable} {name superName : String}

/-- A table as checks leave it: sound, and with one entry for each name. -/
structure Coherent (classes : ClassTable) : Prop where
  sound : classes.Sound
  unambiguous : Registry.Unambiguous classes

/-- Without classes, everything agrees. -/
theorem coherent_empty : Coherent {} := ⟨sound_empty,
  Registry.unambiguous_empty⟩

/-- A class that is entered is sound and has a name of its own. -/
theorem Coherent.enter (h : classes.Coherent) (name : String) :
    (classes.enter name).2.Coherent :=
  ⟨h.sound.enter name, h.unambiguous.intern name {}⟩

/-- The step lemma. -/
theorem Coherent.step (h : classes.Coherent) (hstep : classes.Step later) :
    later.Coherent := by
  refine ⟨h.sound.step hstep, ?_⟩
  cases hstep with
  | request request hnamed =>
      cases request with
      | enter name => exact h.unambiguous.intern name {}
      | define name line => exact (h.unambiguous.intern name {}).update _ _
      | link id superId =>
          show Registry.Unambiguous (classes.link id superId).2
          unfold link
          split
          · split <;> exact h.unambiguous
          · split
            · exact h.unambiguous
            · exact h.unambiguous.update _ _
  | addField id slot _ => exact h.unambiguous.update _ _
  | addStaticField id slot _ => exact h.unambiguous.update _ _

/-- Tables stay coherent through all that a check does to them. -/
theorem Coherent.becomes (h : classes.Coherent)
    (hsteps : classes.Becomes later) : later.Coherent := by
  induction hsteps with
  | refl => exact h
  | tail _ hstep ih => exact ih.step hstep

-- ======================================================== superclasses

/-- The superclass of the class with a name. -/
def superName? (classes : ClassTable) (name : String) : Option String :=
  ((classes.lookUp? name).bind ClassInfo.superClass).map classes.nameOf

/-- The superclass of a class is a class in the table. -/
theorem lt_size_of_superClass (h : classes.Closed) {superId : Nat}
    (hsuper : (classes.lookUp? name).bind ClassInfo.superClass
      = some superId) : superId < classes.size := by
  obtain ⟨info, hinfo, hlink⟩ := Option.bind_eq_some_iff.1 hsuper
  obtain ⟨id, -, hget⟩ := Option.bind_eq_some_iff.1 hinfo
  exact h id superId (Option.bind_eq_some_iff.2 ⟨info, hget, hlink⟩)

/-- Entering a class gives no superclass to any name. -/
theorem superName?_enter (h : classes.Closed) (entered name : String) :
    (classes.enter entered).2.superName? name = classes.superName? name := by
  unfold superName? enter
  rw [Registry.bind_lookUp?_intern classes entered name rfl]
  cases hsuper : (classes.lookUp? name).bind ClassInfo.superClass with
  | none => rfl
  | some superId =>
      exact congrArg some (Registry.nameOf_intern
        (lt_size_of_superClass h hsuper) entered {})

/-- A change that leaves the superclass alone does so by name. -/
theorem superName?_update (classes : ClassTable) (id : Nat)
    {f : ClassInfo → ClassInfo} (name : String)
    (hf : ∀ info, (f info).superClass = info.superClass) :
    superName? (classes.update id f) name = classes.superName? name := by
  unfold superName?
  rw [Registry.bind_lookUp?_update classes id name hf]
  exact congrArg (Option.map · _)
    (funext fun a => Registry.nameOf_update id a f)

/-- A definition is such a change. -/
theorem superName?_define (h : classes.Closed) (defined : String)
    (line : Nat) (name : String) :
    (classes.define defined line).2.superName? name
      = classes.superName? name := by
  rw [← superName?_enter h defined name]
  exact superName?_update _ _ name fun _ => rfl

/-- By number and by name it is the same class. -/
theorem Coherent.superName?_nameOf (h : classes.Coherent) {id : Nat}
    (hid : id < classes.size) :
    classes.superName? (classes.nameOf id)
      = (classes.superOf? id).map classes.nameOf := by
  rw [superName?, h.unambiguous.lookUp?_nameOf hid]
  rfl

/-- Numbers and names say the same about superclasses. -/
theorem Coherent.superName?_nameOf_eq_some_iff (h : classes.Coherent)
    {id superId : Nat} (hid : id < classes.size)
    (hsuper : superId < classes.size) :
    classes.superName? (classes.nameOf id) = some (classes.nameOf superId)
      ↔ classes.superOf? id = some superId := by
  rw [h.superName?_nameOf hid, Option.map_eq_some_iff]
  constructor
  · rintro ⟨existing, hexisting, hname⟩
    rw [hexisting, h.unambiguous.nameOf_inj
      (h.sound.closed id existing hexisting) hsuper hname]
  · intro hlink
    exact ⟨superId, hlink, rfl⟩

/-- A granted link gives one class its superclass. -/
theorem Coherent.superName?_link_of_grants (h : classes.Coherent)
    {id superId : Nat} (hid : id < classes.size)
    (hgrants : classes.Grants id superId) (name : String) :
    (classes.link id superId).2.superName? name
      = if name = classes.nameOf id then some (classes.nameOf superId)
        else classes.superName? name := by
  have hnames : ∀ f : ClassInfo → ClassInfo,
      Registry.nameOf (classes.update id f) = classes.nameOf :=
    fun f => funext fun a => Registry.nameOf_update id a f
  rw [link_of_grants hgrants, superName?, superName?, hnames,
    Registry.lookUp?_update (h.unambiguous.find?_nameOf hid)]
  split
  · rename_i hname
    obtain ⟨info, hinfo⟩ : ∃ info, classes.get? id = some info := by
      rw [← Option.ne_none_iff_exists', Ne, Registry.get?_eq_none_iff]
      omega
    rw [hname, h.unambiguous.lookUp?_nameOf hid, hinfo]
    rfl
  · rfl

-- =============================================================== walks

/-- The class a number of superclasses above the one with a name. -/
def ancestorName? (classes : ClassTable) : Nat → String → Option String
  | 0, name => some name
  | steps + 1, name =>
    (classes.superName? name).bind (classes.ancestorName? steps)

/-- Whether a class is another one or descends from it, as far as a walk
along superclasses goes. -/
def DescendsByName (classes : ClassTable) (name ancestor : String) : Prop :=
  ∃ n < maxDepth, classes.ancestorName? n name = some ancestor

instance (name ancestor : String) :
    Decidable (classes.DescendsByName name ancestor) :=
  inferInstanceAs (Decidable (∃ n < maxDepth, _))

/-- Going up by number and by name comes to the same class. -/
theorem Coherent.ancestorName?_nameOf (h : classes.Coherent) (n : Nat)
    {id : Nat} (hid : id < classes.size) :
    classes.ancestorName? n (classes.nameOf id)
      = (classes.ancestor? n id).map classes.nameOf := by
  induction n generalizing id with
  | zero => rfl
  | succ n ih =>
      rw [ancestorName?, ancestor?, h.superName?_nameOf hid]
      cases hsuper : classes.superOf? id with
      | none => rfl
      | some next => exact ih (h.sound.closed id next hsuper)

/-- The look for a circle sees what the walk by names comes to. -/
theorem Coherent.inherits_iff (h : classes.Coherent) {id ancestor : Nat}
    (hid : id < classes.size) (hancestor : ancestor < classes.size) :
    classes.inherits id ancestor = true
      ↔ classes.DescendsByName (classes.nameOf id)
        (classes.nameOf ancestor) := by
  rw [ClassTable.inherits_iff]
  refine exists_congr fun n => and_congr_right fun _ => ?_
  rw [h.ancestorName?_nameOf n hid]
  constructor
  · intro hwalk
    rw [hwalk]
    rfl
  · intro hwalk
    obtain ⟨last, hlast, hname⟩ := Option.map_eq_some_iff.1 hwalk
    rw [hlast, h.unambiguous.nameOf_inj
      (lt_size_of_ancestor? h.sound.closed hid hlast) hancestor hname]

/-- Walks go the way of the superclasses. -/
theorem descendsByName_congr
    (h : ∀ name, later.superName? name = classes.superName? name)
    (name ancestor : String) :
    later.DescendsByName name ancestor
      ↔ classes.DescendsByName name ancestor := by
  have hwalk : ∀ n name,
      later.ancestorName? n name = classes.ancestorName? n name := by
    intro n
    induction n with
    | zero => exact fun _ => rfl
    | succ n ih =>
        intro name
        rw [ancestorName?, ancestorName?, h, funext ih]
  unfold DescendsByName
  simp only [hwalk]

-- =============================================================== links

/-- Whether one class can be made the superclass of another: it is already,
or there is none yet and the link closes no circle that a walk comes
around. -/
def Linkable (classes : ClassTable) (name superName : String) : Prop :=
  classes.superName? name = some superName
    ∨ classes.superName? name = none
      ∧ ¬ classes.DescendsByName superName name

instance (name superName : String) :
    Decidable (classes.Linkable name superName) :=
  inferInstanceAs (Decidable (_ ∨ _))

/-- Whether classes may be linked depends on the superclasses alone. -/
theorem linkable_congr
    (h : ∀ name, later.superName? name = classes.superName? name)
    (name superName : String) :
    later.Linkable name superName ↔ classes.Linkable name superName := by
  rw [Linkable, h, descendsByName_congr h]
  rfl

/-- A link is made, or was there. -/
theorem isMade_link_iff {id superId : Nat} :
    (classes.link id superId).1.isMade = true
      ↔ classes.superOf? id = some superId
        ∨ classes.Grants id superId := by
  unfold link Grants
  cases classes.superOf? id with
  | some existing =>
      by_cases heq : existing = superId <;> simp [heq, SuperLink.isMade]
  | none =>
      cases classes.inherits superId id <;> simp [SuperLink.isMade]

/-- By number and by name the same links can be made. -/
theorem Coherent.linkable_nameOf_iff (h : classes.Coherent)
    {id superId : Nat} (hid : id < classes.size)
    (hsuper : superId < classes.size) :
    classes.Linkable (classes.nameOf id) (classes.nameOf superId)
      ↔ classes.superOf? id = some superId
        ∨ classes.Grants id superId := by
  rw [Linkable, h.superName?_nameOf_eq_some_iff hid hsuper,
    h.superName?_nameOf hid, Option.map_eq_none_iff,
    ← h.inherits_iff hsuper hid, Bool.not_eq_true]
  rfl

/-- A link that can be made gives one class its superclass, and any other
one changes nothing. -/
theorem Coherent.superName?_link (h : classes.Coherent) {id superId : Nat}
    (hid : id < classes.size) (hsuper : superId < classes.size)
    (name : String) :
    (classes.link id superId).2.superName? name
      = if classes.Linkable (classes.nameOf id) (classes.nameOf superId)
            ∧ name = classes.nameOf id then
          some (classes.nameOf superId)
        else classes.superName? name := by
  have hlinkable := h.linkable_nameOf_iff hid hsuper
  by_cases hgrants : classes.Grants id superId
  · rw [h.superName?_link_of_grants hid hgrants]
    simp only [hlinkable.2 (.inr hgrants), true_and]
  · rw [link_of_not_grants hgrants]
    split
    · rename_i hlink
      rw [hlink.2, h.superName?_nameOf_eq_some_iff hid hsuper]
      exact (hlinkable.1 hlink.1).resolve_right hgrants
    · rfl

/-- Entering the two classes first changes nothing about that. -/
theorem Coherent.link_entered (h : classes.Coherent)
    (name superName : String) :
    let entered := (classes.enter name).2.enter superName
    let linked := ClassTable.link entered.2 (classes.enter name).1 entered.1
    (linked.1.isMade = true ↔ classes.Linkable name superName)
      ∧ ∀ other, linked.2.superName? other
        = if classes.Linkable name superName ∧ other = name then
            some superName
          else classes.superName? other := by
  intro entered linked
  have hentered : entered.2.Coherent := (h.enter name).enter superName
  have hsupers : ∀ other,
      entered.2.superName? other = classes.superName? other := by
    intro other
    rw [superName?_enter (h.enter name).sound.closed,
      superName?_enter h.sound.closed]
  have hid : (classes.enter name).1 < entered.2.size :=
    Nat.lt_of_lt_of_le (classes.lt_size_intern name {})
      ((classes.enter name).2.size_le_size_intern superName {})
  have hsuper : entered.1 < entered.2.size :=
    (classes.enter name).2.lt_size_intern superName {}
  have hnames := classes.nameOf_entered name superName
  have hself : entered.2.nameOf (classes.enter name).1 = name := hnames.1
  have hother : entered.2.nameOf entered.1 = superName := hnames.2
  have hmade := hentered.linkable_nameOf_iff hid hsuper
  have hlink := hentered.superName?_link hid hsuper
  rw [hself, hother] at hmade hlink
  simp only [linkable_congr hsupers, hsupers] at hmade hlink
  exact ⟨isMade_link_iff.trans hmade.symm, hlink⟩

-- ========================================================== objections

/-- What speaks against making one class the superclass of another. -/
def objection? (classes : ClassTable) (name superName : String) :
    Option DiagnosticKind :=
  if Naming.isClassName name = false then some .badClassName
  else if classes.definedAt? name = none then some .noClassDef
  else if Naming.isClassName superName = false then some .badClassName
  else if classes.Linkable name superName then none
  else some .notSupported

/-- Nothing is objected if both are classes, the first one is defined, and they
may be linked. -/
theorem objection?_eq_none_iff :
    classes.objection? name superName = none
      ↔ Naming.isClassName name = true
        ∧ (classes.definedAt? name).isSome = true
        ∧ Naming.isClassName superName = true
        ∧ classes.Linkable name superName := by
  unfold objection?
  cases Naming.isClassName name <;> cases classes.definedAt? name
    <;> cases Naming.isClassName superName <;> simp

/-- The one objection that is about definitions. -/
theorem objection?_eq_noClassDef_iff :
    classes.objection? name superName = some .noClassDef
      ↔ Naming.isClassName name = true
        ∧ classes.definedAt? name = none := by
  unfold objection?
  cases Naming.isClassName name <;> cases classes.definedAt? name
    <;> cases Naming.isClassName superName <;> simp

end ClassTable

-- =============================================================== nodes

namespace Arena

variable {arena : Arena} {model : Model} {i : Nat} {name superName : String}
  {classes later : ClassTable}

/-- The step lemma. A superclass is set by a call of `$extends` that names
both classes, where there was none. -/
theorem Alters.superName? (h : classes.Coherent)
    (hstep : arena.Alters i classes later) :
    (∀ name, later.superName? name = classes.superName? name)
      ∨ ∃ name superName, arena.extension? i = some (name, superName)
        ∧ classes.superName? name = none := by
  cases hstep with
  | enter entered =>
      exact .inl (ClassTable.superName?_enter h.sound.closed entered)
  | define defined _ _ =>
      exact .inl (ClassTable.superName?_define h.sound.closed defined _)
  | link id superId hnamed hextends =>
      by_cases hgrants : classes.Grants id superId
      · refine .inr ⟨_, _, hextends, ?_⟩
        rw [h.superName?_nameOf hnamed.known.1, hgrants.1]
        rfl
      · rw [ClassTable.link_of_not_grants hgrants]
        exact .inl fun _ => rfl
  | addField id slot _ _ =>
      exact .inl fun name => classes.superName?_update id name fun _ => rfl
  | addStaticField id slot _ _ =>
      exact .inl fun name => classes.superName?_update id name fun _ => rfl

/-- A node that is no call of `$extends` changes no superclass. -/
theorem superName?_of_extension?_eq_none {outcome : Outcome}
    (h : model.classes.Coherent) (hnone : arena.extension? i = none)
    (hrun : arena.checkNode model i = .ok outcome) (name : String) :
    outcome.model.classes.superName? name
      = model.classes.superName? name := by
  have haltered := altered_checkNode hrun
  generalize outcome.model.classes = later at haltered ⊢
  induction haltered with
  | refl => rfl
  | tail hsteps hstep ih =>
      have hcoherent := h.becomes
        (Relation.ReflTransGen.mono (fun _ _ hstep => hstep.step) _ _ hsteps)
      rcases hstep.superName? hcoherent with hsame | ⟨_, _, hextends, -⟩
      · rw [hsame, ih]
      · rw [hnone] at hextends
        cases hextends

/-- Two classes are linked if they can be, and else that is reported. -/
theorem linkClasses_cases (arena : Arena) (h : model.classes.Coherent)
    (call : Ref) (name superName : String) :
    let outcome := arena.linkClasses model call name superName
    let linkable := model.classes.Linkable name superName
    (linkable → outcome.events = [])
      ∧ (¬ linkable → ∃ detail, outcome.events
        = [arena.report .notSupported call (some detail)])
      ∧ ∀ other, outcome.model.classes.superName? other
        = if linkable ∧ other = name then some superName
          else model.classes.superName? other := by
  intro outcome linkable
  have houtcome : outcome = arena.linkClasses model call name superName := rfl
  obtain ⟨hmade, hsupers⟩ := h.link_entered name superName
  unfold linkClasses at houtcome
  dsimp only at houtcome hmade
  split at houtcome
  all_goals
    rename_i hlink
    rw [hlink] at hmade
    rw [houtcome]
  case h_1 | h_2 =>
      exact ⟨fun _ => rfl, fun hcannot => absurd (hmade.1 rfl) hcannot,
        hsupers⟩
  case h_3 | h_4 =>
      exact ⟨fun hcan => absurd (hmade.2 hcan) nofun, fun _ => ⟨_, rfl⟩,
        hsupers⟩

/-- The call that asks for a link. -/
theorem exists_call_of_extension?
    (h : arena.extension? i = some (name, superName)) :
    ∃ callee subject target,
      arena.form? (some i) = some (.call callee [subject, target])
        ∧ arena.nameOf callee = "$extends" ∧ arena.nameOf subject = name
        ∧ arena.nameOf target = superName := by
  unfold extension? at h
  split at h
  · split at h
    · cases h
      exact ⟨_, _, _, ‹_›, ‹_›, rfl, rfl⟩
    · cases h
  · cases h

/-- A call of `$extends` reports what speaks against the link, and makes it
if nothing does. -/
theorem extends_checkNode {outcome : Outcome} (h : model.classes.Coherent)
    (hextends : arena.extension? i = some (name, superName))
    (hrun : arena.checkNode model i = .ok outcome) :
    (∃ detail, outcome.events
        = (model.classes.objection? name superName).toList.map
          fun kind => arena.report kind (some i) detail)
      ∧ ∀ other, outcome.model.classes.superName? other
        = if model.classes.objection? name superName = none ∧ other = name
          then some superName else model.classes.superName? other := by
  obtain ⟨callee, subject, target, hform, hcallee, rfl, rfl⟩ :=
    exists_call_of_extension? hextends
  rw [checkNode_call hform, checkCall, hcallee] at hrun
  have houtcome : outcome
      = arena.checkExtends model (some i) [subject, target] :=
    (Except.ok.inj hrun).symm
  unfold checkExtends at houtcome
  dsimp only at houtcome
  rw [ClassTable.isDefined_eq] at houtcome
  unfold ClassTable.objection?
  -- the objections in the order in which they are raised, each with those
  -- before it out of the way
  by_cases hname : Naming.isClassName (arena.nameOf subject) = true
  swap
  · rw [Bool.not_eq_true] at hname
    rw [hname] at houtcome ⊢
    rw [houtcome]
    exact ⟨⟨_, rfl⟩, fun other => by simp⟩
  by_cases hdefined : model.classes.definedAt? (arena.nameOf subject) = none
  · rw [hname, hdefined] at houtcome
    rw [hname, hdefined, houtcome]
    exact ⟨⟨_, rfl⟩, fun other => by simp⟩
  by_cases hsuper : Naming.isClassName (arena.nameOf target) = true
  swap
  · rw [Bool.not_eq_true] at hsuper
    rw [hname, Option.isSome_iff_ne_none.2 hdefined, hsuper] at houtcome
    rw [hname, hsuper, if_neg (by decide), if_neg hdefined, houtcome]
    exact ⟨⟨_, rfl⟩, fun other => by simp⟩
  rw [hname, Option.isSome_iff_ne_none.2 hdefined, hsuper] at houtcome
  rw [hname, hsuper, if_neg (by decide), if_neg hdefined, if_neg (by decide)]
  obtain ⟨hcan, hcannot, hsupers⟩ := arena.linkClasses_cases h (some i)
    (arena.nameOf subject) (arena.nameOf target)
  rw [show arena.linkClasses model (some i) (arena.nameOf subject)
    (arena.nameOf target) = outcome from houtcome.symm]
    at hcan hcannot hsupers
  by_cases hlinkable : model.classes.Linkable (arena.nameOf subject)
    (arena.nameOf target)
  · rw [hcan hlinkable, if_pos hlinkable]
    exact ⟨⟨none, rfl⟩, fun other => by simp [hsupers, hlinkable]⟩
  · obtain ⟨detail, hevents⟩ := hcannot hlinkable
    rw [hevents, if_neg hlinkable]
    exact ⟨⟨some detail, rfl⟩, fun other => by simp [hsupers, hlinkable]⟩

/-- A class that has a superclass keeps it. -/
theorem superName?_checkNode_of_eq_some {outcome : Outcome}
    (h : model.classes.Coherent)
    (hrun : arena.checkNode model i = .ok outcome)
    (hsuper : model.classes.superName? name = some superName) :
    outcome.model.classes.superName? name = some superName := by
  cases hextends : arena.extension? i with
  | none => rw [superName?_of_extension?_eq_none h hextends hrun, hsuper]
  | some names =>
      obtain ⟨subject, target⟩ := names
      rw [(extends_checkNode h hextends hrun).2]
      split
      · rename_i hlinked
        obtain ⟨hnone, rfl⟩ := hlinked
        obtain ⟨-, -, -, hsame | ⟨hfree, -⟩⟩ :=
          ClassTable.objection?_eq_none_iff.1 hnone
        · rw [← hsame, hsuper]
        · rw [hsuper] at hfree
          cases hfree
      · exact hsuper

end Arena

-- ============================================================ sessions

namespace Session

variable {arena : Arena} {root : Ref} {session : Session} {i : Nat}
  {name superName : String}

/-- Along the walk the table stays coherent. -/
theorem coherent_visit (nodes : List Nat)
    (h : session.model.classes.Coherent) :
    (visit arena nodes session).1.model.classes.Coherent :=
  visit_induct (P := fun model => model.classes.Coherent)
    (fun _ _ _ hmodel hrun => hmodel.becomes (Arena.becomes_checkNode hrun))
    nodes h

/-- A call of `$extends` adds what speaks against it to the findings, unless
that is suppressed, and makes the link if nothing does. -/
theorem Passes.extends_concat (h : Passes arena root)
    (hsession : session.model.classes.Coherent)
    (hextends : arena.extension? i = some (name, superName))
    (before : List Nat) :
    let after nodes := (visit arena nodes session).1
    let sink := (after before).sink
    let objection := (after before).model.classes.objection? name superName
    (∃ detail, (after (before ++ [i])).sink.diagnostics = sink.diagnostics
        ++ (objection.toList.filter fun kind => !sink.isSuppressed kind).map
          fun kind => .of kind sink.file (arena.lineOf (some i)) detail)
      ∧ ∀ other, (after (before ++ [i])).model.classes.superName? other
        = if objection = none ∧ other = name then some superName
          else (after before).model.classes.superName? other := by
  intro after sink objection
  obtain ⟨outcome, hrun⟩ := h.outcome (after before).model i
  obtain ⟨⟨detail, hevents⟩, hsupers⟩ :=
    Arena.extends_checkNode (coherent_visit before hsession) hextends hrun
  refine ⟨⟨detail, h.diagnostics_concat hrun hevents⟩, fun other => ?_⟩
  rw [show after (before ++ [i]) = _ from h.visit_concat before hrun]
  exact hsupers other

/-- What speaks against a call of `$extends` is that its class is not
defined exactly if no definition of it precedes the call. -/
theorem Passes.objection?_eq_noClassDef_iff (h : Passes arena root)
    (hmodel : session.model.classes = {}) {before : List Nat}
    (hbefore : before ++ [i] <+: arena.preorder root) :
    (visit arena before session).1.model.classes.objection? name superName
        = some .noClassDef
      ↔ Naming.isClassName name = true
        ∧ ¬ ∃ j, arena.Precedes root j i
          ∧ arena.assignsBody name j = true := by
  rw [ClassTable.objection?_eq_noClassDef_iff]
  refine and_congr_right fun hclass => ?_
  rw [← Option.not_isSome_iff_eq_none,
    h.isSome_definedAt?_visit_iff hmodel before]
  simp only [Arena.precedes_iff h.nodup hbefore, hclass, true_and]

/-- Superclasses that are set stay set. -/
theorem Passes.superName?_onwards (h : Passes arena root)
    (hsession : session.model.classes.Coherent) {nodes longer : List Nat}
    (hleads : nodes <+: longer)
    (hsuper : (visit arena nodes session).1.model.classes.superName? name
      = some superName) :
    (visit arena longer session).1.model.classes.superName? name
      = some superName := by
  obtain ⟨more, rfl⟩ := hleads
  induction more using List.reverseRecOn with
  | nil => rwa [List.append_nil]
  | append_singleton more i ih =>
      obtain ⟨outcome, hrun⟩ :=
        h.outcome (visit arena (nodes ++ more) session).1.model i
      rw [← List.append_assoc, h.visit_concat _ hrun]
      exact Arena.superName?_checkNode_of_eq_some
        (coherent_visit _ hsession) hrun ih

/-- A call of `$extends` with two arguments either leaves the class with
the superclass that it names and adds nothing to the findings, or it adds
one finding and no superclass of any class changes. What it adds is
NO_CLASS_DEF exactly if the class is named like one and no assignment of a
function or an object literal to its name precedes the call. And a
superclass that is set stays as it is to the end of the file. -/
theorem extends_of_check {text : String} {tree : Tree}
    (h : Tree.parse text = .ok tree) (session : Session) (file : String) :
    let root := some (Arena.ofTree (.ofText text) tree).1
    let arena := (Arena.ofTree (.ofText text) tree).2
    let after nodes := (visit arena nodes (session.reset file)).1
    let found nodes := (after nodes).sink.diagnostics
    let superOf nodes := (after nodes).model.classes.superName?
    (∀ i name superName, arena.extension? i = some (name, superName) →
      ∃ before, before ++ [i] <+: arena.preorder root
        ∧ (found (before ++ [i]) = found before
            ∧ superOf (before ++ [i]) name = some superName
          ∨ (∃ kind detail, found (before ++ [i]) = found before
              ++ if (after before).sink.isSuppressed kind then []
                else [.of kind file (arena.lineOf (some i)) detail])
            ∧ superOf (before ++ [i]) = superOf before)
        ∧ ((after before).sink.isSuppressed .noClassDef = false →
          ((∃ detail, found (before ++ [i]) = found before
              ++ [.of .noClassDef file (arena.lineOf (some i)) detail])
            ↔ Naming.isClassName name = true
              ∧ ¬ ∃ j, arena.Precedes root j i
                ∧ arena.assignsBody name j = true)))
      ∧ ∀ nodes longer, nodes <+: longer → longer <+: arena.preorder root →
        ∀ name superName, superOf nodes name = some superName →
          superOf longer name = some superName := by
  intro root arena after found superOf
  have hpasses : Passes arena root := passes_of_parse h
  have hmodel : (session.reset file).model.classes = {} := rfl
  have hsession : (session.reset file).model.classes.Coherent :=
    ClassTable.coherent_empty
  refine ⟨fun i name superName hextends => ?_, fun nodes longer hleads _ name
    superName => hpasses.superName?_onwards hsession hleads⟩
  obtain ⟨callee, subject, target, hform, -⟩ :=
    Arena.exists_call_of_extension? hextends
  obtain ⟨before, hbefore⟩ :=
    Arena.exists_before (Arena.mem_preorder_ofTree hform)
  refine ⟨before, hbefore, ?_⟩
  obtain ⟨⟨detail, hfound⟩, hsupers⟩ :=
    hpasses.extends_concat hsession hextends before
  have hfile : (after before).sink.file = file :=
    file_visit arena before (session.reset file)
  rw [← hfile]
  constructor
  -- without objection the link is made and nothing is reported; with one it is
  -- the other way round
  · dsimp only at hfound hsupers
    cases hobjection : (visit arena before
        (session.reset file)).1.model.classes.objection? name superName with
    | none =>
        rw [hobjection] at hfound hsupers
        exact .inl ⟨hfound.trans (List.append_nil _),
          (hsupers name).trans (if_pos ⟨rfl, rfl⟩)⟩
    | some kind =>
        rw [hobjection, Option.toList_some, Sink.map_filter_singleton]
          at hfound
        rw [hobjection] at hsupers
        exact .inr ⟨⟨kind, detail, hfound⟩, funext fun other =>
          (hsupers other).trans (if_neg nofun)⟩
  -- the kind of the report is that of the objection, so only suppression could
  -- hide it
  · intro hloud
    rw [← hpasses.objection?_eq_noClassDef_iff hmodel hbefore]
    constructor
    · rintro ⟨other, hreported⟩
      exact (Sink.eq_some_of_kept
        (List.append_cancel_left (hfound.symm.trans hreported))).1
    · intro hundefined
      exact ⟨detail, hfound.trans (congrArg (_ ++ ·)
        (Sink.kept_of_eq_some hundefined hloud _ detail))⟩

/-- A class that is linked to one superclass, and then to another one. -/
def linkedTwice : String :=
  "a.B=\x7b\x7d;$extends(a.B,a.C);$extends(a.B,a.D);"

/-- The second call is told so, and the class stays with the first. -/
theorem extends_of_check_linkedTwice :
    Tree.Parses linkedTwice fun tree =>
      let root := some (Arena.ofTree (.ofText linkedTwice) tree).1
      let arena := (Arena.ofTree (.ofText linkedTwice) tree).2
      let after nodes := (visit arena nodes ((start {}).reset "f.js")).1
      let found nodes := (after nodes).sink.diagnostics
      arena.extension? 22 = some ("a.B", "a.D")
        ∧ (∃ before kind detail, before ++ [22] <+: arena.preorder root
          ∧ found (before ++ [22]) = found before
            ++ if (after before).sink.isSuppressed kind then []
              else [.of kind "f.js" 1 detail])
        ∧ (after (arena.preorder root)).model.classes.superName? "a.B"
          = some "a.C" := by
  have hparses : Tree.Parses linkedTwice fun tree =>
      let root := some (Arena.ofTree (.ofText linkedTwice) tree).1
      let arena := (Arena.ofTree (.ofText linkedTwice) tree).2
      let superOf nodes := (visit arena nodes
        ((start {}).reset "f.js")).1.model.classes.superName?
      let order := arena.preorder root
      arena.extension? 22 = some ("a.B", "a.D")
        ∧ arena.lineOf (some 22) = 1
        ∧ superOf (order.take 9) "a.B" = some "a.C" := by decide +kernel
  obtain ⟨tree, hparse, hextends, hline, hlinked⟩ := hparses
  refine ⟨tree, hparse, hextends, ?_⟩
  obtain ⟨hcalls, honwards⟩ := extends_of_check hparse (start {}) "f.js"
  have hlast := honwards _ _ (List.take_prefix 9 _) (List.prefix_refl _) _ _
    hlinked
  obtain ⟨before, hbefore,
    ⟨-, hsuper⟩ | ⟨⟨kind, detail, hone⟩, -⟩, -⟩ :=
    hcalls 22 "a.B" "a.D" hextends
  · -- the other superclass would have stayed, too
    have hother := honwards _ _ hbefore (List.prefix_refl _) _ _ hsuper
    rw [hlast] at hother
    exact absurd hother (by decide)
  · rw [hline] at hone
    exact ⟨⟨before, kind, detail, hbefore, hone⟩, hlast⟩

end Session

end ScriptLint
