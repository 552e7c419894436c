/-
The fields of classes. A field is declared only where the class has none
of its name yet, so the names of its fields are distinct
(`ClassInfo.Distinct`), and it is declared behind all others, so the fields
that there are stay as they are (`ClassInfo.Grows`). Both are kept by each
of the steps in which a check changes the classes, and so from any point of
a check to any later one (`Session.fields_of_check`).

Lookups come in two kinds, for fields of instances and for static ones, and
each of them goes through the class itself or along its superclasses. What
is proved of a lookup asks only that it reads fields and nothing else
(`ClassInfo.ReadsFields`), so each fact is stated once for both kinds.
-/
import Mathlib.Data.List.Nodup
import ScriptLint.Proofs.Classes
import ScriptLint.Proofs.Parse.Contract
import ScriptLint.Proofs.Registry

namespace ScriptLint

-- =============================================================== slots

/-- A slot is found by its name if no other has that name. -/
theorem find?_of_mem_slots {slots : List Slot} {slot : Slot}
    (h : (slots.map Slot.name).Nodup) (hslot : slot ∈ slots) :
    slots.find? (·.name == slot.name) = some slot := by
  induction slots with
  | nil => cases hslot
  | cons first slots ih =>
      rw [List.map_cons, List.nodup_cons] at h
      rcases List.mem_cons.1 hslot with rfl | hmem
      · rw [List.find?_cons_of_pos (by simp)]
      · have hne : first.name ≠ slot.name := fun heq =>
          h.1 (heq ▸ List.mem_map_of_mem hmem)
        rw [List.find?_cons_of_neg (by simpa using hne)]
        exact ih h.2 hmem

/-- One more slot of a new name. -/
theorem nodup_concat_slots {slots : List Slot} {slot : Slot}
    (h : (slots.map Slot.name).Nodup)
    (hnew : slots.find? (·.name == slot.name) = none) :
    ((slots ++ [slot]).map Slot.name).Nodup := by
  rw [List.map_append, List.map_singleton]
  refine List.nodup_append.2 ⟨h, List.nodup_singleton _, ?_⟩
  intro name hname other hother heq
  rw [heq, List.mem_singleton.1 hother] at hname
  obtain ⟨found, hfound, hsame⟩ := List.mem_map.1 hname
  exact List.find?_eq_none.1 hnew found hfound (beq_iff_eq.2 hsame)

namespace ClassInfo

variable {info later last : ClassInfo}

/-- No two fields of the class have the same name, nor have two static
fields. -/
structure Distinct (info : ClassInfo) : Prop where
  fields : (info.fields.map Slot.name).Nodup
  staticFields : (info.staticFields.map Slot.name).Nodup

/-- The class gets more fields, behind those that it has. -/
structure Grows (info later : ClassInfo) : Prop where
  fields : info.fields <+: later.fields
  staticFields : info.staticFields <+: later.staticFields

/-- A class keeps what it has. -/
theorem grows_refl (info : ClassInfo) : info.Grows info :=
  ⟨List.prefix_refl _, List.prefix_refl _⟩

/-- What is kept twice is kept. -/
theorem Grows.trans (h : info.Grows later) (h' : later.Grows last) :
    info.Grows last :=
  ⟨h.fields.trans h'.fields, h.staticFields.trans h'.staticFields⟩

/-- A field is added behind those that are there. -/
theorem grows_addField (info : ClassInfo) (slot : Slot) :
    info.Grows (info.addField slot) :=
  ⟨List.prefix_append _ _, List.prefix_refl _⟩

/-- A class with one more static field has grown. -/
theorem grows_addStaticField (info : ClassInfo) (slot : Slot) :
    info.Grows (info.addStaticField slot) :=
  ⟨List.prefix_refl _, List.prefix_append _ _⟩

/-- A class with one more field has that one behind those that it had. -/
theorem field?_addField (info : ClassInfo) (slot : Slot) (name : String) :
    (info.addField slot).field? name
      = (info.field? name).or (if slot.name = name then some slot else none)
      := by
  rw [field?, addField, List.find?_append, ← field?, List.find?_singleton]
  simp only [beq_iff_eq]

/-- A field that is added is found if there was none of that name. -/
theorem staticField?_addStaticField (info : ClassInfo) (slot : Slot)
    (name : String) :
    (info.addStaticField slot).staticField? name
      = (info.staticField? name).or
        (if slot.name = name then some slot else none) := by
  rw [staticField?, addStaticField, List.find?_append, ← staticField?,
    List.find?_singleton]
  simp only [beq_iff_eq]

@[simp] theorem field?_addStaticField (info : ClassInfo) (slot : Slot)
    (name : String) :
    (info.addStaticField slot).field? name = info.field? name := rfl

@[simp] theorem staticField?_addField (info : ClassInfo) (slot : Slot)
    (name : String) :
    (info.addField slot).staticField? name = info.staticField? name := rfl

/-- A field that is found is found for good. -/
theorem Grows.field? (h : info.Grows later) {name : String} {slot : Slot}
    (hslot : info.field? name = some slot) :
    later.field? name = some slot := by
  obtain ⟨more, hmore⟩ := h.fields
  rw [ClassInfo.field?, ← hmore, List.find?_append, ← ClassInfo.field?,
    hslot, Option.some_or]

/-- A static field that is found once is found later on. -/
theorem Grows.staticField? (h : info.Grows later) {name : String}
    {slot : Slot} (hslot : info.staticField? name = some slot) :
    later.staticField? name = some slot := by
  obtain ⟨more, hmore⟩ := h.staticFields
  rw [ClassInfo.staticField?, ← hmore, List.find?_append,
    ← ClassInfo.staticField?, hslot, Option.some_or]

/-- What is read off a class depends on its fields alone, and is nothing
where there are none. -/
structure ReadsFields (read : ClassInfo → Option Slot) : Prop where
  eq_none : read {} = none
  congr {info info' : ClassInfo} : info.fields = info'.fields →
    info.staticFields = info'.staticFields → read info = read info'

/-- Looking up a field reads fields only. -/
theorem readsFields_field? (name : String) :
    ReadsFields (·.field? name) where
  eq_none := rfl
  congr hfields _ := by
    unfold field?
    rw [hfields]

/-- To look up a static field is to read fields only. -/
theorem readsFields_staticField? (name : String) :
    ReadsFields (·.staticField? name) where
  eq_none := rfl
  congr _ hstatic := by
    unfold staticField?
    rw [hstatic]

end ClassInfo

namespace ClassTable

variable {classes later last : ClassTable} {id : Nat}

-- ============================================================ distinct

/-- The fields of every class are distinct. -/
def Distinct (classes : ClassTable) : Prop :=
  ∀ id info, classes.get? id = some info → info.Distinct

/-- Without classes there are no fields. -/
theorem distinct_empty : Distinct {} := nofun

/-- A class that is entered has none. -/
theorem Distinct.enter (h : classes.Distinct) (name : String) :
    (classes.enter name).2.Distinct := by
  intro a info hinfo
  rcases Registry.get?_intern classes name {} a with hold | ⟨-, hfresh⟩
  · exact h a info (hold ▸ hinfo)
  · obtain rfl := Option.some.inj (hinfo.symm.trans hfresh)
    exact ⟨List.nodup_nil, List.nodup_nil⟩

/-- A change that keeps the names of a class apart. -/
theorem Distinct.update (h : classes.Distinct) {f : ClassInfo → ClassInfo}
    (hf : ∀ info, classes.get? id = some info → (f info).Distinct) :
    Distinct (classes.update id f) := by
  intro a info hinfo
  rw [Registry.get?_update] at hinfo
  split at hinfo
  · rename_i hid
    obtain ⟨old, hold, rfl⟩ := Option.map_eq_some_iff.1 hinfo
    exact hf old (hid ▸ hold)
  · exact h a info hinfo

/-- Links do not touch fields. -/
theorem Distinct.link (h : classes.Distinct) (id superId : Nat) :
    (classes.link id superId).2.Distinct := by
  unfold ClassTable.link
  split
  · split <;> exact h
  · split
    · exact h
    · exact h.update fun info hinfo =>
        ⟨(h id info hinfo).fields, (h id info hinfo).staticFields⟩

/-- The step lemma. -/
theorem Distinct.step (h : classes.Distinct) (hstep : classes.Step later) :
    later.Distinct := by
  cases hstep with
  | request request hnamed =>
      cases request with
      | enter name => exact h.enter name
      | define name line =>
          refine (h.enter name).update fun info hinfo => ?_
          have hold := h.enter name _ info hinfo
          exact ⟨hold.fields, hold.staticFields⟩
      | link id superId => exact h.link id superId
  | addField id slot hnew =>
      refine h.update fun info hinfo => ?_
      exact ⟨nodup_concat_slots (h id info hinfo).fields (hnew info hinfo),
        (h id info hinfo).staticFields⟩
  | addStaticField id slot hnew =>
      refine h.update fun info hinfo => ?_
      exact ⟨(h id info hinfo).fields,
        nodup_concat_slots (h id info hinfo).staticFields (hnew info hinfo)⟩

/-- Through any number of steps. -/
theorem Distinct.becomes (h : classes.Distinct)
    (hsteps : classes.Becomes later) : later.Distinct := by
  induction hsteps with
  | refl => exact h
  | tail _ hstep ih => exact ih.step hstep

-- ============================================================== growth

/-- More classes, behind those that there are, and more fields of each. -/
structure Grows (classes later : ClassTable) : Prop where
  names : classes.entries.map (·.1) <+: later.entries.map (·.1)
  infos : ∀ id info, classes.get? id = some info →
    ∃ info', later.get? id = some info' ∧ info.Grows info'

/-- Classes keep what they have. -/
theorem grows_refl (classes : ClassTable) : classes.Grows classes where
  names := List.prefix_refl _
  infos _ info hinfo := ⟨info, hinfo, info.grows_refl⟩

/-- What classes keep twice they keep. -/
theorem Grows.trans (h : classes.Grows later) (h' : later.Grows last) :
    classes.Grows last where
  names := h.names.trans h'.names
  infos id info hinfo := by
    obtain ⟨middle, hmiddle, hgrows⟩ := h.infos id info hinfo
    obtain ⟨info', hinfo', hgrows'⟩ := h'.infos id middle hmiddle
    exact ⟨info', hinfo', hgrows.trans hgrows'⟩

/-- A class that is entered takes nothing from the others. -/
theorem grows_enter (classes : ClassTable) (name : String) :
    classes.Grows (classes.enter name).2 where
  names := by
    unfold enter
    cases h : classes.find? name with
    | some id =>
        rw [Registry.intern_of_find?_eq_some _ h]
    | none =>
        rw [Registry.intern_of_find?_eq_none _ h, List.map_append]
        exact List.prefix_append _ _
  infos id info hinfo := by
    have hlt : id < classes.size := Registry.lt_size_of_get? hinfo
    rcases Registry.get?_intern classes name {} id with hold | ⟨hid, -⟩
    · exact ⟨info, hold.trans hinfo, info.grows_refl⟩
    · exact absurd hid (Nat.ne_of_lt hlt)

/-- Classes keep what they have if the one that is changed does. -/
theorem grows_update (classes : ClassTable) (id : Nat)
    (f : ClassInfo → ClassInfo)
    (hf : ∀ info : ClassInfo, info.Grows (f info)) :
    classes.Grows (classes.update id f) where
  names := by rw [Registry.names_update]
  infos a info hinfo := by
    rw [Registry.get?_update, hinfo]
    split
    · exact ⟨f info, rfl, hf info⟩
    · exact ⟨info, rfl, info.grows_refl⟩

/-- Links leave fields alone. -/
theorem grows_link (classes : ClassTable) (id superId : Nat) :
    classes.Grows (classes.link id superId).2 := by
  unfold link
  split
  · split <;> exact grows_refl _
  · split
    · exact grows_refl _
    · exact grows_update classes id
        (fun info => { info with superClass := some superId })
        fun _ => ⟨List.prefix_refl _, List.prefix_refl _⟩

/-- The step lemma. -/
theorem Step.grows (h : classes.Step later) : classes.Grows later := by
  cases h with
  | request request hnamed =>
      cases request with
      | enter name => exact grows_enter classes name
      | define name line =>
          exact (grows_enter classes name).trans (grows_update _ _
            (fun info =>
              { info with definedAt := info.definedAt.or (some line) })
            fun _ => ⟨List.prefix_refl _, List.prefix_refl _⟩)
      | link id superId => exact grows_link classes id superId
  | addField id slot _ =>
      exact grows_update _ _ _ fun info => info.grows_addField slot
  | addStaticField id slot _ =>
      exact grows_update _ _ _ fun info => info.grows_addStaticField slot

/-- Along the steps of a check classes only grow. -/
theorem Becomes.grows (h : classes.Becomes later) : classes.Grows later := by
  induction h with
  | refl => exact grows_refl _
  | tail _ hstep ih => exact ih.trans hstep.grows

/-- A class that is entered keeps its number. -/
theorem Grows.find? (h : classes.Grows later) {name : String}
    (hid : classes.find? name = some id) : later.find? name = some id := by
  obtain ⟨more, hmore⟩ := h.names
  rw [Registry.find?_eq_findIdx?] at hid ⊢
  rw [← hmore, List.findIdx?_append, hid, Option.some_or]

/-- A number keeps its class. -/
theorem Grows.nameOf_eq (h : classes.Grows later) (hid : id < classes.size) :
    later.nameOf id = classes.nameOf id := by
  have hnames : ∀ table : ClassTable,
      table.nameOf id = ((table.entries.map (·.1))[id]?).getD "" := by
    intro table
    rw [Registry.nameOf, List.getElem?_map]
    cases table.entries[id]? <;> rfl
  obtain ⟨more, hmore⟩ := h.names
  rw [hnames, hnames, ← hmore, List.getElem?_append_left
    (by simpa [Registry.size] using hid)]

-- ============================================================= look-up

/-- What is read off the class with a name. -/
def slotOf? (classes : ClassTable) (owner : String)
    (read : ClassInfo → Option Slot) : Option Slot :=
  (classes.lookUp? owner).bind read

/-- The instance field of the class with a name. -/
def fieldOf? (classes : ClassTable) (owner field : String) : Option Slot :=
  classes.slotOf? owner (·.field? field)

/-- The static field of the class with a name. -/
def staticFieldOf? (classes : ClassTable) (owner field : String) :
    Option Slot :=
  classes.slotOf? owner (·.staticField? field)

variable {owner : String} {read : ClassInfo → Option Slot}

/-- A new class has no slots. -/
theorem slotOf?_enter (hread : ClassInfo.ReadsFields read)
    (classes : ClassTable) (name : String) :
    (classes.enter name).2.slotOf? owner read
      = classes.slotOf? owner read :=
  Registry.bind_lookUp?_intern classes name owner hread.eq_none

/-- A change that leaves fields alone. -/
theorem slotOf?_update (classes : ClassTable) (id : Nat)
    {f : ClassInfo → ClassInfo} (hf : ∀ info, read (f info) = read info) :
    slotOf? (classes.update id f) owner read
      = classes.slotOf? owner read :=
  Registry.bind_lookUp?_update classes id owner hf

/-- A definition leaves fields alone. -/
theorem slotOf?_define (hread : ClassInfo.ReadsFields read)
    (classes : ClassTable) (name : String) (line : Nat) :
    (classes.define name line).2.slotOf? owner read
      = classes.slotOf? owner read := by
  rw [← slotOf?_enter hread classes name]
  exact slotOf?_update _ _ fun _ => hread.congr rfl rfl

/-- A link leaves all fields alone. -/
theorem slotOf?_link (hread : ClassInfo.ReadsFields read)
    (classes : ClassTable) (id superId : Nat) :
    (classes.link id superId).2.slotOf? owner read
      = classes.slotOf? owner read := by
  unfold link
  split
  · split <;> rfl
  · split
    · rfl
    · exact slotOf?_update _ _ fun _ => hread.congr rfl rfl

/-- A slot that comes up when a class is changed comes from the change. -/
theorem slotOf?_update_cases {id : Nat} {f : ClassInfo → ClassInfo}
    (h : (slotOf? (classes.update id f) owner read).isSome = true) :
    (classes.slotOf? owner read).isSome = true
      ∨ classes.nameOf id = owner
        ∧ ∃ info, read info = none ∧ (read (f info)).isSome = true := by
  cases hold : classes.slotOf? owner read with
  | some slot => exact .inl rfl
  | none =>
      right
      rw [slotOf?, Registry.lookUp?_update_of_id] at h
      rw [slotOf?] at hold
      split at h
      · rename_i hid
        obtain ⟨info, hinfo⟩ : ∃ info, classes.lookUp? owner = some info := by
          rw [← Option.ne_none_iff_exists']
          intro hnone
          rw [hnone] at h
          cases h
        rw [hinfo] at h hold
        exact ⟨Registry.nameOf_of_find? hid, info, hold, h⟩
      · rw [hold] at h
        cases h

/-- A change to the class that has been entered under a name. -/
theorem slotOf?_update_enter (classes : ClassTable) (name : String)
    (f : ClassInfo → ClassInfo) :
    slotOf? (Registry.update (classes.enter name).2 (classes.enter name).1 f)
        name read
      = read (f ((classes.lookUp? name).getD {})) := by
  have hself := Registry.find?_intern_self classes name {}
  rw [slotOf?, enter, Registry.lookUp?_update hself, if_pos rfl,
    Registry.lookUp?_intern, if_pos rfl]
  rfl

/-- The class that is entered under a name is the one with the name. -/
theorem bind_get?_enter (hread : ClassInfo.ReadsFields read)
    (classes : ClassTable) (name : String) :
    ((classes.enter name).2.get? (classes.enter name).1).bind read
      = classes.slotOf? name read := by
  rw [slotOf?, enter, Registry.get?_intern_self]
  cases classes.lookUp? name with
  | none => exact hread.eq_none
  | some info => rfl

/-- What is kept of a class that grows is kept of all classes. -/
theorem Grows.slotOf? (h : classes.Grows later) {slot : Slot}
    (hread : ∀ {info info' : ClassInfo}, info.Grows info' →
      read info = some slot → read info' = some slot)
    (hslot : classes.slotOf? owner read = some slot) :
    later.slotOf? owner read = some slot := by
  obtain ⟨info, hinfo, hfound⟩ := Option.bind_eq_some_iff.1 hslot
  obtain ⟨id, hid, hget⟩ := Option.bind_eq_some_iff.1 hinfo
  obtain ⟨info', hget', hgrows⟩ := h.infos id info hget
  rw [ClassTable.slotOf?, Registry.lookUp?_of_find? (h.find? hid), hget',
    Option.bind_some]
  exact hread hgrows hfound

/-- A declared field stays declared. -/
theorem Grows.fieldOf?_isSome (h : classes.Grows later) {field : String}
    (hfield : (classes.fieldOf? owner field).isSome = true) :
    (later.fieldOf? owner field).isSome = true := by
  obtain ⟨slot, hslot⟩ := Option.isSome_iff_exists.1 hfield
  exact Option.isSome_iff_exists.2
    ⟨slot, h.slotOf? (fun hgrows => hgrows.field?) hslot⟩

/-- What is found by the name of a class is still found later on. -/
theorem Grows.staticFieldOf?_isSome (h : classes.Grows later)
    {field : String}
    (hfield : (classes.staticFieldOf? owner field).isSome = true) :
    (later.staticFieldOf? owner field).isSome = true := by
  obtain ⟨slot, hslot⟩ := Option.isSome_iff_exists.1 hfield
  exact Option.isSome_iff_exists.2
    ⟨slot, h.slotOf? (fun hgrows => hgrows.staticField?) hslot⟩

end ClassTable

-- ============================================================ sessions

namespace Session

/-- Nodes that are visited in two goes. -/
theorem visit_append (arena : Arena) (nodes more : List Nat)
    (session : Session) :
    visit arena (nodes ++ more) session
      = match visit arena nodes session with
        | (after, none) => visit arena more after
        | (after, some stray) => (after, some stray) := by
  induction nodes generalizing session with
  | nil => rfl
  | cons i nodes ih =>
      rw [List.cons_append, visit, visit]
      cases arena.checkNode session.model i with
      | error stray => rfl
      | ok outcome => exact ih _

/-- The walk over nodes is made of such steps. -/
theorem becomes_visit (arena : Arena) (nodes : List Nat)
    (session : Session) :
    session.model.classes.Becomes
      (visit arena nodes session).1.model.classes := by
  refine visit_induct (P := fun model =>
    session.model.classes.Becomes model.classes) ?_ nodes .refl
  intro model i outcome hmodel hrun
  exact Relation.ReflTransGen.trans hmodel (Arena.becomes_checkNode hrun)

/-- What follows on a visit only goes on with the classes. -/
theorem becomes_onwards (arena : Arena) {nodes longer : List Nat}
    (h : nodes <+: longer) (session : Session) :
    (visit arena nodes session).1.model.classes.Becomes
      (visit arena longer session).1.model.classes := by
  obtain ⟨more, rfl⟩ := h
  rw [visit_append]
  split
  · rename_i hrun
    rw [hrun]
    exact becomes_visit arena more _
  · rename_i hrun
    rw [hrun]

/-- Wherever a check may come to, no class has two fields of one name. -/
theorem Reaches.distinct {session : Session} {file text : String}
    {model : Model} (h : session.Reaches file text model) :
    model.classes.Distinct :=
  h.induct (P := fun model => model.classes.Distinct)
    (fun _ => ClassTable.distinct_empty)
    fun _ _ _ _ hmodel hrun => hmodel.becomes (Arena.becomes_checkNode hrun)

/-- At every point of a check, no class has two fields of the same name or
two static fields of the same name. From any point on, the fields of a
class stay as they are, and more of them come only behind these; so a
declared field keeps its name and its type. -/
theorem fields_of_check {text : String} {tree : Tree}
    (h : Tree.parse text = .ok tree) (session : Session) (file : String) :
    let root := (Arena.ofTree (.ofText text) tree).1
    let arena := (Arena.ofTree (.ofText text) tree).2
    let classesAfter nodes :=
      (visit arena nodes (session.reset file)).1.model.classes
    ∀ nodes longer, nodes <+: longer →
      longer <+: arena.preorder (some root) →
      ∀ id info, (classesAfter nodes).get? id = some info →
        (info.fields.map Slot.name).Nodup
          ∧ (info.staticFields.map Slot.name).Nodup
          ∧ (classesAfter longer).nameOf id = (classesAfter nodes).nameOf id
          ∧ ∃ later, (classesAfter longer).get? id = some later
            ∧ info.fields <+: later.fields
            ∧ info.staticFields <+: later.staticFields
            ∧ (∀ slot ∈ info.fields, later.field? slot.name = some slot)
            ∧ ∀ slot ∈ info.staticFields,
              later.staticField? slot.name = some slot := by
  intro root arena classesAfter nodes longer hlonger hnodes id info hinfo
  have hreached : ∀ {nodes}, nodes <+: arena.preorder (some root) →
      (classesAfter nodes).Distinct := fun hleads =>
    (Reaches.visit h hleads).distinct
  have hnow := hreached (hlonger.trans hnodes) id info hinfo
  -- that fields stay is about the two points, that they are found again about
  -- the later one
  have hgrows : (classesAfter nodes).Grows (classesAfter longer) :=
    (becomes_onwards arena hlonger _).grows
  obtain ⟨later, hlater, hfields⟩ := hgrows.infos id info hinfo
  have hthen := hreached hnodes id later hlater
  refine ⟨hnow.fields, hnow.staticFields,
    hgrows.nameOf_eq (Registry.lt_size_of_get? hinfo), later, hlater,
    hfields.fields, hfields.staticFields, fun slot hslot => ?_,
    fun slot hslot => ?_⟩
  · exact find?_of_mem_slots hthen.fields (hfields.fields.subset hslot)
  · exact find?_of_mem_slots hthen.staticFields
      (hfields.staticFields.subset hslot)

/-- The first of two static fields is still the first when the second one
has been declared. -/
theorem fields_of_check_static :
    Tree.Parses "/** @type N */a.B.c=1;/** @type N */a.B.d=2;" fun tree =>
      let text := "/** @type N */a.B.c=1;/** @type N */a.B.d=2;"
      let root := (Arena.ofTree (.ofText text) tree).1
      let arena := (Arena.ofTree (.ofText text) tree).2
      let order := arena.preorder (some root)
      let classesAfter nodes :=
        (visit arena nodes ((start {}).reset "b.js")).1.model.classes
      ∃ info later, (classesAfter (order.take 3)).get? 0 = some info
        ∧ info.staticFields.map Slot.name = ["c"]
        ∧ (classesAfter order).get? 0 = some later
        ∧ later.staticFields.map Slot.name = ["c", "d"]
        ∧ info.staticFields <+: later.staticFields := by
  have hparses : Tree.Parses "/** @type N */a.B.c=1;/** @type N */a.B.d=2;"
      fun tree =>
        let lines := Text.LineMap.ofText
          "/** @type N */a.B.c=1;/** @type N */a.B.d=2;"
        let root := (Arena.ofTree lines tree).1
        let arena := (Arena.ofTree lines tree).2
        let order := arena.preorder (some root)
        let namesAfter nodes :=
          ((visit arena nodes ((start {}).reset "b.js")).1.model.classes.get?
            0).map fun info => info.staticFields.map Slot.name
        namesAfter (order.take 3) = some ["c"]
          ∧ namesAfter order = some ["c", "d"] := by decide +kernel
  obtain ⟨tree, hparse, hfirst, hlast⟩ := hparses
  obtain ⟨info, hinfo, hnames⟩ := Option.map_eq_some_iff.1 hfirst
  obtain ⟨later, hlater, hmore⟩ := Option.map_eq_some_iff.1 hlast
  have hfields := fields_of_check hparse (start {}) "b.js" _ _
    (List.take_prefix 3 _) (List.prefix_refl _) 0 info hinfo
  obtain ⟨-, -, -, last, hcheck, -, hleads, -⟩ := hfields
  obtain rfl := Option.some.inj (hcheck.symm.trans hlater)
  exact ⟨tree, hparse, info, last, hinfo, hnames, hlater, hmore, hleads⟩

end Session

end ScriptLint
