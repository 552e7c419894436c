/-
Identities: the numbers that the tables of classes and functions hand out.
Whatever is asked of a table, as long as it is asked with numbers that the
table handed out since it was last emptied, names and numbers in use go
together one to one, every superclass is a class of the table, and nothing
but emptying the table takes a number, a name or a definition away
(`names_identify_entries`).

The tables are followed twice. A `Registry` looks a name up by going through
its entries. `Registry.Indexed` keeps the numbers of the names aside, and
looks there and nowhere else, so nothing but its operations holds entries
and numbers together; they do, because every operation leads from a registry
with the right index to another (`ClassTable.performIndexed_indexed`). Which
numbers are in use is kept account of by `Registry.Accounted`.

# The argument

- A request by number is one that makes sense if the number is in use.
  Which numbers are, is a list that grows with each answer
  (`Accounted.hand`) and starts anew when a table is emptied.
- `Sane` is the invariant of the tables: names differ, superclasses are
  entries. It is kept by each request (`Sane.step`), and so along every run
  (`Reaches.sane`).
- The table with an index is related to the one without by a function that
  builds the index (`indexed`). Each operation commutes with it, so the run
  of the one is the run of the other.
-/
import ScriptLint.Proofs.Definitions
import ScriptLint.Proofs.Registry
import Mathlib.Logic.Function.Basic

namespace ScriptLint

namespace Registry

variable {α : Type} {registry : Registry α}

-- ============================================================= indexed

/-- Entries with the numbers of their names aside. -/
structure Indexed (α : Type) where
  registry : Registry α := {}
  index : String → Option Nat := fun _ => none

namespace Indexed

/-- The number of the entry with a name, as the index has it. -/
def find? (indexed : Indexed α) (name : String) : Option Nat :=
  indexed.index name

/-- The number of the entry with a name, which is appended and indexed as
`fresh` if the index does not have it. -/
def intern (indexed : Indexed α) (name : String) (fresh : α) :
    Nat × Indexed α :=
  match indexed.index name with
  | some id => (id, indexed)
  | none =>
    (indexed.registry.size,
      { registry := ⟨indexed.registry.entries ++ [(name, fresh)]⟩
        index := Function.update indexed.index name
          (some indexed.registry.size) })

/-- Changes the entry with a number; the index stays. -/
def update (indexed : Indexed α) (id : Nat) (f : α → α) : Indexed α :=
  { indexed with registry := indexed.registry.update id f }

end Indexed

/-- A registry with the index that it should have. -/
def indexed (registry : Registry α) : Indexed α where
  registry := registry
  index := registry.find?

/-- Registering a name leaves the numbers of the other names alone. -/
theorem find?_intern (registry : Registry α) (name : String) (fresh : α) :
    (registry.intern name fresh).2.find?
      = Function.update registry.find? name
          (some (registry.intern name fresh).1) := by
  funext other
  by_cases heq : other = name
  · rw [heq, Function.update_self, find?_intern_self]
  · rw [Function.update_of_ne heq]
    cases h : registry.find? name with
    | some id => rw [intern_of_find?_eq_some fresh h]
    | none =>
        have hlast : [(name, fresh)].findIdx? (·.1 == other) = none := by
          rw [List.findIdx?_eq_none_iff]
          simpa using Ne.symm heq
        rw [intern_of_find?_eq_none fresh h, find?, List.findIdx?_append,
          hlast, Option.map_none, Option.or_none, find?]

/-- Deciding by the index comes to the same as going through the
entries. -/
theorem intern_indexed (registry : Registry α) (name : String) (fresh : α) :
    registry.indexed.intern name fresh
      = ((registry.intern name fresh).1,
          (registry.intern name fresh).2.indexed) := by
  have hfind := find?_intern registry name fresh
  cases h : registry.find? name with
  | some id =>
      rw [intern_of_find?_eq_some fresh h]
      simp only [Indexed.intern, indexed, h]
  | none =>
      rw [intern_of_find?_eq_none fresh h] at hfind ⊢
      simp only [Indexed.intern, indexed, h, hfind]

theorem update_indexed (registry : Registry α) (id : Nat) (f : α → α) :
    registry.indexed.update id f = (registry.update id f).indexed := by
  have hfind : (registry.update id f).find? = registry.find? :=
    funext (find?_update id f)
  show Indexed.mk (registry.update id f) registry.find? = _
  rw [← hfind]
  rfl

-- ============================================================ accounts

/-- The account of a registry: no name has two entries, and the numbers in
use are those that were handed out. -/
structure Accounted (registry : Registry α) (handed : List Nat) :
    Prop where
  unambiguous : registry.Unambiguous
  handed_iff (id : Nat) : id ∈ handed ↔ id < registry.size

variable {handed : List Nat}

theorem accounted_empty : Accounted ({} : Registry α) [] where
  unambiguous := unambiguous_empty
  handed_iff id := by
    simp [size]

/-- Handing numbers in use out once more changes nothing. -/
theorem Accounted.hand (h : registry.Accounted handed) {ids : List Nat}
    (hids : ∀ id ∈ ids, id < registry.size) :
    registry.Accounted (handed ++ ids) where
  unambiguous := h.unambiguous
  handed_iff id := by
    rw [List.mem_append, h.handed_iff]
    constructor
    · rintro (hold | hnew)
      · exact hold
      · exact hids id hnew
    · exact Or.inl

/-- Registering a name puts no number to use but the one that is handed out
for it. -/
theorem lt_size_intern_iff (registry : Registry α) (name : String)
    (fresh : α) (id : Nat) :
    id < (registry.intern name fresh).2.size
      ↔ id < registry.size ∨ id = (registry.intern name fresh).1 := by
  cases h : registry.find? name with
  | some known =>
      rw [intern_of_find?_eq_some fresh h]
      have hlt := lt_size_of_find? h
      show id < registry.size ↔ id < registry.size ∨ id = known
      omega
  | none =>
      rw [intern_of_find?_eq_none fresh h]
      show id < (registry.entries ++ [(name, fresh)]).length
        ↔ id < registry.entries.length ∨ id = registry.entries.length
      rw [List.length_append, List.length_singleton]
      omega

theorem Accounted.intern (h : registry.Accounted handed) (name : String)
    (fresh : α) :
    (registry.intern name fresh).2.Accounted
      (handed ++ [(registry.intern name fresh).1]) where
  unambiguous := h.unambiguous.intern name fresh
  handed_iff id := by
    rw [List.mem_append, List.mem_singleton, h.handed_iff,
      lt_size_intern_iff]

theorem Accounted.update (h : registry.Accounted handed) (id : Nat)
    (f : α → α) : (registry.update id f).Accounted handed where
  unambiguous := h.unambiguous.update id f
  handed_iff i := by
    rw [size_update, h.handed_iff]

/-- Names and numbers in use go together one to one, with an index as
without it, and there is an entry for every number that was handed out. -/
structure Identifies (registry : Registry α) (index : Indexed α)
    (handed : List Nat) : Prop where
  /-- The index is for these entries. -/
  registry_eq : index.registry = registry
  /-- Both ways to look a name up agree. -/
  find?_eq (name : String) : index.find? name = registry.find? name
  /-- A name is looked up to the number in use whose entry has it. -/
  find?_iff (name : String) (id : Nat) : index.find? name = some id
    ↔ id < registry.size ∧ registry.nameOf id = name
  /-- No two entries share a name. -/
  nameOf_inj (i j : Nat) : i < registry.size → j < registry.size →
    registry.nameOf i = registry.nameOf j → i = j
  /-- There is an entry for every number that was handed out. -/
  get?_isSome (id : Nat) : id ∈ handed → (registry.get? id).isSome = true

theorem Accounted.identifies (h : registry.Accounted handed) :
    registry.Identifies registry.indexed handed where
  registry_eq := rfl
  find?_eq _ := rfl
  find?_iff name id := by
    constructor
    · intro hfind
      exact ⟨lt_size_of_find? hfind, nameOf_of_find? hfind⟩
    · rintro ⟨hlt, rfl⟩
      exact h.unambiguous.find?_nameOf hlt
  nameOf_inj _ _ hi hj := h.unambiguous.nameOf_inj hi hj
  get?_isSome id hid := by
    rw [Option.isSome_iff_ne_none, Ne, get?_eq_none_iff, Nat.not_le]
    exact (h.handed_iff id).1 hid

/-- The entries of a registry are still there later, under their numbers
and with their names. -/
structure Keeps (registry later : Registry α) : Prop where
  size_le : registry.size ≤ later.size
  nameOf_eq (id : Nat) : id < registry.size →
    later.nameOf id = registry.nameOf id
  find?_eq (name : String) (id : Nat) : registry.find? name = some id →
    later.find? name = some id

theorem Keeps.refl (registry : Registry α) : registry.Keeps registry where
  size_le := Nat.le_refl _
  nameOf_eq _ _ := rfl
  find?_eq _ _ hfind := hfind

theorem Keeps.update {later : Registry α} (h : registry.Keeps later)
    (id : Nat) (f : α → α) : registry.Keeps (later.update id f) where
  size_le := by
    rw [size_update]
    exact h.size_le
  nameOf_eq i hi := by
    rw [nameOf_update]
    exact h.nameOf_eq i hi
  find?_eq name i hfind := by
    rw [find?_update]
    exact h.find?_eq name i hfind

theorem keeps_intern (registry : Registry α) (name : String) (fresh : α) :
    registry.Keeps (registry.intern name fresh).2 where
  size_le := registry.size_le_size_intern name fresh
  nameOf_eq _ hid := nameOf_intern hid name fresh
  find?_eq other id hfind := by
    rw [find?_intern]
    by_cases heq : other = name
    · rw [heq] at hfind ⊢
      rw [Function.update_self, intern_of_find?_eq_some fresh hfind]
    · rw [Function.update_of_ne heq, hfind]

end Registry

-- ============================================================= classes

/-- The numbers that the answer to a link names. -/
def SuperLink.named : SuperLink → List Nat
  | .alreadySet existing => [existing]
  | .linked | .unchanged | .circular => []

namespace ClassTable

variable {classes : ClassTable} {index : Registry.Indexed ClassInfo}
  {handed : List Nat}

/-- What is asked of a table of classes. -/
inductive Operation where
  | find (name : String)
  | enter (name : String)
  | define (name : String) (line : Nat)
  | addField (id : Nat) (slot : Slot)
  | addStaticField (id : Nat) (slot : Slot)
  | link (id superId : Nat)
  | clear
  deriving Repr, DecidableEq

/-- Keeps the first definition of a class. -/
def defineAt (line : Nat) (info : ClassInfo) : ClassInfo :=
  { info with definedAt := info.definedAt.or (some line) }

/-- The numbers that an operation is given. -/
def Operation.uses : Operation → List Nat
  | .addField id _ | .addStaticField id _ => [id]
  | .link id superId => [id, superId]
  | .find _ | .enter _ | .define _ _ | .clear => []

/-- The table behind an operation. -/
def perform (classes : ClassTable) : Operation → ClassTable
  | .find _ => classes
  | .enter name => (classes.enter name).2
  | .define name line => (classes.define name line).2
  | .addField id slot => classes.update id (.addField slot)
  | .addStaticField id slot => classes.update id (.addStaticField slot)
  | .link id superId => (classes.link id superId).2
  | .clear => {}

/-- What an operation does to entries with an index. -/
def performIndexed (index : Registry.Indexed ClassInfo) :
    Operation → Registry.Indexed ClassInfo
  | .find _ => index
  | .enter name => (index.intern name {}).2
  | .define name line =>
    let (id, index) := index.intern name {}
    index.update id (defineAt line)
  | .addField id slot => index.update id (.addField slot)
  | .addStaticField id slot => index.update id (.addStaticField slot)
  | .link id superId =>
    { index with registry := (link index.registry id superId).2 }
  | .clear => {}

/-- The numbers that were handed out since the table was last emptied, when
an operation has handed out its own. -/
def handedBy (classes : ClassTable) (handed : List Nat) :
    Operation → List Nat
  | .find name => handed ++ (classes.find? name).toList
  | .enter name => handed ++ [(classes.enter name).1]
  | .define name line => handed ++ [(classes.define name line).1]
  | .link id superId => handed ++ (classes.link id superId).1.named
  | .addField _ _ | .addStaticField _ _ => handed
  | .clear => []

/-- The tables, with the entries and the index beside them and the numbers
handed out, that operations lead to when each is given numbers that were
handed out to it. -/
inductive Reaches :
    ClassTable → Registry.Indexed ClassInfo → List Nat → Prop where
  | start : Reaches {} {} []
  | step {classes : ClassTable} {index : Registry.Indexed ClassInfo}
    {handed : List Nat} (operation : Operation) :
    Reaches classes index handed → (∀ id ∈ operation.uses, id ∈ handed) →
    Reaches (classes.perform operation) (performIndexed index operation)
      (classes.handedBy handed operation)

/-- Linking is changing an entry, if anything. -/
theorem link_eq_self_or_update (classes : ClassTable) (id superId : Nat) :
    (classes.link id superId).2 = classes
      ∨ (classes.link id superId).2 = classes.update id fun info =>
          { info with superClass := some superId } := by
  by_cases hgrants : classes.Grants id superId
  · exact Or.inr (by rw [link_of_grants hgrants])
  · exact Or.inl (link_of_not_grants hgrants)

/-- Operations take a table with the right index to one with the right
index. -/
theorem performIndexed_indexed (classes : ClassTable)
    (operation : Operation) :
    performIndexed (Registry.indexed classes) operation
      = Registry.indexed (classes.perform operation) := by
  cases operation with
  | find name => rfl
  | enter name =>
      rw [performIndexed, Registry.intern_indexed]
      rfl
  | define name line =>
      rw [performIndexed, Registry.intern_indexed]
      exact Registry.update_indexed _ _ _
  | addField id slot => exact Registry.update_indexed classes id _
  | addStaticField id slot => exact Registry.update_indexed classes id _
  | link id superId =>
      show Registry.Indexed.mk (classes.link id superId).2 classes.find?
        = Registry.indexed (classes.link id superId).2
      rcases classes.link_eq_self_or_update id superId with h | h
      · rw [h]
        rfl
      · rw [h]
        exact Registry.update_indexed classes id _
  | clear => rfl

/-- A table is accounted for, and its superclasses are in it. -/
structure Sane (classes : ClassTable) (handed : List Nat) : Prop where
  accounted : Registry.Accounted classes handed
  closed : classes.Closed

theorem sane_empty : Sane {} [] := ⟨Registry.accounted_empty, closed_empty⟩

/-- Changes to a class that leave its superclass alone. -/
theorem Sane.update (h : classes.Sane handed) (id : Nat)
    {f : ClassInfo → ClassInfo}
    (hf : ∀ info, (f info).superClass = info.superClass) :
    Sane (classes.update id f) handed where
  accounted := h.accounted.update id f
  closed a b hab := by
    rw [superOf?_update hf] at hab
    rw [Registry.size_update]
    exact h.closed a b hab

/-- The superclass that is in the way of a link is in the table. -/
theorem Closed.lt_of_mem_named (h : classes.Closed) {id superId other : Nat}
    (hother : other ∈ (classes.link id superId).1.named) :
    other < (classes.link id superId).2.size := by
  cases hanswer : (classes.link id superId).1 with
  | alreadySet existing =>
      rw [hanswer] at hother
      rw [List.mem_singleton.1 hother]
      have hlt := h id existing (superOf?_of_alreadySet hanswer)
      exact Nat.lt_of_lt_of_le hlt (size_le_size_apply (.link id superId))
  | linked => rw [hanswer] at hother; cases hother
  | unchanged => rw [hanswer] at hother; cases hother
  | circular => rw [hanswer] at hother; cases hother

theorem Sane.link (h : classes.Sane handed) {id superId : Nat}
    (hid : id < classes.size) (hsuper : superId < classes.size) :
    Sane (classes.link id superId).2
      (handed ++ (classes.link id superId).1.named) where
  accounted := by
    have hlinked :
        Registry.Accounted (classes.link id superId).2 handed := by
      rcases classes.link_eq_self_or_update id superId with hsame | hlink
      · rw [hsame]
        exact h.accounted
      · rw [hlink]
        exact h.accounted.update id _
    exact hlinked.hand fun _ => h.closed.lt_of_mem_named
  closed := by
    have hknown : classes.Known (.link id superId) := ⟨hid, hsuper⟩
    exact closed_apply hknown h.closed

theorem Sane.enter (h : classes.Sane handed) (name : String) :
    Sane (classes.enter name).2 (handed ++ [(classes.enter name).1]) where
  accounted := h.accounted.intern name {}
  closed := by
    have hknown : classes.Known (.enter name) := trivial
    exact closed_apply hknown h.closed

/-- Every operation that is given numbers of the table keeps it sane. -/
theorem Sane.step (h : classes.Sane handed) (operation : Operation)
    (huses : ∀ id ∈ operation.uses, id ∈ handed) :
    (classes.perform operation).Sane
      (classes.handedBy handed operation) := by
  have hused : ∀ id ∈ operation.uses, id < classes.size := fun id hid =>
    (h.accounted.handed_iff id).1 (huses id hid)
  cases operation with
  | find name =>
      refine ⟨h.accounted.hand fun id hid => ?_, h.closed⟩
      exact Registry.lt_size_of_find? (Option.mem_toList.1 hid)
  | enter name => exact h.enter name
  | define name line =>
      have hsame : ∀ info, (defineAt line info).superClass
          = info.superClass := fun _ => rfl
      exact (h.enter name).update (classes.enter name).1 hsame
  | addField id slot => exact h.update id fun _ => rfl
  | addStaticField id slot => exact h.update id fun _ => rfl
  | link id superId =>
      have hid := hused id (List.mem_cons_self ..)
      have hsuper := hused superId (List.mem_cons_of_mem _
        (List.mem_singleton_self superId))
      exact h.link hid hsuper
  | clear => exact sane_empty

/-- So the table is sane however it was come to, and its index is right. -/
theorem Reaches.sane (h : Reaches classes index handed) :
    classes.Sane handed ∧ index = Registry.indexed classes := by
  induction h with
  | start => exact ⟨sane_empty, rfl⟩
  | step operation _ huses ih =>
      obtain ⟨hsane, rfl⟩ := ih
      exact ⟨hsane.step operation huses,
        performIndexed_indexed _ operation⟩

/-- What is known of the classes is still known later: their numbers, their
names and the lines of their definitions. -/
structure Keeps (classes later : ClassTable) : Prop where
  entries : Registry.Keeps classes later
  definedAt?_eq (name : String) (line : Nat) :
    classes.definedAt? name = some line →
      later.definedAt? name = some line

theorem keeps_entries_perform (classes : ClassTable) {operation : Operation}
    (h : operation ≠ .clear) :
    Registry.Keeps classes (classes.perform operation) := by
  have hself := Registry.Keeps.refl classes
  cases operation with
  | find name => exact hself
  | enter name => exact Registry.keeps_intern classes name {}
  | define name line =>
      have hentered := Registry.keeps_intern classes name {}
      exact hentered.update (classes.enter name).1 (defineAt line)
  | addField id slot => exact hself.update id _
  | addStaticField id slot => exact hself.update id _
  | link id superId =>
      rw [perform]
      rcases classes.link_eq_self_or_update id superId with hsame | hlink
      · rw [hsame]
        exact hself
      · rw [hlink]
        exact hself.update id _
  | clear => exact absurd rfl h

/-- Only the definition of a class says where it is defined, and only when
nothing has said so before. -/
theorem definedAt?_perform (classes : ClassTable) {operation : Operation}
    (h : operation ≠ .clear) {name : String} {line : Nat}
    (hline : classes.definedAt? name = some line) :
    (classes.perform operation).definedAt? name = some line := by
  cases operation with
  | find other => exact hline
  | enter other =>
      rw [perform, definedAt?_enter]
      exact hline
  | define other later =>
      rw [perform, definedAt?_define]
      split
      · rw [hline, Option.some_or]
      · exact hline
  | addField id slot =>
      have hsame : ∀ info, (ClassInfo.addField slot info).definedAt
          = info.definedAt := fun _ => rfl
      rw [perform, classes.definedAt?_update id name hsame]
      exact hline
  | addStaticField id slot =>
      have hsame : ∀ info, (ClassInfo.addStaticField slot info).definedAt
          = info.definedAt := fun _ => rfl
      rw [perform, classes.definedAt?_update id name hsame]
      exact hline
  | link id superId =>
      rw [perform, definedAt?_link]
      exact hline
  | clear => exact absurd rfl h

/-- Nothing but emptying the table takes anything away. -/
theorem keeps_perform (classes : ClassTable) {operation : Operation}
    (h : operation ≠ .clear) :
    classes.Keeps (classes.perform operation) where
  entries := classes.keeps_entries_perform h
  definedAt?_eq _ _ := classes.definedAt?_perform h

end ClassTable

-- =========================================================== functions

namespace FunctionTable

variable {functions : FunctionTable} {index : Registry.Indexed FunctionInfo}
  {handed : List Nat}

/-- What is asked of a table of functions. -/
inductive Operation where
  | find (name : String)
  | enter (name : String)
  | setReturnType (id : Nat) (type : ValueType)
  | addVariable (id : Nat) (slot : Slot)
  | clear
  deriving Repr, DecidableEq

/-- Declares what a function returns. -/
def returning (type : ValueType) (info : FunctionInfo) : FunctionInfo :=
  { info with returnType := type }

/-- The numbers that an operation is given. -/
def Operation.uses : Operation → List Nat
  | .setReturnType id _ | .addVariable id _ => [id]
  | .find _ | .enter _ | .clear => []

/-- The table behind an operation. -/
def perform (functions : FunctionTable) : Operation → FunctionTable
  | .find _ => functions
  | .enter name => (functions.enter name).2
  | .setReturnType id type => functions.update id (returning type)
  | .addVariable id slot => functions.update id (.addVariable slot)
  | .clear => {}

/-- What an operation does to entries with an index. -/
def performIndexed (index : Registry.Indexed FunctionInfo) :
    Operation → Registry.Indexed FunctionInfo
  | .find _ => index
  | .enter name => (index.intern name {}).2
  | .setReturnType id type => index.update id (returning type)
  | .addVariable id slot => index.update id (.addVariable slot)
  | .clear => {}

/-- The numbers that were handed out since the table was last emptied, when
an operation has handed out its own. -/
def handedBy (functions : FunctionTable) (handed : List Nat) :
    Operation → List Nat
  | .find name => handed ++ (functions.find? name).toList
  | .enter name => handed ++ [(functions.enter name).1]
  | .setReturnType _ _ | .addVariable _ _ => handed
  | .clear => []

/-- The tables, with the entries and the index beside them and the numbers
handed out, that operations lead to when each is given numbers that were
handed out to it. -/
inductive Reaches :
    FunctionTable → Registry.Indexed FunctionInfo → List Nat → Prop where
  | start : Reaches {} {} []
  | step {functions : FunctionTable} {index : Registry.Indexed FunctionInfo}
    {handed : List Nat} (operation : Operation) :
    Reaches functions index handed →
    (∀ id ∈ operation.uses, id ∈ handed) →
    Reaches (functions.perform operation) (performIndexed index operation)
      (functions.handedBy handed operation)

/-- Operations take a table with the right index to one with the right
index. -/
theorem performIndexed_indexed (functions : FunctionTable)
    (operation : Operation) :
    performIndexed (Registry.indexed functions) operation
      = Registry.indexed (functions.perform operation) := by
  cases operation with
  | find name => rfl
  | enter name =>
      rw [performIndexed, Registry.intern_indexed]
      rfl
  | setReturnType id type => exact Registry.update_indexed functions id _
  | addVariable id slot => exact Registry.update_indexed functions id _
  | clear => rfl

/-- Every operation keeps the table accounted for. -/
theorem accounted_perform (h : Registry.Accounted functions handed)
    (operation : Operation) :
    Registry.Accounted (functions.perform operation)
      (functions.handedBy handed operation) := by
  cases operation with
  | find name =>
      refine h.hand fun id hid => ?_
      exact Registry.lt_size_of_find? (Option.mem_toList.1 hid)
  | enter name => exact h.intern name {}
  | setReturnType id type => exact h.update id (returning type)
  | addVariable id slot => exact h.update id (.addVariable slot)
  | clear => exact Registry.accounted_empty

/-- So the table is accounted for however it was come to, and its index is
right. -/
theorem Reaches.accounted (h : Reaches functions index handed) :
    Registry.Accounted functions handed
      ∧ index = Registry.indexed functions := by
  induction h with
  | start => exact ⟨Registry.accounted_empty, rfl⟩
  | step operation _ _ ih =>
      obtain ⟨haccounted, rfl⟩ := ih
      exact ⟨accounted_perform haccounted operation,
        performIndexed_indexed _ operation⟩

/-- Nothing but emptying the table takes anything away. -/
theorem keeps_perform (functions : FunctionTable) {operation : Operation}
    (h : operation ≠ .clear) :
    Registry.Keeps functions (functions.perform operation) := by
  cases operation with
  | find name => exact Registry.Keeps.refl functions
  | enter name => exact Registry.keeps_intern functions name {}
  | setReturnType id type =>
      exact (Registry.Keeps.refl functions).update id (returning type)
  | addVariable id slot =>
      exact (Registry.Keeps.refl functions).update id (.addVariable slot)
  | clear => exact absurd rfl h

end FunctionTable

-- ======================================================== both of them

/-- After whatever was asked of the tables of classes and functions, names
and numbers in use go together one to one in both, every number that was
handed out has its entry, superclasses are classes of the table, and
nothing that is asked next takes a number, a name or the line of a
definition away, unless it empties the table. -/
theorem names_identify_entries {classes : ClassTable}
    {functions : FunctionTable}
    {classIndex : Registry.Indexed ClassInfo}
    {functionIndex : Registry.Indexed FunctionInfo}
    {classIds functionIds : List Nat}
    (hclasses : ClassTable.Reaches classes classIndex classIds)
    (hfunctions :
      FunctionTable.Reaches functions functionIndex functionIds) :
    (Registry.Identifies classes classIndex classIds
      ∧ (∀ id superId, classes.superOf? id = some superId →
          superId < classes.size)
      ∧ ∀ operation : ClassTable.Operation, operation ≠ .clear →
          classes.Keeps (classes.perform operation))
    ∧ Registry.Identifies functions functionIndex functionIds
      ∧ ∀ operation : FunctionTable.Operation, operation ≠ .clear →
          Registry.Keeps functions (functions.perform operation) := by
  obtain ⟨hsane, rfl⟩ := hclasses.sane
  obtain ⟨haccounted, rfl⟩ := hfunctions.accounted
  refine ⟨⟨hsane.accounted.identifies, hsane.closed, ?_⟩,
    haccounted.identifies, ?_⟩
  · intro operation h
    exact classes.keeps_perform h
  · intro operation h
    exact functions.keeps_perform h

/-- A class that is forgotten and two that are entered after it, one of
which is looked up, given a field and linked to the other; a function with
a variable. -/
theorem names_identify_entries_of_two_classes :
    ∃ (classes : ClassTable) (functions : FunctionTable)
      (classIndex : Registry.Indexed ClassInfo)
      (functionIndex : Registry.Indexed FunctionInfo)
      (classIds functionIds : List Nat),
      ClassTable.Reaches classes classIndex classIds
        ∧ FunctionTable.Reaches functions functionIndex functionIds
        ∧ classes.superOf? 0 = some 1
        ∧ classes.definedAt? "comp.prj.Base" = some 4
        ∧ Registry.Identifies classes classIndex classIds
        ∧ Registry.Identifies functions functionIndex functionIds := by
  have hforgotten := ClassTable.Reaches.step .clear
    (.step (.enter "comp.prj.Other") .start (by decide)) (by decide)
  have hentered := ClassTable.Reaches.step (.define "comp.prj.Base" 4)
    (.step (.enter "comp.prj.Class") hforgotten (by decide)) (by decide)
  have hfield := ClassTable.Reaches.step (.addField 0 ⟨"size", .number⟩)
    (.step (.find "comp.prj.Class") hentered (by decide)) (by decide)
  have hlinked := ClassTable.Reaches.step (.link 0 1) hfield (by decide)
  have hfunction := FunctionTable.Reaches.step
    (.addVariable 0 ⟨"count", .number⟩)
    (.step (.enter "work") .start (by decide)) (by decide)
  have hnames := names_identify_entries hlinked hfunction
  exact ⟨_, _, _, _, _, _, hlinked, hfunction, by decide, by decide,
    hnames.1.1, hnames.2.1⟩

end ScriptLint
