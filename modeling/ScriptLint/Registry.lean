/-
Registries: entries known by a name and numbered in the order in which
they were first asked for. A name is looked up by its number or its
spelling, and asking for an unknown one registers it.
-/

namespace ScriptLint

/-- Named entries in the order of their registration. -/
structure Registry (α : Type) where
  entries : List (String × α) := []
  deriving Repr, DecidableEq

namespace Registry

variable {α : Type}

/-- How many entries there are. -/
def size (registry : Registry α) : Nat := registry.entries.length

/-- The number of the entry with a name. -/
def find? (registry : Registry α) (name : String) : Option Nat :=
  registry.entries.findIdx? (·.1 == name)

/-- The entry with a number. -/
def get? (registry : Registry α) (id : Nat) : Option α :=
  registry.entries[id]?.map (·.2)

/-- The name of the entry with a number; empty when there is none. -/
def nameOf (registry : Registry α) (id : Nat) : String :=
  registry.entries[id]?.elim "" (·.1)

/-- The number of the entry with a name, which is registered as `fresh`
if it is new. -/
def intern (registry : Registry α) (name : String) (fresh : α) :
    Nat × Registry α :=
  match registry.find? name with
  | some id => (id, registry)
  | none => (registry.size, ⟨registry.entries ++ [(name, fresh)]⟩)

/-- Changes the entry with a number; its name stays. -/
def update (registry : Registry α) (id : Nat) (f : α → α) : Registry α :=
  ⟨registry.entries.modify id fun (name, entry) => (name, f entry)⟩

-- ============================================================= lemmas

variable {registry : Registry α}

/-- A number is in use when it is below the size. -/
theorem get?_eq_none_iff {id : Nat} :
    registry.get? id = none ↔ registry.size ≤ id := by
  simp [get?, size]

theorem lt_size_of_get? {id : Nat} {entry : α}
    (h : registry.get? id = some entry) : id < registry.size := by
  rw [← Nat.not_le, ← get?_eq_none_iff, h]
  exact Option.some_ne_none entry

@[simp] theorem size_update (id : Nat) (f : α → α) :
    (registry.update id f).size = registry.size := by
  simp [update, size]

/-- Changing an entry changes no name. -/
theorem names_update (id : Nat) (f : α → α) :
    (registry.update id f).entries.map (·.1)
      = registry.entries.map (·.1) := by
  refine List.ext_getElem? fun i => ?_
  simp only [update, List.getElem?_map, List.getElem?_modify]
  cases registry.entries[i]? <;> split <;> rfl

/-- A name is unknown when no entry has it. -/
theorem find?_eq_none_iff {name : String} :
    registry.find? name = none
      ↔ name ∉ registry.entries.map (·.1) := by
  rw [find?, List.findIdx?_eq_none_iff]
  simp only [beq_eq_false_iff_ne, List.mem_map, not_exists, not_and]

theorem get?_update (id i : Nat) (f : α → α) :
    (registry.update id f).get? i
      = if id = i then (registry.get? i).map f else registry.get? i := by
  simp only [get?, update, List.getElem?_modify]
  cases registry.entries[i]? <;> split <;> rfl

/-- An unknown name is appended. -/
theorem intern_of_find?_eq_none {name : String} (fresh : α)
    (h : registry.find? name = none) :
    registry.intern name fresh
      = (registry.size, ⟨registry.entries ++ [(name, fresh)]⟩) := by
  simp only [intern, h]

/-- A known name changes nothing. -/
theorem intern_of_find?_eq_some {name : String} {id : Nat} (fresh : α)
    (h : registry.find? name = some id) :
    registry.intern name fresh = (id, registry) := by
  simp only [intern, h]

/-- Registering keeps every entry and adds at most a fresh one. -/
theorem get?_intern (registry : Registry α) (name : String) (fresh : α)
    (i : Nat) :
    (registry.intern name fresh).2.get? i = registry.get? i
      ∨ i = registry.size
        ∧ (registry.intern name fresh).2.get? i = some fresh := by
  cases h : registry.find? name with
  | some id => exact Or.inl (by rw [intern_of_find?_eq_some fresh h])
  | none =>
      rw [intern_of_find?_eq_none fresh h]
      simp only [get?, size]
      rcases Nat.lt_trichotomy i registry.entries.length with hi | rfl | hi
      · exact Or.inl (by rw [List.getElem?_append_left hi])
      · exact Or.inr (by simp)
      · refine Or.inl ?_
        rw [List.getElem?_eq_none (by simp; omega),
          List.getElem?_eq_none (by omega)]

/-- The entry that a name is looked up to has that name. -/
theorem nameOf_of_find? {name : String} {id : Nat}
    (h : registry.find? name = some id) : registry.nameOf id = name := by
  obtain ⟨hlt, hname, -⟩ := List.findIdx?_eq_some_iff_getElem.1 h
  rw [nameOf, List.getElem?_eq_getElem hlt]
  exact eq_of_beq hname

theorem lt_size_of_find? {name : String} {id : Nat}
    (h : registry.find? name = some id) : id < registry.size :=
  (List.findIdx?_eq_some_iff_getElem.1 h).1

/-- Names looked up to the same entry are the same. -/
theorem find?_inj {a b : String} {id : Nat}
    (ha : registry.find? a = some id) (hb : registry.find? b = some id) :
    a = b :=
  (nameOf_of_find? ha).symm.trans (nameOf_of_find? hb)

/-- A name is registered under a number in use. -/
theorem lt_size_intern (registry : Registry α) (name : String) (fresh : α) :
    (registry.intern name fresh).1
      < (registry.intern name fresh).2.size := by
  cases hfind : registry.find? name with
  | some id =>
      rw [intern_of_find?_eq_some fresh hfind]
      exact lt_size_of_find? hfind
  | none =>
      rw [intern_of_find?_eq_none fresh hfind]
      simp [size]

/-- Numbers that are not in use have the empty name. -/
theorem lt_size_of_nameOf_ne {id : Nat} (h : registry.nameOf id ≠ "") :
    id < registry.size := by
  rw [size, ← Nat.not_le]
  intro hle
  exact h (by rw [nameOf, List.getElem?_eq_none hle]; rfl)

@[simp] theorem nameOf_update (id i : Nat) (f : α → α) :
    (registry.update id f).nameOf i = registry.nameOf i := by
  simp only [nameOf, update, List.getElem?_modify]
  cases registry.entries[i]? <;> split <;> rfl

/-- Registering keeps the names of the entries. -/
theorem nameOf_intern {i : Nat} (h : i < registry.size) (name : String)
    (fresh : α) :
    (registry.intern name fresh).2.nameOf i = registry.nameOf i := by
  cases hfind : registry.find? name with
  | some id => rw [intern_of_find?_eq_some fresh hfind]
  | none =>
      rw [intern_of_find?_eq_none fresh hfind]
      simp only [nameOf, List.getElem?_append_left h]

/-- What a name is registered as has that name. -/
theorem nameOf_intern_self (registry : Registry α) (name : String)
    (fresh : α) :
    (registry.intern name fresh).2.nameOf (registry.intern name fresh).1
      = name := by
  cases hfind : registry.find? name with
  | some id =>
      rw [intern_of_find?_eq_some fresh hfind]
      exact nameOf_of_find? hfind
  | none =>
      rw [intern_of_find?_eq_none fresh hfind]
      simp [nameOf, size]

/-- What a name is registered as is what it is looked up to. -/
theorem find?_intern_self (registry : Registry α) (name : String)
    (fresh : α) :
    (registry.intern name fresh).2.find? name
      = some (registry.intern name fresh).1 := by
  cases h : registry.find? name with
  | some id => rw [intern_of_find?_eq_some fresh h, h]
  | none =>
      have hnone := h
      rw [intern_of_find?_eq_none fresh h]
      rw [find?] at hnone
      simp [find?, List.findIdx?_append, hnone, size]

/-- Looking a name up only reads names. -/
theorem find?_eq_findIdx? (registry : Registry α) (name : String) :
    registry.find? name
      = (registry.entries.map (·.1)).findIdx? (· == name) := by
  rw [find?, List.findIdx?_map]
  rfl

theorem find?_update (id : Nat) (f : α → α) (name : String) :
    (registry.update id f).find? name = registry.find? name := by
  rw [find?_eq_findIdx?, find?_eq_findIdx?, names_update]

theorem size_le_size_intern (registry : Registry α) (name : String)
    (fresh : α) :
    registry.size ≤ (registry.intern name fresh).2.size := by
  cases h : registry.find? name with
  | some id =>
      simp only [intern_of_find?_eq_some fresh h, Nat.le_refl]
  | none =>
      rw [intern_of_find?_eq_none fresh h]
      simp [size]

end Registry

end ScriptLint
