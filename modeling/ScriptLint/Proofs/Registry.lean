/-
Registries as maps. What a name is looked up to does not depend on the
order of the entries or on their numbers, and registering a name or
changing an entry does to it what one expects of a map. A name is
registered once (`Unambiguous`), so the entries are what their names are
looked up to.
-/
import ScriptLint.Registry
import Mathlib.Data.List.Nodup

namespace ScriptLint.Registry

variable {α β : Type} {registry : Registry α} {name other : String} {id : Nat}

/-- The entry that a name is looked up to. -/
def lookUp? (registry : Registry α) (name : String) : Option α :=
  (registry.find? name).bind registry.get?

theorem lookUp?_of_find? (h : registry.find? name = some id) :
    registry.lookUp? name = registry.get? id := by
  rw [lookUp?, h, Option.bind_some]

theorem lookUp?_eq_none_iff :
    registry.lookUp? name = none ↔ registry.find? name = none := by
  cases h : registry.find? name with
  | none => simp [lookUp?, h]
  | some id =>
      have hlt := lt_size_of_find? h
      rw [lookUp?_of_find? h, get?_eq_none_iff]
      simp only [reduceCtorEq, iff_false]
      omega

/-- Registering a name makes an entry for it if there is none, and leaves
all other names alone. -/
theorem lookUp?_intern (registry : Registry α) (name other : String)
    (fresh : α) :
    (registry.intern name fresh).2.lookUp? other
      = if other = name then some ((registry.lookUp? name).getD fresh)
        else registry.lookUp? other := by
  cases h : registry.find? name with
  | some id =>
      rw [intern_of_find?_eq_some fresh h]
      split
      · rename_i heq
        have hsome : registry.lookUp? name ≠ none := by
          rw [Ne, lookUp?_eq_none_iff, h]
          exact Option.some_ne_none id
        obtain ⟨info, hinfo⟩ := Option.ne_none_iff_exists'.1 hsome
        rw [heq, hinfo, Option.getD_some]
      · rfl
  | none =>
      -- the fresh entry is put behind all others, whose places stay
      have hself := find?_intern_self registry name fresh
      rw [intern_of_find?_eq_none fresh h] at hself ⊢
      split
      · rename_i heq
        rw [heq, lookUp?_of_find? hself, lookUp?_eq_none_iff.2 h]
        simp [get?, size]
      · rename_i hne
        cases hother : registry.find? other with
        | none =>
            rw [lookUp?_eq_none_iff.2 hother, lookUp?_eq_none_iff,
              find?_eq_none_iff]
            rw [find?_eq_none_iff] at hother
            simp [hother, hne]
        | some id =>
            have hfind : Registry.find?
                ⟨registry.entries ++ [(name, fresh)]⟩ other = some id := by
              rw [find?] at hother ⊢
              rw [List.findIdx?_append, hother]
              rfl
            rw [lookUp?_of_find? hfind, lookUp?_of_find? hother, get?, get?,
              List.getElem?_append_left (lt_size_of_find? hother)]

/-- The entry that is registered under a name is what the name is looked
up to. -/
theorem get?_intern_self (registry : Registry α) (name : String)
    (fresh : α) :
    (registry.intern name fresh).2.get? (registry.intern name fresh).1
      = some ((registry.lookUp? name).getD fresh) := by
  rw [← lookUp?_of_find? (find?_intern_self registry name fresh),
    lookUp?_intern, if_pos rfl]

/-- Changing an entry changes it for its name alone. -/
theorem lookUp?_update_of_id (id : Nat) (f : α → α) (name : String) :
    (registry.update id f).lookUp? name
      = if registry.find? name = some id then (registry.lookUp? name).map f
        else registry.lookUp? name := by
  rw [lookUp?, find?_update]
  cases h : registry.find? name with
  | none => simp [lookUp?, h]
  | some i =>
      rw [Option.bind_some, get?_update, lookUp?_of_find? h]
      by_cases heq : id = i
      · rw [if_pos heq, if_pos (congrArg some heq.symm)]
      · rw [if_neg heq, if_neg fun hsame => heq (Option.some.inj hsame).symm]

/-- Changing the entry that a name is looked up to changes it for that
name alone. -/
theorem lookUp?_update (h : registry.find? name = some id) (f : α → α) :
    (registry.update id f).lookUp? other
      = if other = name then (registry.lookUp? other).map f
        else registry.lookUp? other := by
  rw [lookUp?_update_of_id]
  by_cases heq : other = name
  · rw [if_pos heq, if_pos (heq ▸ h)]
  · rw [if_neg heq, if_neg fun hother => heq (find?_inj hother h)]

-- ============================================================= reading

variable {read : α → Option β} {fresh : α} {f : α → α}

/-- Where a fresh entry has nothing to be read, registering a name does not
change what is read under any. -/
theorem bind_lookUp?_intern (registry : Registry α) (name other : String)
    (hfresh : read fresh = none) :
    ((registry.intern name fresh).2.lookUp? other).bind read
      = (registry.lookUp? other).bind read := by
  rw [lookUp?_intern]
  split
  · rename_i heq
    rw [heq]
    cases registry.lookUp? name with
    | none => exact hfresh
    | some entry => rfl
  · rfl

/-- A change that leaves alone what is read does not change it under any name.
-/
theorem bind_lookUp?_update (registry : Registry α) (id : Nat)
    (name : String) (hf : ∀ entry, read (f entry) = read entry) :
    ((registry.update id f).lookUp? name).bind read
      = (registry.lookUp? name).bind read := by
  rw [lookUp?_update_of_id]
  split
  · cases registry.lookUp? name with
    | none => rfl
    | some entry => exact hf entry
  · rfl

-- ====================================================== distinct names

/-- No two entries have the same name. -/
def Unambiguous (registry : Registry α) : Prop :=
  (registry.entries.map (·.1)).Nodup

theorem unambiguous_empty : Unambiguous ({} : Registry α) := List.nodup_nil

theorem Unambiguous.intern (h : registry.Unambiguous) (name : String)
    (fresh : α) : (registry.intern name fresh).2.Unambiguous := by
  cases hfind : registry.find? name with
  | some id =>
      rw [intern_of_find?_eq_some fresh hfind]
      exact h
  | none =>
      rw [intern_of_find?_eq_none fresh hfind, Unambiguous, List.map_append]
      exact List.Nodup.append h (List.nodup_singleton _)
        (List.disjoint_singleton.2 (find?_eq_none_iff.1 hfind))

theorem Unambiguous.update (h : registry.Unambiguous) (id : Nat)
    (f : α → α) : (registry.update id f).Unambiguous := by
  rw [Unambiguous, names_update]
  exact h

/-- The name of an entry is looked up to the entry. -/
theorem Unambiguous.find?_nameOf (h : registry.Unambiguous)
    (hid : id < registry.size) :
    registry.find? (registry.nameOf id) = some id := by
  have hlt : id < (registry.entries.map (·.1)).length := by
    rw [List.length_map]
    exact hid
  have hname : registry.nameOf id = (registry.entries.map (·.1))[id] := by
    rw [nameOf, List.getElem?_eq_getElem hid, List.getElem_map]
    rfl
  rw [find?_eq_findIdx?, hname, List.findIdx?_eq_some_iff_getElem]
  refine ⟨hlt, beq_self_eq_true _, fun j hj => ?_⟩
  rw [Bool.not_eq_true, beq_eq_false_iff_ne]
  intro heq
  exact absurd ((List.Nodup.getElem_inj_iff h).1 heq) (by omega)

theorem Unambiguous.lookUp?_nameOf (h : registry.Unambiguous)
    (hid : id < registry.size) :
    registry.lookUp? (registry.nameOf id) = registry.get? id :=
  lookUp?_of_find? (h.find?_nameOf hid)

theorem Unambiguous.nameOf_inj (h : registry.Unambiguous) {i j : Nat}
    (hi : i < registry.size) (hj : j < registry.size)
    (hname : registry.nameOf i = registry.nameOf j) : i = j := by
  have hfind := h.find?_nameOf hi
  rw [hname, h.find?_nameOf hj] at hfind
  exact (Option.some.inj hfind).symm

/-- The entries are what their names are looked up to. -/
theorem Unambiguous.lookUp?_eq_some_iff (h : registry.Unambiguous)
    {entry : α} :
    registry.lookUp? name = some entry
      ↔ (name, entry) ∈ registry.entries := by
  constructor
  · intro hentry
    obtain ⟨id, hid, hget⟩ := Option.bind_eq_some_iff.1 hentry
    have hlt := lt_size_of_find? hid
    rw [get?, List.getElem?_eq_getElem hlt] at hget
    have hname := nameOf_of_find? hid
    rw [nameOf, List.getElem?_eq_getElem hlt] at hname
    cases hget
    cases hname
    exact List.getElem_mem hlt
  · intro hmem
    obtain ⟨id, hlt, hget⟩ := List.getElem_of_mem hmem
    have hname : registry.nameOf id = name := by
      rw [nameOf, List.getElem?_eq_getElem hlt, hget]
      rfl
    rw [← hname, h.lookUp?_nameOf hlt, get?, List.getElem?_eq_getElem hlt,
      hget]
    rfl

end ScriptLint.Registry
