/-
The order of types. Which types cast to which is put together from four
rules: null goes almost anywhere, objects go to the general object type
and along superclasses, and a few simple values go to Boolean
(`KindOf`). On the types that names stand for, these make a partial
order, for two reasons. The look for an ancestor finds all there are
(`Sound.inherits_iff`), since there are no circles and the look is long
enough; and nothing lies above the general object type, since links join
only classes named like classes, which `Object` is not.

# The argument

- `KindOf` is the relation by its rules, `isKind` the function that decides
  it; they agree on sound tables (`KindOf.isKind`, `KindOf.of_casts`).
- Transitivity is by cases on the rules. Nothing but the object type lies
  above it, and ancestors of ancestors are ancestors.
- Null, void, Boolean and the object type have little above or below them
  (`KindOf.eq_null`, `KindOf.eq_void`, `KindOf.eq_boolean`,
  `KindOf.eq_object`). So antisymmetry comes down to two classes, each
  above the other, which a table without circles does not have
  (`Descends.antisymm`).
-/
import ScriptLint.Proofs.Classes

namespace ScriptLint

namespace ValueType

/-- The name of the type that a name stands for is that name. -/
@[simp] theorem name_ofName (name : String) : (ofName name).name = name := by
  unfold ofName
  split <;> rfl

/-- A type that a name stands for. There is also a class type with the
name of each built-in type, for which no name stands. -/
def IsNamed (type : ValueType) : Prop := ofName type.name = type

theorem isNamed_ofName (name : String) : (ofName name).IsNamed :=
  congrArg ofName (name_ofName name)

/-- The types that names stand for are told apart by their names. -/
theorem IsNamed.eq_of_name_eq {source target : ValueType}
    (hsource : source.IsNamed) (htarget : target.IsNamed)
    (h : source.name = target.name) : source = target := by
  rw [← hsource, h, htarget]

end ValueType

namespace ClassTable

variable {classes : ClassTable}

-- ========================================================= descendants

/-- A class is another one or comes to it from superclass to
superclass. -/
abbrev Descends (classes : ClassTable) : Nat → Nat → Prop :=
  Relation.ReflTransGen fun id superId => classes.superOf? id = some superId

theorem descends_iff {id goal : Nat} :
    classes.Descends id goal ↔ ∃ n, classes.ancestor? n id = some goal := by
  constructor
  · intro h
    induction h using Relation.ReflTransGen.head_induction_on with
    | refl => exact ⟨0, rfl⟩
    | head hsuper _ ih =>
        obtain ⟨n, hn⟩ := ih
        exact ⟨n + 1, by rw [ancestor?, hsuper]; exact hn⟩
  · intro h
    obtain ⟨n, hn⟩ := h
    induction n generalizing id with
    | zero =>
        obtain rfl := Option.some.inj hn
        exact .refl
    | succ n ih =>
        obtain ⟨next, hnext, hrest⟩ := Option.bind_eq_some_iff.1 hn
        exact .head hnext (ih hrest)

/-- Without circles, two classes that descend from each other are one. -/
theorem Descends.antisymm (h : classes.Acyclic) {id goal : Nat}
    (hto : classes.Descends id goal) (hfrom : classes.Descends goal id) :
    id = goal := by
  obtain ⟨m, hm⟩ := descends_iff.1 hto
  obtain ⟨n, hn⟩ := descends_iff.1 hfrom
  have hround : classes.ancestor? (m + n) id = some id := by
    rw [ancestor?_add, hm]
    exact hn
  rcases Nat.eq_zero_or_pos m with rfl | hpos
  · exact Option.some.inj hm
  · exact absurd hround (h.noCircle id (m + n) (by omega))

/-- With no more classes than the look visits, it finds every
ancestor. -/
theorem Sound.inherits_iff (h : classes.Sound)
    (hsize : classes.size ≤ maxDepth) {id goal : Nat} :
    classes.inherits id goal = true ↔ classes.Descends id goal := by
  rw [ClassTable.inherits_iff, descends_iff]
  constructor
  · intro hseen
    obtain ⟨n, -, hn⟩ := hseen
    exact ⟨n, hn⟩
  · intro hway
    obtain ⟨n, hn⟩ := hway
    refine ⟨n, ?_, hn⟩
    rcases Nat.lt_or_ge id classes.size with hlt | hge
    · exact Nat.lt_of_lt_of_le (steps_lt_size
        (acyclic_iff_grounded.2 (h.grounded hsize)) h.closed hlt hn) hsize
    · have hnone : classes.superOf? id = none := by
        rw [superOf?, Registry.get?_eq_none_iff.2 hge]
        rfl
      rw [eq_zero_of_ancestor? hnone hn]
      decide

-- =============================================================== kinds

/-- When one type is another or casts to it. -/
inductive KindOf (classes : ClassTable) : ValueType → ValueType → Prop where
  | refl (type : ValueType) : KindOf classes type type
  | null {target : ValueType} : target ≠ .void → KindOf classes .null target
  | object {source : ValueType} : source.isObject = true →
    KindOf classes source .object
  | descends {source target : ValueType} {id ancestor : Nat} :
    source.isObject = true → target.isObject = true →
    classes.find? source.name = some id →
    classes.find? target.name = some ancestor →
    classes.Descends id ancestor → KindOf classes source target
  | boolean {source : ValueType} :
    source = .undefined ∨ source = .string ∨ source = .number →
    KindOf classes source .boolean

theorem KindOf.of_casts (h : classes.Sound)
    (hsize : classes.size ≤ maxDepth) {source target : ValueType}
    (hcasts : classes.casts source target = true) :
    classes.KindOf source target := by
  unfold casts at hcasts
  split at hcasts
  · next hnull =>
    subst hnull
    exact .null (by simpa using hcasts)
  split at hcasts
  · next hsame =>
    subst hsame
    exact .refl _
  split at hcasts
  · next hobjects =>
    obtain ⟨hsource, htarget⟩ := Bool.and_eq_true_iff.1 hobjects
    split at hcasts
    · next hobject =>
      subst hobject
      exact .object hsource
    · split at hcasts
      · next hid hancestor =>
        exact .descends hsource htarget hid hancestor
          ((h.inherits_iff hsize).1 hcasts)
      · cases hcasts
  · simp only [Bool.and_eq_true, Bool.or_eq_true, decide_eq_true_eq,
      or_assoc] at hcasts
    obtain ⟨rfl, hsource⟩ := hcasts
    exact .boolean hsource

theorem KindOf.isKind (h : classes.Sound) (hsize : classes.size ≤ maxDepth)
    {source target : ValueType} (hkind : classes.KindOf source target) :
    classes.isKind source target = true := by
  cases hkind with
  | refl => simp [ClassTable.isKind]
  | null htarget => simp [ClassTable.isKind, casts, htarget]
  | object hsource =>
      cases source <;> simp_all [ClassTable.isKind, casts, ValueType.isObject]
  | descends hsource htarget hid hancestor hway =>
      have hseen := (h.inherits_iff hsize).2 hway
      have hnull : source ≠ .null := by
        rintro rfl
        cases hsource
      simp [ClassTable.isKind, casts, hsource, htarget, hid, hancestor,
        hseen, hnull]
  | boolean hsource =>
      rcases hsource with rfl | rfl | rfl <;> rfl

/-- The check of types follows the rules. -/
theorem Sound.isKind_iff (h : classes.Sound)
    (hsize : classes.size ≤ maxDepth) {source target : ValueType} :
    classes.isKind source target = true
      ↔ classes.KindOf source target := by
  refine ⟨fun hkind => ?_, fun hkind => hkind.isKind h hsize⟩
  rcases Bool.or_eq_true_iff.1 hkind with hsame | hcasts
  · obtain rfl := of_decide_eq_true hsame
    exact .refl _
  · exact .of_casts h hsize hcasts

-- =============================================================== order

section

variable {s t u : ValueType}

/-- The class called `Object`, should there be one, has no
superclass. -/
theorem Sound.superOf?_object (h : classes.Sound) {id : Nat}
    (hid : classes.find? ValueType.object.name = some id) :
    classes.superOf? id = none := by
  refine Option.eq_none_iff_forall_ne_some.2 fun superId hsuper => ?_
  have hname := (h.named id superId hsuper).1
  rw [Registry.nameOf_of_find? hid] at hname
  exact absurd hname (by decide +kernel)

/-- Nothing lies above the general object type. -/
theorem KindOf.eq_object (h : classes.Sound) (ht : t.IsNamed)
    (hkind : classes.KindOf .object t) : t = .object := by
  cases hkind with
  | refl => rfl
  | object _ => rfl
  | descends _ _ hid hancestor hway =>
      rcases hway.cases_head with rfl | ⟨next, hnext, -⟩
      · have hname := Registry.find?_inj hancestor hid
        exact ht.eq_of_name_eq rfl hname
      · rw [h.superOf?_object hid] at hnext
        cases hnext
  | boolean hsource => rcases hsource with hsource | hsource | hsource <;>
      cases hsource

theorem KindOf.eq_null (hkind : classes.KindOf s .null) : s = .null := by
  cases hkind with
  | refl => rfl
  | null _ => rfl
  | descends _ htarget _ _ _ => cases htarget

theorem KindOf.eq_void (hkind : classes.KindOf s .void) : s = .void := by
  cases hkind with
  | refl => rfl
  | null hvoid => exact absurd rfl hvoid
  | descends _ htarget _ _ _ => cases htarget

theorem KindOf.eq_boolean (hkind : classes.KindOf .boolean t) :
    t = .boolean := by
  cases hkind with
  | refl => rfl
  | object hsource => cases hsource
  | descends hsource _ _ _ _ => cases hsource
  | boolean _ => rfl

theorem kindOf_null : classes.KindOf .null t ↔ t ≠ .void := by
  refine ⟨?_, .null⟩
  rintro hkind rfl
  cases hkind.eq_void

theorem KindOf.trans (h : classes.Sound) (hu : u.IsNamed)
    (hst : classes.KindOf s t) (htu : classes.KindOf t u) :
    classes.KindOf s u := by
  cases hst with
  | refl => exact htu
  | null hvoid =>
      refine .null ?_
      rintro rfl
      exact hvoid htu.eq_void
  | object hs =>
      obtain rfl := htu.eq_object h hu
      exact .object hs
  | boolean hs =>
      obtain rfl := htu.eq_boolean
      exact .boolean hs
  | descends hs ht hid hancestor hway =>
      cases htu with
      | refl => exact .descends hs ht hid hancestor hway
      | null _ => cases ht
      | object _ => exact .object hs
      | boolean hsource => rcases hsource with rfl | rfl | rfl <;> cases ht
      | descends _ hu hid' hancestor' hway' =>
          obtain rfl := Option.some.inj (hid'.symm.trans hancestor)
          exact .descends hs hu hid hancestor' (hway.trans hway')

theorem KindOf.antisymm (h : classes.Sound)
    (hsize : classes.size ≤ maxDepth) (hs : s.IsNamed) (ht : t.IsNamed)
    (hst : classes.KindOf s t) (hts : classes.KindOf t s) : s = t := by
  cases hst with
  | refl => rfl
  | null _ => exact hts.eq_null.symm
  | object _ => exact hts.eq_object h hs
  | boolean _ => exact hts.eq_boolean
  | descends hsource htarget hid hancestor hway =>
      cases hts with
      | refl => rfl
      | null _ => cases htarget
      | object _ => exact (KindOf.eq_object h ht
          (.descends hsource htarget hid hancestor hway)).symm
      | boolean hsource' => cases hsource
      | descends _ _ hid' hancestor' hback =>
          obtain rfl := Option.some.inj (hid'.symm.trans hancestor)
          obtain rfl := Option.some.inj (hancestor'.symm.trans hid)
          have hacyclic := acyclic_iff_grounded.2 (h.grounded hsize)
          obtain rfl := hway.antisymm hacyclic hback
          exact hs.eq_of_name_eq ht (Registry.find?_inj hid hancestor)

end

end ClassTable

-- ============================================================ sessions

namespace Session

/-- At every point of a check, also on the way through a node
(`Becomes`), with no more classes than the look for ancestors visits: the
look finds exactly the classes that a class descends from, and the types
that names stand for are partially ordered, null below all of them but
void, and nothing else below null or void. -/
theorem isKind_partialOrder {session : Session} {file text : String}
    {model : Model} {classes : ClassTable}
    (h : session.Reaches file text model)
    (hsteps : model.classes.Becomes classes)
    (hsize : classes.size ≤ ClassTable.maxDepth) :
    (∀ id goal, classes.inherits id goal = true ↔ classes.Descends id goal)
      ∧ let kind a b := classes.isKind (.ofName a) (.ofName b) = true
        (∀ a, kind a a)
          ∧ (∀ a b c, kind a b → kind b c → kind a c)
          ∧ (∀ a b, kind a b → kind b a →
            ValueType.ofName a = ValueType.ofName b)
          ∧ (∀ a, kind "Null" a ↔ ValueType.ofName a ≠ .void)
          ∧ (∀ a, kind a "Null" → ValueType.ofName a = .null)
          ∧ (∀ a, kind a "Void" → ValueType.ofName a = .void) := by
  have hsound := h.sound.becomes hsteps
  have hiff : ∀ {s t : ValueType}, classes.isKind s t = true
      ↔ classes.KindOf s t := hsound.isKind_iff hsize
  refine ⟨fun id goal => hsound.inherits_iff hsize, ?_⟩
  simp only [hiff]
  refine ⟨fun a => .refl _, fun a b c hab hbc => ?_, fun a b hab hba => ?_,
    fun a => ClassTable.kindOf_null, fun a => ClassTable.KindOf.eq_null,
    fun a => ClassTable.KindOf.eq_void⟩
  · exact hab.trans hsound (ValueType.isNamed_ofName c) hbc
  · exact hab.antisymm hsound hsize (ValueType.isNamed_ofName a)
      (ValueType.isNamed_ofName b) hba

/-- A class that extends another one, which therefore does not cast
back. -/
theorem isKind_partialOrder_extends : ∃ model,
    (start {}).Reaches "c.js"
      "p.B = \x7b\x7d; p.C = \x7b\x7d; $extends(p.C, p.B);" model
      ∧ model.classes.Becomes model.classes
      ∧ model.classes.size ≤ ClassTable.maxDepth
      ∧ model.classes.isKind (.ofName "p.C") (.ofName "p.B") = true
      ∧ model.classes.isKind (.ofName "p.B") (.ofName "p.C") = false := by
  have hrun : ∃ model, (start {}).Reaches "c.js"
      "p.B = \x7b\x7d; p.C = \x7b\x7d; $extends(p.C, p.B);" model
      ∧ model.classes.size ≤ ClassTable.maxDepth
      ∧ model.classes.isKind (.ofName "p.C") (.ofName "p.B") = true :=
    ⟨_, reaches_check (start {}) _ _, by decide +kernel⟩
  obtain ⟨model, hreach, hsize, hcast⟩ := hrun
  obtain ⟨-, -, -, hantisymm, -⟩ := isKind_partialOrder hreach .refl hsize
  refine ⟨model, hreach, .refl, hsize, hcast,
    Bool.eq_false_iff.2 fun hback => ?_⟩
  exact absurd (hantisymm _ _ hcast hback) (by decide)

end Session

end ScriptLint
