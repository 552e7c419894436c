/-
The order of paths. Components are ordered by rank and names among each
other by their bytes, so paths are ordered linearly by the components that
they mean: two of them stand level exactly if these are the same
(`Path.order_eq_eq_iff`). Sorted paths of which no two stand level are in
strictly increasing order, and there is only one such order
(`Path.pairwise_of_sorted`, `Path.eq_of_pairwise`).

# The argument

- Components compare by rank and then by name, a lexicographic order whose
  parts are linear; so is the order of lists of components.
- Paths that differ in a component are ordered by the first one in which
  they do (`order_of_lt`), which is how directories sort above what is in
  them.
-/
import ScriptLint.Path

namespace ScriptLint

open Std

-- ============================================================ raw texts

instance : TransOrd RawText :=
  inferInstanceAs (TransCmp (compareOn RawText.bytes))

instance : LawfulEqOrd RawText where
  eq_of_compare {a _} h :=
    congrArg RawText.mk (LawfulEqOrd.eq_of_compare (a := a.bytes) h)

namespace Path

-- ========================================================= components

/-- The bytes of a name; no other component has any. -/
def Component.label : Component → List UInt8
  | .name text => text.bytes
  | _ => []

theorem Component.eq_of_rank_eq {a b : Component} (hrank : a.rank = b.rank)
    (hlabel : a.label = b.label) : a = b := by
  cases a <;> cases b <;> cases hrank
  case name.name => exact congrArg (name ⟨·⟩) hlabel
  all_goals rfl

theorem Component.order_eq :
    Component.order = compareLex (compareOn rank) (compareOn label) := by
  funext a b
  cases a <;> cases b <;> rfl

instance : TransCmp Component.order := by
  rw [Component.order_eq]
  infer_instance

instance : LawfulEqCmp Component.order where
  compare_self := ReflCmp.compare_self
  eq_of_compare h := by
    rw [Component.order_eq, compareLex_eq_eq] at h
    exact Component.eq_of_rank_eq (LawfulEqOrd.eq_of_compare h.1)
      (LawfulEqOrd.eq_of_compare h.2)

-- =============================================================== paths

variable {a b c : Path}

/-- Lists of components are compared as `order` does it. -/
abbrev orderOfComponents : List Component → List Component → Ordering :=
  List.compareLex Component.order

instance : TransCmp order where
  eq_swap :=
    have h : OrientedCmp orderOfComponents := inferInstance
    h.eq_swap
  isLE_trans :=
    have h : TransCmp orderOfComponents := inferInstance
    h.isLE_trans

theorem order_swap (a b : Path) : order a b = (order b a).swap :=
  OrientedCmp.eq_swap

theorem order_eq_eq_iff : order a b = .eq ↔ a.components = b.components := by
  show orderOfComponents a.components b.components = .eq ↔ _
  exact LawfulEqCmp.compare_eq_iff_eq

/-- What is ahead of two paths does not matter to their order. -/
theorem compareLex_append (front as bs : List Component) :
    List.compareLex Component.order (front ++ as) (front ++ bs)
      = List.compareLex Component.order as bs := by
  induction front with
  | nil => rfl
  | cons component front ih =>
      have hself : component.order component = .eq := ReflCmp.compare_self
      rw [List.cons_append, List.cons_append, List.compareLex_cons_cons,
        hself, ih]
      rfl

/-- Paths are in the order of the first names in which they differ. -/
theorem order_of_lt {front as bs : List Component} {name other : RawText}
    (hlt : compare name other = .lt)
    (ha : a.components = front ++ .name name :: as)
    (hb : b.components = front ++ .name other :: bs) :
    order a b = .lt := by
  have hnames : Component.order (.name name) (.name other) = .lt := hlt
  rw [order, ha, hb, compareLex_append, List.compareLex_cons_cons, hnames]
  rfl

-- ============================================================= sorting

theorem precedes_trans (hab : a.precedes b = true)
    (hbc : b.precedes c = true) : a.precedes c = true :=
  TransCmp.isLE_trans hab hbc

theorem precedes_total (a b : Path) :
    (a.precedes b || b.precedes a) = true := by
  unfold precedes
  rw [order_swap b a]
  cases order a b <;> rfl

/-- In a sorted list in which no two paths stand level, each comes before
those behind it. -/
theorem pairwise_of_sorted {α : Type} {path : α → Path} {xs : List α}
    (hsorted : xs.Pairwise fun x y => (path x).precedes (path y) = true)
    (hne : xs.Pairwise fun x y => order (path x) (path y) ≠ .eq) :
    xs.Pairwise fun x y => order (path x) (path y) = .lt := by
  refine (hsorted.and hne).imp fun {x y} h => ?_
  unfold precedes at h
  cases horder : order (path x) (path y) <;> simp_all

/-- There is one way only to list things in the order of their paths. -/
theorem eq_of_pairwise {α : Type} {path : α → Path} {xs ys : List α}
    (hperm : xs.Perm ys)
    (hxs : xs.Pairwise fun x y => order (path x) (path y) = .lt)
    (hys : ys.Pairwise fun x y => order (path x) (path y) = .lt) :
    xs = ys := by
  refine hperm.eq_of_pairwise (fun x y _ _ hxy hyx => ?_) hxs hys
  rw [order_swap, hyx] at hxy
  cases hxy

end Path

end ScriptLint
