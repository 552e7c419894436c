/-
Superclasses as a graph. A table is acyclic when every walk from class
to superclass ends and never comes back to where it began. Linking looks
for a circle before it closes one, but its look ends after a fixed number
of classes, so the table stays acyclic exactly as long as no request
links a class to one of its own descendants that lies further down than
that look reaches (`acyclic_run_iff`).

The walk itself is `ancestor?`, counted in steps; the look is the same
walk cut off (`inherits_iff`). A step of a run either leaves every
superclass alone or gives one to a single class that had none, which is
all that the proofs below need to know about requests.

The counterexample is a tower of classes, each above the one before, that
is one storey higher than the look reaches. It is described by what is
asked of it (`IsTower`) and built up by induction, so that nothing has to
be computed about hundreds of classes.
-/
import ScriptLint.ClassTable
import Mathlib.Data.Finset.Card

namespace ScriptLint.ClassTable

variable {classes later : ClassTable}

-- =============================================================== walks

/-- The class a number of superclasses above a class. -/
def ancestor? (classes : ClassTable) : Nat → Nat → Option Nat
  | 0, id => some id
  | steps + 1, id => (classes.superOf? id).bind (classes.ancestor? steps)

/-- A walk can be taken in two parts. -/
theorem ancestor?_add (m n id : Nat) :
    classes.ancestor? (m + n) id
      = (classes.ancestor? m id).bind (classes.ancestor? n) := by
  induction m generalizing id with
  | zero => simp [ancestor?]
  | succ m ih =>
      rw [Nat.succ_add, ancestor?, ancestor?]
      cases classes.superOf? id with
      | none => rfl
      | some next => exact ih next

/-- A walk that has run out stays so. -/
theorem ancestor?_eq_none_of_le {m n id : Nat} (hmn : m ≤ n)
    (h : classes.ancestor? m id = none) : classes.ancestor? n id = none := by
  obtain ⟨k, rfl⟩ := Nat.exists_eq_add_of_le hmn
  rw [ancestor?_add, h]
  rfl

/-- What a walk reaches it also reaches in a table with more links. -/
theorem ancestor?_mono
    (hle : ∀ a b, classes.superOf? a = some b → later.superOf? a = some b)
    {n a b : Nat} (h : classes.ancestor? n a = some b) :
    later.ancestor? n a = some b := by
  induction n generalizing a with
  | zero => exact h
  | succ n ih =>
      obtain ⟨next, hnext, hrest⟩ := Option.bind_eq_some_iff.1 h
      rw [ancestor?, hle _ _ hnext]
      exact ih hrest

/-- The look for an ancestor is a walk of fewer steps than it has. -/
theorem reaches_iff {goal steps id : Nat} :
    classes.reaches goal steps (some id) = true
      ↔ ∃ n < steps, classes.ancestor? n id = some goal := by
  induction steps generalizing id with
  | zero => simp [reaches]
  | succ steps ih =>
      rw [reaches, Bool.or_eq_true, beq_iff_eq]
      constructor
      · rintro (rfl | h)
        · exact ⟨0, Nat.succ_pos _, rfl⟩
        · cases hs : classes.superOf? id with
          | none => cases steps <;> simp [hs, reaches] at h
          | some next =>
              rw [hs] at h
              obtain ⟨n, hn, hgoal⟩ := ih.1 h
              exact ⟨n + 1, Nat.succ_lt_succ hn, by rwa [ancestor?, hs]⟩
      · intro h
        obtain ⟨n, hn, hgoal⟩ := h
        cases n with
        | zero => exact Or.inl (Option.some.inj hgoal)
        | succ n =>
            obtain ⟨next, hnext, hrest⟩ := Option.bind_eq_some_iff.1 hgoal
            rw [hnext]
            exact Or.inr (ih.2 ⟨n, Nat.lt_of_succ_lt_succ hn, hrest⟩)

/-- A class is seen to descend from another when that is fewer steps away
than the look is long. -/
theorem inherits_iff {id goal : Nat} :
    classes.inherits id goal = true
      ↔ ∃ n < maxDepth, classes.ancestor? n id = some goal :=
  reaches_iff

-- ============================================================= circles

/-- From every class the walk along superclasses ends, and no class is
its own proper ancestor. -/
structure Acyclic (classes : ClassTable) : Prop where
  ends (id : Nat) : ∃ steps top,
    classes.ancestor? steps id = some top ∧ classes.superOf? top = none
  noCircle (id steps : Nat) : 0 < steps →
    classes.ancestor? steps id ≠ some id

/-- Every walk runs out. -/
def Grounded (classes : ClassTable) : Prop :=
  ∀ id, ∃ steps, classes.ancestor? steps id = none

/-- Once around a circle, any number of times around it. -/
theorem ancestor?_mul {id steps : Nat}
    (h : classes.ancestor? steps id = some id) (times : Nat) :
    classes.ancestor? (times * steps) id = some id := by
  induction times with
  | zero => simp [ancestor?]
  | succ times ih =>
      rw [Nat.succ_mul, ancestor?_add, ih]
      exact h

/-- Before a walk runs out it stands on a class without a superclass. -/
theorem exists_top_of_ancestor?_eq_none {steps id : Nat}
    (h : classes.ancestor? steps id = none) : ∃ n top,
      classes.ancestor? n id = some top ∧ classes.superOf? top = none := by
  induction steps generalizing id with
  | zero => cases h
  | succ steps ih =>
      cases hs : classes.superOf? id with
      | none => exact ⟨0, id, rfl, hs⟩
      | some next =>
          rw [ancestor?, hs] at h
          obtain ⟨n, top, hn, htop⟩ := ih h
          exact ⟨n + 1, top, by rwa [ancestor?, hs], htop⟩

/-- Where each class has one superclass at most, there is no cycle if and only
if all ways upwards end. -/
theorem acyclic_iff_grounded : classes.Acyclic ↔ classes.Grounded := by
  constructor
  · intro h id
    obtain ⟨n, top, hn, htop⟩ := h.ends id
    exact ⟨n + 1, by rw [ancestor?_add, hn]; simp [ancestor?, htop]⟩
  · intro h
    refine ⟨fun id => ?_, fun id steps hpos hcircle => ?_⟩
    · obtain ⟨steps, hs⟩ := h id
      exact exists_top_of_ancestor?_eq_none hs
    · obtain ⟨n, hn⟩ := h id
      have hround := ancestor?_mul hcircle n
      have hle : n ≤ n * steps := Nat.le_mul_of_pos_right n hpos
      rw [ancestor?_eq_none_of_le hle hn] at hround
      cases hround

-- ============================================================ requests

/-- What may be asked of a table: the number of a class, entered if it is
new; its definition; a superclass for it. -/
inductive Request where
  | enter (name : String)
  | define (name : String) (line : Nat)
  | link (id superId : Nat)
  deriving Repr, DecidableEq

/-- The table behind a request. -/
def apply (classes : ClassTable) : Request → ClassTable
  | .enter name => (classes.enter name).2
  | .define name line => (classes.define name line).2
  | .link id superId => (classes.link id superId).2

/-- Requests name classes by the numbers that the table gave them. -/
def Known (classes : ClassTable) : Request → Prop
  | .link id superId => id < classes.size ∧ superId < classes.size
  | _ => True

instance (request : Request) : Decidable (classes.Known request) :=
  match request with
  | .link id superId =>
    inferInstanceAs (Decidable (id < classes.size ∧ superId < classes.size))
  | .enter _ | .define _ _ => isTrue trivial

/-- The table behind several requests. -/
def run (classes : ClassTable) (requests : List Request) : ClassTable :=
  requests.foldl apply classes

/-- Every request of a run names only classes known by then. -/
def AllKnown : ClassTable → List Request → Prop
  | _, [] => True
  | classes, request :: requests =>
    classes.Known request ∧ AllKnown (classes.apply request) requests

instance decidableAllKnown (classes : ClassTable) :
    (requests : List Request) → Decidable (classes.AllKnown requests)
  | [] => isTrue trivial
  | request :: requests =>
    have := decidableAllKnown (classes.apply request) requests
    inferInstanceAs (Decidable
      (classes.Known request ∧ (classes.apply request).AllKnown requests))

/-- A class that is entered has no superclass. -/
theorem superOf?_enter (name : String) (id : Nat) :
    (classes.enter name).2.superOf? id = classes.superOf? id := by
  unfold superOf? enter
  rcases classes.get?_intern name {} id with h | ⟨rfl, h⟩
  · rw [h]
  · rw [h, Registry.get?_eq_none_iff.2 (Nat.le_refl _)]
    rfl

/-- A definition gives none. -/
theorem superOf?_define (name : String) (line id : Nat) :
    (classes.define name line).2.superOf? id = classes.superOf? id := by
  refine Eq.trans ?_ (superOf?_enter name id)
  simp only [define, superOf?, Registry.get?_update]
  split
  · cases (classes.enter name).2.get? id <;> rfl
  · rfl

/-- Whether a request to link is granted. -/
def Grants (classes : ClassTable) (id superId : Nat) : Prop :=
  classes.superOf? id = none ∧ classes.inherits superId id = false

/-- A link that is granted is made. -/
theorem link_of_grants {id superId : Nat} (h : classes.Grants id superId) :
    classes.link id superId
      = (.linked, classes.update id fun info =>
          { info with superClass := some superId }) := by
  simp only [link, h.1, h.2]
  rfl

/-- One that is not granted changes nothing. -/
theorem link_of_not_grants {id superId : Nat}
    (h : ¬ classes.Grants id superId) :
    (classes.link id superId).2 = classes := by
  unfold link
  split
  · split <;> rfl
  · next hs =>
    split
    · rfl
    · next hi => exact absurd ⟨hs, by simpa using hi⟩ h

/-- A class that has a superclass gets no other. -/
theorem not_grants_of_alreadySet {id superId existing : Nat}
    (h : (classes.link id superId).1 = .alreadySet existing) :
    ¬ classes.Grants id superId := by
  intro hgrants
  rw [link_of_grants hgrants] at h
  cases h

/-- The superclass that a class is said to have already is the one that it
has. -/
theorem superOf?_of_alreadySet {id superId existing : Nat}
    (h : (classes.link id superId).1 = .alreadySet existing) :
    classes.superOf? id = some existing := by
  unfold link at h
  split at h
  · next found hfound =>
    split at h
    · cases h
    · cases h
      exact hfound
  · split at h <;> cases h

/-- A granted link gives the class its superclass and changes nothing
else. -/
theorem superOf?_link {id superId : Nat} (hid : id < classes.size)
    (h : classes.Grants id superId) (a : Nat) :
    (classes.link id superId).2.superOf? a
      = if id = a then some superId else classes.superOf? a := by
  rw [link_of_grants h]
  simp only [superOf?, Registry.get?_update]
  split
  · next ha =>
    subst ha
    cases hg : classes.get? id with
    | none => exact absurd (Registry.get?_eq_none_iff.1 hg) (by omega)
    | some info => rfl
  · rfl

/-- What a request can do to the superclasses: nothing, or give one to a
class that has none and that the look does not find above it. -/
theorem superOf?_apply {request : Request} (h : classes.Known request) :
    (∀ a, (classes.apply request).superOf? a = classes.superOf? a)
      ∨ ∃ id superId, request = .link id superId
        ∧ superId < classes.size ∧ classes.Grants id superId
        ∧ ∀ a, (classes.apply request).superOf? a
          = if id = a then some superId else classes.superOf? a := by
  cases request with
  | enter name => exact Or.inl fun a => superOf?_enter name a
  | define name line => exact Or.inl fun a => superOf?_define name line a
  | link id superId =>
      by_cases hg : classes.Grants id superId
      · exact Or.inr ⟨id, superId, rfl, h.2, hg, superOf?_link h.1 hg⟩
      · refine Or.inl fun a => ?_
        rw [apply, link_of_not_grants hg]

/-- No request takes a superclass away. -/
theorem superOf?_apply_mono {request : Request} (h : classes.Known request)
    {a b : Nat} (hab : classes.superOf? a = some b) :
    (classes.apply request).superOf? a = some b := by
  rcases superOf?_apply h with hsame | ⟨id, superId, -, -, hg, hlink⟩
  · rw [hsame, hab]
  · rw [hlink, if_neg]
    · exact hab
    · rintro rfl
      rw [hg.1] at hab
      cases hab

/-- Entries only come. -/
theorem size_le_size_apply (request : Request) :
    classes.size ≤ (classes.apply request).size := by
  cases request with
  | enter name => exact classes.size_le_size_intern name {}
  | define name line =>
      rw [apply, define, Registry.size_update]
      exact classes.size_le_size_intern name {}
  | link id superId =>
      by_cases hg : classes.Grants id superId
      · rw [apply, link_of_grants hg, Registry.size_update]
      · rw [apply, link_of_not_grants hg]

-- ========================================================== invariants

/-- Superclasses are classes of the table. -/
def Closed (classes : ClassTable) : Prop :=
  ∀ a b, classes.superOf? a = some b → b < classes.size

/-- Superclasses stay entries. -/
theorem closed_apply {request : Request} (hk : classes.Known request)
    (h : classes.Closed) : (classes.apply request).Closed := by
  intro a b hab
  refine Nat.lt_of_lt_of_le ?_ (size_le_size_apply request)
  rcases superOf?_apply hk with hsame | ⟨id, superId, -, hlt, -, hlink⟩
  · exact h a b (by rw [← hsame, hab])
  · rw [hlink] at hab
    split at hab
    · cases hab
      exact hlt
    · exact h a b hab

/-- A request that closes a circle behind the back of the look: it links
a class without a superclass to a descendant of that class, but to one
so far down that the look from there does not come up to it. -/
def ClosesUnseen (classes : ClassTable) : Request → Prop
  | .link id superId => classes.superOf? id = none
      ∧ ∃ steps, maxDepth ≤ steps
        ∧ classes.ancestor? steps superId = some id
  | _ => False

/-- From a class without a superclass no step leads on. -/
theorem eq_zero_of_ancestor? {id steps goal : Nat}
    (hid : classes.superOf? id = none)
    (h : classes.ancestor? steps id = some goal) : steps = 0 := by
  cases steps with
  | zero => rfl
  | succ steps => simp [ancestor?, hid] at h

/-- A walk to a class without a superclass has one length only, so a look
that is too short for it fails. -/
theorem grants_of_closesUnseen {id superId : Nat}
    (h : classes.ClosesUnseen (.link id superId)) :
    classes.Grants id superId := by
  obtain ⟨hid, steps, hle, hsteps⟩ := h
  refine ⟨hid, Bool.eq_false_iff.2 fun hseen => ?_⟩
  obtain ⟨n, hn, hgoal⟩ := inherits_iff.1 hseen
  obtain ⟨k, rfl⟩ := Nat.exists_eq_add_of_lt (Nat.lt_of_lt_of_le hn hle)
  rw [Nat.add_assoc, ancestor?_add, hgoal] at hsteps
  cases eq_zero_of_ancestor? hid hsteps

/-- A link between two classes of which the second does not descend from
the first leaves every walk finite: a walk that comes to the first goes
on with the walk of the second, which never comes back. -/
theorem grounded_of_link {id superId : Nat} (h : classes.Grounded)
    (hapart : ∀ n, classes.ancestor? n superId ≠ some id)
    (hlink : ∀ a, later.superOf? a
      = if id = a then some superId else classes.superOf? a) :
    later.Grounded := by
  -- above the superclass nothing has changed, since the class is not found
  -- there
  have hsuper : ∀ n, later.ancestor? n superId
      = classes.ancestor? n superId := by
    intro n
    induction n with
    | zero => rfl
    | succ n ih =>
        rw [ancestor?_add, ancestor?_add, ih]
        cases hn : classes.ancestor? n superId with
        | none => rfl
        | some a =>
            have hne : id ≠ a := fun he => hapart n (by rw [hn, he])
            simp [ancestor?, hlink a, if_neg hne]
  -- any other way upwards ends as before, or comes to the class and goes on
  -- from its superclass
  have hall : ∀ steps a, classes.ancestor? steps a = none →
      ∃ n, later.ancestor? n a = none := by
    intro steps
    induction steps with
    | zero => intro a ha; cases ha
    | succ steps ih =>
        intro a ha
        by_cases he : id = a
        · obtain ⟨n, hn⟩ := h superId
          refine ⟨n + 1, ?_⟩
          rw [ancestor?, hlink, if_pos he]
          exact (hsuper n).trans hn
        · rw [ancestor?] at ha
          cases hs : classes.superOf? a with
          | none => exact ⟨1, by simp [ancestor?, hlink, if_neg he, hs]⟩
          | some next =>
              rw [hs] at ha
              obtain ⟨n, hn⟩ := ih next ha
              refine ⟨n + 1, ?_⟩
              rw [ancestor?, hlink, if_neg he, hs]
              exact hn
  intro a
  obtain ⟨steps, hsteps⟩ := h a
  exact hall steps a hsteps

/-- The step lemma: only a circle closed unseen makes a walk endless. -/
theorem grounded_apply {request : Request} (hk : classes.Known request)
    (h : classes.Grounded) (hseen : ¬ classes.ClosesUnseen request) :
    (classes.apply request).Grounded := by
  rcases superOf?_apply hk with hsame | ⟨id, superId, rfl, -, hg, hlink⟩
  · intro id
    obtain ⟨steps, hsteps⟩ := h id
    refine ⟨steps, Option.eq_none_iff_forall_ne_some.2 fun top htop => ?_⟩
    have := ancestor?_mono (fun a b hab => by rw [← hsame, hab]) htop
    rw [hsteps] at this
    cases this
  · refine grounded_of_link h (fun n hn => ?_) hlink
    rcases Nat.lt_or_ge n maxDepth with hlt | hge
    · have := inherits_iff.2 ⟨n, hlt, hn⟩
      rw [hg.2] at this
      cases this
    · exact hseen ⟨hg.1, n, hge, hn⟩

/-- A circle closed unseen is a circle. -/
theorem exists_circle_of_closesUnseen {request : Request}
    (hk : classes.Known request) (h : classes.ClosesUnseen request) :
    ∃ id steps, 0 < steps
      ∧ (classes.apply request).ancestor? steps id = some id := by
  cases request with
  | enter name => cases h
  | define name line => cases h
  | link id superId =>
      have hlink := superOf?_link hk.1 (grants_of_closesUnseen h)
      obtain ⟨-, steps, -, hsteps⟩ := h
      refine ⟨id, steps + 1, Nat.succ_pos _, ?_⟩
      rw [apply, ancestor?, hlink, if_pos rfl]
      exact ancestor?_mono (fun a b => superOf?_apply_mono hk) hsteps

/-- Circles stay. -/
theorem ancestor?_run {requests : List Request}
    (hk : classes.AllKnown requests) {n a b : Nat}
    (h : classes.ancestor? n a = some b) :
    (classes.run requests).ancestor? n a = some b := by
  induction requests generalizing classes with
  | nil => exact h
  | cons request requests ih =>
      exact ih hk.2
        (ancestor?_mono (fun a b => superOf?_apply_mono hk.1) h)

/-- Walks stay within the table. -/
theorem lt_size_of_ancestor? (hc : classes.Closed) {id steps a : Nat}
    (hid : id < classes.size) (h : classes.ancestor? steps id = some a) :
    a < classes.size := by
  induction steps generalizing id with
  | zero =>
      cases h
      exact hid
  | succ steps ih =>
      obtain ⟨next, hnext, hrest⟩ := Option.bind_eq_some_iff.1 h
      exact ih (hc id next hnext) hrest

/-- Without circles a walk visits a class at most once. -/
theorem ancestor?_inj (h : classes.Acyclic) {id i j a : Nat}
    (hi : classes.ancestor? i id = some a)
    (hj : classes.ancestor? j id = some a) : i = j := by
  have hlt : ∀ {m n : Nat}, m < n → classes.ancestor? m id = some a →
      classes.ancestor? n id ≠ some a := by
    intro m n hmn hm hn
    obtain ⟨k, rfl⟩ := Nat.exists_eq_add_of_lt hmn
    rw [Nat.add_assoc, ancestor?_add, hm] at hn
    exact h.noCircle a (k + 1) (Nat.succ_pos k) hn
  rcases Nat.lt_trichotomy i j with hij | hij | hij
  · exact absurd hj (hlt hij hi)
  · exact hij
  · exact absurd hi (hlt hij hj)

/-- Without circles a walk has fewer steps than there are classes. -/
theorem steps_lt_size (h : classes.Acyclic) (hc : classes.Closed)
    {id steps top : Nat} (hid : id < classes.size)
    (hsteps : classes.ancestor? steps id = some top) :
    steps < classes.size := by
  let visit k := (classes.ancestor? k id).getD 0
  have hvisit : ∀ k ≤ steps, classes.ancestor? k id = some (visit k) := by
    intro k hk
    cases hs : classes.ancestor? k id with
    | some a => simp [visit, hs]
    | none =>
        rw [ancestor?_eq_none_of_le hk hs] at hsteps
        cases hsteps
  have hmaps : ∀ k ∈ Finset.range (steps + 1),
      visit k ∈ Finset.range classes.size := by
    intro k hk
    rw [Finset.mem_range] at hk ⊢
    exact lt_size_of_ancestor? hc hid (hvisit k (Nat.le_of_lt_succ hk))
  have hinj : Set.InjOn visit (Finset.range (steps + 1)) := by
    intro i hi j hj hij
    rw [Finset.mem_coe, Finset.mem_range] at hi hj
    have hj := hvisit j (Nat.le_of_lt_succ hj)
    rw [← hij] at hj
    exact ancestor?_inj h (hvisit i (Nat.le_of_lt_succ hi)) hj
  have hcard := Finset.card_le_card_of_injOn visit hmaps hinj
  rwa [Finset.card_range, Finset.card_range] at hcard

-- ================================================================ runs

/-- Requests are served one after the other. -/
theorem run_append (before after : List Request) :
    classes.run (before ++ after) = (classes.run before).run after :=
  List.foldl_append ..

/-- Each has to be about entries at its time. -/
theorem allKnown_append {before after : List Request} :
    classes.AllKnown (before ++ after)
      ↔ classes.AllKnown before ∧ (classes.run before).AllKnown after := by
  induction before generalizing classes with
  | nil => exact ⟨fun h => ⟨trivial, h⟩, And.right⟩
  | cons request before ih =>
      simp only [List.cons_append, AllKnown, ih, run, List.foldl_cons,
        and_assoc]

/-- No request of a run closes a circle unseen. -/
def NoneUnseen (classes : ClassTable) (requests : List Request) : Prop :=
  ∀ before request after, requests = before ++ request :: after →
    ¬ (classes.run before).ClosesUnseen request

/-- A cycle is closed by the first request or by a later one. -/
theorem noneUnseen_cons {request : Request} {requests : List Request} :
    classes.NoneUnseen (request :: requests)
      ↔ ¬ classes.ClosesUnseen request
        ∧ (classes.apply request).NoneUnseen requests := by
  constructor
  · intro h
    refine ⟨h [] request requests rfl, fun before next after he => ?_⟩
    exact h (request :: before) next after (by rw [he, List.cons_append])
  · rintro ⟨hfirst, hrest⟩ before next after he
    cases before with
    | nil =>
        cases he
        exact hfirst
    | cons head before =>
        obtain ⟨rfl, htail⟩ := List.cons.inj he
        exact hrest before next after htail

/-- What a run keeps, from what its requests keep. -/
theorem run_induction {requests : List Request}
    (hk : classes.AllKnown requests) (hg : classes.Grounded)
    (hc : classes.Closed) (hseen : classes.NoneUnseen requests) :
    (classes.run requests).Grounded ∧ (classes.run requests).Closed := by
  induction requests generalizing classes with
  | nil => exact ⟨hg, hc⟩
  | cons request requests ih =>
      obtain ⟨hfirst, hrest⟩ := noneUnseen_cons.1 hseen
      exact ih hk.2 (grounded_apply hk.1 hg hfirst)
        (closed_apply hk.1 hc) hrest

/-- Without classes every way upwards is at its end. -/
theorem grounded_empty : Grounded {} := fun _ => ⟨1, rfl⟩

/-- Without classes there is no superclass that is missing. -/
theorem closed_empty : Closed {} := by
  intro a b h
  cases h

/-- As long as there are no more classes than the look visits, it sees
every circle. -/
theorem not_closesUnseen_of_size_le {request : Request}
    (hk : classes.Known request) (hg : classes.Grounded)
    (hc : classes.Closed) (hsize : classes.size ≤ maxDepth) :
    ¬ classes.ClosesUnseen request := by
  cases request with
  | enter name => exact id
  | define name line => exact id
  | link id superId =>
      intro h
      obtain ⟨-, steps, hfar, hsteps⟩ := h
      have hlt := steps_lt_size (acyclic_iff_grounded.2 hg) hc hk.2 hsteps
      omega

/-- As long as there are no more classes than steps, the look sees all of
them. -/
theorem noneUnseen_of_size_le {requests : List Request}
    (hk : classes.AllKnown requests) (hg : classes.Grounded)
    (hc : classes.Closed) (hsize : (classes.run requests).size ≤ maxDepth) :
    classes.NoneUnseen requests := by
  induction requests generalizing classes with
  | nil =>
      intro before request after h
      simp at h
  | cons request requests ih =>
      have hle : ∀ (later : ClassTable) (rest : List Request),
          later.size ≤ (later.run rest).size := by
        intro later rest
        induction rest generalizing later with
        | nil => exact Nat.le_refl _
        | cons next rest ih =>
            exact Nat.le_trans (size_le_size_apply next) (ih _)
      have hfirst : ¬ classes.ClosesUnseen request :=
        not_closesUnseen_of_size_le hk.1 hg hc
          (Nat.le_trans (hle classes (request :: requests)) hsize)
      exact noneUnseen_cons.2 ⟨hfirst, ih hk.2
        (grounded_apply hk.1 hg hfirst) (closed_apply hk.1 hc) hsize⟩

/-- The superclass graph stays acyclic on a run from the empty table
exactly when none of its requests links a class that has no superclass
to one that lies `maxDepth` steps or more below it. With no more than
`maxDepth` classes there is no such request. -/
theorem acyclic_run_iff (requests : List Request)
    (hk : AllKnown {} requests) :
    ((run {} requests).Acyclic ↔ NoneUnseen {} requests)
      ∧ ((run {} requests).size ≤ maxDepth
        → (run {} requests).Acyclic) := by
  have hstays : NoneUnseen {} requests → (run {} requests).Acyclic := by
    intro h
    exact acyclic_iff_grounded.2
      (run_induction hk grounded_empty closed_empty h).1
  refine ⟨⟨fun h before request after he hunseen => ?_, hstays⟩, fun h => ?_⟩
  · subst he
    obtain ⟨-, hrequest, hafter⟩ := allKnown_append.1 hk
    obtain ⟨id, steps, hpos, hcircle⟩ :=
      exists_circle_of_closesUnseen hrequest hunseen
    refine h.noCircle id steps hpos ?_
    rw [run_append]
    exact ancestor?_run hafter hcircle
  · exact hstays (noneUnseen_of_size_le hk grounded_empty closed_empty h)

/-- A class linked to another, which is then asked to descend from the
first: the look sees that circle. -/
theorem acyclic_run_of_two_classes :
    AllKnown {} [.enter "A", .define "B" 3, .link 1 0, .link 0 1]
      ∧ (run {} [.enter "A", .define "B" 3, .link 1 0, .link 0 1]).size
        ≤ maxDepth
      ∧ (run {} [.enter "A", .define "B" 3, .link 1 0,
        .link 0 1]).Acyclic :=
  have hk : AllKnown {} [.enter "A", .define "B" 3, .link 1 0,
      .link 0 1] := by decide
  have hsize : (run {} [.enter "A", .define "B" 3, .link 1 0,
      .link 0 1]).size ≤ maxDepth := by decide
  ⟨hk, hsize, (acyclic_run_iff _ hk).2 hsize⟩

-- ============================================================== towers

/-- The name of a class of a tower; longer from storey to storey. -/
def storeyName (n : Nat) : String := String.ofList (List.replicate (n + 1) 'T')

/-- Different storeys have different names. -/
theorem storeyName_inj {m n : Nat} (h : storeyName m = storeyName n) :
    m = n := by
  have := congrArg (fun name => name.toList.length) h
  simpa [storeyName] using this

/-- The requests for classes that descend one from the other, the last
entered from the one before. -/
def tower : Nat → List Request
  | 0 => [.enter (storeyName 0)]
  | n + 1 => tower n ++ [.enter (storeyName (n + 1)), .link (n + 1) n]

/-- What a tower looks like when it stands. -/
structure IsTower (classes : ClassTable) (n : Nat) : Prop where
  closed : classes.Closed
  names : classes.entries.map (·.1) = (List.range (n + 1)).map storeyName
  superOf?_zero : classes.superOf? 0 = none
  superOf?_succ (k : Nat) : k < n → classes.superOf? (k + 1) = some k

/-- A tower has a storey more than its height says. -/
theorem IsTower.size_eq {n : Nat} (h : classes.IsTower n) :
    classes.size = n + 1 := by
  have := congrArg List.length h.names
  simpa [Registry.size] using this

/-- Going down a tower. -/
theorem IsTower.ancestor?_eq {n : Nat} (h : classes.IsTower n) (k : Nat) :
    ∀ a, k + a ≤ n → classes.ancestor? k (k + a) = some a := by
  induction k with
  | zero => intro a _; simp [ancestor?]
  | succ k ih =>
      intro a ha
      rw [Nat.succ_add, ancestor?, h.superOf?_succ (k + a) (by omega)]
      exact ih a (by omega)

/-- A tower with one more class, not linked yet. -/
def scaffold (classes : ClassTable) (n : Nat) : ClassTable :=
  classes.apply (.enter (storeyName (n + 1)))

/-- Another storey is entered on top of a tower, before it is linked. -/
theorem IsTower.scaffold_eq {n : Nat} (h : classes.IsTower n) :
    classes.scaffold n
      = ⟨classes.entries ++ [(storeyName (n + 1), ({} : ClassInfo))]⟩ := by
  have hnew : classes.find? (storeyName (n + 1)) = none := by
    rw [Registry.find?_eq_none_iff, h.names]
    simp only [List.mem_map, List.mem_range, not_exists, not_and]
    intro k hk he
    have := storeyName_inj he
    omega
  simp only [scaffold, apply, enter,
    Registry.intern_of_find?_eq_none _ hnew]

/-- A scaffold adds one entry to a tower. -/
theorem IsTower.size_scaffold {n : Nat} (h : classes.IsTower n) :
    (classes.scaffold n).size = n + 2 := by
  have hsize : classes.entries.length = n + 1 := h.size_eq
  rw [h.scaffold_eq]
  simp [Registry.size, hsize]

/-- The new storey has no superclass yet. -/
theorem superOf?_scaffold (n a : Nat) :
    (classes.scaffold n).superOf? a = classes.superOf? a :=
  superOf?_enter _ a

/-- The new class is not yet anyone's ancestor, so it may be linked to
the top. -/
theorem IsTower.grants {n : Nat} (h : classes.IsTower n) :
    (classes.scaffold n).Grants (n + 1) n := by
  constructor
  · have hnew := Registry.get?_eq_none_iff.2 (Nat.le_of_eq h.size_eq)
    rw [superOf?_scaffold, superOf?, hnew]
    rfl
  · refine Bool.eq_false_iff.2 fun hseen => ?_
    obtain ⟨steps, -, hsteps⟩ := inherits_iff.1 hseen
    have hold := ancestor?_mono
      (fun a b hab => by rwa [superOf?_scaffold] at hab) hsteps
    have hlt := lt_size_of_ancestor? h.closed
      (by rw [h.size_eq]; omega) hold
    rw [h.size_eq] at hlt
    omega

/-- One more storey. -/
theorem IsTower.raise {n : Nat} (h : classes.IsTower n) :
    classes.AllKnown [.enter (storeyName (n + 1)), .link (n + 1) n]
      ∧ (classes.run [.enter (storeyName (n + 1)),
        .link (n + 1) n]).IsTower (n + 1) := by
  have hknown : (classes.scaffold n).Known (.link (n + 1) n) := by
    rw [Known, h.size_scaffold]
    omega
  have hlink := superOf?_link hknown.1 h.grants
  have henter : classes.Known (.enter (storeyName (n + 1))) := trivial
  refine ⟨⟨henter, hknown, trivial⟩, ?_⟩
  show IsTower ((classes.scaffold n).link (n + 1) n).2 (n + 1)
  constructor
  · exact closed_apply hknown (closed_apply henter h.closed)
  · rw [link_of_grants h.grants, Registry.names_update, h.scaffold_eq,
      List.map_append, h.names, @List.range_succ (n + 1)]
    simp
  · rw [hlink, if_neg (by omega), superOf?_scaffold, h.superOf?_zero]
  · intro k hk
    rw [hlink]
    split
    · next he => exact congrArg some (by omega)
    · rw [superOf?_scaffold, h.superOf?_succ k (by omega)]

/-- Towers of any height can be built. -/
theorem isTower_run (n : Nat) :
    AllKnown {} (tower n) ∧ (run {} (tower n)).IsTower n := by
  induction n with
  | zero =>
      have hknown : Known {} (.enter (storeyName 0)) := trivial
      exact ⟨⟨hknown, trivial⟩, closed_apply hknown closed_empty, rfl, rfl,
        fun k hk => by omega⟩
  | succ n ih =>
      obtain ⟨hknown, htower⟩ := ih
      obtain ⟨hmore, hraised⟩ := htower.raise
      rw [tower, allKnown_append, run_append]
      exact ⟨⟨hknown, hmore⟩, hraised⟩

/-- From the top of a high tower the look does not come down to the
ground, so the ground can be linked to the top. -/
theorem not_acyclic_of_high_tower {n : Nat} (hn : maxDepth ≤ n) :
    AllKnown {} (tower n ++ [.link 0 n])
      ∧ ¬ (run {} (tower n ++ [.link 0 n])).Acyclic := by
  obtain ⟨hknown, htower⟩ := isTower_run n
  have hlink : (run {} (tower n)).Known (.link 0 n) := by
    rw [Known, htower.size_eq]
    omega
  have hunseen : (run {} (tower n)).ClosesUnseen (.link 0 n) :=
    ⟨htower.superOf?_zero, n, hn, htower.ancestor?_eq n 0 (Nat.le_refl n)⟩
  refine ⟨allKnown_append.2 ⟨hknown, hlink, trivial⟩, fun h => ?_⟩
  obtain ⟨id, steps, hpos, hcircle⟩ :=
    exists_circle_of_closesUnseen hlink hunseen
  rw [run_append] at h
  exact h.noCircle id steps hpos hcircle

/-- A circle through 257 classes is not seen. -/
theorem not_acyclic_run_tower :
    AllKnown {} (tower 256 ++ [.link 0 256])
      ∧ ¬ (run {} (tower 256 ++ [.link 0 256])).Acyclic :=
  not_acyclic_of_high_tower (Nat.le_refl maxDepth)

end ScriptLint.ClassTable
