/-
What jumps lie in. Without a label, a break has a loop or a switch
statement around it and a continue has a loop, with no function in
between; a return lies in the body of a function
(`Arena.jumps_of_parse`).

That jumps fit their surroundings is known of the tree (`Tree.Fits`). Here
it is traced back what the surroundings stand for: going down the arena, a
node that is said to be in a loop has a loop above it, and one that is
said to be in a function lies in a body, unless it is the name of the
function or of a parameter, which no statement is.

# The argument

- `Surrounded` is the invariant on the way down: the node shows a tree that
  fits the surroundings, and each thing that these allow stands above it.
- A step to a child changes the surroundings as the form says
  (`Surrounded.child`): a loop adds itself, a function takes everything
  away but its own body.
- At a jump, that the tree fits says which of these things must be allowed
  (`Surrounded.mayStand`).
-/
import ScriptLint.Proofs.Parse.Origins
import Mathlib.Logic.Relation

namespace ScriptLint

-- =============================================================== forms

/-- Whether the form is a loop. -/
def Form.isLoop {ι : Type} : Form ι → Bool
  | .forLoop .. | .forIn .. | .whileLoop .. | .doWhile .. => true
  | _ => false

/-- Whether the form is a switch statement. -/
def Form.isSwitch {ι : Type} : Form ι → Bool
  | .switch .. => true
  | _ => false

/-- Whether the form is a function. -/
def Form.isFunction {ι : Type} : Form ι → Bool
  | .function .. => true
  | _ => false

/-- The names of a function are identifiers. -/
def Tree.HasNames (tree : Tree) : Prop :=
  ∀ name parameters body isDeclaration,
    tree.form = .function name parameters body isDeclaration →
    ∀ slot ∈ name :: parameters, ∀ t ∈ slot, t.identifier?.isSome = true

theorem Tree.IsReadIn.hasNames {text : String} {role : Role} {tree : Tree}
    (h : tree.IsReadIn text role) : tree.HasNames := by
  obtain ⟨hcursor, h, hconsumed, hread⟩ := h
  intro name parameters body isDeclaration hform
  cases hform
  exact hread

/-- What is around the children of a form besides a function: the form
itself, or what is around it. -/
theorem Form.around_cases {ι : Type} (form : Form ι) (s : Surroundings) :
    (∃ name parameters body isDeclaration,
        form = .function name parameters body isDeclaration)
      ∨ (form.isFunction = false
        ∧ (form.around s).inFunction = s.inFunction
        ∧ ((form.around s).inLoop = true →
          form.isLoop = true ∨ s.inLoop = true)
        ∧ ((form.around s).inSwitch = true →
          form.isSwitch = true ∨ s.inSwitch = true)) := by
  cases form with
  | function name parameters body isDeclaration =>
      exact .inl ⟨_, _, _, _, rfl⟩
  | _ => simp [around, isLoop, isSwitch, isFunction]

/-- Changing what stands in the slots does not change the kind. -/
theorem Form.kind_map {ι κ : Type} (f : ι → κ) (form : Form ι)
    (s : Surroundings) :
    (form.map f).around s = form.around s
      ∧ (form.map f).isLoop = form.isLoop
      ∧ (form.map f).isSwitch = form.isSwitch := by
  cases form <;> exact ⟨rfl, rfl, rfl⟩

/-- An identifier has no children. -/
theorem Tree.children_of_identifier? {tree : Tree}
    (h : tree.identifier?.isSome = true) : tree.form.children = [] := by
  obtain ⟨start, stop, doc, form⟩ := tree
  cases form with
  | identifier text => rfl
  | _ => cases h

namespace Arena

variable {text : String} {lines : Text.LineMap} {arena : Arena}

/-- The node above lies around the node below, with no function in
between. -/
inductive Encloses (arena : Arena) : Nat → Nat → Prop where
  | parent {above below : Nat} :
    arena.parentOf (some below) = some above → Encloses arena above below
  | up {above middle below : Nat} :
    arena.parentOf (some below) = some middle →
    arena.isFunction (some middle) = false →
    Encloses arena above middle → Encloses arena above below

/-- A node lies in the body of a function when the body is above it, or
is it. -/
def LiesInBody (arena : Arena) (i : Nat) : Prop :=
  ∃ function name parameters body isDeclaration,
    arena.form? (some function)
        = some (.function name parameters (some body) isDeclaration)
      ∧ arena.parentOf (some body) = some function
      ∧ Relation.ReflTransGen
        (fun below above => arena.parentOf (some below) = some above) i body

/-- Some node around has a form of some kind, with no function in
between. -/
def Within (arena : Arena) (kind : Form Ref → Bool) (i : Nat) : Prop :=
  ∃ above form, arena.Encloses above i
    ∧ arena.form? (some above) = some form ∧ kind form = true

theorem LiesInBody.child {i child : Nat} (h : arena.LiesInBody i)
    (hparent : arena.parentOf (some child) = some i) :
    arena.LiesInBody child := by
  obtain ⟨function, name, parameters, body, isDeclaration, hform, hbody,
    hbelow⟩ := h
  exact ⟨function, name, parameters, body, isDeclaration, hform, hbody,
    .head hparent hbelow⟩

/-- Behind a node that is no function, what is around it is around its
children, and so is the node. -/
theorem within_child {kind : Form Ref → Bool} {i child : Nat}
    {form : Form Ref} (hform : arena.form? (some i) = some form)
    (hparent : arena.parentOf (some child) = some i)
    (hfunction : arena.isFunction (some i) = false)
    (h : kind form = true ∨ arena.Within kind i) :
    arena.Within kind child := by
  rcases h with h | ⟨above, form, habove, h⟩
  · exact ⟨i, form, .parent hparent, hform, h⟩
  · exact ⟨above, form, .up hparent hfunction habove, h⟩

/-- Every child of a node shows what stands in the same slot of the
tree. -/
theorem Shows.exists_slot {i child : Nat} {tree : Tree}
    (h : arena.Shows lines i tree) (hchild : child ∈ arena.childrenOf i) :
    ∃ (joint : Form Placed) (t : Tree),
      arena.form? (some i) = some (joint.map Prod.fst)
        ∧ tree.form = joint.map Prod.snd
        ∧ (some child, some t) ∈ joint.slots
        ∧ arena.Shows lines child t := by
  obtain ⟨hnode, hfilled, hbelow⟩ := h
  rw [childrenOf_eq hnode, Forest.children_map_fst, Forest.roots,
    List.mem_filterMap] at hchild
  obtain ⟨ref, hmem, rfl⟩ := hchild
  obtain ⟨⟨ref, slot⟩, hslot, rfl⟩ := List.mem_map.1 hmem
  have hsome := hfilled _ hslot
  obtain ⟨t, rfl⟩ := Option.isSome_iff_exists.1 hsome.symm
  exact ⟨_, t, by simp [form?, node?, hnode], rfl, hslot,
    hbelow child t hslot⟩

/-- What the surroundings of a node stand for. -/
structure Surrounded (text : String) (lines : Text.LineMap) (arena : Arena)
    (i : Nat) (tree : Tree) (s : Surroundings) : Prop where
  shows_tree : arena.Shows lines i tree
  holds : tree.Holds text
  hasNames : tree.HasNames
  fits : ∃ room, tree.Fits s room
  inLoop : s.inLoop = true → arena.Within Form.isLoop i
  inSwitch : s.inSwitch = true → arena.Within Form.isSwitch i
  inFunction : s.inFunction = true →
    arena.LiesInBody i ∨ tree.identifier?.isSome = true

/-- A child of a function lies in its body, or is a name. -/
theorem inBody_or_name {i child : Nat} {name body : Placed}
    {parameters : List Placed} {isDeclaration : Bool} {t tree : Tree}
    (hform : arena.form? (some i) = some
      ((Form.function name parameters body isDeclaration).map Prod.fst))
    (hjoint : tree.form
      = (Form.function name parameters body isDeclaration).map Prod.snd)
    (hnames : tree.HasNames)
    (hslot : (some child, some t)
      ∈ (Form.function name parameters body isDeclaration).slots)
    (hparent : arena.parentOf (some child) = some i) :
    arena.LiesInBody child ∨ t.identifier?.isSome = true := by
  have hslot : (some child, some t) ∈ name :: parameters
      ∨ (some child, some t) = body := by
    simpa [Form.slots, or_assoc] using hslot
  rcases hslot with hslot | rfl
  · refine .inr (hnames _ _ _ _ hjoint (some t) ?_ t rfl)
    exact List.mem_map_of_mem (f := Prod.snd) hslot
  · exact .inl ⟨i, _, _, child, _, hform, hparent, .refl⟩

theorem Surrounded.child {i child : Nat} {tree : Tree} {s : Surroundings}
    (h : arena.Surrounded text lines i tree s)
    (hchild : child ∈ arena.childrenOf i)
    (hparent : arena.parentOf (some child) = some i) :
    ∃ t, arena.Surrounded text lines child t (tree.form.around s) := by
  obtain ⟨joint, t, hform, hjoint, hslot, hshows⟩ :=
    h.shows_tree.exists_slot hchild
  have hmem : t ∈ tree.form.children := by
    rw [Form.mem_children, hjoint]
    exact Form.mem_slots_map Prod.snd hslot
  obtain ⟨role, hpart⟩ := Form.exists_role hmem
  have hread := h.holds.isReadIn _ hpart
  obtain ⟨room, hfits⟩ := h.fits
  have hfits := hfits.child hmem
  have haround : tree.form.around s = joint.around s := by
    rw [hjoint, (joint.kind_map Prod.snd s).1]
  rw [haround] at hfits ⊢
  refine ⟨t, ?_⟩
  -- a function begins anew for its body; any other node hands on what
  -- surrounds it
  rcases joint.around_cases s with
    ⟨name, parameters, body, isDeclaration, rfl⟩
    | ⟨hnone, hfunction, hloop, hswitch⟩
  · exact ⟨hshows, hread.holds, hread.hasNames, ⟨_, hfits⟩, nofun, nofun,
      fun _ => inBody_or_name hform hjoint h.hasNames hslot hparent⟩
  · have hpassed : arena.isFunction (some i) = false := by
      rw [isFunction, hform]
      cases joint <;> first | rfl | cases hnone
    refine ⟨hshows, hread.holds, hread.hasNames, ⟨_, hfits⟩, fun hs => ?_,
      fun hs => ?_, fun hs => ?_⟩
    · refine within_child hform hparent hpassed ?_
      rw [(joint.kind_map Prod.fst s).2.1]
      exact (hloop hs).imp_right h.inLoop
    · refine within_child hform hparent hpassed ?_
      rw [(joint.kind_map Prod.fst s).2.2]
      exact (hswitch hs).imp_right h.inSwitch
    · rcases h.inFunction (hfunction ▸ hs) with hbody | hname
      · exact .inl (hbody.child hparent)
      · rw [Tree.children_of_identifier? hname] at hmem
        cases hmem

/-- Every node of a program has surroundings that it fits. -/
theorem surrounded_of_parse {tree : Tree} (h : Tree.parse text = .ok tree)
    {i : Nat} (hi : i < (ofTree lines tree).2.size) :
    ∃ t s, (ofTree lines tree).2.Surrounded text lines i t s := by
  obtain ⟨htree, hshows⟩ : (ofTree lines tree).2.IsTree (ofTree lines tree).1
      ∧ (ofTree lines tree).2.Shows lines (ofTree lines tree).1 tree :=
    isTree_shows_ofTree tree
  refine htree.induct (motive := fun i => ∃ t s,
    (ofTree lines tree).2.Surrounded text lines i t s) ⟨tree, {}, ?_⟩ ?_ i hi
  · obtain ⟨cursor, hread⟩ := Tree.parse_eq_ok.1 h
    obtain ⟨statements, rfl, -⟩ := Tree.derives_of_read hread
    exact ⟨hshows, Tree.holds_of_parse h, by simp [Tree.HasNames, Tree.form],
      ⟨_, Tree.fits_of_parse h⟩, nofun, nofun, nofun⟩
  · rintro i child hchild ⟨t, s, h⟩
    obtain ⟨t', h'⟩ := h.child hchild (htree.parentOf_child hchild)
    exact ⟨t', _, h'⟩

/-- A jump may stand in the surroundings of its node. -/
theorem Surrounded.mayStand {i : Nat} {tree : Tree} {s : Surroundings}
    {form : Form Ref} (h : arena.Surrounded text lines i tree s)
    (hform : arena.form? (some i) = some form) :
    ∃ room, form.mayStand s room := by
  obtain ⟨room, hstand, hbelow⟩ := h.fits
  refine ⟨room, ?_⟩
  obtain ⟨hnode, hfilled, -⟩ := h.shows_tree
  rename_i joint parent
  obtain rfl : form = joint.map Prod.fst := by
    simpa [form?, node?, hnode] using hform.symm
  cases joint with
  | returning value => exact hstand
  | breaking label =>
      obtain ⟨ref, slot⟩ := label
      cases ref with
      | none =>
          have hsome := hfilled _ (List.mem_singleton_self _)
          cases slot with
          | none => exact hstand
          | some t => cases hsome
      | some ref => trivial
  | continuing label =>
      obtain ⟨ref, slot⟩ := label
      cases ref with
      | none =>
          have hsome := hfilled _ (List.mem_singleton_self _)
          cases slot with
          | none => exact hstand
          | some t => cases hsome
      | some ref => trivial
  | _ => trivial

theorem Within.mono {kind kind' : Form Ref → Bool} {i : Nat}
    (h : arena.Within kind i)
    (hkind : ∀ form, kind form = true → kind' form = true) :
    arena.Within kind' i := by
  obtain ⟨above, form, habove, hform, h⟩ := h
  exact ⟨above, form, habove, hform, hkind form h⟩

/-- The jumps of a program lie where they make sense: a break without a
label within a loop or a switch statement and a continue without a label
within a loop, with no function in between, and a return in the body of a
function. -/
theorem jumps_of_parse {tree : Tree} (h : Tree.parse text = .ok tree) :
    let arena := (ofTree (.ofText text) tree).2
    ∀ i, (arena.form? (some i) = some (.breaking none) →
        arena.Within (fun form => form.isLoop || form.isSwitch) i)
      ∧ (arena.form? (some i) = some (.continuing none) →
        arena.Within Form.isLoop i)
      ∧ ∀ value, arena.form? (some i) = some (.returning value) →
        arena.LiesInBody i := by
  intro arena i
  have hsurrounded {form : Form Ref}
      (hform : arena.form? (some i) = some form) :
      ∃ t s, arena.Surrounded text (.ofText text) i t s :=
    surrounded_of_parse h (lt_size_of_form? hform)
  refine ⟨fun hform => ?_, fun hform => ?_, fun value hform => ?_⟩
  all_goals
    obtain ⟨t, s, hnode⟩ := hsurrounded hform
    obtain ⟨room, hstand⟩ := hnode.mayStand hform
  · rcases hstand with hloop | hswitch
    · exact (hnode.inLoop hloop).mono (by simp_all)
    · exact (hnode.inSwitch hswitch).mono (by simp_all)
  · exact hnode.inLoop hstand
  · rcases hnode.inFunction hstand.1 with hbody | hname
    · exact hbody
    · obtain ⟨joint, hjoint, htree⟩ := hnode.shows_tree.exists_joint
      obtain ⟨start, stop, doc, form⟩ := t
      dsimp only [Tree.form] at htree
      rw [hform, Option.some_inj] at hjoint
      cases joint <;> cases hjoint
      subst htree
      cases hname

/-- A loop with a continue and with a function, in which a switch statement
with a break is followed by a return. -/
def nestedJumps : String :=
  "while(a)\x7bcontinue;b=function()\x7bswitch(c)\x7bdefault:break;\x7d"
    ++ "return;\x7d\x7d"

theorem jumps_of_parse_nested :
    Tree.Parses nestedJumps fun tree =>
      let arena := (ofTree (.ofText nestedJumps) tree).2
      arena.form? (some 1) = some (.continuing none)
        ∧ arena.Within Form.isLoop 1
        ∧ arena.form? (some 4) = some (.breaking none)
        ∧ arena.Within (fun form => form.isLoop || form.isSwitch) 4
        ∧ arena.form? (some 7) = some (.returning none)
        ∧ arena.LiesInBody 7 := by
  have hparses : Tree.Parses nestedJumps fun tree =>
      let arena := (ofTree (.ofText nestedJumps) tree).2
      arena.form? (some 1) = some (.continuing none)
        ∧ arena.form? (some 4) = some (.breaking none)
        ∧ arena.form? (some 7) = some (.returning none) := by
    decide +kernel
  obtain ⟨tree, hparse, hcontinue, hbreak, hreturn⟩ := hparses
  refine ⟨tree, hparse, hcontinue, ?_, hbreak, ?_, hreturn, ?_⟩
  · exact (jumps_of_parse hparse 1).2.1 hcontinue
  · exact (jumps_of_parse hparse 4).1 hbreak
  · exact (jumps_of_parse hparse 7).2.2 none hreturn

end Arena

end ScriptLint
