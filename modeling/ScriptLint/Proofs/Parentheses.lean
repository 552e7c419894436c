/-
Parentheses around values do not matter. Whatever is looked at around a node
or below it is the same when returned values and initial values are in
parentheses (`Arena.Wrapping`): values are unwrapped before they are
classified, and a function in parentheses is known by no name, like one that
is returned or initialises a variable. So each node is checked with the same
outcome (`Arena.Wrapping.checkNode_eq`).

What initialises a variable is not unwrapped where function literals and
members of `this` are told from other values, so those are left out
(`Session.check_wrapped`). And the search for the function
around a node must not be cut off, since the parentheses lie on its way
(`Arena.FindsFunctions`).

The two arenas have different numbers for the same nodes, so everything is
stated for pairs of numbers (`pairs i j`) and for references that are both
missing or a pair (`Option.Rel pairs`). What is looked up by a reference is
then equal on both sides, or is a pair again; only a value that is wrapped
belongs to the pair of parentheses around its partner (`SlotWraps`).

Looking down, a lemma for each question about a node settles the matter,
proved by cases on the form that the two nodes share
(`Wrapping.forms_cases`). Looking up is where parentheses lie on the way:
the parents of a pair are a pair, or one side has parentheses in between
(`AboveWraps`). The name that a function is known by, and the function
around a node, are found by going up, and both come out the same. Then the
checks follow from the leaves on, up to `Wrapping.checkNode_eq` and the
walk.

As the model and the results are the same on both sides, the lemmas are
equations, and a check on the left may be rewritten into that on the right.
-/
import ScriptLint.Proofs.Returns
import ScriptLint.Proofs.Syntax.Wrapping

namespace ScriptLint

namespace Arena

variable {arena other : Arena} {pairs : Nat → Nat → Prop} {i j : Nat}
  {ref ref' : Ref}

-- ========================================================== single nodes

/-- What is said of the forms of references that belong together is shown of
no forms, and of both sides of one. -/
@[elab_as_elim]
theorem Wrapping.forms_cases
    {motive : Option (Form Ref) → Option (Form Ref) → Prop}
    (h : Wrapping arena other pairs) (hrel : Option.Rel pairs ref ref')
    (none : motive none none)
    (some : ∀ joint : Form (Ref × Ref), FormWraps arena other pairs joint →
      motive (some (joint.map Prod.fst)) (some (joint.map Prod.snd))) :
    motive (arena.form? ref) (other.form? ref') := by
  cases hrel with
  | none => exact none
  | some hpair =>
      obtain ⟨joint, hform, hform', hwraps⟩ := h.forms hpair
      rw [hform, hform']
      exact some joint hwraps

/-- Partners have the same documentation. -/
theorem Wrapping.docOf_eq (h : Wrapping arena other pairs)
    (hrel : Option.Rel pairs ref ref') :
    other.docOf ref' = arena.docOf ref := by
  cases hrel with
  | none => rfl
  | some hpair => exact h.docOf hpair

/-- They are on the same line, so findings at them are the same. -/
theorem Wrapping.report_eq (h : Wrapping arena other pairs)
    (hrel : Option.Rel pairs ref ref') (kind : DiagnosticKind)
    (detail : Option String) :
    other.report kind ref' detail = arena.report kind ref detail := by
  unfold report
  cases hrel with
  | none => rfl
  | some hpair => rw [h.lineOf hpair]

/-- They are the same identifier, if any. -/
theorem Wrapping.identifier?_eq (h : Wrapping arena other pairs)
    (hrel : Option.Rel pairs ref ref') :
    other.identifier? ref' = arena.identifier? ref := by
  unfold identifier?
  exact h.forms_cases hrel rfl fun joint _ => by cases joint <;> rfl

/-- Both are functions or neither is; likewise for the kinds below. -/
theorem Wrapping.isFunction_eq (h : Wrapping arena other pairs)
    (hrel : Option.Rel pairs ref ref') :
    other.isFunction ref' = arena.isFunction ref := by
  unfold isFunction
  exact h.forms_cases hrel rfl fun joint _ => by cases joint <;> rfl

theorem Wrapping.isThis_eq (h : Wrapping arena other pairs)
    (hrel : Option.Rel pairs ref ref') :
    other.isThis ref' = arena.isThis ref := by
  unfold isThis
  exact h.forms_cases hrel rfl fun joint _ => by cases joint <;> rfl

theorem Wrapping.isObject_eq (h : Wrapping arena other pairs)
    (hrel : Option.Rel pairs ref ref') :
    other.isObject ref' = arena.isObject ref := by
  unfold isObject
  exact h.forms_cases hrel rfl fun joint _ => by cases joint <;> rfl

theorem Wrapping.isOwnMember_eq (h : Wrapping arena other pairs)
    (hrel : Option.Rel pairs ref ref') :
    other.isOwnMember ref' = arena.isOwnMember ref := by
  unfold isOwnMember
  refine h.forms_cases hrel rfl fun joint hwraps => ?_
  cases joint with
  | member owner name => exact h.isThis_eq (hwraps owner (.head _))
  | _ => rfl

/-- A pair of parentheses is no function. -/
theorem isFunction_paren {inner : Ref}
    (h : arena.form? ref = some (.paren inner)) :
    arena.isFunction ref = false := by
  rw [isFunction, h]

/-- A pair of parentheses is no member of `this`. This question and the one
for functions are asked without unwrapping, which is why initial values are
restricted. -/
theorem isOwnMember_paren {inner : Ref}
    (h : arena.form? ref = some (.paren inner)) :
    arena.isOwnMember ref = false := by
  rw [isOwnMember, h]

/-- They are the same string, if any. -/
theorem Wrapping.stringValue?_eq (h : Wrapping arena other pairs)
    (hrel : Option.Rel pairs ref ref') :
    other.stringValue? ref' = arena.stringValue? ref := by
  unfold stringValue?
  exact h.forms_cases hrel rfl fun joint _ => by cases joint <;> rfl

-- =============================================================== names

/-- Names are joined along members, whose owners are partners. -/
theorem Wrapping.nameWith_eq (h : Wrapping arena other pairs)
    (hrel : Option.Rel pairs ref ref') (steps : Nat) (tail : List String) :
    other.nameWith steps ref' tail = arena.nameWith steps ref tail := by
  induction steps generalizing ref ref' tail with
  | zero => rfl
  | succ steps ih =>
      unfold nameWith
      refine h.forms_cases hrel rfl fun joint hwraps => ?_
      cases joint with
      | member owner name =>
          simp only [Form.map, ih (hwraps owner (.head _)),
            h.identifier?_eq (hwraps name (.tail _ (.head _)))]
      | _ => rfl

/-- So partners have the same name. -/
theorem Wrapping.nameOf_eq (h : Wrapping arena other pairs)
    (hrel : Option.Rel pairs ref ref') :
    other.nameOf ref' = arena.nameOf ref :=
  h.nameWith_eq hrel _ _

/-- Partners have the same last part of a name. -/
theorem Wrapping.memberName_eq (h : Wrapping arena other pairs)
    (hrel : Option.Rel pairs ref ref') :
    other.memberName ref' = arena.memberName ref := by
  unfold memberName
  refine h.forms_cases hrel rfl fun joint hwraps => ?_
  cases joint with
  | member owner name =>
      exact h.nameOf_eq (hwraps name (.tail _ (.head _)))
  | _ => rfl

-- ========================================================= parentheses

/-- Taking off parentheses leads from partners to partners. -/
theorem Wrapping.unwrap_rel (h : Wrapping arena other pairs)
    (hrel : Option.Rel pairs ref ref') (steps : Nat) :
    Option.Rel pairs (arena.unwrap steps ref) (other.unwrap steps ref') := by
  induction steps generalizing ref ref' with
  | zero => exact hrel
  | succ steps ih =>
      unfold unwrap
      refine h.forms_cases hrel hrel fun joint hwraps => ?_
      cases joint with
      | paren inner => exact ih (hwraps inner (.head _))
      | _ => exact hrel

/-- Without parentheses, there is the same in a wrapped slot. -/
theorem Wrapping.skipParens_rel (h : Wrapping arena other pairs)
    (hslot : SlotWraps arena other pairs ref ref') :
    Option.Rel pairs (arena.skipParens ref) (other.skipParens ref') := by
  cases hslot with
  | plain hrel => exact h.unwrap_rel hrel _
  | @wrapped i j w hpair hparen hintime =>
      obtain ⟨n, hn, hunwrap⟩ := hintime
      have hinner : other.skipParens (some w)
          = other.unwrap (walkLimit - 1) (some j) := by
        show other.unwrap (walkLimit - 1 + 1) (some w) = _
        rw [unwrap, hparen]
      have houter : arena.skipParens (some i)
          = arena.unwrap (walkLimit - 1) (some i) := by
        rw [skipParens, hunwrap _ hn.le,
          hunwrap (walkLimit - 1) (Nat.le_pred_of_lt hn)]
      rw [hinner, houter]
      exact h.unwrap_rel (.some hpair) _

/-- What is in a wrapped slot is there on both sides. -/
theorem SlotWraps.isNone_eq (h : SlotWraps arena other pairs ref ref') :
    ref'.isNone = ref.isNone := by
  rcases h with ⟨_ | _⟩ | _ <;> rfl

/-- The type of a value is found behind its parentheses, wrapped or not. -/
theorem Wrapping.inferType_eq (h : Wrapping arena other pairs)
    (hslot : SlotWraps arena other pairs ref ref') :
    other.inferType ref' = arena.inferType ref := by
  have hvalue := h.skipParens_rel hslot
  unfold inferType
  rw [hslot.isNone_eq]
  dsimp only
  rw [h.nameOf_eq hvalue]
  refine h.forms_cases hvalue rfl fun joint hwraps => ?_
  cases joint with
  | construct callee arguments =>
      simp only [Form.map, h.nameOf_eq (hwraps callee (.head _))]
  | call callee arguments =>
      simp only [Form.map, h.nameOf_eq (hwraps callee (.head _))]
  | _ => rfl

-- =========================================================== functions

/-- No search for the function around a node is cut off: where there is a
function above, one is found. -/
def FindsFunctions (arena : Arena) : Prop :=
  ∀ i steps, ∀ f ∈ arena.chain steps (arena.parentOf (some i)),
    arena.isFunction (some f) = true → arena.functionAround? (some i) ≠ none

/-- Parents come later. -/
theorem IsTree.lt_of_parentOf {root k p : Nat} (h : arena.IsTree root)
    (hparent : arena.parentOf (some k) = some p) :
    k < p ∧ p < arena.size := by
  have hk : k < arena.size := by
    obtain ⟨node, hnode, -⟩ := Option.bind_eq_some_iff.1 hparent
    exact (Array.getElem?_eq_some_iff.1 hnode).1
  have hroot : k ≠ root := by
    rintro rfl
    rw [h.parentOf_root] at hparent
    cases hparent
  rw [h.size_eq] at hk
  obtain ⟨q, hq, hchild⟩ := h.exists_parent (i := k) (by omega)
  rw [h.parentOf_child hchild] at hparent
  obtain rfl := Option.some.inj hparent
  exact ⟨h.lt_of_child hchild, hq⟩

/-- What is above a node is found within as many steps as there are later
nodes. -/
theorem IsTree.mem_chain {root k steps f : Nat} (h : arena.IsTree root)
    (hk : k < arena.size) (hf : f ∈ arena.chain steps (some k)) :
    f ∈ arena.chain (arena.size - k) (some k) := by
  induction steps generalizing k with
  | zero => cases hf
  | succ steps ih =>
      obtain ⟨d, hd⟩ := Nat.exists_eq_add_of_lt hk
      rw [show arena.size - k = d + 1 by omega]
      rcases List.mem_cons.1 hf with rfl | hf
      · exact .head _
      · refine .tail _ ?_
        cases hparent : arena.parentOf (some k) with
        | none =>
            rw [hparent] at hf
            cases steps <;> cases hf
        | some p =>
            rw [hparent] at hf
            obtain ⟨hlater, hp⟩ := h.lt_of_parentOf hparent
            exact mem_chain_mono (by omega) (ih hp hf)

/-- Programs of few nodes do not cut off any search. -/
theorem findsFunctions_of_size {root : Nat} (h : arena.IsTree root)
    (hsize : arena.size ≤ walkLimit) : arena.FindsFunctions := by
  intro i steps f hf hfunction hnone
  cases hparent : arena.parentOf (some i) with
  | none =>
      rw [hparent] at hf
      cases steps <;> cases hf
  | some p =>
      rw [hparent] at hf
      have hreached : f ∈ arena.ancestors (some i) := by
        rw [ancestors, hparent]
        exact mem_chain_mono (by omega)
          (h.mem_chain (h.lt_of_parentOf hparent).2 hf)
      exact List.find?_eq_none.1 hnone f hreached hfunction

/-- What is come to above two nodes: what belongs together, or parentheses
in what belongs to the first. -/
inductive AboveWraps (other : Arena) (pairs : Nat → Nat → Prop) :
    Ref → Ref → Prop where
  | plain {ref ref' : Ref} : Option.Rel pairs ref ref' →
    AboveWraps other pairs ref ref'
  | paren {p q w : Nat} {inner : Ref} : pairs p q →
    other.form? (some w) = some (.paren inner) →
    other.parentOf (some w) = some q →
    AboveWraps other pairs (some p) (some w)

/-- One step up, from either side. -/
theorem Wrapping.aboveWraps (h : Wrapping arena other pairs)
    (hpair : pairs i j) :
    AboveWraps other pairs (arena.parentOf (some i))
      (other.parentOf (some j)) := by
  cases h.parents hpair with
  | plain hrel => exact .plain hrel
  | wrapped hparent hi hj hw hparen =>
      rw [hi, hj]
      exact .paren hparent hparen hw

/-- A function that is found above a node of the second arena is found from
the first one, where the way is no longer. -/
theorem Wrapping.exists_find? (h : Wrapping arena other pairs)
    (habove : AboveWraps other pairs ref ref') {steps g : Nat}
    (hg : (other.chain steps ref').find?
      (fun k => other.isFunction (some k)) = some g) :
    ∃ f, (arena.chain steps ref).find?
      (fun k => arena.isFunction (some k)) = some f ∧ pairs f g := by
  induction steps generalizing ref ref' with
  | zero => cases ref' <;> cases hg
  | succ steps ih =>
      cases habove with
      | plain hrel =>
          cases hrel with
          | none => cases hg
          | @some p q hpair =>
              rw [chain, List.find?_cons] at hg ⊢
              rw [h.isFunction_eq (.some hpair)] at hg
              split at hg
              · exact ⟨p, rfl, Option.some.inj hg ▸ hpair⟩
              · exact ih (h.aboveWraps hpair) hg
      | @paren p q w inner hpair hparen hw =>
          rw [chain, List.find?_cons, isFunction_paren hparen, hw] at hg
          obtain ⟨f, hf, hfound⟩ := ih (.plain (.some hpair)) hg
          have hprefix := arena.isPrefix_chain (Nat.le_succ steps) (some p)
          exact ⟨f, hprefix.find?_eq_some hf, hfound⟩

/-- What is above a node of the first arena is so in the second one. -/
theorem Wrapping.exists_mem_chain (h : Wrapping arena other pairs)
    (habove : AboveWraps other pairs ref ref') {steps f : Nat}
    (hf : f ∈ arena.chain steps ref) :
    ∃ steps' g, g ∈ other.chain steps' ref' ∧ pairs f g := by
  induction steps generalizing ref ref' with
  | zero => cases ref <;> cases hf
  | succ steps ih =>
      have hplain {p q : Nat} (hpair : pairs p q)
          (hp : f ∈ arena.chain (steps + 1) (some p)) :
          ∃ steps' g, g ∈ other.chain steps' (some q) ∧ pairs f g := by
        rcases List.mem_cons.1 hp with rfl | hp
        · exact ⟨1, q, .head _, hpair⟩
        · obtain ⟨steps', g, hg, hfound⟩ := ih (h.aboveWraps hpair) hp
          exact ⟨steps' + 1, g, .tail _ hg, hfound⟩
      cases habove with
      | plain hrel =>
          cases hrel with
          | none => cases hf
          | some hpair => exact hplain hpair hf
      | @paren p q w inner hpair hparen hw =>
          obtain ⟨steps', g, hg, hfound⟩ := hplain hpair hf
          refine ⟨steps' + 1, g, .tail _ ?_, hfound⟩
          rwa [hw]

/-- The functions around nodes that belong together do so. -/
theorem Wrapping.functionAround?_rel (h : Wrapping arena other pairs)
    (hfinds : other.FindsFunctions) (hpair : pairs i j) :
    Option.Rel pairs (arena.functionAround? (some i))
      (other.functionAround? (some j)) := by
  cases hother : other.functionAround? (some j) with
  | some g =>
      obtain ⟨f, hf, hfound⟩ := h.exists_find? (h.aboveWraps hpair) hother
      have haround : arena.functionAround? (some i) = some f := hf
      rw [haround]
      exact .some hfound
  | none =>
      cases haround : arena.functionAround? (some i) with
      | none => exact .none
      | some f =>
          obtain ⟨steps, g, hg, hfound⟩ := h.exists_mem_chain
            (h.aboveWraps hpair) (List.mem_of_find?_eq_some haround)
          have hfunction := isFunction_of_functionAround? haround
          rw [← h.isFunction_eq (.some hfound)] at hfunction
          exact absurd hother (hfinds j steps g hg hfunction)

-- ========================================================== identities

/-- The name that a node is assigned to. -/
def assignedTo? (arena : Arena) (ref : Ref) : Option String :=
  match arena.form? (arena.parentOf ref) with
  | some (.assignment left _ _) => some (arena.nameOf left)
  | _ => none

/-- What a literal is assigned to is never wrapped. -/
theorem Wrapping.assignedTo?_eq (h : Wrapping arena other pairs)
    (hrel : Option.Rel pairs ref ref') :
    other.assignedTo? ref' = arena.assignedTo? ref := by
  unfold assignedTo?
  cases hrel with
  | none => rfl
  | some hpair =>
      cases h.parents hpair with
      | plain hparent =>
          refine h.forms_cases hparent rfl fun joint hwraps => ?_
          cases joint with
          | assignment left operator right =>
              exact congrArg some (h.nameOf_eq (hwraps left (.head _)))
          | _ => rfl
      | wrapped _ hi hj _ hparen hplace _ =>
          rw [hi, hj, hparen]
          rcases hplace with ⟨value, hform⟩ | ⟨name, value, hform⟩
          · rw [hform]
          · rw [hform]

/-- The name that a function node has itself. -/
def ownName? (arena : Arena) (function : Nat) : Option String :=
  match arena.form? (some function) with
  | some (.function (some name) _ _ _) => some (arena.nameOf (some name))
  | _ => none

/-- How a function node without a name of its own is known. -/
def lentIdentity (arena : Arena) (function : Nat) : Identity :=
  let own := arena.docOf (some function)
  let parent := arena.parentOf (some function)
  match arena.form? parent with
  | some (.assignment left _ _) =>
    let name := arena.nameOf left
    { name, doc := arena.docOf parent, basis := name }
  | some (.property key _) =>
    (arena.assignedTo? (arena.parentOf parent)).elim { doc := own }
      fun basis =>
        { name := s!"{basis}.{arena.nameOf key}", doc := arena.docOf key,
          basis }
  | _ => { doc := own }

/-- Only functions have names of their own. -/
theorem ownName?_eq_none (h : ∀ name parameters body isDeclaration,
    arena.form? (some i)
      ≠ some (.function (some name) parameters body isDeclaration)) :
    arena.ownName? i = none := by
  unfold ownName?
  split
  · exact absurd ‹_› (h _ _ _ _)
  · rfl

/-- A name of its own comes first. -/
theorem identityOf_eq (arena : Arena) (function : Nat) :
    arena.identityOf function
      = (arena.ownName? function).elim (arena.lentIdentity function)
        fun name =>
          { name, doc := arena.docOf (some function), basis := name } := by
  unfold identityOf
  dsimp only
  -- a function with a name, the value of an assignment or of a property, and
  -- all others
  split
  · rename_i hform
    rw [ownName?, hform]
    rfl
  · rename_i hparent hnot
    rw [ownName?_eq_none hnot, Option.elim_none, lentIdentity]
    dsimp only
    rw [hparent]
  · rename_i hparent hnot
    rw [ownName?_eq_none hnot, Option.elim_none, lentIdentity]
    dsimp only
    rw [hparent]
    dsimp only
    unfold assignedTo?
    generalize arena.form? (arena.parentOf (arena.parentOf
      (arena.parentOf (some function)))) = form
    cases form with
    | none => rfl
    | some form => cases form <;> rfl
  · rename_i hnot hassignment hproperty
    rw [ownName?_eq_none hnot, Option.elim_none, lentIdentity]
    dsimp only
    split
    · exact absurd ‹_› (hassignment _ _ _)
    · exact absurd ‹_› (hproperty _ _)
    · rfl

/-- The name written into a function. -/
theorem Wrapping.ownName?_eq (h : Wrapping arena other pairs)
    (hpair : pairs i j) : other.ownName? j = arena.ownName? i := by
  obtain ⟨joint, hform, hform', hwraps⟩ := h.forms hpair
  unfold ownName?
  rw [hform, hform']
  cases joint with
  | function name parameters body isDeclaration =>
      obtain ⟨ref, ref'⟩ := name
      cases (show Option.Rel pairs ref ref' from hwraps _ (.head _)) with
      | none => rfl
      | some hname => exact congrArg some (h.nameOf_eq (.some hname))
  | _ => rfl

/-- The name that a function is lent by what is around it. A returned or
initial value lends none, with parentheses or without. -/
theorem Wrapping.lentIdentity_eq (h : Wrapping arena other pairs)
    (hpair : pairs i j) : other.lentIdentity j = arena.lentIdentity i := by
  unfold lentIdentity
  dsimp only
  rw [h.docOf hpair]
  cases h.parents hpair with
  | wrapped _ hi hj _ hparen hplace _ =>
      rw [hi, hj, hparen]
      rcases hplace with ⟨value, hform⟩ | ⟨name, value, hform⟩
      · rw [hform]
      · rw [hform]
  | plain hparent =>
      generalize arena.parentOf (some i) = parent at hparent ⊢
      generalize other.parentOf (some j) = parent' at hparent ⊢
      rw [h.docOf_eq hparent]
      cases hparent with
      | none => rfl
      | @some p q hparent =>
          obtain ⟨joint, hform, hform', hwraps⟩ := h.forms hparent
          rw [hform, hform']
          cases joint with
          | assignment left operator right =>
              simp only [Form.map, h.nameOf_eq (hwraps left (.head _))]
          | property key value =>
              -- expressions alone are wrapped, and a property is none
              cases h.parents hparent with
              | plain hgrand =>
                  have hkey := hwraps key (.head _)
                  simp only [Form.map, h.assignedTo?_eq hgrand,
                    h.nameOf_eq hkey, h.docOf_eq hkey]
              | wrapped _ _ _ _ _ _ hproperty =>
                  exact absurd hform (hproperty _ _)
          | _ => rfl

/-- What a function is known by. -/
theorem Wrapping.identityOf_eq (h : Wrapping arena other pairs)
    (hpair : pairs i j) : other.identityOf j = arena.identityOf i := by
  rw [Arena.identityOf_eq, Arena.identityOf_eq, h.ownName?_eq hpair,
    h.lentIdentity_eq hpair, h.docOf hpair]

-- ============================================================== scopes

/-- Its parameters, with their documented types. -/
theorem Wrapping.parametersOf_eq (h : Wrapping arena other pairs)
    (hpair : pairs i j) (tags : Option DocTags) :
    other.parametersOf j tags = arena.parametersOf i tags := by
  obtain ⟨joint, hform, hform', hwraps⟩ := h.forms hpair
  unfold parametersOf
  rw [hform, hform']
  cases joint with
  | function name parameters body isDeclaration =>
      simp only [Form.map, List.zipIdx_map, List.filterMap_map]
      refine List.filterMap_congr fun entry hentry => ?_
      have hrel := hwraps entry.1 (.tail _ (List.mem_append_left _
        (List.fst_mem_of_mem_zipIdx hentry)))
      simp only [Function.comp_apply, Prod.map_fst, Prod.map_snd, id_eq,
        h.identifier?_eq hrel]
  | _ => rfl

/-- A function and its partner are registered alike. -/
theorem Wrapping.enterFunction_eq (h : Wrapping arena other pairs)
    (hpair : pairs i j) (functions : FunctionTable) :
    other.enterFunction functions j = arena.enterFunction functions i := by
  unfold enterFunction
  rw [h.identityOf_eq hpair]
  simp only [h.parametersOf_eq hpair]

/-- The function around partners, found on both sides because no way up is cut
off. -/
theorem Wrapping.enclosingFunction?_eq (h : Wrapping arena other pairs)
    (hfinds : other.FindsFunctions) (hpair : pairs i j) (model : Model) :
    other.enclosingFunction? model (some j)
      = arena.enclosingFunction? model (some i) := by
  have haround := h.functionAround?_rel hfinds hpair
  unfold enclosingFunction?
  generalize arena.functionAround? (some i) = around at haround ⊢
  generalize other.functionAround? (some j) = around' at haround ⊢
  cases haround with
  | none => rw [Option.map_none, Option.map_none]
  | some hfound => simp only [Option.map_some, h.enterFunction_eq hfound]

/-- The class that they belong to. -/
theorem Wrapping.className?_eq (h : Wrapping arena other pairs)
    (hfinds : other.FindsFunctions) (hpair : pairs i j) :
    other.className? (some j) = arena.className? (some i) := by
  obtain ⟨joint, hform, hform', hwraps⟩ := h.forms hpair
  have haround := h.functionAround?_rel hfinds hpair
  unfold className?
  rw [hform, hform']
  generalize arena.functionAround? (some i) = around at haround ⊢
  generalize other.functionAround? (some j) = around' at haround ⊢
  cases haround with
  | some hfound => simp only [h.identityOf_eq hfound]
  | none =>
      cases joint with
      | assignment left operator right =>
          simp only [Form.map, h.nameOf_eq (hwraps left (.head _))]
      | _ => rfl

/-- That class is entered alike. -/
theorem Wrapping.enclosingClass_eq (h : Wrapping arena other pairs)
    (hfinds : other.FindsFunctions) (hpair : pairs i j) (model : Model) :
    other.enclosingClass model (some j)
      = arena.enclosingClass model (some i) := by
  unfold enclosingClass
  rw [h.className?_eq hfinds hpair]

-- ============================================================== values

/-- What is returned has the same type, or is the same member. -/
theorem Wrapping.returned_eq (h : Wrapping arena other pairs)
    (hrel : Option.Rel pairs ref ref') (model : Model) (function : Nat)
    (owner : Option Nat) :
    other.returned model function owner ref'
      = arena.returned model function owner ref := by
  unfold returned
  rw [h.inferType_eq (.plain hrel)]
  refine h.forms_cases hrel rfl fun joint hwraps => ?_
  cases joint with
  | member object name =>
      simp only [Form.map, h.isThis_eq (hwraps object (.head _)),
        h.nameOf_eq (hwraps name (.tail _ (.head _)))]
  | _ => rfl

/-- A return may have its value wrapped. -/
theorem Wrapping.checkReturn_eq (h : Wrapping arena other pairs)
    (hfinds : other.FindsFunctions) (hpair : pairs i j)
    (hslot : SlotWraps arena other pairs ref ref') (model : Model) :
    other.checkReturn model (some j) ref'
      = arena.checkReturn model (some i) ref := by
  unfold checkReturn
  simp only [h.enclosingClass_eq hfinds hpair,
    h.enclosingFunction?_eq hfinds hpair, h.lineOf hpair,
    h.returned_eq (h.skipParens_rel hslot),
    h.report_eq (.some hpair)]

/-- A variable is declared alike. -/
theorem Wrapping.declareVariable_eq (h : Wrapping arena other pairs)
    (hfinds : other.FindsFunctions) (hpair : pairs i j)
    (hname : Option.Rel pairs ref ref') (model : Model) (type : ValueType) :
    other.declareVariable model (some j) ref' type
      = arena.declareVariable model (some i) ref type := by
  unfold declareVariable
  simp only [h.enclosingFunction?_eq hfinds hpair, h.nameOf_eq hname]

/-- The fields of a member of `this` are looked up by the name of the
member. -/
theorem checkDeclaration_eq (arena : Arena) (model : Model)
    (declaration name initializer : Ref) :
    arena.checkDeclaration model declaration name initializer
      = if arena.isFunction initializer then
          { model, events := [arena.report .badFuncDef declaration] }
        else if arena.isOwnMember initializer then
          let (owner, model) := arena.enclosingClass model declaration
          match model.field? owner (arena.memberName initializer) with
          | some slot =>
            { model :=
                arena.declareVariable model declaration name slot.type }
          | none =>
            { model, events := [arena.report .noFieldDecl declaration] }
        else
          { model := arena.declareVariable model declaration name
              (arena.inferType initializer) } := rfl

/-- A declaration may have its initial value wrapped, unless that is a function
or a member of `this`. -/
theorem Wrapping.checkDeclaration_eq (h : Wrapping arena other pairs)
    (hfinds : other.FindsFunctions) (hpair : pairs i j)
    {name name' : Ref} (hname : Option.Rel pairs name name')
    (hvalue : Option.Rel pairs ref ref'
      ∨ SlotWraps arena other pairs ref ref'
        ∧ arena.isFunction ref = false ∧ arena.isOwnMember ref = false)
    (model : Model) :
    other.checkDeclaration model (some j) name' ref'
      = arena.checkDeclaration model (some i) name ref := by
  have hslot : SlotWraps arena other pairs ref ref' :=
    hvalue.elim .plain And.left
  rw [Arena.checkDeclaration_eq, Arena.checkDeclaration_eq]
  simp only [h.enclosingClass_eq hfinds hpair,
    h.declareVariable_eq hfinds hpair hname, h.inferType_eq hslot,
    h.report_eq (.some hpair)]
  have hplain (hrel : Option.Rel pairs ref ref') :
      other.isFunction ref' = arena.isFunction ref
        ∧ other.isOwnMember ref' = arena.isOwnMember ref
        ∧ other.memberName ref' = arena.memberName ref :=
    ⟨h.isFunction_eq hrel, h.isOwnMember_eq hrel, h.memberName_eq hrel⟩
  rcases hvalue with hrel | ⟨hrel | ⟨-, hparen, -⟩, hfunction, hown⟩
  · rw [(hplain hrel).1, (hplain hrel).2.1, (hplain hrel).2.2]
  · rw [(hplain hrel).1, (hplain hrel).2.1, (hplain hrel).2.2]
  · -- parentheses are neither, so both sides go by the type of the value
    rw [hfunction, hown, isFunction_paren hparen, isOwnMember_paren hparen]
    simp only [Bool.false_eq_true, if_false]

-- ========================================================= assignments

section

variable {left left' right right' : Ref}

/-- The name of a class is judged alike. -/
theorem Wrapping.checkClass_eq (h : Wrapping arena other pairs)
    (hpair : pairs i j) (model : Model) (name : String) :
    other.checkClass model (some j) name
      = arena.checkClass model (some i) name := by
  unfold checkClass
  simp only [h.report_eq (.some hpair), h.docOf hpair]

/-- A prototype is judged with its value unwrapped. -/
theorem Wrapping.checkPrototype_eq (h : Wrapping arena other pairs)
    (hfinds : other.FindsFunctions) (hpair : pairs i j)
    (hright : Option.Rel pairs right right') (model : Model) :
    other.checkPrototype model (some j) right'
      = arena.checkPrototype model (some i) right := by
  unfold checkPrototype
  simp only [h.isObject_eq hright, h.report_eq (.some hpair),
    h.enclosingFunction?_eq hfinds hpair]

/-- An update of a field is judged alike. -/
theorem Wrapping.fieldUpdate_eq (h : Wrapping arena other pairs)
    (hpair : pairs i j) (model : Model) (function : Nat)
    (owner : Option Nat) (field : String) :
    other.fieldUpdate model (some j) function owner field
      = arena.fieldUpdate model (some i) function owner field := by
  unfold fieldUpdate
  simp only [h.report_eq (.some hpair)]

/-- A field of `this` is checked alike on both sides. -/
theorem Wrapping.checkInstanceField_eq (h : Wrapping arena other pairs)
    (hfinds : other.FindsFunctions) (hpair : pairs i j)
    (hleft : Option.Rel pairs left left') (model : Model) :
    other.checkInstanceField model (some j) left'
      = arena.checkInstanceField model (some i) left := by
  unfold checkInstanceField
  simp only [h.enclosingFunction?_eq hfinds hpair, h.memberName_eq hleft,
    h.enclosingClass_eq hfinds hpair, h.docOf hpair,
    h.fieldUpdate_eq hpair, h.report_eq (.some hpair)]

/-- A static field gets the type of its value, unwrapped. -/
theorem Wrapping.declareStatic_eq (h : Wrapping arena other pairs)
    (hpair : pairs i j) (hright : Option.Rel pairs right right')
    (model : Model) (owner : Option Nat) (field : String) :
    other.declareStatic model (some j) right' owner field
      = arena.declareStatic model (some i) right owner field := by
  unfold declareStatic
  simp only [h.docOf hpair, h.report_eq (.some hpair)]
  exact h.forms_cases hright rfl fun joint _ => by cases joint <;> rfl

/-- Declared or updated, it is judged alike. -/
theorem Wrapping.checkStaticField_eq (h : Wrapping arena other pairs)
    (hfinds : other.FindsFunctions) (hpair : pairs i j)
    (hright : Option.Rel pairs right right') (model : Model)
    (name : String) :
    other.checkStaticField model (some j) right' name
      = arena.checkStaticField model (some i) right name := by
  unfold checkStaticField updateStatic
  simp only [h.enclosingClass_eq hfinds hpair,
    h.enclosingFunction?_eq hfinds hpair, h.declareStatic_eq hpair hright,
    h.report_eq (.some hpair)]

/-- Which check an assignment calls for follows from names and from kinds of
nodes. -/
theorem Wrapping.checkAssignment_eq (h : Wrapping arena other pairs)
    (hfinds : other.FindsFunctions) (hpair : pairs i j)
    (hleft : Option.Rel pairs left left')
    (hright : Option.Rel pairs right right') (model : Model) :
    other.checkAssignment model (some j) left' right'
      = arena.checkAssignment model (some i) left right := by
  unfold checkAssignment defineClass
  simp only [h.nameOf_eq hleft, h.isFunction_eq hright,
    h.isObject_eq hright, h.lineOf hpair, h.isOwnMember_eq hleft,
    h.checkClass_eq hpair, h.checkPrototype_eq hfinds hpair hright,
    h.checkInstanceField_eq hfinds hpair hleft,
    h.checkStaticField_eq hfinds hpair hright]

end

-- =============================================================== calls

/-- The arguments of directives are not wrapped. -/
theorem Wrapping.checkCall_eq (h : Wrapping arena other pairs)
    (hpair : pairs i j) {callee callee' : Ref}
    (hcallee : Option.Rel pairs callee callee') (slots : List (Ref × Ref))
    (hslots : ∀ slot ∈ slots, Option.Rel pairs slot.1 slot.2)
    (model : Model) :
    other.checkCall model (some j) callee' (slots.map Prod.snd)
      = arena.checkCall model (some i) callee (slots.map Prod.fst) := by
  unfold checkCall checkPackage checkSuppress checkExtends linkClasses
  simp only [h.nameOf_eq hcallee, h.report_eq (.some hpair)]
  match slots with
  | [] => rfl
  | [slot] =>
      simp only [List.map_cons, List.map_nil,
        h.stringValue?_eq (hslots slot (.head _))]
  | [slot, slot'] =>
      simp only [List.map_cons, List.map_nil,
        h.nameOf_eq (hslots slot (.head _)),
        h.nameOf_eq (hslots slot' (.tail _ (.head _)))]
  | _ :: _ :: _ :: _ => rfl

-- =============================================================== shapes

/-- A literal is the body of a class if it is assigned to a name of the right
kind. -/
theorem isClassBody_eq_any (arena : Arena) (literal : Ref) :
    arena.isClassBody literal = (arena.assignedTo? literal).any fun name =>
      Naming.isPrototypeName name || Naming.isClassName name := by
  unfold isClassBody assignedTo?
  cases arena.form? (arena.parentOf literal) with
  | none => rfl
  | some form => cases form <;> rfl

/-- The keys of object literals belong together. -/
theorem Wrapping.keysOf_rel (h : Wrapping arena other pairs)
    {slots : List (Ref × Ref)}
    (hslots : ∀ slot ∈ slots, Option.Rel pairs slot.1 slot.2) :
    List.Forall₂ (Option.Rel pairs) (arena.keysOf (slots.map Prod.fst))
      (other.keysOf (slots.map Prod.snd)) := by
  induction slots with
  | nil => exact .nil
  | cons slot slots ih =>
      have hrest := ih fun slot hslot => hslots slot (.tail _ hslot)
      unfold keysOf at hrest ⊢
      rw [List.map_cons, List.map_cons, List.filterMap_cons,
        List.filterMap_cons]
      have hslot := hslots slot (.head _)
      refine h.forms_cases hslot hrest fun joint hwraps => ?_
      cases joint with
      | property key value => exact .cons (hwraps key (.head _)) hrest
      | _ => exact hrest

/-- Keys are partners, one after the other. -/
theorem Wrapping.checkKeys_eq (h : Wrapping arena other pairs)
    {keys keys' : List Ref}
    (hkeys : List.Forall₂ (Option.Rel pairs) keys keys')
    (documented : Bool) (seen : List String) :
    other.checkKeys documented seen keys'
      = arena.checkKeys documented seen keys := by
  induction hkeys generalizing seen with
  | nil => rfl
  | cons hkey _ ih =>
      simp only [checkKeys, h.nameOf_eq hkey, h.docOf_eq hkey,
        h.report_eq hkey, ih]

/-- An object with the same keys on both sides. -/
theorem Wrapping.checkObject_eq (h : Wrapping arena other pairs)
    (hpair : pairs i j) {slots : List (Ref × Ref)}
    (hslots : ∀ slot ∈ slots, Option.Rel pairs slot.1 slot.2) :
    other.checkObject (some j) (slots.map Prod.snd)
      = arena.checkObject (some i) (slots.map Prod.fst) := by
  unfold checkObject
  rw [isClassBody_eq_any, isClassBody_eq_any,
    h.assignedTo?_eq (.some hpair), h.checkKeys_eq (h.keysOf_rel hslots)]

/-- Both are breaks or neither is. -/
theorem Wrapping.isBreak_eq (h : Wrapping arena other pairs)
    (hrel : Option.Rel pairs ref ref') :
    other.isBreak ref' = arena.isBreak ref := by
  unfold isBreak
  exact h.forms_cases hrel rfl fun joint _ => by cases joint <;> rfl

/-- Tests that agree on a list find the same in it. -/
theorem any_eq_any {α : Type} {xs : List α} {p q : α → Bool}
    (h : ∀ x ∈ xs, p x = q x) : xs.any p = xs.any q := by
  rw [← Function.id_comp p, ← Function.id_comp q, ← List.any_map,
    ← List.any_map, List.map_congr_left h]

/-- Clauses that belong together are default clauses, or have the same
statements. -/
theorem Wrapping.clause_eq (h : Wrapping arena other pairs)
    (hrel : Option.Rel pairs ref ref') :
    other.isDefault ref' = arena.isDefault ref
      ∧ other.lacksBreak ref' = arena.lacksBreak ref := by
  unfold isDefault lacksBreak
  refine h.forms_cases hrel ⟨rfl, rfl⟩ fun joint hwraps => ?_
  cases joint with
  | clause test statements =>
      obtain ⟨test, test'⟩ := test
      have hbreaks : (statements.map Prod.snd).any other.isBreak
          = (statements.map Prod.fst).any arena.isBreak := by
        rw [List.any_map, List.any_map]
        exact any_eq_any fun slot hslot =>
          h.isBreak_eq (hwraps slot (.tail _ hslot))
      cases (show Option.Rel pairs test test' from hwraps _ (.head _)) with
      | none => exact ⟨rfl, rfl⟩
      | some => exact ⟨rfl, congrArg (!·) hbreaks⟩
  | _ => exact ⟨rfl, rfl⟩

/-- A switch statement with the same clauses. -/
theorem Wrapping.checkSwitch_eq (h : Wrapping arena other pairs)
    (hpair : pairs i j) {slots : List (Ref × Ref)}
    (hslots : ∀ slot ∈ slots, Option.Rel pairs slot.1 slot.2) :
    other.checkSwitch (some j) (slots.map Prod.snd)
      = arena.checkSwitch (some i) (slots.map Prod.fst) := by
  have hdefault : (slots.map Prod.snd).any other.isDefault
      = (slots.map Prod.fst).any arena.isDefault := by
    rw [List.any_map, List.any_map]
    exact any_eq_any fun slot hslot =>
      (h.clause_eq (hslots slot hslot)).1
  have hlacks : slots.filter (other.lacksBreak ∘ Prod.snd)
      = slots.filter (arena.lacksBreak ∘ Prod.fst) :=
    List.filter_congr fun slot hslot => (h.clause_eq (hslots slot hslot)).2
  unfold checkSwitch
  rw [hdefault, h.report_eq (.some hpair), List.filter_map, List.filter_map,
    hlacks, List.map_map, List.map_map]
  refine congrArg (· ++ _) (List.map_congr_left fun slot hslot => ?_)
  exact h.report_eq (hslots slot (List.mem_of_mem_filter hslot)) _ _

-- =============================================================== nodes

/-- Nodes that belong together are checked with the same outcome. -/
theorem Wrapping.checkNode_eq (h : Wrapping arena other pairs)
    (hfinds : other.FindsFunctions) (hpair : pairs i j) (model : Model) :
    other.checkNode model j = arena.checkNode model i := by
  obtain ⟨joint, hform, hform', hwraps⟩ := h.forms hpair
  unfold checkNode
  dsimp only
  rw [hform, hform']
  -- forms that are checked for something, each by its own lemma; to the others
  -- nothing happens
  cases joint with
  | assignment left operator right =>
      exact congrArg Except.ok (h.checkAssignment_eq hfinds hpair
        (hwraps left (.head _)) (hwraps right (.tail _ (.head _))) model)
  | call callee slots =>
      exact congrArg Except.ok (h.checkCall_eq hpair
        (hwraps callee (.head _)) slots
        (fun slot hslot => hwraps slot (.tail _ hslot)) model)
  | construct callee slots =>
      simp only [Form.map, checkConstruct,
        h.nameOf_eq (hwraps callee (.head _)), h.report_eq (.some hpair)]
  | object slots =>
      have hkeys : other.checkObject (some j) (slots.map Prod.snd)
          = arena.checkObject (some i) (slots.map Prod.fst) :=
        h.checkObject_eq hpair hwraps
      simp only [Form.map, hkeys]
  | returning value => exact h.checkReturn_eq hfinds hpair hwraps model
  | switch subject slots =>
      simp only [Form.map, h.checkSwitch_eq hpair
        fun slot hslot => hwraps slot (.tail _ hslot)]
  | declaration name value =>
      exact congrArg Except.ok
        (h.checkDeclaration_eq hfinds hpair hwraps.1 hwraps.2 model)
  | _ => rfl

/-- There is nothing to check about parentheses. -/
theorem checkNode_paren {w : Nat} {inner : Ref}
    (h : arena.form? (some w) = some (.paren inner)) (model : Model) :
    arena.checkNode model w = .ok { model } := by
  unfold checkNode
  dsimp only
  rw [h]

end Arena

-- ============================================================ sessions

namespace Session

variable {arena other : Arena} {pairs : Nat → Nat → Prop}

/-- Nodes in which only parentheses come in between are checked with the same
results. -/
theorem visit_of_follows (h : arena.Wrapping other pairs)
    (hfinds : other.FindsFunctions) {nodes nodes' : List Nat}
    (hfollows : Arena.Follows other pairs nodes nodes') (session : Session) :
    visit other nodes' session = visit arena nodes session := by
  induction hfollows generalizing session with
  | nil => rfl
  | node hpair _ ih =>
      rw [visit, visit, h.checkNode_eq hfinds hpair]
      split
      · rfl
      · exact ih _
  | paren hparen _ ih =>
      rw [visit, Arena.checkNode_paren hparen]
      exact ih session

/-- Parentheses around returned values, and around initial values that are
neither function literals nor members of `this`, leave everything that is
found as it is, and everything that is recorded. -/
theorem check_wrapped {text text' : String} {tree tree' : Tree}
    (h : Tree.parse text = .ok tree) (h' : Tree.parse text' = .ok tree')
    (hwraps : tree.Wraps (.ofText text) (.ofText text') tree')
    (hfinds : (Arena.ofTree (.ofText text') tree').2.FindsFunctions)
    (session : Session) (file : String) :
    session.check file text' = session.check file text := by
  obtain ⟨htree, hshows⟩ := Arena.isTree_shows_ofTree tree
  obtain ⟨htree', hshows'⟩ := Arena.isTree_shows_ofTree tree'
  have hwrapping : Arena.Wrapping _ _
      (Arena.Linked (.ofText text) (.ofText text') _ _ _ _) :=
    Arena.wrapping_of_linked htree htree'
  have hfollows := hwrapping.follows_preorder htree htree'
    (.root hshows hshows' hwraps)
  have htrees : (session.reset file).checkTree
        (Arena.ofTree (.ofText text') tree').2
        (some (Arena.ofTree (.ofText text') tree').1)
      = (session.reset file).checkTree (Arena.ofTree (.ofText text) tree).2
        (some (Arena.ofTree (.ofText text) tree).1) := by
    unfold checkTree
    rw [visit_of_follows hwrapping hfinds hfollows]
  rw [check_eq, check_eq, h, h']
  dsimp only
  rw [htrees]

/-- A function with a variable that it returns. -/
def bareNumber : String := "function f()\x7bvar a=1;return a;\x7d"

/-- Whether a tree is that of `bareNumber`, wherever its nodes stop. -/
def isBareNumber : Tree → Bool
  | .node 0 _ none (.file [some (.node 0 _ none (.function
      (some (.node 9 _ none (.identifier "f"))) []
      (some (.node 12 _ none (.block [
        some (.node 13 _ none (.declarations [
          some (.node 17 _ none (.declaration
            (some (.node 17 _ none (.identifier "a")))
            (some (.node 19 _ none (.number "1")))))])),
        some (.node 21 _ none (.returning
          (some (.node 28 _ none (.identifier "a")))))]))) true))]) => true
  | _ => false

/-- The function of `bareNumber` with parentheses around both values. -/
def wrappedNumber : String := "function f()\x7bvar a=(1);return(a);\x7d"

/-- Whether a tree is that of `wrappedNumber`, wherever its nodes stop. -/
def isWrappedNumber : Tree → Bool
  | .node 0 _ none (.file [some (.node 0 _ none (.function
      (some (.node 9 _ none (.identifier "f"))) []
      (some (.node 12 _ none (.block [
        some (.node 13 _ none (.declarations [
          some (.node 17 _ none (.declaration
            (some (.node 17 _ none (.identifier "a")))
            (some (.node 19 _ _ (.paren
              (some (.node 20 _ none (.number "1"))))))))])),
        some (.node 23 _ none (.returning
          (some (.node 29 _ _ (.paren
            (some (.node 30 _ none (.identifier "a"))))))))]))) true))]) =>
      true
  | _ => false

/-- The second tree is the first one with parentheses. -/
theorem wraps_wrappedNumber {tree tree' : Tree}
    (h : isBareNumber tree = true) (h' : isWrappedNumber tree' = true) :
    tree.Wraps (.ofText bareNumber) (.ofText wrappedNumber) tree' := by
  have hline : ∀ m < 40, ∀ n < 40,
      (Text.LineMap.ofText bareNumber).lineOf m
        = (Text.LineMap.ofText wrappedNumber).lineOf n := by decide +kernel
  have hvariable (start start' stop stop' : Nat) (hm : start < 40)
      (hn : start' < 40) :
      Tree.Wraps (.ofText bareNumber) (.ofText wrappedNumber)
        (.node start stop none (.identifier "a"))
        (.node start' stop' none (.identifier "a")) :=
    .of_slots (.identifier "a") (hline _ hm _ hn) (List.forall_mem_nil _)
  have hwrappable {tree : Tree} (hlevel : tree.level = 16)
      (hbare : ∀ inner, tree.form ≠ .paren inner) : tree.Wrappable :=
    ⟨by omega, .bare hbare⟩
  unfold isBareNumber at h
  unfold isWrappedNumber at h'
  split at h
  · split at h'
    · refine .of_slots (.file [(some _, some _)])
        (hline 0 (by decide) 0 (by decide))
        (List.forall_mem_singleton.2 (.some ?_))
      refine .of_slots (.function (some _, some _) [] (some _, some _) true)
        (hline 0 (by decide) 0 (by decide))
        (List.forall_mem_cons.2 ⟨.some ?_,
          List.forall_mem_singleton.2 (.some ?_)⟩)
      · exact .of_slots (.identifier "f")
          (hline 9 (by decide) 9 (by decide)) (List.forall_mem_nil _)
      refine .of_slots (.block [(some _, some _), (some _, some _)])
        (hline 12 (by decide) 12 (by decide))
        (List.forall_mem_cons.2 ⟨.some ?_,
          List.forall_mem_singleton.2 (.some ?_)⟩)
      · refine .of_slots (.declarations [(some _, some _)])
          (hline 13 (by decide) 13 (by decide))
          (List.forall_mem_singleton.2 (.some ?_))
        exact .initialised (hline 17 (by decide) 17 (by decide))
          (hvariable _ _ _ _ (by decide) (by decide))
          (hwrappable rfl fun _ hparen => by cases hparen) rfl rfl
          (.of_slots (.number "1")
            (hline 19 (by decide) 20 (by decide)) (List.forall_mem_nil _))
      · exact .returned (hline 21 (by decide) 23 (by decide))
          (hwrappable rfl fun _ hparen => by cases hparen)
          (hvariable _ _ _ _ (by decide) (by decide))
    · cases h'
  · cases h

/-- The parentheses change nothing. -/
theorem check_wrapped_number :
    Tree.Parses bareNumber fun tree =>
      Tree.Parses wrappedNumber fun tree' =>
        tree.Wraps (.ofText bareNumber) (.ofText wrappedNumber) tree'
          ∧ (Arena.ofTree (.ofText wrappedNumber) tree').2.FindsFunctions
          ∧ (start {}).check "f.js" wrappedNumber
            = (start {}).check "f.js" bareNumber := by
  have hbare : Tree.Parses bareNumber (isBareNumber · = true) := by
    decide +kernel
  have hwrapped : Tree.Parses wrappedNumber fun tree =>
      isWrappedNumber tree = true
        ∧ (Arena.ofTree (.ofText wrappedNumber) tree).2.size ≤ 10000 := by
    decide +kernel
  obtain ⟨tree, hparse, hshape⟩ := hbare
  obtain ⟨tree', hparse', hshape', hsize⟩ := hwrapped
  have hwraps := wraps_wrappedNumber hshape hshape'
  have hfinds := Arena.findsFunctions_of_size
    (Arena.isTree_shows_ofTree tree').1 hsize
  exact ⟨tree, hparse, tree', hparse', hwraps, hfinds,
    check_wrapped hparse hparse' hwraps hfinds (start {}) "f.js"⟩

/-- A function as the value of a variable. -/
def heldBare : String := "var x=function()\x7b\x7d;"

/-- A function in parentheses as the value of a variable. -/
def heldWrapped : String := "var x=(function()\x7b\x7d);"

/-- In parentheses, the function is not found fault with. -/
theorem not_check_wrapped_held :
    ((start {}).check "f.js" heldBare).2
        = .ok [.of .badFuncDef "f.js" 1 none]
      ∧ ((start {}).check "f.js" heldWrapped).2 = .ok [] := by
  decide +kernel

end Session

end ScriptLint
