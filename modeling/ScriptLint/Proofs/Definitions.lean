/-
Where classes are defined. A class is defined by the first assignment of a
function or an object literal to its name (`Arena.definition?`), at the
line of that assignment, and by nothing else: looking classes up enters
them, and links and fields change them, without defining any. So where a
class is defined behind some nodes can be read off the nodes
(`Session.Passes.definedAt?_visit`).
-/
import ScriptLint.Proofs.Findings

namespace ScriptLint

-- ============================================================== tables

namespace ClassTable

variable {name : String}

/-- The line at which the class with a name is defined. -/
def definedAt? (classes : ClassTable) (name : String) : Option Nat :=
  (classes.lookUp? name).bind ClassInfo.definedAt

theorem isDefined_eq (classes : ClassTable) (name : String) :
    classes.isDefined name = (classes.definedAt? name).isSome := by
  show (classes.lookUp? name).any _ = _
  rw [definedAt?]
  cases classes.lookUp? name <;> rfl

theorem definedAt?_enter (classes : ClassTable) (entered name : String) :
    (classes.enter entered).2.definedAt? name = classes.definedAt? name :=
  Registry.bind_lookUp?_intern classes entered name rfl

theorem definedAt?_update (classes : ClassTable) (id : Nat)
    {f : ClassInfo → ClassInfo} (name : String)
    (hf : ∀ info, (f info).definedAt = info.definedAt) :
    definedAt? (classes.update id f) name = classes.definedAt? name :=
  Registry.bind_lookUp?_update classes id name hf

theorem definedAt?_define (classes : ClassTable) (defined : String)
    (line : Nat) (name : String) :
    (classes.define defined line).2.definedAt? name
      = if name = defined then (classes.definedAt? name).or (some line)
        else classes.definedAt? name := by
  have hself := Registry.find?_intern_self classes defined {}
  have hentered := classes.definedAt?_enter defined name
  unfold definedAt? at hentered ⊢
  rw [define, ← hentered]
  dsimp only
  rw [enter, Registry.lookUp?_update hself]
  split
  · rename_i hname
    rw [hname, Registry.lookUp?_intern, if_pos rfl]
    rfl
  · rfl

theorem definedAt?_link (classes : ClassTable) (id superId : Nat)
    (name : String) :
    (classes.link id superId).2.definedAt? name
      = classes.definedAt? name := by
  unfold link
  split
  · split <;> rfl
  · split
    · rfl
    · exact classes.definedAt?_update id name fun _ => rfl

end ClassTable

-- =============================================================== nodes

namespace Arena

variable {arena : Arena} {model : Model} {i : Nat} {name : String}
  {classes later : ClassTable}

/-- Where a node defines the class with a name, if it does: the node
assigns a function or an object literal to the name. -/
def definition? (arena : Arena) (i : Nat) (name : String) : Option Nat :=
  if Naming.isClassName name && arena.assignsBody name i then
    some (arena.lineOf (some i))
  else none

/-- The step lemma. -/
theorem Alters.definedAt? (h : arena.Alters i classes later)
    (name : String) :
    later.definedAt? name = classes.definedAt? name
      ∨ later.definedAt? name
        = (classes.definedAt? name).or (arena.definition? i name) := by
  cases h with
  | enter entered => exact .inl (classes.definedAt?_enter entered name)
  | define defined hclass hbody =>
      rw [ClassTable.definedAt?_define]
      split
      · rename_i heq
        right
        rw [definition?, heq, hclass, hbody]
        rfl
      · exact .inl rfl
  | link id superId _ _ =>
      exact .inl (classes.definedAt?_link id superId name)
  | addField id slot _ _ =>
      exact .inl (classes.definedAt?_update id name fun _ => rfl)
  | addStaticField id slot _ _ =>
      exact .inl (classes.definedAt?_update id name fun _ => rfl)

theorem Altered.definedAt? (h : arena.Altered i classes later)
    (name : String) :
    later.definedAt? name = classes.definedAt? name
      ∨ later.definedAt? name
        = (classes.definedAt? name).or (arena.definition? i name) := by
  induction h with
  | refl => exact .inl rfl
  | tail _ hstep ih =>
      -- what the node has defined it defines again to no effect
      rcases hstep.definedAt? name with hsame | hdefined
      · rw [hsame]
        exact ih
      · right
        rcases ih with hold | hnew
        · rw [hdefined, hold]
        · rw [hdefined, hnew, Option.or_assoc, Option.or_self]

theorem exists_assignment_of_assignsBody
    (h : arena.assignsBody name i = true) :
    ∃ left operator right,
      arena.form? (some i) = some (.assignment left operator right)
        ∧ arena.nameOf left = name
        ∧ (arena.isFunction right || arena.isObject right) = true := by
  unfold assignsBody at h
  split at h
  · obtain ⟨hname, hright⟩ := Bool.and_eq_true_iff.1 h
    exact ⟨_, _, _, ‹_›, eq_of_beq hname, hright⟩
  · cases h

/-- The check of a node defines the class that it is a definition of, if
that is not defined yet, and no other. -/
theorem definedAt?_checkNode {outcome : Outcome}
    (h : arena.checkNode model i = .ok outcome) (name : String) :
    outcome.model.classes.definedAt? name
      = (model.classes.definedAt? name).or (arena.definition? i name) := by
  cases hdefinition : arena.definition? i name with
  | none =>
      have haltered := (altered_checkNode h).definedAt? name
      rw [hdefinition, Option.or_none, or_self] at haltered
      rw [haltered, Option.or_none]
  | some line =>
      obtain ⟨hassigns, hline⟩ :=
        Option.ite_none_right_eq_some.1 hdefinition
      obtain rfl := Option.some.inj hline
      obtain ⟨hclass, hbody⟩ := Bool.and_eq_true_iff.1 hassigns
      obtain ⟨left, operator, right, hform, rfl, hright⟩ :=
        exists_assignment_of_assignsBody hbody
      -- the class is defined first, and stays so
      have hdefined : (arena.defineClass model (some i) right
          (arena.nameOf left)).classes.definedAt? (arena.nameOf left)
          = (model.classes.definedAt? (arena.nameOf left)).or
            (some (arena.lineOf (some i))) := by
        rw [defineClass, hclass, hright]
        exact (model.classes.definedAt?_define _ _ _).trans (if_pos rfl)
      rw [checkNode_assignment hform] at h
      cases h
      have haltered := (altered_of_defineClass hform model).definedAt?
        (arena.nameOf left)
      rw [hdefinition, hdefined, Option.or_assoc, Option.or_self,
        or_self] at haltered
      exact haltered

end Arena

-- ============================================================ sessions

namespace Session

variable {arena : Arena} {root : Ref} {session : Session}

/-- Behind some nodes, a class is defined where the first of them that
assigns a function or an object literal to its name stands. -/
theorem Passes.definedAt?_visit (h : Passes arena root)
    (hmodel : session.model.classes = {}) (nodes : List Nat)
    (name : String) :
    (visit arena nodes session).1.model.classes.definedAt? name
      = if Naming.isClassName name then
          (nodes.find? (arena.assignsBody name)).map
            fun i => arena.lineOf (some i)
        else none := by
  induction nodes using List.reverseRecOn with
  | nil =>
      rw [visit, hmodel]
      split <;> rfl
  | append_singleton nodes i ih =>
      obtain ⟨outcome, hrun⟩ :=
        h.outcome (visit arena nodes session).1.model i
      rw [h.visit_concat nodes hrun]
      show outcome.model.classes.definedAt? name = _
      rw [Arena.definedAt?_checkNode hrun, ih, Arena.definition?,
        List.find?_append, Option.map_or]
      cases Naming.isClassName name with
      | false => rfl
      | true =>
          cases hbody : arena.assignsBody name i <;> simp [hbody]

theorem Passes.isSome_definedAt?_visit_iff (h : Passes arena root)
    (hmodel : session.model.classes = {}) (nodes : List Nat)
    (name : String) :
    ((visit arena nodes session).1.model.classes.definedAt? name).isSome
        = true
      ↔ Naming.isClassName name = true
        ∧ ∃ i ∈ nodes, arena.assignsBody name i = true := by
  rw [h.definedAt?_visit hmodel]
  cases Naming.isClassName name <;> simp

/-- The line of a class that is defined. -/
theorem Passes.getD_definedAt?_visit (h : Passes arena root)
    (hmodel : session.model.classes = {}) {nodes : List Nat} {name : String}
    (hdefined : ((visit arena nodes session).1.model.classes.definedAt?
      name).isSome = true) :
    ((visit arena nodes session).1.model.classes.definedAt? name).getD 0
      = arena.lineOf (nodes.find? (arena.assignsBody name)) := by
  rw [h.definedAt?_visit hmodel] at hdefined ⊢
  split at hdefined
  · rename_i hclass
    rw [Option.isSome_map] at hdefined
    obtain ⟨i, hfirst⟩ := Option.isSome_iff_exists.1 hdefined
    rw [if_pos hclass, hfirst]
    rfl
  · cases hdefined

end Session

end ScriptLint
