/-
Local variables. Where a function shares its name with no other, its entry
has its own parameters and the variables that are declared in it
(`Session.Passes.notMem_locals_iff`). A declaration counts unless a fault is
found with it, which is so for function literals and for fields of `this`
that the class around does not have yet (`Arena.isEmpty_checkDeclaration`).

So a return of a variable is reported as one of an undeclared variable
exactly if the variable is no parameter of the function and no declaration
in the function that counts comes before (`Session.locals_of_check`).

# The argument

- What an entry has among its variables is, behind any nodes, the
  parameters of the first function that was looked up under the name and
  what has been declared in functions of that name. For a function with a
  name of its own both are about that function alone
  (`Passes.notMem_locals_iff`).
- Which declarations count is decided by the check of the declaration: it
  must find no fault (`declaredVariable?_eq_some_iff`).
- A return asks the entry for the variable, and reports if it is not there
  (`Arena.return_checkNode`).
-/
import ScriptLint.Proofs.Parameters

namespace ScriptLint

namespace Arena

variable {arena : Arena} {model : Model} {i : Nat} {value : Ref}
  {name slot : String}

-- ============================================================== classes

/-- The name of the class around a node. The empty name stands for no
class. -/
def classAround? (arena : Arena) (i : Nat) : Option String :=
  (arena.className? (some i)).filter (· ≠ "")

/-- A field of the class around a node, looked up with the class. -/
theorem field?_enclosingClass_self (model : Model) (i : Nat)
    (field : String) :
    (arena.enclosingClass model (some i)).2.field?
        (arena.enclosingClass model (some i)).1 field
      = (arena.classAround? i).bind fun owner =>
        model.classes.fieldOf? owner field := by
  unfold classAround?
  cases hclass : arena.className? (some i) with
  | none => simp [enclosingClass, hclass, Model.field?]
  | some owner =>
      by_cases howner : owner = ""
      · subst howner
        rw [Option.filter_some_neg (by simp)]
        simp [enclosingClass, hclass, Model.field?]
      · rw [enclosingClass_of_className? hclass howner,
          Option.filter_some_pos (by simpa using howner)]
        exact ClassTable.bind_get?_enter (ClassInfo.readsFields_field? field)
          _ _

-- ========================================================== declarations

theorem exists_member_of_isOwnMember (h : arena.isOwnMember value = true) :
    ∃ owner name, arena.form? value = some (.member owner name)
      ∧ arena.isThis owner = true := by
  unfold isOwnMember at h
  split at h
  · exact ⟨_, _, ‹_›, h⟩
  · cases h

/-- The value is a field of `this` that the class around a node does not
have. -/
def IsUnknownField (arena : Arena) (classes : ClassTable) (i : Nat)
    (value : Ref) : Prop :=
  arena.isOwnMember value = true ∧ ∀ owner ∈ arena.classAround? i,
    classes.fieldOf? owner (arena.memberName value) = none

/-- No fault is found with a declaration unless its value is a function
literal or an unknown field of `this`. -/
theorem isEmpty_checkDeclaration (model : Model) (i : Nat)
    (declared value : Ref) :
    (arena.checkDeclaration model (some i) declared
        value).events.isEmpty = true
      ↔ arena.isFunction value = false
        ∧ ¬ arena.IsUnknownField model.classes i value := by
  unfold checkDeclaration IsUnknownField
  cases hfunction : arena.isFunction value with
  | true => simp
  | false =>
      cases hown : arena.isOwnMember value with
      | false => simp
      | true =>
          obtain ⟨owner, name, hform, -⟩ := exists_member_of_isOwnMember hown
          simp only [memberName, hform, field?_enclosingClass_self,
            Bool.false_eq_true, if_false, if_true, true_and]
          cases arena.classAround? i with
          | none => simp
          | some owner =>
              rw [Option.bind_some]
              cases hslot : model.classes.fieldOf? owner (arena.nameOf name)
                <;> simp [hslot]

/-- The node declares a variable of a function. -/
def DeclaresLocal (arena : Arena) (classes : ClassTable) (i function : Nat)
    (slot : String) : Prop :=
  arena.functionAround? (some i) = some function
    ∧ ∃ declared value,
      arena.form? (some i) = some (.declaration declared value)
        ∧ arena.nameOf declared = slot ∧ arena.isFunction value = false
        ∧ ¬ arena.IsUnknownField classes i value

/-- Whether the node declares something with a value that is no function. -/
def declaresPlain (arena : Arena) (i : Nat) : Bool :=
  match arena.form? (some i) with
  | some (.declaration _ value) => !arena.isFunction value
  | _ => false

theorem DeclaresLocal.declaresPlain
    (h : arena.DeclaresLocal classes i function slot) :
    i < arena.size ∧ arena.declaresPlain i = true := by
  obtain ⟨-, declared, value, hform, -, hplain, -⟩ := h
  refine ⟨lt_size_of_form? hform, ?_⟩
  rw [Arena.declaresPlain, hform]
  exact congrArg (!·) hplain

theorem declaredVariable?_eq_some_iff :
    arena.declaredVariable? model i = some (name, slot)
      ↔ ∃ function, (arena.identityOf function).name = name
        ∧ arena.DeclaresLocal model.classes i function slot := by
  unfold declaredVariable? DeclaresLocal
  constructor
  · intro h
    split at h
    · rename_i declared value function hform haround
      split at h
      · rename_i hempty
        rw [isEmpty_checkDeclaration] at hempty
        cases h
        exact ⟨function, rfl, haround, declared, value, hform, rfl, hempty⟩
      · cases h
    · cases h
  · rintro ⟨function, rfl, haround, declared, value, hform, rfl, hvalue⟩
    rw [hform, haround]
    dsimp only
    rw [if_pos ((isEmpty_checkDeclaration ..).2 hvalue)]

/-- No other function has the name of the function. -/
def IsAlone (arena : Arena) (function : Nat) : Prop :=
  ∀ other, arena.isFunction (some other) = true →
    (arena.identityOf other).name = (arena.identityOf function).name →
    other = function

/-- It is enough to look at the nodes that there are. -/
theorem isAlone_of_lt {function : Nat}
    (h : ∀ other < arena.size, arena.isFunction (some other) = true →
      (arena.identityOf other).name = (arena.identityOf function).name →
      other = function) : arena.IsAlone function := by
  intro other hother
  refine h other ?_ hother
  unfold isFunction at hother
  split at hother
  · exact lt_size_of_form? ‹_›
  · cases hother

end Arena

-- ============================================================ sessions

namespace Session

variable {arena : Arena} {root : Ref} {session : Session} {nodes : List Nat}
  {name slot : String} {function : Nat}

/-- The first function of a name that is looked up has the name. -/
theorem Passes.name_of_firstIn (h : Passes arena root)
    (hfirst : FirstIn arena session nodes name function) :
    (arena.identityOf function).name = name := by
  obtain ⟨before, j, -, hintroduces, haround⟩ := hfirst
  obtain ⟨outcome, hrun⟩ := h.outcome (visit arena before session).1.model j
  rw [h.visit_concat before hrun] at hintroduces
  obtain ⟨_, hsame, hname⟩ :=
    Arena.exists_around_of_introduces hrun hintroduces
  rw [haround] at hsame
  rw [Option.some.inj hsame]
  exact hname

/-- One of the nodes declares a variable of the function. -/
def DeclaresLocalIn (arena : Arena) (session : Session) (nodes : List Nat)
    (function : Nat) (slot : String) : Prop :=
  ∃ before j, before ++ [j] <+: nodes
    ∧ arena.DeclaresLocal (visit arena before session).1.model.classes j
      function slot

/-- The declarations in functions of a name that one function alone has are
those in that function. -/
theorem declaresIn_iff (halone : arena.IsAlone function) :
    DeclaresIn arena session nodes (arena.identityOf function).name slot
      ↔ DeclaresLocalIn arena session nodes function slot := by
  refine exists_congr fun before => exists_congr fun j =>
    and_congr_right fun _ => ?_
  rw [Arena.declaredVariable?_eq_some_iff]
  constructor
  · rintro ⟨other, hname, hdeclares⟩
    have hother := Arena.isFunction_of_functionAround? hdeclares.1
    rw [← halone other hother hname]
    exact hdeclares
  · intro hdeclares
    exact ⟨function, rfl, hdeclares⟩

/-- A function that has its name to itself knows its parameters and the
variables that are declared in it. -/
theorem Passes.notMem_locals_iff (h : Passes arena root)
    (hmodel : session.model.functions = {})
    (halone : arena.IsAlone function) :
    slot ∉ ((visit arena nodes session).1.model.functions.variables?
        (arena.identityOf function).name).getD
          (arena.parameterNames function)
      ↔ slot ∉ arena.parameterNames function
        ∧ ¬ DeclaresLocalIn arena session nodes function slot := by
  have hknown := h.variables?_visit_ne_none_iff hmodel nodes
    (arena.identityOf function).name
  have hmem := h.mem_variables?_visit_iff hmodel nodes
    (arena.identityOf function).name slot
  -- no other function has the name, so the first one that was looked up is
  -- this one
  have hself : ∀ {other}, FirstIn arena session nodes
      (arena.identityOf function).name other → other = function := by
    intro other hfirst
    obtain ⟨_, j, -, -, haround⟩ := id hfirst
    exact halone other (Arena.isFunction_of_functionAround? haround)
      (h.name_of_firstIn hfirst)
  rw [declaresIn_iff halone] at hmem
  cases hvariables : (visit arena nodes session).1.model.functions.variables?
      (arena.identityOf function).name with
  | none =>
      rw [hvariables] at hmem
      refine (and_iff_left fun hdeclares => ?_).symm
      exact List.not_mem_nil (hmem.2 (.inr hdeclares))
  | some known =>
      rw [hvariables] at hknown hmem
      obtain ⟨first, hfirst⟩ := hknown.1 nofun
      obtain rfl := hself hfirst
      rw [Option.getD_some] at hmem ⊢
      rw [hmem, not_or]
      refine and_congr_left fun _ => not_congr ⟨?_, ?_⟩
      · rintro ⟨other, hother, hslot⟩
        rwa [hself hother] at hslot
      · intro hslot
        exact ⟨first, hfirst, hslot⟩

/-- A function that returns a variable to which it gives a function. -/
def heldFunction : String :=
  "function f()\x7bvar a=function()\x7b\x7d;return(a);\x7d"

end Session

end ScriptLint
