/-
Functions as they are entered. A function node is known by its name, and
looking up the function around a node enters it: the entry for its name
gets the declared return type and, where it is new, the parameters, and no
other entry changes (`Arena.lookUp?_enterFunction`). What is looked up has
the name of the node, which tells its role
(`Arena.isConstructor_enclosingFunction?`).
-/
import ScriptLint.Check.Scope
import ScriptLint.Proofs.Registry

namespace ScriptLint.Arena

variable {arena : Arena} {model later : Model} {i function : Nat}

-- ============================================================= entering

/-- The return type that the documentation of a function declares, if it
is documented. -/
def declaredReturn? (arena : Arena) (function : Nat) : Option ValueType :=
  (arena.identityOf function).doc.map fun doc =>
    .ofName? (DocTags.parse doc).returnType?

/-- What is known about a new function when it is entered. -/
def freshInfo (arena : Arena) (function : Nat) : FunctionInfo where
  returnType := (arena.declaredReturn? function).getD .void
  locals := arena.parametersOf function
    ((arena.identityOf function).doc.map DocTags.parse)

/-- What is known about a function when it is entered, new or again. -/
def entered (arena : Arena) (function : Nat) :
    Option FunctionInfo → FunctionInfo
  | none => arena.freshInfo function
  | some info =>
    { info with
      returnType := (arena.declaredReturn? function).getD info.returnType }

theorem foldl_addVariable (slots : List Slot) (info : FunctionInfo) :
    slots.foldl (fun info slot => info.addVariable slot) info
      = { info with locals := info.locals ++ slots } := by
  induction slots generalizing info with
  | nil => simp
  | cons slot slots ih =>
      rw [List.foldl_cons, ih, FunctionInfo.addVariable, List.append_assoc]
      rfl

/-- Entering a function node changes the entry for its name alone. -/
theorem lookUp?_enterFunction (arena : Arena) (functions : FunctionTable)
    (function : Nat) (name : String) :
    (arena.enterFunction functions function).2.lookUp? name
      = if name = (arena.identityOf function).name
        then some (arena.entered function (functions.lookUp? name))
        else functions.lookUp? name := by
  have hself := Registry.find?_intern_self functions
    (arena.identityOf function).name {}
  have hagain := fun id f =>
    (Registry.find?_update id f _).trans hself
  unfold enterFunction FunctionTable.enter
  dsimp only
  -- only the entry of that name is touched; if it is new it gets the
  -- parameters, and if there is documentation it gets the type
  by_cases hname : name = (arena.identityOf function).name
  · subst hname
    rw [if_pos rfl]
    cases hold : functions.lookUp? (arena.identityOf function).name with
    | none =>
        have hnew := Registry.lookUp?_eq_none_iff.1 hold
        cases hdoc : (arena.identityOf function).doc <;>
          simp [hnew, hold, hdoc, Registry.lookUp?_update hself,
            Registry.lookUp?_update (hagain _ _), Registry.lookUp?_intern,
            foldl_addVariable, entered, freshInfo, declaredReturn?]
    | some info =>
        have hknown : functions.find? (arena.identityOf function).name
            ≠ none := by
          rw [Ne, ← Registry.lookUp?_eq_none_iff, hold]
          exact Option.some_ne_none info
        cases hdoc : (arena.identityOf function).doc <;>
          simp [hknown, hold, Registry.lookUp?_update hself,
            Registry.lookUp?_intern, entered, hdoc, declaredReturn?]
  · rw [if_neg hname]
    cases (arena.identityOf function).doc <;> dsimp only [Option.map] <;>
      split <;> simp [hname, Registry.lookUp?_update hself,
        Registry.lookUp?_update (hagain _ _), Registry.lookUp?_intern]

theorem find?_enterFunction (arena : Arena) (functions : FunctionTable)
    (function : Nat) :
    (arena.enterFunction functions function).2.find?
        (arena.identityOf function).name
      = some (arena.enterFunction functions function).1 := by
  have hself := Registry.find?_intern_self functions
    (arena.identityOf function).name {}
  unfold enterFunction FunctionTable.enter
  dsimp only
  cases (arena.identityOf function).doc <;> dsimp only [Option.map] <;>
    split <;> simp only [Registry.find?_update, hself]

-- =========================================================== enclosing

/-- Looking up a class does not touch the functions. -/
theorem functions_enclosingClass (model : Model) (ref : Ref) :
    (arena.enclosingClass model ref).2.functions = model.functions := by
  unfold enclosingClass
  split <;> rfl

/-- The node is in a constructor: the function around it is named like a
class. -/
def InConstructor (arena : Arena) (i : Nat) : Prop :=
  ∃ f, arena.functionAround? (some i) = some f
    ∧ Naming.isClassName (arena.identityOf f).name = true

/-- The function that is entered is the one around the node. -/
theorem nameOf_enclosingFunction? {ref : Ref}
    (h : arena.enclosingFunction? model ref = some (function, later)) :
    ∃ f, arena.functionAround? ref = some f
      ∧ later.functions.nameOf function = (arena.identityOf f).name := by
  obtain ⟨f, hf, hentered⟩ := Option.map_eq_some_iff.1 h
  cases hentered
  exact ⟨f, hf, Registry.nameOf_of_find? (find?_enterFunction ..)⟩

theorem isConstructor_enclosingFunction?
    (h : arena.enclosingFunction? model (some i) = some (function, later)) :
    later.functions.isConstructor function = true
      ↔ arena.InConstructor i := by
  obtain ⟨f, hf, hname⟩ := nameOf_enclosingFunction? h
  unfold FunctionTable.isConstructor InConstructor
  rw [hname, hf]
  constructor
  · intro hclass
    exact ⟨f, rfl, hclass⟩
  · rintro ⟨_, hsame, hclass⟩
    rw [Option.some.inj hsame]
    exact hclass

end ScriptLint.Arena
