/-
Variables of functions. Functions of one name share an entry, and so do all
functions without a name. The entry has the parameters of the function that
was looked up first, whatever the others have, and then the variables that
are declared in any of them (`Arena.adds_checkNode`).

So a return of a parameter is reported as one of an undeclared variable
exactly if another function of the same name was looked up first, and has no
such parameter, and no declaration in a function of that name has made up
for it (`Session.parameters_of_check`).
-/
import ScriptLint.Proofs.Findings

namespace ScriptLint

-- ============================================================== tables

/-- The names of the variables of the function with a name, parameters
first, once it has been looked up. -/
def FunctionTable.variables? (functions : FunctionTable) (name : String) :
    Option (List String) :=
  (functions.lookUp? name).map fun info => info.locals.map Slot.name

/-- A function with the name is looked up for the first time. -/
def FunctionTable.Introduces (before after : FunctionTable) (name : String) :
    Prop :=
  before.variables? name = none ∧ after.variables? name ≠ none

namespace Arena

variable {arena : Arena} {model later : Model} {i : Nat}
  {functions : FunctionTable}

/-- The names of the parameters of a function node. -/
def parameterNames (arena : Arena) (function : Nat) : List String :=
  match arena.form? (some function) with
  | some (.function _ parameters _ _) =>
    parameters.filterMap arena.identifier?
  | _ => []

/-- Parameters are named by the function, whatever their documented types
are. -/
theorem map_name_parametersOf (arena : Arena) (function : Nat)
    (tags : Option DocTags) :
    (arena.parametersOf function tags).map Slot.name
      = arena.parameterNames function := by
  have hname : (fun entry : Ref × Nat => ((arena.identifier? entry.1).map
      fun name => Slot.mk name ((tags.bind (·.paramType? entry.2)).elim
        .unknown .ofName)).map Slot.name)
      = arena.identifier? ∘ Prod.fst := by
    funext entry
    cases h : arena.identifier? entry.1 <;> simp [h]
  unfold parametersOf parameterNames
  cases arena.form? (some function) with
  | none => rfl
  | some form =>
      cases form with
      | function name parameters body isDeclaration =>
          dsimp only
          rw [List.map_filterMap, hname, ← List.filterMap_map,
            List.zipIdx_map_fst]
      | _ => rfl

/-- Looking up a function declares its parameters if it is new, and changes
no other variables. -/
theorem variables?_enterFunction (functions : FunctionTable)
    (function : Nat) (name : String) :
    FunctionTable.variables? (arena.enterFunction functions function).2 name
      = if name = (arena.identityOf function).name then
          some ((functions.variables? name).getD
            (arena.parameterNames function))
        else functions.variables? name := by
  unfold FunctionTable.variables?
  rw [lookUp?_enterFunction]
  split
  · cases functions.lookUp? name with
    | none => simp [entered, freshInfo, map_name_parametersOf]
    | some info => simp [entered]
  · rfl

/-- Declaring a variable in a function that has just been looked up. -/
theorem variables?_addVariable (functions : FunctionTable)
    (function : Nat) (slot : Slot) (name : String) :
    FunctionTable.variables?
        ((arena.enterFunction functions function).2.update
          (arena.enterFunction functions function).1 (.addVariable slot)) name
      = if name = (arena.identityOf function).name then
          some ((functions.variables? name).getD
            (arena.parameterNames function) ++ [slot.name])
        else functions.variables? name := by
  have hentered := arena.variables?_enterFunction functions function name
  unfold FunctionTable.variables? at hentered ⊢
  rw [Registry.lookUp?_update (find?_enterFunction ..)]
  split
  · rename_i hname
    rw [if_pos hname] at hentered
    obtain ⟨info, hinfo, hlocals⟩ := Option.map_eq_some_iff.1 hentered
    rw [hinfo]
    simp [FunctionInfo.addVariable, hlocals]
  · rename_i hname
    rw [if_neg hname] at hentered
    exact hentered

-- ============================================================= looking up

/-- The functions once the one around a node has been looked up. -/
def lookedUp (arena : Arena) (functions : FunctionTable) (i : Nat) :
    FunctionTable :=
  (arena.functionAround? (some i)).elim functions fun function =>
    (arena.enterFunction functions function).2

/-- Outside of functions, none is looked up. -/
theorem lookedUp_of_none
    (h : arena.enclosingFunction? model (some i) = none) :
    arena.lookedUp model.functions i = model.functions := by
  unfold lookedUp
  rw [Option.map_eq_none_iff.1 h, Option.elim_none]

/-- Looking for the function around a node enters it. -/
theorem functions_enclosingFunction? {id : Nat}
    (h : arena.enclosingFunction? model (some i) = some (id, later)) :
    later.functions = arena.lookedUp model.functions i := by
  obtain ⟨function, haround, -⟩ := Option.map_eq_some_iff.1 h
  unfold enclosingFunction? at h
  unfold lookedUp
  rw [haround] at h ⊢
  obtain ⟨-, rfl⟩ := Prod.mk.inj (Option.some.inj h)
  rfl

/-- Whether an assignment looks up the function around it: a prototype does
outside of legacy mode, and a field unless it is given a function. -/
def assignsAround (arena : Arena) (model : Model) (left right : Ref) :
    Bool :=
  let name := arena.nameOf left
  let isFunction := arena.isFunction right
  if Naming.isClassName name && isFunction then false
  else if Naming.isPrototypeName name then !model.legacy
  else if arena.isOwnMember left then !isFunction
  else Naming.isStaticMemberName name && !isFunction

/-- Whether the check of a node looks up the function around it. -/
def looksAround (arena : Arena) (model : Model) (i : Nat) : Bool :=
  match arena.form? (some i) with
  | some (.returning _) => true
  | some (.declaration name initializer) =>
    (arena.checkDeclaration model (some i) name initializer).events.isEmpty
  | some (.assignment left _ right) => arena.assignsAround model left right
  | _ => false

/-- Classes are no matter of functions. From here on, what each check does to
the functions: it looks up the one around its node, or leaves them alone. -/
theorem functions_updateClass (model : Model) (owner : Option Nat)
    (f : ClassInfo → ClassInfo) :
    (model.updateClass owner f).functions = model.functions := by
  cases owner <;> rfl

/-- Legacy mode skips the look. -/
theorem functions_checkPrototype (model : Model) (right : Ref) :
    (arena.checkPrototype model (some i) right).model.functions
      = if model.legacy then model.functions
        else arena.lookedUp model.functions i := by
  unfold checkPrototype
  dsimp only
  split
  · rfl
  · split
    · exact (lookedUp_of_none ‹_›).symm
    · exact functions_enclosingFunction? ‹_›

/-- A field of `this` always needs one. -/
theorem functions_checkInstanceField (model : Model) (left : Ref) :
    (arena.checkInstanceField model (some i) left).model.functions
      = arena.lookedUp model.functions i := by
  unfold checkInstanceField
  split
  · exact (lookedUp_of_none ‹_›).symm
  · rename_i function inner hfunction
    have hkept := arena.functions_enclosingClass inner (some i)
    have hlooks := functions_enclosingFunction? hfunction
    rw [← hkept] at hlooks
    dsimp only
    split
    · split
      · exact hlooks
      · split
        · exact hlooks
        · rw [functions_updateClass]
          exact hlooks
    · exact hlooks

/-- A declaration of a static field comes behind the look. -/
theorem functions_declareStatic (model : Model) (right : Ref)
    (owner : Option Nat) (field : String) :
    (arena.declareStatic model (some i) right owner field).model.functions
      = model.functions := by
  unfold declareStatic
  split
  · rfl
  · rfl
  · split
    · rfl
    · split
      · exact functions_updateClass _ _ _
      · rfl

/-- An assignment to a static member always looks. -/
theorem functions_checkStaticField (model : Model) (right : Ref)
    (name : String) :
    (arena.checkStaticField model (some i) right name).model.functions
      = arena.lookedUp model.functions i := by
  unfold checkStaticField
  dsimp only
  rw [← arena.functions_enclosingClass model (some i)]
  split
  · rw [functions_declareStatic]
    exact (lookedUp_of_none ‹_›).symm
  · exact functions_enclosingFunction? ‹_›

/-- Of all assignments, it is those around which a function matters that
look. -/
theorem functions_checkAssignment (model : Model) (left right : Ref) :
    (arena.checkAssignment model (some i) left right).model.functions
      = if arena.assignsAround model left right then
          arena.lookedUp model.functions i
        else model.functions := by
  have hdefine : (arena.defineClass model (some i) right
      (arena.nameOf left)).functions = model.functions := by
    unfold defineClass
    split <;> rfl
  have hlegacy : (arena.defineClass model (some i) right
      (arena.nameOf left)).legacy = model.legacy := by
    unfold defineClass
    split <;> rfl
  unfold checkAssignment assignsAround
  dsimp only
  split
  · exact hdefine
  · split
    · rw [functions_checkPrototype, hdefine, hlegacy]
      cases model.legacy <;> rfl
    · split
      · split
        · rename_i hfunction
          rw [hfunction]
          exact hdefine
        · rename_i hfunction
          rw [functions_checkInstanceField, hdefine,
            Bool.eq_false_iff.2 hfunction]
          rfl
      · split
        · rw [functions_checkStaticField, hdefine]
        · exact hdefine

/-- Calls need no function around them. -/
theorem functions_checkCall (model : Model) (callee : Ref)
    (arguments : List Ref) :
    (arena.checkCall model (some i) callee arguments).model.functions
      = model.functions := by
  unfold checkCall
  split
  · unfold checkPackage
    split
    · split <;> rfl
    · rfl
  · rfl
  · unfold checkExtends
    split
    · dsimp only
      split
      · rfl
      · split
        · rfl
        · split
          · rfl
          · unfold linkClasses
            dsimp only
            split <;> rfl
    · rfl
  · rfl
  · rfl

/-- A return looks for the function that it returns from. -/
theorem functions_checkReturn {value : Ref} {outcome : Outcome}
    (h : arena.checkReturn model (some i) value = .ok outcome) :
    outcome.model.functions = arena.lookedUp model.functions i := by
  unfold checkReturn at h
  dsimp only at h
  rw [← arena.functions_enclosingClass model (some i)]
  split at h
  · cases h
  · cases h
    exact functions_enclosingFunction? ‹_›

/-- What a node other than a declaration does to the functions. -/
theorem functions_checkNode {outcome : Outcome} (hother :
      ∀ declared initializer, arena.form? (some i)
        ≠ some (.declaration declared initializer))
    (h : arena.checkNode model i = .ok outcome) :
    outcome.model.functions
      = if arena.looksAround model i then arena.lookedUp model.functions i
        else model.functions := by
  unfold checkNode at h
  unfold looksAround
  dsimp only at h
  split at h
  case h_5 hform =>
    rw [hform]
    exact functions_checkReturn h
  -- the other checks succeed with what they come to
  all_goals cases h
  case h_1 hform =>
    rw [hform]
    exact functions_checkAssignment _ _ _
  case h_2 hform =>
    rw [hform]
    exact functions_checkCall _ _ _
  case h_7 hform => exact absurd hform (hother _ _)
  case h_8 hassigns _ _ _ hreturns _ hdeclares =>
    split
    · exact absurd ‹_› (hreturns _)
    · exact absurd ‹_› (hdeclares _ _)
    · exact absurd ‹_› (hassigns _ _ _)
    · rfl
  all_goals
    rename_i hform
    rw [hform]
    rfl

/-- A function that is entered has its parameters as variables, and others are
left alone. -/
theorem variables?_lookedUp (functions : FunctionTable) (i : Nat)
    (name : String) :
    (arena.lookedUp functions i).variables? name = functions.variables? name
      ∨ ∃ function, arena.functionAround? (some i) = some function
        ∧ (arena.identityOf function).name = name
        ∧ (arena.lookedUp functions i).variables? name
          = some ((functions.variables? name).getD
            (arena.parameterNames function)) := by
  unfold lookedUp
  cases haround : arena.functionAround? (some i) with
  | none => exact .inl rfl
  | some function =>
      rw [Option.elim_some, variables?_enterFunction]
      split
      · rename_i hname
        exact .inr ⟨function, rfl, hname.symm, rfl⟩
      · exact .inl rfl

-- ========================================================== declarations

/-- A declaration looks up the function around it and adds the variable
there. -/
theorem functions_declareVariable (model : Model) (name : Ref)
    (type : ValueType) :
    (arena.declareVariable model (some i) name type).functions
      = match arena.functionAround? (some i) with
        | none => model.functions
        | some function =>
          (arena.enterFunction model.functions function).2.update
            (arena.enterFunction model.functions function).1
            (.addVariable ⟨arena.nameOf name, type⟩) := by
  unfold declareVariable enclosingFunction?
  cases arena.functionAround? (some i) <;> rfl

/-- A declaration declares its variable unless something is wrong with
it. -/
theorem functions_checkDeclaration (arena : Arena) (i : Nat) (model : Model)
    (name initializer : Ref) :
    let outcome := arena.checkDeclaration model (some i) name initializer
    (outcome.events.isEmpty = true ∧ ∃ type, outcome.model.functions
        = (arena.declareVariable model (some i) name type).functions)
      ∨ outcome.events.isEmpty = false
        ∧ outcome.model.functions = model.functions := by
  intro outcome
  have houtcome : outcome
      = arena.checkDeclaration model (some i) name initializer := rfl
  unfold checkDeclaration at houtcome
  split at houtcome
  · rw [houtcome]
    exact .inr ⟨rfl, rfl⟩
  · split at houtcome
    · dsimp only at houtcome
      split at houtcome
      · rename_i slot hslot
        rw [houtcome]
        refine .inl ⟨rfl, slot.type, ?_⟩
        rw [functions_declareVariable, functions_declareVariable,
          functions_enclosingClass]
      · rw [houtcome]
        exact .inr ⟨rfl, functions_enclosingClass ..⟩
    · rw [houtcome]
      exact .inl ⟨rfl, _, rfl⟩

/-- The variable that the check of a node declares, and the name of the
function that it belongs to. -/
def declaredVariable? (arena : Arena) (model : Model) (i : Nat) :
    Option (String × String) :=
  match arena.form? (some i), arena.functionAround? (some i) with
  | some (.declaration name initializer), some function =>
    if (arena.checkDeclaration model (some i) name
        initializer).events.isEmpty then
      some ((arena.identityOf function).name, arena.nameOf name)
    else none
  | _, _ => none

/-- No node but a declaration declares anything. -/
theorem declaredVariable?_eq_none (h : ∀ declared initializer,
    arena.form? (some i) ≠ some (.declaration declared initializer))
    (model : Model) : arena.declaredVariable? model i = none := by
  unfold declaredVariable?
  split
  · exact absurd ‹_› (h _ _)
  · rfl

/-- What is checked at a declaration. -/
theorem checkNode_declaration {declared initializer : Ref}
    (hform : arena.form? (some i) = some (.declaration declared initializer))
    (model : Model) :
    arena.checkNode model i
      = .ok (arena.checkDeclaration model (some i) declared initializer) := by
  unfold checkNode
  dsimp only
  rw [hform]

/-- The variables of a function are as they were, or the node has entered
the parameters of the function around it, if there were none yet, and added
the variable that it declares. -/
def Adds (arena : Arena) (before after : Model) (i : Nat) (name : String) :
    Prop :=
  (after.functions.variables? name = before.functions.variables? name
      ∧ ∀ slot, arena.declaredVariable? before i ≠ some (name, slot))
    ∨ ∃ function, arena.functionAround? (some i) = some function
      ∧ (arena.identityOf function).name = name
      ∧ after.functions.variables? name
        = some ((before.functions.variables? name).getD
            (arena.parameterNames function)
          ++ ((arena.declaredVariable? before i).map (·.2)).toList)

/-- It adds the variable that it declares, and nothing else. -/
theorem adds_checkDeclaration {declared initializer : Ref}
    (hform : arena.form? (some i) = some (.declaration declared initializer))
    (model : Model) (name : String) :
    arena.Adds model
      (arena.checkDeclaration model (some i) declared initializer).model i
      name := by
  unfold Adds declaredVariable?
  rw [hform]
  rcases arena.functions_checkDeclaration i model declared initializer
    with ⟨haccepted, type, hfunctions⟩ | ⟨hrefused, hfunctions⟩
  · rw [hfunctions, functions_declareVariable]
    cases haround : arena.functionAround? (some i) with
    | none => exact .inl ⟨rfl, nofun⟩
    | some function =>
        dsimp only
        rw [variables?_addVariable, haccepted]
        split
        · rename_i hname
          exact .inr ⟨function, rfl, hname.symm, rfl⟩
        · rename_i hname
          refine .inl ⟨rfl, fun slot hslot => hname ?_⟩
          cases hslot
          rfl
  · rw [hfunctions]
    refine .inl ⟨rfl, fun slot => ?_⟩
    cases arena.functionAround? (some i) with
    | none => nofun
    | some function =>
        dsimp only
        rw [hrefused]
        nofun

/-- The step lemma. -/
theorem adds_checkNode {outcome : Outcome}
    (h : arena.checkNode model i = .ok outcome) (name : String) :
    arena.Adds model outcome.model i name := by
  by_cases hdeclaration : ∃ declared initializer,
      arena.form? (some i) = some (.declaration declared initializer)
  · obtain ⟨declared, initializer, hform⟩ := hdeclaration
    rw [checkNode_declaration hform] at h
    cases h
    exact adds_checkDeclaration hform model name
  · rw [not_exists] at hdeclaration
    have hother := fun declared => not_exists.1 (hdeclaration declared)
    unfold Adds
    rw [declaredVariable?_eq_none hother, functions_checkNode hother h]
    split
    · rcases arena.variables?_lookedUp model.functions i name with
        hsame | ⟨function, haround, hname, hentered⟩
      · exact .inl ⟨hsame, nofun⟩
      · refine .inr ⟨function, haround, hname, ?_⟩
        rw [hentered]
        simp
    · exact .inl ⟨rfl, nofun⟩

-- ============================================================= returns

/-- The function that is looked up knows its variables. -/
theorem slot?_enterFunction (functions : FunctionTable) (function : Nat)
    (name : String) :
    ((arena.enterFunction functions function).2.get?
        (arena.enterFunction functions function).1).bind (·.slot? name)
        = none
      ↔ name ∉ (functions.variables?
        (arena.identityOf function).name).getD
        (arena.parameterNames function) := by
  have hentered := arena.variables?_enterFunction functions function
    (arena.identityOf function).name
  rw [if_pos rfl, FunctionTable.variables?,
    Registry.lookUp?_of_find? (find?_enterFunction ..)] at hentered
  obtain ⟨info, hinfo, hnames⟩ := Option.map_eq_some_iff.1 hentered
  rw [← hnames, hinfo, Option.bind_some, FunctionInfo.slot?,
    List.find?_eq_none]
  simp

/-- A value that has a type is not one that is not declared. -/
theorem judge_typed_ne (model : Model) (function : Nat)
    (declared type : ValueType) :
    judge model function declared (.typed type) ≠ some .noVarDecl := by
  unfold judge
  dsimp only
  split
  · nofun
  · split
    · nofun
    · split <;> nofun

/-- A variable that is not there is reported as such. -/
theorem judge_ofSlot_iff (model : Model) (function : Nat)
    (declared : ValueType) (slot : Option Slot) :
    judge model function declared (.ofSlot slot .noVarDecl) = some .noVarDecl
      ↔ slot = none := by
  cases slot with
  | none => exact iff_of_true rfl rfl
  | some slot => exact iff_of_false (judge_typed_ne _ _ _ _) nofun

/-- A return of a variable says at most one thing, and says that the variable
is not declared exactly if neither the function that it is in nor what has
been declared for its name knows of it. -/
theorem return_checkNode {value : Ref} {name : String} {function : Nat}
    {outcome : Outcome}
    (hform : arena.form? (some i) = some (.returning value))
    (hvalue : arena.form? (arena.skipParens value) = some (.identifier name))
    (haround : arena.functionAround? (some i) = some function)
    (h : arena.checkNode model i = .ok outcome) :
    ∃ kind : Option DiagnosticKind,
      outcome.events
          = kind.toList.map (fun kind => arena.report kind (some i) none)
        ∧ (kind = some .noVarDecl ↔ name ≠ "undefined"
          ∧ name ∉ (model.functions.variables?
            (arena.identityOf function).name).getD
              (arena.parameterNames function)) := by
  unfold checkNode at h
  dsimp only at h
  rw [hform] at h
  unfold checkReturn enclosingFunction? at h
  simp only [haround, Option.map_some] at h
  cases h
  refine ⟨_, (Option.toList_map ..), ?_⟩
  rw [arena.functions_enclosingClass model (some i)]
  unfold returned
  rw [hvalue]
  by_cases hundefined : name = "undefined"
  · dsimp only
    rw [if_pos hundefined]
    exact iff_of_false (judge_typed_ne _ _ _ _) fun hnot =>
      hnot.1 hundefined
  · dsimp only
    rw [if_neg hundefined, judge_ofSlot_iff, slot?_enterFunction]
    exact (and_iff_right hundefined).symm

-- ============================================================== origins

/-- A declaration with a variable has a function around it. -/
theorem exists_around_of_declaredVariable? {name slot : String}
    (h : arena.declaredVariable? model i = some (name, slot)) :
    ∃ function, arena.functionAround? (some i) = some function
      ∧ (arena.identityOf function).name = name := by
  unfold declaredVariable? at h
  split at h
  · split at h
    · cases h
      exact ⟨_, ‹_›, rfl⟩
    · cases h
  · cases h

/-- A function that has been looked up stays so, and is looked up for the
first time by a node in a function of that name. -/
theorem variables?_checkNode_ne_none_iff {outcome : Outcome}
    (h : arena.checkNode model i = .ok outcome) (name : String) :
    outcome.model.functions.variables? name ≠ none
      ↔ model.functions.variables? name ≠ none
        ∨ model.functions.Introduces outcome.model.functions name := by
  constructor
  · intro hafter
    by_cases hbefore : model.functions.variables? name = none
    · exact .inr ⟨hbefore, hafter⟩
    · exact .inl hbefore
  · rintro (hbefore | ⟨-, hafter⟩)
    · rcases adds_checkNode h name with
        ⟨hsame, -⟩ | ⟨_, -, -, hsome⟩
      · rw [hsame]
        exact hbefore
      · rw [hsome]
        nofun
    · exact hafter

/-- Entries come in by a look for the function around a node. -/
theorem exists_around_of_introduces {outcome : Outcome} {name : String}
    (h : arena.checkNode model i = .ok outcome)
    (hintroduces :
      model.functions.Introduces outcome.model.functions name) :
    ∃ function, arena.functionAround? (some i) = some function
      ∧ (arena.identityOf function).name = name := by
  rcases adds_checkNode h name with
    ⟨hsame, -⟩ | ⟨function, haround, hname, -⟩
  · exact absurd (hsame.trans hintroduces.1) hintroduces.2
  · exact ⟨function, haround, hname⟩

/-- What gives a function a variable: a node that looks it up for the first
time, if the variable is a parameter there, or a declaration. -/
def Brings (arena : Arena) (before after : Model) (i : Nat)
    (name slot : String) : Prop :=
  (before.functions.Introduces after.functions name
      ∧ ∃ function, arena.functionAround? (some i) = some function
        ∧ slot ∈ arena.parameterNames function)
    ∨ arena.declaredVariable? before i = some (name, slot)

/-- The step lemma. -/
theorem mem_variables?_checkNode_iff {outcome : Outcome}
    (h : arena.checkNode model i = .ok outcome) (name slot : String) :
    slot ∈ (outcome.model.functions.variables? name).getD []
      ↔ slot ∈ (model.functions.variables? name).getD []
        ∨ arena.Brings model outcome.model i name slot := by
  rcases adds_checkNode h name with
    ⟨hsame, hnone⟩ | ⟨function, haround, hname, hafter⟩
  · rw [hsame]
    refine (or_iff_left ?_).symm
    rintro (⟨⟨hbefore, hafter⟩, -⟩ | hdeclared)
    · exact hafter (hsame.trans hbefore)
    · exact hnone slot hdeclared
  · have hdeclared : slot ∈ ((arena.declaredVariable? model i).map
        (·.2)).toList
        ↔ arena.declaredVariable? model i = some (name, slot) := by
      rw [Option.mem_toList, Option.map_eq_some_iff]
      constructor
      · rintro ⟨⟨owner, _⟩, hsome, rfl⟩
        obtain ⟨other, hother, howner⟩ :=
          exists_around_of_declaredVariable? hsome
        rw [haround] at hother
        cases hother
        rw [hsome, ← howner, hname]
      · intro hsome
        exact ⟨_, hsome, rfl⟩
    unfold Brings FunctionTable.Introduces
    rw [hafter, Option.getD_some, List.mem_append, hdeclared, haround]
    cases hbefore : model.functions.variables? name <;> simp

end Arena

-- ============================================================ sessions

namespace Session

variable {arena : Arena} {root : Ref} {session : Session}

/-- Behind some nodes, functions with the name have been looked up, and the
first time it was in the given one. -/
def FirstIn (arena : Arena) (session : Session) (nodes : List Nat)
    (name : String) (function : Nat) : Prop :=
  ∃ before j, before ++ [j] <+: nodes
    ∧ (visit arena before session).1.model.functions.Introduces
      (visit arena (before ++ [j]) session).1.model.functions name
    ∧ arena.functionAround? (some j) = some function

/-- One of the nodes declares the variable in a function with the name. -/
def DeclaresIn (arena : Arena) (session : Session) (nodes : List Nat)
    (name slot : String) : Prop :=
  ∃ before j, before ++ [j] <+: nodes
    ∧ arena.declaredVariable? (visit arena before session).1.model j
      = some (name, slot)

/-- A function has been looked up exactly if it was so for a first time. -/
theorem Passes.variables?_visit_ne_none_iff (h : Passes arena root)
    (hmodel : session.model.functions = {}) (nodes : List Nat)
    (name : String) :
    (visit arena nodes session).1.model.functions.variables? name ≠ none
      ↔ ∃ function, FirstIn arena session nodes name function := by
  have hvisit := h.visit_iff_exists (P := fun session =>
    session.model.functions.variables? name ≠ none)
    (Q := fun before j => ∃ function,
      (visit arena before session).1.model.functions.Introduces
          (visit arena (before ++ [j]) session).1.model.functions name
        ∧ arena.functionAround? (some j) = some function)
    (by rw [hmodel]; exact fun hsome => hsome rfl) ?_ nodes
  · rw [hvisit]
    constructor
    · rintro ⟨before, j, hleads, function, hfirst⟩
      exact ⟨function, before, j, hleads, hfirst⟩
    · rintro ⟨function, before, j, hleads, hfirst⟩
      exact ⟨before, j, hleads, function, hfirst⟩
  · intro before j outcome hrun
    rw [h.visit_concat before hrun]
    show outcome.model.functions.variables? name ≠ none ↔ _
    rw [Arena.variables?_checkNode_ne_none_iff hrun]
    refine or_congr_right
      ⟨fun hfirst => ?_, fun ⟨_, hfirst, _⟩ => hfirst⟩
    obtain ⟨function, haround, -⟩ :=
      Arena.exists_around_of_introduces hrun hfirst
    exact ⟨function, hfirst, haround⟩

/-- The first time is one time. -/
theorem Passes.firstIn_unique (h : Passes arena root)
    (hmodel : session.model.functions = {}) {nodes : List Nat}
    (hnodes : nodes <+: arena.preorder root) {name : String}
    {function other : Nat}
    (hfirst : FirstIn arena session nodes name function)
    (hother : FirstIn arena session nodes name other) : function = other := by
  obtain ⟨before, j, hleads, hintroduces, haround⟩ := hfirst
  obtain ⟨before', j', hleads', hintroduces', haround'⟩ := hother
  -- what is introduced stays known, so it is not introduced again
  rcases Arena.prefix_cases (hleads.trans hnodes) (hleads'.trans hnodes) with
    ⟨-, rfl⟩ | hlater | hsooner
  · exact Option.some.inj (haround.symm.trans haround')
  · exact absurd hintroduces'.1 ((h.variables?_visit_ne_none_iff hmodel _
      name).2 ⟨function, before, j, hlater, hintroduces, haround⟩)
  · exact absurd hintroduces.1 ((h.variables?_visit_ne_none_iff hmodel _
      name).2 ⟨other, before', j', hsooner, hintroduces', haround'⟩)

/-- A function has the parameters of the one that was looked up first, and
the variables that are declared in functions with its name. -/
theorem Passes.mem_variables?_visit_iff (h : Passes arena root)
    (hmodel : session.model.functions = {}) (nodes : List Nat)
    (name slot : String) :
    slot ∈ ((visit arena nodes session).1.model.functions.variables?
        name).getD []
      ↔ (∃ function, FirstIn arena session nodes name function
          ∧ slot ∈ arena.parameterNames function)
        ∨ DeclaresIn arena session nodes name slot := by
  have hvisit := h.visit_iff_exists (P := fun session =>
    slot ∈ (session.model.functions.variables? name).getD [])
    (Q := fun before j => arena.Brings (visit arena before session).1.model
      (visit arena (before ++ [j]) session).1.model j name slot)
    (by rw [hmodel]; nofun) ?_ nodes
  · rw [hvisit]
    constructor
    · rintro ⟨before, j, hleads, ⟨hfirst, function, haround, hslot⟩
        | hdeclared⟩
      · exact .inl ⟨function, ⟨before, j, hleads, hfirst, haround⟩,
          hslot⟩
      · exact .inr ⟨before, j, hleads, hdeclared⟩
    · rintro (⟨function, ⟨before, j, hleads, hfirst, haround⟩, hslot⟩
        | ⟨before, j, hleads, hdeclared⟩)
      · exact ⟨before, j, hleads,
          .inl ⟨hfirst, function, haround, hslot⟩⟩
      · exact ⟨before, j, hleads, .inr hdeclared⟩
  · intro before j outcome hrun
    rw [h.visit_concat before hrun]
    exact Arena.mem_variables?_checkNode_iff hrun name slot

/-- A parameter of a function is not known exactly if a function of the same
name that has no such parameter was looked up first, and the name has not
been declared since. -/
theorem Passes.unknown_iff (h : Passes arena root)
    (hmodel : session.model.functions = {}) {nodes : List Nat}
    (hnodes : nodes <+: arena.preorder root) (name : String) {function : Nat}
    {slot : String} (hslot : slot ∈ arena.parameterNames function) :
    slot ∉ ((visit arena nodes session).1.model.functions.variables?
        name).getD (arena.parameterNames function)
      ↔ (∃ other, FirstIn arena session nodes name other
          ∧ slot ∉ arena.parameterNames other)
        ∧ ¬ DeclaresIn arena session nodes name slot := by
  have hknown := h.variables?_visit_ne_none_iff hmodel nodes name
  have hmem := h.mem_variables?_visit_iff hmodel nodes name slot
  cases hvariables :
      (visit arena nodes session).1.model.functions.variables? name with
  | none =>
      rw [hvariables] at hknown
      refine iff_of_false (fun hnot => hnot hslot) ?_
      rintro ⟨⟨other, hfirst, -⟩, -⟩
      exact hknown.2 ⟨other, hfirst⟩ rfl
  | some known =>
      rw [hvariables] at hknown hmem
      obtain ⟨first, hfirst⟩ := hknown.1 nofun
      rw [Option.getD_some] at hmem ⊢
      rw [hmem, not_or]
      refine and_congr_left fun _ => ?_
      constructor
      · intro hnone
        exact ⟨first, hfirst, fun hmem => hnone ⟨first, hfirst, hmem⟩⟩
      · rintro ⟨other, hother, hlacks⟩ ⟨same, hsame, hhas⟩
        rw [h.firstIn_unique hmodel hnodes hother hsame] at hlacks
        exact hlacks hhas

/-- A function that returns its parameter. -/
def echo : String := "function f(a)\x7breturn a;\x7d"

/-- Two functions without a name that return their parameters. -/
def echoes : String :=
  "f(/** @return Unknown */function(a)\x7breturn a;\x7d,"
    ++ "/** @return Unknown */function(b)\x7breturn b;\x7d);"

end Session

end ScriptLint
