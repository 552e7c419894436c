/-
Verdicts on returns. A return is judged by the value that is returned, the
role of the function around it and the type that is declared for that
function (`Arena.verdict?`), and one finding at most comes of it
(`Arena.return_verdict`).

Values of some forms are not verified: what only running the program would
show, and what lies in other objects (`Arena.isUnverified`). All others are
of the type that their variable or field is declared with, or that their
form tells (`Arena.valueType?`). Returning a value from a constructor is
found fault with exactly if the value is one of those and has a type other
than void (`Session.constructors_of_check`).

# The argument

- A return enters the class and the function around it before it looks at
  the value. Lookups behind that are expressed by lookups before it
  (`get?_enclosingFunction?`), so that the verdict is a function of what
  was known at the node.
- By cases on the form of the value, what is returned has a type, or is of
  the unverified kinds (`returned_eq_typed_iff`).
- The judgement on a constructor is then a comparison with void
  (`judge_eq_ctorReturn_iff`).
-/
import ScriptLint.Proofs.Locals

namespace ScriptLint

namespace Arena

variable {arena : Arena} {model later : Model} {i function id : Nat}
  {value : Ref}

-- ============================================================= verdicts

/-- The type that returns in a function are judged against, once the
function has been looked up. -/
def declaredType (arena : Arena) (functions : FunctionTable)
    (function : Nat) : ValueType :=
  (arena.entered function
    (functions.lookUp? (arena.identityOf function).name)).returnType

/-- What is found when a value that is returned at a node is judged against
a type. -/
def verdict? (arena : Arena) (model : Model) (i : Nat) (value : Ref)
    (declared : ValueType) : Option DiagnosticKind :=
  let (owner, model) := arena.enclosingClass model (some i)
  (arena.enclosingFunction? model (some i)).bind fun (id, model) =>
    judge model id declared
      (arena.returned model id owner (arena.skipParens value))

/-- The function that is looked up is the entry for its name. -/
theorem get?_enterFunction (functions : FunctionTable) (function : Nat) :
    (arena.enterFunction functions function).2.get?
        (arena.enterFunction functions function).1
      = some (arena.entered function
        (functions.lookUp? (arena.identityOf function).name)) := by
  rw [← Registry.lookUp?_of_find? (find?_enterFunction ..),
    lookUp?_enterFunction, if_pos rfl]

/-- What is looked up around a node is known by then. -/
theorem get?_enclosingFunction?
    (haround : arena.functionAround? (some i) = some function)
    (h : arena.enclosingFunction? model (some i) = some (id, later)) :
    later.functions.get? id = some (arena.entered function
      (model.functions.lookUp? (arena.identityOf function).name)) := by
  unfold enclosingFunction? at h
  rw [haround, Option.map_some] at h
  obtain ⟨rfl, rfl⟩ := Prod.mk.inj (Option.some.inj h)
  exact get?_enterFunction ..

/-- A return is in a function, says what its verdict is against the type
that is declared for that function, and leaves that type declared. -/
theorem return_verdict {outcome : Outcome}
    (hform : arena.form? (some i) = some (.returning value))
    (h : arena.checkNode model i = .ok outcome) :
    ∃ function, arena.functionAround? (some i) = some function
      ∧ outcome.events = (arena.verdict? model i value
          (arena.declaredType model.functions function)).toList.map
        (fun kind => arena.report kind (some i) none)
      ∧ (outcome.model.functions.lookUp?
          (arena.identityOf function).name).map (·.returnType)
        = some (arena.declaredType model.functions function) := by
  unfold checkNode at h
  dsimp only at h
  rw [hform] at h
  unfold checkReturn enclosingFunction? at h
  cases haround : arena.functionAround? (some i) with
  | none => simp [haround] at h
  | some function =>
      simp only [haround, Option.map_some, get?_enterFunction,
        functions_enclosingClass] at h
      cases h
      refine ⟨function, rfl, ?_, ?_⟩
      · unfold verdict? enclosingFunction?
        simp only [haround, Option.map_some, Option.bind_some,
          functions_enclosingClass]
        exact Option.toList_map ..
      · rw [lookUp?_enterFunction, if_pos rfl]
        rfl

-- =============================================================== values

/-- Whether a value is not verified: what is computed by calls, operators
and conditions, and what lies in other objects than `this`. -/
def isUnverified (arena : Arena) (value : Ref) : Bool :=
  match arena.form? value with
  | some (.conditional ..) | some (.call ..) | some (.binary ..)
  | some (.assignment ..) | some (.element ..) => true
  | some (.member owner _) => !arena.isThis owner
  | _ => false

/-- The variable of a name at a node, if the function around the node knows
it. -/
def localSlot? (arena : Arena) (functions : FunctionTable) (i : Nat)
    (name : String) : Option Slot :=
  (arena.functionAround? (some i)).bind fun function =>
    (arena.entered function
      (functions.lookUp? (arena.identityOf function).name)).slot? name

/-- The type of a value at a node: the declared one for variables and
fields, the class around the node for `this`, and for other values what
their form tells. -/
def valueType? (arena : Arena) (model : Model) (i : Nat) (value : Ref) :
    Option ValueType :=
  match arena.form? value with
  | none => none
  | some (.identifier name) =>
    if name = "undefined" then some .undefined
    else (arena.localSlot? model.functions i name).map (·.type)
  | some (.member _ field) =>
    ((arena.classAround? i).bind fun owner =>
      model.classes.fieldOf? owner (arena.nameOf field)).map (·.type)
  | some .thisRef =>
    some ((arena.classAround? i).elim .unknown .ofName)
  | some _ => some (arena.inferType value)

/-- The undefined value has a type of its own. -/
theorem inferType_undefined
    (h : arena.form? value = some (.identifier "undefined")) :
    arena.inferType value = .undefined := by
  have hplace : value.isNone = false := by
    cases value with
    | none => cases h
    | some i => rfl
  have hself : arena.skipParens value = value :=
    unwrap_of_form? h nofun _
  unfold inferType
  rw [hplace, hself]
  dsimp only
  rw [h]
  rfl

theorem ofSlot_eq_typed_iff {slot : Option Slot} {kind : DiagnosticKind}
    {type : ValueType} :
    Returned.ofSlot slot kind = .typed type
      ↔ slot.map (·.type) = some type := by
  cases slot <;> simp [Returned.ofSlot]

/-- The class that is looked up at a node tells the type of `this`. -/
theorem elim_nameOf_enclosingClass (model : Model) (i : Nat) :
    ((arena.enclosingClass model (some i)).1.elim .unknown fun id =>
        ValueType.ofName
          ((arena.enclosingClass model (some i)).2.classes.nameOf id))
      = (arena.classAround? i).elim .unknown .ofName := by
  unfold classAround?
  cases hclass : arena.className? (some i) with
  | none => simp [enclosingClass, hclass]
  | some owner =>
      by_cases howner : owner = ""
      · subst howner
        rw [Option.filter_some_neg (by simp)]
        simp [enclosingClass, hclass]
      · rw [enclosingClass_of_className? hclass howner,
          Option.filter_some_pos (by simpa using howner)]
        exact congrArg ValueType.ofName (ClassTable.nameOf_enter_self _ _)

/-- What is returned is of a type exactly if it is verified and the type is
that of the value. -/
theorem returned_eq_typed_iff {type : ValueType}
    (h : arena.enclosingFunction?
      (arena.enclosingClass model (some i)).2 (some i) = some (id, later)) :
    arena.returned later id (arena.enclosingClass model (some i)).1 value
        = .typed type
      ↔ arena.isUnverified value = false
        ∧ arena.valueType? model i value = some type := by
  obtain ⟨function, haround, -⟩ := Option.map_eq_some_iff.1 h
  have hclasses := classes_of_enclosingFunction? h
  -- both lookups behind the entering are lookups before it
  have hslot (name : String) :
      (later.functions.get? id).bind (·.slot? name)
        = arena.localSlot? model.functions i name := by
    rw [get?_enclosingFunction? haround h, functions_enclosingClass]
    unfold localSlot?
    rw [haround]
    rfl
  have hfield (field : String) :
      later.field? (arena.enclosingClass model (some i)).1 field
        = (arena.classAround? i).bind fun owner =>
          model.classes.fieldOf? owner field := by
    rw [← field?_enclosingClass_self]
    unfold Model.field?
    rw [hclasses]
  unfold returned isUnverified valueType?
  cases hform : arena.form? value with
  | none => simp
  | some form =>
      cases form with
      | identifier name =>
          by_cases hname : name = "undefined"
          · subst hname
            simp [inferType_undefined hform]
          · simp [hname, hslot, ofSlot_eq_typed_iff]
      | member owner name =>
          cases howner : arena.isThis owner <;>
            simp [howner, hfield, ofSlot_eq_typed_iff]
      | thisRef =>
          dsimp only
          rw [hclasses, elim_nameOf_enclosingClass]
          simp
      | _ => simp

-- ========================================================= constructors

theorem ofSlot_ne_undeclared (slot : Option Slot)
    {kind other : DiagnosticKind} (h : kind ≠ other) :
    Returned.ofSlot slot kind ≠ .undeclared other := by
  cases slot with
  | none => exact fun hsame => h (Returned.undeclared.inj hsame)
  | some slot => nofun

/-- What is not declared is a variable or a field. -/
theorem returned_ne_undeclared (model : Model) (function : Nat)
    (owner : Option Nat) (value : Ref) :
    arena.returned model function owner value ≠ .undeclared .ctorReturn := by
  unfold returned
  split
  · nofun
  · nofun
  · nofun
  · nofun
  · nofun
  · split
    · nofun
    · exact ofSlot_ne_undeclared _ nofun
  · split
    · exact ofSlot_ne_undeclared _ nofun
    · nofun
  · nofun
  · nofun
  · nofun

/-- Constructors are found to return a value exactly if it has a type, and
one other than void. -/
theorem judge_eq_ctorReturn_iff {declared : ValueType} {returned : Returned}
    (h : returned ≠ .undeclared .ctorReturn) :
    judge model function declared returned = some .ctorReturn
      ↔ model.functions.isConstructor function = true
        ∧ ∃ type, returned = .typed type ∧ type ≠ .void := by
  cases returned with
  | nothing => by_cases hvoid : declared = .void <;> simp [judge, hvoid]
  | computed => by_cases hvoid : declared = .void <;> simp [judge, hvoid]
  | untracked => simp [judge]
  | undeclared kind =>
      refine iff_of_false ?_ (by simp)
      intro hkind
      exact h (congrArg Returned.undeclared (Option.some.inj hkind))
  | typed type =>
      have hlater : (if type = .undefined then none
          else if (type = .void ↔ declared = .void)
            ∧ model.classes.isKind type declared then none
          else some .badReturn) ≠ some DiagnosticKind.ctorReturn := by
        split
        · nofun
        · split <;> nofun
      simp [judge, hlater]

/-- The verdict on a return is that a constructor returns a value exactly if
it is in a constructor and the value is verified and has a type other than
void. -/
theorem verdict?_eq_ctorReturn_iff {declared : ValueType} :
    arena.verdict? model i value declared = some .ctorReturn
      ↔ arena.InConstructor i
        ∧ arena.isUnverified (arena.skipParens value) = false
        ∧ ∃ type, arena.valueType? model i (arena.skipParens value)
            = some type ∧ type ≠ .void := by
  unfold verdict?
  dsimp only
  cases hentered : arena.enclosingFunction?
      (arena.enclosingClass model (some i)).2 (some i) with
  | none =>
      refine iff_of_false nofun fun ⟨⟨function, haround, _⟩, _⟩ => ?_
      unfold enclosingFunction? at hentered
      rw [haround] at hentered
      cases hentered
  | some found =>
      rw [Option.bind_some,
        judge_eq_ctorReturn_iff (arena.returned_ne_undeclared _ _ _ _),
        isConstructor_enclosingFunction? hentered]
      simp only [returned_eq_typed_iff hentered, and_assoc,
        exists_and_left]

end Arena

-- ============================================================ sessions

namespace Session

/-- A constructor that returns its object, in parentheses. -/
def returnedThis : String :=
  "$package(\"a\");/** @constructor */a.B=function()\x7breturn(this);\x7d;"

/-- A constructor that returns a member of some object. -/
def returnedMember : String :=
  "$package(\"a\");/** @constructor */a.B=function()\x7breturn c.d;\x7d;"

end Session

end ScriptLint
