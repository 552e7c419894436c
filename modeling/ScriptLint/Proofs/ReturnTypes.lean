/-
Declared return types. The entry for a name has one return type, which each
documented function of that name sets when it is looked up
(`Arena.returnType_checkNode`), so that the last one to be looked up decides
(`Session.Passes.returnType_visit_iff`). All functions without a name share
an entry.

So a return is judged against the type that its own function is documented
with, and where that function is not documented, against the type that the
last documented one of its name has left (`Session.returnTypes_of_check`).

# The argument

- A look for the function around a node sets the return type of its name if
  that function is documented (`typeAround?`), and no other check of a node
  touches return types (`returnType_checkNode`).
- So behind some nodes the type of a name is the one that was set last, or
  void if none was (`Passes.returnType_visit`).
- The return enters its function before it is judged, so its own
  documentation comes last of all.
-/
import ScriptLint.Proofs.Verdicts

namespace ScriptLint

/-- The return type that is declared for a name, void if none is. -/
def FunctionTable.returnType (functions : FunctionTable) (name : String) :
    ValueType :=
  (functions.lookUp? name).elim .void (·.returnType)

namespace Arena

variable {arena : Arena} {model : Model} {i : Nat} {name : String}

-- ============================================================= entries

theorem returnType_entered (arena : Arena) (function : Nat)
    (info : Option FunctionInfo) :
    (arena.entered function info).returnType
      = (arena.declaredReturn? function).getD
          (info.elim .void (·.returnType)) := by
  cases info <;> rfl

/-- Returns are judged against the type that the function is documented
with, and else against what is declared for its name. -/
theorem declaredType_eq (functions : FunctionTable) (function : Nat) :
    arena.declaredType functions function
      = (arena.declaredReturn? function).getD
          (functions.returnType (arena.identityOf function).name) :=
  returnType_entered ..

/-- The return type that looking up the function around a node sets for a
name. -/
def typeAround? (arena : Arena) (i : Nat) (name : String) :
    Option ValueType :=
  ((arena.functionAround? (some i)).filter fun function =>
    (arena.identityOf function).name = name).bind arena.declaredReturn?

theorem returnType_lookedUp (functions : FunctionTable) (i : Nat)
    (name : String) :
    FunctionTable.returnType (arena.lookedUp functions i) name
      = (arena.typeAround? i name).getD (functions.returnType name) := by
  unfold lookedUp typeAround? FunctionTable.returnType
  cases arena.functionAround? (some i) with
  | none => rfl
  | some function =>
      rw [Option.elim_some, lookUp?_enterFunction]
      by_cases hname : name = (arena.identityOf function).name
      · rw [if_pos hname, Option.elim_some, returnType_entered,
          Option.filter_some_pos (by simp [hname]), Option.bind_some]
      · rw [if_neg hname,
          Option.filter_some_neg (by simpa using Ne.symm hname)]
        rfl

/-- Variables do not change return types. -/
theorem returnType_addVariable (functions : FunctionTable) (function : Nat)
    (slot : Slot) (name : String) :
    FunctionTable.returnType
        ((arena.enterFunction functions function).2.update
          (arena.enterFunction functions function).1 (.addVariable slot)) name
      = FunctionTable.returnType (arena.enterFunction functions function).2
          name := by
  unfold FunctionTable.returnType
  rw [Registry.lookUp?_update (find?_enterFunction ..)]
  split
  · cases (arena.enterFunction functions function).2.lookUp? name <;> rfl
  · rfl

theorem returnType_declareVariable (model : Model) (declared : Ref)
    (type : ValueType) (name : String) :
    (arena.declareVariable model (some i) declared
        type).functions.returnType name
      = FunctionTable.returnType (arena.lookedUp model.functions i) name := by
  rw [functions_declareVariable]
  unfold lookedUp
  cases arena.functionAround? (some i) with
  | none => rfl
  | some function => exact returnType_addVariable ..

/-- The return type that the check of a node sets for a name. -/
def setType? (arena : Arena) (model : Model) (i : Nat) (name : String) :
    Option ValueType :=
  if arena.looksAround model i then arena.typeAround? i name else none

/-- The step lemma. -/
theorem returnType_checkNode {outcome : Outcome}
    (h : arena.checkNode model i = .ok outcome) (name : String) :
    outcome.model.functions.returnType name
      = (arena.setType? model i name).getD
          (model.functions.returnType name) := by
  unfold setType?
  by_cases hdeclaration : ∃ declared initializer,
      arena.form? (some i) = some (.declaration declared initializer)
  · obtain ⟨declared, initializer, hform⟩ := hdeclaration
    rw [checkNode_declaration hform] at h
    cases h
    have hlooks : arena.looksAround model i = (arena.checkDeclaration model
        (some i) declared initializer).events.isEmpty := by
      unfold looksAround
      rw [hform]
    rcases arena.functions_checkDeclaration i model declared initializer
      with ⟨haccepted, type, hfunctions⟩ | ⟨hrefused, hfunctions⟩
    · rw [hlooks, haccepted, if_pos rfl, hfunctions,
        returnType_declareVariable, returnType_lookedUp]
    · rw [hlooks, hrefused, hfunctions]
      rfl
  · rw [not_exists] at hdeclaration
    have hother := fun declared => not_exists.1 (hdeclaration declared)
    rw [functions_checkNode hother h]
    split
    · exact returnType_lookedUp ..
    · rfl

end Arena

-- ============================================================ sessions

namespace Session

variable {arena : Arena} {root : Ref} {session : Session} {nodes : List Nat}
  {name : String} {type : ValueType} {k : Nat}

/-- The last one of some nodes that sets a return type for the name sets
this type. -/
def LastSets (arena : Arena) (session : Session) (nodes : List Nat)
    (name : String) (type : ValueType) : Prop :=
  ∃ before j, before ++ [j] <+: nodes
    ∧ arena.setType? (visit arena before session).1.model j name = some type
    ∧ ∀ later k, before ++ [j] <+: later → later ++ [k] <+: nodes →
      arena.setType? (visit arena later session).1.model k name = none

theorem not_lastSets_nil : ¬ LastSets arena session [] name type := by
  rintro ⟨before, j, hleads, -, -⟩
  simpa using List.prefix_nil.1 hleads

/-- A node that sets a type is the last to do so. -/
theorem lastSets_concat_of_some {other : ValueType}
    (h : arena.setType? (visit arena nodes session).1.model k name
      = some other) :
    LastSets arena session (nodes ++ [k]) name type ↔ other = type := by
  constructor
  · rintro ⟨before, j, hleads, hsets, hnone⟩
    rcases Arena.prefix_concat_cases hleads with ⟨rfl, rfl⟩ | hsooner
    · exact Option.some.inj (h.symm.trans hsets)
    · rw [hnone nodes k hsooner (List.prefix_refl _)] at h
      cases h
  · rintro rfl
    refine ⟨nodes, k, List.prefix_refl _, h, fun later k' hlater hleads => ?_⟩
    have hlonger := hlater.length_le.trans_lt
      (Nat.lt_of_lt_of_le (by simp) hleads.length_le)
    exact absurd hlonger (Nat.lt_irrefl _)

/-- A node that sets none does not matter. -/
theorem lastSets_concat_of_none
    (h : arena.setType? (visit arena nodes session).1.model k name = none) :
    LastSets arena session (nodes ++ [k]) name type
      ↔ LastSets arena session nodes name type := by
  constructor
  · rintro ⟨before, j, hleads, hsets, hnone⟩
    rcases Arena.prefix_concat_cases hleads with ⟨rfl, rfl⟩ | hsooner
    · rw [h] at hsets
      cases hsets
    · exact ⟨before, j, hsooner, hsets, fun later k' hlater hleads' =>
        hnone later k' hlater (hleads'.trans (List.prefix_append _ _))⟩
  · rintro ⟨before, j, hleads, hsets, hnone⟩
    refine ⟨before, j, hleads.trans (List.prefix_append _ _), hsets,
      fun later k' hlater hleads' => ?_⟩
    rcases Arena.prefix_concat_cases hleads' with ⟨rfl, rfl⟩ | hsooner
    · exact h
    · exact hnone later k' hlater hsooner

/-- There is one last node. -/
theorem lastSets_unique {other : ValueType}
    (h : LastSets arena session nodes name type)
    (hother : LastSets arena session nodes name other) : type = other := by
  obtain ⟨before, j, hleads, hsets, hnone⟩ := h
  obtain ⟨before', j', hleads', hsets', hnone'⟩ := hother
  rcases Arena.prefix_cases hleads hleads' with
    ⟨rfl, rfl⟩ | hlater | hsooner
  · exact Option.some.inj (hsets.symm.trans hsets')
  · rw [hnone before' j' hlater hleads'] at hsets'
    cases hsets'
  · rw [hnone' before j hsooner hleads] at hsets
    cases hsets

/-- Behind some nodes, the last type that one of them has set for a name is
declared for it, and void if none has. -/
theorem Passes.returnType_visit (h : Passes arena root)
    (hmodel : session.model.functions = {}) (nodes : List Nat)
    (name : String) :
    LastSets arena session nodes name
        ((visit arena nodes session).1.model.functions.returnType name)
      ∨ (visit arena nodes session).1.model.functions.returnType name = .void
        ∧ ∀ type, ¬ LastSets arena session nodes name type := by
  -- from the back: the last node decides if it sets a type
  induction nodes using List.reverseRecOn with
  | nil =>
      refine .inr ⟨?_, fun _ => not_lastSets_nil⟩
      show session.model.functions.returnType name = .void
      rw [hmodel]
      rfl
  | append_singleton nodes k ih =>
      obtain ⟨outcome, hrun⟩ :=
        h.outcome (visit arena nodes session).1.model k
      have hafter := Arena.returnType_checkNode hrun name
      rw [h.visit_concat nodes hrun]
      cases hset :
          arena.setType? (visit arena nodes session).1.model k name with
      | some type =>
          rw [hset, Option.getD_some] at hafter
          exact .inl ((lastSets_concat_of_some hset).2 hafter.symm)
      | none =>
          rw [hset, Option.getD_none] at hafter
          show LastSets _ _ _ _ (outcome.model.functions.returnType name)
            ∨ outcome.model.functions.returnType name = .void ∧ _
          simp only [lastSets_concat_of_none hset, hafter]
          exact ih

/-- Nothing but void is declared for a name exactly if nothing but void was
set last. -/
theorem Passes.returnType_visit_eq_void_iff (h : Passes arena root)
    (hmodel : session.model.functions = {}) (nodes : List Nat) :
    (visit arena nodes session).1.model.functions.returnType name = .void
      ↔ ∀ type, LastSets arena session nodes name type → type = .void := by
  rcases h.returnType_visit hmodel nodes name with
    hlast | ⟨hvoid, hnone⟩
  · constructor
    · intro hvoid type htype
      rw [← hvoid]
      exact lastSets_unique htype hlast
    · exact fun hall => hall _ hlast
  · exact iff_of_true hvoid fun type htype => absurd htype (hnone type)

/-- Returns are judged against the type that the function around them is
documented with. If it is not documented, they are judged against the type
that the last documented function of the same name to be looked up has
set, and so against void exactly if that is void or there is none. -/
theorem returnTypes_of_check {text : String} {tree : Tree}
    (h : Tree.parse text = .ok tree) (session : Session) (file : String) :
    let root := some (Arena.ofTree (.ofText text) tree).1
    let arena := (Arena.ofTree (.ofText text) tree).2
    let begun := session.reset file
    let found nodes := (visit arena nodes begun).1.sink.diagnostics
    ∀ i value function, arena.form? (some i) = some (.returning value) →
      arena.functionAround? (some i) = some function →
      let known := arena.identityOf function
      ∃ nodes declared, nodes ++ [i] <+: arena.preorder root
        ∧ (∀ kind, found (nodes ++ [i]) = found nodes
              ++ [.of kind file (arena.lineOf (some i)) none]
            ↔ arena.verdict? (visit arena nodes begun).1.model i value
                declared = some kind
              ∧ ∀ j ∈ nodes, arena.suppression? j ≠ some kind)
        ∧ (∀ type, known.doc = none →
            LastSets arena begun nodes known.name type → declared = type)
        ∧ (declared = (arena.declaredReturn? function).getD .void
          ↔ known.doc ≠ none ∨ ∀ type,
            LastSets arena begun nodes known.name type → type = .void) := by
  intro root arena begun found i value function hform haround known
  have hpasses : Passes arena root := passes_of_parse h
  obtain ⟨nodes, hnodes⟩ :=
    Arena.exists_before (Arena.mem_preorder_ofTree hform)
  obtain ⟨outcome, hrun⟩ :=
    hpasses.outcome (visit arena nodes begun).1.model i
  obtain ⟨_, hsame, hevents, -⟩ := Arena.return_verdict hform hrun
  obtain rfl := Option.some.inj (haround.symm.trans hsame)
  have hmodel : begun.model.functions = {} := rfl
  have htypes := hpasses.returnType_visit hmodel nodes known.name
  refine ⟨nodes, _, hnodes, fun kind =>
    hpasses.reported_iff rfl hrun hevents, ?_, ?_⟩
  -- without documentation of its own, the function has the type that was last
  -- set for its name
  · intro type hdoc hlast
    rw [Arena.declaredType_eq, Arena.declaredReturn?, hdoc]
    rcases htypes with hvisit | ⟨-, hnone⟩
    · exact lastSets_unique hvisit hlast
    · exact absurd hlast (hnone type)
  · rw [Arena.declaredType_eq, Arena.declaredReturn?]
    cases hdoc : known.doc with
    | some doc => exact iff_of_true rfl (.inl (Option.some_ne_none doc))
    | none =>
        refine (hpasses.returnType_visit_eq_void_iff rfl nodes).trans ?_
        exact (or_iff_right fun hnot => hnot rfl).symm

/-- Two functions without a name, of which the second one is documented. -/
def numberLast : String :=
  "f(function()\x7breturn;\x7d,"
    ++ "/** @return Number */function()\x7breturn 1;\x7d);"

/-- Its return is judged against the type that it documents. -/
theorem returnTypes_of_check_numberLast :
    Tree.Parses numberLast fun tree =>
      let root := some (Arena.ofTree (.ofText numberLast) tree).1
      let arena := (Arena.ofTree (.ofText numberLast) tree).2
      let found nodes :=
        (visit arena nodes ((start {}).reset "f.js")).1.sink.diagnostics
      arena.form? (some 5) = some (.returning (some 4))
        ∧ arena.functionAround? (some 5) = some 7
        ∧ (arena.identityOf 7).name = ""
        ∧ ∃ nodes, nodes ++ [5] <+: arena.preorder root
          ∧ ∀ kind, found (nodes ++ [5]) = found nodes
              ++ [.of kind "f.js" (arena.lineOf (some 5)) none]
            ↔ arena.verdict? (visit arena nodes
                ((start {}).reset "f.js")).1.model 5 (some 4) .number
                = some kind
              ∧ ∀ j ∈ nodes, arena.suppression? j ≠ some kind := by
  have hparses : Tree.Parses numberLast fun tree =>
      let arena := (Arena.ofTree (.ofText numberLast) tree).2
      arena.form? (some 5) = some (.returning (some 4))
        ∧ arena.functionAround? (some 5) = some 7
        ∧ (arena.identityOf 7).name = ""
        ∧ (arena.identityOf 7).doc ≠ none
        ∧ arena.declaredReturn? 7 = some .number := by decide +kernel
  obtain ⟨tree, hparse, hform, haround, hname, hdoc, hown⟩ := hparses
  obtain ⟨nodes, declared, hnodes, hfound, -, hdeclared⟩ :=
    returnTypes_of_check hparse (start {}) "f.js" 5 _ 7 hform haround
  have hnumber := hdeclared.2 (.inl hdoc)
  rw [hown, Option.getD_some] at hnumber
  rw [hnumber] at hfound
  exact ⟨tree, hparse, hform, haround, hname, nodes, hnodes, hfound⟩

/-- Two functions without a name, of which the first one is documented. -/
def numberFirst : String :=
  "f(/** @return Number */function()\x7breturn 1;\x7d,"
    ++ "function()\x7breturn;\x7d);"

/-- The return in the second one, which is not documented, does not go with
the type that the first one documents. -/
theorem not_returnTypes_numberFirst :
    Tree.Parses numberFirst fun tree =>
      let root := some (Arena.ofTree (.ofText numberFirst) tree).1
      let arena := (Arena.ofTree (.ofText numberFirst) tree).2
      let found nodes :=
        (visit arena nodes ((start {}).reset "f.js")).1.sink.diagnostics
      let nodes := [10, 9, 8, 0, 4, 3, 2, 1, 7, 6]
      let model := (visit arena nodes ((start {}).reset "f.js")).1.model
      arena.form? (some 5) = some (.returning none)
        ∧ arena.functionAround? (some 5) = some 7
        ∧ arena.identityOf 7 = { doc := none }
        ∧ nodes ++ [5] <+: arena.preorder root
        ∧ arena.declaredType model.functions 7 = .number
        ∧ arena.verdict? model 5 none .void = none
        ∧ found (nodes ++ [5]) = found nodes
          ++ [.of .badReturn "f.js" (arena.lineOf (some 5)) none] := by
  decide +kernel

end Session

end ScriptLint
