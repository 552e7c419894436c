/-
Jumps stand where they may. A return lies in a function, a break without
a label in a loop or a switch statement, a continue in a loop, and none
of them looks past the function around it. The parsers keep track of
this on their way in, by the surroundings they hand on; here it is read
off the tree that comes out.

Of a return it also matters how far up its function is, since the walk
there is cut off. Every nesting level puts at most two nodes between a
statement and those it holds, so a tree has `room` for so many nodes more
above a return. Expressions may be of any depth: they hold no statements
but those of function bodies, which begin anew.

What the parsers hand on and what the tree says are the same information
from two sides. A production that yields statements is asked to yield a
tree that fits the surroundings that it was given; one that yields an
expression is asked for a tree that fits anywhere (`Tree.Plain`), so
whoever uses it need not know where it will stand. The change from the one
to the other happens at functions alone, whose bodies are given
surroundings of their own, with the full length of a walk as their room.

Room only ever grows on the way out, since a tree that fits with some room
fits with more (`Tree.Fits.mono`). So each production may count what it
puts above a statement as generously as is convenient, and there is no need
to know which of its parts is the deepest. The count comes to two nodes a
level (`fits_levels`), which the number of levels keeps far below the
length at which walks are cut off.
-/
import ScriptLint.Parse.Statement
import ScriptLint.Proofs.Parse.Contract
import ScriptLint.Proofs.Syntax.Layout

namespace ScriptLint

open Parse

-- ======================================================== surroundings

/-- What encloses the children of a node, given what encloses the node. -/
def Form.around {ι : Type} (form : Form ι) (s : Surroundings) :
    Surroundings :=
  match form with
  | .function .. => { inFunction := true }
  | .forLoop .. | .forIn .. | .whileLoop .. | .doWhile .. =>
    { s with inLoop := true }
  | .switch .. => { s with inSwitch := true }
  | _ => s

/-- How many nodes more there may be above a return among the children
of a node. A function begins anew. -/
def Form.roomBelow {ι : Type} (form : Form ι) (room : Nat) : Nat :=
  match form with
  | .function .. => Arena.walkLimit
  | _ => room - 1

/-- Whether a jump may stand in given surroundings. Labels are not looked
up. -/
def Form.mayStand {ι : Type} (form : Form (Option ι)) (s : Surroundings)
    (room : Nat) : Prop :=
  match form with
  | .returning _ => s.inFunction = true ∧ 0 < room
  | .breaking none => s.inLoop = true ∨ s.inSwitch = true
  | .continuing none => s.inLoop = true
  | _ => True

/-- Every jump of a tree may stand where it does, if the tree itself
stands in given surroundings. -/
inductive Tree.Fits : Surroundings → Nat → Tree → Prop where
  | node {s : Surroundings} {room start stop : Nat} {doc : Option String}
    {form : Form (Option Tree)} :
    form.mayStand s room →
    (∀ slot ∈ form.slots, ∀ child ∈ slot,
      Tree.Fits (form.around s) (form.roomBelow room) child) →
    Tree.Fits s room (.node start stop doc form)

/-- Surroundings that allow at least as much. -/
def Surroundings.Within (s t : Surroundings) : Prop :=
  (s.inFunction = true → t.inFunction = true)
    ∧ (s.inLoop = true → t.inLoop = true)
    ∧ (s.inSwitch = true → t.inSwitch = true)

/-- Surroundings allow what they allow. -/
theorem Surroundings.within_refl (s : Surroundings) : s.Within s :=
  ⟨id, id, id⟩

/-- Where nothing encloses anything, nothing is allowed that is not allowed
elsewhere. -/
theorem Surroundings.within_of_default (s : Surroundings) :
    Within {} s := by
  simp [Within]

/-- What allows more around a node allows more around its children. -/
theorem Form.around_mono {ι : Type} (form : Form ι) {s t : Surroundings}
    (h : s.Within t) : (form.around s).Within (form.around t) := by
  obtain ⟨hfunction, hloop, hswitch⟩ := h
  cases form <;> simp_all [around, Surroundings.Within]

/-- More room above a node is more room above its children. -/
theorem Form.roomBelow_mono {ι : Type} (form : Form ι) {m n : Nat}
    (h : m ≤ n) : form.roomBelow m ≤ form.roomBelow n := by
  cases form <;> simp only [roomBelow] <;> omega

/-- A jump that may stand in some surroundings may stand in those that allow
more. -/
theorem Form.mayStand_mono {ι : Type} {form : Form (Option ι)}
    {s t : Surroundings} {m n : Nat} (h : form.mayStand s m)
    (hst : s.Within t) (hmn : m ≤ n) : form.mayStand t n := by
  obtain ⟨hfunction, hloop, hswitch⟩ := hst
  cases form with
  | returning value => exact ⟨hfunction h.1, Nat.lt_of_lt_of_le h.2 hmn⟩
  | breaking label =>
      cases label with
      | none => exact h.imp hloop hswitch
      | some label => trivial
  | continuing label =>
      cases label with
      | none => exact hloop h
      | some label => trivial
  | _ => trivial

namespace Tree

variable {s t : Surroundings} {m n room : Nat} {tree : Tree}

/-- A tree fits into surroundings that allow more. -/
theorem Fits.mono (h : Fits s m tree) (hst : s.Within t) (hmn : m ≤ n) :
    Fits t n tree := by
  induction h generalizing t n with
  | node hstand hbelow ih =>
      exact .node (Form.mayStand_mono hstand hst hmn)
        fun slot hslot child hchild => ih slot hslot child hchild
          (Form.around_mono _ hst) (Form.roomBelow_mono _ hmn)

/-- A tree that fits anywhere, as expressions do. -/
abbrev Plain (tree : Tree) : Prop := tree.Fits {} 0

/-- What fits where nothing is allowed fits anywhere. -/
theorem Fits.anywhere (h : tree.Plain) (s : Surroundings) (room : Nat) :
    tree.Fits s room :=
  h.mono s.within_of_default (Nat.zero_le room)

/-- Documentation does not matter. -/
theorem Fits.withDoc (h : Fits s room tree) (doc : Option String) :
    Fits s room (tree.withDoc doc) := by
  obtain ⟨hstand, hbelow⟩ := h
  exact .node hstand hbelow

end Tree

-- =============================================================== slots

/-- What stands in a slot fits. -/
def SlotFits (s : Surroundings) (room : Nat) (slot : Option Tree) : Prop :=
  ∀ child ∈ slot, child.Fits s room

@[simp] theorem slotFits_none {s : Surroundings} {room : Nat} :
    SlotFits s room none := by
  intro child h
  cases h

@[simp] theorem slotFits_some {s : Surroundings} {room : Nat} {tree : Tree} :
    SlotFits s room (some tree) ↔ tree.Fits s room :=
  ⟨fun h => h tree rfl, fun h _ heq => Option.some.inj heq ▸ h⟩

/-- A slot that fits anywhere. -/
theorem SlotFits.anywhere {slot : Option Tree} (h : SlotFits {} 0 slot)
    (s : Surroundings) (room : Nat) : SlotFits s room slot :=
  fun child hchild => (h child hchild).anywhere s room

/-- A finished node fits when its form may stand and its slots fit. -/
theorem yields_node {s : Surroundings} {room start : Nat}
    {form : Form (Option Tree)} (hstand : form.mayStand s room)
    (hslots : ∀ slot ∈ form.slots,
      SlotFits (form.around s) (form.roomBelow room) slot) :
    Yields (finish start form) (Tree.Fits s room) :=
  yields_finish fun _ => .node hstand hslots

namespace Grammar

/-- The parsers of a grammar yield expressions that fit anywhere, and
statements that fit where they are read, with `room` for so many nodes
above a return. -/
structure Fits (g : Grammar) (room : Nat) : Prop where
  assignment (noIn : Bool) : Yields (g.assignment noIn) Tree.Plain
  operand (above : Nat) (noIn : Bool) :
    Yields (g.operand above noIn) Tree.Plain
  unary : Yields g.unary Tree.Plain
  callee : Yields g.callee Tree.Plain
  statement (s : Surroundings) : Yields (g.statement s) (Tree.Fits s room)

variable {g : Grammar} {room : Nat}

-- ========================================================= expressions

/-- A name holds no jump. -/
theorem name_fits (orKeyword : Bool) : Yields (name orKeyword) Tree.Plain := by
  refine .behind fun token => .ite (.behind fun _ => ?_) yields_fail
  exact yields_node trivial (by simp [Form.slots])

/-- A literal holds no jump. -/
theorem literal_fits : Yields literal Tree.Plain := by
  refine .behind fun token => .ite yields_fail (.behind fun _ => ?_)
  split <;> exact yields_node trivial (by simp [Form.slots])

/-- A token that is a node by itself, if it is no jump that must stand
somewhere. -/
theorem atom_fits {form : Form (Option Tree)} (hform : form.slots = [])
    (hstand : form.mayStand {} 0) : Yields (atom form) Tree.Plain := by
  refine .behind fun start => .behind fun _ => ?_
  exact yields_node hstand (by simp [hform])

/-- Operands with commas between them. -/
theorem expression_fits (hg : g.Fits room) (noIn : Bool) :
    Yields (g.expression noIn) Tree.Plain := by
  refine .behind fun start => (hg.assignment noIn).bind fun first hfirst => ?_
  refine .iterate (fun left hleft => ?_) hfirst
  refine .behind fun isComma => .ite ?_ (yields_pure hleft)
  refine (hg.assignment noIn).bind fun right hright => ?_
  refine Yields.bind (Q := Tree.Plain) (yields_node trivial ?_)
    fun both hboth => yields_pure hboth
  simpa [Form.slots] using ⟨hleft, hright⟩

/-- The arguments of a call, each a plain expression. -/
theorem arguments_fit (hg : g.Fits room) :
    Yields g.arguments fun slots => ∀ slot ∈ slots, SlotFits {} 0 slot := by
  refine .behind fun _ => .behind fun isClosed => ?_
  refine .choice (Q := fun items => ∀ item ∈ items, item.Plain)
    (yields_pure (by simp)) (.separated (hg.assignment false))
    fun items hitems => .behind fun _ => yields_pure ?_
  simpa using hitems

-- ============================================================ functions

/-- Each statement fits where all of them are read. -/
theorem statements_fit (hg : g.Fits room) (s : Surroundings) :
    Yields (g.statements s) fun slots =>
      ∀ slot ∈ slots, SlotFits s room slot := by
  refine .many (.behind fun kind => ?_)
  split
  case h_5 =>
      refine (hg.statement s).bind fun statement hstatement => yields_pure ?_
      simpa using hstatement
  all_goals exact yields_pure (by simp)

/-- A block is one node above its statements. -/
theorem block_fits (hg : g.Fits room) (s : Surroundings) :
    Yields (g.block s) (Tree.Fits s (room + 1)) := by
  refine .behind fun start => .behind fun _ => ?_
  refine (statements_fit hg s).bind fun statements hstatements => ?_
  exact .behind fun _ => yields_node trivial hstatements

/-- A name that may be left out. -/
theorem nameSlot_fits : Yields (some <$> name false) (SlotFits {} 0) :=
  (name_fits false).map fun _ => slotFits_some.2

/-- A function fits anywhere, since its body begins anew. -/
theorem function_fits (hg : g.Fits room) (hroom : room < Arena.walkLimit)
    (isDeclaration : Bool) :
    Yields (g.function isDeclaration) Tree.Plain := by
  refine .behind fun start => .behind fun _ => .behind fun isNamed => ?_
  refine .ite (nameSlot_fits.bind ?rest)
    (.choice nameSlot_fits (yields_pure slotFits_none) ?rest)
  intro name hname
  refine .behind fun _ => .behind fun isClosed => ?_
  refine .choice (Q := fun items => ∀ item ∈ items, item.Plain)
    (yields_pure (by simp)) (.separated (name_fits false))
    fun parameters hparameters => .behind fun _ => ?_
  refine (block_fits hg _).bind fun body hbody => yields_node trivial ?_
  -- the body begins anew, and has all the room that there is
  have hdeep : body.Fits { inFunction := true } Arena.walkLimit :=
    hbody.mono (Surroundings.within_refl _) hroom
  simp only [Form.slots, List.cons_append, List.forall_mem_cons,
    List.forall_mem_append, List.forall_mem_map]
  refine ⟨hname.anywhere _ _, fun parameter hparameter => ?_,
    slotFits_some.2 hdeep, by simp⟩
  exact slotFits_some.2 ((hparameters parameter hparameter).anywhere _ _)

-- ============================================================= literals

/-- The elements of an array, with its holes. -/
theorem array_fits (hg : g.Fits room) : Yields g.array Tree.Plain := by
  refine .behind fun start => .behind fun _ => ?_
  refine Yields.bind
    (.iterate (I := fun r => ∀ slot ∈ r.1, SlotFits {} 0 slot) ?_ (by simp))
    fun elements helements => .behind fun _ => yields_node trivial ?_
  · intro state hdone
    obtain ⟨done, more⟩ := state
    refine .behind fun isClosed => .ite (yields_pure hdone) ?_
    refine .behind fun isHole => .ite (yields_pure ?_) ?_
    · exact List.forall_mem_cons.2 ⟨slotFits_none, hdone⟩
    · refine (hg.assignment false).bind fun element helement => ?_
      refine .behind fun isMore => yields_pure ?_
      exact List.forall_mem_cons.2 ⟨slotFits_some.2 helement, hdone⟩
  · exact fun slot hslot => helements slot (List.mem_reverse.1 hslot)

/-- A property holds a key and a value. -/
theorem property_fits (hg : g.Fits room) : Yields g.property Tree.Plain := by
  refine .behind fun token => ?_
  have hvalue : ∀ (key : Tree) (named : Bool), key.Plain → Yields (do
      if named && !(← isAt Punctuator.colon) then
        failAt token.start .accessorProperty
      else
        expect Punctuator.colon
        let value ← g.assignment false
        finish token.start
          (.property (some (key.withDoc token.doc)) (some value)))
      Tree.Plain := by
    intro key named hkey
    refine .behind fun isColon => .ite yields_failAt (.behind fun _ => ?_)
    refine (hg.assignment false).bind fun value hvalue => ?_
    refine yields_node trivial ?_
    simpa [Form.slots] using ⟨hkey.withDoc token.doc, hvalue⟩
  split
  · exact literal_fits.bind fun key => hvalue key _
  · exact literal_fits.bind fun key => hvalue key _
  · exact (name_fits true).bind fun key => hvalue key _

/-- The properties of an object. -/
theorem object_fits (hg : g.Fits room) : Yields g.object Tree.Plain := by
  refine .behind fun start => .behind fun _ => ?_
  refine Yields.bind
    (.iterate (I := fun r => ∀ slot ∈ r.1, SlotFits {} 0 slot) ?_ (by simp))
    fun properties hproperties => .behind fun _ => yields_node trivial ?_
  · intro state hdone
    obtain ⟨done, more⟩ := state
    refine .behind fun isClosed => .ite (yields_pure hdone) ?_
    refine (property_fits hg).bind fun property hproperty => ?_
    refine .behind fun isMore => yields_pure ?_
    exact List.forall_mem_cons.2 ⟨slotFits_some.2 hproperty, hdone⟩
  · exact fun slot hslot => hproperties slot (List.mem_reverse.1 hslot)

/-- An operand may be a function, so the room in its body must be no more than
a walk is long. -/
theorem primary_fits (hg : g.Fits room) (hroom : room < Arena.walkLimit) :
    Yields g.primary Tree.Plain := by
  refine .behind fun token => ?_
  split
  case h_1 => exact name_fits false
  case h_2 => exact atom_fits rfl trivial
  case h_3 => exact atom_fits rfl trivial
  case h_4 => exact atom_fits rfl trivial
  case h_5 => exact atom_fits rfl trivial
  case h_6 => exact literal_fits
  case h_7 => exact literal_fits
  case h_8 => exact .behind fun _ => literal_fits
  case h_9 => exact .behind fun _ => literal_fits
  case h_10 =>
      refine .behind fun _ => (expression_fits hg false).bind
        fun inner hinner => .behind fun _ => yields_node trivial ?_
      exact List.forall_mem_singleton.2 (slotFits_some.2 hinner)
  case h_11 => exact array_fits hg
  case h_12 => exact object_fits hg
  case h_13 =>
      refine (function_fits hg hroom false).bind fun function hfunction =>
        yields_pure (hfunction.withDoc token.doc)
  case h_14 => exact yields_fail

-- ============================================================ operators

/-- What is put behind an operand holds it as it is. -/
theorem extend_fits (hg : g.Fits room) (calls : Bool) (start : Nat)
    {owner : Tree} (howner : owner.Plain) :
    Yields (g.extend calls start owner) (SlotFits {} 0) := by
  refine .behind fun kind => ?_
  split
  · refine .behind fun _ => (name_fits true).bind fun name hname => ?_
    refine .map (yields_node trivial ?_) fun _ => slotFits_some.2
    simpa [Form.slots] using ⟨howner, hname⟩
  · refine .behind fun _ => (expression_fits hg false).bind
      fun index hindex => .behind fun _ => ?_
    refine .map (yields_node trivial ?_) fun _ => slotFits_some.2
    simpa [Form.slots] using ⟨howner, hindex⟩
  · refine .ite ?_ (yields_pure slotFits_none)
    refine (arguments_fit hg).bind fun arguments harguments => ?_
    refine .map (yields_node trivial ?_) fun _ => slotFits_some.2
    exact List.forall_mem_cons.2 ⟨slotFits_some.2 howner, harguments⟩
  · exact yields_pure slotFits_none

/-- A construction holds its callee and its arguments. -/
theorem head_fits (hg : g.Fits room) (hroom : room < Arena.walkLimit) :
    Yields g.head Tree.Plain := by
  refine .behind fun start => .behind fun isNew => ?_
  refine .ite (hg.callee.bind fun callee hcallee => .behind fun isCall => ?_)
    (primary_fits hg hroom)
  refine .choice (arguments_fit hg) (yields_pure (by simp))
    fun arguments harguments => yields_node trivial ?_
  exact List.forall_mem_cons.2 ⟨slotFits_some.2 hcallee, harguments⟩

/-- An operand keeps fitting anywhere, however much is put behind it. -/
theorem leftHand_fits (hg : g.Fits room) (hroom : room < Arena.walkLimit)
    (calls : Bool) : Yields (g.leftHand calls) Tree.Plain := by
  refine .behind fun start => (head_fits hg hroom).bind fun head hhead => ?_
  refine .iterate (fun owner howner => ?_) hhead
  refine (extend_fits hg calls start howner).mono fun r hr => ?_
  cases r with
  | none => exact howner
  | some extended => exact slotFits_some.1 hr

/-- Operators in front of an operand or behind it. -/
theorem unaryExpression_fits (hg : g.Fits room)
    (hroom : room < Arena.walkLimit) :
    Yields g.unaryExpression Tree.Plain := by
  refine .behind fun token => .ite (.behind fun _ => ?_) ?_
  · refine hg.unary.bind fun operand hoperand => yields_node trivial ?_
    exact List.forall_mem_singleton.2 (slotFits_some.2 hoperand)
  · refine (leftHand_fits hg hroom true).bind fun operand hoperand => ?_
    refine .behind fun next => .ite (.behind fun _ => ?_)
      (yields_pure hoperand)
    refine yields_node trivial ?_
    exact List.forall_mem_singleton.2 (slotFits_some.2 hoperand)

/-- Operators between operands. -/
theorem binaryExpression_fits (hg : g.Fits room)
    (hroom : room < Arena.walkLimit) (above : Nat) (noIn : Bool) :
    Yields (g.binaryExpression above noIn) Tree.Plain := by
  refine .behind fun start => ?_
  refine (unaryExpression_fits hg hroom).bind fun first hfirst => ?_
  refine .iterate (fun left hleft => ?_) hfirst
  refine .behind fun operator => .ite (yields_pure hleft) (.behind fun _ => ?_)
  refine (hg.operand _ noIn).bind fun right hright => ?_
  refine Yields.bind (Q := Tree.Plain) (yields_node trivial ?_)
    fun both hboth => yields_pure hboth
  simpa [Form.slots] using ⟨hleft, hright⟩

/-- A condition and two branches, all of them expressions. -/
theorem conditional_fits (hg : g.Fits room) (hroom : room < Arena.walkLimit)
    (noIn : Bool) : Yields (g.conditional noIn) Tree.Plain := by
  refine .behind fun start => ?_
  refine (binaryExpression_fits hg hroom 0 noIn).bind
    fun condition hcondition => ?_
  refine .behind fun isCondition => .ite ?_ (yields_pure hcondition)
  refine (hg.assignment false).bind fun whenTrue htrue => .behind fun _ => ?_
  refine (hg.assignment noIn).bind fun whenFalse hfalse => ?_
  refine yields_node trivial ?_
  simpa [Form.slots] using ⟨hcondition, htrue, hfalse⟩

/-- A target and what is assigned to it. -/
theorem assignmentExpression_fits (hg : g.Fits room)
    (hroom : room < Arena.walkLimit) (noIn : Bool) :
    Yields (g.assignmentExpression noIn) Tree.Plain := by
  refine .behind fun start => ?_
  refine (conditional_fits hg hroom noIn).bind fun left hleft => ?_
  refine .behind fun operator => .ite (.ite (.behind fun _ => ?_) yields_fail)
    (yields_pure hleft)
  refine (hg.assignment noIn).bind fun right hright => yields_node trivial ?_
  simpa [Form.slots] using ⟨hleft, hright⟩

-- ======================================================== declarations

/-- A variable holds a name and perhaps an expression. -/
theorem declaration_fits (hg : g.Fits room) (noIn : Bool) :
    Yields (g.declaration noIn) Tree.Plain := by
  refine .behind fun start => (name_fits false).bind fun name hname => ?_
  refine .behind fun isInitialized => ?_
  refine .choice ((hg.assignment noIn).map fun _ => slotFits_some.2)
    (yields_pure slotFits_none) fun initializer hinitializer => ?_
  refine yields_node trivial (List.forall_mem_cons.2
    ⟨slotFits_some.2 hname, ?_⟩)
  exact List.forall_mem_singleton.2 hinitializer

/-- A list of variables fits anywhere, as each of them does. -/
theorem declarations_fit (hg : g.Fits room) (noIn : Bool) :
    Yields (g.declarations noIn) Tree.Plain := by
  refine .behind fun start => .behind fun _ => ?_
  refine Yields.bind (.separated (declaration_fits hg noIn))
    fun items hitems => yields_node trivial ?_
  exact List.forall_mem_map.2 fun item hitem =>
    slotFits_some.2 (hitems item hitem)

-- ========================================================== conditions

/-- A condition is the expression in its parentheses. -/
theorem condition_fits (hg : g.Fits room) : Yields g.condition Tree.Plain := by
  refine .behind fun _ => (expression_fits hg false).bind
    fun condition hcondition => ?_
  exact .behind fun _ => yields_pure hcondition

/-- An expression that may be missing. -/
theorem optionalExpression_fits (hg : g.Fits room) (stop : Punctuator) :
    Yields (g.optionalExpression stop) (SlotFits {} 0) := by
  refine .behind fun isAbsent => .ite (yields_pure slotFits_none) ?_
  exact (expression_fits hg false).map fun _ => slotFits_some.2

/-- A slot filled by a nested statement. -/
theorem statementSlot_fits (hg : g.Fits room) (s : Surroundings) :
    Yields (some <$> g.statement s) (SlotFits s room) :=
  (hg.statement s).map fun _ => slotFits_some.2

/-- Both statements of a branch stand in its surroundings. -/
theorem branch_fits (hg : g.Fits room) (s : Surroundings) :
    Yields (g.branch s) (Tree.Fits s (room + 1)) := by
  refine .behind fun start => .behind fun _ => ?_
  refine (condition_fits hg).bind fun condition hcondition => ?_
  refine (hg.statement s).bind fun consequent hconsequent => ?_
  refine .behind fun isElse => .choice (statementSlot_fits hg s)
    (yields_pure slotFits_none) fun alternative halternative => ?_
  refine yields_node trivial ?_
  simp only [Form.slots, List.forall_mem_cons, slotFits_some]
  exact ⟨hcondition.anywhere _ _, hconsequent, halternative, by simp⟩

-- =============================================================== loops

/-- The body stands in a loop, the two expressions fit anywhere. -/
theorem forInTail_fits (hg : g.Fits room) (s : Surroundings) (start : Nat)
    {target : Tree} (htarget : target.Plain) :
    Yields (g.forInTail s start target) (Tree.Fits s (room + 1)) := by
  refine .ite yields_fail ?_
  refine (expression_fits hg false).bind fun subject hsubject => ?_
  refine .behind fun _ => (hg.statement _).bind fun body hbody => ?_
  refine yields_node trivial ?_
  simp only [Form.slots, List.forall_mem_cons, slotFits_some]
  exact ⟨htarget.anywhere _ _, hsubject.anywhere _ _, hbody, by simp⟩

/-- The three parts in the head of a loop with semicolons fit anywhere, and
its body stands in a loop. -/
theorem forTail_fits (hg : g.Fits room) (s : Surroundings) (start : Nat)
    {initializer : Option Tree} (hinitializer : SlotFits {} 0 initializer) :
    Yields (g.forTail s start initializer) (Tree.Fits s (room + 1)) := by
  refine .behind fun _ => (optionalExpression_fits hg _).bind
    fun condition hcondition => ?_
  refine .behind fun _ => (optionalExpression_fits hg _).bind
    fun step hstep => ?_
  refine .behind fun _ => (hg.statement _).bind fun body hbody => ?_
  refine yields_node trivial ?_
  simp only [Form.slots, List.forall_mem_cons, slotFits_some]
  exact ⟨hinitializer.anywhere _ _, hcondition.anywhere _ _,
    hstep.anywhere _ _, hbody, by simp⟩

/-- A loop of either kind is one node above its body. -/
theorem forLoop_fits (hg : g.Fits room) (s : Surroundings) :
    Yields (g.forLoop s) (Tree.Fits s (room + 1)) := by
  refine .behind fun start => .behind fun _ => .behind fun _ => ?_
  refine .behind fun kind => ?_
  split
  · exact forTail_fits hg s start slotFits_none
  · refine .choice (declarations_fit hg true) (expression_fits hg true)
      fun first hfirst => .behind fun isIn => ?_
    exact .ite (forInTail_fits hg s start hfirst)
      (forTail_fits hg s start (slotFits_some.2 hfirst))

/-- A loop with its condition in front. -/
theorem whileLoop_fits (hg : g.Fits room) (s : Surroundings) :
    Yields (g.whileLoop s) (Tree.Fits s (room + 1)) := by
  refine .behind fun start => .behind fun _ => ?_
  refine (condition_fits hg).bind fun condition hcondition => ?_
  refine (hg.statement _).bind fun body hbody => yields_node trivial ?_
  simp only [Form.slots, List.forall_mem_cons, slotFits_some]
  exact ⟨hcondition.anywhere _ _, hbody, by simp⟩

/-- A loop with its condition behind the body. -/
theorem doWhile_fits (hg : g.Fits room) (s : Surroundings) :
    Yields (g.doWhile s) (Tree.Fits s (room + 1)) := by
  refine .behind fun start => .behind fun _ => ?_
  refine (hg.statement _).bind fun body hbody => .behind fun _ => ?_
  refine (condition_fits hg).bind fun condition hcondition => ?_
  refine .behind fun _ => yields_node trivial ?_
  simp only [Form.slots, List.forall_mem_cons, slotFits_some]
  exact ⟨hbody, hcondition.anywhere _ _, by simp⟩

-- =============================================================== jumps

/-- A jump without a label has been let through only where it may
stand. -/
theorem jump_fits (s : Surroundings) (room : Nat) :
    Yields (jump s) (Tree.Fits s room) := by
  refine .behind fun start => .behind fun isBreak => .behind fun _ => ?_
  refine .behind fun token => .choice nameSlot_fits
    (yields_pure slotFits_none) fun label hlabel => ?_
  have hslot := List.forall_mem_singleton.2 (hlabel.anywhere s (room - 1))
  dsimp only
  split
  · exact yields_failAt
  · rename_i hbreak
    split
    · exact yields_failAt
    · rename_i hcontinue
      refine .behind fun _ => ?_
      cases isBreak <;> cases label <;> refine yields_node ?_ hslot <;>
        cases hloop : s.inLoop <;> simp_all [Form.mayStand]

/-- A `return` has been refused unless there is a function around it, which is
all that it needs. -/
theorem returning_fits (hg : g.Fits room) (s : Surroundings) :
    Yields (g.returning s) (Tree.Fits s (room + 1)) := by
  unfold returning
  split
  · exact yields_fail
  · rename_i hfunction
    refine .behind fun start => .behind fun _ => .behind fun mayEnd => ?_
    refine .choice (yields_pure slotFits_none)
      ((expression_fits hg false).map fun _ => slotFits_some.2)
      fun value hvalue => .behind fun _ => ?_
    refine yields_node ⟨by simpa using hfunction, Nat.succ_pos _⟩ ?_
    exact List.forall_mem_singleton.2 (hvalue.anywhere _ _)

/-- An exception is a statement, but no jump. -/
theorem throwing_fits (hg : g.Fits room) : Yields g.throwing Tree.Plain := by
  refine .behind fun start => .behind fun _ => .behind fun isBroken => ?_
  refine .ite yields_fail ((expression_fits hg false).bind
    fun value hvalue => .behind fun _ => yields_node trivial ?_)
  exact List.forall_mem_singleton.2 (slotFits_some.2 hvalue)

/-- The name and the block of a handler, where there is one. -/
def HandlerFits (s : Surroundings) (room : Nat)
    (handler : Option (Tree × Tree)) : Prop :=
  SlotFits {} 0 (handler.map (·.1)) ∧ SlotFits s room (handler.map (·.2))

/-- The blocks stand in the surroundings of the whole, one node above their
statements. -/
theorem trying_fits (hg : g.Fits room) (s : Surroundings) :
    Yields (g.trying s) (Tree.Fits s (room + 2)) := by
  refine .behind fun start => .behind fun _ => ?_
  refine (block_fits hg s).bind fun body hbody => .behind fun isCaught => ?_
  have hslot : Yields (some <$> g.block s) (SlotFits s (room + 1)) :=
    (block_fits hg s).map fun _ => slotFits_some.2
  refine .ite (.behind fun _ => (name_fits false).bind fun caught hcaught =>
    .behind fun _ => Yields.bind (Q := HandlerFits s (room + 1)) ?_ ?rest)
    (Yields.bind (Q := HandlerFits s (room + 1)) (yields_pure ?_) ?rest)
  · have hboth : Yields ((caught, ·) <$> g.block s)
        fun h => h.1.Plain ∧ h.2.Fits s (room + 1) :=
      (block_fits hg s).map fun _ hhandler => ⟨hcaught, hhandler⟩
    exact hboth.map fun h hh => ⟨slotFits_some.2 hh.1, slotFits_some.2 hh.2⟩
  · exact ⟨slotFits_none, slotFits_none⟩
  · intro handler hread
    obtain ⟨hcaught, hhandler⟩ := hread
    refine .behind fun isCleaned => .choice hslot (yields_pure slotFits_none)
      fun cleanup hcleanup => .ite yields_fail (yields_node trivial ?_)
    simp only [Form.slots, List.forall_mem_cons, slotFits_some]
    exact ⟨hbody, hcaught.anywhere _ _, hhandler, hcleanup, by simp⟩

-- ============================================================== switch

/-- The test of a case is an expression. -/
theorem clauseTest_fits (hg : g.Fits room) (hasDefault : Bool) :
    Yields (g.clauseTest hasDefault) (SlotFits {} 0) := by
  refine .behind fun kind => ?_
  split
  · exact .behind fun _ =>
      (expression_fits hg false).map fun _ => slotFits_some.2
  · exact .ite yields_fail (.behind fun _ => yields_pure slotFits_none)
  · exact yields_fail

/-- A clause may be left by `break`, so its statements stand in a switch
statement. -/
theorem clause_fits (hg : g.Fits room) (s : Surroundings)
    (hasDefault : Bool) :
    Yields (g.clause s hasDefault) fun r =>
      r.1.Fits { s with inSwitch := true } (room + 1) := by
  refine .behind fun start => (clauseTest_fits hg hasDefault).bind
    fun test htest => .behind fun _ => ?_
  refine (statements_fit hg _).bind fun statements hstatements => ?_
  refine Yields.bind (Q := Tree.Fits { s with inSwitch := true } (room + 1))
    (yields_node trivial ?_) fun clause hclause => yields_pure hclause
  exact List.forall_mem_cons.2 ⟨htest.anywhere _ _, hstatements⟩

/-- The clauses add a node between the switch statement and their
statements. -/
theorem switch_fits (hg : g.Fits room) (s : Surroundings) :
    Yields (g.switch s) (Tree.Fits s (room + 2)) := by
  refine .behind fun start => .behind fun _ => ?_
  refine (condition_fits hg).bind fun subject hsubject => .behind fun _ => ?_
  refine Yields.bind (.iterate (I := fun r => ∀ slot ∈ r.1,
      SlotFits { s with inSwitch := true } (room + 1) slot) ?_ (by simp))
    fun clauses hclauses => .behind fun _ => yields_node trivial ?_
  · intro state hdone
    obtain ⟨done, hasDefault⟩ := state
    refine .behind fun isClosed => .ite (yields_pure hdone) ?_
    refine (clause_fits hg s hasDefault).bind fun clause hclause =>
      yields_pure ?_
    exact List.forall_mem_cons.2 ⟨slotFits_some.2 hclause, hdone⟩
  · refine List.forall_mem_cons.2
      ⟨slotFits_some.2 (hsubject.anywhere _ _), fun slot hslot => ?_⟩
    exact hclauses slot (List.mem_reverse.1 hslot)

-- ========================================================== statements

/-- A label is one node above its statement. -/
theorem expressionStatement_fits (hg : g.Fits room) (s : Surroundings) :
    Yields (g.expressionStatement s) (Tree.Fits s (room + 1)) := by
  refine .behind fun token => ?_
  refine (expression_fits hg false).bind fun value hvalue => ?_
  refine .behind fun isColon =>
    .ite (.behind fun _ => ?_) (.behind fun _ => ?_)
  · refine (hg.statement s).bind fun statement hstatement =>
      yields_node trivial ?_
    simp only [Form.slots, List.forall_mem_cons, slotFits_some]
    exact ⟨hvalue.anywhere _ _, hstatement, by simp⟩
  · refine yields_node trivial (List.forall_mem_singleton.2 ?_)
    exact slotFits_some.2 ((hvalue.withDoc token.doc).anywhere _ _)

/-- Whatever statement it is, there are at most two nodes more above those that
it holds. -/
theorem statementHere_fits (hg : g.Fits room) (hroom : room < Arena.walkLimit)
    (s : Surroundings) :
    Yields (g.statementHere s) (Tree.Fits s (room + 2)) := by
  -- most statements put one node above those that they hold, some two, and
  -- some hold none
  have hshallow : ∀ tree : Tree, tree.Fits s (room + 1) →
      tree.Fits s (room + 2) := fun tree h =>
    h.mono s.within_refl (Nat.le_succ _)
  have hplain : ∀ tree : Tree, tree.Plain → tree.Fits s (room + 2) :=
    fun tree h => h.anywhere s _
  refine .behind fun token => ?_
  split
  case h_1 => exact (block_fits hg s).mono hshallow
  case h_2 =>
      have hempty : Yields (atom .empty) Tree.Plain := atom_fits rfl trivial
      exact hempty.mono hplain
  case h_3 =>
      refine .behind fun _ => .behind fun _ => ?_
      exact yields_node trivial (by simp [Form.slots])
  case h_4 =>
      refine (declarations_fit hg false).bind fun statement hstatement => ?_
      exact .behind fun _ =>
        yields_pure (hplain _ (hstatement.withDoc token.doc))
  case h_5 =>
      refine (function_fits hg hroom true).bind fun function hfunction => ?_
      exact yields_pure (hplain _ (hfunction.withDoc token.doc))
  case h_6 => exact (branch_fits hg s).mono hshallow
  case h_7 => exact (forLoop_fits hg s).mono hshallow
  case h_8 => exact (whileLoop_fits hg s).mono hshallow
  case h_9 => exact (doWhile_fits hg s).mono hshallow
  case h_10 => exact jump_fits s _
  case h_11 => exact jump_fits s _
  case h_12 => exact (returning_fits hg s).mono hshallow
  case h_13 => exact (throwing_fits hg).mono hplain
  case h_14 => exact trying_fits hg s
  case h_15 => exact switch_fits hg s
  case h_16 =>
      exact .ite yields_failAt ((expressionStatement_fits hg s).mono hshallow)
  case h_17 => exact (expressionStatement_fits hg s).mono hshallow

-- =============================================================== depth

/-- Where no level is left, nothing is yielded. -/
theorem fits_exhausted : exhausted.Fits 0 where
  assignment _ := yields_fail
  operand _ _ := yields_fail
  unary := yields_fail
  callee := yields_fail
  statement _ := yields_fail

/-- One nesting level further out there are two nodes more above a
return. -/
theorem Fits.outer (hg : g.Fits room) (hroom : room < Arena.walkLimit) :
    g.outer.Fits (room + 2) where
  assignment := assignmentExpression_fits hg hroom
  operand := binaryExpression_fits hg hroom
  unary := unaryExpression_fits hg hroom
  callee := leftHand_fits hg hroom false
  statement := statementHere_fits hg hroom

/-- A tree of so many levels has twice as many nodes above a return. -/
theorem fits_levels {n : Nat} (hn : 2 * n ≤ Arena.walkLimit) :
    (levels n).Fits (2 * n) := by
  induction n with
  | zero => exact fits_exhausted
  | succ n ih => exact (ih (by omega)).outer (by omega)

-- ============================================================ programs

/-- At top level nothing encloses a statement. -/
theorem program_fits (hg : g.Fits room) :
    Yields g.program (Tree.Fits {} (room + 1)) := by
  refine Yields.bind
    (.many (Q := fun slot => SlotFits {} room slot) (.behind fun isEnd => ?_))
    fun statements hstatements => .behind fun token => ?_
  · refine .ite (yields_pure (by simp)) ?_
    refine (hg.statement {}).bind fun statement hstatement => yields_pure ?_
    simpa using hstatement
  · split
    · exact yields_failAt
    · exact yields_pure (.node trivial hstatements)

end Grammar

/-- Every jump of a program stands where it may, and a return close
enough to its function to be found from there. -/
theorem Tree.fits_of_parse {text : String} {tree : Tree}
    (h : Tree.parse text = .ok tree) :
    tree.Fits {} (2 * Grammar.maxDepth + 1) := by
  obtain ⟨cursor, hrun⟩ := Tree.parse_eq_ok.1 h
  exact (Grammar.program_fits (Grammar.fits_levels (by decide))).of_ok hrun

end ScriptLint
