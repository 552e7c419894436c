/-
Operands are of the level that their place calls for. The levels are
those of written expressions, from 1 for the comma to 16 for what needs
no operand; here they are read off a tree, whose brackets are nodes of
their own. What is no expression, or is missing, has level 0, so that a
place for an expression of any level holds one.

Most places have it from the parser that fills them. A binary operator
does not: which of two operators is further out follows from where the
loop that reads the operands stops. Behind an operand for precedence
`above` stands no operator that binds more tightly (`ReadsOperand`), so
when the loop goes on with an operator, it binds no more tightly than
the outermost one that has been read.

The main results are `Tree.keepsLevels_of_parse`, that all parts of an
accepted tree are of the levels that their places call for, and its
ingredients for the parsers of operands. For the loop over operators two
facts go round together: what has been read so far is of the level of its
outermost operator, and the current token goes on with no operator that
binds more tightly than the precedence that was asked for. The second fact
is about the cursor and not about the tree, which is why the contract of an
operand (`ReadsOperand`) has both.

A callee in a construction must hold no call on its way to the left, since
the arguments of the construction would be taken for those of the call.
That is the one condition that is not about levels (`Tree.CallsOnSpine`).
-/
import ScriptLint.Proofs.Parse.Progress
import ScriptLint.Proofs.Parse.Written
import ScriptLint.Proofs.Syntax.Layout

namespace ScriptLint

open Parse

-- ============================================================== levels

/-- The level of an expression of the form; 0 for other forms. -/
def Form.level {ι : Type} : Form ι → Nat
  | .binary _ operator _ => operator.level
  | .assignment .. => 2
  | .conditional .. => 3
  | .unary .. => 14
  | .member .. | .element .. | .call .. | .construct .. => 15
  | .identifier _ | .thisRef | .string _ | .number _ | .regex _
  | .boolean _ | .null | .array _ | .object _ | .paren _ => 16
  | .function _ _ _ isDeclaration => if isDeclaration then 0 else 16
  | _ => 0

/-- What a member, an element, a call or a construction begins with. -/
def Form.base : Form (Option Tree) → Option Tree
  | .member base _ | .element base _ | .call base _
  | .construct base _ => base
  | _ => none

namespace Tree

/-- The level of a tree as an expression. -/
def level (tree : Tree) : Nat := tree.form.level

/-- What may be assigned to, parentheses or not. -/
inductive Assignable : Tree → Prop where
  | identifier {tree : Tree} {text : String} :
    tree.form = .identifier text → Assignable tree
  | member {tree : Tree} {owner name : Option Tree} :
    tree.form = .member owner name → Assignable tree
  | element {tree : Tree} {owner index : Option Tree} :
    tree.form = .element owner index → Assignable tree
  | call {tree : Tree} {callee : Option Tree}
    {arguments : List (Option Tree)} :
    tree.form = .call callee arguments → Assignable tree
  | paren {tree inner : Tree} :
    tree.form = .paren (some inner) → Assignable inner → Assignable tree

/-- A call, or what begins with one, outside parentheses. -/
inductive CallsOnSpine : Tree → Prop where
  | call {tree : Tree} {callee : Option Tree}
    {arguments : List (Option Tree)} :
    tree.form = .call callee arguments → CallsOnSpine tree
  | base {tree base : Tree} : tree.form.base = some base →
    CallsOnSpine base → CallsOnSpine tree

/-- A tree is part of itself, and of every tree that a child of is part
of. -/
inductive IsPartOf : Tree → Tree → Prop where
  | self (tree : Tree) : IsPartOf tree tree
  | child {part child tree : Tree} : child ∈ tree.form.children →
    IsPartOf part child → IsPartOf part tree

end Tree

/-- The level of what stands in a slot. -/
def slotLevel (slot : Option Tree) : Nat := slot.elim 0 Tree.level

/-- The operands of a node are of the levels that their places call for.
A binary operator takes operators like itself on its left, and only
tighter ones on its right. -/
def Form.KeepsLevels : Form (Option Tree) → Prop
  | .array elements => ∀ element ∈ elements.filterMap id, 2 ≤ element.level
  | .property _ initializer => 2 ≤ slotLevel initializer
  | .member owner _ => 15 ≤ slotLevel owner
  | .element owner index => 15 ≤ slotLevel owner ∧ 1 ≤ slotLevel index
  | .call callee arguments =>
    15 ≤ slotLevel callee ∧ ∀ argument ∈ arguments, 2 ≤ slotLevel argument
  | .construct callee arguments =>
    15 ≤ slotLevel callee ∧ (∀ tree ∈ callee, ¬ tree.CallsOnSpine)
      ∧ ∀ argument ∈ arguments, 2 ≤ slotLevel argument
  | .unary _ operand leading =>
    (if leading then 14 else 15) ≤ slotLevel operand
  | .binary left operator right =>
    (operator = Punctuator.comma ∨ 0 < operator.precedence)
      ∧ operator.level ≤ slotLevel left
      ∧ operator.level < slotLevel right
  | .assignment left operator right =>
    operator.isAssignment = true ∧ (∃ tree ∈ left, tree.Assignable)
      ∧ 2 ≤ slotLevel right
  | .conditional condition whenTrue whenFalse =>
    3 < slotLevel condition ∧ 2 ≤ slotLevel whenTrue
      ∧ 2 ≤ slotLevel whenFalse
  | .paren inner => 1 ≤ slotLevel inner
  | _ => True

namespace Tree

variable {tree : Tree} {m n : Nat}

/-- An expression of at least some level, in which every node keeps the
levels; with 0 for the level, any such tree. -/
def Levelled (n : Nat) (tree : Tree) : Prop :=
  n ≤ tree.level ∧ ∀ part : Tree, part.IsPartOf tree → part.form.KeepsLevels

/-- What is of a level will do where less is called for. -/
theorem Levelled.mono (h : tree.Levelled n) (hmn : m ≤ n) :
    tree.Levelled m :=
  ⟨Nat.le_trans hmn h.1, h.2⟩

/-- Where the level does not matter. -/
theorem Levelled.loosen (h : tree.Levelled n) : tree.Levelled 0 :=
  h.mono (Nat.zero_le n)

/-- A node is of a level if its form is, and its children keep to theirs. -/
theorem levelled_node {start stop : Nat} {doc : Option String}
    {form : Form (Option Tree)} (hlevel : n ≤ form.level)
    (hform : form.KeepsLevels)
    (hbelow : ∀ child ∈ form.children, child.Levelled 0) :
    Levelled n (.node start stop doc form) := by
  refine ⟨hlevel, fun part hpart => ?_⟩
  cases hpart with
  | self => exact hform
  | child hchild hpart => exact (hbelow _ hchild).2 part hpart

/-- Documentation does not matter. -/
theorem Levelled.withDoc (h : tree.Levelled n) (doc : Option String) :
    (tree.withDoc doc).Levelled n := by
  obtain ⟨start, stop, own, form⟩ := tree
  refine levelled_node h.1 (h.2 _ (.self _)) fun child hchild => ?_
  exact ⟨Nat.zero_le _, fun part hpart => h.2 part (.child hchild hpart)⟩

/-- The parser's check of targets. -/
theorem assignable_of_isTarget (h : isTarget tree = true) :
    tree.Assignable := by
  fun_induction isTarget tree with
  | case1 start stop doc inner ih => exact .paren rfl (ih h)
  | case2 => exact .identifier rfl
  | case3 => exact .member rfl
  | case4 => exact .element rfl
  | case5 => exact .call rfl
  | case6 => cases h

/-- No call, and nothing that begins with one. -/
theorem not_callsOnSpine {form : Form (Option Tree)}
    (htree : tree.form = form)
    (hcall : ∀ callee arguments, form ≠ .call callee arguments)
    (hbase : ∀ base ∈ form.base, ¬ base.CallsOnSpine) :
    ¬ tree.CallsOnSpine := by
  subst htree
  intro hcalls
  cases hcalls with
  | call hform => exact hcall _ _ hform
  | base hform hbelow => exact hbase _ hform hbelow

/-- What needs no operand has no callee. -/
theorem not_callsOnSpine_of_level (h : 16 ≤ tree.level) :
    ¬ tree.CallsOnSpine := by
  refine not_callsOnSpine rfl (fun callee arguments hform => ?_)
    fun base hbase => ?_
  · simp [level, hform, Form.level] at h
  · cases hform : tree.form <;>
      simp [level, hform, Form.level, Form.base] at h hbase

end Tree

-- =============================================================== slots

/-- What stands in a slot is levelled. -/
def SlotLevelled (n : Nat) (slot : Option Tree) : Prop :=
  ∀ tree ∈ slot, tree.Levelled n

@[simp] theorem slotLevelled_none {n : Nat} : SlotLevelled n none :=
  fun _ h => nomatch h

@[simp] theorem slotLevelled_some {n : Nat} {tree : Tree} :
    SlotLevelled n (some tree) ↔ tree.Levelled n :=
  ⟨fun h => h tree rfl, fun h _ heq => Option.some.inj heq ▸ h⟩

/-- Where a slot calls for nothing, a tree of any level will do. -/
theorem Tree.Levelled.slot {n : Nat} {tree : Tree} (h : tree.Levelled n) :
    SlotLevelled 0 (some tree) :=
  slotLevelled_some.2 h.loosen

/-- A slot of a level will do where less is called for. -/
theorem SlotLevelled.mono {m n : Nat} {slot : Option Tree}
    (h : SlotLevelled n slot) (hmn : m ≤ n) : SlotLevelled m slot :=
  fun tree htree => (h tree htree).mono hmn

/-- A finished node is levelled when it keeps the levels and its slots
are levelled. -/
theorem reads_node {cs : List Char} {n start : Nat}
    {form : Form (Option Tree)} (hlevel : n ≤ form.level)
    (hform : form.KeepsLevels)
    (hslots : ∀ slot ∈ form.slots, SlotLevelled 0 slot) :
    Reads cs (finish start form) (Tree.Levelled n) := by
  refine reads_finish fun stop => Tree.levelled_node hlevel hform ?_
  intro child hchild
  exact hslots _ (Form.mem_children.1 hchild) child rfl

namespace Grammar

/-- Whether the loop for precedence `above` leaves a token alone, for
what it is or because `in` is excluded. -/
def LeavesAlone (above : Nat) (noIn : Bool) (kind : TokenKind) : Prop :=
  kind.precedence ≤ above ∨ noIn = true ∧ kind = Keyword.inWord

/-- An operand for precedence `above`: only operators that bind more
tightly are outermost in it, and none of them follows it. -/
def ReadsOperand (cs : List Char) (above : Nat) (noIn : Bool)
    (p : Parse Tree) : Prop :=
  ∀ cursor : Cursor, cursor.InText cs →
    Meets p cursor (fun tree cursor' => tree.Levelled (4 + above)
      ∧ cursor.Onward cs cursor' ∧ LeavesAlone above noIn cursor'.kind)
      fun _ => True

/-- The parsers of a grammar move on in a text and yield trees of the
levels that they stand for. -/
structure Levels (cs : List Char) (g : Grammar) : Prop where
  assignment (noIn : Bool) : Reads cs (g.assignment noIn) (Tree.Levelled 2)
  operand {above : Nat} (habove : above ≤ 10) (noIn : Bool) :
    ReadsOperand cs above noIn (g.operand above noIn)
  unary : Reads cs g.unary (Tree.Levelled 14)
  callee : Reads cs g.callee fun tree =>
    tree.Levelled 15 ∧ ¬ tree.CallsOnSpine
  statement (s : Surroundings) : Reads cs (g.statement s) (Tree.Levelled 0)

variable {cs : List Char} {g : Grammar}

-- ========================================================= expressions

/-- A name needs no operand. -/
theorem name_levelled (orKeyword : Bool) :
    Reads cs (name orKeyword) (Tree.Levelled 16) := by
  refine (look_moves _).bind fun token =>
    .ite (advance_moves.bind fun _ => ?_) reads_fail
  exact reads_node (Nat.le_refl _) trivial (by simp [Form.slots])

/-- A literal needs no operand. -/
theorem literal_levelled : Reads cs literal (Tree.Levelled 16) := by
  refine (look_moves _).bind fun token =>
    .ite reads_fail (advance_moves.bind fun _ => ?_)
  split <;> exact reads_node (Nat.le_refl _) trivial (by simp [Form.slots])

/-- A token that is a node by itself has no parts whose levels could be
wrong. -/
theorem atom_levelled {form : Form (Option Tree)} {n : Nat}
    (hlevel : n ≤ form.level) (hform : form.KeepsLevels)
    (hslots : form.slots = []) : Reads cs (atom form) (Tree.Levelled n) := by
  refine here_moves.bind fun start => advance_moves.bind fun _ => ?_
  exact reads_node hlevel hform (by simp [hslots])

/-- Commas make an expression of the lowest level. -/
theorem expression_levelled (hg : g.Levels cs) (noIn : Bool) :
    Reads cs (g.expression noIn) (Tree.Levelled 1) := by
  refine here_moves.bind fun start => ?_
  refine (hg.assignment noIn).bind fun first hfirst => ?_
  refine .iterate (fun left hleft => ?_) (hfirst.mono (by decide))
  refine (accept_moves _).bind fun isComma => .ite ?_ (reads_pure hleft)
  refine (hg.assignment noIn).bind fun right hright => ?_
  refine Reads.bind (Q := Tree.Levelled 1) ?_ fun both hboth =>
    reads_pure hboth
  refine reads_node (Nat.le_refl _) ⟨.inl rfl, hleft.1, hright.1⟩ ?_
  simpa [Form.slots] using ⟨hleft.loosen, hright.loosen⟩

/-- The arguments of a call, none of which has a comma outermost. -/
theorem arguments_levelled (hg : g.Levels cs) :
    Reads cs g.arguments fun slots =>
      ∀ slot ∈ slots, 2 ≤ slotLevel slot ∧ SlotLevelled 0 slot := by
  refine (expect_moves _).bind fun _ => (isAt_moves _).bind fun isClosed => ?_
  refine .choice (Q := fun items => ∀ item ∈ items, item.Levelled 2)
    (reads_pure (by simp)) (.separated (hg.assignment false))
    fun items hitems => (expect_moves _).bind fun _ => reads_pure ?_
  refine List.forall_mem_map.2 fun item hitem => ?_
  exact ⟨(hitems item hitem).1, (hitems item hitem).slot⟩

-- ============================================================ functions

/-- Statements are no operands. -/
theorem statements_levelled (hg : g.Levels cs) (s : Surroundings) :
    Reads cs (g.statements s) fun slots =>
      ∀ slot ∈ slots, SlotLevelled 0 slot := by
  refine .many ((look_moves _).bind fun kind => ?_)
  split
  case h_5 =>
      refine (hg.statement s).bind fun statement hstatement => reads_pure ?_
      simpa using hstatement
  all_goals exact reads_pure (by simp)

/-- Blocks are no operands. -/
theorem block_levelled (hg : g.Levels cs) (s : Surroundings) :
    Reads cs (g.block s) (Tree.Levelled 0) := by
  refine here_moves.bind fun start => (expect_moves _).bind fun _ => ?_
  refine (statements_levelled hg s).bind fun statements hstatements => ?_
  refine (expect_moves _).bind fun _ => ?_
  exact reads_node (Nat.zero_le _) trivial hstatements

/-- A name that may be left out. -/
theorem nameSlot_levelled :
    Reads cs (some <$> name false) (SlotLevelled 0) :=
  (name_levelled false).map fun _ hname => hname.slot

/-- A function is an expression unless it is declared. -/
theorem function_levelled (hg : g.Levels cs) (isDeclaration : Bool) :
    Reads cs (g.function isDeclaration)
      (Tree.Levelled (if isDeclaration then 0 else 16)) := by
  refine here_moves.bind fun start => (expect_moves _).bind fun _ => ?_
  refine (isAt_moves _).bind fun isNamed =>
    .ite (nameSlot_levelled.bind ?rest)
      (.choice nameSlot_levelled (reads_pure slotLevelled_none) ?rest)
  intro name hname
  refine (expect_moves _).bind fun _ => (isAt_moves _).bind fun isClosed => ?_
  refine .choice (Q := fun items => ∀ item ∈ items, item.Levelled 16)
    (reads_pure (by simp)) (.separated (name_levelled false))
    fun parameters hparameters => (expect_moves _).bind fun _ => ?_
  refine (block_levelled hg _).bind fun body hbody =>
    reads_node (Nat.le_refl _) trivial ?_
  simp only [Form.slots, List.cons_append, List.forall_mem_cons,
    List.forall_mem_append, List.forall_mem_map]
  refine ⟨hname, fun parameter hparameter => ?_, slotLevelled_some.2 hbody,
    by simp⟩
  exact (hparameters parameter hparameter).slot

-- ============================================================= literals

/-- An array needs no operand, and its elements are assignments. -/
theorem array_levelled (hg : g.Levels cs) :
    Reads cs g.array (Tree.Levelled 16) := by
  refine here_moves.bind fun start => (expect_moves _).bind fun _ => ?_
  refine Reads.bind
    (.iterate (I := fun r => ∀ slot ∈ r.1, SlotLevelled 2 slot) ?_ (by simp))
    fun elements helements => (expect_moves _).bind fun _ => ?_
  · intro state hdone
    obtain ⟨done, more⟩ := state
    refine (isAt_moves _).bind fun isClosed => .ite (reads_pure hdone) ?_
    refine (accept_moves _).bind fun isHole => .ite (reads_pure ?_) ?_
    · exact List.forall_mem_cons.2 ⟨slotLevelled_none, hdone⟩
    · refine (hg.assignment false).bind fun element helement => ?_
      refine (accept_moves _).bind fun isMore => reads_pure ?_
      exact List.forall_mem_cons.2 ⟨slotLevelled_some.2 helement, hdone⟩
  · have hall : ∀ slot ∈ elements.1.reverse, SlotLevelled 2 slot :=
      fun slot hslot => helements slot (List.mem_reverse.1 hslot)
    refine reads_node (Nat.le_refl _) (fun element helement => ?_) ?_
    · obtain ⟨slot, hslot, rfl⟩ := List.mem_filterMap.1 helement
      exact (hall _ hslot element rfl).1
    · exact fun slot hslot => (hall slot hslot).mono (Nat.zero_le _)

/-- A value is an assignment. -/
theorem property_levelled (hg : g.Levels cs) :
    Reads cs g.property (Tree.Levelled 0) := by
  refine (look_moves _).bind fun token => ?_
  have hvalue : ∀ (key : Tree) (named : Bool), key.Levelled 16 →
      Reads cs (do
        if named && !(← isAt Punctuator.colon) then
          failAt token.start .accessorProperty
        else
          expect Punctuator.colon
          let value ← g.assignment false
          finish token.start
            (.property (some (key.withDoc token.doc)) (some value)))
        (Tree.Levelled 0) := by
    intro key named hkey
    refine (isAt_moves _).bind fun isColon =>
      .ite reads_failAt ((expect_moves _).bind fun _ => ?_)
    refine (hg.assignment false).bind fun value hvalue => ?_
    refine reads_node (Nat.zero_le _) hvalue.1 ?_
    simpa [Form.slots] using ⟨(hkey.withDoc token.doc).loosen,
      hvalue.loosen⟩
  split
  · exact literal_levelled.bind fun key => hvalue key _
  · exact literal_levelled.bind fun key => hvalue key _
  · exact (name_levelled true).bind fun key => hvalue key _

/-- An object needs no operand. -/
theorem object_levelled (hg : g.Levels cs) :
    Reads cs g.object (Tree.Levelled 16) := by
  refine here_moves.bind fun start => (expect_moves _).bind fun _ => ?_
  refine Reads.bind
    (.iterate (I := fun r => ∀ slot ∈ r.1, SlotLevelled 0 slot) ?_ (by simp))
    fun properties hproperties => (expect_moves _).bind fun _ =>
      reads_node (Nat.le_refl _) trivial ?_
  · intro state hdone
    obtain ⟨done, more⟩ := state
    refine (isAt_moves _).bind fun isClosed => .ite (reads_pure hdone) ?_
    refine (property_levelled hg).bind fun property hproperty => ?_
    refine (accept_moves _).bind fun isMore => reads_pure ?_
    exact List.forall_mem_cons.2 ⟨slotLevelled_some.2 hproperty, hdone⟩
  · exact fun slot hslot => hproperties slot (List.mem_reverse.1 hslot)

/-- Nothing that is read by its first token needs an operand. -/
theorem primary_levelled (hg : g.Levels cs) :
    Reads cs g.primary (Tree.Levelled 16) := by
  refine (look_moves _).bind fun token => ?_
  split
  case h_1 => exact name_levelled false
  case h_2 => exact atom_levelled (Nat.le_refl _) trivial rfl
  case h_3 => exact atom_levelled (Nat.le_refl _) trivial rfl
  case h_4 => exact atom_levelled (Nat.le_refl _) trivial rfl
  case h_5 => exact atom_levelled (Nat.le_refl _) trivial rfl
  case h_6 => exact literal_levelled
  case h_7 => exact literal_levelled
  case h_8 => exact enterRegex_moves.bind fun _ => literal_levelled
  case h_9 => exact enterRegex_moves.bind fun _ => literal_levelled
  case h_10 =>
      refine advance_moves.bind fun _ => (expression_levelled hg false).bind
        fun inner hinner => (expect_moves _).bind fun _ => ?_
      refine reads_node (Nat.le_refl _) hinner.1 ?_
      exact List.forall_mem_singleton.2 hinner.slot
  case h_11 => exact array_levelled hg
  case h_12 => exact object_levelled hg
  case h_13 =>
      exact (function_levelled hg false).bind fun function hfunction =>
        reads_pure (hfunction.withDoc token.doc)
  case h_14 => exact reads_fail

-- ============================================================ operators

/-- Left-hand sides; without `calls` there is no call on the spine. -/
def IsLeftHand (calls : Bool) (tree : Tree) : Prop :=
  tree.Levelled 15 ∧ (calls = false → ¬ tree.CallsOnSpine)

/-- What needs no operand may be a callee. -/
theorem isLeftHand_of_primary {calls : Bool} {tree : Tree}
    (h : tree.Levelled 16) : IsLeftHand calls tree :=
  ⟨h.mono (by decide), fun _ => Tree.not_callsOnSpine_of_level h.1⟩

/-- A node that is put around an operand is of the level of members, and has
calls only where they are read. -/
theorem reads_leftHand {calls : Bool} {start : Nat}
    {form : Form (Option Tree)} (hlevel : 15 ≤ form.level)
    (hform : form.KeepsLevels)
    (hslots : ∀ slot ∈ form.slots, SlotLevelled 0 slot)
    (hspine : calls = false →
      (∀ callee arguments, form ≠ .call callee arguments)
        ∧ ∀ base ∈ form.base, ¬ base.CallsOnSpine) :
    Reads cs (finish start form) (IsLeftHand calls) := by
  refine reads_finish fun stop => ⟨?_, fun hcalls => ?_⟩
  · refine Tree.levelled_node hlevel hform fun child hchild => ?_
    exact hslots _ (Form.mem_children.1 hchild) child rfl
  · exact Tree.not_callsOnSpine rfl (hspine hcalls).1 (hspine hcalls).2

/-- What is put behind an operand keeps it on the level of members. -/
theorem extend_levelled (hg : g.Levels cs) (calls : Bool) (start : Nat)
    {owner : Tree} (howner : IsLeftHand calls owner) :
    Reads cs (g.extend calls start owner) fun r =>
      ∀ tree ∈ r, IsLeftHand calls tree := by
  have hspine : calls = false → ∀ base ∈ some owner, ¬ base.CallsOnSpine :=
    fun hcalls base hbase => Option.some.inj hbase ▸ howner.2 hcalls
  refine (look_moves _).bind fun kind => ?_
  split
  · refine advance_moves.bind fun _ => (name_levelled true).bind
      fun name hname => .map (Q := IsLeftHand calls) ?_ (by simp)
    refine reads_leftHand (Nat.le_refl _) howner.1.1 ?_
      fun hcalls => ⟨nofun, hspine hcalls⟩
    simpa [Form.slots] using ⟨howner.1.loosen, hname.loosen⟩
  · refine advance_moves.bind fun _ => (expression_levelled hg false).bind
      fun index hindex => (expect_moves _).bind fun _ =>
        .map (Q := IsLeftHand calls) ?_ (by simp)
    refine reads_leftHand (Nat.le_refl _) ⟨howner.1.1, hindex.1⟩ ?_
      fun hcalls => ⟨nofun, hspine hcalls⟩
    simpa [Form.slots] using ⟨howner.1.loosen, hindex.loosen⟩
  · cases calls with
    | false => exact reads_pure nofun
    | true =>
        refine (arguments_levelled hg).bind fun arguments harguments => ?_
        refine .map (Q := IsLeftHand true) ?_ (by simp)
        refine reads_leftHand (Nat.le_refl _)
          ⟨howner.1.1, fun slot hslot => (harguments slot hslot).1⟩
          ?_ nofun
        exact List.forall_mem_cons.2 ⟨howner.1.slot,
          fun slot hslot => (harguments slot hslot).2⟩
  · exact reads_pure nofun

/-- A construction begins with a callee that was read without calls. -/
theorem head_levelled (hg : g.Levels cs) (calls : Bool) :
    Reads cs g.head (IsLeftHand calls) := by
  refine here_moves.bind fun start => (accept_moves _).bind fun isNew => ?_
  refine .ite (hg.callee.bind fun callee hcallee => ?_)
    ((primary_levelled hg).mono fun _ => isLeftHand_of_primary)
  refine (isAt_moves _).bind fun isCall => ?_
  refine .choice (arguments_levelled hg) (reads_pure (by simp))
    fun arguments harguments => ?_
  have hspine : ∀ tree ∈ some callee, ¬ tree.CallsOnSpine := by
    simpa using hcallee.2
  refine reads_leftHand (Nat.le_refl _) ⟨hcallee.1.1, hspine,
    fun slot hslot => (harguments slot hslot).1⟩ ?_
    fun _ => ⟨nofun, hspine⟩
  exact List.forall_mem_cons.2 ⟨hcallee.1.slot, fun slot hslot =>
    (harguments slot hslot).2⟩

/-- However much is put behind it, a callee stays one. -/
theorem leftHand_levelled (hg : g.Levels cs) (calls : Bool) :
    Reads cs (g.leftHand calls) (IsLeftHand calls) := by
  refine here_moves.bind fun start => ?_
  refine (head_levelled hg calls).bind fun head hhead => ?_
  refine .iterate (fun owner howner => ?_) hhead
  refine (extend_levelled hg calls start howner).mono fun r hr => ?_
  cases r with
  | none => exact howner
  | some extended => exact hr extended rfl

/-- Operators in front are of the same level as what they stand in front of. -/
theorem unaryExpression_levelled (hg : g.Levels cs) :
    Reads cs g.unaryExpression (Tree.Levelled 14) := by
  refine (look_moves _).bind fun token =>
    .ite (advance_moves.bind fun _ => ?_) ?_
  · refine hg.unary.bind fun operand hoperand =>
      reads_node (Nat.le_refl _) hoperand.1 ?_
    exact List.forall_mem_singleton.2 hoperand.slot
  · refine (leftHand_levelled hg true).bind fun operand hoperand => ?_
    refine (look_moves _).bind fun next =>
      .ite (advance_moves.bind fun _ => ?_)
        (reads_pure (hoperand.1.mono (by decide)))
    exact reads_node (Nat.le_refl _) hoperand.1.1
      (List.forall_mem_singleton.2 hoperand.1.slot)

/-- In the loop for precedence `above`: the operand read so far binds at
least as tightly as the operator that it may go on with. -/
def InOperand (cs : List Char) (above : Nat) (noIn : Bool) (cursor : Cursor)
    (left : Tree) (cursor' : Cursor) : Prop :=
  left.Levelled (4 + above) ∧ cursor.Onward cs cursor'
    ∧ (3 + cursor'.kind.precedence ≤ left.level
      ∨ noIn = true ∧ cursor'.kind = Keyword.inWord)

/-- Two operands make one for the precedence of their operator. -/
theorem levelled_binary {left right : Tree} {operator : TokenKind}
    {n : Nat} (start stop : Nat) (hpos : 0 < operator.precedence)
    (hleft : left.Levelled n) (hll : 3 + operator.precedence ≤ left.level)
    (hright : right.Levelled (4 + operator.precedence)) :
    Tree.Levelled (3 + operator.precedence)
      (.node start stop none (.binary (some left) operator (some right))) := by
  have hlevel := TokenKind.level_of_precedence_pos hpos
  have hform : Form.KeepsLevels
      (.binary (some left) operator (some right)) := by
    refine ⟨.inr hpos, ?_, ?_⟩
    · change operator.level ≤ left.level
      omega
    · have hle := hright.1
      change operator.level < right.level
      omega
  refine Tree.levelled_node (Nat.le_of_eq hlevel.symm) hform ?_
  simpa [Form.children, Form.slots] using ⟨hleft.loosen, hright.loosen⟩

/-- The loop over operators, where both facts go round. -/
theorem binaryExpression_levelled (hg : g.Levels cs) {above : Nat}
    (habove : above ≤ 10) (noIn : Bool) :
    ReadsOperand cs above noIn (g.binaryExpression above noIn) := by
  intro cursor hcursor
  refine meets_bind.2 (meets_here.2 ?_)
  refine (unaryExpression_levelled hg cursor hcursor).bind
    fun first middle hfirst => ?_
  refine Meets.iterate_until (I := InOperand cs above noIn cursor) ?_ ?_
  · intro left now hnow
    obtain ⟨hleft, honward, hnext⟩ := hnow
    rw [meets_bind, meets_look]
    split
    · rename_i hstop
      refine meets_pure.2 ⟨hleft, honward, ?_⟩
      simpa [LeavesAlone] using hstop
    · rename_i hmore
      simp only [Bool.or_eq_true, decide_eq_true_eq, Bool.and_eq_true,
        beq_iff_eq, not_or, Nat.not_le] at hmore
      obtain ⟨htighter, hnotIn⟩ := hmore
      -- an operator has a precedence, which the end has not; so something is
      -- consumed
      have hend : now.kind ≠ .endOfText := by
        intro hkind
        rw [hkind] at htighter
        exact absurd htighter (Nat.not_lt_zero _)
      have hadvance := honward.1.next
      rw [meets_bind, meets_advance]
      refine (hg.operand now.kind.precedence_le noIn now.next
        hadvance.1).bind fun right last hright => ?_
      obtain ⟨hright, hlast, halone⟩ := hright
      refine meets_bind.2 (meets_finish.2 (meets_pure.2 ⟨?_, ?_⟩))
      · exact Nat.lt_of_le_of_lt hlast.2 (honward.1.remaining_next hend)
      -- the new operator binds no more tightly than the one it is put around,
      -- and more tightly than `above`
      · have hboth := levelled_binary cursor.token.start
          (max last.lastStop cursor.token.start)
          (Nat.zero_lt_of_lt htighter) hleft (hnext.resolve_right hnotIn)
          hright
        refine ⟨hboth.mono (by omega), honward.trans (hadvance.trans hlast),
          halone.imp_left fun hle => ?_⟩
        exact Nat.le_trans (Nat.add_le_add_left hle 3) hboth.1
  · have hle := middle.kind.precedence_le
    have hunary := hfirst.1.1
    exact ⟨hfirst.1.mono (by omega), hfirst.2, .inl (by omega)⟩

/-- What follows an operand does not matter behind the last one. -/
theorem ReadsOperand.reads {above : Nat} {noIn : Bool} {p : Parse Tree}
    (h : ReadsOperand cs above noIn p) :
    Reads cs p (Tree.Levelled (4 + above)) :=
  fun cursor hcursor => (h cursor hcursor).mono
    (fun _ _ ht => ⟨ht.1, ht.2.1⟩) fun _ => id

/-- Only the condition is called for at a level above that of the whole. -/
theorem conditional_levelled (hg : g.Levels cs) (noIn : Bool) :
    Reads cs (g.conditional noIn) (Tree.Levelled 3) := by
  refine here_moves.bind fun start => ?_
  refine (binaryExpression_levelled hg (Nat.zero_le _) noIn).reads.bind
    fun condition hcondition => ?_
  refine (accept_moves _).bind fun isCondition =>
    .ite ?_ (reads_pure (hcondition.mono (by decide)))
  refine (hg.assignment false).bind fun whenTrue htrue => ?_
  refine (expect_moves _).bind fun _ => ?_
  refine (hg.assignment noIn).bind fun whenFalse hfalse => ?_
  refine reads_node (Nat.le_refl _)
    ⟨hcondition.1, htrue.1, hfalse.1⟩ ?_
  simpa [Form.slots] using ⟨hcondition.loosen,
    htrue.loosen, hfalse.loosen⟩

/-- A target has been tested, which shows its level. -/
theorem assignmentExpression_levelled (hg : g.Levels cs) (noIn : Bool) :
    Reads cs (g.assignmentExpression noIn) (Tree.Levelled 2) := by
  refine here_moves.bind fun start => ?_
  refine (conditional_levelled hg noIn).bind fun left hleft => ?_
  refine (look_moves _).bind fun operator => ?_
  split
  · rename_i hoperator
    split
    · rename_i htarget
      refine advance_moves.bind fun _ => ?_
      refine (hg.assignment noIn).bind fun right hright => ?_
      refine reads_node (Nat.le_refl _) ⟨hoperator,
        ⟨left, rfl, Tree.assignable_of_isTarget htarget⟩, hright.1⟩ ?_
      simpa [Form.slots] using ⟨hleft.loosen, hright.loosen⟩
    · exact reads_fail
  · exact reads_pure (hleft.mono (by decide))

-- ======================================================== declarations

/-- A variable is no operand. -/
theorem declaration_levelled (hg : g.Levels cs) (noIn : Bool) :
    Reads cs (g.declaration noIn) (Tree.Levelled 0) := by
  refine here_moves.bind fun start => (name_levelled false).bind
    fun name hname => (accept_moves _).bind fun isInitialized => ?_
  refine .choice ((hg.assignment noIn).map fun _ h =>
      h.slot)
    (reads_pure slotLevelled_none) fun initializer hinitializer => ?_
  refine reads_node (Nat.zero_le _) trivial (List.forall_mem_cons.2
    ⟨hname.slot, ?_⟩)
  exact List.forall_mem_singleton.2 hinitializer

/-- A list of variables is no operand. -/
theorem declarations_levelled (hg : g.Levels cs) (noIn : Bool) :
    Reads cs (g.declarations noIn) (Tree.Levelled 0) := by
  refine here_moves.bind fun start => (expect_moves _).bind fun _ => ?_
  refine Reads.bind (.separated (declaration_levelled hg noIn))
    fun items hitems => reads_node (Nat.zero_le _) trivial ?_
  exact List.forall_mem_map.2 fun item hitem =>
    slotLevelled_some.2 (hitems item hitem)

-- ========================================================== conditions

/-- An expression where its level does not matter. -/
theorem value_levelled (hg : g.Levels cs) (noIn : Bool) :
    Reads cs (g.expression noIn) (Tree.Levelled 0) :=
  (expression_levelled hg noIn).mono fun _ h => h.loosen

/-- A slot filled by an expression. -/
theorem valueSlot_levelled (hg : g.Levels cs) (noIn : Bool) :
    Reads cs (some <$> g.expression noIn) (SlotLevelled 0) :=
  (value_levelled hg noIn).map fun _ => slotLevelled_some.2

/-- A slot filled by a nested statement. -/
theorem statementSlot_levelled (hg : g.Levels cs) (s : Surroundings) :
    Reads cs (some <$> g.statement s) (SlotLevelled 0) :=
  (hg.statement s).map fun _ => slotLevelled_some.2

/-- In parentheses anything may stand. -/
theorem condition_levelled (hg : g.Levels cs) :
    Reads cs g.condition (Tree.Levelled 0) := by
  refine (expect_moves _).bind fun _ => (value_levelled hg false).bind
    fun condition hcondition => ?_
  exact (expect_moves _).bind fun _ => reads_pure hcondition

/-- Where something may be missing, any level will do. -/
theorem optionalExpression_levelled (hg : g.Levels cs) (stop : Punctuator) :
    Reads cs (g.optionalExpression stop) (SlotLevelled 0) :=
  (isAt_moves _).bind fun _ =>
    .ite (reads_pure slotLevelled_none) (valueSlot_levelled hg false)

/-- From here on, statements: their parts are expressions of any level. -/
theorem branch_levelled (hg : g.Levels cs) (s : Surroundings) :
    Reads cs (g.branch s) (Tree.Levelled 0) := by
  refine here_moves.bind fun start => (expect_moves _).bind fun _ => ?_
  refine (condition_levelled hg).bind fun condition hcondition => ?_
  refine (hg.statement s).bind fun consequent hconsequent => ?_
  refine (accept_moves _).bind fun isElse => .choice
    (statementSlot_levelled hg s) (reads_pure slotLevelled_none)
    fun alternative halternative => ?_
  refine reads_node (Nat.zero_le _) trivial ?_
  simp only [Form.slots, List.forall_mem_cons, slotLevelled_some]
  exact ⟨hcondition, hconsequent, halternative, by simp⟩

-- =============================================================== loops

/-- The target has been read before, and is handed on as it is. -/
theorem forInTail_levelled (hg : g.Levels cs) (s : Surroundings)
    (start : Nat) {target : Tree} (htarget : target.Levelled 0) :
    Reads cs (g.forInTail s start target) (Tree.Levelled 0) := by
  refine .ite reads_fail ?_
  refine (value_levelled hg false).bind fun subject hsubject => ?_
  refine (expect_moves _).bind fun _ => (hg.statement _).bind
    fun body hbody => reads_node (Nat.zero_le _) trivial ?_
  simp only [Form.slots, List.forall_mem_cons, slotLevelled_some]
  exact ⟨htarget, hsubject, hbody, by simp⟩

/-- The first part of a head with semicolons has been read before, and is
handed on as it is. -/
theorem forTail_levelled (hg : g.Levels cs) (s : Surroundings) (start : Nat)
    {initializer : Option Tree} (hinitializer : SlotLevelled 0 initializer) :
    Reads cs (g.forTail s start initializer) (Tree.Levelled 0) := by
  refine (expect_moves _).bind fun _ =>
    (optionalExpression_levelled hg _).bind fun condition hcondition => ?_
  refine (expect_moves _).bind fun _ =>
    (optionalExpression_levelled hg _).bind fun step hstep => ?_
  refine (expect_moves _).bind fun _ => (hg.statement _).bind
    fun body hbody => reads_node (Nat.zero_le _) trivial ?_
  simp only [Form.slots, List.forall_mem_cons, slotLevelled_some]
  exact ⟨hinitializer, hcondition, hstep, hbody, by simp⟩

/-- Which loop it is shows only behind the first part. -/
theorem forLoop_levelled (hg : g.Levels cs) (s : Surroundings) :
    Reads cs (g.forLoop s) (Tree.Levelled 0) := by
  refine here_moves.bind fun start => (expect_moves _).bind fun _ => ?_
  refine (expect_moves _).bind fun _ => (look_moves _).bind fun kind => ?_
  split
  · exact forTail_levelled hg s start slotLevelled_none
  · refine .choice (declarations_levelled hg true) (value_levelled hg true)
      fun first hfirst => (accept_moves _).bind fun isIn => ?_
    exact .ite (forInTail_levelled hg s start hfirst)
      (forTail_levelled hg s start (slotLevelled_some.2 hfirst))

/-- A condition and a statement. -/
theorem whileLoop_levelled (hg : g.Levels cs) (s : Surroundings) :
    Reads cs (g.whileLoop s) (Tree.Levelled 0) := by
  refine here_moves.bind fun start => (expect_moves _).bind fun _ => ?_
  refine (condition_levelled hg).bind fun condition hcondition => ?_
  refine (hg.statement _).bind fun body hbody =>
    reads_node (Nat.zero_le _) trivial ?_
  simp only [Form.slots, List.forall_mem_cons, slotLevelled_some]
  exact ⟨hcondition, hbody, by simp⟩

/-- A statement and a condition. -/
theorem doWhile_levelled (hg : g.Levels cs) (s : Surroundings) :
    Reads cs (g.doWhile s) (Tree.Levelled 0) := by
  refine here_moves.bind fun start => (expect_moves _).bind fun _ => ?_
  refine (hg.statement _).bind fun body hbody => ?_
  refine (expect_moves _).bind fun _ => (condition_levelled hg).bind
    fun condition hcondition => (accept_moves _).bind fun _ => ?_
  refine reads_node (Nat.zero_le _) trivial ?_
  simp only [Form.slots, List.forall_mem_cons, slotLevelled_some]
  exact ⟨hbody, hcondition, by simp⟩

-- =============================================================== jumps

/-- A label is a name. -/
theorem jump_levelled (s : Surroundings) :
    Reads cs (jump s) (Tree.Levelled 0) := by
  refine here_moves.bind fun start => (isAt_moves _).bind fun isBreak => ?_
  refine advance_moves.bind fun _ => (look_moves _).bind fun token => ?_
  refine .choice nameSlot_levelled (reads_pure slotLevelled_none)
    fun label hlabel => .ite reads_failAt (.ite reads_failAt ?_)
  have hslot := List.forall_mem_singleton.2 hlabel
  refine endStatement_moves.bind fun _ => ?_
  cases isBreak <;> exact reads_node (Nat.zero_le _) trivial hslot

/-- A value may be any expression. -/
theorem returning_levelled (hg : g.Levels cs) (s : Surroundings) :
    Reads cs (g.returning s) (Tree.Levelled 0) := by
  refine .ite reads_fail (here_moves.bind fun start => ?_)
  refine (expect_moves _).bind fun _ => (look_moves _).bind fun mayEnd => ?_
  refine .choice (reads_pure slotLevelled_none) (valueSlot_levelled hg false)
    fun value hvalue => endStatement_moves.bind fun _ => ?_
  exact reads_node (Nat.zero_le _) trivial
    (List.forall_mem_singleton.2 hvalue)

/-- An exception may be any expression. -/
theorem throwing_levelled (hg : g.Levels cs) :
    Reads cs g.throwing (Tree.Levelled 0) := by
  refine here_moves.bind fun start => (expect_moves _).bind fun _ => ?_
  refine (look_moves _).bind fun isBroken => .ite reads_fail ?_
  refine (value_levelled hg false).bind fun value hvalue =>
    endStatement_moves.bind fun _ => reads_node (Nat.zero_le _) trivial ?_
  exact List.forall_mem_singleton.2 (slotLevelled_some.2 hvalue)

/-- The name and the block of a handler, where there is one. -/
def HandlerLevelled (handler : Option (Tree × Tree)) : Prop :=
  SlotLevelled 0 (handler.map (·.1)) ∧ SlotLevelled 0 (handler.map (·.2))

/-- Blocks and a name. -/
theorem trying_levelled (hg : g.Levels cs) (s : Surroundings) :
    Reads cs (g.trying s) (Tree.Levelled 0) := by
  refine here_moves.bind fun start => (expect_moves _).bind fun _ => ?_
  refine (block_levelled hg s).bind fun body hbody => ?_
  have hslot : Reads cs (some <$> g.block s) (SlotLevelled 0) :=
    (block_levelled hg s).map fun _ => slotLevelled_some.2
  refine (accept_moves _).bind fun isCaught => .ite
    ((expect_moves _).bind fun _ => (name_levelled false).bind
      fun caught hcaught => (expect_moves _).bind fun _ =>
        Reads.bind (Q := HandlerLevelled) ?_ ?rest)
    (Reads.bind (Q := HandlerLevelled) (reads_pure ?_) ?rest)
  · have hboth : Reads cs ((caught, ·) <$> g.block s)
        fun h => h.1.Levelled 0 ∧ h.2.Levelled 0 :=
      (block_levelled hg s).map fun _ hhandler =>
        ⟨hcaught.loosen, hhandler⟩
    exact hboth.map fun h hh =>
      ⟨slotLevelled_some.2 hh.1, slotLevelled_some.2 hh.2⟩
  · exact ⟨slotLevelled_none, slotLevelled_none⟩
  · intro handler hread
    obtain ⟨hcaught, hhandler⟩ := hread
    refine (accept_moves _).bind fun isCleaned => .choice hslot
      (reads_pure slotLevelled_none) fun cleanup hcleanup =>
        .ite reads_fail (reads_node (Nat.zero_le _) trivial ?_)
    simp only [Form.slots, List.forall_mem_cons, slotLevelled_some]
    exact ⟨hbody, hcaught, hhandler, hcleanup, by simp⟩

-- ============================================================== switch

/-- A test may be any expression. -/
theorem clauseTest_levelled (hg : g.Levels cs) (hasDefault : Bool) :
    Reads cs (g.clauseTest hasDefault) (SlotLevelled 0) := by
  refine (look_moves _).bind fun kind => ?_
  split
  · exact advance_moves.bind fun _ => valueSlot_levelled hg false
  · exact .ite reads_fail
      (advance_moves.bind fun _ => reads_pure slotLevelled_none)
  · exact reads_fail

/-- A clause is its test and its statements. -/
theorem clause_levelled (hg : g.Levels cs) (s : Surroundings)
    (hasDefault : Bool) :
    Reads cs (g.clause s hasDefault) fun r => r.1.Levelled 0 := by
  refine here_moves.bind fun start => (clauseTest_levelled hg hasDefault).bind
    fun test htest => (expect_moves _).bind fun _ => ?_
  refine (statements_levelled hg _).bind fun statements hstatements => ?_
  refine Reads.bind (Q := Tree.Levelled 0)
    (reads_node (Nat.zero_le _) trivial ?_)
    fun clause hclause => reads_pure hclause
  exact List.forall_mem_cons.2 ⟨htest, hstatements⟩

/-- The clauses come one after the other. -/
theorem switch_levelled (hg : g.Levels cs) (s : Surroundings) :
    Reads cs (g.switch s) (Tree.Levelled 0) := by
  refine here_moves.bind fun start => (expect_moves _).bind fun _ => ?_
  refine (condition_levelled hg).bind fun subject hsubject => ?_
  refine (expect_moves _).bind fun _ => Reads.bind
    (.iterate (I := fun r => ∀ slot ∈ r.1, SlotLevelled 0 slot) ?_ (by simp))
    fun clauses hclauses => (expect_moves _).bind fun _ =>
      reads_node (Nat.zero_le _) trivial ?_
  · intro state hdone
    obtain ⟨done, hasDefault⟩ := state
    refine (isAt_moves _).bind fun isClosed => .ite (reads_pure hdone) ?_
    refine (clause_levelled hg s hasDefault).bind fun clause hclause =>
      reads_pure ?_
    exact List.forall_mem_cons.2 ⟨slotLevelled_some.2 hclause, hdone⟩
  · refine List.forall_mem_cons.2
      ⟨slotLevelled_some.2 hsubject, fun slot hslot => ?_⟩
    exact hclauses slot (List.mem_reverse.1 hslot)

-- ========================================================== statements

/-- The expression may be of any level. -/
theorem expressionStatement_levelled (hg : g.Levels cs)
    (s : Surroundings) :
    Reads cs (g.expressionStatement s) (Tree.Levelled 0) := by
  refine (look_moves _).bind fun token => ?_
  refine (value_levelled hg false).bind fun value hvalue => ?_
  refine (isAt_moves _).bind fun isColon =>
    .ite (advance_moves.bind fun _ => ?_) (endStatement_moves.bind fun _ => ?_)
  · refine (hg.statement s).bind fun statement hstatement =>
      reads_node (Nat.zero_le _) trivial ?_
    simp only [Form.slots, List.forall_mem_cons, slotLevelled_some]
    exact ⟨hvalue, hstatement, by simp⟩
  · refine reads_node (Nat.zero_le _) trivial
      (List.forall_mem_singleton.2 ?_)
    exact slotLevelled_some.2 (hvalue.withDoc token.doc)

/-- Whatever the statement, its parts are of their levels. -/
theorem statementHere_levelled (hg : g.Levels cs) (s : Surroundings) :
    Reads cs (g.statementHere s) (Tree.Levelled 0) := by
  refine (look_moves _).bind fun token => ?_
  split
  case h_1 => exact block_levelled hg s
  case h_2 => exact atom_levelled (Nat.zero_le _) trivial rfl
  case h_3 =>
      refine advance_moves.bind fun _ => endStatement_moves.bind fun _ => ?_
      exact reads_node (Nat.zero_le _) trivial (by simp [Form.slots])
  case h_4 =>
      refine (declarations_levelled hg false).bind
        fun statement hstatement => endStatement_moves.bind fun _ => ?_
      exact reads_pure (hstatement.withDoc token.doc)
  case h_5 =>
      exact (function_levelled hg true).bind fun function hfunction =>
        reads_pure (hfunction.withDoc token.doc)
  case h_6 => exact branch_levelled hg s
  case h_7 => exact forLoop_levelled hg s
  case h_8 => exact whileLoop_levelled hg s
  case h_9 => exact doWhile_levelled hg s
  case h_10 => exact jump_levelled s
  case h_11 => exact jump_levelled s
  case h_12 => exact returning_levelled hg s
  case h_13 => exact throwing_levelled hg
  case h_14 => exact trying_levelled hg s
  case h_15 => exact switch_levelled hg s
  case h_16 => exact .ite reads_failAt (expressionStatement_levelled hg s)
  case h_17 => exact expressionStatement_levelled hg s

-- =============================================================== depth

/-- Where nothing is yielded, nothing is of a wrong level. -/
theorem levels_exhausted : exhausted.Levels cs where
  assignment _ := reads_fail
  operand _ _ := fun _ _ => meets_fail.2 trivial
  unary := reads_fail
  callee := reads_fail
  statement _ := reads_fail

/-- One nesting level further out, parts are of their levels if they are
further in. -/
theorem Levels.outer (hg : g.Levels cs) : g.outer.Levels cs where
  assignment := assignmentExpression_levelled hg
  operand := binaryExpression_levelled hg
  unary := unaryExpression_levelled hg
  callee := (leftHand_levelled hg false).mono fun _ h => ⟨h.1, h.2 rfl⟩
  statement := statementHere_levelled hg

/-- At all depths, the grammar keeps the levels of expressions. -/
theorem levels_keep (n : Nat) : (levels n).Levels cs := by
  induction n with
  | zero => exact levels_exhausted
  | succ n ih => exact ih.outer

-- ============================================================ programs

/-- A program is no operand. -/
theorem program_levelled (hg : g.Levels cs) :
    Reads cs g.program (Tree.Levelled 0) := by
  refine Reads.bind
    (.many (Q := SlotLevelled 0) ((isAt_moves _).bind fun isEnd => ?_))
    fun statements hstatements => (look_moves _).bind fun token => ?_
  · refine .ite (reads_pure (by simp)) ?_
    refine (hg.statement {}).bind fun statement hstatement => reads_pure ?_
    simpa using hstatement
  · split
    · exact reads_failAt
    · refine reads_pure (Tree.levelled_node (Nat.zero_le _) trivial ?_)
      exact fun child hchild =>
        hstatements _ (Form.mem_children.1 hchild) child rfl

end Grammar

/-- In a program, every operand is of the level that its place calls
for. -/
theorem Tree.keepsLevels_of_parse {text : String} {tree part : Tree}
    (h : Tree.parse text = .ok tree) (hpart : part.IsPartOf tree) :
    part.form.KeepsLevels := by
  obtain ⟨cursor, hrun⟩ := Tree.parse_eq_ok.1 h
  have hprogram : Reads text.toList
      (Grammar.levels Grammar.maxDepth).program (Tree.Levelled 0) :=
    Grammar.program_levelled (Grammar.levels_keep _)
  exact (hprogram.of_ok (Cursor.inText_first text) hrun).2 part hpart

/-- A sum with a product in it. -/
theorem Tree.keepsLevels_of_parse_sum : Tree.Parses "x * y + z" fun tree =>
    ∃ part : Tree, part.IsPartOf tree
      ∧ (part.form matches .binary _ (.punctuator .plus) _) = true
      ∧ part.form.KeepsLevels := by
  have hparses : Tree.Parses "x * y + z" fun tree =>
      ∃ part ∈ tree.form.children.flatMap fun child => child.form.children,
        (part.form matches .binary _ (.punctuator .plus) _) = true := by
    decide +kernel
  obtain ⟨tree, hparse, part, hmem, hform⟩ := hparses
  obtain ⟨statement, hstatement, hchild⟩ := List.mem_flatMap.1 hmem
  have hpart : part.IsPartOf tree :=
    .child hstatement (.child hchild (.self part))
  exact ⟨tree, hparse, part, hpart, hform,
    keepsLevels_of_parse hparse hpart⟩

end ScriptLint
