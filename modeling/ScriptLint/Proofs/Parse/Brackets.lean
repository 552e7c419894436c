/-
Parentheses nest no deeper than constructs may. An expression in
parentheses is read one nesting level further in than the parentheses are,
so a grammar with `n` levels yields no expression with more than `n` pairs
around it (`Grammar.bracketsBelow_levels`). That is far less than the steps
after which parentheses are no longer taken off in an arena
(`Arena.walkLimit`), so that limit cannot be noticed while parsing:
whether a node may be assigned to is what is said of its tree
(`Arena.isTarget_of_shows`).

The proofs are about expressions only. What the levels add is one pair of
parentheses each, in `primary_parensBelow`; operators and what is put
behind an operand make nodes that are no parentheses, whatever is inside
them.
-/
import ScriptLint.Parse.Building
import ScriptLint.Proofs.Syntax.Wrapping

namespace ScriptLint

open Parse

-- ================================================================ yields

/-- What is no expression in parentheses has none around it. -/
theorem yields_bare {start n : Nat} {form : Form (Option Tree)}
    (h : ∀ inner, form ≠ .paren inner) :
    Yields (finish start form) (Tree.ParensBelow (n + 1)) :=
  yields_finish fun _ => .bare h

/-- Documentation is no pair of parentheses. -/
theorem Tree.ParensBelow.withDoc {n : Nat} {tree : Tree}
    (h : tree.ParensBelow n) (doc : Option String) :
    (tree.withDoc doc).ParensBelow n := by
  obtain ⟨start, stop, own, form⟩ := tree
  cases h with
  | bare hbare => exact .bare hbare
  | paren hparen hbelow => exact .paren hparen hbelow

namespace Grammar

/-- The expressions that a grammar yields have fewer than so many pairs of
parentheses around them. Those without commas are all that has to be asked
for: a level puts nothing else into parentheses of its own. -/
def BracketsBelow (g : Grammar) (n : Nat) : Prop :=
  ∀ noIn, Yields (g.assignment noIn) (Tree.ParensBelow n)

variable {g : Grammar} {n : Nat}

/-- A name has none around it. -/
theorem name_parensBelow (orKeyword : Bool) :
    Yields (name orKeyword) (Tree.ParensBelow (n + 1)) :=
  .behind fun _ => .ite (.behind fun _ => yields_bare (by simp)) yields_fail

/-- A literal has no parentheses around it. -/
theorem literal_parensBelow : Yields literal (Tree.ParensBelow (n + 1)) := by
  refine .behind fun token => .ite yields_fail (.behind fun _ => ?_)
  split <;> exact yields_bare (by simp)

/-- A token that is a node by itself has none around it. -/
theorem atom_parensBelow {form : Form (Option Tree)}
    (h : ∀ inner, form ≠ .paren inner) :
    Yields (atom form) (Tree.ParensBelow (n + 1)) :=
  .behind fun _ => .behind fun _ => yields_bare h

/-- Commas make a node of their own. -/
theorem expression_parensBelow (hg : g.BracketsBelow (n + 1)) (noIn : Bool) :
    Yields (g.expression noIn) (Tree.ParensBelow (n + 1)) := by
  refine .behind fun start => (hg noIn).bind fun first hfirst => ?_
  refine .iterate (fun left hleft => ?_) hfirst
  refine .behind fun isComma => .ite (.behind fun right => ?_)
    (yields_pure hleft)
  refine Yields.bind (Q := Tree.ParensBelow (n + 1)) (yields_bare (by simp))
    fun both hboth => yields_pure hboth

/-- A function is no pair of parentheses. -/
theorem function_parensBelow (isDeclaration : Bool) :
    Yields (g.function isDeclaration) (Tree.ParensBelow (n + 1)) := by
  refine .behind fun start => .behind fun _ => .behind fun isNamed => ?_
  suffices hrest : ∀ name : Option Tree, Yields _ _ from
    .ite (.behind hrest) (.ite (.behind hrest) (.behind hrest))
  intro name
  refine .behind fun _ => .behind fun isClosed => ?_
  suffices hrest : ∀ parameters : List Tree, Yields _ _ from
    .ite (.behind hrest) (.behind hrest)
  exact fun parameters => .behind fun _ => .behind fun body =>
    yields_bare (by simp)

/-- An array is no pair of parentheses. -/
theorem array_parensBelow : Yields g.array (Tree.ParensBelow (n + 1)) :=
  .behind fun _ => .behind fun _ => .behind fun _ => .behind fun _ =>
    yields_bare (by simp)

/-- An object is no pair of parentheses. -/
theorem object_parensBelow : Yields g.object (Tree.ParensBelow (n + 1)) :=
  .behind fun _ => .behind fun _ => .behind fun _ => .behind fun _ =>
    yields_bare (by simp)

/-- Parentheses add a pair to what is read one level further in. -/
theorem primary_parensBelow (hg : g.BracketsBelow (n + 1)) :
    Yields g.primary (Tree.ParensBelow (n + 2)) := by
  refine .behind fun token => ?_
  split
  case h_1 => exact name_parensBelow false
  case h_6 => exact literal_parensBelow
  case h_7 => exact literal_parensBelow
  case h_8 => exact .behind fun _ => literal_parensBelow
  case h_9 => exact .behind fun _ => literal_parensBelow
  case h_10 =>
      refine .behind fun _ => (expression_parensBelow hg false).bind
        fun inner hinner => .behind fun _ => ?_
      exact yields_finish fun stop => .paren rfl hinner
  case h_11 => exact array_parensBelow
  case h_12 => exact object_parensBelow
  case h_13 =>
      exact (function_parensBelow false).bind
        fun function hfunction => yields_pure (hfunction.withDoc token.doc)
  case h_14 => exact yields_fail
  all_goals exact atom_parensBelow (by simp)

/-- An operand by itself may be in parentheses; with something behind it, it is
another node. -/
theorem leftHand_parensBelow (hg : g.BracketsBelow (n + 1)) (calls : Bool) :
    Yields (g.leftHand calls) (Tree.ParensBelow (n + 2)) := by
  have hhead : Yields g.head (Tree.ParensBelow (n + 2)) := by
    refine .behind fun start => .behind fun isNew => .ite ?_
      (primary_parensBelow hg)
    refine .behind fun callee => .behind fun isCall => ?_
    suffices hrest : ∀ arguments : List (Option Tree), Yields _ _ from
      .ite (.behind hrest) (.behind hrest)
    exact fun arguments => yields_bare (by simp)
  have hextended : ∀ {start : Nat} {form : Form (Option Tree)} {owner : Tree},
      (∀ inner, form ≠ .paren inner) →
      Yields (some <$> finish start form) fun r =>
        (r.getD owner).ParensBelow (n + 2) :=
    fun h => (yields_bare h).map fun _ htree => htree
  refine .behind fun start => hhead.bind fun head hhead => ?_
  refine .iterate (fun owner howner => .behind fun kind => ?_) hhead
  split
  · exact .behind fun _ => .behind fun _ => hextended (by simp)
  · exact .behind fun _ => .behind fun _ => .behind fun _ =>
      hextended (by simp)
  · exact .ite (.behind fun _ => hextended (by simp)) (yields_pure howner)
  · exact yields_pure howner

/-- An operator makes a node of its operand. -/
theorem unaryExpression_parensBelow (hg : g.BracketsBelow (n + 1)) :
    Yields g.unaryExpression (Tree.ParensBelow (n + 2)) := by
  refine .behind fun token => .ite
    (.behind fun _ => .behind fun _ => yields_bare (by simp)) ?_
  refine (leftHand_parensBelow hg true).bind fun operand hoperand => ?_
  exact .behind fun next => .ite
    (.behind fun _ => yields_bare (by simp)) (yields_pure hoperand)

/-- An operator in between makes a node of its two operands. -/
theorem binaryExpression_parensBelow (hg : g.BracketsBelow (n + 1))
    (above : Nat) (noIn : Bool) :
    Yields (g.binaryExpression above noIn) (Tree.ParensBelow (n + 2)) := by
  refine .behind fun start => ?_
  refine (unaryExpression_parensBelow hg).bind fun first hfirst => ?_
  refine .iterate (fun left hleft => ?_) hfirst
  refine .behind fun operator => .ite (yields_pure hleft)
    (.behind fun _ => .behind fun right => ?_)
  exact Yields.bind (Q := Tree.ParensBelow (n + 2)) (yields_bare (by simp))
    fun both hboth => yields_pure hboth

/-- A condition makes a node with its branches. -/
theorem conditional_parensBelow (hg : g.BracketsBelow (n + 1))
    (noIn : Bool) :
    Yields (g.conditional noIn) (Tree.ParensBelow (n + 2)) := by
  refine .behind fun start => ?_
  refine (binaryExpression_parensBelow hg 0 noIn).bind
    fun condition hcondition => ?_
  exact .behind fun isCondition => .ite
    (.behind fun _ => .behind fun _ => .behind fun _ =>
      yields_bare (by simp))
    (yields_pure hcondition)

/-- An assignment is a node of its own, too. -/
theorem assignmentExpression_parensBelow (hg : g.BracketsBelow (n + 1))
    (noIn : Bool) :
    Yields (g.assignmentExpression noIn) (Tree.ParensBelow (n + 2)) := by
  refine .behind fun start => ?_
  refine (conditional_parensBelow hg noIn).bind fun left hleft => ?_
  exact .behind fun operator => .ite
    (.ite (.behind fun _ => .behind fun _ => yields_bare (by simp))
      yields_fail)
    (yields_pure hleft)

/-- One level further out there may be one pair more. -/
theorem BracketsBelow.outer (hg : g.BracketsBelow (n + 1)) :
    g.outer.BracketsBelow (n + 2) :=
  assignmentExpression_parensBelow hg

/-- A grammar with `n` levels yields no expression with more than `n` pairs
of parentheses around it. -/
theorem bracketsBelow_levels (n : Nat) : (levels n).BracketsBelow (n + 1) := by
  induction n with
  | zero => exact fun _ => yields_fail
  | succ n ih => exact ih.outer

end Grammar

-- ============================================================= questions

namespace Arena

variable {arena : Arena} {lines : Text.LineMap} {i : Nat} {tree : Tree}

/-- When the parentheses around a node are taken off in time, it may be
assigned to as its tree may. -/
theorem isTarget_of_shows (h : arena.Shows lines i tree) {n : Nat}
    (hparens : tree.ParensBelow n) (hn : n ≤ walkLimit) :
    arena.isTarget i = Parse.isTarget tree := by
  suffices hunwrap : ∀ steps, n ≤ steps →
      (arena.form? (arena.unwrap steps (some i))).any Form.isTarget
        = Parse.isTarget tree from hunwrap walkLimit hn
  clear hn
  induction hparens generalizing i with
  | @bare n tree hbare =>
    intro steps _
    obtain ⟨joint, hform, htree, -⟩ := h.split
    obtain ⟨start, stop, doc, form⟩ := tree
    obtain rfl : form = joint.map Prod.snd := htree
    rw [unwrap_of_form? hform, hform]
    · cases joint with
      | paren slot => exact absurd rfl (hbare slot.2)
      | _ => rfl
    · intro inner hparen
      cases joint with
      | paren slot => exact hbare slot.2 rfl
      | _ => cases hparen
  | @paren n tree inner hparen hbelow ih =>
    intro steps hsteps
    obtain ⟨steps, rfl⟩ := Nat.exists_eq_add_of_le' hsteps
    obtain ⟨start, stop, doc, form⟩ := tree
    obtain rfl : form = .paren (some inner) := hparen
    obtain ⟨c, hform, hinner⟩ := h.paren
    rw [← Nat.add_assoc, unwrap, hform]
    exact ih hinner (steps + n) (Nat.le_add_left n steps)

/-- A node declares as many variables as its tree. -/
theorem declaresMany_of_shows (h : arena.Shows lines i tree) :
    arena.declaresMany i = Grammar.declaresMany tree := by
  obtain ⟨joint, hform, htree, -⟩ := h.split
  obtain ⟨start, stop, doc, form⟩ := tree
  obtain rfl : form = joint.map Prod.snd := htree
  unfold declaresMany Grammar.declaresMany
  rw [hform]
  cases joint with
  | declarations items => simp [Form.map]
  | _ => rfl

end Arena

end ScriptLint
