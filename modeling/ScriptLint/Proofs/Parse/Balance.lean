/-
Counters are balanced. Whichever parser of expressions or statements is
asked, wherever in a text, and whether it succeeds or fails, it leaves the
counters as they were, has entered no level that there is not, and ends
(`Counting.Balanced`). It follows from what it does without counters, where
none of this can go wrong.

A program is parsed one statement after the other, each from counters that
stand at nothing. So parsing ends on every text, it comes to what parsing by
levels does, and it finds a text nested too deeply only where it finds a
single statement so (`CountingGrammar.counters_balanced`).

# The argument

- `IsRule` lists the parsers of the grammar with their counterparts without
  counters. Each of them follows its counterpart (`IsRule.follows`), which
  has been proved one by one.
- To follow says what a run does from any counters, so balance can be read
  off (`Follows.balanced`). Progress comes from the counterpart: what is
  yielded has been derived from tokens.
- Where a text is found nested too deeply, the statement that it was found
  in began with counters at nothing (`CountingGrammar.program_fails`).
-/
import ScriptLint.Proofs.Parse.Counted
import ScriptLint.Proofs.Parse.Faults

namespace ScriptLint

open Parse

variable {text : String} {d : Depths}

-- ============================================================== progress

/-- Reading consumes something. -/
theorem Derives.length_consumed_lt {cursor cursor' : Cursor}
    {parts : List Part} (h : Derives cursor parts cursor') :
    cursor.consumed.length < cursor'.consumed.length := by
  induction h with
  | token htakes =>
      rw [htakes.consumed_eq, List.length_cons]
      exact Nat.lt_succ_self _
  | node role h hread ih => exact ih
  | append h h' ih ih' => exact Nat.lt_trans ih ih'

namespace Counting

variable {α : Type} {c : Counting α} {p : Parse α}

-- =============================================================== balance

/-- Wherever in a text it starts from counters at given depths, and however
it ends, the parser leaves the counters as they were, has entered no level
deeper than is allowed, is not caught in a loop, and comes to what another
one comes to that does not count. -/
def Balanced (text : String) (d : Depths) (c : Counting α) (p : Parse α) :
    Prop :=
  ∀ (cursor : Cursor) (deepest : Nat), cursor.Reached text →
    let outcome := c.run.run ⟨cursor, d, deepest⟩
    outcome.2.depths = d
      ∧ outcome.2.deepest ≤ max deepest Grammar.maxDepth
      ∧ outcome.1 ≠ .error .endless
      ∧ outcome.1 = (p.run.run cursor).1.mapError .error
      ∧ outcome.2.cursor = (p.run.run cursor).2

/-- Wherever in a text it starts from counters at given depths, the parser
consumes a token if it succeeds. -/
def Progresses (text : String) (d : Depths) (c : Counting α) : Prop :=
  ∀ (cursor : Cursor) (deepest : Nat) (a : α) (tally : Tally),
    cursor.Reached text →
    c.run.run ⟨cursor, d, deepest⟩ = (.ok a, tally) →
    cursor.consumed.length < tally.cursor.consumed.length

theorem Follows.balanced (h : Follows text d c p) :
    Balanced text d c p := by
  intro cursor deepest hcursor
  obtain ⟨later, -, hmax, hrun⟩ := h.runs cursor deepest hcursor
  rw [hrun]
  refine ⟨rfl, hmax, ?_, rfl, rfl⟩
  rcases (p.run.run cursor).1 with _ | _ <;> simp [Except.mapError]

/-- It succeeds where what it follows does. -/
theorem Follows.ok_of_ok (h : Follows text d c p) {cursor : Cursor}
    {deepest : Nat} {a : α} {tally : Tally} (hcursor : cursor.Reached text)
    (hrun : c.run.run ⟨cursor, d, deepest⟩ = (.ok a, tally)) :
    p.run.run cursor = (.ok a, tally.cursor) := by
  obtain ⟨later, -, -, hsame⟩ := h.runs cursor deepest hcursor
  rw [hrun] at hsame
  rcases hplain : p.run.run cursor with ⟨_ | _, cursor'⟩
  · rw [hplain] at hsame
    cases hsame
  · rw [hplain] at hsame
    cases hsame
    rfl

/-- It fails where what it follows does, in the same way. -/
theorem Follows.error_of_error (h : Follows text d c p) {cursor : Cursor}
    (deepest : Nat) {e : SyntaxError} {cursor' : Cursor}
    (hcursor : cursor.Reached text)
    (hplain : p.run.run cursor = (.error e, cursor')) :
    (c.run.run ⟨cursor, d, deepest⟩).1 = .error (.error e) := by
  obtain ⟨later, -, -, hrun⟩ := h.runs cursor deepest hcursor
  rw [hrun, hplain]
  rfl

theorem Follows.progresses (h : Follows text d c p) {parts : α → List Part}
    (hp : Derived p parts) : Progresses text d c := by
  intro cursor deepest a tally hcursor hrun
  have hplain := h.ok_of_ok hcursor hrun
  exact ((hp cursor).of_ok hplain).length_consumed_lt

end Counting

namespace CountingGrammar

open Counting (Balanced Follows Progresses)

variable {counting : CountingGrammar} {g : Grammar}

/-- Every parser of a grammar that counts follows its counterpart. -/
theorem IsRule.follows {α : Type} {c : Counting α} {p : Parse α}
    (h : counting.IsRule g d.surroundings c p)
    (hg : counting.Agrees text g d.nesting) : Follows text d c p := by
  -- the parsers of the level further in are known, all others are built from
  -- them
  cases h with
  | assignment noIn => exact hg.assignment d noIn rfl
  | operand above noIn => exact hg.operand d above noIn rfl
  | unary => exact hg.unary d rfl
  | callee => exact hg.callee d rfl
  | statement => exact hg.statement d rfl
  | name orKeyword => exact .lift (stays_name orKeyword)
  | literal => exact .lift stays_literal
  | expression noIn => exact expression_follows hg noIn
  | arguments => exact arguments_follows hg
  | statements => exact statements_follows hg
  | block => exact block_follows hg
  | function isDeclaration => exact function_follows hg isDeclaration
  | array => exact array_follows hg
  | property => exact property_follows hg
  | object => exact object_follows hg
  | primary => exact primary_follows hg
  | extend calls start owner =>
      exact extend_follows hg calls start owner
  | head => exact head_follows hg
  | leftHand calls => exact leftHand_follows hg calls
  | unaryExpression => exact unaryExpression_follows hg
  | binaryExpression above noIn =>
      exact binaryExpression_follows hg above noIn
  | conditional noIn => exact conditional_follows hg noIn
  | assignmentExpression noIn =>
      exact assignmentExpression_follows hg noIn
  | declaration noIn => exact declaration_follows hg noIn
  | declarations noIn => exact declarations_follows hg noIn
  | condition => exact condition_follows hg
  | optionalExpression stop => exact optionalExpression_follows hg stop
  | branch => exact branch_follows hg
  | loopBody => exact loopBody_follows hg
  | forInTail start target => exact forInTail_follows hg start target
  | forTail start initializer =>
      exact forTail_follows hg start initializer
  | forLoop => exact forLoop_follows hg
  | whileLoop => exact whileLoop_follows hg
  | doWhile => exact doWhile_follows hg
  | jump => exact jump_follows
  | returning => exact returning_follows hg
  | throwing => exact throwing_follows hg
  | trying => exact trying_follows hg
  | clauseTest hasDefault => exact clauseTest_follows hg hasDefault
  | clause hasDefault => exact clause_follows hg hasDefault
  | switch => exact switch_follows hg
  | expressionStatement => exact expressionStatement_follows hg
  | statementHere => exact statementHere_follows hg

-- ============================================================ programs

/-- Where the statements of a program begin, and where the last one of those
that are parsed ends. Each is parsed from counters that stand at nothing,
as if none had come before it. -/
inductive AtStatement (g : CountingGrammar) (text : String) :
    Cursor → Prop where
  | first : AtStatement g text { lexeme := Lexeme.first text }
  | next {cursor : Cursor} {tree : Tree} {tally : Tally} :
    AtStatement g text cursor → cursor.kind ≠ .endOfText →
    g.statement.run.run { cursor } = (.ok tree, tally) →
    AtStatement g text tally.cursor

/-- The grammar fails in a statement as it does when it parses that one
alone. -/
def FailsIn (g : CountingGrammar) (text : String) (e : SyntaxError) : Prop :=
  ∃ cursor, AtStatement g text cursor ∧ cursor.kind ≠ .endOfText
    ∧ (g.statement.run.run { cursor }).1 = .error (.error e)

/-- Parsing a program fails at its end, at a comment that is left open, or
in a statement. -/
theorem program_fails (hg : counting.Agrees text g 0) :
    Meets g.program { lexeme := Lexeme.first text } (fun _ _ => True)
      fun e => e.fault = .openComment ∨ counting.FailsIn text e := by
  have hstatement : Follows text {} counting.statement (g.statement {}) :=
    hg.statement {} rfl
  refine Meets.bind (Q := fun _ _ => True) (Meets.many_until
    (I := fun _ cursor =>
      counting.AtStatement text cursor ∧ cursor.Reached text)
    (fun done cursor hcursor => ?_) ⟨.first, .first⟩)
    fun statements cursor _ => ?_
  · obtain ⟨hat, hreached⟩ := hcursor
    refine meets_look_bind.2 ?_
    split
    · exact meets_pure.2 trivial
    · rename_i hkind
      have hend : cursor.kind ≠ .endOfText := fun h => hkind (beq_iff_eq.2 h)
      refine meets_bind.2 ?_
      unfold Meets
      rcases hplain : (g.statement {}).run.run cursor with ⟨e | tree, cursor'⟩
      · have herror := hstatement.error_of_error 0 hreached hplain
        exact .inr ⟨cursor, hat, hend, herror⟩
      · obtain ⟨later, -, -, hrun⟩ := hstatement.runs cursor 0 hreached
        have hderives := (hg.derived.statement {} cursor).of_ok hplain
        rw [hplain] at hrun
        exact ⟨hderives.remaining_lt hreached, hat.next hend hrun,
          hderives.reached hreached⟩
  · refine meets_look_bind.2 ?_
    split
    · exact meets_failAt.2 (.inl rfl)
    · exact meets_pure.2 trivial

/-- Parsers that count are balanced, and do what those do that do not count,
whatever a grammar further in than is allowed would do. Statements and
assignment expressions consume a token when they succeed. So parsing ends on
every text and comes to what parsing by levels does, and a text is found
nested too deeply only where a single statement of it is. -/
theorem counters_balanced (base : CountingGrammar) (text : String) {n : Nat}
    (hn : Grammar.maxDepth < n) :
    (∀ d : Depths,
      (∀ {α : Type} (c : Counting α) (p : Parse α),
        (levels base n).IsRule
          (Grammar.levels (Grammar.maxDepth - d.nesting)) d.surroundings
          c p →
        Balanced text d c p)
      ∧ Progresses text d (levels base n).statement
      ∧ ∀ noIn, Progresses text d ((levels base n).assignment noIn))
    ∧ (∃ deepest ≤ Grammar.maxDepth,
      (levels base n).program.run.run
          { cursor := { lexeme := Lexeme.first text } }
        = ((Tree.read text).1.mapError .error,
          { cursor := (Tree.read text).2, deepest }))
    ∧ ∀ e, Tree.parse text = .error e → e.fault = .tooDeep →
      (levels base n).FailsIn text e := by
  -- there are levels enough, so the grammar that stands below them all is
  -- never asked
  have hagrees : ∀ d : Depths, (levels base n).Agrees text
      (Grammar.levels (Grammar.maxDepth - d.nesting)) d.nesting := fun d =>
    agrees_levels text base (Nat.lt_of_le_of_lt (Nat.sub_le _ _) hn)
  have hprogram := hagrees {}
  refine ⟨fun d => ⟨fun c p hrule => ?_, ?_, fun noIn => ?_⟩, ?_, ?_⟩
  · exact (hrule.follows (hagrees d)).balanced
  · exact ((hagrees d).statement d rfl).progresses
      ((hagrees d).derived.statement d.surroundings)
  · exact ((hagrees d).assignment d noIn rfl).progresses
      ((hagrees d).derived.assignment noIn).derived
  · obtain ⟨later, -, hmax, hrun⟩ :=
      (program_follows hprogram).runs { lexeme := Lexeme.first text } 0 .first
    exact ⟨later, by omega, hrun⟩
  · intro e hparse hdeep
    rcases Tree.parse_of_meets (program_fails hprogram) with
      ⟨e', hparse', hfails⟩ | ⟨tree, cursor, hparse', -⟩
    · rw [hparse] at hparse'
      cases hparse'
      -- an open comment would have been another error
      refine hfails.resolve_left fun hcomment => ?_
      rw [hdeep] at hcomment
      cases hcomment
    · rw [hparse] at hparse'
      cases hparse'

/-- A grammar that is caught in a loop whatever it is asked. -/
def endless : CountingGrammar where
  assignment _ := throw .endless
  operand _ _ := throw .endless
  unary := throw .endless
  callee := throw .endless
  statement := throw .endless

/-- A statement that is in order, and one that nests too deeply. -/
def deepText : String :=
  "f(x);" ++ String.ofList (List.replicate 300 '!') ++ "x;"

theorem counters_balanced_of_deepText :
    Grammar.maxDepth < 257
      ∧ Balanced deepText { functions := 1, loops := 2 }
        (levels endless 257).switch
        ((Grammar.levels Grammar.maxDepth).switch
          { inFunction := true, inLoop := true })
      ∧ Tree.parse deepText = .error ⟨.tooDeep, 260⟩
      ∧ (levels endless 257).FailsIn deepText ⟨.tooDeep, 260⟩ := by
  have hlevels : Grammar.maxDepth < 257 := by decide
  have hparse : Tree.parse deepText = .error ⟨.tooDeep, 260⟩ := by
    decide +kernel
  obtain ⟨hrules, -, hfails⟩ := counters_balanced endless deepText hlevels
  exact ⟨hlevels, (hrules _).1 _ _ .switch, hparse, hfails _ hparse rfl⟩

end CountingGrammar

end ScriptLint
