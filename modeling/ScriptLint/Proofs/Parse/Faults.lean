/-
Syntax errors lie in the text. A parser fails at the current token, at a
token that it has looked at before, or where a comment begins that is left
open in front of a token; all of these places lie between characters of
the text (`Token.Placed`). A parser that starts in the text stays in it,
and if it fails, then at such a place (`Parse.FaultsIn`).

The contract leaves results out, so its rules need no invariant of a loop,
and the walk over the grammar is one line for each step. The two steps
whose results do matter are those that look at a token and at its start,
since a fault may be found there later on.

Most failures are at the current token, and need nothing but that the
cursor is in the text. Three productions name a place that they have passed
by then: the key of an accessor, the keyword of a jump, and the word of a
`with` statement. These are the ones that look at a token first and keep
what the look has shown about its places (`FaultsIn.behind_token`,
`FaultsIn.behind_here`); in all others the start of the node is only
carried along.

A comment that is left open takes precedence over any fault at the token
behind it, and then the place is where the comment begins
(`Cursor.onBoundary_error`). That place is kept in the trivia of the token,
so a token has two places to be accounted for and not one.
-/
import ScriptLint.Proofs.Parse.Contract
import ScriptLint.Proofs.Token.Facts

namespace ScriptLint

open Text Parse

variable {cs : List Char}

-- ============================================================== places

/-- The byte at which an open comment begins lies behind the trivia in
front of it. -/
theorem Trivia.onBoundary_of_openComment? {items : List Trivia}
    {before after : List Char} {n : Nat}
    (h : openComment? (byteLength before) items = some n) :
    OnBoundary (before ++ (charsOf items ++ after)) n := by
  induction items generalizing before with
  | nil => cases h
  | cons item items ih =>
      rw [openComment?] at h
      split at h
      · cases h
        exact ⟨before, _, rfl, rfl⟩
      · rw [← byteLength_append] at h
        simpa [charsOf] using ih h

/-- The places at which a token can be at fault lie between characters of
a text. -/
structure Token.Placed (cs : List Char) (token : Token) : Prop where
  start_on : OnBoundary cs token.start
  openComment_on : ∀ n ∈ token.openComment, OnBoundary cs n

/-- A token of the text has its places in it. -/
theorem Lexeme.StandsIn.placed {lexeme : Lexeme} (h : lexeme.StandsIn cs) :
    lexeme.token.Placed cs := by
  refine ⟨h.liesIn.tilesIn.start_on, fun n hn => ?_⟩
  obtain ⟨before, items, raw, hcut⟩ := h
  rw [hcut.openComment_eq, hcut.fullStart_eq] at hn
  rw [← hcut.text_eq]
  exact Trivia.onBoundary_of_openComment? hn

/-- Whatever the grammar has against the current token, the error lies in
the text. -/
theorem Cursor.onBoundary_error {cursor : Cursor}
    (h : cursor.lexeme.StandsIn cs) (fault : SyntaxFault) :
    OnBoundary cs (cursor.error fault).offset := by
  unfold Cursor.error
  split
  · rename_i offset hcomment
    exact h.placed.openComment_on offset hcomment
  · exact h.placed.start_on

namespace Parse

variable {α β : Type} {p q : Parse α}

-- ============================================================ contract

/-- From anywhere in a text, a parser stays in the text, and if it fails,
then at a place in it. -/
def FaultsIn (cs : List Char) (p : Parse α) : Prop :=
  ∀ cursor : Cursor, cursor.lexeme.StandsIn cs →
    Meets p cursor (fun _ cursor' => cursor'.lexeme.StandsIn cs)
      fun e => OnBoundary cs e.offset

/-- Giving a result does not fail. -/
theorem faultsIn_pure {a : α} : FaultsIn cs (pure a) := fun _ h => h

/-- A failure is at the current token, which is in the text. -/
theorem faultsIn_fail {fault : SyntaxFault} :
    FaultsIn cs (fail fault : Parse α) :=
  fun _ h => Cursor.onBoundary_error h fault

/-- A place of its own has to be known to be in the text. -/
theorem faultsIn_failAt {offset : Nat} {fault : SyntaxFault}
    (h : OnBoundary cs offset) : FaultsIn cs (failAt offset fault : Parse α) :=
  fun _ _ => h

/-- Looking does not fail, and stays. -/
theorem faultsIn_look (f : Cursor → α) : FaultsIn cs (look f) :=
  fun _ h => h

/-- The second part starts in the text, since the first one has stayed
there. -/
theorem FaultsIn.bind {f : α → Parse β} (hp : FaultsIn cs p)
    (hf : ∀ a, FaultsIn cs (f a)) : FaultsIn cs (p >>= f) :=
  fun cursor h => (hp cursor h).bind fun a cursor' h' => hf a cursor' h'

/-- Behind a look at the current token. -/
theorem FaultsIn.behind_token {f : Token → Parse β}
    (hf : ∀ token, token.Placed cs → FaultsIn cs (f token)) :
    FaultsIn cs (look Cursor.token >>= f) :=
  fun cursor h => meets_bind.2 (meets_look.2 (hf _ h.placed cursor h))

/-- Behind a look at where the current token starts. -/
theorem FaultsIn.behind_here {f : Nat → Parse β}
    (hf : ∀ start, OnBoundary cs start → FaultsIn cs (f start)) :
    FaultsIn cs (here >>= f) :=
  fun cursor h => meets_bind.2 (meets_here.2 (hf _ h.placed.start_on cursor h))

/-- What is made of the result does not matter. -/
theorem FaultsIn.map {f : α → β} (hp : FaultsIn cs p) :
    FaultsIn cs (f <$> p) :=
  fun cursor h => meets_map.2 (hp cursor h)

/-- Whichever way a condition is decided, the failure is in the text. -/
theorem FaultsIn.ite {c : Prop} [Decidable c] (hp : FaultsIn cs p)
    (hq : FaultsIn cs q) : FaultsIn cs (if c then p else q) := by
  split
  · exact hp
  · exact hq

/-- Two ways to go, with the same continuation behind both. -/
theorem FaultsIn.choice {c : Prop} [Decidable c] {f : α → Parse β}
    (hp : FaultsIn cs p) (hq : FaultsIn cs q) (hf : ∀ a, FaultsIn cs (f a)) :
    FaultsIn cs (if c then p >>= f else q >>= f) :=
  (hp.bind hf).ite (hq.bind hf)

-- =============================================================== steps

theorem faultsIn_isAt (kind : TokenKind) : FaultsIn cs (isAt kind) :=
  faultsIn_look _

/-- The next token is in the text. -/
theorem faultsIn_advance : FaultsIn cs advance :=
  fun _ h => h.liesIn.next_standsIn

/-- A slash that is read again is in the text. -/
theorem faultsIn_enterRegex : FaultsIn cs enterRegex :=
  fun _ h => h.asRegex

/-- A token that is not there is left alone, without failing. -/
theorem faultsIn_accept (kind : TokenKind) : FaultsIn cs (accept kind) :=
  (faultsIn_isAt kind).bind fun _ =>
    .ite (faultsIn_advance.bind fun _ => faultsIn_pure) faultsIn_pure

/-- A token that is missing is missed at the one that stands there. -/
theorem faultsIn_expect (kind : TokenKind) : FaultsIn cs (expect kind) :=
  (faultsIn_accept kind).bind fun _ => .ite faultsIn_pure faultsIn_fail

/-- A semicolon that is missing is missed at the token in its place. -/
theorem faultsIn_endStatement : FaultsIn cs endStatement :=
  (faultsIn_accept _).bind fun _ => .ite faultsIn_pure
    ((faultsIn_look mayEnd).bind fun _ => .ite faultsIn_pure faultsIn_fail)

theorem faultsIn_finish {start : Nat} {form : Form (Option Tree)} :
    FaultsIn cs (finish start form) := faultsIn_look _

-- =============================================================== loops

/-- A loop fails where one of its steps does, and all of them start in the
text. -/
theorem FaultsIn.iterate {σ : Type} {step : σ → Parse (Option σ)}
    (hstep : ∀ state, FaultsIn cs (step state)) (state : σ) :
    FaultsIn cs (Parse.iterate step state) :=
  fun _ h => Meets.iterate
    (I := fun _ cursor => cursor.lexeme.StandsIn cs)
    (fun state cursor h' => hstep state cursor h') h

/-- Many of the same stay in the text if each does. -/
theorem FaultsIn.many {step : Parse (Option α)} (hstep : FaultsIn cs step) :
    FaultsIn cs (Parse.many step) := by
  unfold Parse.many
  refine .bind (.iterate (fun done => ?_) []) fun reversed => faultsIn_pure
  exact hstep.bind fun result => faultsIn_pure

/-- Parts with commas between them stay in the text if each does. -/
theorem FaultsIn.separated {item : Parse α} (hitem : FaultsIn cs item) :
    FaultsIn cs (Parse.separated item) := by
  unfold Parse.separated
  refine hitem.bind fun first => .bind (.many ?_) fun more => faultsIn_pure
  exact (faultsIn_accept _).bind fun isComma => .ite hitem.map faultsIn_pure

end Parse

namespace Grammar

/-- The parsers of a grammar fail in the text that they read. -/
structure FaultsIn (cs : List Char) (g : Grammar) : Prop where
  assignment (noIn : Bool) : Parse.FaultsIn cs (g.assignment noIn)
  operand (above : Nat) (noIn : Bool) :
    Parse.FaultsIn cs (g.operand above noIn)
  unary : Parse.FaultsIn cs g.unary
  callee : Parse.FaultsIn cs g.callee
  statement (s : Surroundings) : Parse.FaultsIn cs (g.statement s)

variable {g : Grammar}

-- ========================================================= expressions

/-- A name fails at the token that is none. -/
theorem name_faults (orKeyword : Bool) :
    Parse.FaultsIn cs (name orKeyword) := by
  refine (faultsIn_look _).bind fun token => .ite ?_ faultsIn_fail
  exact faultsIn_advance.bind fun _ => faultsIn_finish

/-- A literal that is open fails where it stands. -/
theorem literal_faults : Parse.FaultsIn cs literal := by
  refine (faultsIn_look _).bind fun token => .ite faultsIn_fail ?_
  exact faultsIn_advance.bind fun _ => faultsIn_finish

/-- A token that is a node by itself does not fail. -/
theorem atom_faults (form : Form (Option Tree)) :
    Parse.FaultsIn cs (atom form) :=
  (faultsIn_look _).bind fun _ =>
    faultsIn_advance.bind fun _ => faultsIn_finish

/-- An expression fails in one of its operands. -/
theorem expression_faults (hg : g.FaultsIn cs) (noIn : Bool) :
    Parse.FaultsIn cs (g.expression noIn) := by
  refine (faultsIn_look _).bind fun start => ?_
  refine (hg.assignment noIn).bind fun first => .iterate (fun left => ?_) _
  refine (faultsIn_accept _).bind fun isComma => .ite ?_ faultsIn_pure
  refine (hg.assignment noIn).bind fun right => ?_
  exact faultsIn_finish.bind fun both => faultsIn_pure

/-- Arguments fail in one of them, or at a parenthesis that is missing. -/
theorem arguments_fault (hg : g.FaultsIn cs) :
    Parse.FaultsIn cs g.arguments := by
  refine (faultsIn_expect _).bind fun _ =>
    (faultsIn_isAt _).bind fun isClosed => ?_
  refine .choice faultsIn_pure (.separated (hg.assignment false))
    fun arguments => ?_
  exact (faultsIn_expect _).bind fun _ => faultsIn_pure

-- ============================================================ functions

/-- Statements fail in one of them only; what stops them is no fault. -/
theorem statements_fault (hg : g.FaultsIn cs) (s : Surroundings) :
    Parse.FaultsIn cs (g.statements s) := by
  refine .many ((faultsIn_look _).bind fun kind => ?_)
  split
  case h_5 => exact (hg.statement s).bind fun _ => faultsIn_pure
  all_goals exact faultsIn_pure

/-- A block fails inside or at a brace. -/
theorem block_faults (hg : g.FaultsIn cs) (s : Surroundings) :
    Parse.FaultsIn cs (g.block s) := by
  refine (faultsIn_look _).bind fun start =>
    (faultsIn_expect _).bind fun _ => ?_
  refine (statements_fault hg s).bind fun statements => ?_
  exact (faultsIn_expect _).bind fun _ => faultsIn_finish

/-- With a name or without one, the rest of a function fails in the same
places. -/
theorem function_faults (hg : g.FaultsIn cs) (isDeclaration : Bool) :
    Parse.FaultsIn cs (g.function isDeclaration) := by
  refine (faultsIn_look _).bind fun start =>
    (faultsIn_expect _).bind fun _ => (faultsIn_isAt _).bind fun isNamed => ?_
  refine .ite ((name_faults false).map.bind ?rest)
    (.choice (name_faults false).map faultsIn_pure ?rest)
  intro name
  refine (faultsIn_expect _).bind fun _ =>
    (faultsIn_isAt _).bind fun isClosed => ?_
  refine .choice faultsIn_pure (.separated (name_faults false))
    fun parameters => (faultsIn_expect _).bind fun _ => ?_
  exact (block_faults hg _).bind fun body => faultsIn_finish

-- ============================================================= literals

/-- A hole is no fault, so an array fails in an element or behind one. -/
theorem array_faults (hg : g.FaultsIn cs) : Parse.FaultsIn cs g.array := by
  refine (faultsIn_look _).bind fun start =>
    (faultsIn_expect _).bind fun _ => ?_
  refine .bind (.iterate (fun state => ?_) _) fun elements =>
    (faultsIn_expect _).bind fun _ => faultsIn_finish
  refine (faultsIn_isAt _).bind fun isClosed => .ite faultsIn_pure ?_
  refine (faultsIn_accept _).bind fun isHole => .ite faultsIn_pure ?_
  refine (hg.assignment false).bind fun element => ?_
  exact (faultsIn_accept _).bind fun isMore => faultsIn_pure

/-- An accessor is found at its key, which has been consumed by then. -/
theorem property_faults (hg : g.FaultsIn cs) :
    Parse.FaultsIn cs g.property := by
  refine .behind_token fun token htoken => ?_
  have hvalue : ∀ (key : Tree) (named : Bool), Parse.FaultsIn cs (do
      if named && !(← isAt Punctuator.colon) then
        failAt token.start .accessorProperty
      else
        expect Punctuator.colon
        let value ← g.assignment false
        finish token.start
          (.property (some (key.withDoc token.doc)) (some value))) := by
    intro key named
    refine (faultsIn_isAt _).bind fun isColon =>
      .ite (faultsIn_failAt htoken.start_on) ?_
    refine (faultsIn_expect _).bind fun _ => ?_
    exact (hg.assignment false).bind fun value => faultsIn_finish
  split
  · exact literal_faults.bind fun key => hvalue key _
  · exact literal_faults.bind fun key => hvalue key _
  · exact (name_faults true).bind fun key => hvalue key _

/-- An object fails in a property or behind one. -/
theorem object_faults (hg : g.FaultsIn cs) : Parse.FaultsIn cs g.object := by
  refine (faultsIn_look _).bind fun start =>
    (faultsIn_expect _).bind fun _ => ?_
  refine .bind (.iterate (fun state => ?_) _) fun properties =>
    (faultsIn_expect _).bind fun _ => faultsIn_finish
  refine (faultsIn_isAt _).bind fun isClosed => .ite faultsIn_pure ?_
  refine (property_faults hg).bind fun property => ?_
  exact (faultsIn_accept _).bind fun isMore => faultsIn_pure

/-- An operand that cannot begin with the current token fails there, and a
regular expression at the slash that it is read from. -/
theorem primary_faults (hg : g.FaultsIn cs) :
    Parse.FaultsIn cs g.primary := by
  refine (faultsIn_look _).bind fun token => ?_
  split
  case h_1 => exact name_faults false
  case h_2 => exact atom_faults _
  case h_3 => exact atom_faults _
  case h_4 => exact atom_faults _
  case h_5 => exact atom_faults _
  case h_6 => exact literal_faults
  case h_7 => exact literal_faults
  case h_8 => exact faultsIn_enterRegex.bind fun _ => literal_faults
  case h_9 => exact faultsIn_enterRegex.bind fun _ => literal_faults
  case h_10 =>
      refine faultsIn_advance.bind fun _ =>
        (expression_faults hg false).bind fun inner => ?_
      exact (faultsIn_expect _).bind fun _ => faultsIn_finish
  case h_11 => exact array_faults hg
  case h_12 => exact object_faults hg
  case h_13 =>
      exact (function_faults hg false).bind fun function => faultsIn_pure
  case h_14 => exact faultsIn_fail

-- ============================================================ operators

/-- What is put behind an operand fails where it ends. -/
theorem extend_faults (hg : g.FaultsIn cs) (calls : Bool) (start : Nat)
    (owner : Tree) : Parse.FaultsIn cs (g.extend calls start owner) := by
  refine (faultsIn_look _).bind fun kind => ?_
  split
  · exact faultsIn_advance.bind fun _ =>
      (name_faults true).bind fun name => faultsIn_finish.map
  · refine faultsIn_advance.bind fun _ =>
      (expression_faults hg false).bind fun index => ?_
    exact (faultsIn_expect _).bind fun _ => faultsIn_finish.map
  · refine .ite ?_ faultsIn_pure
    exact (arguments_fault hg).bind fun arguments => faultsIn_finish.map
  · exact faultsIn_pure

/-- A construction fails in its callee or in its arguments. -/
theorem head_faults (hg : g.FaultsIn cs) : Parse.FaultsIn cs g.head := by
  refine (faultsIn_look _).bind fun start =>
    (faultsIn_accept _).bind fun isNew => .ite ?_ (primary_faults hg)
  refine hg.callee.bind fun callee => (faultsIn_isAt _).bind fun isCall => ?_
  exact .choice (arguments_fault hg) faultsIn_pure
    fun arguments => faultsIn_finish

/-- Each part behind an operand is read from where the last one has ended. -/
theorem leftHand_faults (hg : g.FaultsIn cs) (calls : Bool) :
    Parse.FaultsIn cs (g.leftHand calls) := by
  refine (faultsIn_look _).bind fun start =>
    (head_faults hg).bind fun head => ?_
  exact .iterate (extend_faults hg calls start) head

/-- An operator in front fails in its operand; one behind does not fail. -/
theorem unaryExpression_faults (hg : g.FaultsIn cs) :
    Parse.FaultsIn cs g.unaryExpression := by
  refine (faultsIn_look _).bind fun token => .ite ?_ ?_
  · exact faultsIn_advance.bind fun _ =>
      hg.unary.bind fun operand => faultsIn_finish
  · refine (leftHand_faults hg true).bind fun operand =>
      (faultsIn_look _).bind fun next => .ite ?_ faultsIn_pure
    exact faultsIn_advance.bind fun _ => faultsIn_finish

/-- An operator that has been consumed fails in its right operand. -/
theorem binaryExpression_faults (hg : g.FaultsIn cs) (above : Nat)
    (noIn : Bool) : Parse.FaultsIn cs (g.binaryExpression above noIn) := by
  refine (faultsIn_look _).bind fun start =>
    (unaryExpression_faults hg).bind fun first => .iterate (fun left => ?_) _
  refine (faultsIn_look _).bind fun operator => .ite faultsIn_pure ?_
  refine faultsIn_advance.bind fun _ =>
    (hg.operand _ noIn).bind fun right => ?_
  exact faultsIn_finish.bind fun both => faultsIn_pure

/-- A condition may fail at the colon between its branches. -/
theorem conditional_faults (hg : g.FaultsIn cs) (noIn : Bool) :
    Parse.FaultsIn cs (g.conditional noIn) := by
  refine (faultsIn_look _).bind fun start =>
    (binaryExpression_faults hg 0 noIn).bind fun condition => ?_
  refine (faultsIn_accept _).bind fun isCondition => .ite ?_ faultsIn_pure
  refine (hg.assignment false).bind fun whenTrue =>
    (faultsIn_expect _).bind fun _ => ?_
  exact (hg.assignment noIn).bind fun whenFalse => faultsIn_finish

/-- A target that is none is a fault at the operator behind it. -/
theorem assignmentExpression_faults (hg : g.FaultsIn cs) (noIn : Bool) :
    Parse.FaultsIn cs (g.assignmentExpression noIn) := by
  refine (faultsIn_look _).bind fun start =>
    (conditional_faults hg noIn).bind fun left => ?_
  refine (faultsIn_look _).bind fun operator =>
    .ite (.ite ?_ faultsIn_fail) faultsIn_pure
  exact faultsIn_advance.bind fun _ =>
    (hg.assignment noIn).bind fun right => faultsIn_finish

-- ======================================================== declarations

/-- A variable fails at its name or in its initializer. -/
theorem declaration_faults (hg : g.FaultsIn cs) (noIn : Bool) :
    Parse.FaultsIn cs (g.declaration noIn) := by
  refine (faultsIn_look _).bind fun start =>
    (name_faults false).bind fun name => ?_
  refine (faultsIn_accept _).bind fun isInitialized => ?_
  exact .choice (hg.assignment noIn).map faultsIn_pure
    fun initializer => faultsIn_finish

/-- Of several variables one fails. -/
theorem declarations_fault (hg : g.FaultsIn cs) (noIn : Bool) :
    Parse.FaultsIn cs (g.declarations noIn) := by
  refine (faultsIn_look _).bind fun start =>
    (faultsIn_expect _).bind fun _ => ?_
  exact .bind (.separated (declaration_faults hg noIn))
    fun items => faultsIn_finish

-- ========================================================== conditions

/-- A condition fails inside or at a parenthesis. -/
theorem condition_faults (hg : g.FaultsIn cs) :
    Parse.FaultsIn cs g.condition := by
  refine (faultsIn_expect _).bind fun _ =>
    (expression_faults hg false).bind fun condition => ?_
  exact (faultsIn_expect _).bind fun _ => faultsIn_pure

/-- Where there is none, it does not fail. -/
theorem optionalExpression_faults (hg : g.FaultsIn cs) (stop : Punctuator) :
    Parse.FaultsIn cs (g.optionalExpression stop) :=
  (faultsIn_isAt _).bind fun _ =>
    .ite faultsIn_pure (expression_faults hg false).map

/-- A branch fails in one of its three parts. -/
theorem branch_faults (hg : g.FaultsIn cs) (s : Surroundings) :
    Parse.FaultsIn cs (g.branch s) := by
  refine (faultsIn_look _).bind fun start =>
    (faultsIn_expect _).bind fun _ => ?_
  refine (condition_faults hg).bind fun condition =>
    (hg.statement s).bind fun consequent => ?_
  refine (faultsIn_accept _).bind fun isElse => ?_
  exact .choice (hg.statement s).map faultsIn_pure
    fun alternative => faultsIn_finish

-- =============================================================== loops

/-- Several variables in front of `in` are a fault at the token behind it. -/
theorem forInTail_faults (hg : g.FaultsIn cs) (s : Surroundings)
    (start : Nat) (target : Tree) :
    Parse.FaultsIn cs (g.forInTail s start target) := by
  refine .ite faultsIn_fail ((expression_faults hg false).bind
    fun subject => (faultsIn_expect _).bind fun _ => ?_)
  exact (hg.statement _).bind fun body => faultsIn_finish

/-- The three expressions in the head of a loop may be missing, the semicolons
may not. -/
theorem forTail_faults (hg : g.FaultsIn cs) (s : Surroundings)
    (start : Nat) (initializer : Option Tree) :
    Parse.FaultsIn cs (g.forTail s start initializer) := by
  refine (faultsIn_expect _).bind fun _ =>
    (optionalExpression_faults hg _).bind fun condition => ?_
  refine (faultsIn_expect _).bind fun _ =>
    (optionalExpression_faults hg _).bind fun step => ?_
  exact (faultsIn_expect _).bind fun _ =>
    (hg.statement _).bind fun body => faultsIn_finish

/-- A loop of either kind fails in its head or in its body. -/
theorem forLoop_faults (hg : g.FaultsIn cs) (s : Surroundings) :
    Parse.FaultsIn cs (g.forLoop s) := by
  refine (faultsIn_look _).bind fun start =>
    (faultsIn_expect _).bind fun _ => (faultsIn_expect _).bind fun _ => ?_
  refine (faultsIn_look _).bind fun kind => ?_
  split
  · exact forTail_faults hg s start none
  · refine .choice (declarations_fault hg true) (expression_faults hg true)
      fun first => (faultsIn_accept _).bind fun isIn => ?_
    exact .ite (forInTail_faults hg s start first)
      (forTail_faults hg s start (some first))

/-- A loop fails in its condition or in its body. -/
theorem whileLoop_faults (hg : g.FaultsIn cs) (s : Surroundings) :
    Parse.FaultsIn cs (g.whileLoop s) := by
  refine (faultsIn_look _).bind fun start =>
    (faultsIn_expect _).bind fun _ => ?_
  exact (condition_faults hg).bind fun condition =>
    (hg.statement _).bind fun body => faultsIn_finish

/-- A loop with its condition behind fails in its body or in the condition. -/
theorem doWhile_faults (hg : g.FaultsIn cs) (s : Surroundings) :
    Parse.FaultsIn cs (g.doWhile s) := by
  refine (faultsIn_look _).bind fun start =>
    (faultsIn_expect _).bind fun _ => ?_
  refine (hg.statement _).bind fun body => (faultsIn_expect _).bind fun _ => ?_
  refine (condition_faults hg).bind fun condition => ?_
  exact (faultsIn_accept _).bind fun _ => faultsIn_finish

-- =============================================================== jumps

/-- A jump out of place is found at its keyword, which has been consumed
by then. -/
theorem jump_faults (s : Surroundings) : Parse.FaultsIn cs (jump s) := by
  refine .behind_here fun start hstart => ?_
  refine (faultsIn_isAt _).bind fun isBreak => faultsIn_advance.bind fun _ =>
    (faultsIn_look _).bind fun token => ?_
  refine .choice (name_faults false).map faultsIn_pure fun label => ?_
  refine .ite (faultsIn_failAt hstart) (.ite (faultsIn_failAt hstart) ?_)
  exact faultsIn_endStatement.bind fun _ => faultsIn_finish

/-- Outside of functions, `return` is a fault where it stands. -/
theorem returning_faults (hg : g.FaultsIn cs) (s : Surroundings) :
    Parse.FaultsIn cs (g.returning s) := by
  refine .ite faultsIn_fail ((faultsIn_look _).bind fun start =>
    (faultsIn_expect _).bind fun _ => (faultsIn_look _).bind fun mayEnd => ?_)
  refine .choice faultsIn_pure (expression_faults hg false).map fun value => ?_
  exact faultsIn_endStatement.bind fun _ => faultsIn_finish

/-- A line break behind `throw` is a fault at the token behind the break. -/
theorem throwing_faults (hg : g.FaultsIn cs) :
    Parse.FaultsIn cs g.throwing := by
  refine (faultsIn_look _).bind fun start =>
    (faultsIn_expect _).bind fun _ => (faultsIn_look _).bind fun isBroken => ?_
  refine .ite faultsIn_fail ((expression_faults hg false).bind fun value => ?_)
  exact faultsIn_endStatement.bind fun _ => faultsIn_finish

/-- Without a handler and a last block, the fault is behind the first one. -/
theorem trying_faults (hg : g.FaultsIn cs) (s : Surroundings) :
    Parse.FaultsIn cs (g.trying s) := by
  refine (faultsIn_look _).bind fun start =>
    (faultsIn_expect _).bind fun _ => (block_faults hg s).bind fun body => ?_
  refine (faultsIn_accept _).bind fun isCaught => .ite ?_
    (faultsIn_pure.bind ?rest)
  · refine (faultsIn_expect _).bind fun _ =>
      (name_faults false).bind fun caught => (faultsIn_expect _).bind fun _ => ?_
    exact (block_faults hg s).map.map.bind ?rest
  · intro handler
    refine (faultsIn_accept _).bind fun isCleaned => ?_
    exact .choice (block_faults hg s).map faultsIn_pure
      fun cleanup => .ite faultsIn_fail faultsIn_finish

-- ============================================================== switch

/-- What is neither a case nor the first default is a fault where it stands. -/
theorem clauseTest_faults (hg : g.FaultsIn cs) (hasDefault : Bool) :
    Parse.FaultsIn cs (g.clauseTest hasDefault) := by
  refine (faultsIn_look _).bind fun kind => ?_
  split
  · exact faultsIn_advance.bind fun _ => (expression_faults hg false).map
  · exact .ite faultsIn_fail (faultsIn_advance.bind fun _ => faultsIn_pure)
  · exact faultsIn_fail

/-- A clause fails in its test, at the colon or in its statements. -/
theorem clause_faults (hg : g.FaultsIn cs) (s : Surroundings)
    (hasDefault : Bool) : Parse.FaultsIn cs (g.clause s hasDefault) := by
  refine (faultsIn_look _).bind fun start =>
    (clauseTest_faults hg hasDefault).bind fun test => ?_
  refine (faultsIn_expect _).bind fun _ =>
    (statements_fault hg _).bind fun statements => ?_
  exact faultsIn_finish.bind fun clause => faultsIn_pure

/-- A switch statement fails in its subject or in one of its clauses. -/
theorem switch_faults (hg : g.FaultsIn cs) (s : Surroundings) :
    Parse.FaultsIn cs (g.switch s) := by
  refine (faultsIn_look _).bind fun start =>
    (faultsIn_expect _).bind fun _ => (condition_faults hg).bind
      fun subject => (faultsIn_expect _).bind fun _ => ?_
  refine .bind (.iterate (fun state => ?_) _) fun clauses =>
    (faultsIn_expect _).bind fun _ => faultsIn_finish
  refine (faultsIn_isAt _).bind fun isClosed => .ite faultsIn_pure ?_
  exact (clause_faults hg s _).bind fun clause => faultsIn_pure

-- ========================================================== statements

/-- Behind a label, the statement fails; without one, the expression or the
end. -/
theorem expressionStatement_faults (hg : g.FaultsIn cs)
    (s : Surroundings) : Parse.FaultsIn cs (g.expressionStatement s) := by
  refine (faultsIn_look _).bind fun token =>
    (expression_faults hg false).bind fun value => ?_
  refine (faultsIn_isAt _).bind fun isColon => .ite ?_ ?_
  · exact faultsIn_advance.bind fun _ =>
      (hg.statement s).bind fun statement => faultsIn_finish
  · exact faultsIn_endStatement.bind fun _ => faultsIn_finish

/-- The statement that the current token begins. A `with` is a fault at that
token, which has been looked at but not consumed. -/
theorem statementHere_faults (hg : g.FaultsIn cs) (s : Surroundings) :
    Parse.FaultsIn cs (g.statementHere s) := by
  refine .behind_token fun token htoken => ?_
  split
  case h_1 => exact block_faults hg s
  case h_2 => exact atom_faults .empty
  case h_3 =>
      exact faultsIn_advance.bind fun _ =>
        faultsIn_endStatement.bind fun _ => faultsIn_finish
  case h_4 =>
      exact (declarations_fault hg false).bind fun statement =>
        faultsIn_endStatement.bind fun _ => faultsIn_pure
  case h_5 =>
      exact (function_faults hg true).bind fun function => faultsIn_pure
  case h_6 => exact branch_faults hg s
  case h_7 => exact forLoop_faults hg s
  case h_8 => exact whileLoop_faults hg s
  case h_9 => exact doWhile_faults hg s
  case h_10 => exact jump_faults s
  case h_11 => exact jump_faults s
  case h_12 => exact returning_faults hg s
  case h_13 => exact throwing_faults hg
  case h_14 => exact trying_faults hg s
  case h_15 => exact switch_faults hg s
  case h_16 =>
      exact .ite (faultsIn_failAt htoken.start_on)
        (expressionStatement_faults hg s)
  case h_17 => exact expressionStatement_faults hg s

-- =============================================================== depth

/-- Where no level is left, everything fails at the current token. -/
theorem faultsIn_exhausted : exhausted.FaultsIn cs where
  assignment _ := faultsIn_fail
  operand _ _ := faultsIn_fail
  unary := faultsIn_fail
  callee := faultsIn_fail
  statement _ := faultsIn_fail

/-- One level further out, the faults are those of the productions. -/
theorem FaultsIn.outer (hg : g.FaultsIn cs) : g.outer.FaultsIn cs where
  assignment := assignmentExpression_faults hg
  operand := binaryExpression_faults hg
  unary := unaryExpression_faults hg
  callee := leftHand_faults hg false
  statement := statementHere_faults hg

/-- So the grammar of any number of levels fails in the text. -/
theorem faultsIn_levels (n : Nat) : (levels n).FaultsIn cs := by
  induction n with
  | zero => exact faultsIn_exhausted
  | succ n ih => exact ih.outer

-- ============================================================ programs

/-- A comment that is left open behind the last statement is found where
it begins. -/
theorem program_faults (hg : g.FaultsIn cs) :
    Parse.FaultsIn cs g.program := by
  refine .bind (.many ((faultsIn_isAt _).bind fun isEnd =>
    .ite faultsIn_pure ?_)) fun statements =>
      .behind_token fun token htoken => ?_
  · exact (hg.statement {}).bind fun statement => faultsIn_pure
  · split
    · rename_i offset hcomment
      exact faultsIn_failAt (htoken.openComment_on offset hcomment)
    · exact faultsIn_pure

end Grammar

/-- The error in a text that is no program lies between characters of the
text. -/
theorem Tree.onBoundary_of_parse {text : String} {e : SyntaxError}
    (h : Tree.parse text = .error e) : OnBoundary text.toList e.offset := by
  have hlevels : (Grammar.levels Grammar.maxDepth).FaultsIn text.toList :=
    Grammar.faultsIn_levels _
  have hfaults := Grammar.program_faults hlevels
  rcases Tree.parse_of_meets (hfaults _ (Lexeme.first_standsIn text)) with
    ⟨e', he', hplace⟩ | ⟨tree, cursor, htree, -⟩
  · cases h.symm.trans he'
    exact hplace
  · cases h.symm.trans htree

instance {text : String} {e : SyntaxError} :
    Decidable (Tree.parse text = .error e) :=
  match Tree.parse text with
  | .error e' => decidable_of_iff (e' = e) ⟨congrArg _, Except.error.inj⟩
  | .ok _ => isFalse nofun

/-- A place between characters is not behind the last one. -/
theorem OnBoundary.le_byteLength {n : Nat} (h : OnBoundary cs n) :
    n ≤ byteLength cs := by
  obtain ⟨front, back, rfl, rfl⟩ := h
  rw [byteLength_append]
  exact Nat.le_add_right _ _

end ScriptLint
