/-
Parsing with counters comes to what parsing by levels does. With the
counters at given depths, a parser that counts follows the one that has as
many levels as are left there and is told what the counters say about its
surroundings: it ends with the same result at the same cursor, and the
counters are where they were (`Counting.Follows`). The relation is kept by
sequences, by loops and by every change of the counters that is undone, and
so by all parsers of a grammar if it is by those for the level further in
(`CountingGrammar.Agrees`).

A loop follows another one only if it is not endless. Its step has to read
something whenever it does not decline (`Parse.Consumes`), which is seen
from what the steps derive.

What is asked of the parser that does not count is little: where it starts
from a place that scanning the text can come to, it must end in one
(`Stays`). That is a matter of its steps, none of which does anything to
the cursor but scan on, and it is what lets a loop compare places: two
places that scanning can come to are apart exactly if something was read
between them.

The proof of each parser has the shape of the parser. A step that is shared
by both sides is gone past with `Follows.behind`; where both sides ask the
same question of the token, both are split by the answer (`Follows.ite`,
`Follows.choice`, or `split` where the question is a pattern); and what the
grammar further in has to say is a field of `Agrees`. So when a production
changes, it is its own lemma that has to change, step for step.

The counters come in at five places only: `nested`, `inLoop`, `inSwitch`,
`inFunction` and the look at them that tells what surrounds a statement.
`nested` is the one that can fail. It does so where no level is left, which
is where the grammar by levels has come to its floor, and both have the
same error there (`follows_nested_of_le`).
-/
import ScriptLint.Proofs.Parse.Counting
import ScriptLint.Proofs.Parse.Derivation

namespace ScriptLint

open Parse

variable {text : String} {d : Depths}

-- =============================================================== staying

namespace Parse

variable {α β : Type} {p q : Parse α}

/-- A parser that stays where parsing may come to. -/
def Stays (text : String) (p : Parse α) : Prop :=
  ∀ cursor : Cursor, cursor.Reached text →
    Meets p cursor (fun _ cursor' => cursor'.Reached text) fun _ => True

/-- Giving a result moves nothing. -/
theorem stays_pure {a : α} : Stays text (pure a) := fun _ h => h

/-- Looking moves nothing. -/
theorem stays_look (f : Cursor → α) : Stays text (look f) := fun _ h => h

/-- A failure has no place to come to. -/
theorem stays_fail {fault : SyntaxFault} :
    Stays text (fail fault : Parse α) := fun _ _ => trivial

/-- A failure that names a place of its own comes to no place either. -/
theorem stays_failAt {offset : Nat} {fault : SyntaxFault} :
    Stays text (failAt offset fault : Parse α) := fun _ _ => trivial

/-- Going on scans the next token. -/
theorem stays_advance : Stays text advance := fun _ h => h.next

/-- Reading a slash again is the only other way to move. -/
theorem stays_enterRegex : Stays text enterRegex := fun _ h => h.asRegex

/-- What stays goes on with what stays. -/
theorem Stays.bind {f : α → Parse β} (hp : Stays text p)
    (hf : ∀ a, Stays text (f a)) : Stays text (p >>= f) :=
  fun cursor h => (hp cursor h).bind fun a cursor' h' => hf a cursor' h'

theorem Stays.map {f : α → β} (hp : Stays text p) :
    Stays text (f <$> p) :=
  fun cursor h => meets_map.2 (hp cursor h)

/-- Whichever way a condition is decided, the parser stays. -/
theorem Stays.ite {c : Prop} [Decidable c] (hp : Stays text p)
    (hq : Stays text q) : Stays text (if c then p else q) := by
  split
  · exact hp
  · exact hq

theorem stays_here : Stays text here := stays_look _

theorem stays_isAt (kind : TokenKind) : Stays text (isAt kind) :=
  stays_look _

theorem stays_finish {start : Nat} {form : Form (Option Tree)} :
    Stays text (finish start form) := stays_look _

/-- Taking a token or leaving it. -/
theorem stays_accept (kind : TokenKind) : Stays text (accept kind) :=
  (stays_isAt kind).bind fun _ =>
    .ite (stays_advance.bind fun _ => stays_pure) stays_pure

theorem stays_expect (kind : TokenKind) : Stays text (expect kind) :=
  (stays_accept kind).bind fun _ => .ite stays_pure stays_fail

/-- The end of a statement is a semicolon, or a place where one may be left
out. -/
theorem stays_endStatement : Stays text endStatement :=
  (stays_accept _).bind fun _ => .ite stays_pure
    ((stays_look mayEnd).bind fun _ => .ite stays_pure stays_fail)

/-- A name is one token. -/
theorem stays_name (orKeyword : Bool) : Stays text (name orKeyword) :=
  (stays_look _).bind fun _ =>
    .ite (stays_advance.bind fun _ => stays_finish) stays_fail

/-- A literal is one token; before a regular expression, its slash has been
read again. -/
theorem stays_literal : Stays text literal :=
  (stays_look _).bind fun _ =>
    .ite stays_fail (stays_advance.bind fun _ => stays_finish)

theorem stays_atom (form : Form (Option Tree)) : Stays text (atom form) :=
  stays_here.bind fun _ => stays_advance.bind fun _ => stays_finish

/-- A jump may have a label behind it; what surrounds it decides only whether
it fails. -/
theorem stays_jump (s : Surroundings) : Stays text (Grammar.jump s) := by
  refine stays_here.bind fun start => (stays_isAt _).bind fun isBreak => ?_
  refine stays_advance.bind fun _ => (stays_look _).bind fun token => ?_
  have hrest : ∀ label : Option Tree, Stays text (do
      if label.isNone && isBreak && !s.inLoop && !s.inSwitch then
        failAt start .breakOutside
      else if label.isNone && !isBreak && !s.inLoop then
        failAt start .continueOutside
      else
        endStatement
        finish start
          (if isBreak then .breaking label else .continuing label)) :=
    fun label => .ite stays_failAt (.ite stays_failAt
      (stays_endStatement.bind fun _ => stays_finish))
  exact .ite ((stays_name false).map.bind hrest) (stays_pure.bind hrest)

/-- A step that declines, or reads something. -/
def Consumes (step : Parse (Option α)) : Prop :=
  ∀ cursor, Meets step cursor
    (fun r cursor' => r = none ∨ ∃ parts, Derives cursor parts cursor')
    fun _ => True

end Parse

-- ============================================================= following

namespace Counting

variable {α β σ : Type}

/-- A sequence goes on where its first part has succeeded. -/
theorem run_bind (c : Counting α) (f : α → Counting β) (tally : Tally) :
    (c >>= f).run.run tally = match c.run.run tally with
      | (.ok a, tally) => (f a).run.run tally
      | (.error halt, tally) => (.error halt, tally) := by
  rw [ExceptT.run_bind, StateT.run_bind]
  rcases c.run.run tally with ⟨_ | _, _⟩ <;> rfl

/-- What a parser that counts comes to is what one that does not count comes
to, the counters are where they were, and what was entered on the way is no
deeper than is allowed. -/
def Matches (d : Depths) (deepest : Nat) (outcome : Except Halt α × Tally)
    (plain : Except SyntaxError α × Cursor) : Prop :=
  ∃ later, deepest ≤ later ∧ later ≤ max deepest Grammar.maxDepth
    ∧ outcome = (plain.1.mapError .error, ⟨plain.2, d, later⟩)

/-- A parser that leaves the counters alone matches itself. -/
theorem matches_self (d : Depths) (deepest : Nat)
    (plain : Except SyntaxError α × Cursor) :
    Matches d deepest (plain.1.mapError .error, ⟨plain.2, d, deepest⟩)
      plain :=
  ⟨deepest, Nat.le_refl _, Nat.le_max_left _ _, rfl⟩

/-- With the counters at given depths, a parser that counts does what
another does. -/
structure Follows (text : String) (d : Depths) (c : Counting α)
    (p : Parse α) : Prop where
  stays : Stays text p
  runs (cursor : Cursor) (deepest : Nat) : cursor.Reached text →
    Matches d deepest (c.run.run ⟨cursor, d, deepest⟩) (p.run.run cursor)

variable {c c' : Counting α} {p p' : Parse α}

/-- What is taken over as it is has nothing to do with the counters. -/
theorem Follows.lift (hp : Stays text p) : Follows text d (liftM p) p where
  stays := hp
  runs cursor deepest _ := by
    have hlift : Counting.lift p ⟨cursor, d, deepest⟩
        = ((p.run.run cursor).1.mapError .error,
          ⟨(p.run.run cursor).2, d, deepest⟩) := by
      unfold Counting.lift
      rcases p.run.run cursor with ⟨_ | _, _⟩ <;> rfl
    show Matches d deepest (Counting.lift p ⟨cursor, d, deepest⟩) _
    rw [hlift]
    exact matches_self d deepest _

/-- A result is given at the same place. -/
theorem Follows.pure {a : α} : Follows text d (pure a) (pure a) where
  stays := stays_pure
  runs cursor deepest _ := matches_self d deepest (.ok a, cursor)

/-- The second part starts where the first has ended, with the counters where
they were. -/
theorem Follows.bind {f : α → Counting β} {f' : α → Parse β}
    (hc : Follows text d c p) (hf : ∀ a, Follows text d (f a) (f' a)) :
    Follows text d (c >>= f) (p >>= f') where
  stays := hc.stays.bind fun a => (hf a).stays
  runs cursor deepest hcursor := by
    obtain ⟨middle, hle, hmax, hrun⟩ := hc.runs cursor deepest hcursor
    rw [Counting.run_bind, Parse.run_bind, hrun]
    rcases hplain : p.run.run cursor with ⟨e | a, cursor'⟩
    · exact ⟨middle, hle, hmax, rfl⟩
    · have hcursor' := (hc.stays cursor hcursor).of_ok hplain
      obtain ⟨later, hle', hmax', hrun'⟩ :=
        (hf a).runs cursor' middle hcursor'
      exact ⟨later, by omega, by omega, hrun'⟩

/-- The results may be changed in the same way on both sides. -/
theorem Follows.map {f : α → β} (hc : Follows text d c p) :
    Follows text d (f <$> c) (f <$> p) := by
  rw [map_eq_pure_bind, map_eq_pure_bind]
  exact hc.bind fun _ => .pure

/-- Behind a step that has nothing to count. -/
theorem Follows.behind {f : α → Counting β} {f' : α → Parse β}
    (hp : Stays text p) (hf : ∀ a, Follows text d (f a) (f' a)) :
    Follows text d (liftM p >>= f) (p >>= f') :=
  (Follows.lift hp).bind hf

/-- Both sides decide the same condition. -/
theorem Follows.ite {h : Prop} [Decidable h] (hc : Follows text d c p)
    (hc' : Follows text d c' p') :
    Follows text d (if h then c else c') (if h then p else p') := by
  split
  · exact hc
  · exact hc'

/-- Behind a look at the counters. -/
theorem Follows.behind_depths {f : Depths → Counting α}
    (hf : Follows text d (f d) p) :
    Follows text d (Counting.depths >>= f) p where
  stays := hf.stays
  runs := hf.runs

/-- Two ways to go, with the same continuation behind both. -/
theorem Follows.choice {h : Prop} [Decidable h] {f : α → Counting β}
    {f' : α → Parse β} (hc : Follows text d c p)
    (hc' : Follows text d c' p') (hf : ∀ a, Follows text d (f a) (f' a)) :
    Follows text d (if h then c >>= f else c' >>= f)
      (if h then p >>= f' else p' >>= f') :=
  (hc.bind hf).ite (hc'.bind hf)

-- =============================================================== loops

/-- A loop whose step always consumes something is not endless. -/
theorem Follows.iterate {step : σ → Counting (Option σ)}
    {step' : σ → Parse (Option σ)}
    (hstep : ∀ state, Follows text d (step state) (step' state))
    (hmore : ∀ state, Consumes (step' state)) (state : σ) :
    Follows text d (Counting.iterate step state)
      (Parse.iterate step' state) where
  stays cursor hcursor := by
    refine Meets.iterate (I := fun _ cursor' => cursor'.Reached text)
      (fun state middle hmiddle => ?_) hcursor
    exact (hstep state).stays middle hmiddle
  runs cursor deepest hcursor := by
    show Matches d deepest
      (Counting.iterate step state ⟨cursor, d, deepest⟩)
      (Parse.iterate step' state cursor)
    induction hn : cursor.remaining using Nat.strongRecOn
      generalizing state cursor deepest with
    | _ n ih =>
        obtain ⟨middle, hle, hmax, hrun⟩ :=
          (hstep state).runs cursor deepest hcursor
        rw [Counting.iterate, Parse.iterate, hrun]
        rcases hplain : (step' state).run.run cursor
          with ⟨e | _ | state', cursor'⟩
        · exact ⟨middle, hle, hmax, rfl⟩
        · exact ⟨middle, hle, hmax, rfl⟩
        -- a step that has succeeded has read something, so less of the text is
        -- left and the loop goes on to the same place on both sides
        -- a step that goes on has consumed something, which both loops ask for
        · have hread := (hmore state cursor).of_ok hplain
          obtain ⟨parts, hderives⟩ := hread.resolve_left (by simp)
          have hlt := hderives.remaining_lt hcursor
          dsimp only [Except.mapError]
          rw [if_pos hlt, if_pos hlt]
          obtain ⟨later, hle', hmax', hrun'⟩ := ih _ (hn ▸ hlt) state'
            cursor' middle (hderives.reached hcursor) rfl
          exact ⟨later, by omega, by omega, hrun'⟩

/-- Many of the same, as long as each that is not the last one reads
something. -/
theorem Follows.many {step : Counting (Option α)}
    {step' : Parse (Option α)} (hstep : Follows text d step step')
    (hmore : Consumes step') :
    Follows text d (Counting.many step) (Parse.many step') := by
  refine .bind (.iterate (fun done => ?_) (fun done => ?_) []) fun _ => .pure
  · exact hstep.bind fun result => .pure
  · intro cursor
    refine (hmore cursor).bind fun r cursor' hr => meets_pure.2 ?_
    rcases hr with rfl | hr
    · exact .inl rfl
    · exact .inr hr

/-- Parts with commas between them: the comma is what a further round reads. -/
theorem Follows.separated {parts : α → List Part}
    (hc : Follows text d c p) (hp : Derived p parts) :
    Follows text d (Counting.separated c) (Parse.separated p) := by
  refine .bind hc fun first => .bind (.many ?_ ?_) fun more => .pure
  · exact .behind (stays_accept _) fun taken => .ite hc.map .pure
  · intro cursor
    refine meets_accept_bind (fun hkind => ?_) (meets_pure.2 (.inl rfl))
    have hcomma : Derives cursor [] cursor.next :=
      .token (.plain (hkind ▸ isPlain_punctuator _))
    exact meets_map.2 ((hp cursor.next).mono
      (fun a cursor' ha => .inr ⟨_, hcomma.append ha⟩) fun _ => id)

-- =============================================================== depth

/-- A change of the counters behind a parser undoes one in front of it. -/
theorem Matches.thenChange {into : Depths} {deepest : Nat} {tally : Tally}
    {plain : Except SyntaxError α × Cursor}
    (h : Matches into deepest (c.run.run tally) plain)
    (back : Depths → Depths) (hback : back into = d) :
    Matches d deepest ((c.thenChange back).run.run tally) plain := by
  obtain ⟨later, hle, hmax, hrun⟩ := h
  refine ⟨later, hle, hmax, ?_⟩
  have hchange : (c.thenChange back).run.run tally
      = ((c.run.run tally).1, { (c.run.run tally).2 with
          depths := back (c.run.run tally).2.depths }) := rfl
  rw [hchange, hrun, hback]

/-- Between a change of the counters and one that undoes it. -/
theorem Follows.within (into back : Depths → Depths)
    (hc : Follows text (into d) c p) (hback : back (into d) = d) :
    Follows text d (do change into; c.thenChange back) p where
  stays := hc.stays
  runs cursor deepest hcursor :=
    (hc.runs cursor deepest hcursor).thenChange back hback

/-- The body of a loop is parsed with one loop more around it. -/
theorem Follows.inLoop
    (hc : Follows text { d with loops := d.loops + 1 } c p) :
    Follows text d (Counting.inLoop c) p :=
  hc.within (fun depths => { depths with loops := depths.loops + 1 }) _ rfl

/-- A clause is parsed with one switch statement more around it. -/
theorem Follows.inSwitch
    (hc : Follows text { d with switches := d.switches + 1 } c p) :
    Follows text d (Counting.inSwitch c) p :=
  hc.within (fun depths => { depths with switches := depths.switches + 1 })
    _ rfl

/-- A function body is within no loop and no switch statement, whatever the
function stands in; what was counted there is put back behind it, not counted
down. -/
theorem Follows.inFunction
    (hc : Follows text
      { d with functions := d.functions + 1, loops := 0, switches := 0 }
      c p) :
    Follows text d (Counting.inFunction c) p where
  stays := hc.stays
  runs := by
    have hwithin := Follows.within
      (fun depths => { depths with
        functions := depths.functions + 1, loops := 0, switches := 0 })
      (fun depths => { depths with
        functions := depths.functions - 1
        loops := d.loops
        switches := d.switches }) hc rfl
    exact hwithin.runs

/-- One level further in. -/
theorem Follows.nested (hlevel : d.nesting < Grammar.maxDepth)
    (hc : Follows text { d with nesting := d.nesting + 1 } c p) :
    Follows text d (Counting.nested c) p where
  stays := hc.stays
  runs cursor deepest hcursor := by
    have henter : Counting.enter.run.run ⟨cursor, d, deepest⟩
        = (.ok (), ⟨cursor, { d with nesting := d.nesting + 1 },
          max deepest (d.nesting + 1)⟩) := by
      show (if Grammar.maxDepth ≤ d.nesting then _ else deepen :
        Counting Unit).run.run ⟨cursor, d, deepest⟩ = _
      rw [if_neg (Nat.not_le.2 hlevel)]
      rfl
    rw [Counting.nested, run_bind, henter]
    obtain ⟨later, hle, hmax, hrun⟩ :=
      (hc.runs cursor (max deepest (d.nesting + 1)) hcursor).thenChange
        (fun depths => { depths with nesting := depths.nesting - 1 })
        (Eq.refl d)
    exact ⟨later, by omega, by omega, hrun⟩

/-- Where no level is left, it fails at the current token. -/
theorem follows_nested_of_le (c : Counting α)
    (hlevel : Grammar.maxDepth ≤ d.nesting) :
    Follows text d (Counting.nested c) (fail .tooDeep) where
  stays := stays_fail
  runs cursor deepest _ := by
    have henter : Counting.enter.run.run ⟨cursor, d, deepest⟩
        = (.error (.error (cursor.error .tooDeep)),
          ⟨cursor, d, deepest⟩) := by
      show (if Grammar.maxDepth ≤ d.nesting then liftM (fail .tooDeep)
        else deepen : Counting Unit).run.run ⟨cursor, d, deepest⟩ = _
      rw [if_pos hlevel]
      rfl
    rw [Counting.nested, run_bind, henter]
    exact matches_self d deepest (.error (cursor.error .tooDeep), cursor)

end Counting

-- ============================================================== grammar

namespace CountingGrammar

open Counting (Follows)
open Grammar (arguments_derived clause_derived declaration_makes
  expression_derived property_makes)

/-- A grammar that counts, asked where constructs nest to a given depth,
parses as another grammar does. -/
structure Agrees (text : String) (counting : CountingGrammar) (g : Grammar)
    (nesting : Nat) : Prop where
  derived : g.IsDerived
  assignment (d : Depths) (noIn : Bool) : d.nesting = nesting →
    Follows text d (counting.assignment noIn) (g.assignment noIn)
  operand (d : Depths) (above : Nat) (noIn : Bool) : d.nesting = nesting →
    Follows text d (counting.operand above noIn) (g.operand above noIn)
  unary (d : Depths) : d.nesting = nesting →
    Follows text d counting.unary g.unary
  callee (d : Depths) : d.nesting = nesting →
    Follows text d counting.callee g.callee
  statement (d : Depths) : d.nesting = nesting →
    Follows text d counting.statement (g.statement d.surroundings)

variable {counting : CountingGrammar} {g : Grammar}

-- ==================================================== whole expressions

/-- A comma between two operands is read in each round. -/
theorem expression_follows (h : counting.Agrees text g d.nesting)
    (noIn : Bool) :
    Follows text d (counting.expression noIn) (g.expression noIn) := by
  refine .behind stays_here fun start => ?_
  refine .bind (h.assignment d noIn rfl) fun first => .iterate ?_ ?_ first
  · intro left
    refine .behind (stays_accept _) fun taken => .ite ?_ .pure
    refine .bind (h.assignment d noIn rfl) fun right => ?_
    exact .behind stays_finish fun both => .pure
  · intro left cursor
    refine meets_accept_bind (fun hkind => ?_) (meets_pure.2 (.inl rfl))
    have hcomma : Derives cursor [] cursor.next :=
      .token (.plain (hkind ▸ isPlain_punctuator _))
    refine hcomma.tree (h.derived.assignment noIn).derived
      fun right cursor' hright => ?_
    exact meets_bind.2 (meets_finish.2 (.inr ⟨_, hright⟩))

/-- Arguments stand in parentheses, none or several. -/
theorem arguments_follows (h : counting.Agrees text g d.nesting) :
    Follows text d counting.arguments g.arguments := by
  refine .behind (stays_expect _) fun _ => ?_
  refine .behind (stays_isAt _) fun isClosed => ?_
  refine .choice .pure (.separated (h.assignment d false rfl)
    (h.derived.assignment false).derived) fun items => ?_
  exact .behind (stays_expect _) fun _ => .pure

-- ============================================================ functions

/-- Statements go on until a brace, a clause or the end of the text stops them,
and each of them reads something. -/
theorem statements_follows (h : counting.Agrees text g d.nesting) :
    Follows text d counting.statements (g.statements d.surroundings) := by
  refine .many (.behind (stays_look _) fun kind => ?_) fun cursor => ?_
  · split
    case h_5 =>
        simpa only [*] using (h.statement d rfl).bind fun _ => Follows.pure
    all_goals exact .pure
  · refine meets_look_bind.2 ?_
    split
    case h_5 =>
        exact (h.derived.statement d.surroundings cursor).bind
          fun tree cursor' htree => meets_pure.2 (.inr ⟨_, htree⟩)
    all_goals exact meets_pure.2 (.inl rfl)

/-- A block is statements in braces. -/
theorem block_follows (h : counting.Agrees text g d.nesting) :
    Follows text d counting.block (g.block d.surroundings) := by
  refine .behind stays_here fun start => ?_
  refine .behind (stays_expect _) fun _ => ?_
  refine .bind (statements_follows h) fun statements => ?_
  exact .behind (stays_expect _) fun _ => .lift stays_finish

/-- The body is the one part of a function where the counters differ from those
around it. -/
theorem function_follows (h : counting.Agrees text g d.nesting)
    (isDeclaration : Bool) :
    Follows text d (counting.function isDeclaration)
      (g.function isDeclaration) := by
  refine .behind stays_here fun start => ?_
  refine .behind (stays_expect _) fun _ => ?_
  refine .behind (stays_isAt _) fun isNamed => ?_
  have hname : Follows text d (some <$> liftM (Parse.name false))
      (some <$> Parse.name false) := .map (.lift (stays_name false))
  -- with a name or without one, the rest of the function is the same
  suffices hrest : _ from .ite (hname.bind hrest)
    (.choice hname .pure hrest)
  intro name
  refine .behind (stays_expect _) fun _ => ?_
  refine .behind (stays_isAt _) fun isClosed => ?_
  refine .choice .pure (.separated (.lift (stays_name false))
    (name_makes false).derived) fun parameters => ?_
  refine .behind (stays_expect _) fun _ => ?_
  refine .bind (.inFunction (block_follows h)) fun body => ?_
  exact .lift stays_finish

-- ============================================================= literals

/-- An element of an array is a hole or an expression, and either is read up to
the comma behind it. -/
theorem array_follows (h : counting.Agrees text g d.nesting) :
    Follows text d counting.array g.array := by
  refine .behind stays_here fun start => ?_
  refine .behind (stays_expect _) fun _ => .bind (.iterate ?_ ?_ _)
    fun elements => .behind (stays_expect _) fun _ => .lift stays_finish
  · rintro ⟨done, more⟩
    refine .behind (stays_isAt _) fun isClosed => .ite .pure ?_
    refine .behind (stays_accept _) fun isHole => .ite .pure ?_
    refine .bind (h.assignment d false rfl) fun element => ?_
    exact .behind (stays_accept _) fun isMore => .pure
  · rintro ⟨done, more⟩ cursor
    refine meets_look_bind.2 (meets_ite (meets_pure.2 (.inl rfl)) ?_)
    refine meets_accept_bind (fun hkind => meets_pure.2 (.inr ⟨[], ?_⟩)) ?_
    · exact .token (.plain (hkind ▸ isPlain_punctuator _))
    · have helement := (h.derived.assignment false).derived
      refine (helement cursor).bind fun element cursor' helement => ?_
      refine helement.accept (isPlain_punctuator _) fun isMore cursor' h => ?_
      exact meets_pure.2 (.inr ⟨_, h⟩)

/-- A property is a key of any sort and a value; accessors fail where their
name stands. -/
theorem property_follows (h : counting.Agrees text g d.nesting) :
    Follows text d counting.property g.property := by
  refine .behind (stays_look _) fun token => ?_
  suffices hrest : _ by
    generalize token.kind = kind
    split
    case h_3 => simpa only [*] using Follows.behind (stays_name true) hrest
    all_goals exact .behind stays_literal hrest
  intro key
  refine .behind (stays_isAt _) fun isNamed => .ite (.lift stays_failAt) ?_
  refine .behind (stays_expect _) fun _ => ?_
  refine .bind (h.assignment d false rfl) fun value => ?_
  exact .lift stays_finish

/-- Properties are read up to the comma behind them. -/
theorem object_follows (h : counting.Agrees text g d.nesting) :
    Follows text d counting.object g.object := by
  refine .behind stays_here fun start => ?_
  refine .behind (stays_expect _) fun _ => .bind (.iterate ?_ ?_ _)
    fun properties => .behind (stays_expect _) fun _ => .lift stays_finish
  · rintro ⟨done, more⟩
    refine .behind (stays_isAt _) fun isClosed => .ite .pure ?_
    refine .bind (property_follows h) fun property => ?_
    exact .behind (stays_accept _) fun isMore => .pure
  · rintro ⟨done, more⟩ cursor
    refine meets_look_bind.2 (meets_ite (meets_pure.2 (.inl rfl)) ?_)
    have hproperty := (property_makes h.derived).derived
    refine (hproperty cursor).bind fun property cursor' hproperty => ?_
    refine hproperty.accept (isPlain_punctuator _) fun isMore cursor' h => ?_
    exact meets_pure.2 (.inr ⟨_, h⟩)

/-- What an expression begins with. Only brackets, braces and functions have
expressions inside, and these are at the same depth. -/
theorem primary_follows (h : counting.Agrees text g d.nesting) :
    Follows text d counting.primary g.primary := by
  refine .behind (stays_look _) fun token => ?_
  generalize token.kind = kind
  split
  case h_1 => exact .lift (stays_name false)
  case h_2 => exact .lift (stays_atom _)
  case h_3 => exact .lift (stays_atom _)
  case h_4 => exact .lift (stays_atom _)
  case h_5 => exact .lift (stays_atom _)
  case h_6 => exact .lift stays_literal
  case h_7 => exact .lift stays_literal
  case h_8 => exact .behind stays_enterRegex fun _ => .lift stays_literal
  case h_9 => exact .behind stays_enterRegex fun _ => .lift stays_literal
  case h_10 =>
      refine .behind stays_advance fun _ => ?_
      refine .bind (expression_follows h false) fun inner => ?_
      exact .behind (stays_expect _) fun _ => .lift stays_finish
  case h_11 => exact array_follows h
  case h_12 => exact object_follows h
  case h_13 => exact (function_follows h false).bind fun function => .pure
  case h_14 => simpa only [*] using Follows.lift stays_fail

-- ============================================================ operators

/-- One more member, index or call behind an operand. -/
theorem extend_follows (h : counting.Agrees text g d.nesting)
    (calls : Bool) (start : Nat) (owner : Tree) :
    Follows text d (counting.extend calls start owner)
      (g.extend calls start owner) := by
  refine .behind (stays_look _) fun kind => ?_
  split
  case h_1 =>
      refine .behind stays_advance fun _ => ?_
      exact .behind (stays_name true) fun name => .map (.lift stays_finish)
  case h_2 =>
      refine .behind stays_advance fun _ => ?_
      refine .bind (expression_follows h false) fun index => ?_
      exact .behind (stays_expect _) fun _ => .map (.lift stays_finish)
  case h_3 =>
      refine .ite (.bind (arguments_follows h) fun arguments => ?_) .pure
      exact .map (.lift stays_finish)
  case h_4 => simpa only [*] using Follows.pure

/-- Whichever it is, its first token is read. -/
theorem extend_consumes (hg : g.IsDerived) (calls : Bool) (start : Nat)
    (owner : Tree) : Consumes (g.extend calls start owner) := by
  intro cursor
  refine meets_look_bind.2 ?_
  split
  case h_1 hkind =>
      have hdot : Derives cursor [] cursor.next :=
        .token (.plain (hkind ▸ isPlain_punctuator _ :))
      refine meets_bind.2 (meets_advance.2 ?_)
      refine hdot.tree (name_makes true).derived fun name cursor' h => ?_
      exact meets_map.2 (meets_finish.2 (.inr ⟨_, h⟩))
  case h_2 hkind =>
      have hopen : Derives cursor [] cursor.next :=
        .token (.plain (hkind ▸ isPlain_punctuator _ :))
      refine meets_bind.2 (meets_advance.2 ?_)
      refine hopen.tree (expression_derived hg false) fun index cursor' h => ?_
      refine h.expect (isPlain_punctuator _) fun cursor' h => ?_
      exact meets_map.2 (meets_finish.2 (.inr ⟨_, h⟩))
  case h_3 =>
      refine meets_ite ?_ (meets_pure.2 (.inl rfl))
      refine (arguments_derived hg cursor).bind fun arguments cursor' h => ?_
      exact meets_map.2 (meets_finish.2 (.inr ⟨_, h⟩))
  case h_4 => exact meets_pure.2 (.inl rfl)

/-- The callee behind `new` is one level further in. -/
theorem head_follows (h : counting.Agrees text g d.nesting) :
    Follows text d counting.head g.head := by
  refine .behind stays_here fun start => ?_
  refine .behind (stays_accept _) fun isNew => .ite ?_ (primary_follows h)
  refine .bind (h.callee d rfl) fun callee => ?_
  refine .behind (stays_isAt _) fun isCalled => ?_
  refine .choice (arguments_follows h) .pure fun arguments => ?_
  exact .lift stays_finish

/-- Members and calls are read in a loop, so a chain of them does not nest. -/
theorem leftHand_follows (h : counting.Agrees text g d.nesting)
    (calls : Bool) :
    Follows text d (counting.leftHand calls) (g.leftHand calls) := by
  refine .behind stays_here fun start => ?_
  refine .bind (head_follows h) fun head => .iterate ?_ ?_ head
  · exact extend_follows h calls start
  · exact extend_consumes h.derived calls start

/-- The operand behind a sign is one level further in. -/
theorem unaryExpression_follows (h : counting.Agrees text g d.nesting) :
    Follows text d counting.unaryExpression g.unaryExpression := by
  refine .behind (stays_look _) fun token => .ite ?_ ?_
  · refine .behind stays_advance fun _ => ?_
    exact .bind (h.unary d rfl) fun operand => .lift stays_finish
  · refine .bind (leftHand_follows h true) fun operand => ?_
    refine .behind (stays_look _) fun next => .ite ?_ .pure
    exact .behind stays_advance fun _ => .lift stays_finish

/-- The right operand is one level further in, and the operator in front of it
is what each round reads. Whether an operator binds is decided by its
precedence alone, which no other token has. -/
theorem binaryExpression_follows (h : counting.Agrees text g d.nesting)
    (above : Nat) (noIn : Bool) :
    Follows text d (counting.binaryExpression above noIn)
      (g.binaryExpression above noIn) := by
  refine .behind stays_here fun start => ?_
  refine .bind (unaryExpression_follows h) fun first => .iterate ?_ ?_ first
  · intro left
    refine .behind (stays_look _) fun operator => .ite .pure ?_
    refine .behind stays_advance fun _ => ?_
    refine .bind (h.operand d operator.precedence noIn rfl) fun right => ?_
    exact .behind stays_finish fun both => .pure
  · intro left cursor
    refine meets_look_bind.2 ?_
    split
    · exact meets_pure.2 (.inl rfl)
    · rename_i hbinds
      have hkind : cursor.kind.IsPlain := by
        simp only [Bool.or_eq_true, decide_eq_true_eq, not_or, Nat.not_le]
          at hbinds
        exact isPlain_of_precedence (Nat.zero_lt_of_lt hbinds.1)
      have hoperator : Derives cursor [] cursor.next :=
        .token (.plain hkind)
      refine meets_bind.2 (meets_advance.2 ?_)
      refine hoperator.tree (h.derived.operand _ noIn).derived
        fun right cursor' hright => ?_
      exact meets_bind.2 (meets_finish.2 (.inr ⟨_, hright⟩))

/-- Both branches of a condition are expressions at the depth of the whole. -/
theorem conditional_follows (h : counting.Agrees text g d.nesting)
    (noIn : Bool) :
    Follows text d (counting.conditional noIn) (g.conditional noIn) := by
  refine .behind stays_here fun start => ?_
  refine .bind (binaryExpression_follows h 0 noIn) fun condition => ?_
  refine .behind (stays_accept _) fun isAsked => .ite ?_ .pure
  refine .bind (h.assignment d false rfl) fun whenTrue => ?_
  refine .behind (stays_expect _) fun _ => ?_
  refine .bind (h.assignment d noIn rfl) fun whenFalse => ?_
  exact .lift stays_finish

/-- What is assigned is at the same depth as well, and the target is looked at
before anything further is read. -/
theorem assignmentExpression_follows
    (h : counting.Agrees text g d.nesting) (noIn : Bool) :
    Follows text d (counting.assignmentExpression noIn)
      (g.assignmentExpression noIn) := by
  refine .behind stays_here fun start => ?_
  refine .bind (conditional_follows h noIn) fun left => ?_
  refine .behind (stays_look _) fun operator => .ite (.ite ?_ ?_) .pure
  · refine .behind stays_advance fun _ => ?_
    exact .bind (h.assignment d noIn rfl) fun right => .lift stays_finish
  · exact .lift stays_fail

-- ======================================================== declarations

/-- A variable may have an initializer. -/
theorem declaration_follows (h : counting.Agrees text g d.nesting)
    (noIn : Bool) :
    Follows text d (counting.declaration noIn) (g.declaration noIn) := by
  refine .behind stays_here fun start => ?_
  refine .behind (stays_name false) fun name => ?_
  refine .behind (stays_accept _) fun isSet => ?_
  refine .choice (.map (h.assignment d noIn rfl)) .pure fun initializer => ?_
  exact .lift stays_finish

/-- Declarations have commas between them, as arguments do. -/
theorem declarations_follows (h : counting.Agrees text g d.nesting)
    (noIn : Bool) :
    Follows text d (counting.declarations noIn) (g.declarations noIn) := by
  refine .behind stays_here fun start => ?_
  refine .behind (stays_expect _) fun _ => ?_
  refine .bind (.separated (declaration_follows h noIn)
    (declaration_makes h.derived noIn).derived) fun items => ?_
  exact .lift stays_finish

-- ========================================================== conditions

/-- A condition stands in parentheses. -/
theorem condition_follows (h : counting.Agrees text g d.nesting) :
    Follows text d counting.condition g.condition := by
  refine .behind (stays_expect _) fun _ => ?_
  refine .bind (expression_follows h false) fun condition => ?_
  exact .behind (stays_expect _) fun _ => .pure

/-- An expression may be left out in front of the token that stops it. -/
theorem optionalExpression_follows (h : counting.Agrees text g d.nesting)
    (stop : Punctuator) :
    Follows text d (counting.optionalExpression stop)
      (g.optionalExpression stop) :=
  .behind (stays_isAt _) fun _ => .ite .pure (expression_follows h false).map

/-- Both branches of `if` are statements where the whole one is, in no further
loop. -/
theorem branch_follows (h : counting.Agrees text g d.nesting) :
    Follows text d counting.branch (g.branch d.surroundings) := by
  refine .behind stays_here fun start => ?_
  refine .behind (stays_expect _) fun _ => ?_
  refine .bind (condition_follows h) fun condition => ?_
  refine .bind (h.statement d rfl) fun consequent => ?_
  refine .behind (stays_accept _) fun isElse => ?_
  refine .choice (h.statement d rfl).map .pure fun alternative => ?_
  exact .lift stays_finish

-- =============================================================== loops

/-- The body has one loop more around it. -/
theorem loopBody_follows (h : counting.Agrees text g d.nesting) :
    Follows text d counting.loopBody (g.loopBody d.surroundings) :=
  .inLoop (h.statement { d with loops := d.loops + 1 } rfl)

/-- Behind `in`, with the target already read. -/
theorem forInTail_follows (h : counting.Agrees text g d.nesting)
    (start : Nat) (target : Tree) :
    Follows text d (counting.forInTail start target)
      (g.forInTail d.surroundings start target) := by
  refine .ite (.lift stays_fail) ?_
  refine .bind (expression_follows h false) fun subject => ?_
  refine .behind (stays_expect _) fun _ => ?_
  exact .bind (loopBody_follows h) fun body => .lift stays_finish

/-- Behind the initializer: the other two expressions, either of which may be
missing, and the body. -/
theorem forTail_follows (h : counting.Agrees text g d.nesting)
    (start : Nat) (initializer : Option Tree) :
    Follows text d (counting.forTail start initializer)
      (g.forTail d.surroundings start initializer) := by
  refine .behind (stays_expect _) fun _ => ?_
  refine .bind (optionalExpression_follows h _) fun condition => ?_
  refine .behind (stays_expect _) fun _ => ?_
  refine .bind (optionalExpression_follows h _) fun step => ?_
  refine .behind (stays_expect _) fun _ => ?_
  exact .bind (loopBody_follows h) fun body => .lift stays_finish

/-- The two kinds of `for` are told apart by what stands behind the first
expression, which is read without `in` as an operator. -/
theorem forLoop_follows (h : counting.Agrees text g d.nesting) :
    Follows text d counting.forLoop (g.forLoop d.surroundings) := by
  refine .behind stays_here fun start => ?_
  refine .behind (stays_expect _) fun _ => ?_
  refine .behind (stays_expect _) fun _ => ?_
  refine .behind (stays_look _) fun kind => ?_
  -- whatever stood in front, the next token tells the two kinds apart
  have hrest : ∀ first : Tree, Follows text d (do
      if ← accept Keyword.inWord then counting.forInTail start first
      else counting.forTail start (some first)) (do
      if ← accept Keyword.inWord then
        g.forInTail d.surroundings start first
      else g.forTail d.surroundings start (some first)) := fun first =>
    .behind (stays_accept _) fun isIn =>
      .ite (forInTail_follows h start first) (forTail_follows h start _)
  split
  case h_1 => exact forTail_follows h start none
  case h_2 =>
      simpa only [*] using Follows.choice (declarations_follows h true)
        (expression_follows h true) hrest

/-- A loop with its condition in front. -/
theorem whileLoop_follows (h : counting.Agrees text g d.nesting) :
    Follows text d counting.whileLoop (g.whileLoop d.surroundings) := by
  refine .behind stays_here fun start => ?_
  refine .behind (stays_expect _) fun _ => ?_
  refine .bind (condition_follows h) fun condition => ?_
  exact .bind (loopBody_follows h) fun body => .lift stays_finish

/-- The condition of `do` is read outside of the loop again. -/
theorem doWhile_follows (h : counting.Agrees text g d.nesting) :
    Follows text d counting.doWhile (g.doWhile d.surroundings) := by
  refine .behind stays_here fun start => ?_
  refine .behind (stays_expect _) fun _ => ?_
  refine .bind (loopBody_follows h) fun body => ?_
  refine .behind (stays_expect _) fun _ => ?_
  refine .bind (condition_follows h) fun condition => ?_
  exact .behind (stays_accept _) fun _ => .lift stays_finish

-- =============================================================== jumps

/-- A jump asks the counters where the other parser was told. -/
theorem jump_follows :
    Follows text d jump (Grammar.jump d.surroundings) :=
  .behind_depths (.lift (stays_jump d.surroundings))

/-- A `return` asks for a function around it, which both sides know. -/
theorem returning_follows (h : counting.Agrees text g d.nesting) :
    Follows text d counting.returning (g.returning d.surroundings) := by
  refine .behind_depths (.ite (.lift stays_fail) ?_)
  refine .behind stays_here fun start => ?_
  refine .behind (stays_expect _) fun _ => ?_
  refine .behind (stays_look mayEnd) fun isEnd => ?_
  refine .choice .pure (expression_follows h false).map fun value => ?_
  exact .behind stays_endStatement fun _ => .lift stays_finish

/-- No line break may stand behind `throw`. -/
theorem throwing_follows (h : counting.Agrees text g d.nesting) :
    Follows text d counting.throwing g.throwing := by
  refine .behind stays_here fun start => ?_
  refine .behind (stays_expect _) fun _ => ?_
  refine .behind (stays_look _) fun isBroken => .ite (.lift stays_fail) ?_
  refine .bind (expression_follows h false) fun value => ?_
  exact .behind stays_endStatement fun _ => .lift stays_finish

/-- Of the handler and the last block either may be missing, but not both. -/
theorem trying_follows (h : counting.Agrees text g d.nesting) :
    Follows text d counting.trying (g.trying d.surroundings) := by
  refine .behind stays_here fun start => ?_
  refine .behind (stays_expect _) fun _ => ?_
  refine .bind (block_follows h) fun body => ?_
  refine .behind (stays_accept _) fun isCaught => ?_
  suffices hrest : _ by
    refine .ite ?_ (Follows.pure.bind hrest)
    refine .behind (stays_expect _) fun _ => ?_
    refine .behind (stays_name false) fun caught => ?_
    refine .behind (stays_expect _) fun _ => ?_
    exact (block_follows h).map.map.bind hrest
  intro handler
  refine .behind (stays_accept _) fun isCleaned => ?_
  refine .choice (block_follows h).map .pure fun cleanup => ?_
  exact .ite (.lift stays_fail) (.lift stays_finish)

-- ============================================================== switch

/-- A clause is a case with its test or the default, which may come once. -/
theorem clauseTest_follows (h : counting.Agrees text g d.nesting)
    (hasDefault : Bool) :
    Follows text d (counting.clauseTest hasDefault)
      (g.clauseTest hasDefault) := by
  refine .behind (stays_look _) fun kind => ?_
  split
  case h_1 =>
      exact .behind stays_advance fun _ => (expression_follows h false).map
  case h_2 =>
      exact .ite (.lift stays_fail) (.behind stays_advance fun _ => .pure)
  case h_3 => simpa only [*] using Follows.lift stays_fail

/-- The statements of a clause have one switch statement more around them. -/
theorem clause_follows (h : counting.Agrees text g d.nesting)
    (hasDefault : Bool) :
    Follows text d (counting.clause hasDefault)
      (g.clause d.surroundings hasDefault) := by
  refine .behind stays_here fun start => ?_
  refine .bind (clauseTest_follows h hasDefault) fun test => ?_
  refine .behind (stays_expect _) fun _ => ?_
  refine .bind (.inSwitch (statements_follows h)) fun statements => ?_
  exact .behind stays_finish fun clause => .pure

/-- The clauses are read in a loop, and each of them reads its keyword. -/
theorem switch_follows (h : counting.Agrees text g d.nesting) :
    Follows text d counting.switch (g.switch d.surroundings) := by
  refine .behind stays_here fun start => ?_
  refine .behind (stays_expect _) fun _ => ?_
  refine .bind (condition_follows h) fun subject => ?_
  refine .behind (stays_expect _) fun _ => .bind (.iterate ?_ ?_ _)
    fun clauses => .behind (stays_expect _) fun _ => .lift stays_finish
  · rintro ⟨done, hasDefault⟩
    refine .behind (stays_isAt _) fun isClosed => .ite .pure ?_
    exact .bind (clause_follows h hasDefault) fun clause => .pure
  · rintro ⟨done, hasDefault⟩ cursor
    refine meets_look_bind.2 (meets_ite (meets_pure.2 (.inl rfl)) ?_)
    have hclause := clause_derived h.derived d.surroundings hasDefault
    refine (hclause cursor).bind fun clause cursor' hclause => ?_
    exact meets_pure.2 (.inr ⟨_, hclause⟩)

-- ========================================================== statements

/-- An expression is a statement; behind a label a statement follows that is
one level further in. -/
theorem expressionStatement_follows
    (h : counting.Agrees text g d.nesting) :
    Follows text d counting.expressionStatement
      (g.expressionStatement d.surroundings) := by
  refine .behind (stays_look _) fun token => ?_
  refine .bind (expression_follows h false) fun value => ?_
  refine .behind (stays_isAt _) fun isLabel => .ite ?_ ?_
  · refine .behind stays_advance fun _ => ?_
    exact .bind (h.statement d rfl) fun statement => .lift stays_finish
  · exact .behind stays_endStatement fun _ => .lift stays_finish

/-- The statement that the current token begins. Both sides choose by that
token, so the cases of the one are those of the other. -/
theorem statementHere_follows (h : counting.Agrees text g d.nesting) :
    Follows text d counting.statementHere
      (g.statementHere d.surroundings) := by
  refine .behind (stays_look _) fun token => ?_
  generalize token.kind = kind
  split
  case h_1 => exact block_follows h
  case h_2 => exact .lift (stays_atom _)
  case h_3 =>
      refine .behind stays_advance fun _ => ?_
      exact .behind stays_endStatement fun _ => .lift stays_finish
  case h_4 =>
      refine .bind (declarations_follows h false) fun statement => ?_
      exact .behind stays_endStatement fun _ => .pure
  case h_5 => exact (function_follows h true).bind fun function => .pure
  case h_6 => exact branch_follows h
  case h_7 => exact forLoop_follows h
  case h_8 => exact whileLoop_follows h
  case h_9 => exact doWhile_follows h
  case h_10 => exact jump_follows
  case h_11 => exact jump_follows
  case h_12 => exact returning_follows h
  case h_13 => exact throwing_follows h
  case h_14 => exact trying_follows h
  case h_15 => exact switch_follows h
  case h_16 => exact .ite (.lift stays_failAt) (expressionStatement_follows h)
  case h_17 => simpa only [*] using expressionStatement_follows h

-- ============================================================ programs

/-- A program is parsed from counters that stand at nothing. -/
theorem program_follows (h : counting.Agrees text g 0) :
    Follows text {} counting.program g.program := by
  refine .bind (.many ?_ fun cursor => ?_) fun statements => ?_
  · refine .behind (stays_isAt _) fun isEnd => .ite .pure ?_
    exact .bind (h.statement {} rfl) fun statement => .pure
  · refine meets_look_bind.2 (meets_ite (meets_pure.2 (.inl rfl)) ?_)
    exact (h.derived.statement {} cursor).bind
      fun tree cursor' htree => meets_pure.2 (.inr ⟨_, htree⟩)
  · refine .behind (stays_look _) fun token => ?_
    generalize token.openComment = comment
    cases comment with
    | none => exact .pure
    | some offset => exact .lift stays_failAt

-- ============================================================== levels

/-- If they agree one level further in, and there is a level left to go in,
they agree here. -/
theorem Agrees.outer {nesting : Nat} (hlevel : nesting < Grammar.maxDepth)
    (h : counting.Agrees text g (nesting + 1)) :
    counting.outer.Agrees text g.outer nesting where
  derived := h.derived.outer
  assignment d noIn hd := by
    subst hd
    exact .nested hlevel (assignmentExpression_follows h noIn)
  operand d above noIn hd := by
    subst hd
    exact .nested hlevel (binaryExpression_follows h above noIn)
  unary d hd := by
    subst hd
    exact .nested hlevel (unaryExpression_follows h)
  callee d hd := by
    subst hd
    exact .nested hlevel (leftHand_follows h false)
  statement d hd := by
    subst hd
    exact .nested hlevel (statementHere_follows h)

/-- Where no level is left, nothing is asked of the grammar further in. -/
theorem agrees_outer_exhausted (text : String) (counting : CountingGrammar)
    {nesting : Nat} (hlevel : Grammar.maxDepth ≤ nesting) :
    counting.outer.Agrees text Grammar.exhausted nesting where
  derived := Grammar.isDerived_exhausted
  assignment _ _ hd := Counting.follows_nested_of_le _ (hd ▸ hlevel)
  operand _ _ _ hd := Counting.follows_nested_of_le _ (hd ▸ hlevel)
  unary _ hd := Counting.follows_nested_of_le _ (hd ▸ hlevel)
  callee _ hd := Counting.follows_nested_of_le _ (hd ▸ hlevel)
  statement _ hd := Counting.follows_nested_of_le _ (hd ▸ hlevel)

/-- With more levels than are left, a grammar that counts parses as the one
does that has just those levels, whatever is further in. -/
theorem agrees_levels (text : String) (base : CountingGrammar)
    {n nesting : Nat} (h : Grammar.maxDepth - nesting < n) :
    (levels base n).Agrees text
      (Grammar.levels (Grammar.maxDepth - nesting)) nesting := by
  induction n generalizing nesting with
  | zero => exact absurd h (Nat.not_lt_zero _)
  | succ n ih =>
      by_cases hlevel : nesting < Grammar.maxDepth
      · have hlevels : Grammar.maxDepth - nesting
            = Grammar.maxDepth - (nesting + 1) + 1 := by omega
        rw [hlevels]
        exact (ih (by omega)).outer hlevel
      · have hle : Grammar.maxDepth ≤ nesting := Nat.not_lt.1 hlevel
        rw [Nat.sub_eq_zero_of_le hle]
        exact agrees_outer_exhausted text (levels base n) hle

end CountingGrammar

end ScriptLint
