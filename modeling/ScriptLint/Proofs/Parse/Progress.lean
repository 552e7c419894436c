/-
Parsers only move on. A cursor in a text stands at a lexeme that lies in
it; wherever a parser goes from there is in the text again and no further
from its end, and a consumed token brings it closer.

Facts about results that also need to know this are stated as `Reads`:
from any cursor in the text a parser yields what `Q` describes and has
moved on, or it fails. The rules are those for results alone, but every
step on the way, also one whose result does not matter, has to be one
that moves on.

That a cursor is in the text is what makes a consumed token count: a token
that is not the end has a length there, so less is left behind it. Where
nothing is known of the cursor, that could not be said. This is also why
the rules take the invariant along the whole way (`Cursor.Onward`), instead
of asking for it again behind each step.
-/
import ScriptLint.Proofs.Parse.Contract
import ScriptLint.Proofs.Token.Lines
import ScriptLint.Proofs.Token.Tiling

namespace ScriptLint

namespace Cursor

variable {cs : List Char} {cursor middle last : Cursor}

/-- The cursor stands somewhere in a text. -/
def InText (cs : List Char) (cursor : Cursor) : Prop :=
  cursor.lexeme.LiesIn cs

/-- From one cursor to another one in the text that is no further from
the end. -/
def Onward (cs : List Char) (cursor cursor' : Cursor) : Prop :=
  cursor'.InText cs ∧ cursor'.remaining ≤ cursor.remaining

/-- Parsing starts at the first lexeme of a text. -/
theorem inText_first (text : String) :
    Cursor.InText text.toList { lexeme := Lexeme.first text } :=
  Lexeme.first_liesIn text

/-- Staying is moving on. -/
theorem InText.onward (h : cursor.InText cs) : cursor.Onward cs cursor :=
  ⟨h, Nat.le_refl _⟩

/-- Moving on twice is moving on. -/
theorem Onward.trans (h : cursor.Onward cs middle)
    (h' : middle.Onward cs last) : cursor.Onward cs last :=
  ⟨h'.1, Nat.le_trans h'.2 h.2⟩

/-- Consuming a token moves on. -/
theorem InText.next (h : cursor.InText cs) :
    cursor.Onward cs cursor.next := by
  refine ⟨Lexeme.LiesIn.next h, ?_⟩
  have hread := Lexeme.length_ahead_le cursor.lexeme.token.stop
    cursor.lexeme.rest
  exact Nat.le_trans hread (Lexeme.LiesIn.length_rest h).1

/-- Consuming a token before the end brings the end closer. -/
theorem InText.remaining_next (h : cursor.InText cs)
    (hkind : cursor.kind ≠ .endOfText) :
    cursor.next.remaining < cursor.remaining := by
  have hread := Lexeme.length_ahead_le cursor.lexeme.token.stop
    cursor.lexeme.rest
  exact Nat.lt_of_le_of_lt hread ((Lexeme.LiesIn.length_rest h).2 hkind)

/-- Reading a slash again does not move. -/
theorem InText.asRegex (h : cursor.InText cs) :
    cursor.Onward cs { cursor with lexeme := cursor.lexeme.asRegex } := by
  refine ⟨Lexeme.LiesIn.asRegex h, ?_⟩
  rcases cursor.lexeme.asRegex_eq_or with hsame | ⟨-, -, -, -, hahead, -⟩
  · rw [hsame]
  · exact Nat.le_of_eq (congrArg Text.Stretch.length hahead)

end Cursor

namespace Parse

variable {α β : Type} {cs : List Char}

/-- From anywhere in a text, a parser yields what `Q` describes and has
moved on, or it fails. -/
def Reads (cs : List Char) (p : Parse α) (Q : α → Prop) : Prop :=
  ∀ cursor : Cursor, cursor.InText cs →
    Meets p cursor (fun a cursor' => Q a ∧ cursor.Onward cs cursor')
      fun _ => True

/-- A parser that moves on, whatever it yields. -/
abbrev Moves (cs : List Char) (p : Parse α) : Prop :=
  Reads cs p fun _ => True

-- =============================================================== rules

section

variable {p q : Parse α} {Q Q' : α → Prop} {R : β → Prop}

/-- What a parser has yielded is as described. -/
theorem Reads.of_ok (h : Reads cs p Q) {cursor cursor' : Cursor} {a : α}
    (hcursor : cursor.InText cs)
    (hrun : p.run.run cursor = (.ok a, cursor')) :
    Q a :=
  ((h cursor hcursor).of_ok hrun).1

/-- A description may be made weaker. -/
theorem Reads.mono (h : Reads cs p Q) (hQ : ∀ a, Q a → Q' a) :
    Reads cs p Q' :=
  fun cursor hcursor => (h cursor hcursor).mono
    (fun a _ ha => ⟨hQ a ha.1, ha.2⟩) fun _ => id

/-- A result is given without moving. -/
theorem reads_pure {a : α} (h : Q a) : Reads cs (pure a) Q :=
  fun _ hcursor => meets_pure.2 ⟨h, hcursor.onward⟩

/-- A failure yields nothing. -/
theorem reads_fail {fault : SyntaxFault} : Reads cs (fail fault) Q :=
  fun _ _ => meets_fail.2 trivial

/-- A failure that names a place yields nothing. -/
theorem reads_failAt {offset : Nat} {fault : SyntaxFault} :
    Reads cs (failAt offset fault) Q := fun _ _ => meets_failAt.2 trivial

/-- What the second part yields is described by what the first one has
yielded. -/
theorem Reads.bind {f : α → Parse β} (hp : Reads cs p Q)
    (hf : ∀ a, Q a → Reads cs (f a) R) : Reads cs (p >>= f) R := by
  intro cursor hcursor
  refine (hp cursor hcursor).bind fun a middle ha => ?_
  refine (hf a ha.1 middle ha.2.1).mono (fun b last hb => ?_) fun _ => id
  exact ⟨hb.1, ha.2.trans hb.2⟩

/-- Behind a step whose result does not matter. -/
theorem Moves.bind {f : α → Parse β} (hp : Moves cs p)
    (hf : ∀ a, Reads cs (f a) R) : Reads cs (p >>= f) R :=
  Reads.bind hp fun a _ => hf a

/-- The description of a result carries over to what is made of it. -/
theorem Reads.map {f : α → β} (hp : Reads cs p Q)
    (hf : ∀ a, Q a → R (f a)) : Reads cs (f <$> p) R :=
  fun cursor hcursor => meets_map.2 ((hp cursor hcursor).mono
    (fun a _ ha => ⟨hf a ha.1, ha.2⟩) fun _ => id)

/-- Both ways to go yield what is described. -/
theorem Reads.ite {c : Prop} [Decidable c] (hp : Reads cs p Q)
    (hq : Reads cs q Q) : Reads cs (if c then p else q) Q := by
  split
  · exact hp
  · exact hq

/-- Two ways to go, with the same continuation behind both. -/
theorem Reads.choice {c : Prop} [Decidable c] {f : α → Parse β}
    (hp : Reads cs p Q) (hq : Reads cs q Q)
    (hf : ∀ a, Q a → Reads cs (f a) R) :
    Reads cs (if c then p >>= f else q >>= f) R :=
  (hp.bind hf).ite (hq.bind hf)

/-- What holds of the state of a loop holds behind it. -/
theorem Reads.iterate {σ : Type} {step : σ → Parse (Option σ)}
    {I : σ → Prop} (hstep : ∀ state, I state →
      Reads cs (step state) fun r => I (r.getD state))
    {state : σ} (h : I state) : Reads cs (Parse.iterate step state) I := by
  intro cursor hcursor
  refine Meets.iterate
    (I := fun state cursor' => I state ∧ cursor.Onward cs cursor')
    (fun state middle hmiddle => ?_) ⟨h, hcursor.onward⟩
  refine (hstep state hmiddle.1 middle hmiddle.2.1).mono
    (fun r last hr => ?_) fun _ => id
  exact ⟨hr.1, hmiddle.2.trans hr.2⟩

/-- Everything that a repeated step adds is as it is read. -/
theorem Reads.many {step : Parse (Option α)}
    (hstep : Reads cs step fun r => ∀ a ∈ r, Q a) :
    Reads cs (Parse.many step) fun results => ∀ a ∈ results, Q a := by
  unfold Parse.many
  refine .bind (.iterate (I := fun done => ∀ a ∈ done, Q a) ?_ ?_) ?_
  · intro done hdone
    refine hstep.bind fun r hr => reads_pure ?_
    cases r with
    | none => exact hdone
    | some a => exact List.forall_mem_cons.2 ⟨hr a rfl, hdone⟩
  · exact List.forall_mem_nil _
  · intro reversed hreversed
    exact reads_pure fun a ha => hreversed a (List.mem_reverse.1 ha)

end

-- =============================================================== steps

/-- Looking stays where it is. -/
theorem look_moves (f : Cursor → α) : Moves cs (look f) :=
  fun _ hcursor => meets_look.2 ⟨trivial, hcursor.onward⟩

theorem here_moves : Moves cs here := look_moves _

theorem isAt_moves (kind : TokenKind) : Moves cs (isAt kind) := look_moves _

/-- Consuming a token moves on. -/
theorem advance_moves : Moves cs advance :=
  fun _ hcursor => meets_advance.2 ⟨trivial, hcursor.next⟩

/-- Reading a slash again stays in the text. -/
theorem enterRegex_moves : Moves cs enterRegex :=
  fun _ hcursor => ⟨trivial, hcursor.asRegex⟩

/-- A token is consumed, or left. -/
theorem accept_moves (kind : TokenKind) : Moves cs (accept kind) :=
  (isAt_moves kind).bind fun _ =>
    .ite (advance_moves.bind fun _ => reads_pure trivial)
      (reads_pure trivial)

/-- A token that must be there is consumed. -/
theorem expect_moves (kind : TokenKind) : Moves cs (expect kind) :=
  (accept_moves kind).bind fun _ => .ite (reads_pure trivial) reads_fail

/-- A semicolon is consumed, or left out. -/
theorem endStatement_moves : Moves cs endStatement :=
  (accept_moves _).bind fun _ => .ite (reads_pure trivial)
    ((look_moves mayEnd).bind fun _ => .ite (reads_pure trivial) reads_fail)

/-- A node is as described wherever it ends. -/
theorem reads_finish {start : Nat} {form : Form (Option Tree)}
    {Q : Tree → Prop} (h : ∀ stop, Q (.node start stop none form)) :
    Reads cs (finish start form) Q :=
  fun _ hcursor => meets_finish.2 ⟨h _, hcursor.onward⟩

/-- Every part is as each of them is described. -/
theorem Reads.separated {item : Parse α} {Q : α → Prop}
    (hitem : Reads cs item Q) :
    Reads cs (Parse.separated item) fun items => ∀ a ∈ items, Q a := by
  unfold Parse.separated
  refine hitem.bind fun first hfirst => .bind (.many ?_) fun more hmore =>
    reads_pure (List.forall_mem_cons.2 ⟨hfirst, hmore⟩)
  refine (accept_moves _).bind fun _ => .ite ?_ (reads_pure (by simp))
  exact hitem.map fun a ha b hb => Option.some.inj hb ▸ ha

end Parse

end ScriptLint
