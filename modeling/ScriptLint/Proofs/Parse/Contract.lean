/-
Contracts of parsers. A contract says of a parser and the cursor it
starts from what its result and the cursor behind it satisfy, and what
its error satisfies when it fails. The elementary steps have exact
contracts, and contracts compose along `bind`; a loop needs an invariant
of its state that one step passes on (`Meets.iterate`).

Many facts are about results alone, wherever a parser starts and however
it fails; for those the cursor and the error are left out (`Yields`).

A contract is a statement about one run, so it is proved by running the
parser symbolically: the elementary steps are characterised by equivalences
that `simp` or `rw` can unfold (`meets_look`, `meets_accept`), and a
sequence by the contract of its first part, with the rest as what is to be
shown of each outcome (`meets_bind`). The loop is the one place where an
induction is needed, on what is left of the text.

`Tree.parse_of_meets` is how such facts leave the parser: what a program
meets from the first token on holds of every tree that is accepted.
-/
import ScriptLint.Parse.Statement

namespace ScriptLint

namespace Parse

variable {α β : Type}

-- =========================================================== contracts

/-- A sequence goes on where its first part has succeeded. -/
theorem run_bind (p : Parse α) (f : α → Parse β) (cursor : Cursor) :
    (p >>= f).run.run cursor = match p.run.run cursor with
      | (.ok a, cursor) => (f a).run.run cursor
      | (.error e, cursor) => (.error e, cursor) := by
  rw [ExceptT.run_bind, StateT.run_bind]
  rcases p.run.run cursor with ⟨_ | _, _⟩ <;> rfl

/-- What a parser achieves from a cursor: `Q` of its result and of the
cursor behind, or `E` of its error. -/
def Meets (p : Parse α) (cursor : Cursor) (Q : α → Cursor → Prop)
    (E : SyntaxError → Prop) : Prop :=
  match p.run.run cursor with
  | (.ok a, cursor) => Q a cursor
  | (.error e, _) => E e

section

variable {p : Parse α} {cursor : Cursor} {Q Q' : α → Cursor → Prop}
  {E E' : SyntaxError → Prop}

/-- A contract may be made weaker on both sides. -/
theorem Meets.mono (h : Meets p cursor Q E)
    (hQ : ∀ a cursor, Q a cursor → Q' a cursor) (hE : ∀ e, E e → E' e) :
    Meets p cursor Q' E' := by
  unfold Meets at h ⊢
  split at h
  · exact hQ _ _ h
  · exact hE _ h

/-- A run that succeeds satisfies the first half of a contract. -/
theorem Meets.of_ok (h : Meets p cursor Q E) {a : α} {cursor' : Cursor}
    (hrun : p.run.run cursor = (.ok a, cursor')) : Q a cursor' := by
  rw [Meets, hrun] at h
  exact h

/-- A run that fails satisfies the second half. -/
theorem Meets.of_error (h : Meets p cursor Q E) {e : SyntaxError}
    {cursor' : Cursor} (hrun : p.run.run cursor = (.error e, cursor')) :
    E e := by
  rw [Meets, hrun] at h
  exact h

/-- A parser that achieves two things achieves both. -/
theorem Meets.and (h : Meets p cursor Q E) (h' : Meets p cursor Q' E) :
    Meets p cursor (fun a cursor => Q a cursor ∧ Q' a cursor) E := by
  revert h h'
  unfold Meets
  rcases p.run.run cursor with ⟨_ | _, _⟩
  · exact fun h _ => h
  · exact fun h h' => ⟨h, h'⟩

/-- A result is given without moving. -/
theorem meets_pure {a : α} : Meets (pure a) cursor Q E ↔ Q a cursor :=
  Iff.rfl

/-- A sequence achieves what its second part achieves from wherever the
first part ends. -/
theorem meets_bind {f : α → Parse β} {R : β → Cursor → Prop} :
    Meets (p >>= f) cursor R E
      ↔ Meets p cursor (fun a cursor => Meets (f a) cursor R E) E := by
  unfold Meets
  rw [run_bind]
  rcases p.run.run cursor with ⟨_ | _, _⟩ <;> rfl

/-- A sequence by a contract of its first part. -/
theorem Meets.bind {f : α → Parse β} {R : β → Cursor → Prop}
    (hp : Meets p cursor Q E)
    (hf : ∀ a cursor, Q a cursor → Meets (f a) cursor R E) :
    Meets (p >>= f) cursor R E :=
  meets_bind.2 (hp.mono hf fun _ => id)

/-- A result that is changed satisfies what is asked behind the change. -/
theorem meets_map {f : α → β} {R : β → Cursor → Prop} :
    Meets (f <$> p) cursor R E
      ↔ Meets p cursor (fun a cursor => R (f a) cursor) E := by
  rw [map_eq_pure_bind, meets_bind]
  exact Iff.rfl

end

-- =============================================================== steps

section

variable {cursor : Cursor} {E : SyntaxError → Prop}

/-- A look at the cursor gives what is read off it, and stays. -/
theorem meets_look {f : Cursor → α} {Q : α → Cursor → Prop} :
    Meets (look f) cursor Q E ↔ Q (f cursor) cursor := Iff.rfl

/-- The start of the current token is given. -/
theorem meets_here {Q : Nat → Cursor → Prop} :
    Meets here cursor Q E ↔ Q cursor.token.start cursor := Iff.rfl

/-- The kind of the current token is compared. -/
theorem meets_isAt {kind : TokenKind} {Q : Bool → Cursor → Prop} :
    Meets (isAt kind) cursor Q E ↔ Q (cursor.kind == kind) cursor := Iff.rfl

/-- The current token is consumed. -/
theorem meets_advance {Q : Unit → Cursor → Prop} :
    Meets advance cursor Q E ↔ Q () cursor.next := Iff.rfl

/-- A failure is at the current token. -/
theorem meets_fail {fault : SyntaxFault} {Q : α → Cursor → Prop} :
    Meets (fail fault) cursor Q E ↔ E (cursor.error fault) := Iff.rfl

/-- A failure may also be at a place that is named. -/
theorem meets_failAt {offset : Nat} {fault : SyntaxFault}
    {Q : α → Cursor → Prop} :
    Meets (failAt offset fault) cursor Q E ↔ E ⟨fault, offset⟩ := Iff.rfl

/-- The current token is consumed if it is of the kind. -/
theorem meets_accept {kind : TokenKind} {Q : Bool → Cursor → Prop} :
    Meets (accept kind) cursor Q E
      ↔ if cursor.kind = kind then Q true cursor.next
        else Q false cursor := by
  rw [accept, meets_bind, meets_isAt]
  by_cases h : cursor.kind = kind
  · simp only [h, beq_self_eq_true, if_true]
    exact Iff.rfl
  · simp only [beq_eq_false_iff_ne.2 h, Bool.false_eq_true, if_false, h]
    exact Iff.rfl

/-- If it is of another kind, that is an error here. -/
theorem meets_expect {kind : TokenKind} {Q : Unit → Cursor → Prop} :
    Meets (expect kind) cursor Q E
      ↔ if cursor.kind = kind then Q () cursor.next
        else E (cursor.error (.expected kind)) := by
  rw [expect, meets_bind, meets_accept]
  split <;> exact Iff.rfl

/-- A node ends behind the last token that was consumed. -/
theorem meets_finish {start : Nat} {form : Form (Option Tree)}
    {Q : Tree → Cursor → Prop} :
    Meets (finish start form) cursor Q E
      ↔ Q (.node start (max cursor.lastStop start) none form) cursor :=
  Iff.rfl

end

-- =============================================================== loops

section

variable {σ : Type} {step : σ → Parse (Option σ)} {state : σ}
  {cursor : Cursor} {Q : σ → Cursor → Prop} {E : SyntaxError → Prop}

/-- A loop takes a step, and goes on if that has consumed something. -/
theorem meets_iterate :
    Meets (iterate step state) cursor Q E
      ↔ Meets (step state) cursor (fun r cursor' => match r with
        | none => Q state cursor'
        | some state' =>
          if cursor'.remaining < cursor.remaining then
            Meets (iterate step state') cursor' Q E
          else Q state' cursor') E := by
  let loop : Parse σ := iterate step state
  have hrun : loop.run.run cursor = iterate step state cursor := rfl
  show Meets loop cursor Q E ↔ _
  unfold Meets
  rw [hrun, iterate]
  rcases (step state).run.run cursor with ⟨e | _ | state', cursor'⟩
  · rfl
  · rfl
  · dsimp only
    by_cases hlt : cursor'.remaining < cursor.remaining
    · rw [if_pos hlt, if_pos hlt]
      rfl
    · rw [if_neg hlt, if_neg hlt]

/-- A loop achieves what holds of its state from step to step. The step
that declines leaves the state behind. -/
theorem Meets.iterate {I : σ → Cursor → Prop}
    (hstep : ∀ state cursor, I state cursor →
      Meets (step state) cursor (fun r cursor => I (r.getD state) cursor) E)
    (h : I state cursor) : Meets (Parse.iterate step state) cursor I E := by
  induction hn : cursor.remaining using Nat.strongRecOn
    generalizing state cursor with
  | _ n ih =>
      refine meets_iterate.2 ((hstep state cursor h).mono
        (fun r cursor' hr => ?_) fun _ => id)
      cases r with
      | none => exact hr
      | some state' =>
          dsimp only
          split
          · rename_i hlt
            exact ih _ (by omega) hr rfl
          · exact hr

/-- A loop whose steps consume something goes on until a step declines,
and then achieves what that step does. -/
theorem Meets.iterate_until {I : σ → Cursor → Prop}
    (hstep : ∀ state cursor, I state cursor →
      Meets (step state) cursor (fun r cursor' => match r with
        | none => Q state cursor'
        | some state' => cursor'.remaining < cursor.remaining
          ∧ I state' cursor') E)
    (h : I state cursor) : Meets (Parse.iterate step state) cursor Q E := by
  induction hn : cursor.remaining using Nat.strongRecOn
    generalizing state cursor with
  | _ n ih =>
      refine meets_iterate.2 ((hstep state cursor h).mono
        (fun r cursor' hr => ?_) fun _ => id)
      cases r with
      | none => exact hr
      | some state' =>
          dsimp only
          rw [if_pos hr.1]
          exact ih _ (hn ▸ hr.1) hr.2 rfl

/-- A loop goes on behind a step that has consumed something. -/
theorem meets_iterate_more
    (h : Meets (step state) cursor (fun r cursor' => ∃ state',
      r = some state' ∧ cursor'.remaining < cursor.remaining
        ∧ Meets (Parse.iterate step state') cursor' Q E) E) :
    Meets (Parse.iterate step state) cursor Q E := by
  refine meets_iterate.2 (h.mono (fun r cursor' hr => ?_) fun _ => id)
  obtain ⟨state', rfl, hlt, hmore⟩ := hr
  dsimp only
  rwa [if_pos hlt]

/-- A loop ends where its step declines. -/
theorem meets_iterate_stop
    (h : Meets (step state) cursor
      (fun r cursor => r = none ∧ Q state cursor) E) :
    Meets (Parse.iterate step state) cursor Q E := by
  refine meets_iterate.2 (h.mono (fun r cursor' hr => ?_) fun _ => id)
  obtain ⟨rfl, hstop⟩ := hr
  exact hstop

end

/-- A step that is repeated until it declines achieves what holds then of
the results so far. -/
theorem Meets.many_until {step : Parse (Option α)}
    {I Q : List α → Cursor → Prop} {E : SyntaxError → Prop}
    {cursor : Cursor}
    (hstep : ∀ done cursor, I done cursor →
      Meets step cursor (fun r cursor' => match r with
        | none => Q done cursor'
        | some a => cursor'.remaining < cursor.remaining
          ∧ I (done ++ [a]) cursor') E)
    (h : I [] cursor) : Meets (Parse.many step) cursor Q E := by
  unfold Parse.many
  refine Meets.bind (Meets.iterate_until
    (I := fun done cursor => I done.reverse cursor) ?_ h)
    fun reversed cursor' hreversed => hreversed
  intro done cursor hdone
  refine (hstep _ _ hdone).bind fun r cursor' hr => ?_
  cases r with
  | none => exact hr
  | some a => exact ⟨hr.1, by rw [List.reverse_cons]; exact hr.2⟩

-- ============================================================= results

/-- A parser yields what `Q` describes: every result of it does, from
wherever it starts. -/
def Yields (p : Parse α) (Q : α → Prop) : Prop :=
  ∀ cursor, Meets p cursor (fun a _ => Q a) fun _ => True

section

variable {p q : Parse α} {Q Q' : α → Prop} {R : β → Prop}

/-- What is known of results is known of the result of a run. -/
theorem Yields.of_ok (h : Yields p Q) {cursor cursor' : Cursor} {a : α}
    (hrun : p.run.run cursor = (.ok a, cursor')) : Q a :=
  (h cursor).of_ok hrun

/-- Less may be said. -/
theorem Yields.mono (h : Yields p Q) (hQ : ∀ a, Q a → Q' a) :
    Yields p Q' :=
  fun cursor => (h cursor).mono (fun a _ => hQ a) fun _ => id

/-- Something can always be said. -/
theorem yields_any : Yields p fun _ => True := by
  intro cursor
  unfold Meets
  split <;> trivial

/-- A failure has no result. -/
theorem yields_fail {fault : SyntaxFault} : Yields (fail fault) Q :=
  fun _ => meets_fail.2 trivial

theorem yields_failAt {offset : Nat} {fault : SyntaxFault} :
    Yields (failAt offset fault) Q := fun _ => meets_failAt.2 trivial

/-- A result that is given at once. -/
theorem yields_pure {a : α} (h : Q a) : Yields (pure a) Q :=
  fun _ => meets_pure.2 h

/-- A node, wherever it ends. -/
theorem yields_finish {start : Nat} {form : Form (Option Tree)}
    {Q : Tree → Prop} (h : ∀ stop, Q (.node start stop none form)) :
    Yields (finish start form) Q :=
  fun _ => meets_finish.2 (h _)

/-- The result of a sequence is that of its last part. -/
theorem Yields.bind {f : α → Parse β} (hp : Yields p Q)
    (hf : ∀ a, Q a → Yields (f a) R) : Yields (p >>= f) R :=
  fun cursor => (hp cursor).bind fun a cursor ha => hf a ha cursor

/-- Behind a step whose result does not matter. -/
theorem Yields.behind {f : α → Parse β} (hf : ∀ a, Yields (f a) R) :
    Yields (p >>= f) R :=
  yields_any.bind fun a _ => hf a

/-- A result that is changed. -/
theorem Yields.map {f : α → β} (hp : Yields p Q)
    (hf : ∀ a, Q a → R (f a)) : Yields (f <$> p) R :=
  fun cursor => meets_map.2 ((hp cursor).mono (fun a _ => hf a) fun _ => id)

/-- A result comes from one branch or from the other. -/
theorem Yields.ite {c : Prop} [Decidable c] (hp : Yields p Q)
    (hq : Yields q Q) : Yields (if c then p else q) Q := by
  split
  · exact hp
  · exact hq

/-- Two ways to go, with the same continuation behind both. -/
theorem Yields.choice {c : Prop} [Decidable c] {f : α → Parse β}
    (hp : Yields p Q) (hq : Yields q Q) (hf : ∀ a, Q a → Yields (f a) R) :
    Yields (if c then p >>= f else q >>= f) R :=
  (hp.bind hf).ite (hq.bind hf)

/-- What a step passes on, the loop does. -/
theorem Yields.iterate {σ : Type} {step : σ → Parse (Option σ)}
    {I : σ → Prop} (hstep : ∀ state, I state →
      Yields (step state) fun r => I (r.getD state))
    {state : σ} (h : I state) : Yields (Parse.iterate step state) I :=
  fun _ => Meets.iterate (I := fun state _ => I state)
    (fun state cursor h => hstep state h cursor) h

/-- Everything that a repeated step adds is as it yields it. -/
theorem Yields.many {step : Parse (Option α)}
    (hstep : Yields step fun r => ∀ a ∈ r, Q a) :
    Yields (Parse.many step) fun results => ∀ a ∈ results, Q a := by
  unfold Parse.many
  refine .bind (.iterate (I := fun done => ∀ a ∈ done, Q a) ?_ ?_) ?_
  · intro done hdone
    refine hstep.bind fun r hr => yields_pure ?_
    cases r with
    | none => exact hdone
    | some a => exact List.forall_mem_cons.2 ⟨hr a rfl, hdone⟩
  · exact List.forall_mem_nil _
  · intro reversed hreversed
    exact yields_pure fun a ha => hreversed a (List.mem_reverse.1 ha)

/-- Every item is a result of its parser. -/
theorem Yields.separated {item : Parse α} (hitem : Yields item Q) :
    Yields (Parse.separated item) fun items => ∀ a ∈ items, Q a := by
  unfold Parse.separated
  refine hitem.bind fun first hfirst => .bind (.many ?_) fun more hmore =>
    yields_pure (List.forall_mem_cons.2 ⟨hfirst, hmore⟩)
  refine .behind fun _ => .ite ?_ (yields_pure (by simp))
  exact hitem.map fun a ha b hb => Option.some.inj hb ▸ ha

end

end Parse

-- ============================================================ programs

/-- A text parses when the grammar with all its levels reads a program
off it. -/
theorem Tree.parse_eq_ok {text : String} {tree : Tree} :
    Tree.parse text = .ok tree
      ↔ ∃ cursor, Tree.read text = (.ok tree, cursor) := by
  unfold Tree.parse
  rcases Tree.read text with ⟨result, cursor⟩
  simp

/-- A text parses, or fails to, as the contract for programs says. -/
theorem Tree.parse_of_meets {text : String} {Q : Tree → Cursor → Prop}
    {E : SyntaxError → Prop}
    (h : Parse.Meets (Grammar.levels Grammar.maxDepth).program
      { lexeme := Lexeme.first text } Q E) :
    (∃ e, Tree.parse text = .error e ∧ E e)
      ∨ ∃ tree cursor, Tree.parse text = .ok tree ∧ Q tree cursor := by
  unfold Tree.parse
  rcases hrun : Tree.read text with ⟨e | tree, cursor⟩
  · exact .inl ⟨e, rfl, h.of_error hrun⟩
  · exact .inr ⟨tree, cursor, rfl, h.of_ok hrun⟩

/-- A text parses into a tree with a property. -/
def Tree.Parses (text : String) (P : Tree → Prop) : Prop :=
  ∃ tree, Tree.parse text = .ok tree ∧ P tree

instance {text : String} {P : Tree → Prop} [DecidablePred P] :
    Decidable (Tree.Parses text P) :=
  match h : Tree.parse text with
  | .error _ => isFalse fun ⟨_, hparse, _⟩ => nomatch h.symm.trans hparse
  | .ok tree =>
    if hP : P tree then isTrue ⟨tree, h, hP⟩
    else isFalse fun ⟨_, hparse, hP'⟩ =>
      hP (Except.ok.inj (h.symm.trans hparse) ▸ hP')

end ScriptLint
