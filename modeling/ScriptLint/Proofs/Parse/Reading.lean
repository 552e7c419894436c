/-
Reading words. A cursor stands at words when the tokens from it on are
theirs; the elementary steps pass over one word each. A parser reads an
expression when from its words, whatever stands behind them, it makes the
tree of the expression and stops in front of the rest (`ReadsExpr`); only
the nesting levels may run out.

A loop follows the left spine of an expression: what it has made so far
is the tree of a left operand, and each step makes the next one
(`Leads`).

# What other files use

- `Cursor.At` and `Cursor.Past`: where a cursor stands, by the words that
  are still to come, and that it got there by consuming something.
- `meets_expect_at`, `meets_accept_at` and `meets_accept_other`: the steps
  that take a word or leave it.
- `Leads.extend`: one more step of a loop along the left spine.
-/
import ScriptLint.Proofs.Parse.Contract
import ScriptLint.Proofs.Parse.Written

namespace ScriptLint

open Parse

-- ============================================================ cursors

/-- The tokens from the cursor on are those of the words. -/
def Cursor.At (cursor : Cursor) (ws : List Word) : Prop :=
  cursor.lexeme.Reads ws

/-- The kind of the token in front of some words. -/
def headKind : List Word → TokenKind
  | [] => .endOfText
  | w :: _ => w.kind

/-- In front of an expression is a word that may open one. -/
theorem Expr.WellFormed.exists_opening {e : Expr} (h : e.WellFormed)
    (rest : List Word) :
    ∃ w : Word, headKind (e.words ++ rest) = w.kind ∧ w.opens = true := by
  obtain ⟨w, ws, hwords, hopens, -⟩ := h.exists_head
  exact ⟨w, by rw [hwords]; rfl, hopens⟩

namespace Cursor

variable {cursor : Cursor} {w : Word} {ws : List Word}

theorem At.token (h : cursor.At (w :: ws)) : cursor.token.IsOf w := by
  obtain ⟨-, -⟩ | ⟨htoken, -, -⟩ := h
  exact htoken

theorem At.kind (h : cursor.At ws) : cursor.kind = headKind ws := by
  cases h with
  | stop hkind hopen => exact hkind
  | word htoken hlt hrest => exact htoken.kind_eq

theorem At.openComment (h : cursor.At ws) :
    cursor.token.openComment = none := by
  cases h with
  | stop hkind hopen => exact hopen
  | word htoken hlt hrest => exact htoken.openComment_eq

/-- The cursor stands at the words, and has come closer to the end. -/
def Past (cursor : Cursor) (ws : List Word) (cursor' : Cursor) : Prop :=
  cursor'.At ws ∧ cursor'.remaining < cursor.remaining

theorem At.next (h : cursor.At (w :: ws)) : cursor.Past ws cursor.next := by
  obtain ⟨-, -⟩ | ⟨-, hlt, hrest⟩ := h
  exact ⟨hrest, hlt⟩

theorem Past.trans {middle last : Cursor} {more : List Word}
    (h : cursor.Past ws middle) (h' : middle.Past more last) :
    cursor.Past more last :=
  ⟨h'.1, Nat.lt_trans h'.2 h.2⟩

/-- An error at a word is that of the grammar. -/
theorem At.error_fault (h : cursor.At (w :: ws)) (fault : SyntaxFault) :
    (cursor.error fault).fault = fault := by
  have hkind := h.kind
  have hword : w.kind ≠ .unknown := by cases w <;> simp [Word.kind]
  rw [error, h.token.openComment_eq]
  dsimp only
  rw [h.token.isOpen_eq]
  split
  · rename_i hunknown
    exact absurd (hkind.symm.trans hunknown) hword
  · rename_i hfalse
    cases hfalse
  · rename_i hfalse
    cases hfalse
  · rfl

end Cursor

-- =============================================================== steps

section

variable {cursor : Cursor} {w : Word} {ws : List Word}
  {E : SyntaxError → Prop}

theorem meets_advance_at (h : cursor.At (w :: ws)) :
    Meets advance cursor (fun _ => cursor.Past ws) E :=
  meets_advance.2 h.next

theorem meets_expect_at (h : cursor.At (w :: ws)) {kind : TokenKind}
    (hw : w.kind = kind) :
    Meets (expect kind) cursor (fun _ => cursor.Past ws) E := by
  rw [meets_expect, if_pos (h.kind.trans hw)]
  exact h.next

theorem meets_accept_at (h : cursor.At (w :: ws)) {kind : TokenKind}
    (hw : w.kind = kind) :
    Meets (accept kind) cursor
      (fun b cursor' => b = true ∧ cursor.Past ws cursor') E := by
  rw [meets_accept, if_pos (h.kind.trans hw)]
  exact ⟨rfl, h.next⟩

/-- A token of another kind is not accepted. -/
theorem meets_accept_other (h : cursor.At ws) {kind : TokenKind}
    (hw : headKind ws ≠ kind) :
    Meets (accept kind) cursor
      (fun b cursor' => b = false ∧ cursor' = cursor) E := by
  rw [meets_accept, if_neg (by rwa [h.kind])]
  exact ⟨rfl, rfl⟩

/-- An identifier, or a keyword where it may be one, is read by its
name. -/
theorem meets_name_at (h : cursor.At (w :: ws)) {orKeyword : Bool}
    (hw : (w.kind == .identifier || (orKeyword && w.kind.isKeyword))
      = true) :
    Meets (Parse.name orKeyword) cursor
      (fun t cursor' => t.form = .identifier w.value
        ∧ cursor.Past ws cursor') E := by
  rw [← h.token.kind_eq] at hw
  rw [Parse.name, meets_bind, meets_look, if_pos hw]
  refine (meets_advance_at h).bind fun _ cursor' hpast => ?_
  exact ⟨congrArg Form.identifier h.token.value_eq, hpast⟩

end

-- ============================================================= reading

/-- The only error that may happen on well-formed words. -/
def TooDeep (e : SyntaxError) : Prop := e.fault = .tooDeep

/-- A parser reads an expression from its words, in front of others. -/
def ReadsExpr (p : Parse Tree) (e : Expr) (rest : List Word) : Prop :=
  ∀ cursor : Cursor, cursor.At (e.words ++ rest) →
    Meets p cursor (fun t cursor' => e.ShownBy t ∧ cursor.Past rest cursor')
      TooDeep

/-- A parser and the loop behind it lead to an expression: the loop comes
to where it has made the tree of it and stands behind its words. -/
def Leads (p : Parse Tree) (step : Tree → Parse (Option Tree)) (e : Expr)
    (rest : List Word) : Prop :=
  ∀ (cursor : Cursor) (Q : Tree → Cursor → Prop),
    cursor.At (e.words ++ rest) →
    (∀ t cursor', e.ShownBy t → cursor.Past rest cursor' →
      Meets (iterate step t) cursor' Q TooDeep) →
    Meets (p >>= iterate step) cursor Q TooDeep

section

variable {p : Parse Tree} {step : Tree → Parse (Option Tree)}
  {e left : Expr} {rest ws : List Word}

/-- The parser in front of the loop leads to what it reads. -/
theorem ReadsExpr.leads (h : ReadsExpr p e rest) : Leads p step e rest := by
  intro cursor Q hat hmore
  exact (h cursor hat).bind fun t cursor' ht => hmore t cursor' ht.1 ht.2

/-- A step from the tree of a left operand leads on. -/
theorem Leads.extend (h : Leads p step left (ws ++ rest))
    (hwords : e.words = left.words ++ ws)
    (hstep : ∀ t cursor, left.ShownBy t → cursor.At (ws ++ rest) →
      Meets (step t) cursor (fun r cursor' => ∃ t', r = some t'
        ∧ e.ShownBy t' ∧ cursor.Past rest cursor') TooDeep) :
    Leads p step e rest := by
  intro cursor Q hat hmore
  rw [hwords, List.append_assoc] at hat
  refine h cursor Q hat fun t middle ht hmiddle => ?_
  refine meets_iterate_more ((hstep t middle ht hmiddle.1).mono ?_
    fun _ => id)
  intro r cursor' hread
  obtain ⟨t', rfl, ht', hpast⟩ := hread
  exact ⟨t', rfl, hpast.2, hmore t' cursor' ht' (hmiddle.trans hpast)⟩

/-- Where the loop stops, the expression it has come to is read. -/
theorem Leads.readsExpr (h : Leads p step e rest)
    (hstop : ∀ t cursor, cursor.At rest →
      Meets (step t) cursor (fun r cursor' => r = none ∧ cursor' = cursor)
        TooDeep) :
    ReadsExpr (p >>= iterate step) e rest := by
  intro cursor hat
  refine h cursor _ hat fun t cursor' ht hpast => ?_
  refine meets_iterate_stop ((hstop t cursor' hpast.1).mono ?_ fun _ => id)
  intro r last hread
  obtain ⟨rfl, rfl⟩ := hread
  exact ⟨rfl, ht, hpast⟩

end

end ScriptLint
