/-
The parsers of expressions are complete. From the words of a well-formed
expression, with a token behind them that does not go on with it, the
parser for its level makes the tree of that expression.

The parsers of a level use each other and those of the level further in,
so the argument is an induction on the levels (`Grammar.Complete`). Within
a level the three loops, over commas, over binary operators, and over
members, elements and calls, follow the left spine of the expression.

# The parsers

- `Grammar.Complete` says what is expected of the grammar one level further
  in; `Complete.outer` goes one level outwards, through all parsers of
  expressions.
- An expression of a level is read by the parser for that level, whatever
  operator it has. By cases on its form, it has the operator of the parser,
  or is of the next level and is handed on (`WellFormed.binary_or` and its
  neighbours).
- What stands behind an expression must not go on with it. That is said by
  the level of the next token, which is below that of the expression's
  place (`level_more_lt`).
-/
import ScriptLint.Proofs.Parse.Reading

namespace ScriptLint

open Parse

namespace Grammar

open ScriptLint.Expr

/-- The parsers of a grammar read every well-formed expression of their
level, in front of a token that does not go on with it. -/
structure Complete (g : Grammar) : Prop where
  assignment {e : Expr} {rest : List Word} : e.WellFormed → 2 ≤ e.level →
    (headKind rest).level < 2 → ReadsExpr (g.assignment false) e rest
  operand {above : Nat} {e : Expr} {rest : List Word} : above ≤ 10 →
    e.WellFormed → 4 + above ≤ e.level →
    (headKind rest).level < 4 + above →
    ReadsExpr (g.operand above false) e rest
  unary {e : Expr} {rest : List Word} : e.WellFormed → 14 ≤ e.level →
    (headKind rest).level < 14 → ReadsExpr g.unary e rest
  callee {e : Expr} {rest : List Word} : e.WellFormed → 15 ≤ e.level →
    e.callsOnSpine = false → headKind rest = Punctuator.openParen →
    ReadsExpr g.callee e rest

variable {g : Grammar} {e : Expr} {rest : List Word}

-- ========================================================= expressions

/-- The step of the loop over commas. -/
def commaStep (g : Grammar) (start : Nat) (left : Tree) :
    Parse (Option Tree) := do
  if ← accept Punctuator.comma then
    let right ← g.assignment false
    let both ← finish start
      (.binary (some left) Punctuator.comma (some right))
    return some both
  else return none

theorem expression_eq (g : Grammar) :
    g.expression false = here >>= fun start =>
      g.assignment false >>= iterate (g.commaStep start) := rfl

/-- Behind the tree of a left operand, a comma and a right operand make
the tree of both. -/
theorem commaStep_shown (hg : g.Complete) (start : Nat) {left right : Expr}
    {operator : Word} (hcomma : operator.kind = Punctuator.comma)
    (hright : right.WellFormed) (hlevel : 2 ≤ right.level)
    (hrest : (headKind rest).level < 2) (t : Tree) (cursor : Cursor)
    (ht : left.ShownBy t)
    (hat : cursor.At (operator :: (right.words ++ rest))) :
    Meets (g.commaStep start t) cursor (fun r cursor' => ∃ t', r = some t'
      ∧ (Expr.binary left operator right).ShownBy t'
      ∧ cursor.Past rest cursor') TooDeep := by
  refine (meets_accept_at hat hcomma).bind ?_
  intro _ middle hread
  obtain ⟨rfl, hmiddle⟩ := hread
  refine (hg.assignment hright hlevel hrest middle hmiddle.1).bind ?_
  intro r last hread
  obtain ⟨hr, hlast⟩ := hread
  exact ⟨_, rfl, ⟨t, r, by rw [hcomma]; rfl, ht, hr⟩, hmiddle.trans hlast⟩

/-- The loop over commas leads to every expression. -/
theorem commaStep_leads (hg : g.Complete) (start : Nat) (h : e.WellFormed)
    (hrest : (headKind rest).level < 2) :
    Leads (g.assignment false) (g.commaStep start) e rest := by
  induction hn : sizeOf e using Nat.strongRecOn generalizing e rest with
  | _ n ih =>
      rcases h.comma_or with
        ⟨left, operator, right, rfl, hcomma, hleft, hright, hlevel⟩ | hlevel
      · have hlow : operator.kind.level < 2 := by
          rw [hcomma]
          decide
        have hbefore : Leads (g.assignment false) (g.commaStep start) left
            (operator :: right.words ++ rest) :=
          ih (sizeOf left) (by simp [← hn]; omega) hleft hlow rfl
        exact hbefore.extend rfl fun t cursor ht hat =>
          commaStep_shown hg start hcomma hright hlevel hrest t cursor ht hat
      · exact (hg.assignment h hlevel hrest).leads

/-- Without a comma the loop over commas stops. -/
theorem commaStep_stops (g : Grammar) (start : Nat) (t : Tree)
    (hrest : (headKind rest).level = 0) {cursor : Cursor}
    (hat : cursor.At rest) {E : SyntaxError → Prop} :
    Meets (g.commaStep start t) cursor
      (fun r cursor' => r = none ∧ cursor' = cursor) E := by
  have hother : headKind rest ≠ Punctuator.comma :=
    TokenKind.ne_of_level_ne (hrest ▸ Nat.zero_ne_one)
  refine (meets_accept_other hat hother).bind ?_
  intro _ cursor' hread
  obtain ⟨rfl, rfl⟩ := hread
  exact ⟨rfl, rfl⟩

/-- Any expression is read in front of a token that goes on with none. -/
theorem expression_reads (hg : g.Complete) (h : e.WellFormed)
    (hrest : (headKind rest).level = 0) :
    ReadsExpr (g.expression false) e rest := by
  intro cursor hat
  rw [expression_eq, meets_bind, meets_here]
  exact (commaStep_leads hg _ h (by omega)).readsExpr
    (fun t _ hat => commaStep_stops g _ t hrest hat) cursor hat

-- =============================================================== items

/-- What stands behind an item is a comma or what closes the list. -/
theorem level_more_lt (es : List Expr) {w : Word} (hw : w.kind.level = 0) :
    (headKind (moreWords es ++ w :: rest)).level < 2 := by
  cases es with
  | nil =>
      rw [moreWords, List.nil_append, headKind, hw]
      decide
  | cons e es => exact Nat.lt_succ_self 1

/-- Expressions with commas in between are read one after the other, up
to what closes the list. -/
theorem separated_reads (hg : g.Complete) {es : List Expr} {w : Word}
    (hes : ∀ x ∈ e :: es, x.WellFormed) (hlevels : ∀ x ∈ e :: es, 2 ≤ x.level)
    (hw : w.kind.level = 0) (cursor : Cursor)
    (hat : cursor.At (itemWords (e :: es) ++ w :: rest)) :
    Meets (separated (g.assignment false)) cursor
      (fun ts cursor' => AllShown (e :: es) (ts.map some)
        ∧ cursor.Past (w :: rest) cursor') TooDeep := by
  rw [itemWords, List.append_assoc] at hat
  have hmore : (headKind (moreWords es ++ w :: rest)).level < 2 :=
    level_more_lt es hw
  refine (hg.assignment (hes e (by simp)) (hlevels e (by simp)) hmore cursor
    hat).bind ?_
  intro t middle hread
  obtain ⟨ht, hmiddle⟩ := hread
  -- the loop has read the expressions in front and stands before the others
  refine Meets.bind (Meets.many_until
    (I := fun done cursor' => ∃ front back, es = front ++ back
      ∧ AllShown front (done.map some)
      ∧ cursor.Past (moreWords back ++ w :: rest) cursor')
    (Q := fun done cursor' => AllShown es (done.map some)
      ∧ cursor.Past (w :: rest) cursor') ?_
    ⟨[], es, rfl, rfl, hmiddle⟩)
    fun more cursor' hmore => ⟨⟨t, _, rfl, ht, hmore.1⟩, hmore.2⟩
  intro done now hread
  obtain ⟨front, back, rfl, hfront, hnow⟩ := hread
  cases back with
  | nil =>
      have hother : headKind (moreWords [] ++ w :: rest)
          ≠ Punctuator.comma := by
        refine TokenKind.ne_of_level_ne ?_
        rw [moreWords, List.nil_append, headKind, hw]
        decide
      refine (meets_accept_other hnow.1 hother).bind ?_
      intro _ _ hread
      obtain ⟨rfl, rfl⟩ := hread
      exact ⟨by rwa [List.append_nil], hnow⟩
  | cons x back =>
      rw [moreWords, List.cons_append, List.append_assoc] at hnow
      refine (meets_accept_at hnow.1 rfl).bind ?_
      intro _ behind hread
      obtain ⟨rfl, hbehind⟩ := hread
      refine meets_map.2 ((hg.assignment (hes x (by simp))
        (hlevels x (by simp)) (level_more_lt back hw) behind
        hbehind.1).mono ?_ fun _ => id)
      intro r last hread
      obtain ⟨hr, hlast⟩ := hread
      have hpast := hbehind.trans hlast
      refine ⟨hpast.2, front ++ [x], back, by simp, ?_, hnow.trans hpast⟩
      rw [List.map_append]
      exact hfront.concat hr

theorem arguments_read (hg : g.Complete) {es : List Expr}
    (hes : ∀ x ∈ es, x.WellFormed) (hlevels : ∀ x ∈ es, 2 ≤ x.level)
    (cursor : Cursor)
    (hat : cursor.At (.mark .openParen
      :: (itemWords es ++ .mark .closeParen :: rest))) :
    Meets g.arguments cursor
      (fun slots cursor' => AllShown es slots ∧ cursor.Past rest cursor')
      TooDeep := by
  refine (meets_expect_at hat rfl).bind fun _ middle hmiddle => ?_
  have hclose : ∀ (ts : List Tree) {last : Cursor},
      AllShown es (ts.map some) →
      cursor.Past (.mark .closeParen :: rest) last →
      Meets (do
        expect Punctuator.closeParen
        return ts.map some) last
        (fun slots cursor' => AllShown es slots ∧ cursor.Past rest cursor')
        TooDeep := by
    intro ts last hts hlast
    refine (meets_expect_at hlast.1 rfl).bind fun _ cursor' hpast => ?_
    exact ⟨hts, hlast.trans hpast⟩
  rw [meets_bind, meets_isAt, hmiddle.1.kind]
  cases es with
  | nil => exact hclose [] rfl hmiddle
  | cons e es =>
      obtain ⟨w, hkind, hopens⟩ := (hes e (by simp)).exists_opening
        (moreWords es ++ .mark .closeParen :: rest)
      have hother : (headKind (itemWords (e :: es)
          ++ .mark .closeParen :: rest) == Punctuator.closeParen) = false := by
        rw [itemWords, List.append_assoc, hkind]
        exact beq_eq_false_iff_ne.2 (Word.kind_of_opens hopens).1
      rw [hother]
      refine (separated_reads hg hes hlevels rfl middle hmiddle.1).bind ?_
      intro ts last hread
      obtain ⟨hts, hlast⟩ := hread
      exact hclose ts hts (hmiddle.trans hlast)

/-- The state of the loop over array elements: those that are done, and
whether more may follow. -/
def ElementsDone (es : List Expr) (rest : List Word) (cursor : Cursor)
    (state : List (Option Tree) × Bool) (cursor' : Cursor) : Prop :=
  ∃ front back, es = front ++ back ∧ AllShown front state.1.reverse
    ∧ cursor.Past (itemWords back ++ .mark .closeBracket :: rest) cursor'
    ∧ (state.2 = false → back = [])

/-- Behind an element, the comma says whether more follow. -/
theorem comma_read {es : List Expr} {w : Word} (hw : w.kind.level = 0)
    (cursor : Cursor) (hat : cursor.At (moreWords es ++ w :: rest))
    {E : SyntaxError → Prop} :
    Meets (accept Punctuator.comma) cursor (fun more cursor' =>
      cursor'.At (itemWords es ++ w :: rest)
        ∧ cursor'.remaining ≤ cursor.remaining
        ∧ (more = false → es = [])) E := by
  cases es with
  | nil =>
      refine (meets_accept_other hat (TokenKind.ne_of_level_ne ?_)).mono ?_
        fun _ => id
      · rw [moreWords, List.nil_append, headKind, hw]
        decide
      · intro _ _ hread
        obtain ⟨rfl, rfl⟩ := hread
        exact ⟨hat, Nat.le_refl _, fun _ => rfl⟩
  | cons e es =>
      refine (meets_accept_at hat rfl).mono ?_ fun _ => id
      intro _ cursor' hread
      obtain ⟨rfl, hpast⟩ := hread
      exact ⟨hpast.1, Nat.le_of_lt hpast.2, by simp⟩

theorem array_reads (hg : g.Complete) {es : List Expr}
    (hes : ∀ x ∈ es, x.WellFormed) (hlevels : ∀ x ∈ es, 2 ≤ x.level) :
    ReadsExpr g.array (.array es) rest := by
  intro cursor hat
  rw [words, List.cons_append, List.append_assoc] at hat
  rw [array, meets_bind, meets_here]
  refine (meets_expect_at hat rfl).bind fun _ middle hmiddle => ?_
  -- the state of the loop tells whether a comma has been read, without which
  -- only the bracket may follow
  refine Meets.bind (Meets.iterate_until (I := ElementsDone es rest cursor)
    (Q := fun state cursor' => AllShown es state.1.reverse
      ∧ cursor.Past (.mark .closeBracket :: rest) cursor') ?_
    ⟨[], es, rfl, rfl, hmiddle, by simp⟩) ?_
  · intro state now hstate
    obtain ⟨done, more⟩ := state
    obtain ⟨front, back, rfl, hfront, hnow, hmore⟩ := hstate
    dsimp only
    rw [meets_bind, meets_isAt, hnow.1.kind]
    cases back with
    | nil =>
        have hclosed : headKind (itemWords [] ++ .mark .closeBracket :: rest)
            = Punctuator.closeBracket := rfl
        rw [hclosed]
        simp only [beq_self_eq_true, Bool.or_true, if_true]
        exact ⟨by rwa [List.append_nil], hnow⟩
    | cons x back =>
        obtain rfl : more = true := by
          cases more with
          | true => rfl
          | false => cases hmore rfl
        obtain ⟨w, hkind, hopens⟩ := (hes x (by simp)).exists_opening
          (moreWords back ++ .mark .closeBracket :: rest)
        obtain ⟨-, hclose, hcomma, -⟩ := Word.kind_of_opens hopens
        rw [itemWords, List.append_assoc] at hnow ⊢
        rw [hkind, beq_eq_false_iff_ne.2 hclose]
        simp only [Bool.not_true, Bool.or_self, Bool.false_eq_true, if_false]
        refine (meets_accept_other hnow.1 (by rwa [hkind])).bind ?_
        intro _ _ hread
        obtain ⟨rfl, rfl⟩ := hread
        refine (hg.assignment (hes x (by simp)) (hlevels x (by simp))
          (level_more_lt back rfl) _ hnow.1).bind ?_
        intro t behind hread
        obtain ⟨ht, hbehind⟩ := hread
        refine (comma_read rfl behind hbehind.1).bind ?_
        intro more last hread
        obtain ⟨hat, hle, hmore⟩ := hread
        have hlast := Nat.lt_of_le_of_lt hle hbehind.2
        refine ⟨hlast, front ++ [x], back, by simp, ?_,
          ⟨hat, Nat.lt_trans hlast hnow.2⟩, hmore⟩
        rw [List.reverse_cons]
        exact hfront.concat ht
  · intro state last hstate
    obtain ⟨done, more⟩ := state
    obtain ⟨hshown, hlast⟩ := hstate
    refine (meets_expect_at hlast.1 rfl).bind fun _ cursor' hpast => ?_
    exact ⟨⟨_, rfl, hshown⟩, hlast.trans hpast⟩

-- ============================================================= primary

/-- A token that is an expression by itself. -/
theorem atom_reads {w : Word} {ws : List Word} {cursor : Cursor}
    (hat : cursor.At (w :: ws)) (form : Form (Option Tree))
    {E : SyntaxError → Prop} :
    Meets (atom form) cursor
      (fun t cursor' => t.form = form ∧ cursor.Past ws cursor') E :=
  ⟨rfl, hat.next⟩

/-- A number or a string is read with its value. -/
theorem literal_reads {w : Word} {ws : List Word} {cursor : Cursor}
    (hat : cursor.At (w :: ws)) {E : SyntaxError → Prop} :
    Meets literal cursor (fun t cursor' => t.form = (match w.kind with
      | .string => .string w.value
      | .number => .number w.value
      | _ => .regex w.value) ∧ cursor.Past ws cursor') E := by
  rw [literal, meets_bind, meets_look, hat.token.isOpen_eq]
  rw [← hat.token.kind_eq, ← hat.token.value_eq]
  exact ⟨rfl, hat.next⟩

/-- What is neither an operation nor a member, an element or a call, but
for `new`, is read as a primary expression. -/
theorem primary_reads (hg : g.Complete) (h : e.WellFormed)
    (hlevel : e.level = 16) (hnew : ∀ callee es, e ≠ .construct callee es) :
    ReadsExpr g.primary e rest := by
  intro cursor hat
  rw [primary, meets_bind, meets_look]
  cases h with
  | identifier hvalid hwith =>
      simp only [hat.token.kind_eq, Word.kind]
      exact meets_name_at hat rfl
  | thisRef =>
      simp only [hat.token.kind_eq, Word.kind]
      exact atom_reads hat _
  | null =>
      simp only [hat.token.kind_eq, Word.kind]
      exact atom_reads hat _
  | @boolean value =>
      simp only [hat.token.kind_eq, Word.kind]
      cases value <;> exact atom_reads hat _
  | number hvalid =>
      simp only [hat.token.kind_eq, Word.kind]
      exact literal_reads hat
  | string hvalid =>
      simp only [hat.token.kind_eq, Word.kind]
      exact literal_reads hat
  | @paren inner hinner =>
      rw [words, List.cons_append, List.append_assoc] at hat
      simp only [hat.token.kind_eq, Word.kind]
      refine (meets_advance_at hat).bind fun _ middle hmiddle => ?_
      refine (expression_reads hg hinner rfl middle hmiddle.1).bind ?_
      intro t behind hread
      obtain ⟨ht, hbehind⟩ := hread
      refine (meets_expect_at hbehind.1 rfl).bind fun _ last hlast => ?_
      exact ⟨⟨t, rfl, ht⟩, (hmiddle.trans hbehind).trans hlast⟩
  | array hes hlevels =>
      have hread := array_reads hg hes hlevels cursor hat
      rw [words, List.cons_append, List.append_assoc] at hat
      simp only [hat.token.kind_eq, Word.kind]
      exact hread
  -- a construction is read by its own parser, and no other expression is of
  -- this level
  | construct => exact absurd rfl (hnew _ _)
  | binary hoperator _ _ _ _ =>
      have := TokenKind.level_of_binary hoperator
      simp only [Expr.level] at hlevel
      omega
  | _ => cases hlevel

/-- What `new` constructs and its arguments, or a primary expression. -/
theorem head_reads (hg : g.Complete) (h : e.WellFormed)
    (hlevel : e.level = 16) : ReadsExpr g.head e rest := by
  intro cursor hat
  rw [head, meets_bind, meets_here]
  by_cases hnew : ∃ callee es, e = .construct callee es
  · obtain ⟨callee, es, rfl⟩ := hnew
    cases h with
    | construct hcallee hlevel hplain hes hlevels =>
        rw [words, List.cons_append, List.append_assoc, List.cons_append,
          List.append_assoc] at hat
        refine (meets_accept_at hat rfl).bind ?_
        intro _ middle hread
        obtain ⟨rfl, hmiddle⟩ := hread
        refine (hg.callee hcallee hlevel hplain rfl middle hmiddle.1).bind ?_
        intro t behind hread
        obtain ⟨ht, hbehind⟩ := hread
        rw [meets_bind, meets_isAt, hbehind.1.kind]
        refine (arguments_read hg hes hlevels behind hbehind.1).bind ?_
        intro slots last hread
        obtain ⟨hslots, hlast⟩ := hread
        exact ⟨⟨t, slots, rfl, ht, hslots⟩,
          (hmiddle.trans hbehind).trans hlast⟩
  · have hprimary := primary_reads hg h hlevel
      (fun callee es heq => hnew ⟨callee, es, heq⟩) cursor hat
    -- no other expression of this level begins with `new`
    have hother : headKind (e.words ++ rest) ≠ Keyword.newWord := by
      cases h with
      | construct => exact absurd ⟨_, _, rfl⟩ hnew
      | @boolean value => cases value <;> rintro ⟨⟩
      | binary hoperator _ _ _ _ =>
          have := TokenKind.level_of_binary hoperator
          simp only [Expr.level] at hlevel
          omega
      | _ => first | cases hlevel; done | rintro ⟨⟩
    refine (meets_accept_other hat hother).bind ?_
    intro _ _ hread
    obtain ⟨rfl, rfl⟩ := hread
    exact hprimary

-- ============================================================= members

section

variable {owner : Expr} {t : Tree} {cursor : Cursor}

/-- A dot and a name make a member of what stands in front of them. -/
theorem extend_dot (g : Grammar) (calls : Bool) (start : Nat)
    {name : String} (hat : cursor.At (.mark .dot :: .ofName name :: rest))
    {E : SyntaxError → Prop} :
    Meets (g.extend calls start t) cursor (fun r cursor' => ∃ t' n,
      r = some t' ∧ t'.form = .member (some t) (some n)
        ∧ n.form = .identifier name ∧ cursor.Past rest cursor') E := by
  rw [extend, meets_bind, meets_look, hat.kind]
  refine (meets_advance_at hat).bind fun _ middle hmiddle => ?_
  refine (meets_name_at hmiddle.1 (Word.kind_ofName name)).bind ?_
  intro n last hread
  obtain ⟨hn, hlast⟩ := hread
  rw [Word.value_ofName] at hn
  exact ⟨_, n, rfl, rfl, hn, hmiddle.trans hlast⟩

theorem extend_member (g : Grammar) (calls : Bool) (start : Nat)
    {name : String} (ht : owner.ShownBy t)
    (hat : cursor.At (.mark .dot :: .ofName name :: rest)) :
    Meets (g.extend calls start t) cursor (fun r cursor' => ∃ t',
      r = some t' ∧ (Expr.member owner name).ShownBy t'
        ∧ cursor.Past rest cursor') TooDeep := by
  refine (extend_dot g calls start hat).mono ?_ fun _ => id
  rintro r cursor' ⟨t', n, rfl, hform, hn, hpast⟩
  exact ⟨t', rfl, ⟨t, n, hform, ht, hn⟩, hpast⟩

theorem extend_element (hg : g.Complete) (calls : Bool) (start : Nat)
    {index : Expr} (hindex : index.WellFormed) (ht : owner.ShownBy t)
    (hat : cursor.At (.mark .openBracket
      :: (index.words ++ .mark .closeBracket :: rest))) :
    Meets (g.extend calls start t) cursor (fun r cursor' => ∃ t',
      r = some t' ∧ (Expr.element owner index).ShownBy t'
        ∧ cursor.Past rest cursor') TooDeep := by
  rw [extend, meets_bind, meets_look, hat.kind]
  refine (meets_advance_at hat).bind fun _ middle hmiddle => ?_
  refine (expression_reads hg hindex rfl middle hmiddle.1).bind ?_
  intro i behind hread
  obtain ⟨hi, hbehind⟩ := hread
  refine (meets_expect_at hbehind.1 rfl).bind fun _ last hlast => ?_
  exact ⟨_, rfl, ⟨t, i, rfl, ht, hi⟩, (hmiddle.trans hbehind).trans hlast⟩

theorem extend_call (hg : g.Complete) (start : Nat) {es : List Expr}
    (hes : ∀ x ∈ es, x.WellFormed) (hlevels : ∀ x ∈ es, 2 ≤ x.level)
    (ht : owner.ShownBy t)
    (hat : cursor.At (.mark .openParen
      :: (itemWords es ++ .mark .closeParen :: rest))) :
    Meets (g.extend true start t) cursor (fun r cursor' => ∃ t',
      r = some t' ∧ (Expr.call owner es).ShownBy t'
        ∧ cursor.Past rest cursor') TooDeep := by
  rw [extend, meets_bind, meets_look, hat.kind]
  refine (arguments_read hg hes hlevels cursor hat).bind ?_
  intro slots last hread
  obtain ⟨hslots, hlast⟩ := hread
  exact ⟨_, rfl, ⟨t, slots, rfl, ht, hslots⟩, hlast⟩

/-- What is no member, element or call is not extended; nor is a call,
where calls are left out. -/
theorem extend_stops (g : Grammar) (calls : Bool) (start : Nat)
    (hrest : (headKind rest).level < 15
      ∨ (calls = false ∧ headKind rest = Punctuator.openParen))
    (hat : cursor.At rest) {E : SyntaxError → Prop} :
    Meets (g.extend calls start t) cursor
      (fun r cursor' => r = none ∧ cursor' = cursor) E := by
  rw [extend, meets_bind, meets_look, hat.kind]
  rcases hrest with hrest | ⟨rfl, hrest⟩
  · split
    · rename_i hkind
      rw [hkind] at hrest
      exact absurd hrest (by decide)
    · rename_i hkind
      rw [hkind] at hrest
      exact absurd hrest (by decide)
    · rename_i hkind
      rw [hkind] at hrest
      exact absurd hrest (by decide)
    · exact ⟨rfl, rfl⟩
  · rw [hrest]
    exact ⟨rfl, rfl⟩

end

/-- The loop over members, elements and calls leads to every expression of
its level. -/
theorem extend_leads (hg : g.Complete) (calls : Bool) (start : Nat)
    (h : e.WellFormed) (hlevel : 15 ≤ e.level)
    (hcalls : calls = false → e.callsOnSpine = false) :
    Leads g.head (g.extend calls start) e rest := by
  induction hn : sizeOf e using Nat.strongRecOn generalizing e rest with
  | _ n ih =>
      rcases h.member_or hlevel with ⟨owner, name, rfl, howner, hle⟩
        | ⟨owner, index, rfl, howner, hle, hindex⟩
        | ⟨callee, es, rfl, hcallee, hle, hes, hlevels⟩ | hhead
      · have hbefore : Leads g.head (g.extend calls start) owner
            ([.mark .dot, .ofName name] ++ rest) :=
          ih (sizeOf owner) (by simp [← hn]; omega) howner hle hcalls rfl
        exact hbefore.extend rfl fun t cursor ht hat =>
          extend_member g calls start ht hat
      · have hbefore : Leads g.head (g.extend calls start) owner
            (.mark .openBracket :: (index.words ++ [.mark .closeBracket])
              ++ rest) :=
          ih (sizeOf owner) (by simp [← hn]; omega) howner hle hcalls rfl
        refine hbefore.extend rfl fun t cursor ht hat => ?_
        rw [List.cons_append, List.append_assoc] at hat
        exact extend_element hg calls start hindex ht hat
      · obtain rfl : calls = true := by
          cases calls with
          | true => rfl
          | false => cases hcalls rfl
        have hbefore : Leads g.head (g.extend true start) callee
            (.mark .openParen :: (itemWords es ++ [.mark .closeParen])
              ++ rest) :=
          ih (sizeOf callee) (by simp [← hn]; omega) hcallee hle (by simp) rfl
        refine hbefore.extend rfl fun t cursor ht hat => ?_
        rw [List.cons_append, List.append_assoc] at hat
        exact extend_call hg start hes hlevels ht hat
      · exact (head_reads hg h hhead).leads

theorem leftHand_reads (hg : g.Complete) (calls : Bool) (h : e.WellFormed)
    (hlevel : 15 ≤ e.level) (hcalls : calls = false → e.callsOnSpine = false)
    (hrest : (headKind rest).level < 15
      ∨ (calls = false ∧ headKind rest = Punctuator.openParen)) :
    ReadsExpr (g.leftHand calls) e rest := by
  intro cursor hat
  rw [leftHand, meets_bind, meets_here]
  have hleads : Leads g.head (g.extend calls cursor.token.start) e rest :=
    extend_leads hg calls _ h hlevel hcalls
  exact hleads.readsExpr (fun t cursor hat =>
    extend_stops g calls _ hrest hat) cursor hat

-- =============================================================== unary

/-- An expression that is no operation begins with no operator. -/
theorem not_isLeadingOperator (h : e.WellFormed) (hlevel : 15 ≤ e.level)
    {cursor : Cursor} (hat : cursor.At (e.words ++ rest)) :
    ¬isLeadingOperator cursor.token.kind = true := by
  obtain ⟨w, ws, hwords, -, hoperator⟩ := h.exists_head
  rw [hwords, List.cons_append] at hat
  rw [hat.token.kind_eq, hoperator hlevel]
  decide

/-- Whether a token is an operator that stands behind its operand. -/
def trails (token : Token) : Bool :=
  (token.kind == Punctuator.plusPlus || token.kind == Punctuator.minusMinus)
    && !token.afterBreak

theorem trails_of_operator {operator : Word}
    (hoperator : operator.kind = Punctuator.plusPlus
      ∨ operator.kind = Punctuator.minusMinus) {cursor : Cursor}
    (hat : cursor.At (operator :: rest)) : trails cursor.token = true := by
  rw [trails, hat.token.kind_eq, hat.token.afterBreak_eq]
  rcases hoperator with hkind | hkind <;> rw [hkind] <;> rfl

theorem trails_of_level_lt (hrest : (headKind rest).level < 14)
    {cursor : Cursor} (hat : cursor.At rest) :
    trails cursor.token = false := by
  have hkind : cursor.token.kind = headKind rest := hat.kind
  have hplus : headKind rest ≠ Punctuator.plusPlus :=
    TokenKind.ne_of_level_ne (Nat.ne_of_lt hrest)
  have hminus : headKind rest ≠ Punctuator.minusMinus :=
    TokenKind.ne_of_level_ne (Nat.ne_of_lt hrest)
  rw [trails, hkind, beq_eq_false_iff_ne.2 hplus,
    beq_eq_false_iff_ne.2 hminus]
  rfl

section

variable {P : Tree → Prop} {E : SyntaxError → Prop} {cursor : Cursor}

/-- Without an operator in front or behind there is only the operand. -/
theorem meets_unaryExpression
    (h : Meets (g.leftHand true) cursor
      (fun t cursor' => P t ∧ cursor.Past rest cursor') E)
    (hfirst : ¬isLeadingOperator cursor.token.kind = true)
    (hrest : (headKind rest).level < 14) :
    Meets g.unaryExpression cursor
      (fun t cursor' => P t ∧ cursor.Past rest cursor') E := by
  rw [unaryExpression, meets_bind, meets_look, if_neg hfirst]
  refine h.bind fun t last hread => ?_
  have htrails : ¬trails last.token = true := by
    rw [trails_of_level_lt hrest hread.2.1]
    exact Bool.false_ne_true
  unfold trails at htrails
  rw [meets_bind, meets_look, if_neg htrails]
  exact hread

/-- Without a question mark there is only the condition. -/
theorem meets_conditional
    (h : Meets (g.binaryExpression 0 false) cursor
      (fun t cursor' => P t ∧ cursor.Past rest cursor') E)
    (hrest : (headKind rest).level < 3) :
    Meets (g.conditional false) cursor
      (fun t cursor' => P t ∧ cursor.Past rest cursor') E := by
  rw [conditional, meets_bind, meets_here]
  refine h.bind fun t middle hread => ?_
  have hother : headKind rest ≠ Punctuator.question :=
    TokenKind.ne_of_level_ne (Nat.ne_of_lt hrest)
  refine (meets_accept_other hread.2.1 hother).bind ?_
  rintro _ _ ⟨rfl, rfl⟩
  exact hread

/-- Without an assignment operator there is only the left side. -/
theorem meets_assignmentExpression
    (h : Meets (g.conditional false) cursor
      (fun t cursor' => P t ∧ cursor.Past rest cursor') E)
    (hrest : (headKind rest).level < 2) :
    Meets (g.assignmentExpression false) cursor
      (fun t cursor' => P t ∧ cursor.Past rest cursor') E := by
  rw [assignmentExpression, meets_bind, meets_here]
  refine h.bind fun t last hread => ?_
  have hnone : ¬(headKind rest).isAssignment = true := by
    rw [TokenKind.isAssignment_of_level_lt hrest]
    decide
  rw [meets_bind, meets_look, hread.2.1.kind, if_neg hnone]
  exact hread

end

/-- An operator in front of an operand, or behind it, or none. -/
theorem unaryExpression_reads (hg : g.Complete) (h : e.WellFormed)
    (hlevel : 14 ≤ e.level) (hrest : (headKind rest).level < 14) :
    ReadsExpr g.unaryExpression e rest := by
  intro cursor hat
  rcases h.unary_or hlevel with
    ⟨operator, operand, rfl, hoperator, hoperand, hle⟩
    | ⟨operator, operand, rfl, hoperator, hoperand, hle⟩ | hle
  · rw [unaryExpression, meets_bind, meets_look,
      if_pos (by rwa [hat.token.kind_eq])]
    refine (meets_advance_at hat).bind fun _ middle hmiddle => ?_
    refine (hg.unary hoperand hle hrest middle hmiddle.1).bind ?_
    intro t last hread
    obtain ⟨ht, hlast⟩ := hread
    refine ⟨⟨t, ?_, ht⟩, hmiddle.trans hlast⟩
    rw [hat.token.kind_eq]
    rfl
  · rw [words, List.append_assoc] at hat
    rw [unaryExpression, meets_bind, meets_look,
      if_neg (not_isLeadingOperator hoperand hle hat)]
    have hlow : (headKind ([operator] ++ rest)).level < 15 := by
      change operator.kind.level < 15
      rcases hoperator with hkind | hkind <;> rw [hkind] <;> decide
    refine (leftHand_reads hg true hoperand hle (by simp) (.inl hlow)
      cursor hat).bind ?_
    intro t middle hread
    obtain ⟨ht, hmiddle⟩ := hread
    have htrails := trails_of_operator hoperator hmiddle.1
    unfold trails at htrails
    rw [meets_bind, meets_look, if_pos htrails]
    refine (meets_advance_at hmiddle.1).bind fun _ last hlast => ?_
    refine ⟨⟨t, ?_, ht⟩, hmiddle.trans hlast⟩
    rw [hmiddle.1.token.kind_eq]
    rfl
  · have hoperand := leftHand_reads hg true h hle (by simp)
      (.inl (by omega)) cursor hat
    exact meets_unaryExpression hoperand (not_isLeadingOperator h hle hat)
      hrest

-- ============================================================== binary

/-- The step of the loop over binary operators. -/
def binaryStep (g : Grammar) (above start : Nat) (left : Tree) :
    Parse (Option Tree) := do
  let operator ← look Cursor.kind
  if operator.precedence ≤ above
      || (false && operator == Keyword.inWord) then return none
  else
    advance
    let right ← g.operand operator.precedence false
    let both ← finish start (.binary (some left) operator (some right))
    return some both

theorem binaryExpression_eq (g : Grammar) (above : Nat) :
    g.binaryExpression above false = here >>= fun start =>
      g.unaryExpression >>= iterate (g.binaryStep above start) := rfl

/-- Behind the tree of a left operand, an operator and a right operand
make the tree of both; the right operand ends in front of an operator
that binds no more tightly. -/
theorem binaryStep_shown (hg : g.Complete) {above : Nat} (start : Nat)
    {left right : Expr} {operator : Word}
    (habove : above < operator.kind.precedence) (hright : right.WellFormed)
    (hlevel : operator.kind.level < right.level)
    (hrest : (headKind rest).level ≤ operator.kind.level) (t : Tree)
    (cursor : Cursor) (ht : left.ShownBy t)
    (hat : cursor.At (operator :: (right.words ++ rest))) :
    Meets (g.binaryStep above start t) cursor (fun r cursor' => ∃ t',
      r = some t' ∧ (Expr.binary left operator right).ShownBy t'
        ∧ cursor.Past rest cursor') TooDeep := by
  have hoperator := TokenKind.level_of_precedence_pos
    (Nat.lt_of_le_of_lt (Nat.zero_le _) habove)
  have hmore : ¬(decide (operator.kind.precedence ≤ above)
      || (false && operator.kind == Keyword.inWord)) = true := by
    simpa using habove
  have hkind : cursor.kind = operator.kind := hat.kind
  rw [binaryStep, meets_bind, meets_look, hkind, if_neg hmore]
  refine (meets_advance_at hat).bind fun _ middle hmiddle => ?_
  refine (hg.operand operator.kind.precedence_le hright (by omega)
    (by omega) middle hmiddle.1).bind ?_
  intro r last hread
  obtain ⟨hr, hlast⟩ := hread
  exact ⟨_, rfl, ⟨t, r, rfl, ht, hr⟩, hmiddle.trans hlast⟩

/-- The loop over binary operators leads to every expression that its
operators bind tightly enough. -/
theorem binaryStep_leads (hg : g.Complete) {above : Nat} (start : Nat)
    (h : e.WellFormed) (hlevel : 4 + above ≤ e.level)
    (hrest : (headKind rest).level ≤ e.level)
    (hlow : (headKind rest).level < 14) :
    Leads g.unaryExpression (g.binaryStep above start) e rest := by
  induction hn : sizeOf e using Nat.strongRecOn generalizing e rest with
  | _ n ih =>
      rcases h.binary_or (by omega) with
        ⟨left, operator, right, rfl, hpos, hleft, hll, hright, hrl⟩ | hunary
      · have hoperator := TokenKind.level_of_precedence_pos hpos
        have hle := operator.kind.precedence_le
        simp only [Expr.level] at hlevel hrest
        have hbefore : Leads g.unaryExpression (g.binaryStep above start)
            left (operator :: right.words ++ rest) :=
          ih (sizeOf left) (by simp [← hn]; omega) hleft (by omega) hll
            (show operator.kind.level < 14 by omega) rfl
        exact hbefore.extend rfl fun t cursor ht hat =>
          binaryStep_shown hg start (by omega) hright hrl hrest t cursor ht
            hat
      · exact (unaryExpression_reads hg h hunary hlow).leads

/-- The loop over binary operators stops in front of one that binds no
more tightly, and of any other token. -/
theorem binaryStep_stops (g : Grammar) {above : Nat} (start : Nat) (t : Tree)
    (hrest : (headKind rest).level < 4 + above) {cursor : Cursor}
    (hat : cursor.At rest) {E : SyntaxError → Prop} :
    Meets (g.binaryStep above start t) cursor
      (fun r cursor' => r = none ∧ cursor' = cursor) E := by
  have hstop : (decide ((headKind rest).precedence ≤ above)
      || (false && headKind rest == Keyword.inWord)) = true := by
    simpa using TokenKind.precedence_le_of_level_lt hrest
  rw [binaryStep, meets_bind, meets_look, hat.kind, if_pos hstop]
  exact ⟨rfl, rfl⟩

theorem binaryExpression_reads (hg : g.Complete) {above : Nat}
    (habove : above ≤ 10) (h : e.WellFormed) (hlevel : 4 + above ≤ e.level)
    (hrest : (headKind rest).level < 4 + above) :
    ReadsExpr (g.binaryExpression above false) e rest := by
  intro cursor hat
  rw [binaryExpression_eq, meets_bind, meets_here]
  exact (binaryStep_leads hg _ h hlevel (by omega) (by omega)).readsExpr
    (fun t _ hat => binaryStep_stops g _ t hrest hat) cursor hat

-- ========================================================= assignments

/-- A condition with its alternatives, or a binary expression. -/
theorem conditional_reads (hg : g.Complete) (h : e.WellFormed)
    (hlevel : 3 ≤ e.level) (hrest : (headKind rest).level < 3)
    (hend : e.level = 3 → (headKind rest).level < 2) :
    ReadsExpr (g.conditional false) e rest := by
  intro cursor hat
  rcases h.conditional_or hlevel with
    ⟨c, t, f, rfl, hc, hcl, ht, htl, hf, hfl⟩ | hle
  · rw [words, List.append_assoc, List.cons_append, List.append_assoc,
      List.cons_append] at hat
    rw [conditional, meets_bind, meets_here]
    refine (binaryExpression_reads hg (by decide) hc hcl
      (show 3 < 4 by decide) cursor hat).bind ?_
    intro condition atMark hread
    obtain ⟨hcondition, hpast⟩ := hread
    refine (meets_accept_at hpast.1 rfl).bind ?_
    intro _ atTrue hread
    obtain ⟨rfl, htrue⟩ := hread
    have hbefore : (headKind (.mark .colon :: (f.words ++ rest))).level < 2 :=
      Nat.zero_lt_two
    refine (hg.assignment ht htl hbefore atTrue htrue.1).bind ?_
    intro whenTrue atColon hread
    obtain ⟨hwhenTrue, hcolon⟩ := hread
    refine (meets_expect_at hcolon.1 rfl).bind fun _ atFalse hfalse => ?_
    refine (hg.assignment hf hfl (hend rfl) atFalse hfalse.1).bind ?_
    intro whenFalse last hread
    obtain ⟨hwhenFalse, hlast⟩ := hread
    exact ⟨⟨_, _, _, rfl, hcondition, hwhenTrue, hwhenFalse⟩,
      (((hpast.trans htrue).trans hcolon).trans hfalse).trans hlast⟩
  · have hcondition := binaryExpression_reads hg (Nat.zero_le 10) h hle
      (by omega) cursor hat
    exact meets_conditional hcondition hrest

theorem assignmentExpression_reads (hg : g.Complete) (h : e.WellFormed)
    (hlevel : 2 ≤ e.level) (hrest : (headKind rest).level < 2) :
    ReadsExpr (g.assignmentExpression false) e rest := by
  intro cursor hat
  rcases h.assignment_or hlevel with
    ⟨left, operator, right, rfl, hoperator, hleft, htarget, hright, hrl⟩
    | hle
  · rw [words, List.append_assoc, List.cons_append] at hat
    rw [assignmentExpression, meets_bind, meets_here]
    have hlow := TokenKind.level_of_isAssignment hoperator
    have hll := level_of_isTarget htarget
    have hfollow : (headKind (operator :: (right.words ++ rest))).level
        < 3 := by
      rw [headKind]
      omega
    refine (conditional_reads hg hleft (by omega) hfollow (by omega)
      cursor hat).bind ?_
    intro l middle hread
    obtain ⟨hl, hmiddle⟩ := hread
    have hkind : middle.kind = operator.kind := hmiddle.1.kind
    rw [meets_bind, meets_look, hkind, if_pos hoperator,
      if_pos (isTarget_of_shown htarget hl)]
    refine (meets_advance_at hmiddle.1).bind fun _ behind hbehind => ?_
    refine (hg.assignment hright hrl hrest behind hbehind.1).bind ?_
    intro r last hread
    obtain ⟨hr, hlast⟩ := hread
    exact ⟨⟨l, r, rfl, hl, hr⟩, (hmiddle.trans hbehind).trans hlast⟩
  · have hleft := conditional_reads hg h hle (by omega) (fun _ => hrest)
      cursor hat
    exact meets_assignmentExpression hleft hrest

-- =============================================================== depth

/-- Where no level is left, only the levels run out. -/
theorem complete_exhausted : exhausted.Complete := by
  have hfail : ∀ {e : Expr} {rest : List Word}, e.WellFormed →
      ReadsExpr (Parse.fail .tooDeep) e rest := by
    intro e rest h cursor hat
    obtain ⟨w, ws, hwords, -, -⟩ := h.exists_head
    rw [hwords, List.cons_append] at hat
    rw [meets_fail]
    exact hat.error_fault .tooDeep
  exact ⟨fun h _ _ => hfail h, fun _ h _ _ => hfail h, fun h _ _ => hfail h,
    fun h _ _ _ => hfail h⟩

theorem Complete.outer (hg : g.Complete) : g.outer.Complete where
  assignment := assignmentExpression_reads hg
  operand := binaryExpression_reads hg
  unary := unaryExpression_reads hg
  callee h hlevel hplain hrest :=
    leftHand_reads hg false h hlevel (fun _ => hplain) (.inr ⟨rfl, hrest⟩)

theorem complete_levels (n : Nat) : (levels n).Complete := by
  induction n with
  | zero => exact complete_exhausted
  | succ n ih => exact ih.outer

end Grammar

end ScriptLint
