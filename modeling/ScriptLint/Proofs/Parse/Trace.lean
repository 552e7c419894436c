/-
Where a cursor has been. A cursor that parsing comes to on its way
through a text has got there token by token, reading a slash again here
and there (`Cursor.Reached`). The tokens it has consumed and the one it
stands on are those that the text is scanned into when slashes are read
again at just the places where the parser did so (`Reached.tokens_eq`).

A step over a token that is in order (`Cursor.Takes`) is one over a word,
a punctuator or a literal that is closed.

The point of the file is to get rid of the cursor. Statements about
accepted texts should speak of tokens by their numbers, as a scan has them;
the parser knows only the token it stands on and those that are behind.
`Cursor.Reached` says that this is the same information, and the lemmas on
`Cursor.Reaches` say which token stands at which number once the end has
been reached.

Since the parser decides on the way whether a slash begins a regular
expression, there is no scan before the run. The places where slashes are
read again are taken from the tokens that have been consumed
(`Cursor.rereads`), so that the scan is a function of the cursor.
-/
import ScriptLint.Proofs.Parse.Progress
import ScriptLint.Proofs.Token.Facts

namespace ScriptLint

open Text

-- =============================================================== scans

namespace Lexeme

/-- The `n`th lexeme of a text before it may be read again. -/
def unread (text : String) (again : Nat → Bool) : Nat → Lexeme
  | 0 => first text
  | n + 1 => (nth text again n).next

/-- A lexeme is the one that was scanned there, or that one read again. -/
theorem nth_eq (text : String) (again : Nat → Bool) (n : Nat) :
    nth text again n = if again n then (unread text again n).asRegex
      else unread text again n := by
  cases n <;> rfl

/-- Every lexeme of a text, before it may be read again, is read where the
one before it ends. -/
theorem exists_unread_eq (text : String) (again : Nat → Bool) (n : Nat) :
    ∃ before rest, before ++ rest.chars = text.toList
      ∧ unread text again n = read (byteLength before) rest := by
  cases n with
  | zero => exact ⟨[], .ofList text.toList, List.nil_append _, rfl⟩
  | succ n =>
      have hlies : (nth text again n).LiesIn text.toList := nth_liesIn n
      obtain ⟨before, hrest, hstop⟩ := hlies.exists_before
      exact ⟨before, _, hrest, by rw [unread, next, hstop]⟩

/-- Before it is read again, no lexeme is a regular expression. -/
theorem kind_unread_ne (text : String) (again : Nat → Bool) (n : Nat) :
    (unread text again n).token.kind ≠ .regex := by
  obtain ⟨before, rest, -, hread⟩ := exists_unread_eq text again n
  rw [hread]
  exact kind_read_ne _ _

/-- Reading a lexeme again makes a regular expression of it or does
nothing. -/
theorem asRegex_eq_of_kind {lexeme : Lexeme}
    (h : lexeme.asRegex.token.kind ≠ .regex) : lexeme.asRegex = lexeme := by
  rcases lexeme.asRegex_eq_or with hsame | ⟨-, hkind, -⟩
  · exact hsame
  · exact absurd hkind h

/-- Reading again a second time changes nothing. -/
theorem asRegex_asRegex (lexeme : Lexeme) :
    lexeme.asRegex.asRegex = lexeme.asRegex := by
  rcases lexeme.asRegex_eq_or with hsame | ⟨-, hkind, -⟩
  · rw [hsame, hsame]
  · rcases lexeme.asRegex.asRegex_eq_or with hsame | ⟨hslash, -⟩
    · exact hsame
    · rw [hkind] at hslash
      rcases hslash with hslash | hslash <;> cases hslash

/-- A lexeme that may have been read again, and has if it is a regular
expression, is the one that the scan comes to. -/
theorem eq_nth {text : String} {again : Nat → Bool} {n : Nat}
    {lexeme : Lexeme}
    (h : lexeme = unread text again n
      ∨ lexeme = (unread text again n).asRegex)
    (hagain : again n = (lexeme.token.kind == .regex)) :
    lexeme = nth text again n := by
  rw [nth_eq, hagain]
  rcases h with rfl | rfl
  · rw [beq_eq_false_iff_ne.2 (kind_unread_ne text again n)]
    rfl
  · by_cases hkind : (unread text again n).asRegex.token.kind = .regex
    · rw [beq_iff_eq.2 hkind]
      rfl
    · rw [beq_eq_false_iff_ne.2 hkind, asRegex_eq_of_kind hkind]
      rfl

end Lexeme

-- ============================================================= cursors

namespace Cursor

/-- The cursor with the current slash read as the start of a regular
expression. -/
def asRegex (cursor : Cursor) : Cursor :=
  { cursor with lexeme := cursor.lexeme.asRegex }

/-- The tokens up to and with the current one. -/
def tokens (cursor : Cursor) : List Token :=
  cursor.consumed.reverse ++ [cursor.token]

/-- Which of the tokens up to the current one have been read again as
regular expressions. -/
def rereads (cursor : Cursor) (n : Nat) : Bool :=
  cursor.tokens[n]?.any fun token => token.kind == .regex

/-- A cursor that parsing may come to in a text. -/
inductive Reached (text : String) : Cursor → Prop where
  | first : Reached text { lexeme := Lexeme.first text }
  | next {cursor : Cursor} : Reached text cursor → Reached text cursor.next
  | asRegex {cursor : Cursor} :
    Reached text cursor → Reached text cursor.asRegex

variable {text : String} {cursor : Cursor}

@[simp] theorem consumed_asRegex (cursor : Cursor) :
    cursor.asRegex.consumed = cursor.consumed := rfl

/-- Moving on consumes the current token. -/
@[simp] theorem consumed_next (cursor : Cursor) :
    cursor.next.consumed = cursor.token :: cursor.consumed := rfl

/-- The token that was current is then the last one. -/
@[simp] theorem lastStop_next (cursor : Cursor) :
    cursor.next.lastStop = cursor.token.stop := rfl

/-- The next token begins, with its trivia, where that one ends. -/
@[simp] theorem fullStart_next (cursor : Cursor) :
    cursor.next.token.fullStart = cursor.token.stop := rfl

/-- A token that is read again starts where it did. -/
@[simp] theorem start_asRegex (cursor : Cursor) :
    cursor.asRegex.token.start = cursor.token.start := by
  rcases cursor.lexeme.asRegex_eq_or with hsame | ⟨-, -, -, hstart, -⟩
  · exact congrArg (fun lexeme => lexeme.token.start) hsame
  · exact hstart

@[simp] theorem fullStart_asRegex (cursor : Cursor) :
    cursor.asRegex.token.fullStart = cursor.token.fullStart :=
  Lexeme.fullStart_asRegex _

/-- The tokens seen so far are one more. -/
theorem tokens_next (cursor : Cursor) :
    cursor.next.tokens = cursor.tokens ++ [cursor.next.token] := by
  simp [tokens]

/-- The current token has been read again if it is a regular expression. -/
theorem rereads_length (cursor : Cursor) :
    cursor.rereads cursor.consumed.length
      = (cursor.token.kind == .regex) := by
  simp [rereads, tokens]

/-- A token that has been consumed was read again if it is a regular
expression. -/
theorem rereads_of_lt (cursor : Cursor) {n : Nat}
    (h : n < cursor.consumed.length) :
    cursor.rereads n
      = cursor.consumed.reverse[n]?.any fun token => token.kind == .regex := by
  rw [rereads, tokens, List.getElem?_append_left (by simpa using h)]

namespace Reached

/-- Where parsing comes to is a place in the text. -/
theorem standsIn (h : Reached text cursor) :
    cursor.lexeme.StandsIn text.toList := by
  induction h with
  | first => exact Lexeme.first_standsIn text
  | next h ih => exact ih.liesIn.next_standsIn
  | asRegex h ih => exact ih.asRegex

/-- The current token has its place among all that cover the text. -/
theorem tilesIn (h : Reached text cursor) :
    cursor.token.TilesIn text.toList := h.standsIn.liesIn.tilesIn

/-- The last consumed token ends where the trivia in front of the current
one begin. -/
theorem lastStop_eq (h : Reached text cursor) :
    cursor.lastStop = cursor.token.fullStart := by
  induction h with
  | first => rfl
  | next h ih => rfl
  | asRegex h ih => exact ih.trans (fullStart_asRegex _).symm

/-- When slashes are read again as they were up to a cursor, the scan has
come to its tokens. -/
theorem scanned (h : Reached text cursor) (again : Nat → Bool)
    (hagain : ∀ n < cursor.consumed.length, again n = cursor.rereads n) :
    (∀ n < cursor.consumed.length, cursor.consumed.reverse[n]?
        = some (Lexeme.nth text again n).token)
      ∧ (cursor.lexeme = Lexeme.unread text again cursor.consumed.length
        ∨ cursor.lexeme
          = (Lexeme.unread text again cursor.consumed.length).asRegex) := by
  induction h with
  | first => exact ⟨by simp, .inl rfl⟩
  | @next cursor h ih =>
      have hlength : cursor.tokens.length = cursor.consumed.length + 1 := by
        simp [tokens]
      have hbefore : ∀ n ≤ cursor.consumed.length,
          again n = cursor.rereads n := by
        intro n hn
        rw [hagain n (Nat.lt_succ_of_le hn), rereads, tokens_next,
          List.getElem?_append_left (by omega), rereads]
      obtain ⟨hconsumed, hlexeme⟩ := ih fun n hn => hbefore n (by omega)
      have hnth := Lexeme.eq_nth hlexeme
        ((hbefore _ (Nat.le_refl _)).trans (rereads_length cursor))
      refine ⟨fun n hn => ?_, .inl ?_⟩
      · rw [consumed_next, List.reverse_cons]
        -- the token is one of those before, or the one just consumed
        rcases Nat.lt_or_eq_of_le (Nat.le_of_lt_succ hn) with hlt | rfl
        · rw [List.getElem?_append_left (by simpa using hlt)]
          exact hconsumed n hlt
        · rw [← hnth]
          simp [token]
      · exact congrArg Lexeme.next hnth
  -- reading again changes the lexeme the cursor is on, but none before it
  | @asRegex cursor h ih =>
      have hbefore : ∀ n < cursor.consumed.length,
          again n = cursor.rereads n := by
        intro n hn
        have hsame : cursor.asRegex.rereads n = cursor.rereads n := by
          exact (rereads_of_lt cursor.asRegex hn).trans
            (rereads_of_lt cursor hn).symm
        exact (hagain n hn).trans hsame
      obtain ⟨hconsumed, hlexeme⟩ := ih hbefore
      refine ⟨hconsumed, .inr ?_⟩
      rcases hlexeme with hsame | hregex
      · exact congrArg Lexeme.asRegex hsame
      · exact (congrArg Lexeme.asRegex hregex).trans
          (Lexeme.asRegex_asRegex _)

/-- The scan that reads the same slashes again comes to the cursor. -/
theorem lexeme_eq (h : Reached text cursor) :
    cursor.lexeme
      = Lexeme.nth text cursor.rereads cursor.consumed.length :=
  Lexeme.eq_nth (h.scanned _ fun _ _ => rfl).2 (rereads_length cursor)

/-- The tokens up to a cursor are those that the text is scanned into,
when the same ones are read again. -/
theorem tokens_eq (h : Reached text cursor) :
    cursor.tokens = (List.range cursor.tokens.length).map fun n =>
      (Lexeme.nth text cursor.rereads n).token := by
  have hconsumed := (h.scanned cursor.rereads fun _ _ => rfl).1
  have hnth := h.lexeme_eq
  refine List.ext_getElem? fun n => ?_
  rw [List.getElem?_map]
  have hlength : cursor.tokens.length = cursor.consumed.length + 1 := by
    simp [tokens]
  rcases Nat.lt_trichotomy n cursor.consumed.length with hlt | rfl | hgt
  · rw [List.getElem?_range (by omega), Option.map_some, ← hconsumed n hlt,
      tokens, List.getElem?_append_left (by simpa using hlt)]
  · rw [List.getElem?_range (by omega), Option.map_some, ← hnth]
    simp [tokens, token]
  · rw [List.getElem?_eq_none (by omega), List.getElem?_eq_none (by simp; omega)]
    rfl

/-- The last consumed token ends in front of the current one. -/
theorem lastStop_le (h : Reached text cursor) :
    cursor.lastStop ≤ cursor.token.start :=
  h.lastStop_eq.trans_le h.tilesIn.fullStart_le

end Reached

end Cursor

-- =============================================================== steps

/-- Tokens that are words or punctuators, and so in order as they are. -/
def TokenKind.IsPlain (kind : TokenKind) : Prop :=
  kind = .identifier ∨ (∃ p, kind = .punctuator p)
    ∨ ∃ keyword, kind = .keyword keyword

/-- Whether a token is one that a program may hold: not an unknown
character, closed, and without an open comment in front of it. -/
structure Token.IsSound (token : Token) : Prop where
  kind_ne : token.kind ≠ .unknown
  closed : token.isOpen = false
  openComment_eq : token.openComment = none

namespace Cursor

/-- From a cursor over a token that is in order to the next one. -/
inductive Takes : Cursor → Token → Cursor → Prop where
  | plain {cursor : Cursor} : cursor.kind.IsPlain →
    Takes cursor cursor.token cursor.next
  | literal {cursor : Cursor} : cursor.kind = .string ∨ cursor.kind = .number →
    cursor.token.isOpen = false → Takes cursor cursor.token cursor.next
  | regex {cursor : Cursor} : cursor.asRegex.kind = .regex →
    cursor.asRegex.token.isOpen = false →
    Takes cursor cursor.asRegex.token cursor.asRegex.next

namespace Takes

variable {text : String} {cursor cursor' : Cursor} {token : Token}

/-- Where a token has been taken, the cursor has been. -/
theorem reached (h : cursor.Takes token cursor')
    (hcursor : Reached text cursor) : Reached text cursor' := by
  cases h with
  | plain => exact hcursor.next
  | literal => exact hcursor.next
  | regex => exact hcursor.asRegex.next

theorem consumed_eq (h : cursor.Takes token cursor') :
    cursor'.consumed = token :: cursor.consumed := by
  cases h <;> rfl

theorem lastStop_eq (h : cursor.Takes token cursor') :
    cursor'.lastStop = token.stop := by
  cases h <;> rfl

/-- A token that is read again stays in its place, and so do the trivia in
front of it. -/
theorem start_eq (h : cursor.Takes token cursor') :
    token.start = cursor.token.start
      ∧ token.fullStart = cursor.token.fullStart := by
  cases h with
  | plain => exact ⟨rfl, rfl⟩
  | literal => exact ⟨rfl, rfl⟩
  | regex => exact ⟨start_asRegex cursor, fullStart_asRegex cursor⟩

/-- The token is one of those of the text. -/
theorem standsIn (h : cursor.Takes token cursor')
    (hcursor : Reached text cursor) :
    ∃ lexeme : Lexeme, lexeme.StandsIn text.toList ∧ lexeme.token = token := by
  cases h with
  | plain => exact ⟨_, hcursor.standsIn, rfl⟩
  | literal => exact ⟨_, hcursor.standsIn, rfl⟩
  | regex => exact ⟨_, hcursor.asRegex.standsIn, rfl⟩

/-- A token that is in order is neither the end nor unknown. -/
theorem kind_ne (h : cursor.Takes token cursor') :
    token.kind ≠ .endOfText ∧ token.kind ≠ .unknown := by
  cases h with
  | plain hkind =>
      rcases hkind with hkind | ⟨p, hkind⟩ | ⟨k, hkind⟩ <;>
        simp [show cursor.token.kind = _ from hkind]
  | literal hkind hclosed =>
      rcases hkind with hkind | hkind <;>
        simp [show cursor.token.kind = _ from hkind]
  | regex hkind hclosed =>
      simp [show cursor.asRegex.token.kind = _ from hkind]

/-- A token in order is one that a program may hold. -/
theorem isSound (h : cursor.Takes token cursor')
    (hcursor : Reached text cursor) : token.IsSound := by
  obtain ⟨hend, hknown⟩ := h.kind_ne
  obtain ⟨lexeme, hstands, hlexeme⟩ := h.standsIn hcursor
  have hcomment : token.openComment = none :=
    hlexeme ▸ hstands.openComment_eq_none (hlexeme.symm ▸ hend)
  refine ⟨hknown, ?_, hcomment⟩
  cases h with
  | plain hkind =>
      obtain ⟨before, items, raw, hcut⟩ := hcursor.standsIn
      refine hcut.closed hcomment ?_ ?_ <;>
        rcases hkind with hkind | ⟨p, hkind⟩ | ⟨k, hkind⟩ <;>
        simp [show cursor.lexeme.token.kind = _ from hkind]
  | literal hkind hclosed => exact hclosed
  | regex hkind hclosed => exact hclosed

/-- A step goes over the text of a token. -/
theorem start_lt (h : cursor.Takes token cursor')
    (hcursor : Reached text cursor) :
    cursor.token.start < cursor'.lastStop := by
  obtain ⟨lexeme, hstands, hlexeme⟩ := h.standsIn hcursor
  rw [h.lastStop_eq, ← h.start_eq.1, ← hlexeme]
  exact hstands.liesIn.tilesIn.start_lt (hlexeme.symm ▸ h.kind_ne.1)

/-- A step brings the end of the text closer. -/
theorem remaining_lt (h : cursor.Takes token cursor')
    (hcursor : Reached text cursor) :
    cursor'.remaining < cursor.remaining := by
  have hend := h.kind_ne.1
  cases h with
  | plain =>
      exact InText.remaining_next hcursor.standsIn.liesIn hend
  | literal =>
      exact InText.remaining_next hcursor.standsIn.liesIn hend
  | regex =>
      have hregex := InText.remaining_next
        hcursor.asRegex.standsIn.liesIn hend
      exact Nat.lt_of_lt_of_le hregex
        (InText.asRegex hcursor.standsIn.liesIn).2

/-- A word, a number or a regular expression is written as its value
says. -/
theorem slice_eq (h : cursor.Takes token cursor')
    (hcursor : Reached text cursor) (hkind : token.kind.isSpelled = true) :
    slice? text.toList token.start token.stop = some token.value.toList := by
  obtain ⟨lexeme, ⟨before, items, raw, hcut⟩, rfl⟩ := h.standsIn hcursor
  have hslice := slice?_append (before ++ Trivia.charsOf items) raw
    lexeme.rest.chars
  rwa [hcut.ahead_eq, List.append_assoc, hcut.text_eq, byteLength_append,
    ← hcut.start_eq, ← hcut.stop_eq, ← hcut.value_eq hkind] at hslice

end Takes

end Cursor

-- ================================================================ ways

namespace Cursor

/-- Whether parsing may come from one cursor to another. -/
inductive Reaches : Cursor → Cursor → Prop where
  | refl (cursor : Cursor) : Reaches cursor cursor
  | next {cursor last : Cursor} :
    Reaches cursor.next last → Reaches cursor last
  | asRegex {cursor last : Cursor} :
    Reaches cursor.asRegex last → Reaches cursor last

namespace Reaches

variable {text : String} {cursor middle last : Cursor}

/-- Ways may be put together. -/
theorem trans (h : cursor.Reaches middle) (h' : middle.Reaches last) :
    cursor.Reaches last := by
  induction h with
  | refl => exact h'
  | next _ ih => exact .next (ih h')
  | asRegex _ ih => exact .asRegex (ih h')

/-- Where a way begins in a text, it ends there. -/
theorem reached (h : cursor.Reaches last) (hcursor : cursor.Reached text) :
    last.Reached text := by
  induction h with
  | refl => exact hcursor
  | next _ ih => exact ih hcursor.next
  | asRegex _ ih => exact ih hcursor.asRegex

/-- What has been consumed stays so. -/
theorem consumed_suffix (h : cursor.Reaches last) :
    cursor.consumed <:+ last.consumed := by
  induction h with
  | refl => exact List.suffix_refl _
  | next _ ih => exact (List.suffix_cons _ _).trans ih
  | asRegex _ ih => exact ih

/-- The end of the last token only moves on. -/
theorem lastStop_le (h : cursor.Reaches last)
    (hcursor : cursor.Reached text) : cursor.lastStop ≤ last.lastStop := by
  induction h with
  | refl => exact Nat.le_refl _
  | @next cursor last _ ih =>
      refine Nat.le_trans ?_ (ih hcursor.next)
      exact hcursor.lastStop_le.trans hcursor.tilesIn.start_le
  | asRegex _ ih => exact ih hcursor.asRegex

/-- There is less and less left on the way of a cursor. -/
theorem remaining_le (h : cursor.Reaches last)
    (hcursor : cursor.Reached text) :
    last.remaining ≤ cursor.remaining := by
  induction h with
  | refl => exact Nat.le_refl _
  | @next cursor last _ ih =>
      have hin : cursor.InText text.toList := hcursor.standsIn.liesIn
      exact Nat.le_trans (ih hcursor.next) hin.next.2
  | @asRegex cursor last _ ih =>
      have hin : cursor.InText text.toList := hcursor.standsIn.liesIn
      exact Nat.le_trans (ih hcursor.asRegex) hin.asRegex.2

/-- The next token is consumed. -/
theorem mem_consumed (h : cursor.next.Reaches last) :
    cursor.token ∈ last.consumed :=
  h.consumed_suffix.subset List.mem_cons_self

theorem tokens_next (h : cursor.next.Reaches last) :
    last.tokens[cursor.consumed.length]? = some cursor.token := by
  obtain ⟨later, hlater⟩ := h.consumed_suffix
  rw [consumed_next] at hlater
  rw [tokens, ← hlater]
  simp

/-- A token that need not be read again stays among the tokens. -/
theorem tokens_getElem? (h : cursor.Reaches last)
    (hsame : cursor.asRegex = cursor) :
    last.tokens[cursor.consumed.length]? = some cursor.token := by
  induction h with
  | refl cursor => simp [tokens]
  | next h => exact h.tokens_next
  | @asRegex cursor last h ih =>
      rw [hsame] at ih
      exact ih hsame

/-- A token that is read again before it is consumed stays among the tokens as
it was read last. -/
theorem tokens_asRegex (h : cursor.asRegex.Reaches last) :
    last.tokens[cursor.consumed.length]? = some cursor.asRegex.token :=
  h.tokens_getElem? (congrArg (fun lexeme => { cursor with lexeme })
    (Lexeme.asRegex_asRegex cursor.lexeme))

/-- A token that need not be read again is consumed, or the way has ended
at it. -/
theorem mem_consumed_or (h : cursor.Reaches last)
    (hsame : cursor.asRegex = cursor) :
    cursor.token ∈ last.consumed ∨ last = cursor := by
  induction h with
  | refl cursor => exact .inr rfl
  | @next cursor last h ih => exact .inl h.mem_consumed
  | @asRegex cursor last h ih =>
      rw [hsame] at ih
      exact ih hsame

end Reaches

end Cursor

end ScriptLint
