/-
Semicolons that are left out. Where a statement may end without a
semicolon, one may be written: the text with a semicolon behind every
statement that has none (`Tree.explicit`) is a program again, with the same
tree but for the places in it, and is checked with the same results, line
for line (`Tree.parse_explicit`).

The places are those at which a statement of the tree ends that a semicolon
may end and that has none, neither as its last token nor behind it
(`Tree.endsBare`). Tokens are read in the new text as they are in the text,
one by one, and so the two texts are aligned (`Tree.explicitly`).

# The argument

- The new text is the old one with semicolons at some places, none of which
  lies within a token or between the halves of a line end
  (`Reached.exists_last`).
- So its tokens are the old ones with semicolons in between, which is what
  an alignment of two texts is.
- That the semicolons make no difference to the parser has been proved for
  alignments; that lines stay has been proved for the insertion. What is
  left is that the tree has its ends where the semicolons were put
  (`Tree.endsBare`).
-/
import ScriptLint.Proofs.Parse.Accepted
import ScriptLint.Proofs.Parse.Alignment
import ScriptLint.Proofs.Relining
import ScriptLint.Proofs.Token.Insertion

namespace ScriptLint

open Text

-- ============================================================== places

/-- Whether a statement of the tree ends at a place without a semicolon,
when `tokens` are those of the program. -/
def Tree.endsBare (tree : Tree) (tokens : List Token) (place : Nat) : Bool :=
  tree.ends.contains place && tokens.any (·.stop == place)
    && !tokens.any fun token => token.kind == Punctuator.semicolon
      && (token.fullStart == place || token.stop == place)

/-- The text of a program with a semicolon behind every statement that ends
without one. -/
def Tree.explicit (text : String) (tree : Tree) : String :=
  .ofList (withSemicolons (tree.endsBare (Tree.read text).2.consumed) 0
    text.toList)

namespace Tree

variable {text : String} {tree : Tree} {place : Nat}
  {tokens : List Token}

theorem endsBare_iff :
    tree.endsBare tokens place = true
      ↔ place ∈ tree.ends ∧ (∃ token ∈ tokens, token.stop = place)
        ∧ ∀ token ∈ tokens, token.kind = Punctuator.semicolon →
          token.fullStart ≠ place ∧ token.stop ≠ place := by
  simp only [endsBare, Bool.and_eq_true, List.contains_iff_mem,
    List.any_eq_true, beq_iff_eq, Bool.not_eq_true', List.any_eq_false,
    Bool.or_eq_true, not_and, not_or, and_assoc]

end Tree

-- ============================================================== tokens

namespace Cursor

variable {text : String} {cursor last : Cursor} {token : Token}

/-- Only a slash is read again. -/
theorem asRegex_of_kind (h : ¬ cursor.kind.IsSlash) :
    cursor.asRegex = cursor :=
  congrArg (fun lexeme => { cursor with lexeme })
    (Lexeme.asRegex_of_not_isSlash h)

theorem Reached.stop_le_asRegex (h : cursor.Reached text) :
    cursor.token.stop ≤ cursor.asRegex.token.stop := by
  cases h with
  | first => exact Lexeme.stop_le_asRegex _ _
  | next h => exact Lexeme.stop_le_asRegex _ _
  | @asRegex cursor h =>
      have hsame := Lexeme.asRegex_asRegex cursor.lexeme
      exact Nat.le_of_eq (congrArg (Token.stop ∘ Lexeme.token) hsame.symm)

theorem Reached.stop_le_lastStop (h : cursor.Reached text)
    (htoken : token ∈ cursor.consumed) : token.stop ≤ cursor.lastStop := by
  induction h with
  | first => cases htoken
  | @next cursor h ih =>
      rcases List.mem_cons.1 htoken with rfl | htoken
      · exact Nat.le_refl _
      · refine (ih htoken).trans ?_
        exact h.lastStop_le.trans h.tilesIn.start_le
  | asRegex h ih => exact ih htoken

/-- A token that is consumed on the way ends behind the current one, if it
has not been consumed before. -/
theorem Reaches.stop_le (h : cursor.Reaches last)
    (hcursor : cursor.Reached text) (htoken : token ∈ last.consumed) :
    token ∈ cursor.consumed ∨ cursor.token.stop ≤ token.stop := by
  induction h with
  | refl => exact .inl htoken
  | @next cursor last h ih =>
      rcases ih hcursor.next htoken with htoken | hle
      · rcases List.mem_cons.1 htoken with rfl | htoken
        · exact .inr (Nat.le_refl _)
        · exact .inl htoken
      · have htiles := hcursor.next.tilesIn
        exact .inr ((htiles.fullStart_le.trans htiles.start_le).trans hle)
  | @asRegex cursor last h ih =>
      refine (ih hcursor.asRegex htoken).imp_right fun hle => ?_
      exact hcursor.stop_le_asRegex.trans hle

/-- The last character of a token is no carriage return. -/
theorem Reached.exists_last (h : cursor.Reached text)
    (hsound : cursor.token.IsSound) (hend : cursor.kind ≠ .endOfText) :
    ∃ a c b, text.toList = a ++ c :: b
      ∧ cursor.token.stop = byteLength a + c.utf8Size ∧ c ≠ '\r' := by
  induction h with
  | first =>
      have hfront : [] ++ (Stretch.ofList text.toList).chars = text.toList :=
        rfl
      exact Lexeme.exists_last_read hfront hend hsound.kind_ne hsound.closed
  | @next cursor h ih =>
      obtain ⟨before, hrest, hstop⟩ := h.standsIn.liesIn.exists_before
      have hnext : cursor.next.token
          = (Lexeme.read (byteLength before) cursor.lexeme.rest).token := by
        rw [← hstop]
        rfl
      rw [kind, hnext] at hend
      rw [hnext] at hsound ⊢
      exact Lexeme.exists_last_read hrest hend hsound.kind_ne hsound.closed
  | @asRegex cursor h ih =>
      by_cases hkind : cursor.lexeme.token.kind.IsSlash
      · exact Lexeme.exists_last_asRegex h.standsIn.liesIn hkind
          hsound.closed
      · rw [asRegex_of_kind hkind] at hsound hend ⊢
        exact ih hsound hend

/-- Every token that has been consumed was the current one somewhere on the
way. -/
theorem Reached.exists_of_mem (h : cursor.Reached text)
    (htoken : token ∈ cursor.consumed) :
    ∃ before : Cursor, before.Reached text ∧ before.token = token := by
  induction h with
  | first => cases htoken
  | @next cursor h ih =>
      rcases List.mem_cons.1 htoken with rfl | htoken
      · exact ⟨cursor, h, rfl⟩
      · exact ih htoken
  | asRegex h ih => exact ih htoken

end Cursor

-- =========================================================== alignment

namespace Tree

variable {text : String} {tree : Tree} {last cursor : Cursor}

/-- No place lies within a token or in front of one. -/
theorem endsBare_gap (hcursor : cursor.Reached text)
    (hlast : cursor.Reaches last) {place : Nat}
    (hlt : cursor.lastStop < place) (hlt' : place < cursor.token.stop) :
    tree.endsBare last.consumed place = false := by
  by_contra hplace
  rw [Bool.not_eq_false, endsBare_iff] at hplace
  obtain ⟨-, ⟨token, htoken, rfl⟩, -⟩ := hplace
  rcases hlast.stop_le hcursor htoken with htoken | hle
  · exact absurd (hcursor.stop_le_lastStop htoken) (Nat.not_le.2 hlt)
  · exact absurd hle (Nat.not_le.2 hlt')

section

variable (h : Tree.read text = (.ok tree, last))
include h

/-- Behind the last token there is no place. -/
theorem endsBare_end (hcursor : cursor.Reached text)
    (hlast : cursor.Reaches last) (hkind : cursor.kind = .endOfText)
    {place : Nat} (hlt : cursor.lastStop < place) :
    tree.endsBare last.consumed place = false := by
  obtain ⟨-, -, hconsumed, -⟩ := Tree.sound_of_read h
  by_contra hplace
  rw [Bool.not_eq_false, endsBare_iff] at hplace
  obtain ⟨-, ⟨token, htoken, rfl⟩, -⟩ := hplace
  have hsame : cursor.asRegex = cursor := Cursor.asRegex_of_kind (by
    rintro (hslash | hslash) <;> rw [hkind] at hslash <;> cases hslash)
  rcases hlast.mem_consumed_or hsame with hmem | rfl
  · exact hconsumed _ hmem hkind
  · exact absurd (hcursor.stop_le_lastStop htoken) (Nat.not_le.2 hlt)

/-- No token of a program is left open. -/
theorem closed_of_reaches (hcursor : cursor.Reached text)
    (hlast : cursor.Reaches last) : cursor.token.isOpen = false := by
  obtain ⟨-, -, -, hsound⟩ := Tree.sound_of_read h
  by_cases hkind : cursor.kind.IsSlash
  · refine ((Cursor.Takes.plain ?_).isSound hcursor).closed
    rcases hkind with hkind | hkind <;> exact hkind ▸ .inr (.inl ⟨_, rfl⟩)
  · have htoken := hlast.tokens_getElem?
      (Cursor.asRegex_of_kind hkind)
    exact (hsound _ (List.mem_of_getElem? htoken)).closed

theorem endsBare_zero : tree.endsBare last.consumed 0 = false := by
  obtain ⟨hlast, -, hconsumed, -⟩ := Tree.sound_of_read h
  by_contra hplace
  rw [Bool.not_eq_false, endsBare_iff] at hplace
  obtain ⟨-, ⟨token, htoken, hstop⟩, -⟩ := hplace
  obtain ⟨cursor, hcursor, rfl⟩ := hlast.exists_of_mem htoken
  have hlt := hcursor.tilesIn.start_lt (hconsumed _ htoken)
  omega

theorem shift_zero : shift (tree.endsBare last.consumed) 0 = 0 := by
  rw [shift_of_false (endsBare_zero h), settled, Nat.count_zero]

theorem keepsLines_endsBare :
    KeepsLines (tree.endsBare last.consumed) 0 text.toList := by
  obtain ⟨hlast, -, hconsumed, hsound⟩ := Tree.sound_of_read h
  intro place hplace _ _
  obtain ⟨-, ⟨token, htoken, rfl⟩, -⟩ := endsBare_iff.1 hplace
  obtain ⟨cursor, hcursor, rfl⟩ := hlast.exists_of_mem htoken
  obtain ⟨a, c, b, htext, hstop, hne⟩ := hcursor.exists_last
    (hsound _ (by simp [Cursor.tokens, htoken])) (hconsumed _ htoken)
  exact ⟨a, c, b, htext, by simpa using hstop, hne⟩

/-- What is read at a cursor is read in the new text. -/
theorem inserted_of_reaches (hcursor : cursor.Reached text)
    (hlast : cursor.Reaches last) {offset : Nat} {stretch stretch' : Stretch}
    (hoffset : cursor.lastStop = offset)
    (hlexeme : cursor.lexeme = Lexeme.read offset stretch)
    (hchars : stretch'.chars
      = withSemicolons (tree.endsBare last.consumed) offset stretch.chars) :
    Lexeme.Inserted (tree.endsBare last.consumed) (Lexeme.read offset stretch)
      (Lexeme.read (shift (tree.endsBare last.consumed) offset)
        stretch') := by
  subst hoffset
  refine Lexeme.read_inserted hchars (fun y hlt hlt' => ?_)
    (fun hkind y hlt => ?_) fun hopen => ?_
  · rw [← hlexeme] at hlt'
    exact endsBare_gap hcursor hlast hlt hlt'
  · rw [← hlexeme] at hkind
    exact endsBare_end h hcursor hlast hkind hlt
  · have hclosed := closed_of_reaches h hcursor hlast
    rw [Cursor.token, hlexeme, hopen] at hclosed
    cases hclosed

variable {c c' : Cursor}

/-- Where no semicolon is written the tokens go on alike. -/
theorem inserted_next (hc : c.Reached text) (hlast : c.next.Reaches last)
    (hat : Lexeme.Inserted (tree.endsBare last.consumed) c.lexeme c'.lexeme)
    (hkind : c.kind ≠ .endOfText)
    (hplace : tree.endsBare last.consumed c.lexeme.token.stop = false) :
    Lexeme.Inserted (tree.endsBare last.consumed) c.next.lexeme
      c'.next.lexeme := by
  have hrest := hat.rest_eq hkind
  rw [semicolonAt_of_false hplace, List.nil_append] at hrest
  have hread : Lexeme.Inserted (tree.endsBare last.consumed) c.next.lexeme
      (Lexeme.read (shift (tree.endsBare last.consumed) c.lexeme.token.stop)
        c'.lexeme.rest) :=
    inserted_of_reaches h hc.next hlast rfl rfl hrest
  rwa [shift_of_false hplace, ← hat.stop_eq hkind] at hread

/-- Where a semicolon is written it comes next, and then the tokens go on
alike. -/
theorem behind_next (hc : c.Reached text) (hlast : c.next.Reaches last)
    (hat : Lexeme.Inserted (tree.endsBare last.consumed) c.lexeme c'.lexeme)
    (hkind : c.kind ≠ .endOfText)
    (hplace : tree.endsBare last.consumed c.lexeme.token.stop = true) :
    c'.next.kind = Punctuator.semicolon
      ∧ c.next.kind ≠ Punctuator.semicolon
      ∧ Lexeme.Inserted (tree.endsBare last.consumed) c.next.lexeme
        c'.next.next.lexeme := by
  obtain ⟨hsemicolon, hstop, hrest⟩ := hat.next_semicolon hkind hplace
  refine ⟨hsemicolon, fun hnext => ?_, ?_⟩
  · -- a semicolon of the text itself would be consumed right there
    have hsame : c.next.asRegex = c.next := Cursor.asRegex_of_kind (by
      rintro (hslash | hslash) <;> rw [hnext] at hslash <;> cases hslash)
    obtain ⟨-, hend, -⟩ := Tree.sound_of_read h
    rcases hlast.mem_consumed_or hsame with hmem | rfl
    · exact ((endsBare_iff.1 hplace).2.2 _ hmem hnext).1 rfl
    · rw [show c.next.token.kind = _ from hnext] at hend
      cases hend
  · have hread : Lexeme.Inserted (tree.endsBare last.consumed) c.next.lexeme
        (Lexeme.read (shift (tree.endsBare last.consumed)
          c.lexeme.token.stop) c'.lexeme.next.rest) :=
      inserted_of_reaches h hc.next hlast rfl rfl hrest
    rwa [← hstop] at hread

/-- A slash that is read again is read again in the new text. -/
theorem inserted_asRegex (hc : c.Reached text)
    (hlast : c.asRegex.Reaches last)
    (hat : Lexeme.Inserted (tree.endsBare last.consumed) c.lexeme c'.lexeme)
    (hkind : c.kind.IsSlash) :
    Lexeme.Inserted (tree.endsBare last.consumed) c.asRegex.lexeme
      c'.asRegex.lexeme := by
  obtain ⟨before, items, raw, hcut⟩ := hc.standsIn
  have hahead : ∃ more, c.lexeme.ahead.chars = '/' :: more := by
    rcases hkind with hkind | hkind <;>
      obtain ⟨more, hmore⟩ := hcut.mark_front _ hkind <;>
      exact ⟨_, hmore.symm⟩
  obtain ⟨more, hahead⟩ := hahead
  refine hat.asRegex hkind hahead (closed_of_reaches h hc.asRegex hlast)
    fun y hlt hlt' => endsBare_gap hc.asRegex hlast ?_ hlt'
  exact Nat.lt_of_le_of_lt hc.lastStop_le hlt

theorem inserted_first :
    Lexeme.Inserted (tree.endsBare last.consumed) (Lexeme.first text)
      (Lexeme.first (tree.explicit text)) := by
  have hreaches : Cursor.Reaches { lexeme := Lexeme.first text } last :=
    ((Alignment.refl text).runs_program.goes _ _ _ .first rfl h).1
  have hchars : (Stretch.ofList (tree.explicit text).toList).chars
      = withSemicolons (tree.endsBare last.consumed) 0
        (Stretch.ofList text.toList).chars := by
    rw [Tree.explicit, h, String.toList_ofList]
    rfl
  have hread : Lexeme.Inserted (tree.endsBare last.consumed)
      (Lexeme.read 0 (.ofList text.toList))
      (Lexeme.read (shift (tree.endsBare last.consumed) 0)
        (.ofList (tree.explicit text).toList)) :=
    inserted_of_reaches h .first hreaches rfl rfl hchars
  rwa [shift_zero h] at hread

/-- The text of a program is aligned with the one that has all
semicolons. -/
def explicitly :
    Alignment (shift (tree.endsBare last.consumed)) id text
      (tree.explicit text) where
  last := last
  points := {y | tree.endsBare last.consumed y = true}
  Aligned c c' := Lexeme.Inserted (tree.endsBare last.consumed) c.lexeme
    c'.lexeme
  Behind c c' := c'.kind = Punctuator.semicolon
    ∧ c.kind ≠ Punctuator.semicolon
    ∧ tree.endsBare last.consumed c.lastStop = true
    ∧ Lexeme.Inserted (tree.endsBare last.consumed) c.lexeme c'.next.lexeme
  place := shift (tree.endsBare last.consumed)
  place_eq := rfl
  start_eq := shift_zero h
  first := inserted_first h
  token_same hat := same_token.2 ⟨hat.alike, hat.start_eq.symm⟩
  next hc hat hkind hlast := by
    refine ⟨fun hplace => ?_, fun hplace => ?_⟩
    · exact inserted_next h hc hlast hat hkind (Bool.not_eq_true _ ▸ hplace)
    · obtain ⟨hsemicolon, hne, hnext⟩ :=
        behind_next h hc hlast hat hkind hplace
      exact ⟨hsemicolon, hne, hplace, hnext⟩
  asRegex hc hat hkind hlast := inserted_asRegex h hc hlast hat hkind
  behind hat := hat
  semicolon _ hkind hlast hplace :=
    ((endsBare_iff.1 hplace).2.2 _ hlast.mem_consumed hkind).2 rfl

/-- The tree of the text is that of the new text, moved. -/
theorem read_explicit :
    ∃ tree', Tree.parse (tree.explicit text) = .ok tree'
      ∧ tree.mapPlaces (shift (tree.endsBare last.consumed))
        = tree'.mapPlaces id := by
  obtain ⟨tree', last', hread', hsame⟩ := (explicitly h).read_ok h
    fun y hy => (endsBare_iff.1 hy).1
  exact ⟨tree', congrArg Prod.fst hread', hsame⟩

end

/-- Writing a semicolon behind every statement that ends without one makes
no difference. The text is a program again, its nodes are the same but for
starts and stops, and so are their lines; checking it, in any session, has
the same findings and leaves the same session behind. -/
theorem parse_explicit (h : Tree.parse text = .ok tree) :
    (∃ tree', Tree.parse (tree.explicit text) = .ok tree'
      ∧ (Arena.ofTree (.ofText text) tree).1
        = (Arena.ofTree (.ofText (tree.explicit text)) tree').1
      ∧ (Arena.ofTree (.ofText text) tree).2.mapLines id
        = (Arena.ofTree (.ofText (tree.explicit text)) tree').2.mapLines id)
      ∧ ∀ (session : Session) (file : String),
        session.check file (tree.explicit text)
          = session.check file text := by
  have hread : Tree.read text = (.ok tree, (Tree.read text).2) :=
    Prod.ext h rfl
  obtain ⟨tree', hparse, hplaces⟩ := read_explicit hread
  -- the places have moved, but not to other lines
  have hlines : tree.mapPlaces (id ∘ (LineMap.ofText text).lineOf)
      = tree'.mapPlaces
        (id ∘ (LineMap.ofText (tree.explicit text)).lineOf) := by
    have hline : (LineMap.ofText (tree.explicit text)).lineOf
          ∘ shift (tree.endsBare (Tree.read text).2.consumed)
        = (LineMap.ofText text).lineOf := by
      funext n
      rw [Function.comp_apply, Tree.explicit]
      exact LineMap.lineOf_withSemicolons (keepsLines_endsBare hread)
        (endsBare_zero hread) n
    have hmoved := congrArg
      (Tree.mapPlaces (LineMap.ofText (tree.explicit text)).lineOf) hplaces
    rw [Tree.mapPlaces_mapPlaces, Tree.mapPlaces_mapPlaces,
      Function.comp_id, hline] at hmoved
    rw [Function.id_comp, Function.id_comp, hmoved]
  obtain ⟨hroot, harena⟩ := Arena.mapLines_ofTree hlines
  refine ⟨⟨tree', hparse, hroot, harena⟩, fun session file => ?_⟩
  have hcheck := Session.check_of_mapPlaces rfl h hparse hlines session file
  rwa [Session.mapResult_id, Session.mapResult_id, eq_comm] at hcheck

/-- A program with a return that the brace of its function ends, a
declaration in front of a comment and a break at the end of the text. -/
def unended : String :=
  "a = function() \x7b return \x7d\nvar b // c\nfor (;;) break"

/-- The program of `unended` with all semicolons. -/
def ended : String :=
  "a = function() \x7b return; \x7d;\nvar b; // c\nfor (;;) break;"

theorem parse_explicit_unended :
    Tree.Parses unended fun tree =>
      (∃ tree', Tree.parse ended = .ok tree'
        ∧ (Arena.ofTree (.ofText unended) tree).2.mapLines id
          = (Arena.ofTree (.ofText ended) tree').2.mapLines id)
        ∧ ∀ (session : Session) (file : String),
          session.check file ended = session.check file unended := by
  have hparses : Tree.Parses unended fun tree =>
      tree.explicit unended = ended := by
    decide +kernel
  obtain ⟨tree, hparse, hexplicit⟩ := hparses
  obtain ⟨⟨tree', hparse', -, harena⟩, hcheck⟩ := parse_explicit hparse
  rw [hexplicit] at hparse' harena hcheck
  exact ⟨tree, hparse, ⟨tree', hparse', harena⟩, hcheck⟩

end Tree

end ScriptLint
