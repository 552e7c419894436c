/-
No text is accepted that has not been understood to its end. Every token
that the parser consumes on its way is in order, and it only stops in
front of the end of the text, with no comment left open there
(`Tree.tokens_isSound`).

The tokens meant are those that the parser itself has come to, with the
slashes read again that it has read again; scanned in the same way, the
text has no others behind the end.

# The argument

- A derivation of the statements says of each token that is consumed that
  it is in order (`Derives.exists_consumed`), and the parser asks itself
  whether the text has ended and no comment is open (`Tree.sound_of_read`).
- A token with an open comment in front of it is the end, since such a
  comment takes up the rest of the text. From the end on a scan stays there
  (`Lexeme.openComment_nth_of_end`), so an open comment anywhere shows at
  the end.
-/
import ScriptLint.Proofs.Parse.Derivation

namespace ScriptLint

-- ============================================================ consumed

/-- What is consumed on the way is in order. -/
theorem Derives.exists_consumed {text : String} {cursor cursor' : Cursor}
    {parts : List Part} (h : Derives cursor parts cursor')
    (hcursor : cursor.Reached text) :
    ∃ tokens, cursor'.consumed = tokens ++ cursor.consumed
      ∧ ∀ token ∈ tokens, token.IsSound ∧ token.kind ≠ .endOfText := by
  induction h with
  | @token cursor cursor' token htakes =>
      refine ⟨[token], htakes.consumed_eq, ?_⟩
      simpa using ⟨htakes.isSound hcursor, htakes.kind_ne.1⟩
  | node role h hread ih => exact ih hcursor
  | append h h' ih ih' =>
      obtain ⟨tokens, hconsumed, hsound⟩ := ih hcursor
      obtain ⟨more, hmore, hsound'⟩ := ih' (h.reached hcursor)
      refine ⟨more ++ tokens, ?_, List.forall_mem_append.2
        ⟨hsound', hsound⟩⟩
      rw [hmore, hconsumed, List.append_assoc]

-- ========================================================== to the end

namespace Lexeme

variable {text : String} {again : Nat → Bool}

theorem nth_standsIn (n : Nat) :
    (nth text again n).StandsIn text.toList := by
  have hunread : (unread text again n).StandsIn text.toList := by
    cases n with
    | zero => exact first_standsIn text
    | succ n => exact (nth_liesIn n).next_standsIn
  rw [nth_eq]
  split
  · exact hunread.asRegex
  · exact hunread

/-- From the end on a scan finds nothing but the end. -/
theorem openComment_nth_of_end {n k : Nat}
    (hend : (nth text again n).token.kind = .endOfText)
    (hcomment : (nth text again n).token.openComment = none)
    (hk : n ≤ k) : (nth text again k).token.openComment = none := by
  have hboth : (nth text again k).token.kind = .endOfText
      ∧ (nth text again k).token.openComment = none := by
    induction k, hk using Nat.le_induction with
    | base => exact ⟨hend, hcomment⟩
    | succ k hk ih =>
        have hnext := (nth_standsIn k).next_of_end ih.1
        have hsame : (nth text again k).next.asRegex
            = (nth text again k).next := by
          refine asRegex_eq_of_kind ?_
          rcases (nth text again k).next.asRegex_eq_or with
            hsame | ⟨hslash, -⟩
          · rw [hsame, hnext.1]
            simp
          · rw [hnext.1] at hslash
            rcases hslash with hslash | hslash <;> cases hslash
        rw [nth_eq]
        show (if _ then (nth text again k).next.asRegex else _).token.kind
          = _ ∧ _
        split
        · rw [unread, hsame]
          exact hnext
        · exact hnext
  exact hboth.2

end Lexeme

-- ============================================================ accepted

/-- What is known about the cursor where the reading of a program has
ended. -/
theorem Tree.sound_of_read {text : String} {tree : Tree} {cursor : Cursor}
    (h : Tree.read text = (.ok tree, cursor)) :
    cursor.Reached text ∧ cursor.token.kind = .endOfText
      ∧ (∀ token ∈ cursor.consumed, token.kind ≠ .endOfText)
      ∧ ∀ token ∈ cursor.tokens, token.IsSound := by
  obtain ⟨statements, -, hderived, hend, hcomment⟩ := Tree.derives_of_read h
  have hreached : cursor.Reached text := hderived.reached .first
  have hlast : cursor.token.IsSound := by
    obtain ⟨before, items, raw, hcut⟩ := hreached.standsIn
    have hkind : cursor.lexeme.token.kind = .endOfText := hend
    refine ⟨by simp [show cursor.token.kind = _ from hkind], ?_, hcomment⟩
    exact hcut.closed hcomment (by simp [hkind]) (by simp [hkind])
  have hconsumed : ∀ token ∈ cursor.consumed,
      token.IsSound ∧ token.kind ≠ .endOfText := by
    rcases hderived with ⟨rfl, -⟩ | hderived
    · exact List.forall_mem_nil _
    · obtain ⟨tokens, htokens, hsound⟩ := hderived.exists_consumed .first
      simpa [htokens] using hsound
  refine ⟨hreached, hend, fun token htoken => (hconsumed token htoken).2, ?_⟩
  rw [Cursor.tokens, List.forall_mem_append, List.forall_mem_singleton]
  exact ⟨fun token htoken =>
    (hconsumed token (List.mem_reverse.1 htoken)).1, hlast⟩

/-- When a text is accepted, the tokens that the parser has come to are
those that the text is scanned into with the same slashes read again as
regular expressions; the last of them, and no other, says that the text
has ended, and all of them are in order. If a scan of that kind finds a
comment that is left open anywhere in a text, it is not accepted. -/
theorem Tree.tokens_isSound (text : String) :
    let cursor := (Tree.read text).2
    let scanned n := (Lexeme.nth text cursor.rereads n).token
    (∀ tree, Tree.parse text = .ok tree →
      cursor.tokens = (List.range cursor.tokens.length).map scanned
        ∧ cursor.token.kind = .endOfText
        ∧ (∀ token ∈ cursor.consumed, token.kind ≠ .endOfText)
        ∧ ∀ token ∈ cursor.tokens, token.IsSound)
      ∧ ∀ n, (scanned n).openComment.isSome = true →
        ∃ e, Tree.parse text = .error e := by
  intro cursor scanned
  have hsound (tree : Tree) (hparse : Tree.parse text = .ok tree) :=
    Tree.sound_of_read (Prod.ext hparse rfl : Tree.read text = (_, cursor))
  refine ⟨fun tree hparse => ?_, fun n hopen => ?_⟩
  · obtain ⟨hreached, hrest⟩ := hsound tree hparse
    exact ⟨hreached.tokens_eq, hrest⟩
  · cases hparse : Tree.parse text with
    | error e => exact ⟨e, rfl⟩
    | ok tree =>
        obtain ⟨hreached, hend, -, hall⟩ := hsound tree hparse
        have hlast : cursor.token = scanned cursor.consumed.length :=
          congrArg Lexeme.token hreached.lexeme_eq
        -- a token with an open comment would be one that has been read, or
        -- stand behind the end
        rcases Nat.lt_or_ge n cursor.tokens.length with hn | hn
        · have hmem : scanned n ∈ cursor.tokens := by
            rw [hreached.tokens_eq]
            exact List.mem_map_of_mem (List.mem_range.2 hn)
          rw [(hall _ hmem).openComment_eq] at hopen
          cases hopen
        · have hbehind : cursor.consumed.length ≤ n := by
            simp only [Cursor.tokens, List.length_append,
              List.length_reverse] at hn
            omega
          have hcomment := (hall cursor.token
            (by simp [Cursor.tokens])).openComment_eq
          rw [hlast] at hend hcomment
          have hnone := Lexeme.openComment_nth_of_end hend hcomment hbehind
          rw [show (scanned n).openComment = none from hnone] at hopen
          cases hopen

/-- A regular expression that begins like a comment is read as one token;
where a division stands in its place, the comment is found open. -/
theorem Tree.tokens_isSound_regex :
    (∃ tree, Tree.parse "x=/[/*]/;" = .ok tree
        ∧ (Tree.read "x=/[/*]/;").2.tokens.map Token.kind
          = [.identifier, .punctuator .equals, .regex,
            .punctuator .semicolon, .endOfText]
        ∧ ∀ token ∈ (Tree.read "x=/[/*]/;").2.tokens, token.IsSound)
      ∧ (Lexeme.nth "x/[/*]/;"
          (Tree.read "x/[/*]/;").2.rereads 3).token.openComment = some 3
      ∧ ∃ e, Tree.parse "x/[/*]/;" = .error e := by
  have hparses : Tree.Parses "x=/[/*]/;" fun _ =>
      (Tree.read "x=/[/*]/;").2.tokens.map Token.kind
        = [.identifier, .punctuator .equals, .regex,
          .punctuator .semicolon, .endOfText] := by decide +kernel
  obtain ⟨tree, hparse, hkinds⟩ := hparses
  have hopen : (Lexeme.nth "x/[/*]/;" (Tree.read "x/[/*]/;").2.rereads
      3).token.openComment = some 3 := by decide +kernel
  refine ⟨⟨tree, hparse, hkinds, ?_⟩, hopen, ?_⟩
  · exact ((Tree.tokens_isSound _).1 tree hparse).2.2.2
  · exact (Tree.tokens_isSound _).2 3 (by rw [hopen]; rfl)

end ScriptLint
