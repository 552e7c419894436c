/-
What a token says is so. Besides its places a token carries its text, the
last documentation comment in front of it, where a comment in front of it
is left open, and whether it is closed itself. All of this is read off
the pieces that a text is cut into at the lexeme: the trivia, which are
just those that the text has there, and the text of the token
(`Lexeme.CutWith`).

A comment that is left open runs to the end of the text, so the one token
behind it is the end.
-/
import ScriptLint.Proofs.Token.Tiling

namespace ScriptLint

open Text

-- ============================================================== trivia

/-- Behind a comment that is left open there is nothing. -/
theorem Trivia.eq_nil_of_openComment? {items : List Trivia}
    {rest : List Char} (h : Proper items rest) {offset n : Nat}
    (hopen : openComment? offset items = some n) : rest = [] := by
  induction items generalizing offset with
  | nil => cases hopen
  | cons item items ih =>
      rw [openComment?] at hopen
      split at hopen
      · rename_i hitem
        have hproper := h.1
        cases item with
        | blockComment body closed =>
            cases closed with
            | false => exact (List.append_eq_nil_iff.1 hproper.2).2
            | true => cases hitem
        | _ => cases hitem
      · exact ih h.2 hopen

theorem Trivia.split_nil : split [] = ([], []) := by
  unfold split
  split
  · rfl
  · cases ‹first? [] = some _›

-- ============================================================ readings

/-- Whether the value of a token of the kind is the text that it is
written with. -/
def TokenKind.isSpelled : TokenKind → Bool
  | .identifier | .keyword _ | .number | .regex => true
  | _ => false

namespace Token.Reading

/-- Words and numbers are their own values, only a string can be left
open, and no reading is a regular expression. -/
structure Plainly (reading : Reading) : Prop where
  value_eq : reading.kind.isSpelled = true → reading.value = reading.raw
  closed : reading.kind ≠ .string → reading.isOpen = false
  kind_ne : reading.kind ≠ .regex

theorem of_plainly (cs : List Char) : (of cs).Plainly := by
  cases cs with
  | nil => exact ⟨fun _ => rfl, fun _ => rfl, by simp [of]⟩
  | cons c cs =>
      rw [of]
      split
      · exact ⟨by simp [string, TokenKind.isSpelled],
          fun h => absurd rfl h, by simp [string]⟩
      · split
        · exact ⟨fun _ => rfl, fun _ => rfl, by simp [number]⟩
        · split
          · refine ⟨fun _ => rfl, fun _ => rfl, ?_⟩
            unfold word
            dsimp only
            split <;> simp
          · unfold mark
            split
            · exact ⟨by simp [TokenKind.isSpelled], fun _ => rfl, by simp⟩
            · exact ⟨by simp [TokenKind.isSpelled], fun _ => rfl, by simp⟩

end Token.Reading

-- ============================================================= lexemes

namespace Lexeme

/-- How a text is cut at a lexeme, and that the token says of the pieces
what is so. -/
structure CutWith (cs before : List Char) (items : List Trivia)
    (raw : List Char) (lexeme : Lexeme) : Prop
    extends CutBy cs before items raw lexeme where
  split_eq : Trivia.split (Trivia.charsOf items ++ lexeme.ahead.chars)
    = (items, lexeme.ahead.chars)
  doc_eq : lexeme.token.doc = (Trivia.lastDoc? items).map String.ofList
  openComment_eq : lexeme.token.openComment
    = Trivia.openComment? lexeme.token.fullStart items
  value_eq : lexeme.token.kind.isSpelled = true →
    lexeme.token.value.toList = raw
  closed : lexeme.token.openComment = none →
    lexeme.token.kind ≠ .string → lexeme.token.kind ≠ .regex →
    lexeme.token.isOpen = false

/-- A lexeme stands in a text when the text can be cut at it and its token
says what is so. -/
def StandsIn (cs : List Char) (lexeme : Lexeme) : Prop :=
  ∃ before items raw, lexeme.CutWith cs before items raw

variable {cs before : List Char} {lexeme : Lexeme}

theorem StandsIn.liesIn (h : lexeme.StandsIn cs) : lexeme.LiesIn cs := by
  obtain ⟨before, items, raw, hcut⟩ := h
  exact ⟨before, items, raw, hcut.toCutBy⟩

/-- What is read off the rest of a text is no regular expression yet. -/
theorem kind_read_ne (offset : Nat) (text : Stretch) :
    (read offset text).token.kind ≠ .regex :=
  (Token.Reading.of_plainly _).kind_ne

/-- The lexeme that is read off what is left of a text stands in it. -/
theorem read_standsIn {text : Stretch} (h : before ++ text.chars = cs) :
    (read (byteLength before) text).StandsIn cs := by
  have hcut := Trivia.charsOf_append_split text.chars
  have hfront := Token.Reading.of_frontOf (Trivia.split text.chars).2
  have hplain := Token.Reading.of_plainly (Trivia.split text.chars).2
  refine ⟨before, (Trivia.split text.chars).1, _,
    ⟨h ▸ congrArg (before ++ ·) hcut,
      List.prefix_iff_eq_append.1 hfront.raw_front, rfl, rfl, rfl,
      Trivia.proper_split _, hfront.raw_ne_nil, hfront.kind_eq_iff,
      hfront.mark_front⟩, ?_, rfl, rfl, fun hkind => ?_,
    fun hcomment hstring _ => ?_⟩
  · exact (congrArg Trivia.split hcut).trans rfl
  · exact String.toList_ofList.trans (hplain.value_eq hkind)
  · exact (Bool.or_eq_false_iff.2
      ⟨hplain.closed hstring, Option.isSome_eq_false_iff.2
        (Option.isNone_iff_eq_none.2 hcomment)⟩)

theorem first_standsIn (text : String) :
    (first text).StandsIn text.toList := by
  have hnothing : [] ++ (Stretch.ofList text.toList).chars = text.toList :=
    List.nil_append _
  exact read_standsIn hnothing

/-- Behind a lexeme in a text the next one stands in it. -/
theorem LiesIn.next_standsIn (h : lexeme.LiesIn cs) :
    lexeme.next.StandsIn cs := by
  obtain ⟨before, hrest, hstop⟩ := h.exists_before
  rw [Lexeme.next, hstop]
  exact read_standsIn hrest

/-- Of what a token says besides its places, reading a slash again changes
the value and whether the token is closed. -/
theorem asRegex_says (lexeme : Lexeme) :
    lexeme.asRegex.token.doc = lexeme.token.doc
      ∧ lexeme.asRegex.token.openComment = lexeme.token.openComment
      ∧ lexeme.asRegex.token.afterBreak = lexeme.token.afterBreak
      ∧ (lexeme.asRegex = lexeme
        ∨ lexeme.asRegex.token.kind = .regex
          ∧ lexeme.asRegex.token.value.toList
            = (RegexLiteral.read (lexeme.ahead.chars.drop 1)).1) := by
  unfold Lexeme.asRegex
  split
  · exact ⟨rfl, rfl, rfl, .inr ⟨rfl, String.toList_ofList⟩⟩
  · exact ⟨rfl, rfl, rfl, .inr ⟨rfl, String.toList_ofList⟩⟩
  · exact ⟨rfl, rfl, rfl, .inl rfl⟩

/-- What is known about a slash is known about the regular expression
that is read in its place. -/
theorem StandsIn.asRegex (h : lexeme.StandsIn cs) :
    lexeme.asRegex.StandsIn cs := by
  obtain ⟨before, items, raw, hcut⟩ := h
  obtain ⟨hdoc, hcomment, -, hsame | ⟨hkind, hvalue⟩⟩ := lexeme.asRegex_says
  · rw [hsame]
    exact ⟨before, items, raw, hcut⟩
  rcases hcut.toCutBy.asRegex with hsame | hregex
  · rw [hsame]
    exact ⟨before, items, raw, hcut⟩
  have hahead : lexeme.asRegex.ahead.chars = lexeme.ahead.chars :=
    List.append_cancel_left
      (List.append_cancel_left (hregex.text_eq.trans hcut.text_eq.symm))
  refine ⟨before, items, _, hregex, ?_, hdoc.trans hcut.doc_eq, ?_,
    fun _ => hvalue, fun _ _ hne => absurd hkind hne⟩
  · rw [hahead]
    exact hcut.split_eq
  · rw [hcomment, hcut.openComment_eq, hcut.fullStart_eq,
      hregex.fullStart_eq]

/-- A comment in front of a token is left open only at the end. -/
theorem StandsIn.openComment_eq_none (h : lexeme.StandsIn cs)
    (hkind : lexeme.token.kind ≠ .endOfText) :
    lexeme.token.openComment = none := by
  obtain ⟨before, items, raw, hcut⟩ := h
  cases hcomment : lexeme.token.openComment with
  | none => rfl
  | some n =>
      rw [hcut.openComment_eq] at hcomment
      have hahead := Trivia.eq_nil_of_openComment? hcut.proper hcomment
      exact absurd (hcut.kind_eq_iff.2 hahead) hkind

/-- The token of the end is followed by the end without anything in front
of it. -/
theorem StandsIn.next_of_end (h : lexeme.StandsIn cs)
    (hkind : lexeme.token.kind = .endOfText) :
    lexeme.next.token.kind = .endOfText
      ∧ lexeme.next.token.openComment = none := by
  obtain ⟨before, items, raw, hcut⟩ := h
  have hahead := hcut.ahead_eq
  rw [hcut.kind_eq_iff.1 hkind, List.append_eq_nil_iff] at hahead
  have hsplit : Trivia.split lexeme.rest.chars = ([], []) := by
    rw [hahead.2, Trivia.split_nil]
  refine ⟨?_, ?_⟩
  · show (Token.Reading.of (Trivia.split lexeme.rest.chars).2).kind = _
    rw [hsplit]
    rfl
  · show Trivia.openComment? _ (Trivia.split lexeme.rest.chars).1 = _
    rw [hsplit]
    rfl

end Lexeme

end ScriptLint
