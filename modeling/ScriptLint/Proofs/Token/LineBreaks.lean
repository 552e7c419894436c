/-
Line breaks in front of tokens. White space breaks the line by each of the
four characters that break a line. A comment knows only two of them, the
line ends: no other character closes a line comment, and none but these
breaks the line from within a block comment. So the two separators break
the line everywhere but in comments (`Trivia.breakLine_iff`), and what a
token says of the trivia in front of it is that any of the four is there
just when no separator is hidden in a comment, or else hidden in a block
comment next to another line break (`Lexeme.breaksAsOne_nth`).

# The argument

- Trivia in front of a token are blanks, line breaks and comments, one
  after the other; the flag of the token is put together from what each of
  them does to it (`Trivia.breakLine_iff`).
- The characters of a piece break the line if any is one of the four. The
  two answers differ only for separators in comments
  (`Trivia.exists_isLineBreak_iff`).
-/
import ScriptLint.Proofs.Parse.Trace

namespace ScriptLint

open Text

-- ========================================================== characters

namespace Text

/-- The two characters that break a line but do not end it. -/
def isSeparator (c : Char) : Bool := c == '\u2028' || c == '\u2029'

theorem isLineBreak_eq (c : Char) :
    isLineBreak c = (isLineEnd c || isSeparator c) := by
  rw [isLineBreak, isLineEnd, isSeparator, Bool.or_assoc _ _ (_ == '\u2029')]

theorem any_isLineBreak_iff {cs : List Char} :
    cs.any isLineBreak = true
      ↔ cs.any isLineEnd = true ∨ cs.any isSeparator = true := by
  simp only [List.any_eq_true, isLineBreak_eq, Bool.or_eq_true, and_or_left,
    exists_or]

theorem isLineBreak_of_isBlank {c : Char} (h : isBlank c = true) :
    isLineBreak c = false := by
  simp only [isBlank, Bool.or_eq_true, Bool.and_eq_true, beq_iff_eq,
    Bool.not_eq_true'] at h
  rcases h with ((((((rfl | rfl) | rfl) | rfl) | rfl) | rfl) | ⟨-, h⟩)
  all_goals first | decide | exact h

end Text

-- ============================================================== trivia

namespace Trivia

/-- The item without the characters that open and close a comment. -/
def inner : Trivia → List Char
  | .blanks run => run
  | .lineBreak c => [c]
  | .lineComment body => body
  | .blockComment body _ => body

/-- Whether a separator stands in a comment. -/
def hidesSeparator : Trivia → Bool
  | .lineComment body => body.any isSeparator
  | .blockComment body _ => body.any isSeparator
  | _ => false

variable {item : Trivia} {items : List Trivia} {rest : List Char}
  {p : Char → Bool}

/-- Slashes and stars apart, what an item is made of is in its inner
part. -/
theorem any_chars (item : Trivia) (hslash : p '/' = false)
    (hstar : p '*' = false) : item.chars.any p = item.inner.any p := by
  cases item with
  | blockComment body closed =>
      cases closed <;> simp [chars, inner, hslash, hstar]
  | _ => simp [chars, inner, hslash]

theorem any_charsOf (p : Char → Bool) (items : List Trivia) :
    (charsOf items).any p = items.any fun item => item.chars.any p :=
  List.any_flatMap

/-- White space within a line has no line break in it. -/
theorem any_blanks {run : List Char} (h : (blanks run).IsProper rest) :
    run.any isLineBreak = false := by
  rw [List.any_eq_false]
  intro c hc
  rw [isLineBreak_of_isBlank (h.2 c hc)]
  exact Bool.false_ne_true

/-- A line comment has no line end in it. -/
theorem any_lineComment {body : List Char}
    (h : (lineComment body).IsProper rest) : body.any isLineEnd = false := by
  rw [List.any_eq_false]
  intro c hc
  rw [h.1 c hc]
  exact Bool.false_ne_true

/-- An item breaks the line by a line end in it, or as a line break. -/
theorem breaksLine_iff (h : item.IsProper rest) :
    item.breaksLine = true
      ↔ item.chars.any isLineEnd = true ∨ ∃ c, item = .lineBreak c := by
  rw [any_chars item rfl rfl]
  cases item with
  | blanks run =>
      have hnone := any_blanks h
      rw [Bool.eq_false_iff, ne_eq, any_isLineBreak_iff, not_or] at hnone
      simp [breaksLine, inner, hnone.1]
  | lineBreak c => simp [breaksLine]
  | lineComment body => simp [breaksLine, inner, any_lineComment h]
  | blockComment body closed => simp [breaksLine, inner]

/-- A character of an item that breaks a line breaks it there, or it is
hidden in a comment. -/
theorem any_chars_isLineBreak_iff (h : item.IsProper rest) :
    item.chars.any isLineBreak = true
      ↔ item.breaksLine = true ∨ item.hidesSeparator = true := by
  rw [any_chars item rfl rfl]
  cases item with
  | blanks run => simp [inner, breaksLine, hidesSeparator, any_blanks h]
  | lineBreak c =>
      have hc : isLineBreak c = true := h
      simp [inner, breaksLine, hc]
  | lineComment body =>
      have hnone := any_lineComment h
      rw [inner, any_isLineBreak_iff, hnone]
      rfl
  | blockComment body closed => exact any_isLineBreak_iff

/-- Of proper trivia each item is what it is called. -/
theorem Proper.exists_isProper (h : Proper items rest) :
    ∀ item ∈ items, ∃ behind, item.IsProper behind := by
  induction items with
  | nil => exact nofun
  | cons item items ih =>
      exact List.forall_mem_cons.2 ⟨⟨_, h.1⟩, ih h.2⟩

/-- What comes to one of two things for each proper item comes to one of
them for the trivia. -/
theorem Proper.exists_iff_or {holds one other : Trivia → Prop}
    (h : Proper items rest)
    (heach : ∀ item behind, item.IsProper behind →
      (holds item ↔ one item ∨ other item)) :
    (∃ item ∈ items, holds item)
      ↔ (∃ item ∈ items, one item) ∨ ∃ item ∈ items, other item := by
  constructor
  · rintro ⟨item, hitem, hholds⟩
    obtain ⟨behind, hproper⟩ := h.exists_isProper item hitem
    rcases (heach item behind hproper).1 hholds with hone | hother
    · exact .inl ⟨item, hitem, hone⟩
    · exact .inr ⟨item, hitem, hother⟩
  · rintro (⟨item, hitem, hone⟩ | ⟨item, hitem, hother⟩)
    · obtain ⟨behind, hproper⟩ := h.exists_isProper item hitem
      exact ⟨item, hitem, (heach item behind hproper).2 (.inl hone)⟩
    · obtain ⟨behind, hproper⟩ := h.exists_isProper item hitem
      exact ⟨item, hitem, (heach item behind hproper).2 (.inr hother)⟩

/-- Trivia break the line by a line end anywhere in them, or by a line
break that stands in no comment. -/
theorem breakLine_iff (h : Proper items rest) :
    breakLine items = true
      ↔ (∃ c ∈ charsOf items, isLineEnd c = true)
        ∨ ∃ c, .lineBreak c ∈ items := by
  have hbreak : (∃ item ∈ items, ∃ c, item = .lineBreak c)
      ↔ ∃ c, .lineBreak c ∈ items :=
    ⟨fun ⟨_, hitem, c, heq⟩ => ⟨c, heq ▸ hitem⟩,
      fun ⟨c, hitem⟩ => ⟨_, hitem, c, rfl⟩⟩
  rw [← List.any_eq_true, any_charsOf, breakLine, List.any_eq_true,
    List.any_eq_true, ← hbreak]
  exact h.exists_iff_or fun _ _ => breaksLine_iff

/-- A character of the trivia breaks a line just when they break the line
or a separator is hidden in one of them. -/
theorem exists_isLineBreak_iff (h : Proper items rest) :
    (∃ c ∈ charsOf items, isLineBreak c = true)
      ↔ breakLine items = true
        ∨ ∃ item ∈ items, item.hidesSeparator = true := by
  rw [← List.any_eq_true, any_charsOf, breakLine, List.any_eq_true,
    List.any_eq_true]
  exact h.exists_iff_or fun _ _ => any_chars_isLineBreak_iff

/-- There is no line end in a line comment. -/
theorem isLineEnd_of_mem_lineComment (h : Proper items rest)
    {body : List Char} (hbody : .lineComment body ∈ items) :
    ∀ c ∈ body, isLineEnd c = false := by
  obtain ⟨behind, hproper⟩ := h.exists_isProper _ hbody
  exact hproper.1

end Trivia

-- ============================================================== tokens

namespace Token

/-- The trivia in front of a token, as the text is cut into them from where
they begin. -/
def triviaIn (cs : List Char) (token : Token) : List Trivia :=
  ((splitAtByte? token.fullStart cs).map fun parts =>
    (Trivia.split parts.2).1).getD []

/-- What a token says of the trivia in front of it. -/
structure IsBehindTrivia (cs : List Char) (token : Token) : Prop where
  slice_eq : slice? cs token.fullStart token.start
    = some (Trivia.charsOf (token.triviaIn cs))
  proper : ∃ ahead, Trivia.Proper (token.triviaIn cs) ahead
  afterBreak_eq : token.afterBreak = Trivia.breakLine (token.triviaIn cs)

/-- Line breaks are the same everywhere in front of a token: the token is
after a line break exactly when any character in front of it breaks a
line, and none stands in a line comment. -/
structure BreaksAsOne (cs : List Char) (token : Token) : Prop where
  afterBreak_iff : token.afterBreak = true
    ↔ ∃ between, slice? cs token.fullStart token.start = some between
      ∧ ∃ c ∈ between, isLineBreak c = true
  lineComment : ∀ body, .lineComment body ∈ token.triviaIn cs →
    ∀ c ∈ body, isLineBreak c = false

variable {cs : List Char} {token : Token}

/-- Line breaks are not the same everywhere just where a comment hides a
separator: in a line comment always, in a block comment unless there is
another line break beside it. -/
theorem IsBehindTrivia.breaksAsOne_iff (h : token.IsBehindTrivia cs) :
    token.BreaksAsOne cs ↔ ∀ item ∈ token.triviaIn cs,
      item.hidesSeparator = true →
        token.afterBreak = true ∧ ∀ body, item ≠ .lineComment body := by
  obtain ⟨ahead, hproper⟩ := h.proper
  have hbreak := Trivia.exists_isLineBreak_iff hproper
  rw [← h.afterBreak_eq] at hbreak
  constructor
  · intro hone item hitem hhides
    refine ⟨hone.afterBreak_iff.2
      ⟨_, h.slice_eq, hbreak.2 (.inr ⟨item, hitem, hhides⟩)⟩, ?_⟩
    rintro body rfl
    -- a separator that a line comment hides is a line break in the middle of
    -- it
    obtain ⟨c, hc, hseparator⟩ := List.any_eq_true.1 hhides
    have hnot := hone.lineComment body hitem c hc
    rw [isLineBreak_eq, hseparator, Bool.or_true] at hnot
    cases hnot
  · intro hhidden
    constructor
    · rw [h.slice_eq]
      simp only [Option.some.injEq, exists_eq_left']
      rw [hbreak]
      constructor
      · exact .inl
      · rintro (hafter | ⟨item, hitem, hhides⟩)
        · exact hafter
        · exact (hhidden item hitem hhides).1
    · intro body hbody c hc
      have hend := Trivia.isLineEnd_of_mem_lineComment hproper hbody c hc
      rw [isLineBreak_eq, hend, Bool.false_or, Bool.eq_false_iff]
      intro hseparator
      exact (hhidden _ hbody (List.any_eq_true.2 ⟨c, hc, hseparator⟩)).2 _ rfl

/-- A comment that hides a separator makes line breaks differ where no
other line break is beside it. -/
theorem IsBehindTrivia.not_breaksAsOne (h : token.IsBehindTrivia cs)
    {item : Trivia} (hitem : item ∈ token.triviaIn cs)
    (hhides : item.hidesSeparator = true)
    (hafter : token.afterBreak = false) : ¬ token.BreaksAsOne cs := by
  intro hone
  have hbreak := (h.breaksAsOne_iff.1 hone item hitem hhides).1
  rw [hafter] at hbreak
  cases hbreak

/-- Only its place and where the line breaks count. -/
theorem IsBehindTrivia.congr {token' : Token} (h : token.IsBehindTrivia cs)
    (hfullStart : token'.fullStart = token.fullStart)
    (hstart : token'.start = token.start)
    (hbreak : token'.afterBreak = token.afterBreak) :
    token'.IsBehindTrivia cs := by
  have htrivia : token'.triviaIn cs = token.triviaIn cs := by
    rw [triviaIn, hfullStart, triviaIn]
  constructor
  · rw [hfullStart, hstart, htrivia, h.slice_eq]
  · rw [htrivia]
    exact h.proper
  · rw [hbreak, htrivia, h.afterBreak_eq]

end Token

namespace Lexeme

variable {cs before : List Char}

/-- What is read off the rest of a text is behind the trivia that the rest
begins with. -/
theorem read_isBehindTrivia {text : Stretch} (h : before ++ text.chars = cs) :
    (read (byteLength before) text).token.IsBehindTrivia cs := by
  have htrivia : (read (byteLength before) text).token.triviaIn cs
      = (Trivia.split text.chars).1 := by
    show ((splitAtByte? (byteLength before) cs).map _).getD [] = _
    rw [← h, splitAtByte?_append]
    rfl
  have hslice := slice?_append before
    (Trivia.charsOf (Trivia.split text.chars).1) (Trivia.split text.chars).2
  rw [Trivia.charsOf_append_split, h] at hslice
  constructor
  · rw [htrivia]
    exact hslice
  · rw [htrivia]
    exact ⟨_, Trivia.proper_split text.chars⟩
  · rw [htrivia]
    rfl

/-- Reading a slash again changes nothing in front of it. -/
theorem isBehindTrivia_asRegex {lexeme : Lexeme}
    (h : lexeme.token.IsBehindTrivia cs) :
    lexeme.asRegex.token.IsBehindTrivia cs := by
  rcases lexeme.asRegex_eq_or with hsame | ⟨-, -, hfullStart, hstart, -⟩
  · rwa [hsame]
  · exact h.congr hfullStart hstart lexeme.asRegex_says.2.2.1

/-- Every token of a text is behind the trivia that stand in front of
it. -/
theorem nth_isBehindTrivia (text : String) (again : Nat → Bool) (n : Nat) :
    (nth text again n).token.IsBehindTrivia text.toList := by
  obtain ⟨before, rest, htext, hread⟩ := exists_unread_eq text again n
  rw [nth_eq, hread]
  split
  · exact isBehindTrivia_asRegex (read_isBehindTrivia htext)
  · exact read_isBehindTrivia htext

/-- For every token of a text, whatever slashes are read again: it is after
a line break exactly when a line end is anywhere in front of it, or a line
break in no comment; and no line end is in a line comment in front of it.
So a line break is the same everywhere in front of the token exactly when
each comment in which a separator is hidden is a block comment and has
another line break beside it. -/
theorem breaksAsOne_nth (text : String) (again : Nat → Bool) (n : Nat) :
    let token := (nth text again n).token
    let items := token.triviaIn text.toList
    slice? text.toList token.fullStart token.start
        = some (Trivia.charsOf items)
      ∧ (token.afterBreak = true
        ↔ (∃ c ∈ Trivia.charsOf items, isLineEnd c = true)
          ∨ ∃ c, .lineBreak c ∈ items)
      ∧ (∀ body, .lineComment body ∈ items → ∀ c ∈ body,
        isLineEnd c = false)
      ∧ (token.BreaksAsOne text.toList ↔ ∀ item ∈ items,
        item.hidesSeparator = true →
          token.afterBreak = true ∧ ∀ body, item ≠ .lineComment body) := by
  have htrivia := nth_isBehindTrivia text again n
  obtain ⟨ahead, hproper⟩ := htrivia.proper
  refine ⟨htrivia.slice_eq, ?_, ?_, htrivia.breaksAsOne_iff⟩
  · rw [htrivia.afterBreak_eq]
    exact Trivia.breakLine_iff hproper
  · exact fun body => Trivia.isLineEnd_of_mem_lineComment hproper

/-- A separator in a block comment and one in a line comment. -/
def hiddenSeparators : String := "/*\u2028*/a//\u2028b"

/-- The one does not put `a` behind a line break, and the other does not
keep `b` from being part of the comment. -/
theorem not_breaksAsOne_hiddenSeparators :
    let token := (nth hiddenSeparators (fun _ => false) 0).token
    let last := (nth hiddenSeparators (fun _ => false) 1).token
    token.kind = .identifier ∧ token.afterBreak = false
      ∧ token.triviaIn hiddenSeparators.toList
        = [.blockComment ['\u2028'] true]
      ∧ ¬ token.BreaksAsOne hiddenSeparators.toList
      ∧ last.kind = .endOfText ∧ last.afterBreak = false
      ∧ last.triviaIn hiddenSeparators.toList
        = [.lineComment ['\u2028', 'b']]
      ∧ ¬ last.BreaksAsOne hiddenSeparators.toList := by
  intro token last
  have hblock : token.triviaIn hiddenSeparators.toList
      = [.blockComment ['\u2028'] true] := by
    decide +kernel
  have hline : last.triviaIn hiddenSeparators.toList
      = [.lineComment ['\u2028', 'b']] := by
    decide +kernel
  have hafter : token.afterBreak = false ∧ last.afterBreak = false := by
    decide +kernel
  have hfirst : ¬ token.BreaksAsOne hiddenSeparators.toList :=
    (nth_isBehindTrivia _ _ 0).not_breaksAsOne
      (hblock ▸ List.mem_singleton_self _) rfl hafter.1
  have hlast : ¬ last.BreaksAsOne hiddenSeparators.toList :=
    (nth_isBehindTrivia _ _ 1).not_breaksAsOne
      (hline ▸ List.mem_singleton_self _) rfl hafter.2
  exact ⟨by decide +kernel, hafter.1, hblock, hfirst, by decide +kernel,
    hafter.2, hline, hlast⟩

end Lexeme

end ScriptLint
