/-
Lines of words. A text that is spelled by words, with at most a blank in
front of each and behind each what ends it, is read back one token for
each word (`Lexeme.reads_of_spells`). The words written in a line, with
single blanks between them, spell such a text.
-/
import ScriptLint.Proofs.Token.Words

namespace ScriptLint

open Text

-- ============================================================= lexemes

/-- The characters that words are written with: in front of each word at
most a blank, and behind each what ends it. -/
inductive Spells : List Char → List Word → Prop where
  | nil : Spells [] []
  | word {w : Word} {ws : List Word} {gap rest : List Char} :
    gap = [] ∨ gap = [' '] → w.isValid = true → Word.Ends rest →
    Spells rest ws → Spells (gap ++ (w.chars ++ rest)) (w :: ws)

/-- The token is that of a word, and nothing is the matter with it. -/
structure Token.IsOf (token : Token) (w : Word) : Prop where
  kind_eq : token.kind = w.kind
  value_eq : token.value = w.value
  afterBreak_eq : token.afterBreak = false
  doc_eq : token.doc = none
  isOpen_eq : token.isOpen = false
  openComment_eq : token.openComment = none

namespace Lexeme

/-- From this lexeme on, the tokens are those of the words, and then the
text is at its end. -/
inductive Reads : Lexeme → List Word → Prop where
  | stop {lexeme : Lexeme} : lexeme.token.kind = .endOfText →
    lexeme.token.openComment = none → Reads lexeme []
  | word {lexeme : Lexeme} {w : Word} {ws : List Word} :
    lexeme.token.IsOf w →
    lexeme.next.ahead.length < lexeme.ahead.length →
    Reads lexeme.next ws → Reads lexeme (w :: ws)

/-- A word at the front of a text is the next token, and what is left of
the text is what follows the word. -/
theorem read_word {w : Word} (hw : w.isValid = true) {gap rest : List Char}
    (hgap : gap = [] ∨ gap = [' ']) (hrest : Word.Ends rest) (offset : Nat)
    {text : Stretch} (htext : text.chars = gap ++ (w.chars ++ rest)) :
    (read offset text).token.IsOf w ∧ (read offset text).rest.chars = rest
      ∧ (read offset text).ahead.chars = w.chars ++ rest := by
  obtain ⟨c, cs, hchars, hblank, hfirst⟩ := Word.exists_chars hw hrest
  have hsplit : ∃ items, Trivia.split text.chars = (items, w.chars ++ rest)
      ∧ (items = [] ∨ items = [.blanks [' ']]) := by
    rw [htext]
    rcases hgap with rfl | rfl
    · exact ⟨_, Trivia.split_of_first?_eq_none hfirst, .inl rfl⟩
    · rw [hchars] at hfirst ⊢
      exact ⟨_, Trivia.split_blank hblank hfirst, .inr rfl⟩
  obtain ⟨items, hsplit, hitems⟩ := hsplit
  have hreading := Word.reading_of hw hrest
  refine ⟨?_, ?_, ?_⟩
  · constructor <;> simp only [read, Trivia.cut, hsplit, hreading]
    · simp
    · rcases hitems with rfl | rfl <;> rfl
    · rcases hitems with rfl | rfl <;> rfl
    · rcases hitems with rfl | rfl <;> rfl
    · rcases hitems with rfl | rfl <;> rfl
  · simp [read, Trivia.cut, hsplit, hreading, Stretch.drop]
  · simp [read, Trivia.cut, hsplit]

/-- At the end of the text there is nothing to read. -/
theorem read_end (offset : Nat) {text : Stretch} (htext : text.chars = []) :
    (read offset text).token.kind = .endOfText
      ∧ (read offset text).token.openComment = none := by
  have hsplit : Trivia.split text.chars = ([], []) := by
    rw [htext]
    exact Trivia.split_of_first?_eq_none rfl
  constructor <;> simp [read, Trivia.cut, hsplit, Token.Reading.of,
    Trivia.openComment?]

theorem length_ahead_le (offset : Nat) (text : Stretch) :
    (read offset text).ahead.length ≤ text.length := by
  have h := congrArg List.length (Trivia.charsOf_append_split text.chars)
  rw [List.length_append] at h
  rw [Stretch.length_eq, text.length_eq]
  simp only [read, Trivia.cut]
  omega

/-- Words are read back from how they are written. -/
theorem reads_of_spells {cs : List Char} {ws : List Word}
    (h : Spells cs ws) (offset : Nat) {text : Stretch}
    (htext : text.chars = cs) : (read offset text).Reads ws := by
  induction h generalizing offset text with
  | nil =>
      obtain ⟨hkind, hopen⟩ := read_end offset htext
      exact .stop hkind hopen
  | @word w ws gap rest hgap hw hrest hspells ih =>
      obtain ⟨htoken, hbehind, hahead⟩ :=
        read_word hw hgap hrest offset htext
      obtain ⟨c, ds, hchars, -, -⟩ := Word.exists_chars hw hrest
      refine .word htoken ?_ (ih _ hbehind)
      have hnext := length_ahead_le (read offset text).token.stop
        (read offset text).rest
      rw [(read offset text).rest.length_eq, hbehind] at hnext
      rw [(read offset text).ahead.length_eq, hahead, hchars]
      rw [List.cons_append, List.length_cons, List.length_append]
      exact Nat.lt_of_le_of_lt hnext (by omega)

end Lexeme

-- =============================================================== lines

/-- Words as they are written in a line, with single blanks between
them. -/
def Word.line (ws : List Word) : String :=
  " ".intercalate (ws.map Word.text)

/-- A line of words spells them, with another text behind it or not. -/
theorem spells_line {ws more : List Word}
    (hvalid : ∀ w ∈ ws, w.isValid = true) {rest gap : List Char}
    (hgap : gap = [] ∨ gap = [' ']) (hrest : Word.Ends rest)
    (hmore : Spells rest more) (hne : ws ≠ []) :
    Spells (gap ++ ((Word.line ws).toList ++ rest)) (ws ++ more) := by
  induction ws generalizing gap with
  | nil => exact absurd rfl hne
  | cons w ws ih =>
      obtain ⟨hw, hws⟩ := List.forall_mem_cons.1 hvalid
      cases ws with
      | nil =>
          have hline : (Word.line [w]).toList = w.chars := by
            simp [Word.line, Word.text]
          rw [hline]
          exact .word hgap hw hrest hmore
      | cons v ws =>
          have hline : (Word.line (w :: v :: ws)).toList
              = w.chars ++ ' ' :: (Word.line (v :: ws)).toList := by
            simp [Word.line, Word.text, String.intercalate_cons_cons]
          have hspells := ih hws (.inr rfl) (by simp)
          rw [hline, List.append_assoc, List.cons_append]
          exact .word hgap hw (Word.ends_blank _) hspells

end ScriptLint
