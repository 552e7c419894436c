/-
Scanning undoes printing. Tokens of every kind that can be written down
(`Word.IsToken`), written in a line with single blanks between them, are
scanned back one by one, with their kinds and values, up to the end of the
text, and nothing else is found on the way: no line break, no
documentation comment, nothing that is left open (`Word.scan_line`).

How a word is read in front of what ends it has been said word by word
(`Word.reading_of`); here the scan follows the line of them.

# The argument

- A word that can be written is read as one token, in front of a blank or
  at the end (`read_word`). What has to be said of each kind is that its
  text has the form that it is read by (`isValid_iff`).
- The run over the words is an induction, with the words still to come
  spelled behind the lexeme.
-/
import ScriptLint.Proofs.Token.Lines
import ScriptLint.Proofs.Token.Spelling

namespace ScriptLint

open Text

-- =============================================================== words

namespace NumberLiteral

/-- What has the form of a number is read to its end. -/
theorem read_eq_self_iff {cs : List Char} : read cs = cs ↔ IsNumeral cs := by
  constructor
  · intro h
    rw [← h]
    exact isNumeral_read cs
  · intro h
    obtain ⟨hfront, -, hlongest⟩ := isLongest_read cs
    exact hfront.eq_of_length_le (hlongest cs (List.prefix_refl cs) h)

end NumberLiteral

namespace Word

/-- Whether a word is a token that can be written: an identifier begins
and goes on like one and is spelled like no keyword, a number has the form
of one and begins with a digit, be it behind a point, and strings stand in
single or double quotes. -/
def IsToken : Word → Prop
  | .mark _ | .keyword _ => True
  | .identifier name =>
    (∃ c ∈ name.toList.head?, isIdentifierStart c = true)
      ∧ (∀ c ∈ name.toList, isIdentifierPart c = true)
      ∧ ∀ k : Keyword, name ≠ k.text
  | .number text => NumberLiteral.IsNumeral text.toList
    ∧ NumberLiteral.startsAt text.toList = true
  | .string quote _ => quote = '"' ∨ quote = '\''

theorem isValid_iff (w : Word) : w.isValid = true ↔ w.IsToken := by
  cases w with
  | mark p => exact ⟨fun _ => trivial, fun _ => rfl⟩
  | keyword k => exact ⟨fun _ => trivial, fun _ => rfl⟩
  | identifier name =>
      have hkeyword : (Keyword.ofText? name).isNone = true
          ↔ ∀ k : Keyword, name ≠ k.text := by
        simp only [Option.isNone_iff_eq_none, ne_eq,
          Option.eq_none_iff_forall_ne_some, Keyword.ofText?_eq_some_iff]
      simp only [isValid, isName, IsToken, Bool.and_eq_true, hkeyword,
        Option.any_eq_true, List.all_eq_true, and_assoc]
      rfl
  | number text =>
      simp only [isValid, IsToken, Bool.and_eq_true, beq_iff_eq,
        NumberLiteral.read_eq_self_iff]
      exact And.comm
  | string quote value => simp [isValid, IsToken]

instance : DecidablePred IsToken := fun w =>
  decidable_of_iff _ w.isValid_iff

end Word

-- =============================================================== scans

namespace Lexeme

/-- The next `count` tokens from a lexeme on, none of them read again. -/
def scan : Nat → Lexeme → List Token
  | 0, _ => []
  | count + 1, lexeme => lexeme.token :: scan count lexeme.next

/-- At the end of a text the token of the end is all there is. -/
theorem read_nil (offset : Nat) {text : Stretch} (htext : text.chars = []) :
    (read offset text).token
      = { kind := .endOfText, value := "", fullStart := offset
          start := offset, stop := offset, afterBreak := false
          doc := none, isOpen := false, openComment := none } := by
  have hsplit : Trivia.split text.chars = ([], []) := by
    rw [htext]
    exact Trivia.split_nil
  simp [read, Trivia.cut, hsplit, Token.Reading.of, Trivia.openComment?,
    Trivia.charsOf, Trivia.breakLine, Trivia.lastDoc?]

/-- A text that is spelled by words is scanned into their tokens and the
end. -/
theorem scan_of_spells {cs : List Char} {ws : List Word}
    (h : Spells cs ws) (offset : Nat) {text : Stretch}
    (htext : text.chars = cs) :
    let tokens := scan (ws.length + 1) (read offset text)
    tokens.map (fun token => (token.kind, token.value))
        = ws.map (fun w => (w.kind, w.value)) ++ [(.endOfText, "")]
      ∧ ∀ token ∈ tokens, token.isOpen = false ∧ token.afterBreak = false
        ∧ token.doc = none := by
  dsimp only
  induction h generalizing offset text with
  | nil =>
      have hend := read_nil offset htext
      rw [List.length_nil, scan, scan, hend]
      exact ⟨rfl, List.forall_mem_singleton.2 ⟨rfl, rfl, rfl⟩⟩
  | @word w ws gap rest hgap hw hrest hspells ih =>
      obtain ⟨htoken, hbehind, -⟩ := read_word hw hgap hrest offset htext
      obtain ⟨hwords, hplain⟩ := ih (read offset text).token.stop hbehind
      rw [List.length_cons, scan, next]
      constructor
      · rw [List.map_cons, List.map_cons, List.cons_append, hwords,
          htoken.kind_eq, htoken.value_eq]
      · exact List.forall_mem_cons.2 ⟨⟨htoken.isOpen_eq,
          htoken.afterBreak_eq, htoken.doc_eq⟩, hplain⟩

end Lexeme

-- =============================================================== lines

namespace Word

theorem spells_of_line {ws : List Word}
    (hvalid : ∀ w ∈ ws, w.isValid = true) : Spells (line ws).toList ws := by
  by_cases hne : ws = []
  · subst hne
    exact .nil
  · have hspells := spells_line hvalid (.inl rfl) ends_nil .nil hne
    rwa [List.nil_append, List.append_nil, List.append_nil] at hspells

/-- Written in a line, with single blanks between them, tokens are scanned
back: as many tokens as there are words and the end have the kinds and the
values of the words, none of them is left open, and neither line breaks nor
documentation comments precede them. -/
theorem scan_line {ws : List Word} (h : ∀ w ∈ ws, w.IsToken) :
    let tokens := (Lexeme.first (line ws)).scan (ws.length + 1)
    tokens.map (fun token => (token.kind, token.value))
        = ws.map (fun w => (w.kind, w.value)) ++ [(.endOfText, "")]
      ∧ ∀ token ∈ tokens, token.isOpen = false ∧ token.afterBreak = false
        ∧ token.doc = none := by
  have hspells := spells_of_line fun w hw => w.isValid_iff.2 (h w hw)
  exact Lexeme.scan_of_spells hspells 0 rfl

/-- A declaration that looks like something else between its quotes. -/
def declaration : List Word :=
  [.keyword .varWord, .identifier "größe", .mark .equals,
   .string '\'' "it's /** \n\u2028\\x41 */", .mark .plus, .number ".5e-3",
   .mark .slash, .number "0x", .mark .star, .string '"' "",
   .mark .semicolon]

/-- A declaration that is written word by word is scanned back. -/
theorem scan_line_declaration :
    (∀ w ∈ declaration, w.IsToken)
      ∧ let tokens := (Lexeme.first (line declaration)).scan 12
        tokens.map (fun token => (token.kind, token.value))
            = declaration.map (fun w => (w.kind, w.value))
              ++ [(.endOfText, "")]
          ∧ ∀ token ∈ tokens, token.isOpen = false
            ∧ token.afterBreak = false ∧ token.doc = none := by
  have hwords : ∀ w ∈ declaration, w.IsToken := by decide +kernel
  exact ⟨hwords, scan_line hwords⟩

end Word

end ScriptLint
