/-
Words and how they are read back. A word is a token to be written: a
punctuator, a keyword, an identifier, the text of a number, or the value
of a string in quotes. Written one behind the other, with single blanks
between them or a semicolon behind them, words are read back one token
each, with nothing but that blank for trivia.

What makes this work is what follows a word: a blank, a semicolon or the
end (`Word.Ends`), none of which goes on with any word. So the reading of
a word may be looked at on its own (`Word.reading_of`).
-/
import ScriptLint.Proofs.Runs
import ScriptLint.Token

namespace ScriptLint

open Text

-- ========================================================== characters

/-- Ranges that lie apart have no character in common. -/
theorem not_has_of_disjoint {ranges others : CodeRanges}
    (h : ∀ r ∈ ranges, ∀ q ∈ others, r.2 < q.1 ∨ q.2 < r.1) {c : Char}
    (hc : ranges.has c = true) : others.has c = false := by
  simp only [CodeRanges.has, List.any_eq_true, List.any_eq_false,
    Bool.and_eq_true, decide_eq_true_eq] at hc ⊢
  obtain ⟨r, hr, hlow, hhigh⟩ := hc
  intro q hq hboth
  rcases h r hr q hq with hlt | hlt <;> omega

set_option maxRecDepth 20000 in
/-- No white space is alphabetic. -/
theorem isAlphabetic_of_isWhiteSpace {c : Char} (h : isWhiteSpace c = true) :
    isAlphabetic c = false := by
  refine not_has_of_disjoint ?_ h
  decide +kernel

/-- Letters are alphabetic. -/
theorem isAlphabetic_of_isLetter {c : Char} (h : isLetter c = true) :
    isAlphabetic c = true := by
  simp only [isLetter, Bool.or_eq_true, Bool.and_eq_true, decide_eq_true_eq,
    Char.le_def, UInt32.le_iff_toNat_le] at h
  rw [isAlphabetic, CodeRanges.has, List.any_eq_true]
  rcases h with h | h
  · exact ⟨(0x61, 0x7a), .tail _ (.head _), by simpa using h⟩
  · exact ⟨(0x41, 0x5a), .head _, by simpa using h⟩

/-- What an identifier begins with is alphabetic, but for two marks. -/
theorem alphabetic_or_of_isIdentifierStart {c : Char}
    (h : isIdentifierStart c = true) :
    isAlphabetic c = true ∨ c = '$' ∨ c = '_' := by
  simp only [isIdentifierStart, Bool.or_eq_true, Bool.and_eq_true,
    beq_iff_eq] at h
  rcases h with ((h | h) | h) | h
  · exact .inl (isAlphabetic_of_isLetter h)
  · exact .inr (.inl h)
  · exact .inr (.inr h)
  · exact .inl h.2

/-- Blanks and line breaks are white space, but for the byte order
mark. -/
theorem isWhiteSpace_of_isBlank_or {c : Char}
    (h : isBlank c = true ∨ isLineBreak c = true) :
    isWhiteSpace c = true ∨ c = '\ufeff' := by
  simp only [isBlank, isLineBreak, Bool.or_eq_true, Bool.and_eq_true,
    beq_iff_eq] at h
  rcases h with ((((((rfl | rfl) | rfl) | rfl) | rfl) | rfl) | h)
    | (((rfl | rfl) | rfl) | rfl)
  all_goals first
    | exact .inr rfl
    | exact .inl h.1.2
    | exact .inl (by decide)

/-- Digits are those ten characters. -/
theorem has_of_isDigit {c : Char} (h : isDigit c = true) :
    CodeRanges.has [(0x30, 0x39)] c = true := by
  simpa [isDigit, CodeRanges.has, Char.le_def, UInt32.le_iff_toNat_le] using h

/-- No identifier begins with a digit. -/
theorem isIdentifierStart_of_isDigit {c : Char} (h : isDigit c = true) :
    isIdentifierStart c = false := by
  have halphabetic : isAlphabetic c = false :=
    not_has_of_disjoint (by decide +kernel) (has_of_isDigit h)
  rw [← Bool.not_eq_true]
  intro hstart
  rcases alphabetic_or_of_isIdentifierStart hstart with h' | rfl | rfl
  · rw [halphabetic] at h'
    cases h'
  · exact absurd h (by decide)
  · exact absurd h (by decide)

/-- What begins an identifier is no blank and breaks no line. -/
theorem not_blank_of_isIdentifierStart {c : Char}
    (h : isIdentifierStart c = true) :
    isBlank c = false ∧ isLineBreak c = false := by
  have hnot : ¬(isBlank c = true ∨ isLineBreak c = true) := by
    intro hblank
    rcases alphabetic_or_of_isIdentifierStart h with halpha | rfl | rfl
    · rcases isWhiteSpace_of_isBlank_or hblank with hspace | rfl
      · rw [isAlphabetic_of_isWhiteSpace hspace] at halpha
        cases halpha
      · exact absurd halpha (by decide +kernel)
    · exact absurd hblank (by decide)
    · exact absurd hblank (by decide)
  simpa [not_or] using hnot

/-- No line break goes on with an identifier. -/
theorem isIdentifierPart_of_isLineBreak {c : Char}
    (h : isLineBreak c = true) : isIdentifierPart c = false := by
  simp only [isLineBreak, Bool.or_eq_true, beq_iff_eq] at h
  rcases h with ((rfl | rfl) | rfl) | rfl <;> decide +kernel

/-- Digits and points are no blanks and break no line. -/
theorem not_blank_of_isDigit_or {c : Char}
    (h : isDigit c = true ∨ c = '.') :
    isBlank c = false ∧ isLineBreak c = false := by
  have hnot : ¬(isBlank c = true ∨ isLineBreak c = true) := by
    intro hblank
    rcases h with h | rfl
    · rcases isWhiteSpace_of_isBlank_or hblank with hspace | rfl
      · have hnone : isWhiteSpace c = false :=
          not_has_of_disjoint (by decide) (has_of_isDigit h)
        rw [hnone] at hspace
        cases hspace
      · exact absurd h (by decide)
    · exact absurd hblank (by decide)
  simpa [not_or] using hnot

-- ============================================================== trivia

namespace Trivia

/-- A text begins with no trivia when its first character is neither a
blank nor a line break and does not open a comment. -/
theorem first?_eq_none {c : Char} {cs : List Char}
    (hblank : isBlank c = false) (hbreak : isLineBreak c = false)
    (hslash : c = '/' → ∀ d ∈ cs.head?, d ≠ '/' ∧ d ≠ '*') :
    first? (c :: cs) = none := by
  unfold first?
  split
  · cases ‹c :: cs = []›
  · rename_i heq
    injection heq with hc hcs
    exact absurd rfl (hslash hc '/' (by rw [hcs]; rfl)).1
  · rename_i heq
    injection heq with hc hcs
    exact absurd rfl (hslash hc '*' (by rw [hcs]; rfl)).2
  · rename_i heq
    injection heq with hc hcs
    rw [← hc, hbreak, hblank]
    rfl

/-- Where no trivia begins, there is none. -/
theorem split_of_first?_eq_none {cs : List Char} (h : first? cs = none) :
    split cs = ([], cs) := by
  rw [split]
  split
  · rfl
  · rename_i heq
    rw [h] at heq
    cases heq

/-- The one blank in front of a word is all the trivia there is. -/
theorem split_blank {c : Char} {cs : List Char} (hblank : isBlank c = false)
    (h : first? (c :: cs) = none) :
    split (' ' :: c :: cs) = ([.blanks [' ']], c :: cs) := by
  have hfirst : first? (' ' :: c :: cs) = some (.blanks [' '], c :: cs) := by
    simp [first?, hblank,
      show isLineBreak ' ' = false by decide,
      show isBlank ' ' = true by decide]
  rw [split]
  split
  · rename_i heq
    rw [hfirst] at heq
    cases heq
  · rename_i item rest heq
    rw [hfirst, Option.some_inj] at heq
    cases heq
    rw [split_of_first?_eq_none h]

end Trivia

-- =============================================================== words

/-- A token to be written. -/
inductive Word where
  | mark (p : Punctuator)
  | keyword (k : Keyword)
  | identifier (name : String)
  | number (text : String)
  /-- A string in the given quotes. -/
  | string (quote : Char) (value : String)
  deriving Repr, DecidableEq

namespace Word

/-- How a character is written in a string: the quote, the backslash and
the line breaks are escaped. -/
def escaped (quote c : Char) : List Char :=
  if c == quote || c == '\\' then ['\\', c]
  else if c == '\n' then ['\\', 'n']
  else if c == '\r' then ['\\', 'r']
  else if c == '\u2028' then ['\\', 'u', '2', '0', '2', '8']
  else if c == '\u2029' then ['\\', 'u', '2', '0', '2', '9']
  else [c]

/-- How a word is written. -/
def chars : Word → List Char
  | .mark p => p.text.toList
  | .keyword k => k.text.toList
  | .identifier name => name.toList
  | .number text => text.toList
  | .string quote value =>
    quote :: value.toList.flatMap (escaped quote) ++ [quote]

/-- How a word is written, as a text. -/
def text (w : Word) : String := String.ofList w.chars

/-- The kind of the token that is read off a word. -/
def kind : Word → TokenKind
  | .mark p => p
  | .keyword k => k
  | .identifier _ => .identifier
  | .number _ => .number
  | .string _ _ => .string

/-- The value of the token that is read off a word. -/
def value : Word → String
  | .mark _ => ""
  | .keyword k => k.text
  | .identifier name => name
  | .number text => text
  | .string _ value => value

/-- Whether the characters are spelled like an identifier. -/
def isName (cs : List Char) : Bool :=
  cs.head?.any isIdentifierStart && cs.all isIdentifierPart

/-- Whether a word is one: an identifier is spelled like one and is no
keyword, a number is one from its first to its last character, and
strings stand in single or double quotes. -/
def isValid : Word → Bool
  | .mark _ | .keyword _ => true
  | .identifier name =>
    isName name.toList && (Keyword.ofText? name).isNone
  | .number text =>
    NumberLiteral.startsAt text.toList
      && NumberLiteral.read text.toList == text.toList
  | .string quote _ => quote == '"' || quote == '\''

/-- What may follow a word: a blank, a semicolon or the end. -/
def Ends (rest : List Char) : Prop := ∀ c ∈ rest.head?, c = ' ' ∨ c = ';'

/-- A word ends where the text does. -/
theorem ends_nil : Ends [] := fun _ h => nomatch h

/-- A word ends in front of a blank. -/
theorem ends_blank (cs : List Char) : Ends (' ' :: cs) :=
  fun _ h => .inl (Option.some.inj h).symm

/-- A word ends in front of a semicolon. -/
theorem ends_semicolon (cs : List Char) : Ends (';' :: cs) :=
  fun _ h => .inr (Option.some.inj h).symm

/-- A run of characters stops where the word does. -/
theorem takeWhile_append {p : Char → Bool} (hblank : p ' ' = false)
    (hsemicolon : p ';' = false) (cs : List Char) {rest : List Char}
    (hrest : Ends rest) :
    (cs ++ rest).takeWhile p = cs.takeWhile p := by
  cases rest with
  | nil => rw [List.append_nil]
  | cons c rest =>
      apply takeWhile_append_cons
      rcases hrest c rfl with rfl | rfl
      · exact hblank
      · exact hsemicolon

/-- What is dropped of a word does not depend on what follows it. -/
theorem dropWhile_append {p : Char → Bool} (hblank : p ' ' = false)
    (hsemicolon : p ';' = false) (cs : List Char) {rest : List Char}
    (hrest : Ends rest) :
    (cs ++ rest).dropWhile p = cs.dropWhile p ++ rest := by
  cases rest with
  | nil => rw [List.append_nil, List.append_nil]
  | cons c rest =>
      apply dropWhile_append_cons
      rcases hrest c rfl with rfl | rfl
      · exact hblank
      · exact hsemicolon

-- ============================================================= numbers

section

variable {rest : List Char}

/-- What follows a word is no part of a number. -/
theorem fraction_append (cs : List Char) (hrest : Ends rest) :
    NumberLiteral.fraction (cs ++ rest) = NumberLiteral.fraction cs := by
  cases cs with
  | nil =>
      cases rest with
      | nil => rfl
      | cons c rest => rcases hrest c rfl with rfl | rfl <;> rfl
  | cons c cs =>
      by_cases hpoint : c = '.'
      · subst hpoint
        exact congrArg ('.' :: ·)
          (takeWhile_append (by decide) (by decide) cs hrest)
      · rw [List.cons_append, NumberLiteral.fraction.eq_2 _ (by simpa),
          NumberLiteral.fraction.eq_2 _ (by simpa)]

/-- The exponent of a number does not depend on it either. -/
theorem exponent_append (cs : List Char) (hrest : Ends rest) :
    NumberLiteral.exponent (cs ++ rest) = NumberLiteral.exponent cs := by
  have hdigits : ∀ ds : List Char,
      (ds ++ rest).takeWhile isDigit = ds.takeWhile isDigit := fun ds =>
    takeWhile_append (by decide) (by decide) ds hrest
  rcases cs with _ | ⟨e, _ | ⟨sign, ds⟩⟩
  · cases rest with
    | nil => rfl
    | cons c rest => rcases hrest c rfl with rfl | rfl <;> rfl
  · cases rest with
    | nil => rfl
    | cons c rest =>
        rcases hrest c rfl with rfl | rfl <;>
          simp [NumberLiteral.exponent, isDigit]
  · have hlong := hdigits (sign :: ds)
    rw [List.cons_append] at hlong
    simp only [List.cons_append, NumberLiteral.exponent, hdigits, hlong]

/-- A fraction is no longer than what it is read from. -/
theorem length_fraction_le (cs : List Char) :
    (NumberLiteral.fraction cs).length ≤ cs.length := by
  unfold NumberLiteral.fraction
  split
  · exact Nat.succ_le_succ (List.takeWhile_sublist _).length_le
  · exact Nat.zero_le _

/-- What follows a word is no part of a decimal number. -/
theorem decimal_append (cs : List Char) (hrest : Ends rest) :
    NumberLiteral.decimal (cs ++ rest) = NumberLiteral.decimal cs := by
  unfold NumberLiteral.decimal
  simp only [takeWhile_append (show isDigit ' ' = false by decide)
      (show isDigit ';' = false by decide) cs hrest,
    dropWhile_append (show isDigit ' ' = false by decide)
      (show isDigit ';' = false by decide) cs hrest,
    fraction_append _ hrest]
  rw [List.drop_append_of_le_length (length_fraction_le _),
    exponent_append _ hrest]

/-- Without the letter behind a zero, a number is decimal. -/
theorem read_eq_decimal {cs : List Char}
    (h : ∀ x ds, cs = '0' :: x :: ds → x ≠ 'x' ∧ x ≠ 'X') :
    NumberLiteral.read cs = NumberLiteral.decimal cs := by
  unfold NumberLiteral.read
  split
  · rename_i x ds
    obtain ⟨hsmall, hlarge⟩ := h x ds rfl
    simp [hsmall, hlarge]
  · rfl

/-- A number is read up to its end. -/
theorem read_append (cs : List Char) (hrest : Ends rest) :
    NumberLiteral.read (cs ++ rest) = NumberLiteral.read cs := by
  by_cases hhex : ∃ x ds, cs = '0' :: x :: ds ∧ (x = 'x' ∨ x = 'X')
  · obtain ⟨x, ds, rfl, hx⟩ := hhex
    have hdigits := takeWhile_append (show isHexDigit ' ' = false by decide)
      (show isHexDigit ';' = false by decide) ds hrest
    rcases hx with rfl | rfl <;>
      simp [NumberLiteral.read, hdigits]
  · have hnot : ∀ x ds, cs = '0' :: x :: ds → x ≠ 'x' ∧ x ≠ 'X' :=
      fun x ds heq => ⟨fun hx => hhex ⟨x, ds, heq, .inl hx⟩,
        fun hx => hhex ⟨x, ds, heq, .inr hx⟩⟩
    rw [read_eq_decimal hnot, read_eq_decimal ?_, decimal_append cs hrest]
    intro x ds heq
    rcases cs with _ | ⟨c, _ | ⟨d, cs⟩⟩ <;>
      simp only [List.cons_append, List.nil_append, List.cons.injEq] at heq
    · rcases hrest '0' (by simp [heq]) with hc | hc <;> cases hc
    · rcases hrest x (by simp [heq]) with rfl | rfl <;> decide
    · obtain ⟨rfl, rfl, -⟩ := heq
      exact hnot d cs rfl

/-- A number begins with its first two characters at most. -/
theorem startsAt_append {cs : List Char}
    (h : NumberLiteral.startsAt cs = true) (rest : List Char) :
    NumberLiteral.startsAt (cs ++ rest) = true := by
  unfold NumberLiteral.startsAt at h
  split at h
  · exact h
  · rename_i c cs hpoint
    have hc : c ≠ '.' := by
      rintro rfl
      cases h
    simpa [NumberLiteral.startsAt, hc] using h
  · cases h

/-- A number begins with a digit or a point. -/
theorem exists_of_startsAt {cs : List Char}
    (h : NumberLiteral.startsAt cs = true) :
    ∃ c ds, cs = c :: ds ∧ (isDigit c = true ∨ c = '.') := by
  unfold NumberLiteral.startsAt at h
  split at h
  · exact ⟨_, _, rfl, .inr rfl⟩
  · exact ⟨_, _, rfl, .inl h⟩
  · cases h

-- ============================================================= strings

/-- An escaped character stands for itself. -/
theorem part?_escaped {quote : Char} (hquote : quote = '"' ∨ quote = '\'')
    (c : Char) (rest : List Char) :
    StringLiteral.part? quote (escaped quote c ++ rest)
      = some (⟨escaped quote c, [c]⟩, rest) := by
  unfold escaped
  split
  · rename_i h
    have hc : c = quote ∨ c = '\\' := by simpa using h
    rcases hquote with rfl | rfl <;> rcases hc with rfl | rfl <;> rfl
  · rename_i hplain
    have hc : c ≠ quote ∧ c ≠ '\\' := by simpa using hplain
    by_cases hbreak : isLineBreak c = true
    · have hcases : ((c = '\n' ∨ c = '\r') ∨ c = '\u2028') ∨ c = '\u2029' := by
        simpa [isLineBreak] using hbreak
      rcases hquote with rfl | rfl <;>
        rcases hcases with ((rfl | rfl) | rfl) | rfl <;> rfl
    · have hcases : ((c ≠ '\n' ∧ c ≠ '\r') ∧ c ≠ '\u2028') ∧ c ≠ '\u2029' := by
        simpa [isLineBreak] using hbreak
      obtain ⟨⟨⟨hn, hr⟩, hl⟩, hp⟩ := hcases
      simp [StringLiteral.part?, hn, hr, hl, hp, hbreak, hc]

/-- Where no part begins, a string has no parts. -/
theorem parts_of_part?_eq_none {quote : Char} {cs : List Char}
    (h : StringLiteral.part? quote cs = none) :
    StringLiteral.parts quote cs = ([], cs) := by
  rw [StringLiteral.parts]
  split
  · rfl
  · rename_i heq
    rw [h] at heq
    cases heq

theorem parts_of_part?_eq_some {quote : Char} {cs rest : List Char}
    {part : StringLiteral.Part}
    (h : StringLiteral.part? quote cs = some (part, rest)) :
    StringLiteral.parts quote cs
      = (part :: (StringLiteral.parts quote rest).1,
        (StringLiteral.parts quote rest).2) := by
  rw [StringLiteral.parts]
  split
  · rename_i heq
    rw [h] at heq
    cases heq
  · rename_i heq
    rw [h, Option.some_inj] at heq
    cases heq
    rfl

/-- An escaped text is read back part by part, up to the quote. -/
theorem parts_escaped {quote : Char} (hquote : quote = '"' ∨ quote = '\'')
    (cs rest : List Char) :
    StringLiteral.parts quote (cs.flatMap (escaped quote) ++ quote :: rest)
      = (cs.map fun c => ⟨escaped quote c, [c]⟩, quote :: rest) := by
  induction cs with
  | nil =>
      have hend : StringLiteral.part? quote (quote :: rest) = none := by
        simp [StringLiteral.part?]
      exact parts_of_part?_eq_none hend
  | cons c cs ih =>
      have hfirst := part?_escaped hquote c
        (cs.flatMap (escaped quote) ++ quote :: rest)
      rw [List.flatMap_cons, List.append_assoc,
        parts_of_part?_eq_some hfirst, ih]
      rfl

-- ========================================================= punctuators

theorem mem_punctuators (p : Punctuator) : p ∈ Punctuator.all := by
  cases p <;> decide

/-- Whether characters begin as no other word does, and with a point or a
slash only where no more than an equals sign is behind it. -/
def beginsMark : List Char → Bool
  | [] => false
  | c :: cs => decide (c ≠ '"' ∧ c ≠ '\''
      ∧ isIdentifierStart c = false ∧ isDigit c = false
      ∧ isBlank c = false ∧ isLineBreak c = false
      ∧ (c = '.' → cs = []) ∧ (c = '/' → cs = [] ∨ cs = ['=']))

/-- A punctuator begins with a character that begins no other token, and after
a dot or a slash there is nothing to mistake it by. -/
theorem exists_mark_chars (p : Punctuator) :
    ∃ c cs, p.text.toList = c :: cs ∧ c ≠ '"' ∧ c ≠ '\''
      ∧ isIdentifierStart c = false ∧ isDigit c = false
      ∧ isBlank c = false ∧ isLineBreak c = false
      ∧ (c = '.' → cs = []) ∧ (c = '/' → cs = [] ∨ cs = ['=']) := by
  have hall : ∀ p ∈ Punctuator.all,
      beginsMark p.text.toList = true := by decide +kernel
  have hbegins := hall p (mem_punctuators p)
  cases hchars : p.text.toList with
  | nil =>
      rw [hchars] at hbegins
      cases hbegins
  | cons c cs =>
      rw [hchars] at hbegins
      exact ⟨c, cs, rfl, of_decide_eq_true hbegins⟩

/-- What ends a word does not go on with characters that are neither
blanks nor semicolons. -/
theorem isPrefixOf_append {a b : List Char} (hb : b ≠ [])
    (ha : ∀ c ∈ a.tail, c ≠ ' ' ∧ c ≠ ';') (hrest : Ends rest) :
    a.isPrefixOf (b ++ rest) = a.isPrefixOf b := by
  induction b generalizing a with
  | nil => exact absurd rfl hb
  | cons y b ih =>
      rcases a with _ | ⟨x, _ | ⟨z, a⟩⟩
      · rfl
      · simp [List.isPrefixOf]
      · rw [List.cons_append, List.isPrefixOf, List.isPrefixOf]
        congr 1
        obtain ⟨hblank, hsemicolon⟩ := ha z (by simp)
        cases b with
        | nil =>
            cases rest with
            | nil => rfl
            | cons c rest =>
                rcases hrest c rfl with rfl | rfl <;>
                  simp [List.isPrefixOf, hblank, hsemicolon]
        | cons w b =>
            exact ih (by simp) fun c hc => ha c (List.mem_of_mem_tail hc)

/-- The longest punctuator is found in front of what ends it. -/
theorem longest?_append (p : Punctuator) (hrest : Ends rest) :
    Punctuator.longest? (p.text.toList ++ rest) = some p := by
  have hfound : ∀ p ∈ Punctuator.all,
      Punctuator.longest? p.text.toList = some p := by decide +kernel
  have hall : ∀ q ∈ Punctuator.all, (q.text.toList.tail.all
      fun c => c != ' ' && c != ';') = true := by decide +kernel
  have htails : ∀ q ∈ Punctuator.all,
      ∀ c ∈ q.text.toList.tail, c ≠ ' ' ∧ c ≠ ';' := by
    intro q hq c hc
    simpa using List.all_eq_true.1 (hall q hq) c hc
  obtain ⟨c, cs, hchars, -⟩ := exists_mark_chars p
  have hne : p.text.toList ≠ [] := by simp [hchars]
  rw [← hfound p (mem_punctuators p)]
  simp only [Punctuator.longest?,
    isPrefixOf_append hne (htails _ (mem_punctuators _)) hrest]

-- ============================================================ readings

open Token (Reading)

theorem reading_mark (p : Punctuator) (hrest : Ends rest) :
    Reading.of (p.text.toList ++ rest)
      = { kind := .punctuator p, value := [], raw := p.text.toList } := by
  have hlongest := longest?_append p hrest
  obtain ⟨c, cs, hchars, hdouble, hsingle, hstart, hdigit, -, -, hpoint, -⟩ :=
    exists_mark_chars p
  have hnumber : NumberLiteral.startsAt (c :: cs ++ rest) = false := by
    by_cases hc : c = '.'
    · rw [hpoint hc, hc]
      cases rest with
      | nil => rfl
      | cons d rest => rcases hrest d rfl with rfl | rfl <;> rfl
    · simp [NumberLiteral.startsAt, hc, hdigit]
  rw [hchars, List.cons_append] at hlongest
  rw [List.cons_append] at hnumber
  rw [hchars, List.cons_append, Reading.of]
  simp [hdouble, hsingle, hnumber, hstart, Reading.mark, hlongest, hchars]

theorem isName_iff {cs : List Char} :
    isName cs = true ↔ ∃ c ds, cs = c :: ds ∧ isIdentifierStart c = true
      ∧ ∀ d ∈ cs, isIdentifierPart d = true := by
  cases cs with
  | nil => simp [isName]
  | cons c ds => simp [isName]

theorem takeWhile_name {cs : List Char} (hname : isName cs = true) :
    cs.takeWhile isIdentifierPart = cs := by
  obtain ⟨c, ds, -, -, hall⟩ := isName_iff.1 hname
  exact List.takeWhile_eq_self_iff.2 hall

/-- Keywords are spelled like identifiers, and known by their spelling. -/
theorem isName_keyword (k : Keyword) : isName k.text.toList = true
    ∧ Keyword.ofText? k.text = some k := by
  have hall : ∀ k ∈ Keyword.all, isName k.text.toList = true
      ∧ Keyword.ofText? k.text = some k := by decide +kernel
  exact hall k (by cases k <;> decide)

/-- What is spelled like an identifier is read as a whole, as a keyword or
as an identifier. -/
theorem reading_name {cs : List Char} (hname : isName cs = true)
    (hrest : Ends rest) : Reading.of (cs ++ rest) = Reading.word cs := by
  have hraw := takeWhile_append
    (show isIdentifierPart ' ' = false by decide +kernel)
    (show isIdentifierPart ';' = false by decide +kernel) cs hrest
  obtain ⟨c, ds, rfl, hstart, -⟩ := isName_iff.1 hname
  have hnot : ∀ d, isIdentifierStart d = false → c ≠ d := by
    rintro d hd rfl
    rw [hstart] at hd
    cases hd
  have hdigit : isDigit c = false := by
    rw [← Bool.not_eq_true]
    intro hc
    rw [isIdentifierStart_of_isDigit hc] at hstart
    cases hstart
  have hdouble := hnot '"' (by decide +kernel)
  have hsingle := hnot '\'' (by decide +kernel)
  have hpoint := hnot '.' (by decide +kernel)
  have hnumber : NumberLiteral.startsAt (c :: (ds ++ rest)) = false := by
    simp [NumberLiteral.startsAt, hpoint, hdigit]
  rw [List.cons_append] at hraw
  rw [List.cons_append, Reading.of]
  simp only [hdouble, hsingle, hnumber, hstart, Bool.or_self,
    Bool.false_eq_true, if_false, if_true, beq_eq_false_iff_ne.2,
    ne_eq, not_false_eq_true]
  rw [Reading.word, Reading.word, hraw]

theorem reading_number {cs : List Char}
    (hstarts : NumberLiteral.startsAt cs = true)
    (hread : NumberLiteral.read cs = cs) (hrest : Ends rest) :
    Reading.of (cs ++ rest)
      = { kind := .number, value := cs, raw := cs } := by
  have hnumber := startsAt_append hstarts rest
  have hwhole := (read_append cs hrest).trans hread
  cases cs with
  | nil => cases hstarts
  | cons c cs =>
      have hnot : ∀ d, d ≠ '.' → isDigit d = false → c ≠ d := by
        rintro d hd hdigit rfl
        simp [NumberLiteral.startsAt, hd, hdigit] at hstarts
      have hdouble := hnot '"' (by decide) (by decide)
      have hsingle := hnot '\'' (by decide) (by decide)
      rw [List.cons_append] at hnumber hwhole ⊢
      rw [Reading.of]
      simp [hdouble, hsingle, hnumber, Reading.number, hwhole]

theorem reading_string {quote : Char} (hquote : quote = '"' ∨ quote = '\'')
    (value rest : List Char) :
    Reading.of (quote :: value.flatMap (escaped quote) ++ [quote] ++ rest)
      = { kind := .string, value := value,
          raw := quote :: value.flatMap (escaped quote) ++ [quote] } := by
  have hparts := parts_escaped hquote value rest
  have hvalue : StringLiteral.valueOf
      (value.map fun c => ⟨escaped quote c, [c]⟩) = value := by
    simp [StringLiteral.valueOf, List.flatMap_map]
  have hraw : StringLiteral.rawOf
      (value.map fun c => ⟨escaped quote c, [c]⟩)
        = value.flatMap (escaped quote) := by
    simp [StringLiteral.rawOf, List.flatMap_map]
  have hisQuote : (quote == '"' || quote == '\'') = true := by
    rcases hquote with rfl | rfl <;> rfl
  rw [List.cons_append, List.cons_append, Reading.of, if_pos hisQuote,
    Reading.string, List.append_assoc, List.singleton_append, hparts]
  simp [hvalue, hraw]

/-- A word is read as one token, up to its end. -/
theorem reading_of {w : Word} (hw : w.isValid = true) (hrest : Ends rest) :
    Reading.of (w.chars ++ rest)
      = { kind := w.kind, value := w.value.toList, raw := w.chars } := by
  cases w with
  | mark p => exact reading_mark p hrest
  | keyword k =>
      obtain ⟨hname, hkeyword⟩ := isName_keyword k
      rw [chars, reading_name hname hrest, Reading.word,
        takeWhile_name hname]
      simp [hkeyword, kind, value]
  | identifier name =>
      simp only [isValid, Bool.and_eq_true, Option.isNone_iff_eq_none] at hw
      rw [chars, reading_name hw.1 hrest, Reading.word,
        takeWhile_name hw.1]
      simp [hw.2, kind, value]
  | number text =>
      simp only [isValid, Bool.and_eq_true, beq_iff_eq] at hw
      exact reading_number hw.1 hw.2 hrest
  | string quote text =>
      simp only [isValid, Bool.or_eq_true, beq_iff_eq] at hw
      exact reading_string hw text.toList rest

/-- No trivia stands at the front of a word. -/
theorem exists_chars {w : Word} (hw : w.isValid = true)
    (hrest : Ends rest) :
    ∃ c cs, w.chars = c :: cs ∧ isBlank c = false
      ∧ Trivia.first? (w.chars ++ rest) = none := by
  -- keywords and identifiers are names, which begin with no trivia whatever
  -- follows
  have hname : ∀ {cs : List Char}, isName cs = true →
      ∃ c ds, cs = c :: ds ∧ isBlank c = false
        ∧ Trivia.first? (cs ++ rest) = none := by
    intro cs hcs
    obtain ⟨c, ds, rfl, hstart, -⟩ := isName_iff.1 hcs
    obtain ⟨hblank, hbreak⟩ := not_blank_of_isIdentifierStart hstart
    refine ⟨c, ds, rfl, hblank, Trivia.first?_eq_none hblank hbreak ?_⟩
    rintro rfl
    exact absurd hstart (by decide +kernel)
  cases w with
  | mark p =>
      obtain ⟨c, cs, hchars, -, -, -, -, hblank, hbreak, -, hslash⟩ :=
        exists_mark_chars p
      refine ⟨c, cs, hchars, hblank, ?_⟩
      rw [chars, hchars]
      refine Trivia.first?_eq_none hblank hbreak fun hc => ?_
      rcases hslash hc with rfl | rfl
      · intro d hd
        rcases hrest d hd with rfl | rfl <;> decide
      · intro d hd
        rw [Option.some.inj hd.symm]
        decide
  | keyword k => exact hname (isName_keyword k).1
  | identifier name =>
      simp only [isValid, Bool.and_eq_true] at hw
      exact hname hw.1
  | number text =>
      simp only [isValid, Bool.and_eq_true] at hw
      obtain ⟨c, cs, hchars, hc⟩ := exists_of_startsAt hw.1
      obtain ⟨hblank, hbreak⟩ := not_blank_of_isDigit_or hc
      refine ⟨c, cs, hchars, hblank, ?_⟩
      rw [chars, hchars]
      refine Trivia.first?_eq_none hblank hbreak ?_
      rintro rfl
      exact absurd hc (by decide)
  | string quote text =>
      simp only [isValid, Bool.or_eq_true, beq_iff_eq] at hw
      refine ⟨quote, _, rfl, ?_, ?_⟩
      · rcases hw with rfl | rfl <;> decide
      · rcases hw with rfl | rfl <;>
          exact Trivia.first?_eq_none (by decide) (by decide) (by simp)

end

end Word

end ScriptLint
