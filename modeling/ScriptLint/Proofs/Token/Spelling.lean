/-
How tokens are spelled. A token that is read off a text, and not read
again, is as long as its kind allows (`Lexeme.spelled_unread`): a word is
the longest run of identifier characters, a number the longest front of
the text that has the form of one (`NumberLiteral.IsNumeral`), and a
punctuator the longest that the text begins with. What is none of these
and no string is a single character, with which no token begins.

Longest is meant among all fronts of the text from the token on
(`IsLongest`), whatever way the reading takes to find it: a number is read
piece by piece, and a front of another form always ends within a piece
(`prefix_run_append`), while punctuators are tried in an order in which
none stands in front of one that it is the beginning of.

# The argument

- For words and marks the reading takes the longest by definition, as a run
  or by trying longer ones first.
- A number is read as digits, fraction and exponent, each as far as it
  goes. That no other cut into these parts goes further is a matter of
  lengths (`IsFraction.length_le`, `IsExponent.length_le`,
  `IsDecimal.length_le`).
- The token is then compared with all fronts of the text that have the form
  of its kind.
-/
import ScriptLint.Proofs.Parse.Trace
import ScriptLint.Proofs.Token.Locality

namespace ScriptLint

open Text

-- ============================================================== fronts

/-- The longest front of a text that is as `p` says. -/
structure IsLongest (p : List Char → Prop) (front cs : List Char) :
    Prop where
  isPrefix : front <+: cs
  holds : p front
  length_le : ∀ other, other <+: cs → p other →
    other.length ≤ front.length

/-- A front that consists of characters of one kind lies within the run of
them. -/
theorem prefix_takeWhile {p : Char → Bool} {front cs : List Char}
    (h : front <+: cs) (hfront : ∀ c ∈ front, p c = true) :
    front <+: cs.takeWhile p := by
  obtain ⟨rest, rfl⟩ := h
  rw [List.takeWhile_append_of_pos hfront]
  exact List.prefix_append _ _

theorem isLongest_takeWhile (p : Char → Bool) (cs : List Char) :
    IsLongest (fun front => ∀ c ∈ front, p c = true) (cs.takeWhile p) cs where
  isPrefix := List.takeWhile_prefix p
  holds _ hc := List.mem_takeWhile_imp hc
  length_le _ hother hall := (prefix_takeWhile hother hall).length_le

/-- Characters of one kind and then others are the run and what follows it,
unless nothing follows. -/
theorem prefix_run_append {p : Char → Bool} {run more cs : List Char}
    (h : run ++ more <+: cs) (hrun : ∀ c ∈ run, p c = true)
    (hmore : ∀ c ∈ more.head?, p c = false) :
    (more = [] ∧ run <+: cs.takeWhile p)
      ∨ run = cs.takeWhile p ∧ more <+: cs.dropWhile p := by
  cases more with
  | nil => exact .inl ⟨rfl, prefix_takeWhile (by simpa using h) hrun⟩
  | cons c more =>
      obtain ⟨rest, rfl⟩ := h
      obtain ⟨htake, hdrop⟩ := takeWhile_dropWhile_iff.2
        ⟨List.append_assoc run (c :: more) rest, hrun, hmore⟩
      exact .inr ⟨htake.symm, by rw [hdrop]; exact List.prefix_append _ _⟩

-- ============================================================= numbers

namespace NumberLiteral

/-- A point and any digits, or nothing. -/
def IsFraction (cs : List Char) : Prop :=
  cs = [] ∨ ∃ digits, cs = '.' :: digits ∧ ∀ d ∈ digits, isDigit d = true

/-- The letter, a sign or none, and at least one digit, or nothing. -/
def IsExponent (cs : List Char) : Prop :=
  cs = [] ∨ ∃ letter sign digits, cs = letter :: (sign ++ digits)
    ∧ (letter = 'e' ∨ letter = 'E')
    ∧ (sign = [] ∨ sign = ['+'] ∨ sign = ['-'])
    ∧ digits ≠ [] ∧ ∀ d ∈ digits, isDigit d = true

/-- The form of a decimal number: digits, a fraction and an exponent, none
of which need be there. -/
def IsDecimal (cs : List Char) : Prop :=
  ∃ whole part power, cs = whole ++ (part ++ power)
    ∧ (∀ d ∈ whole, isDigit d = true) ∧ IsFraction part ∧ IsExponent power

/-- The form of a hexadecimal number: `0x` and any digits. -/
def IsHexadecimal (cs : List Char) : Prop :=
  ∃ x digits, cs = '0' :: x :: digits ∧ (x = 'x' ∨ x = 'X')
    ∧ ∀ d ∈ digits, isHexDigit d = true

/-- The form of a number. -/
def IsNumeral (cs : List Char) : Prop := IsHexadecimal cs ∨ IsDecimal cs

variable {cs other : List Char}

-- ======================================================== what is read

theorem isFraction_fraction (cs : List Char) :
    IsFraction (fraction cs) := by
  unfold fraction
  split
  · exact .inr ⟨_, rfl, fun _ hd => List.mem_takeWhile_imp hd⟩
  · exact .inl rfl

theorem isExponent_exponent (cs : List Char) :
    IsExponent (exponent cs) := by
  by_cases hne : exponent cs = []
  · exact .inl hne
  · obtain ⟨letter, sign, digits, rest, heq, -, hletter, hsign, hdigits,
      hrest⟩ := (exponent_eq_iff hne).1 rfl
    refine .inr ⟨letter, sign, digits, heq, hletter, hsign, hdigits, ?_⟩
    rw [← hrest]
    exact fun _ hd => List.mem_takeWhile_imp hd

theorem isDecimal_decimal (cs : List Char) : IsDecimal (decimal cs) :=
  ⟨_, _, _, List.append_assoc _ _ _,
    fun _ hd => List.mem_takeWhile_imp hd, isFraction_fraction _,
    isExponent_exponent _⟩

theorem isHex_eq_true_iff : isHex cs = true
    ↔ ∃ x ds, cs = '0' :: x :: ds ∧ (x = 'x' ∨ x = 'X') := by
  unfold isHex
  split
  · simp
  · rename_i hnot
    simp only [Bool.false_eq_true, false_iff]
    rintro ⟨x, ds, rfl, -⟩
    exact hnot x ds rfl

/-- What is read as a number has the form of one. -/
theorem isNumeral_read (cs : List Char) : IsNumeral (read cs) := by
  cases hhex : isHex cs with
  | true =>
      obtain ⟨x, ds, rfl, hx⟩ := isHex_eq_true_iff.1 hhex
      rw [read_of_isHex hhex]
      exact .inl ⟨x, _, rfl, hx, fun _ hd => List.mem_takeWhile_imp hd⟩
  | false =>
      rw [read_of_not_isHex hhex]
      exact .inr (isDecimal_decimal cs)

-- ===================================================== how far it goes

/-- Neither a fraction nor an exponent begins with a digit, and an exponent
with no point either. -/
theorem IsExponent.head (h : IsExponent cs) :
    ∀ c ∈ cs.head?, isDigit c = false ∧ c ≠ '.' := by
  rcases h with rfl | ⟨letter, sign, digits, rfl, hletter, -⟩
  · nofun
  · rintro c hc
    rw [← Option.some_inj.1 hc]
    rcases hletter with rfl | rfl <;> decide

theorem IsFraction.head {part power : List Char} (h : IsFraction part)
    (hpower : IsExponent power) :
    ∀ c ∈ (part ++ power).head?, isDigit c = false := by
  rcases h with rfl | ⟨digits, rfl, -⟩
  · exact fun c hc => (hpower.head c hc).1
  · rintro c hc
    rw [← Option.some_inj.1 hc]
    decide

theorem IsExponent.length_le (h : IsExponent other)
    (hfront : other <+: cs) : other.length ≤ (exponent cs).length := by
  rcases h with rfl | ⟨letter, sign, digits, rfl, hletter, hsign, hne, hall⟩
  · exact Nat.zero_le _
  · obtain ⟨rest, rfl⟩ := hfront
    have hdigits : digits <+: (digits ++ rest).takeWhile isDigit :=
      prefix_takeWhile (List.prefix_append _ _) hall
    have hread := (exponent_eq_iff (List.cons_ne_nil letter
      (sign ++ (digits ++ rest).takeWhile isDigit))).2
      ⟨letter, sign, _, digits ++ rest, rfl, rfl, hletter, hsign,
        fun hnil => hne (List.prefix_nil.1 (hnil ▸ hdigits)), rfl⟩
    rw [List.cons_append, List.append_assoc, hread]
    simpa using hdigits.length_le

/-- A fraction and an exponent go no further than those that are read one
after the other. -/
theorem IsFraction.length_le {part power : List Char} (h : IsFraction part)
    (hpower : IsExponent power) (hfront : part ++ power <+: cs) :
    (part ++ power).length
      ≤ (fraction cs ++ exponent (cs.drop (fraction cs).length)).length := by
  rw [List.length_append, List.length_append]
  rcases h with rfl | ⟨digits, rfl, hdigits⟩
  · rw [List.nil_append] at hfront
    by_cases hpoint : cs.head? = some '.'
    · obtain ⟨ds, rfl⟩ := List.head?_eq_some_iff.1 hpoint
      cases power with
      | nil => exact Nat.zero_le _
      | cons c power =>
          obtain ⟨rfl, -⟩ := List.cons_prefix_cons.1 hfront
          exact absurd rfl (hpower.head _ rfl).2
    · have hnone : fraction cs = [] :=
        fraction.eq_2 cs fun ds hds => hpoint (by rw [hds]; rfl)
      rw [hnone]
      simpa using hpower.length_le hfront
  · cases cs with
    | nil => simp at hfront
    | cons c cs =>
        rw [List.cons_append, List.cons_prefix_cons] at hfront
        obtain ⟨rfl, hfront⟩ := hfront
        have hdrop : ('.' :: cs).drop (fraction ('.' :: cs)).length
            = cs.dropWhile isDigit := drop_length_takeWhile isDigit cs
        rw [hdrop, fraction, List.length_cons, List.length_cons]
        rcases prefix_run_append hfront hdigits
            (fun c hc => (hpower.head c hc).1) with
          ⟨rfl, hrun⟩ | ⟨rfl, hmore⟩
        · have := hrun.length_le
          simp only [List.length_nil]
          omega
        · have := hpower.length_le hmore
          omega

theorem IsDecimal.length_le (h : IsDecimal other) (hfront : other <+: cs) :
    other.length ≤ (decimal cs).length := by
  obtain ⟨whole, part, power, rfl, hwhole, hpart, hpower⟩ := h
  unfold decimal
  dsimp only
  rw [List.append_assoc]
  rcases prefix_run_append hfront hwhole (hpart.head hpower) with
    ⟨hnone, hrun⟩ | ⟨rfl, hmore⟩
  · rw [hnone, List.append_nil, List.length_append]
    exact Nat.le_trans hrun.length_le (Nat.le_add_right _ _)
  · have := hpart.length_le hpower hmore
    simp only [List.length_append] at this ⊢
    omega

/-- The number at the front of a text is its longest front that has the
form of a number. -/
theorem isLongest_read (cs : List Char) :
    IsLongest IsNumeral (read cs) cs where
  isPrefix := read_front cs
  holds := isNumeral_read cs
  length_le := by
    rintro other hfront (⟨x, digits, rfl, hx, hdigits⟩ | hdecimal)
    · obtain ⟨rest, rfl⟩ := hfront
      have hhex : isHex ('0' :: x :: (digits ++ rest)) = true :=
        isHex_eq_true_iff.2 ⟨x, _, rfl, hx⟩
      have hrun := prefix_takeWhile (List.prefix_append digits rest) hdigits
      rw [List.cons_append, List.cons_append, read_of_isHex hhex]
      simpa using hrun.length_le
    · have hle := hdecimal.length_le hfront
      cases hhex : isHex cs with
      | false => rwa [read_of_not_isHex hhex]
      | true =>
          -- behind the zero neither a fraction nor an exponent follows
          obtain ⟨x, ds, rfl, hx⟩ := isHex_eq_true_iff.1 hhex
          have hzero : decimal ('0' :: x :: ds) = ['0'] := by
            rcases hx with rfl | rfl <;>
              simp [decimal, fraction, exponent, isDigit]
          rw [hzero] at hle
          rw [read_of_isHex hhex]
          exact Nat.le_trans hle (Nat.le_add_left _ _)

end NumberLiteral

-- ========================================================= punctuators

/-- No punctuator stands in front of one that it is the beginning of. -/
theorem Punctuator.pairwise_all : Punctuator.all.Pairwise fun p q =>
    p.text.toList.isPrefixOf q.text.toList = false := by
  decide +kernel

/-- The punctuator that is found is the longest at the front. -/
theorem Punctuator.isLongest_of_longest? {p : Punctuator} {cs : List Char}
    (h : longest? cs = some p) :
    IsLongest (fun front => ∃ q : Punctuator, front = q.text.toList)
      p.text.toList cs where
  isPrefix := List.isPrefixOf_iff_prefix.1 (List.find?_some h :)
  holds := ⟨p, rfl⟩
  length_le := by
    rintro other hother ⟨q, rfl⟩
    obtain ⟨hp, before, behind, hall, hbefore⟩ :=
      List.find?_eq_some_iff_append.1 h
    have hmem := Word.mem_punctuators q
    have hsorted := pairwise_all
    rw [hall] at hmem hsorted
    rcases List.mem_append.1 hmem with hq | hq
    · have hnot := hbefore q hq
      rw [List.isPrefixOf_iff_prefix.2 hother] at hnot
      cases hnot
    · rcases List.mem_cons.1 hq with rfl | hq
      · exact Nat.le_refl _
      · -- both are fronts of the text, so the longer one goes on with the
        -- other
        by_contra hlt
        have hgoes := List.prefix_of_prefix_length_le
          (List.isPrefixOf_iff_prefix.1 hp) hother (by omega)
        have hnot := (List.pairwise_cons.1
          (List.pairwise_append.1 hsorted).2.1).1 q hq
        rw [List.isPrefixOf_iff_prefix.2 hgoes] at hnot
        cases hnot

-- =============================================================== words

/-- A keyword is known by its spelling. -/
theorem Keyword.ofText?_eq_some_iff {text : String} {k : Keyword} :
    ofText? text = some k ↔ text = k.text := by
  constructor
  · exact fun h => (eq_of_beq (List.find?_some h :)).symm
  · rintro rfl
    exact (Word.isName_keyword k).2

-- =============================================================== kinds

/-- Whether no token but that of a single unknown character begins with
the character. -/
def BeginsNoToken (c : Char) : Prop :=
  c ≠ '"' ∧ c ≠ '\'' ∧ isDigit c = false ∧ isIdentifierStart c = false
    ∧ ∀ p : Punctuator, p.text.toList.head? ≠ some c

/-- Whether a token of the kind is an identifier or a keyword. -/
def TokenKind.isWord : TokenKind → Bool
  | .identifier | .keyword _ => true
  | _ => false

/-- What the kind of a token says of its text `raw` and of its value, where
`ahead` is the text from the token on. -/
structure TokenKind.Spelled (kind : TokenKind) (value raw ahead : List Char) :
    Prop where
  word : kind.isWord = true → value = raw
    ∧ IsLongest (fun cs => ∀ c ∈ cs, isIdentifierPart c = true) raw ahead
    ∧ ∀ k, kind = .keyword k ↔ raw = k.text.toList
  number : kind = .number → value = raw
    ∧ IsLongest NumberLiteral.IsNumeral raw ahead
  mark (p : Punctuator) : kind = .punctuator p → raw = p.text.toList
    ∧ IsLongest (fun cs => ∃ q : Punctuator, cs = q.text.toList) raw ahead
  unknown : kind = .unknown ↔ ∃ c, raw = [c] ∧ BeginsNoToken c

namespace Token.Reading

variable {c : Char} {cs : List Char}

/-- Of what kind the token at the front of a text is shows in its first
characters. -/
theorem of_cases (c : Char) (cs : List Char) :
    ((c = '"' ∨ c = '\'') ∧ of (c :: cs) = string c cs)
      ∨ (NumberLiteral.startsAt (c :: cs) = true
        ∧ of (c :: cs) = number (c :: cs))
      ∨ (isIdentifierStart c = true ∧ of (c :: cs) = word (c :: cs))
      ∨ (c ≠ '"' ∧ c ≠ '\'' ∧ NumberLiteral.startsAt (c :: cs) = false
        ∧ isIdentifierStart c = false ∧ of (c :: cs) = mark c cs) := by
  rw [of]
  split
  · rename_i hquote
    exact .inl ⟨by simpa using hquote, rfl⟩
  rename_i hquote
  have hquote : c ≠ '"' ∧ c ≠ '\'' := by simpa using hquote
  split
  · rename_i hnumber
    exact .inr (.inl ⟨hnumber, rfl⟩)
  rename_i hnumber
  split
  · rename_i hstart
    exact .inr (.inr (.inl ⟨hstart, rfl⟩))
  · rename_i hstart
    exact .inr (.inr (.inr ⟨hquote.1, hquote.2, by simpa using hnumber,
      by simpa using hstart, rfl⟩))

/-- A number begins with a digit or, like a punctuator, with a point. -/
theorem startsAt_of_beginsNoToken (h : BeginsNoToken c) (cs : List Char) :
    NumberLiteral.startsAt (c :: cs) = false := by
  obtain ⟨-, -, hdigit, -, hmark⟩ := h
  have hpoint : c ≠ '.' := by
    rintro rfl
    exact hmark .dot rfl
  simp [NumberLiteral.startsAt, hpoint, hdigit]

theorem isDigit_of_startsAt (h : NumberLiteral.startsAt (c :: cs) = false) :
    isDigit c = false := by
  by_cases hpoint : c = '.'
  · rw [hpoint]
    rfl
  · simpa [NumberLiteral.startsAt, hpoint] using h

/-- A character with which no token begins is read as an unknown one. -/
theorem of_beginsNoToken (h : BeginsNoToken c) (cs : List Char) :
    of (c :: cs) = { kind := .unknown, value := [], raw := [c] } := by
  have hlongest : Punctuator.longest? (c :: cs) = none := by
    refine List.find?_eq_none.2 fun p _ hfront => h.2.2.2.2 p ?_
    obtain ⟨rest, hrest⟩ := List.isPrefixOf_iff_prefix.1 hfront
    cases hp : p.text.toList with
    | nil => cases p <;> simp [Punctuator.text] at hp
    | cons d ds =>
        rw [hp] at hrest
        rw [← (List.cons.inj hrest).1]
        rfl
  rw [of, if_neg (by simp [h.1, h.2.1]), startsAt_of_beginsNoToken h,
    if_neg Bool.false_ne_true, h.2.2.2.1, if_neg Bool.false_ne_true, mark,
    hlongest]

/-- What a punctuator begins with is one. -/
theorem exists_head_punctuator (p : Punctuator) :
    ∃ q : Punctuator, q.text.toList = p.text.toList.take 1 := by
  have hall : ∀ p ∈ Punctuator.all, ∃ q ∈ Punctuator.all,
      q.text.toList = p.text.toList.take 1 := by decide +kernel
  obtain ⟨q, -, hq⟩ := hall p (Word.mem_punctuators p)
  exact ⟨q, hq⟩

theorem beginsNoToken_of_longest? (hdouble : c ≠ '"') (hsingle : c ≠ '\'')
    (hnumber : NumberLiteral.startsAt (c :: cs) = false)
    (hstart : isIdentifierStart c = false)
    (hmark : Punctuator.longest? (c :: cs) = none) : BeginsNoToken c := by
  refine ⟨hdouble, hsingle, isDigit_of_startsAt hnumber, hstart,
    fun p hp => ?_⟩
  obtain ⟨q, hq⟩ := exists_head_punctuator p
  obtain ⟨ds, hds⟩ := List.head?_eq_some_iff.1 hp
  have hfront : q.text.toList.isPrefixOf (c :: cs) = true := by
    rw [hq, hds]
    simp
  exact List.find?_eq_none.1 hmark q (Word.mem_punctuators q) hfront

theorem kind_of_eq_unknown (hraw : (of cs).raw = [c])
    (hc : BeginsNoToken c) : (of cs).kind = .unknown := by
  obtain ⟨rest, rfl⟩ : [c] <+: cs := hraw ▸ (of_frontOf cs).raw_front
  rw [List.singleton_append, of_beginsNoToken hc]

/-- A word is a keyword just when it is spelled like it. -/
theorem word_kind (cs : List Char) :
    (word cs).kind.isWord = true
      ∧ ∀ k, (word cs).kind = .keyword k
        ↔ (word cs).raw = k.text.toList := by
  have hspelling (k : Keyword) :
      Keyword.ofText? (String.ofList (cs.takeWhile isIdentifierPart)) = some k
        ↔ cs.takeWhile isIdentifierPart = k.text.toList := by
    rw [Keyword.ofText?_eq_some_iff, ← String.toList_inj,
      String.toList_ofList]
  unfold word
  dsimp only
  split
  · rename_i k' hk'
    refine ⟨rfl, fun k => ?_⟩
    rw [← hspelling k, hk', TokenKind.keyword.injEq, Option.some_inj]
  · rename_i hnone
    refine ⟨rfl, fun k => ?_⟩
    rw [← hspelling k, hnone]
    exact ⟨nofun, nofun⟩

/-- The token at the front of a text is spelled as its kind says. -/
theorem spelled_of (cs : List Char) :
    (of cs).kind.Spelled (of cs).value (of cs).raw cs := by
  cases cs with
  | nil => exact ⟨nofun, nofun, nofun, nofun, nofun⟩
  | cons c cs =>
      have hunknown : (∃ d, (of (c :: cs)).raw = [d] ∧ BeginsNoToken d) →
          (of (c :: cs)).kind = .unknown :=
        fun ⟨d, hraw, hd⟩ => kind_of_eq_unknown hraw hd
      rcases of_cases c cs with ⟨-, hof⟩ | ⟨-, hof⟩ | ⟨-, hof⟩
        | ⟨hdouble, hsingle, hnumber, hstart, hof⟩
      all_goals rw [hof] at hunknown ⊢
      · exact ⟨nofun, nofun, nofun, nofun, hunknown⟩
      · exact ⟨nofun, fun _ => ⟨rfl, NumberLiteral.isLongest_read _⟩, nofun,
          nofun, hunknown⟩
      · obtain ⟨hword, hkeyword⟩ := word_kind (c :: cs)
        refine ⟨fun _ => ⟨rfl, isLongest_takeWhile _ _, hkeyword⟩,
          fun h => ?_, fun p h => ?_, fun h => ?_, hunknown⟩
        all_goals
          rw [h] at hword
          cases hword
      · unfold mark at hunknown ⊢
        split at hunknown <;> rename_i hlongest
        · refine ⟨nofun, nofun, fun q h => ?_, nofun, hunknown⟩
          cases h
          exact ⟨rfl, Punctuator.isLongest_of_longest? hlongest⟩
        · exact ⟨nofun, nofun, nofun, fun _ => ⟨c, rfl,
            beginsNoToken_of_longest? hdouble hsingle hnumber hstart
              hlongest⟩, hunknown⟩

end Token.Reading

-- ============================================================= lexemes

namespace Lexeme

/-- A lexeme is what a text begins with behind `front`, up to `rest`, and
its token says so. -/
structure IsReadOff (cs front : List Char) (reading : Token.Reading)
    (rest : List Char) (lexeme : Lexeme) : Prop where
  text_eq : front ++ (reading.raw ++ rest) = cs
  reading_eq : Token.Reading.of (reading.raw ++ rest) = reading
  ahead_eq : lexeme.ahead.chars = reading.raw ++ rest
  kind_eq : lexeme.token.kind = reading.kind
  value_eq : lexeme.token.value.toList = reading.value
  start_eq : lexeme.token.start = byteLength front
  stop_eq : lexeme.token.stop = byteLength front + byteLength reading.raw
  isOpen_eq : reading.raw ≠ [] → lexeme.token.isOpen = reading.isOpen

theorem exists_isReadOff {cs before : List Char} {text : Stretch}
    (h : before ++ text.chars = cs) : ∃ front reading rest,
      (read (byteLength before) text).IsReadOff cs front reading rest := by
  obtain ⟨items, reading, rest, hopens⟩ := exists_opensWith text.chars
  obtain ⟨htoken, hahead, -⟩ := hopens.read (byteLength before)
  refine ⟨before ++ Trivia.charsOf items, reading, rest, ?_,
    hopens.reading_eq, hahead, ?_, ?_, ?_, ?_, fun hraw => ?_⟩
  · rw [List.append_assoc, ← hopens.text_eq, h]
  · rw [htoken]
    rfl
  · rw [htoken]
    exact String.toList_ofList
  · rw [htoken, byteLength_append]
    rfl
  · rw [htoken, byteLength_append]
    rfl
  · rw [htoken, Token.behind, hopens.openComment?_eq_none hraw]
    exact Bool.or_false _

/-- Every lexeme of a text, before it may be read again, is read off it. -/
theorem exists_isReadOff_unread (text : String) (again : Nat → Bool)
    (n : Nat) : ∃ front reading rest,
      (unread text again n).IsReadOff text.toList front reading rest := by
  obtain ⟨before, rest, htext, hread⟩ := exists_unread_eq text again n
  rw [hread]
  exact exists_isReadOff htext

namespace IsReadOff

variable {cs front rest : List Char} {reading : Token.Reading}
  {lexeme : Lexeme}

theorem splitAtByte?_eq (h : lexeme.IsReadOff cs front reading rest) :
    splitAtByte? lexeme.token.start cs
      = some (front, reading.raw ++ rest) := by
  rw [h.start_eq, ← h.text_eq, splitAtByte?_append]

theorem slice?_eq (h : lexeme.IsReadOff cs front reading rest) :
    slice? cs lexeme.token.start lexeme.token.stop = some reading.raw := by
  rw [h.start_eq, h.stop_eq, ← h.text_eq, slice?_append]

end IsReadOff

/-- Every token that is read off a text, and not read again, is spelled as
its kind says: its source is just its text, and the longest that its kind
allows. -/
theorem spelled_unread (text : String) (again : Nat → Bool) (n : Nat) :
    let token := (unread text again n).token
    ∃ front raw ahead,
      splitAtByte? token.start text.toList = some (front, ahead)
        ∧ slice? text.toList token.start token.stop = some raw
        ∧ token.kind.Spelled token.value.toList raw ahead := by
  obtain ⟨front, reading, rest, hread⟩ :=
    exists_isReadOff_unread text again n
  refine ⟨front, reading.raw, _, hread.splitAtByte?_eq, hread.slice?_eq, ?_⟩
  have hspelled := Token.Reading.spelled_of (reading.raw ++ rest)
  rw [hread.reading_eq] at hspelled
  rwa [hread.kind_eq, hread.value_eq]

end Lexeme

end ScriptLint
