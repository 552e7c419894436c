/-
What a string literal stands for. A literal is read part by part, up to its
quote, a line break or the end of the text, and its value is put together
from what the parts stand for: a character for itself, an escape for what
the characters behind its backslash say (`StringLiteral.Escapes`).

The letters `x` and `u` call for two and four characters that denote a
character by its code point. When the next characters in the text do, they
belong to the escape; when they do not, whatever they are, the letter
stands for itself and reading goes on right behind it. What denotes a code
point is a parameter of this account. It is meant to be hexadecimal digits
alone (`StringLiteral.Denotes`), but a plus sign in front of them is
accepted as one of the places (`StringLiteral.DenotesSigned`), and that is
all the difference (`Lexeme.hasParts_unread`).

# The argument

- The reading of an escape is described as a relation with what follows it
  in view (`Escapes`), since whether `x` and `u` take characters depends on
  these.
- The function that reads an escape satisfies the relation
  (`escapes_escape`), and the relation determines what it reads
  (`Escapes.value_eq`).
- With the intended meaning of digits instead, the relation differs on
  literals with a sign in them, and on no others.
-/
import Mathlib.Data.Nat.Digits.Defs
import ScriptLint.Proofs.Token.Spelling

namespace ScriptLint

open Text

namespace StringLiteral

-- ========================================================= code points

/-- Hexadecimal digits denote the character whose code point is their
value. -/
def Denotes (places : List Char) (c : Char) : Prop :=
  ∃ digits : List Nat, places.map hexValue? = digits.map some
    ∧ Nat.ofDigits 16 digits.reverse = c.toNat

/-- A plus sign may stand in front of the digits. -/
def DenotesSigned (places : List Char) (c : Char) : Prop :=
  Denotes places c ∨ ∃ digits, places = '+' :: digits ∧ Denotes digits c

theorem not_denotes_plus (digits : List Char) (c : Char) :
    ¬ Denotes ('+' :: digits) c := by
  rintro ⟨values, hvalues, -⟩
  cases values with
  | nil => cases hvalues
  | cons value values => cases (List.cons.inj hvalues).1

theorem mapM_eq_some_iff {α β : Type} {f : α → Option β} {xs : List α}
    {ys : List β} : xs.mapM f = some ys ↔ xs.map f = ys.map some := by
  induction xs generalizing ys with
  | nil => cases ys <;> simp
  | cons x xs ih =>
      cases ys with
      | nil => simp [Option.bind_eq_some_iff]
      | cons y ys =>
          simp [Option.bind_eq_some_iff, ih]

/-- The value of digits is the number that they are written as. -/
theorem foldl_eq_ofDigits (digits : List Nat) :
    digits.foldl (fun value digit => 16 * value + digit) 0
      = Nat.ofDigits 16 digits.reverse := by
  rw [Nat.ofDigits_eq_foldr, List.foldr_reverse]
  simp only [Nat.cast_id, Nat.add_comm]

/-- Digits are decoded to the character that they denote. -/
theorem decode_eq_some_iff {digits : List Char} {c : Char} :
    ((digits.mapM hexValue?).bind fun values =>
      let code := values.foldl (fun value digit => 16 * value + digit) 0
      if code.isValidChar then some (Char.ofNat code) else none) = some c
      ↔ Denotes digits c := by
  simp only [Option.bind_eq_some_iff, mapM_eq_some_iff, foldl_eq_ofDigits,
    Denotes]
  refine exists_congr fun values => and_congr_right fun _ => ?_
  constructor
  · intro h
    split at h
    · rename_i hvalid
      rw [← Option.some_inj.1 h, Char.ofNat, dif_pos hvalid]
      rfl
    · cases h
  · intro h
    have hvalid : c.toNat.isValidChar := c.valid
    rw [h, if_pos hvalid, Char.ofNat_toNat]

theorem hexChar?_eq_some_iff {count : Nat} {cs : List Char} {c : Char} :
    hexChar? count cs = some c
      ↔ (cs.take count).length = count ∧ DenotesSigned (cs.take count) c := by
  unfold hexChar?
  dsimp only
  by_cases hlength : (cs.take count).length = count
  · rw [guard, if_pos hlength]
    refine Iff.trans ?_ (and_iff_right hlength).symm
    generalize cs.take count = places
    split
    · rename_i digits
      refine decode_eq_some_iff.trans ⟨fun h => .inr ⟨digits, rfl, h⟩, ?_⟩
      rintro (h | ⟨digits', hplus, h⟩)
      · exact absurd h (not_denotes_plus digits c)
      · rwa [(List.cons.inj hplus).2]
    · rename_i hplus
      refine decode_eq_some_iff.trans ⟨.inl, ?_⟩
      rintro (h | ⟨digits, rfl, -⟩)
      · exact h
      · exact absurd rfl (hplus digits)
  · rw [guard, if_neg hlength]
    exact ⟨nofun, fun h => absurd h.1 hlength⟩

-- =============================================================== parts

/-- How many places belong to the letter of an escape by code point. -/
def placesOf? : Char → Option Nat
  | 'x' => some 2
  | 'u' => some 4
  | _ => none

/-- The control character that a letter stands for. -/
def controlOf? : Char → Option Char
  | 'n' => some '\n'
  | 't' => some '\t'
  | 'r' => some '\r'
  | 'b' => some '\x08'
  | 'f' => some '\x0c'
  | 'v' => some '\x0b'
  | _ => none

/-- An escape: `raw` is what belongs to it of the text behind its backslash,
`value` what it stands for, and `behind` the text behind it. -/
inductive Escapes (denotes : List Char → Char → Prop) :
    List Char → List Char → List Char → Prop where
  /-- The letter and its places, when they denote a character. -/
  | decoded {letter : Char} {count : Nat} {places behind : List Char}
      {c : Char} :
    placesOf? letter = some count → places.length = count →
    denotes places c → Escapes denotes (letter :: places) [c] behind
  /-- The letter alone, when the places behind it do not. -/
  | undecoded {letter : Char} {count : Nat} {behind : List Char} :
    placesOf? letter = some count →
    (∀ places c, places <+: behind → places.length = count →
      ¬ denotes places c) → Escapes denotes [letter] [letter] behind
  | control {letter c : Char} {behind : List Char} :
    controlOf? letter = some c → Escapes denotes [letter] [c] behind
  /-- A zero, unless a digit follows. -/
  | null {behind : List Char} : (∀ d ∈ behind.head?, isDigit d = false) →
    Escapes denotes ['0'] ['\x00'] behind
  /-- A line break stands for nothing, and both characters of a pair belong
  to it. -/
  | lineBreak {c : Char} {behind : List Char} : isLineBreak c = true →
    (c = '\r' → behind.head? ≠ some '\n') → Escapes denotes [c] [] behind
  | lineBreaks {behind : List Char} :
    Escapes denotes ['\r', '\n'] [] behind
  /-- Any other character stands for itself. -/
  | itself {c : Char} {behind : List Char} : placesOf? c = none →
    controlOf? c = none → isLineBreak c = false →
    (c = '0' → ∃ d ∈ behind.head?, isDigit d = true) →
    Escapes denotes [c] [c] behind
  /-- A backslash at the end of the text. -/
  | nothing : Escapes denotes [] [] []

/-- A part of a literal in the given quotes, with `behind` behind it. -/
inductive IsPart (denotes : List Char → Char → Prop) (quote : Char) :
    Part → List Char → Prop where
  | plain {c : Char} {behind : List Char} : c ≠ quote → c ≠ '\\' →
    isLineBreak c = false → IsPart denotes quote ⟨[c], [c]⟩ behind
  | escape {raw value behind : List Char} : Escapes denotes raw value behind →
    IsPart denotes quote ⟨'\\' :: raw, value⟩ behind

/-- The parts of a literal in the given quotes, up to where it ends, with
`rest` from there on. -/
def Contents (denotes : List Char → Char → Prop) (quote : Char) :
    List Part → List Char → Prop
  | [], rest => ∀ c ∈ rest.head?, c = quote ∨ isLineBreak c = true
  | part :: parts, rest =>
    IsPart denotes quote part (rawOf parts ++ rest)
      ∧ Contents denotes quote parts rest

section

variable {denotes : List Char → Char → Prop} {quote letter : Char}
  {count : Nat} {raw value behind cs : List Char}

/-- A letter with no places behind it that denote a character stands for
itself. -/
theorem Escapes.value_eq (h : Escapes denotes raw value behind)
    (hletter : placesOf? letter = some count)
    (hnone : ∀ places c, places <+: cs → places.length = count →
      ¬ denotes places c) (hraw : raw ++ behind = letter :: cs) :
    value = [letter] := by
  have hcases : letter = 'x' ∨ letter = 'u' := by
    unfold placesOf? at hletter
    split at hletter
    · exact .inl rfl
    · exact .inr rfl
    · cases hletter
  cases h with
  | decoded hletter' hlength hdenotes =>
      injection hraw with hsame hcs
      rw [hsame, hletter, Option.some_inj] at hletter'
      exact absurd hdenotes
        (hnone _ _ ⟨_, hcs⟩ (hlength.trans hletter'.symm))
  | undecoded => rw [(List.cons.inj hraw).1]
  | control hcontrol =>
      rw [(List.cons.inj hraw).1] at hcontrol
      rcases hcases with rfl | rfl <;> cases hcontrol
  | lineBreak hbreak =>
      rw [(List.cons.inj hraw).1] at hbreak
      rcases hcases with rfl | rfl <;> cases hbreak
  | itself hplaces =>
      rw [(List.cons.inj hraw).1, hletter] at hplaces
      cases hplaces
  | null | lineBreaks =>
      rw [← (List.cons.inj hraw).1] at hletter
      cases hletter
  | nothing => cases hraw

theorem IsPart.value_eq {part : Part} (h : IsPart denotes quote part behind)
    (hletter : placesOf? letter = some count)
    (hnone : ∀ places c, places <+: cs → places.length = count →
      ¬ denotes places c)
    (hraw : part.raw ++ behind = '\\' :: letter :: cs) :
    part.value = [letter] := by
  cases h with
  | plain hquote hescape => exact absurd (List.cons.inj hraw).1 hescape
  | escape h => exact h.value_eq hletter hnone (List.cons.inj hraw).2

end

-- ======================================================== what is read

section

variable {letter c : Char} {count : Nat} {cs : List Char}

theorem escapes_decoded (hletter : placesOf? letter = some count)
    (h : hexChar? count cs = some c) :
    Escapes DenotesSigned (letter :: cs.take count) [c] (cs.drop count) := by
  obtain ⟨hlength, hdenotes⟩ := hexChar?_eq_some_iff.1 h
  exact .decoded hletter hlength hdenotes

theorem escapes_undecoded (hletter : placesOf? letter = some count)
    (h : hexChar? count cs = none) :
    Escapes DenotesSigned [letter] [letter] cs := by
  refine .undecoded hletter fun places c hfront hlength hdenotes => ?_
  have hplaces : places = cs.take count :=
    hlength ▸ List.prefix_iff_eq_take.1 hfront
  rw [hplaces] at hlength hdenotes
  rw [hexChar?_eq_some_iff.2 ⟨hlength, hdenotes⟩] at h
  cases h

/-- What stands behind a backslash is read as an escape. -/
theorem escapes_escape (cs : List Char) :
    Escapes DenotesSigned (cs.take (escape cs).2) (escape cs).1
      (cs.drop (escape cs).2) := by
  unfold escape
  split
  · exact .nothing
  · exact .lineBreaks
  rename_i c cs hpair
  split
  · exact .control rfl
  · exact .control rfl
  · exact .control rfl
  · exact .control rfl
  · exact .control rfl
  · exact .control rfl
  · cases hdigit : cs.head?.any isDigit with
    | true =>
        exact .itself rfl rfl rfl fun _ => (Option.any_eq_true _ _).1 hdigit
    | false =>
        refine .null fun d hd => ?_
        have hhead : cs.head? = some d := hd
        rwa [hhead] at hdigit
  · have htwo : placesOf? 'x' = some 2 := rfl
    split
    · rename_i hhex
      exact escapes_decoded htwo hhex
    · rename_i hhex
      exact escapes_undecoded htwo hhex
  · have hfour : placesOf? 'u' = some 4 := rfl
    split
    · rename_i hhex
      exact escapes_decoded hfour hhex
    · rename_i hhex
      exact escapes_undecoded hfour hhex
  -- none of the letters with a meaning is left, so it is a line break or the
  -- character itself
  · rename_i hn ht hr hb hf hv h0 hx hu
    cases hbreak : isLineBreak c with
    | true =>
        refine .lineBreak hbreak fun hc hnext => ?_
        obtain ⟨tail, htail⟩ := List.head?_eq_some_iff.1 hnext
        exact hpair tail hc htail
    | false =>
        exact .itself (placesOf?.eq_3 c hx hu)
          (controlOf?.eq_7 c hn ht hr hb hf hv) hbreak
          fun hzero => absurd hzero h0

end

theorem isPart_of_part? {quote : Char} {cs rest : List Char} {part : Part}
    (h : part? quote cs = some (part, rest)) :
    IsPart DenotesSigned quote part rest := by
  unfold part? at h
  split at h
  · cases h
  rename_i c cs
  split at h
  · cases h
  rename_i hstop
  split at h
  · rename_i hescape
    cases h
    rw [eq_of_beq hescape]
    exact .escape (escapes_escape cs)
  · rename_i hescape
    cases h
    simp only [Bool.or_eq_true, beq_iff_eq, not_or, Bool.not_eq_true]
      at hstop hescape
    exact .plain hstop.1 hescape hstop.2

/-- Where there is no further part the literal ends. -/
theorem ends_of_part? {quote : Char} {cs : List Char}
    (h : part? quote cs = none) :
    ∀ c ∈ cs.head?, c = quote ∨ isLineBreak c = true := by
  unfold part? at h
  split at h
  · nofun
  rename_i c cs
  split at h
  · rename_i hstop
    intro d hd
    rw [← Option.some_inj.1 hd]
    simpa using hstop
  · split at h <;> cases h

/-- A literal is read part by part. -/
theorem contents_parts (quote : Char) (cs : List Char) :
    Contents DenotesSigned quote (parts quote cs).1 (parts quote cs).2 := by
  fun_induction parts quote cs with
  | case1 cs h => exact ends_of_part? h
  | case2 cs part rest h more rest' hs ih =>
      have hcut := rawOf_append_parts quote rest
      rw [hs] at hcut ih
      refine ⟨?_, ih⟩
      rw [hcut]
      exact isPart_of_part? h

-- ========================================================== plus signs

/-- Whether a part is an escape whose first place is a plus sign. -/
def Part.IsSigned (part : Part) : Prop :=
  ∃ letter digits, part.raw = '\\' :: letter :: '+' :: digits

section

variable {quote : Char} {part : Part} {behind : List Char}

/-- Digits alone have no plus sign. -/
theorem IsPart.not_isSigned (h : IsPart Denotes quote part behind) :
    ¬ part.IsSigned := by
  rintro ⟨letter, digits, hraw⟩
  cases h with
  | plain => cases hraw
  | escape hescape =>
      cases hescape with
      | decoded hletter hlength hdenotes =>
          cases hraw
          exact not_denotes_plus digits _ hdenotes
      | _ => cases hraw

/-- Without a plus sign a part is read by its digits alone. -/
theorem IsPart.denotes (h : IsPart DenotesSigned quote part behind)
    (hsigned : ¬ part.IsSigned) : IsPart Denotes quote part behind := by
  cases h with
  | plain hquote hescape hbreak => exact .plain hquote hescape hbreak
  | escape hescape =>
      refine .escape ?_
      cases hescape with
      | decoded hletter hlength hdenotes =>
          rcases hdenotes with hdenotes | ⟨digits, rfl, -⟩
          · exact .decoded hletter hlength hdenotes
          · exact absurd ⟨_, digits, rfl⟩ hsigned
      | undecoded hletter hnone =>
          exact .undecoded hletter fun places c hfront hlength hdenotes =>
            hnone places c hfront hlength (.inl hdenotes)
      | control hletter => exact .control hletter
      | null hnext => exact .null hnext
      | lineBreak hbreak hpair => exact .lineBreak hbreak hpair
      | lineBreaks => exact .lineBreaks
      | itself hplaces hcontrol hbreak hzero =>
          exact .itself hplaces hcontrol hbreak hzero
      | nothing => exact .nothing

variable {parts : List Part} {rest : List Char}

theorem Contents.not_isSigned (h : Contents Denotes quote parts rest) :
    ∀ part ∈ parts, ¬ part.IsSigned := by
  induction parts with
  | nil => exact List.forall_mem_nil _
  | cons part parts ih =>
      exact List.forall_mem_cons.2 ⟨h.1.not_isSigned, ih h.2⟩

theorem Contents.denotes (h : Contents DenotesSigned quote parts rest)
    (hsigned : ∀ part ∈ parts, ¬ part.IsSigned) :
    Contents Denotes quote parts rest := by
  induction parts with
  | nil => exact h
  | cons part parts ih =>
      obtain ⟨hpart, hparts⟩ := List.forall_mem_cons.1 hsigned
      exact ⟨h.1.denotes hpart, ih h.2 hparts⟩

end

end StringLiteral

-- ============================================================== tokens

open StringLiteral

/-- A token is the string literal with the given parts: behind its opening
quote the text goes on with them up to where they end, its value is what
they stand for, and it is closed if they end at the quote, which then
belongs to it. -/
def Token.HasParts (denotes : List Char → Char → Prop) (cs : List Char)
    (token : Token) (parts : List StringLiteral.Part) : Prop :=
  ∃ front quote rest, cs = front ++ quote :: (rawOf parts ++ rest)
    ∧ (quote = '"' ∨ quote = '\'') ∧ Contents denotes quote parts rest
    ∧ token.start = byteLength front
    ∧ token.value.toList = valueOf parts
    ∧ (token.isOpen = false ↔ rest.head? = some quote)
    ∧ token.stop = token.start + byteLength (quote :: rawOf parts
      ++ if token.isOpen then [] else [quote])

/-- Only quotes begin a string. -/
theorem Token.Reading.exists_of_string {cs : List Char}
    (h : (of cs).kind = .string) : ∃ quote behind, cs = quote :: behind
      ∧ (quote = '"' ∨ quote = '\'') ∧ of cs = string quote behind := by
  cases cs with
  | nil => cases h
  | cons c cs =>
      rcases of_cases c cs with ⟨hquote, hof⟩ | ⟨-, hof⟩ | ⟨-, hof⟩
        | ⟨-, -, -, -, hof⟩
      · exact ⟨c, cs, rfl, hquote, hof⟩
      · rw [hof] at h
        cases h
      · have hword := (word_kind (c :: cs)).1
        rw [hof] at h
        rw [h] at hword
        cases hword
      · rw [hof, mark] at h
        split at h <;> cases h

/-- A string is read up to where its parts end, with its quote if they end
there. -/
theorem Token.Reading.string_eq (quote : Char) (behind : List Char) :
    let rest := (parts quote behind).2
    (string quote behind).value = valueOf (parts quote behind).1
      ∧ ((string quote behind).isOpen = false ↔ rest.head? = some quote)
      ∧ (string quote behind).raw = quote :: rawOf (parts quote behind).1
        ++ if (string quote behind).isOpen then [] else [quote] := by
  intro rest
  by_cases hclosed : rest.head? = some quote
  · simp [string, rest, hclosed]
  · simp [string, rest, hclosed]

namespace Lexeme

variable {text : String} {again : Nat → Bool} {n : Nat}

theorem exists_hasParts
    (h : (unread text again n).token.kind = .string) : ∃ parts,
      (unread text again n).token.HasParts DenotesSigned text.toList
        parts := by
  obtain ⟨front, reading, rest, hread⟩ :=
    exists_isReadOff_unread text again n
  rw [hread.kind_eq, ← hread.reading_eq] at h
  obtain ⟨quote, behind, hahead, hquote, hof⟩ :=
    Token.Reading.exists_of_string h
  rw [hread.reading_eq] at hof
  obtain ⟨hvalue, hopen, hraw⟩ := Token.Reading.string_eq quote behind
  rw [← hof] at hvalue hopen hraw
  have hsame := hread.isOpen_eq (by rw [hraw]; exact List.cons_ne_nil _ _)
  refine ⟨_, front, quote, _, ?_, hquote, contents_parts quote behind,
    hread.start_eq, hread.value_eq.trans hvalue, ?_, ?_⟩
  · rw [rawOf_append_parts, ← hahead, hread.text_eq]
  · rw [hsame, hopen]
  · rw [hread.stop_eq, hread.start_eq, hsame, ← hraw]

/-- Every string literal has its parts, where a plus sign may stand in the
place of a digit. They are those that it would have without plus signs
exactly if none of them has one. -/
theorem hasParts_unread
    (h : (unread text again n).token.kind = .string) : ∃ parts,
      (unread text again n).token.HasParts DenotesSigned text.toList parts
        ∧ ((unread text again n).token.HasParts Denotes text.toList parts
          ↔ ∀ part ∈ parts, ¬ part.IsSigned) := by
  obtain ⟨parts, hparts⟩ := exists_hasParts h
  refine ⟨parts, hparts, ?_⟩
  obtain ⟨front, quote, rest, htext, hquote, hcontents, htoken⟩ := hparts
  constructor
  · rintro ⟨_, _, _, -, -, hplain, -⟩
    exact hplain.not_isSigned
  · intro hsigned
    exact ⟨front, quote, rest, htext, hquote, hcontents.denotes hsigned,
      htoken⟩

/-- Places that run into the quote or begin with a sign, and such that are
decoded. -/
theorem hasParts_unread_places :
    let token := (unread "f('\\x4', \"\\u+041\\x4é\\u00e9\")" (fun _ => false)
      4).token
    token.kind = .string ∧ token.value = "Ax4éé" ∧ ∃ parts,
      token.HasParts DenotesSigned
          "f('\\x4', \"\\u+041\\x4é\\u00e9\")".toList parts
        ∧ (token.HasParts Denotes
            "f('\\x4', \"\\u+041\\x4é\\u00e9\")".toList parts
          ↔ ∀ part ∈ parts, ¬ part.IsSigned) :=
  ⟨by decide +kernel, by decide +kernel,
    hasParts_unread (by decide +kernel)⟩

/-- A program of one string, in which the places of an escape begin with a
plus sign. -/
def signedEscape : String := "\"\\x+1\""

/-- The escape is decoded, although its places are not all digits. -/
theorem not_hasParts_signedEscape :
    (first signedEscape).token.kind = .string
      ∧ (first signedEscape).token.value = "\x01"
      ∧ ¬ ∃ parts, (first signedEscape).token.HasParts Denotes
        signedEscape.toList parts := by
  have hvalue : (first signedEscape).token.value = "\x01" := by
    decide +kernel
  have hstart : (first signedEscape).token.start = 0 := by decide +kernel
  refine ⟨by decide +kernel, hvalue, ?_⟩
  rintro ⟨parts, front, quote, rest, htext, -, hcontents, hfront, hparts, -⟩
  rw [hstart] at hfront
  rw [hvalue] at hparts
  have hnil : front = [] := by
    by_contra hne
    exact absurd (byteLength_pos hne) (by omega)
  have hchars : signedEscape.toList = ['"', '\\', 'x', '+', '1', '"'] := by
    decide +kernel
  rw [hchars, hnil, List.nil_append] at htext
  injection htext with hquote hbehind
  cases parts with
  | nil =>
      rw [rawOf, List.flatMap_nil, List.nil_append] at hbehind
      have hends := hcontents '\\' (by rw [← hbehind]; rfl)
      rw [← hquote] at hends
      exact absurd hends (by decide)
  | cons part parts =>
      have hnone : ∀ places c, places <+: ['+', '1', '"'] →
          places.length = 2 → ¬ Denotes places c := by
        intro places c hfront hlength
        rw [List.prefix_iff_eq_take.1 hfront, hlength]
        exact not_denotes_plus ['1'] c
      have hpart : part.value = ['x'] := by
        refine hcontents.1.value_eq rfl hnone ?_
        rw [← List.append_assoc]
        exact hbehind.symm
      rw [valueOf, List.flatMap_cons, hpart] at hparts
      exact absurd (List.cons.inj hparts).1 (by decide)

end Lexeme

end ScriptLint
