/-
Tokens are read locally. A text that is changed somewhere behind a token,
so that it stops there or goes on with a semicolon (`Departs`), opens with
the same trivia and the same token as before (`OpensWith.departs`): a
semicolon continues neither words, numbers nor punctuators, and what is
closed is not read any further. Only a string that is not closed also
looks at the character behind it.

For each way to read something off the front of a text there is one lemma
that says so. The three parts of a number are each read as far as they go
and are followed through the change one after the other (`Steady`).

Strings, comments and regular expressions may have semicolons inside. They
end with delimiters of their own, so once they are closed it does not
matter at all what comes behind, and their lemmas say so (`string_congr`,
`blockBody?_congr`, `read_congr`).
-/
import Mathlib.Data.Option.Basic
import ScriptLint.Proofs.Token.Facts
import ScriptLint.Proofs.Token.Words

namespace ScriptLint

open Text

-- ===================================================== changed texts

/-- The second text is the first one up to some place, and from there on
it is at its end or goes on with a semicolon. -/
inductive Departs : List Char → List Char → Prop where
  | here (x : List Char) {y : List Char} :
    (∀ c ∈ y.head?, c = ';') → Departs x y
  | cons (c : Char) {x y : List Char} :
    Departs x y → Departs (c :: x) (c :: y)

namespace Departs

variable {x y : List Char}

/-- A text goes on as it does. -/
theorem refl (x : List Char) : Departs x x := by
  induction x with
  | nil => exact .here [] nofun
  | cons c x ih => exact .cons c ih

/-- What goes on alike does so behind a common part. -/
theorem append (s : List Char) (h : Departs x y) :
    Departs (s ++ x) (s ++ y) := by
  induction s with
  | nil => exact h
  | cons c s ih => exact .cons c ih

/-- What the second text goes on with but for a semicolon, the first one
does. -/
theorem head (h : Departs x y) :
    ∀ c ∈ y.head?, c = ';' ∨ c ∈ x.head? := by
  cases h with
  | here x hsemicolon => exact fun c hc => .inl (hsemicolon c hc)
  | cons c h => exact fun d hd => .inr hd

/-- A part without a semicolon is common to both. -/
theorem of_append {t : List Char} (h : Departs x (t ++ y))
    (ht : ';' ∉ t) : ∃ x', x = t ++ x' ∧ Departs x' y := by
  induction t generalizing x with
  | nil => exact ⟨x, rfl, h⟩
  | cons c t ih =>
      cases h with
      | here x hsemicolon =>
          exact absurd (List.mem_cons.2 (.inl (hsemicolon c rfl).symm)) ht
      | cons c h =>
          obtain ⟨x', rfl, hx'⟩ := ih h fun hmem =>
            ht (List.mem_cons_of_mem c hmem)
          exact ⟨x', rfl, hx'⟩

end Departs

/-- Whatever `f` reads off the front of a text, it reads off the text
changed behind that. -/
def Steady (f : List Char → List Char) : Prop :=
  ∀ ⦃s x y : List Char⦄, Departs x y → f (s ++ x) = s → f (s ++ y) = s

-- ============================================================== numbers

/-- Taking characters of a kind is steady if a semicolon is not of it. -/
theorem steady_takeWhile {p : Char → Bool} (hp : p ';' = false) :
    Steady (List.takeWhile p) := by
  intro s x y hxy h
  rw [takeWhile_append_eq_self] at h ⊢
  refine ⟨h.1, fun c hc => ?_⟩
  rcases hxy.head c hc with rfl | hmem
  · exact hp
  · exact h.2 c hmem

/-- One piece and then another off what is left. -/
theorem Steady.andThen {f g : List Char → List Char} (hf : Steady f)
    (hg : Steady g) : Steady fun cs => f cs ++ g (cs.drop (f cs).length) := by
  intro s x y hxy h
  dsimp only at h ⊢
  generalize hr : f (s ++ x) = r at h
  generalize ht : g ((s ++ x).drop r.length) = t at h
  subst h
  rw [List.append_assoc] at hr ht ⊢
  rw [List.drop_left] at ht
  rw [hf (hxy.append t) hr, List.drop_left, hg hxy ht]

namespace NumberLiteral

/-- The fraction of a number is read that way. -/
theorem steady_fraction : Steady fraction := by
  intro s x y hxy h
  cases s with
  | nil =>
      rw [List.nil_append] at h ⊢
      unfold fraction
      split
      · rename_i ds
        obtain ⟨x', rfl, -⟩ :=
          Departs.of_append (t := ['.']) hxy (by decide)
        cases h
      · rfl
  | cons c s =>
      rw [List.cons_append] at h ⊢
      unfold fraction at h
      split at h
      · rename_i heq
        injection heq with hc hcs
        subst hc hcs
        injection h with _ h
        exact congrArg ('.' :: ·) (steady_takeWhile (by decide) hxy h)
      · cases h

/-- An exponent is the letter, a sign or none, and digits. -/
theorem exponent_eq_iff {cs e : List Char} (hne : e ≠ []) :
    exponent cs = e ↔ ∃ letter sign digits rest,
      e = letter :: (sign ++ digits) ∧ cs = letter :: (sign ++ rest)
        ∧ (letter = 'e' ∨ letter = 'E')
        ∧ (sign = [] ∨ sign = ['+'] ∨ sign = ['-'])
        ∧ digits ≠ [] ∧ rest.takeWhile isDigit = digits := by
  constructor
  · intro h
    unfold exponent at h
    split at h
    · rename_i letter cs
      dsimp only at h
      split at h
      · rename_i hletter
        have hletter : letter = 'e' ∨ letter = 'E' := by simpa using hletter
        split at h
        -- the sign is optional, so its place may hold the first digit
        · rename_i sign ds
          split at h
          · rename_i hsign
            have hsign : sign = '+' ∨ sign = '-' := by simpa using hsign
            split at h
            · exact absurd h.symm hne
            · rename_i hdigits
              refine ⟨letter, [sign], _, ds, h.symm, rfl, hletter, ?_,
                by simpa using hdigits, rfl⟩
              rcases hsign with rfl | rfl <;> simp
          · split at h
            · exact absurd h.symm hne
            · rename_i hdigits
              exact ⟨letter, [], _, sign :: ds, h.symm, rfl, hletter,
                .inl rfl, fun hnil => hdigits (List.isEmpty_iff.2 hnil), rfl⟩
        · exact absurd h.symm hne
      · exact absurd h.symm hne
    · exact absurd h.symm hne
  · rintro ⟨letter, sign, digits, rest, rfl, rfl, hletter, hsign, hdigits,
      rfl⟩
    have hletter : (letter == 'e' || letter == 'E') = true := by
      simpa using hletter
    rcases hsign with rfl | rfl | rfl
    · rcases rest with _ | ⟨d, rest⟩
      · exact absurd rfl hdigits
      -- without a sign the first character is a digit, or there would be none
      · have hd : isDigit d = true := by
          by_contra hd
          simp [hd] at hdigits
        have hsign : (d == '+' || d == '-') = false := by
          simp only [Bool.or_eq_false_iff, beq_eq_false_iff_ne]
          constructor <;> rintro rfl <;> simp [isDigit] at hd
        simp [exponent, hletter, hsign, hd]
    · simp [exponent, hletter, hdigits]
    · simp [exponent, hletter, hdigits]

/-- The exponent of a number is read steadily, though two characters have to
be looked at before the digits are certain. -/
theorem steady_exponent : Steady exponent := by
  intro s x y hxy h
  by_cases hs : s = []
  · subst hs
    by_contra hne
    rw [List.nil_append] at h hne
    obtain ⟨letter, sign, digits, rest, -, rfl, hletter, hsign, hdigits,
      hrest⟩ := (exponent_eq_iff hne).1 rfl
    have hy : letter :: (sign ++ rest)
        = letter :: (sign ++ digits) ++ rest.dropWhile isDigit := by
      rw [List.cons_append, List.append_assoc, ← hrest,
        List.takeWhile_append_dropWhile]
    -- the semicolon is neither letter, sign nor digit, so all three are
    -- in the other text as well
    have hplain : ';' ∉ letter :: (sign ++ digits) := by
      have hdigit : ';' ∉ digits := fun hmem => by
        rw [← hrest] at hmem
        exact absurd (List.mem_takeWhile_imp hmem) (by decide)
      rcases hletter with rfl | rfl <;> rcases hsign with rfl | rfl | rfl <;>
        simpa using hdigit
    rw [hy] at hxy
    obtain ⟨x', rfl, -⟩ := hxy.of_append hplain
    obtain ⟨d, digits, rfl⟩ := List.exists_cons_of_ne_nil hdigits
    have hd : isDigit d = true :=
      List.mem_takeWhile_imp (hrest ▸ List.mem_cons_self)
    have hfound := (exponent_eq_iff (List.cons_ne_nil letter _)).2
      ⟨letter, sign, _, d :: (digits ++ x'), rfl, rfl, hletter, hsign,
        by simp [hd], rfl⟩
    rw [List.cons_append, List.append_assoc, List.cons_append, hfound] at h
    cases h
  · obtain ⟨letter, sign, digits, rest, rfl, hcs, hletter, hsign, hdigits,
      hrest⟩ := (exponent_eq_iff hs).1 h
    refine (exponent_eq_iff hs).2 ⟨letter, sign, digits, digits ++ y, rfl,
      by simp, hletter, hsign, hdigits, ?_⟩
    rw [List.cons_append, List.append_assoc, List.cons.injEq] at hcs
    rw [← List.append_cancel_left hcs.2] at hrest
    exact steady_takeWhile (by decide) hxy hrest

/-- A decimal number is read steadily as a whole. -/
theorem steady_decimal : Steady decimal := by
  have h := Steady.andThen (steady_takeWhile (p := isDigit) (by decide))
    (steady_fraction.andThen steady_exponent)
  simp only [drop_length_takeWhile, ← List.append_assoc] at h
  exact h

/-- Behind `0x`, a number is hexadecimal. -/
def isHex : List Char → Bool
  | '0' :: x :: _ => x == 'x' || x == 'X'
  | _ => false

/-- A hexadecimal number is its front and its digits. -/
theorem read_of_isHex {x : Char} {cs : List Char}
    (h : isHex ('0' :: x :: cs) = true) :
    read ('0' :: x :: cs) = '0' :: x :: cs.takeWhile isHexDigit :=
  if_pos h

/-- Any other is decimal. -/
theorem read_of_not_isHex {cs : List Char} (h : isHex cs = false) :
    read cs = decimal cs := by
  unfold read
  split
  · rw [isHex] at h
    rw [if_neg (by simp [h])]
  · rfl

/-- So numbers are steady. -/
theorem steady_read : Steady read := by
  intro s x y hxy h
  cases hhex : isHex (s ++ x) with
  | true =>
      obtain ⟨c, cs, hcs⟩ : ∃ c cs, s ++ x = '0' :: c :: cs := by
        unfold isHex at hhex
        split at hhex
        · rename_i c cs heq
          exact ⟨c, cs, heq⟩
        · cases hhex
      rw [hcs] at h hhex
      rw [read_of_isHex hhex] at h
      subst h
      rw [List.cons_append, List.cons_append] at hcs ⊢
      rw [read_of_isHex (by simpa [isHex] using hhex)]
      injection hcs with _ hcs
      injection hcs with _ hcs
      rw [steady_takeWhile (by decide) hxy (congrArg _ hcs)]
  | false =>
      -- a front of a hexadecimal number has no semicolon, so it would have
      -- been there before the change
      have hother : isHex (s ++ y) = false := by
        by_contra hother
        rw [Bool.not_eq_false] at hother
        unfold isHex at hother
        split at hother
        · rename_i c cs heq
          have hall := hxy.append s
          rw [heq] at hall
          obtain ⟨cs', hcs', -⟩ := hall.of_append (t := ['0', c]) (by
            simp only [Bool.or_eq_true, beq_iff_eq] at hother
            rcases hother with rfl | rfl <;> decide)
          rw [hcs'] at hhex
          exact absurd (hhex.symm.trans hother) (by decide)
        · cases hother
      rw [read_of_not_isHex hhex] at h
      rw [read_of_not_isHex hother, steady_decimal hxy h]

/-- Where a number starts in the changed text, one starts in the text. -/
theorem startsAt_of_departs {x y : List Char} (hxy : Departs x y)
    (h : startsAt y = true) : startsAt x = true := by
  unfold startsAt at h
  split at h
  · rename_i d ds
    obtain ⟨x', rfl, -⟩ := hxy.of_append (t := ['.', d]) (by
      have : d ≠ ';' := by rintro rfl; cases h
      simpa using this.symm)
    exact h
  · rename_i d ds _
    obtain ⟨x', rfl, -⟩ := hxy.of_append (t := [d]) (by
      have : d ≠ ';' := by rintro rfl; cases h
      simpa using this.symm)
    have hd : d ≠ '.' := by rintro rfl; cases h
    unfold startsAt
    split
    · rename_i heq
      exact absurd (List.cons.inj heq).1 hd
    · rename_i heq
      rw [← (List.cons.inj heq).1]
      exact h
    · rename_i heq
      cases heq
  · cases h

/-- Where a number starts that is read up to `s`, one starts in `s`. -/
theorem startsAt_of_read {s x : List Char} (h : startsAt (s ++ x) = true)
    (hread : read (s ++ x) = s) : startsAt s = true := by
  rcases s with _ | ⟨c, _ | ⟨d, s⟩⟩
  · exact absurd hread (read_ne_nil h)
  · by_cases hc : c = '.'
    · -- a point alone is no number
      subst hc
      rcases x with _ | ⟨d, x⟩
      · cases h
      · have hd : isDigit d = true := h
        rw [List.cons_append, List.nil_append, read_of_not_isHex (by rfl)]
          at hread
        have hlength := congrArg List.length hread
        simp [decimal, fraction, hd, show isDigit '.' = false by decide]
          at hlength
    · simpa [startsAt, hc] using h
  · by_cases hc : c = '.'
    · subst hc
      exact h
    · simpa [startsAt, hc] using h

end NumberLiteral

-- ============================================================== strings

namespace StringLiteral

/-- What cannot stand within the digits of an escape. -/
def Breaks (q : Char) : Prop := hexValue? q = none ∧ q ≠ '+'

/-- One item without a result is enough. -/
theorem mapM_eq_none {α β : Type} {f : α → Option β} {xs : List α}
    {a : α} (ha : a ∈ xs) (hf : f a = none) : xs.mapM f = none := by
  induction xs with
  | nil => cases ha
  | cons b xs ih =>
      rw [List.mapM_cons]
      rcases List.mem_cons.1 ha with rfl | hmem
      · rw [hf]
        rfl
      · rw [ih hmem]
        cases f b <;> rfl

/-- The digits of an escape are not looked for behind a character that is
none. -/
theorem hexChar?_congr {q : Char} (hq : Breaks q) (count : Nat)
    (s t t' : List Char) :
    hexChar? count (s ++ q :: t) = hexChar? count (s ++ q :: t') := by
  rcases Nat.lt_or_ge s.length count with hlt | hle
  · have hnone (t : List Char) : hexChar? count (s ++ q :: t) = none := by
      have hmem : q ∈ (s ++ q :: t).take count := by
        obtain ⟨k, rfl⟩ := Nat.exists_eq_add_of_lt hlt
        rw [Nat.add_assoc, List.take_append]
        simp
      have hdigits {ds : List Char} (hds : q ∈ ds) :
          ds.mapM hexValue? = none := mapM_eq_none hds hq.1
      unfold hexChar?
      dsimp only
      split
      · rename_i ds hplus
        rw [hplus] at hmem
        rw [hdigits ((List.mem_cons.1 hmem).resolve_left hq.2)]
        exact Option.bind_fun_none _
      · rw [hdigits hmem]
        exact Option.bind_fun_none _
    rw [hnone, hnone]
  · have htake (t : List Char) :
        (s ++ q :: t).take count = s.take count :=
      List.take_append_of_le_length hle
    unfold hexChar?
    rw [htake, htake]

/-- Of what stands behind its first character, an escape looks at the next
one and at digits. -/
theorem escape_of_head {c : Char} {cs cs' : List Char}
    (hhead : cs.head? = cs'.head?) (htwo : hexChar? 2 cs = hexChar? 2 cs')
    (hfour : hexChar? 4 cs = hexChar? 4 cs') :
    escape (c :: cs) = escape (c :: cs') := by
  rcases cs with _ | ⟨d, ds⟩ <;> rcases cs' with _ | ⟨d', ds'⟩
  · rfl
  · cases hhead
  · cases hhead
  · cases hhead
    by_cases hpair : c = '\r' ∧ d = '\n'
    · obtain ⟨rfl, rfl⟩ := hpair
      rfl
    · have hother : ∀ tail, c = '\r' → d :: ds = '\n' :: tail → False :=
        fun _ hc hd => hpair ⟨hc, (List.cons.inj hd).1⟩
      have hother' : ∀ tail, c = '\r' → d :: ds' = '\n' :: tail → False :=
        fun _ hc hd => hpair ⟨hc, (List.cons.inj hd).1⟩
      unfold escape
      split
      · cases ‹c :: d :: ds = []›
      · rename_i heq
        cases heq
        exact absurd ⟨rfl, rfl⟩ hpair
      · rename_i heq
        cases heq
        simp only [htwo, hfour]
        split <;> rfl

/-- An escape takes one character at least where there is one, and no more
than there are. -/
theorem escape_count (cs : List Char) :
    (escape cs).2 ≤ cs.length ∧ (cs ≠ [] → (escape cs).2 ≠ 0) := by
  have hhex {count : Nat} {cs : List Char} {d : Char}
      (h : hexChar? count cs = some d) : count ≤ cs.length := by
    by_contra hlt
    have hlength : (cs.take count).length ≠ count := by
      rw [List.length_take]
      omega
    delta hexChar? guard at h
    dsimp only at h
    rw [if_neg hlength] at h
    cases h
  unfold escape
  split
  · simp
  · simp
  · rename_i c cs _
    split <;> (try split) <;> simp
    · exact hhex ‹_›
    · exact hhex ‹_›

/-- A part of a string is read whatever stands behind a character that ends
the digits of an escape. -/
theorem part?_congr {quote q : Char} (hq : Breaks q) {part : Part}
    {s t t' : List Char}
    (h : part? quote (part.raw ++ (s ++ q :: t)) = some (part, s ++ q :: t)) :
    part? quote (part.raw ++ (s ++ q :: t'))
      = some (part, s ++ q :: t') := by
  obtain ⟨raw, value⟩ := part
  rcases raw with _ | ⟨c, raw⟩
  · exact absurd rfl (part?_eq_some h).2
  dsimp only at h ⊢
  rw [List.cons_append] at h ⊢
  unfold part? at h ⊢
  dsimp only at h ⊢
  split at h
  · cases h
  · rename_i hstop
    rw [if_neg hstop]
    split at h
    · rename_i hescape
      rw [if_pos hescape]
      simp only [Option.some.injEq, Prod.mk.injEq, Part.mk.injEq,
        List.cons.injEq, true_and] at h ⊢
      obtain ⟨⟨hraw, hvalue⟩, -⟩ := h
      obtain ⟨hle, hpos⟩ := escape_count (raw ++ (s ++ q :: t))
      have hcount := congrArg List.length hraw
      rw [List.length_take, Nat.min_eq_left hle] at hcount
      rcases raw with _ | ⟨d, raw⟩
      · exact absurd hcount (hpos (by simp))
      have hsame : escape (d :: (raw ++ s ++ q :: t'))
          = escape (d :: (raw ++ s ++ q :: t)) :=
        escape_of_head (by cases raw ++ s <;> rfl)
          (hexChar?_congr hq 2 ..) (hexChar?_congr hq 4 ..)
      simp only [List.cons_append, ← List.append_assoc] at hcount hvalue ⊢
      rw [hsame, hcount, hvalue]
      simp
    · rename_i hescape
      rw [if_neg hescape]
      simp only [Option.some.injEq, Prod.mk.injEq, Part.mk.injEq,
        List.cons.injEq, true_and] at h ⊢
      obtain ⟨⟨rfl, rfl⟩, -⟩ := h
      simp

/-- The parts end where no further one is. -/
theorem part?_parts (quote : Char) (cs : List Char) :
    part? quote (parts quote cs).2 = none := by
  fun_induction parts quote cs with
  | case1 cs h => exact h
  | case2 cs part rest h more rest' hs ih => rwa [hs] at ih

/-- What ends the parts is the quote or the end of a line. -/
theorem ends_of_parts {quote q : Char} {ps : List Part} {cs t : List Char}
    (h : parts quote cs = (ps, q :: t)) :
    q = quote ∨ isLineBreak q = true := by
  have hend := part?_parts quote cs
  rw [h] at hend
  unfold part? at hend
  dsimp only at hend
  split at hend
  · rename_i hstop
    simpa using hstop
  · split at hend <;> cases hend

/-- Neither quotes nor the ends of lines are digits. -/
theorem breaks_of_ends {quote q : Char} (hquote : quote = '"' ∨ quote = '\'')
    (hend : q = quote ∨ isLineBreak q = true) : Breaks q := by
  rcases hend with rfl | hbreak
  · rcases hquote with rfl | rfl <;> exact ⟨by decide, by decide⟩
  · simp only [isLineBreak, Bool.or_eq_true, beq_iff_eq] at hbreak
    rcases hbreak with ((rfl | rfl) | rfl) | rfl <;>
      exact ⟨by decide, by decide⟩

/-- The parts of a string are read whatever stands behind the character
that ends it. -/
theorem parts_congr {quote q : Char} (hquote : quote = '"' ∨ quote = '\'')
    {ps : List Part} {t t' : List Char}
    (h : parts quote (rawOf ps ++ q :: t) = (ps, q :: t)) :
    parts quote (rawOf ps ++ q :: t') = (ps, q :: t') := by
  have hend := ends_of_parts h
  have hq := breaks_of_ends hquote hend
  induction ps with
  | nil =>
      refine Word.parts_of_part?_eq_none ?_
      rcases hend with rfl | hbreak <;> simp [rawOf, part?, *]
  | cons part ps ih =>
      simp only [rawOf, List.flatMap_cons, List.append_assoc] at h ih ⊢
      cases hpart : part? quote (part.raw ++ (ps.flatMap Part.raw ++ q :: t))
        with
      | none =>
          rw [Word.parts_of_part?_eq_none hpart] at h
          cases h
      | some found =>
          obtain ⟨first, rest⟩ := found
          rw [Word.parts_of_part?_eq_some hpart] at h
          simp only [Prod.mk.injEq, List.cons.injEq] at h
          obtain ⟨⟨rfl, hmore⟩, hrest⟩ := h
          have hcut := (part?_eq_some hpart).1
          have hsame : rest = ps.flatMap Part.raw ++ q :: t :=
            List.append_cancel_left hcut
          subst hsame
          rw [Word.parts_of_part?_eq_some (part?_congr hq hpart),
            ih (Prod.ext hmore hrest)]

end StringLiteral

-- ========================================================= punctuators

namespace Punctuator

/-- A punctuator that the changed text begins with, the text begins with,
as long as the change lies further on. -/
theorem front_of_departs {x y : List Char} (hxy : Departs x y) {c : Char}
    {p : Punctuator} (h : p.text.toList <+: c :: y) :
    p.text.toList <+: c :: x := by
  have hall : ∀ p ∈ all, ';' ∉ p.text.toList.tail := by decide +kernel
  have hplain := hall p (Word.mem_punctuators p)
  obtain ⟨t, ht⟩ := h
  generalize p.text.toList = front at hplain ht
  cases front with
  | nil => exact List.nil_prefix
  | cons d front =>
      injection ht with hd hfront
      subst hd hfront
      obtain ⟨x', rfl, -⟩ := hxy.of_append hplain
      exact ⟨x', rfl⟩

/-- The longest punctuator is the same in the changed text, as long as the
change lies behind it. -/
theorem longest?_congr {x y : List Char} (hxy : Departs x y) {c : Char}
    (hfront : ∀ p ∈ longest? (c :: x), p.text.toList <+: c :: y) :
    longest? (c :: y) = longest? (c :: x) := by
  have hback {p : Punctuator}
      (h : p.text.toList.isPrefixOf (c :: y) = true) :
      p.text.toList.isPrefixOf (c :: x) = true :=
    List.isPrefixOf_iff_prefix.2
      (front_of_departs hxy (List.isPrefixOf_iff_prefix.1 h))
  unfold longest? at hfront ⊢
  cases hfound : all.find? fun p => p.text.toList.isPrefixOf (c :: x) with
  | none =>
      rw [List.find?_eq_none] at hfound ⊢
      exact fun p hp h => hfound p hp (hback h)
  | some p =>
      have hp := List.isPrefixOf_iff_prefix.2 (hfront p hfound)
      obtain ⟨-, before, behind, hall, hbefore⟩ :=
        List.find?_eq_some_iff_append.1 hfound
      refine List.find?_eq_some_iff_append.2
        ⟨hp, before, behind, hall, fun q hq => ?_⟩
      have hmissed := hbefore q hq
      simp only [Bool.not_eq_true', Bool.eq_false_iff] at hmissed ⊢
      exact fun h => hmissed (hback h)

/-- A slash is one of two operators. -/
theorem longest?_slash (cs : List Char) :
    longest? ('/' :: cs)
      = some (if cs.head? = some '=' then slashEquals else slash) := by
  cases cs with
  | nil => rfl
  | cons c cs =>
      by_cases hc : c = '='
      · subst hc
        simp [longest?, all, text, List.find?, List.isPrefixOf]
      · have hc' : ('=' == c) = false := by simpa using Ne.symm hc
        simp [longest?, all, text, List.find?, List.isPrefixOf, hc, hc']

/-- No operator begins with a semicolon but the semicolon. -/
theorem longest?_semicolon (cs : List Char) :
    longest? (';' :: cs) = some semicolon := by
  simp [longest?, all, text, List.find?, List.isPrefixOf]

end Punctuator

-- ============================================================ readings

namespace Token.Reading

/-- A string that is closed is read whatever stands behind it, and an open one
ends where a line does. -/
theorem string_congr {quote : Char} (hquote : quote = '"' ∨ quote = '\'')
    {s x y : List Char} (hraw : (string quote (s ++ x)).raw = quote :: s)
    (hopen : (string quote (s ++ x)).isOpen = true → x.head? = y.head?) :
    string quote (s ++ y) = string quote (s ++ x) := by
  have hcut := StringLiteral.rawOf_append_parts quote (s ++ x)
  unfold string at hraw hopen ⊢
  generalize hparts : StringLiteral.parts quote (s ++ x) = found
    at hraw hopen hcut ⊢
  obtain ⟨ps, rest⟩ := found
  dsimp only at hraw hopen hcut ⊢
  -- what stops an open string is a line end or the end, so the next character
  -- must be the same
  by_cases hclosed : rest.head? = some quote
  · obtain ⟨r, rfl⟩ := List.head?_eq_some_iff.1 hclosed
    simp only [List.head?_cons, beq_self_eq_true, if_true, List.cons_append,
      List.cons.injEq, true_and] at hraw
    subst hraw
    have hrest : r = x := by simpa using hcut
    subst hrest
    rw [List.append_assoc] at hparts ⊢
    rw [List.singleton_append, StringLiteral.parts_congr hquote hparts]
    simp
  · have hclosed : (rest.head? == some quote) = false := by
      simpa using hclosed
    simp only [hclosed, Bool.false_eq_true, if_false, List.append_nil,
      List.cons.injEq, true_and, Bool.not_false, forall_const] at hraw hopen
    subst hraw
    have hrest : rest = x := List.append_cancel_left hcut
    subst hrest
    cases rest with
    | nil =>
        have hy : y = [] := List.head?_eq_none_iff.1 hopen.symm
        subst hy
        rw [hparts]
    | cons q r =>
        obtain ⟨r', rfl⟩ := List.head?_eq_some_iff.1 hopen.symm
        rw [StringLiteral.parts_congr hquote hparts]
        simp

/-- A token is read as it is in the changed text, as long as the change
lies behind it. A string that is not closed must be followed by what
follows it in the text. -/
theorem of_departs {s x y : List Char} (hxy : Departs x y) (hs : s ≠ [])
    (hraw : (of (s ++ x)).raw = s)
    (hopen : (of (s ++ x)).isOpen = true → x.head? = y.head?) :
    of (s ++ y) = of (s ++ x) := by
  obtain ⟨c, s, rfl⟩ := List.exists_cons_of_ne_nil hs
  have hall := hxy.append (c :: s)
  rw [List.cons_append, List.cons_append] at hall
  rw [List.cons_append, of] at hraw hopen ⊢
  rw [List.cons_append, of]
  -- the readers are tried in turn, and by their first character the same one
  -- is found
  by_cases hquote : (c == '"' || c == '\'') = true
  · rw [if_pos hquote] at hraw hopen ⊢
    rw [if_pos hquote]
    exact string_congr (by simpa using hquote) hraw hopen
  rw [if_neg hquote] at hraw ⊢
  rw [if_neg hquote]
  by_cases hnumber : NumberLiteral.startsAt (c :: (s ++ x)) = true
  · rw [if_pos hnumber] at hraw ⊢
    have hstarts := NumberLiteral.startsAt_of_read (s := c :: s) hnumber hraw
    have hstarts' := Word.startsAt_append hstarts y
    rw [List.cons_append] at hstarts'
    rw [if_pos hstarts']
    have hread := NumberLiteral.steady_read hxy (s := c :: s) hraw
    have hread' : NumberLiteral.read (c :: (s ++ x)) = c :: s := hraw
    rw [List.cons_append] at hread
    simp only [number, hread, hread']
  have hnumber' : ¬ NumberLiteral.startsAt (c :: (s ++ y)) = true :=
    fun h => hnumber (NumberLiteral.startsAt_of_departs hall h)
  rw [if_neg hnumber] at hraw ⊢
  rw [if_neg hnumber']
  by_cases hword : isIdentifierStart c = true
  · rw [if_pos hword] at hraw ⊢
    rw [if_pos hword]
    have hread := steady_takeWhile (p := isIdentifierPart) (by decide) hxy
      (s := c :: s) hraw
    have hread' : (c :: (s ++ x)).takeWhile isIdentifierPart = c :: s := hraw
    rw [List.cons_append] at hread
    simp only [word, hread, hread']
  rw [if_neg hword] at hraw ⊢
  rw [if_neg hword]
  have hmark := Punctuator.longest?_congr (hxy.append s) (c := c) ?_
  · rw [mark, mark, hmark]
  · intro p hp
    rw [mark, hp] at hraw
    exact ⟨y, congrArg (· ++ y) hraw⟩

end Token.Reading

-- ================================================= regular expressions

namespace RegexLiteral

/-- The body of a closed regular expression is read whatever stands behind
it. -/
theorem body_congr {inClass : Bool} {s x : List Char}
    (h : body inClass (s ++ x) = (s, true)) (y : List Char) :
    body inClass (s ++ y) = (s, true) := by
  generalize hcs : s ++ x = cs at h
  fun_induction body inClass cs generalizing s with
  | case1 => cases h
  | case2 => cases h
  | case3 inClass c cs hbreak raw closed hrun ih =>
      simp only [Prod.mk.injEq] at h
      obtain ⟨rfl, rfl⟩ := h
      simp only [List.cons_append, List.cons.injEq, true_and] at hcs
      simp only [List.cons_append, body, hbreak, ih hcs hrun]
      rfl
  | case4 => cases h
  | case5 inClass c cs hescape hbreak hclose =>
      simp only [Prod.mk.injEq, and_true] at h
      subst h
      have hc : c ≠ '\\' := by
        rintro rfl
        exact absurd hclose (by simp)
      rw [List.singleton_append, body.eq_3 _ _ _ fun _ _ h => absurd h hc,
        if_neg hbreak, if_pos hclose]
  | case6 inClass c cs hescape hbreak hclose inClass' raw closed hrun =>
      rename_i ih
      simp only [Prod.mk.injEq] at h
      obtain ⟨rfl, rfl⟩ := h
      simp only [List.cons_append, List.cons.injEq, true_and] at hcs
      have hc : c ≠ '\\' := by
        rintro rfl
        cases cs with
        | nil => cases hrun
        | cons d ds => exact hescape d ds rfl rfl
      rw [List.cons_append, body.eq_3 _ _ _ fun _ _ h => absurd h hc,
        if_neg hbreak, if_neg hclose]
      dsimp only
      rw [ih hcs hrun]

/-- A closed regular expression is read whatever stands behind its flags. -/
theorem read_congr {s x y : List Char} (hxy : Departs x y)
    (h : read (s ++ x) = ('/' :: s, true)) :
    read (s ++ y) = ('/' :: s, true) := by
  unfold read at h ⊢
  generalize hbody : body false (s ++ x) = found at h
  obtain ⟨raw, closed⟩ := found
  simp only [Prod.mk.injEq, List.cons_append, List.cons.injEq, true_and]
    at h
  obtain ⟨hs, rfl⟩ := h
  obtain ⟨flags, rfl⟩ : ∃ flags, s = raw ++ flags := ⟨_, hs.symm⟩
  rw [List.append_assoc] at hbody
  rw [List.append_assoc, List.drop_left, List.append_cancel_left_eq] at hs
  have hflags := steady_takeWhile (by decide) hxy hs
  rw [List.append_assoc, body_congr hbody (flags ++ y)]
  dsimp only
  rw [List.drop_left, hflags, List.cons_append]

/-- The literal begins with what stands behind the slash. -/
theorem exists_read (cs : List Char) : ∃ s closed,
    read cs = ('/' :: s, closed)
      ∧ (s.head? = some '=' ↔ cs.head? = some '=') := by
  refine ⟨_, _, rfl, ?_⟩
  rcases cs with _ | ⟨c, cs⟩
  · rfl
  · by_cases hbreak : isLineBreak c = true
    · have hescape : ∀ d ds, c = '\\' → cs = d :: ds → False := by
        rintro d ds rfl
        cases hbreak
      have hpart := isIdentifierPart_of_isLineBreak hbreak
      have hne : c ≠ '=' := by
        rintro rfl
        cases hbreak
      simp [body.eq_3 _ _ _ hescape, hbreak, hpart, hne]
    · have hhead : ∃ more, (body false (c :: cs)).1 = c :: more := by
        unfold body
        split
        · cases ‹c :: cs = []›
        · rename_i heq
          cases heq
          split <;> exact ⟨_, rfl⟩
        · rename_i heq
          cases heq
          rw [if_neg hbreak]
          split <;> exact ⟨_, rfl⟩
      obtain ⟨more, hmore⟩ := hhead
      rw [hmore]
      rfl

end RegexLiteral

-- ============================================================== trivia

namespace Trivia

/-- A run of characters ends at the same character, whatever stands behind
that. -/
theorem takeWhile_congr {p : Char → Bool} {s x : List Char} {c : Char}
    (h : (s ++ c :: x).takeWhile p = s) (y : List Char) :
    (s ++ c :: y).takeWhile p = s ∧ (s ++ c :: y).dropWhile p = c :: y := by
  obtain ⟨hs, hc⟩ := takeWhile_append_eq_self.1 h
  exact takeWhile_dropWhile_iff.2 ⟨rfl, hs, hc⟩

/-- A comment that is closed is the same whatever follows it. -/
theorem blockBody?_congr {body x : List Char}
    (h : Comment.blockBody? (body ++ '*' :: '/' :: x) = some (body, x))
    (y : List Char) :
    Comment.blockBody? (body ++ '*' :: '/' :: y) = some (body, y) := by
  generalize hcs : body ++ '*' :: '/' :: x = cs at h
  fun_induction Comment.blockBody? cs generalizing body with
  | case1 => cases h
  | case2 cs =>
      simp only [Option.some.injEq, Prod.mk.injEq] at h
      rw [← h.1]
      rfl
  | case3 c cs hopen ih =>
      obtain ⟨⟨body', x'⟩, hbody, heq⟩ := Option.map_eq_some_iff.1 h
      simp only [Prod.mk.injEq] at heq
      obtain ⟨rfl, rfl⟩ := heq
      simp only [List.cons_append, List.cons.injEq, true_and] at hcs
      have hclose : ∀ ds, c = '*' →
          body' ++ '*' :: '/' :: y = '/' :: ds → False := by
        rintro ds rfl hds
        cases body' with
        | nil => cases hds
        | cons d body' =>
            injection hds with hd
            subst hd
            exact hopen _ rfl hcs.symm
      rw [List.cons_append, Comment.blockBody?.eq_3 _ _ hclose,
        ih hcs hbody]
      rfl

/-- Trivia that is no comment is a line break or blanks. -/
theorem first?_of_ne_slash {c : Char} (hc : c ≠ '/') (cs : List Char) :
    first? (c :: cs) = if isLineBreak c then some (.lineBreak c, cs)
      else if isBlank c then
        some (.blanks (c :: cs.takeWhile isBlank), cs.dropWhile isBlank)
      else none := by
  unfold first?
  split
  · cases ‹c :: cs = []›
  · rename_i heq
    exact absurd (List.cons.inj heq).1 hc
  · rename_i heq
    exact absurd (List.cons.inj heq).1 hc
  · rename_i heq
    cases heq
    rfl

/-- An item of trivia is cut off whatever stands behind the character
behind it. -/
theorem first?_congr {item : Trivia} {c : Char} {x : List Char}
    (h : first? (item.chars ++ c :: x) = some (item, c :: x))
    (y : List Char) :
    first? (item.chars ++ c :: y) = some (item, c :: y) := by
  generalize hcs : item.chars ++ c :: x = cs at h
  -- a line comment, a comment that is closed, a line break or blanks
  unfold first? at h
  split at h
  · cases h
  · rename_i cs
    simp only [Option.some.injEq, Prod.mk.injEq] at h
    obtain ⟨rfl, -⟩ := h
    simp only [chars, List.cons_append, List.cons.injEq, true_and]
      at hcs ⊢
    have hrun := takeWhile_congr (congrArg Comment.lineBody hcs) y
    exact congrArg some
      (Prod.ext (congrArg lineComment hrun.1) hrun.2)
  · rename_i cs
    split at h
    · rename_i body rest hbody
      simp only [Option.some.injEq, Prod.mk.injEq] at h
      obtain ⟨rfl, rfl⟩ := h
      simp only [chars, List.cons_append, List.append_assoc, List.nil_append,
        List.cons.injEq, true_and] at hcs ⊢
      rw [← hcs] at hbody
      simp only [first?, blockBody?_congr hbody (c :: y)]
    · cases h
  · rename_i d cs _ _
    split at h
    · rename_i hbreak
      simp only [Option.some.injEq, Prod.mk.injEq] at h
      obtain ⟨rfl, rfl⟩ := h
      have hd : d ≠ '/' := by rintro rfl; exact absurd hbreak (by decide)
      rw [chars, List.singleton_append, first?_of_ne_slash hd, if_pos hbreak]
    · rename_i hbreak
      split at h
      · rename_i hblank
        simp only [Option.some.injEq, Prod.mk.injEq] at h
        obtain ⟨rfl, -⟩ := h
        have hd : d ≠ '/' := by rintro rfl; exact absurd hblank (by decide)
        simp only [chars, List.cons_append, List.cons.injEq, true_and]
          at hcs ⊢
        have hrun := takeWhile_congr
          (congrArg (List.takeWhile isBlank) hcs) y
        rw [first?_of_ne_slash hd, if_neg hbreak, if_pos hblank, hrun.1,
          hrun.2]
      · cases h

/-- Where no trivia begins, none does in the text changed further on. -/
theorem first?_eq_none_of_departs {c : Char} {x y : List Char}
    (hxy : Departs x y) (h : first? (c :: x) = none) :
    first? (c :: y) = none := by
  have hplain : isBlank c = false ∧ isLineBreak c = false := by
    by_cases hc : c = '/'
    · subst hc
      decide
    · rw [first?_of_ne_slash hc] at h
      split at h
      · cases h
      · split at h
        · cases h
        · exact ⟨by simpa using ‹¬isBlank c = true›,
            by simpa using ‹¬isLineBreak c = true›⟩
  refine first?_eq_none hplain.1 hplain.2 fun hc d hd => ?_
  subst hc
  rcases hxy.head d hd with rfl | hmem
  · decide
  · obtain ⟨x, rfl⟩ := List.head?_eq_some_iff.1 hmem
    constructor <;> rintro rfl <;> simp only [first?] at h
    · cases h
    · split at h <;> cases h

/-- The trivia in front of a token is cut off in the changed text, as long
as the change lies behind the token. -/
theorem split_departs {items : List Trivia} {s x y : List Char}
    (hxy : Departs x y) (hs : s ≠ [])
    (h : split (charsOf items ++ (s ++ x)) = (items, s ++ x)) :
    split (charsOf items ++ (s ++ y)) = (items, s ++ y) := by
  obtain ⟨c, s, rfl⟩ := List.exists_cons_of_ne_nil hs
  induction items with
  | nil =>
      rw [charsOf, List.flatMap_nil, List.nil_append] at h ⊢
      rw [split] at h
      split at h
      · rename_i hnone
        exact split_of_first?_eq_none
          (first?_eq_none_of_departs (hxy.append s) hnone)
      · cases h
  | cons item items ih =>
      rw [split] at h
      split at h
      · cases h
      · rename_i item' rest hfirst
        obtain ⟨rfl, hitems, hrest⟩ : item' = item
            ∧ (split rest).1 = items ∧ (split rest).2 = c :: s ++ x := by
          simpa [and_assoc] using h
        have hsplit : split rest = (items, c :: s ++ x) :=
          Prod.ext hitems hrest
        have hcut := (charsOf_append_split rest).symm
        rw [hsplit] at hcut
        dsimp only at hcut
        subst hcut
        have hall := ih hsplit
        -- behind the first item stands a character that is known, and that is
        -- all the item depends on
        obtain ⟨d, ds, hds⟩ : ∃ d ds,
            charsOf items ++ (c :: s) = d :: ds := by
          cases h : charsOf items ++ (c :: s) <;> simp_all
        have hx (x : List Char) :
            charsOf items ++ (c :: s ++ x) = d :: (ds ++ x) := by
          rw [← List.append_assoc, hds, List.cons_append]
        have hchars (x : List Char) :
            charsOf (item' :: items) ++ (c :: s ++ x)
              = item'.chars ++ d :: (ds ++ x) := by
          rw [charsOf, List.flatMap_cons, List.append_assoc, ← charsOf, hx]
        rw [hchars, hx] at hfirst
        have hfirst' := first?_congr hfirst (ds ++ y)
        rw [hchars, split]
        split
        · rename_i hnone
          rw [hfirst'] at hnone
          cases hnone
        · rename_i item'' rest'' hsome
          rw [hfirst', Option.some_inj, Prod.mk.injEq] at hsome
          obtain ⟨rfl, rfl⟩ := hsome
          rw [← hx, hall]

/-- An open comment has nothing behind it. -/
theorem openComment?_of_proper {items : List Trivia} {cs : List Char}
    (h : Proper items cs) (hcs : cs ≠ []) (offset : Nat) :
    openComment? offset items = none := by
  induction items generalizing offset with
  | nil => rfl
  | cons item items ih =>
      have hclosed : item.isOpenComment = false := by
        rcases item with _ | _ | _ | ⟨body, _ | _⟩
        · rfl
        · rfl
        · rfl
        · exact absurd (List.append_eq_nil_iff.1 h.1.2).2 hcs
        · rfl
      rw [openComment?, hclosed]
      exact ih h.2 _

/-- Whether a comment is left open does not depend on where it begins. -/
theorem isSome_openComment? (offset offset' : Nat) (items : List Trivia) :
    (openComment? offset items).isSome
      = (openComment? offset' items).isSome := by
  induction items generalizing offset offset' with
  | nil => rfl
  | cons item items ih =>
      rw [openComment?, openComment?]
      split
      · rfl
      · exact ih _ _

end Trivia

-- ============================================================= lexemes

/-- The token that a reading makes behind items of trivia that begin at
byte `offset`. -/
def Token.behind (offset : Nat) (items : List Trivia)
    (reading : Token.Reading) : Token :=
  let start := offset + byteLength (Trivia.charsOf items)
  { kind := reading.kind
    value := String.ofList reading.value
    fullStart := offset
    start
    stop := start + byteLength reading.raw
    afterBreak := Trivia.breakLine items
    doc := (Trivia.lastDoc? items).map String.ofList
    isOpen := reading.isOpen || (Trivia.openComment? offset items).isSome
    openComment := Trivia.openComment? offset items }

/-- A text opens with items of trivia and a token, and goes on with the
rest. -/
structure OpensWith (cs : List Char) (items : List Trivia)
    (reading : Token.Reading) (rest : List Char) : Prop where
  split_eq : Trivia.split cs = (items, reading.raw ++ rest)
  reading_eq : Token.Reading.of (reading.raw ++ rest) = reading

/-- Every text begins with trivia and a reading, if only that of the end. -/
theorem exists_opensWith (cs : List Char) :
    ∃ items reading rest, OpensWith cs items reading rest := by
  have hfront := Token.Reading.of_frontOf (Trivia.split cs).2
  obtain ⟨rest, hrest⟩ := hfront.raw_front
  refine ⟨(Trivia.split cs).1, Token.Reading.of (Trivia.split cs).2, rest,
    ?_, ?_⟩
  · rw [hrest]
  · rw [hrest]

namespace OpensWith

variable {cs : List Char} {items : List Trivia} {reading : Token.Reading}
  {rest : List Char}

/-- It is made of what they are written as, and of the rest. -/
theorem text_eq (h : OpensWith cs items reading rest) :
    cs = Trivia.charsOf items ++ (reading.raw ++ rest) := by
  rw [← Trivia.charsOf_append_split cs, h.split_eq]

/-- What a text that changes behind its first token opens with. -/
theorem departs (h : OpensWith cs items reading rest) {y : List Char}
    (hxy : Departs rest y) (hraw : reading.raw ≠ [])
    (hopen : reading.isOpen = true → rest.head? = y.head?) :
    OpensWith (Trivia.charsOf items ++ (reading.raw ++ y)) items reading
      y where
  split_eq := by
    have hsplit := h.split_eq
    rw [h.text_eq] at hsplit
    exact Trivia.split_departs hxy hraw hsplit
  reading_eq := by
    have hof := h.reading_eq
    rw [Token.Reading.of_departs hxy hraw (by rw [hof]) (by rwa [hof]), hof]

/-- The lexeme at the front. -/
theorem read {text : Stretch} (h : OpensWith text.chars items reading rest)
    (offset : Nat) :
    (Lexeme.read offset text).token = .behind offset items reading
      ∧ (Lexeme.read offset text).ahead.chars = reading.raw ++ rest
      ∧ (Lexeme.read offset text).rest.chars = rest := by
  simp only [Lexeme.read, Trivia.cut, h.split_eq, h.reading_eq]
  exact ⟨rfl, trivial, List.drop_left⟩

/-- A token is something, but for the end of the text. -/
theorem kind_eq_iff (h : OpensWith cs items reading rest) :
    reading.kind = .endOfText ↔ reading.raw = [] := by
  have hfront := Token.Reading.of_frontOf (reading.raw ++ rest)
  rw [h.reading_eq] at hfront
  rw [hfront.kind_eq_iff]
  constructor
  · exact fun hnil => (List.append_eq_nil_iff.1 hnil).1
  · intro hraw
    by_contra hne
    exact hfront.raw_ne_nil hne hraw

/-- In front of a token no comment is left open. -/
theorem openComment?_eq_none (h : OpensWith cs items reading rest)
    (hraw : reading.raw ≠ []) (offset : Nat) :
    Trivia.openComment? offset items = none := by
  have hproper := Trivia.proper_split cs
  rw [h.split_eq] at hproper
  refine Trivia.openComment?_of_proper hproper ?_ offset
  simp [hraw]

end OpensWith

/-- A semicolon is a token, whatever stands behind it. -/
theorem opensWith_semicolon (rest : List Char) :
    OpensWith (';' :: rest) []
      { kind := Punctuator.semicolon, value := [], raw := [';'] } rest where
  split_eq := Trivia.split_of_first?_eq_none rfl
  reading_eq := by
    rw [List.singleton_append,
      show Token.Reading.of (';' :: rest) = .mark ';' rest from rfl,
      Token.Reading.mark, Punctuator.longest?_semicolon]
    rfl

/-- The token of a slash read again as a regular expression. -/
def Token.regex (raw : List Char) (closed : Bool) (token : Token) : Token :=
  { token with
    kind := .regex
    value := String.ofList raw
    stop := token.start + byteLength raw
    isOpen := token.isOpen || !closed }

/-- The marks that may be the beginning of a regular expression. -/
def TokenKind.IsSlash (kind : TokenKind) : Prop :=
  kind = Punctuator.slash ∨ kind = Punctuator.slashEquals

/-- A slash is read again from behind it. -/
theorem Lexeme.asRegex_of_isSlash {lexeme : Lexeme}
    (hkind : lexeme.token.kind.IsSlash) {raw : List Char} {closed : Bool}
    (hread : RegexLiteral.read (lexeme.ahead.chars.drop 1) = (raw, closed)) :
    lexeme.asRegex = { lexeme with
      token := lexeme.token.regex raw closed
      rest := lexeme.ahead.drop raw.length } := by
  unfold asRegex
  rcases hkind with hkind | hkind <;> rw [hkind] <;> simp only [hread] <;> rfl

/-- Other tokens are not read again. -/
theorem Lexeme.asRegex_of_not_isSlash {lexeme : Lexeme}
    (hkind : ¬ lexeme.token.kind.IsSlash) : lexeme.asRegex = lexeme := by
  rcases lexeme.asRegex_eq_or with hsame | ⟨hslash, -⟩
  · exact hsame
  · exact absurd hslash hkind

/-- The slash at the front of a text with `cs` behind it. -/
def Punctuator.slashOf (cs : List Char) : Punctuator :=
  if cs.head? = some '=' then .slashEquals else .slash

/-- Which of the slashes it is shows in the character behind it. -/
theorem OpensWith.reading_of_isSlash {cs : List Char}
    {items : List Trivia} {reading : Token.Reading} {rest : List Char}
    (h : OpensWith cs items reading rest) (hkind : reading.kind.IsSlash) :
    ∃ more, reading.raw ++ rest = '/' :: more
      ∧ reading = { kind := .punctuator (.slashOf more), value := []
                    raw := (Punctuator.slashOf more).text.toList } := by
  have hfront := Token.Reading.of_frontOf (reading.raw ++ rest)
  rw [h.reading_eq] at hfront
  obtain ⟨more, hmore⟩ : ∃ more, reading.raw ++ rest = '/' :: more := by
    rcases hkind with hkind | hkind
    · obtain ⟨more, hmore⟩ := hfront.mark_front _ hkind
      exact ⟨more, hmore.symm⟩
    · obtain ⟨more, hmore⟩ := hfront.mark_front _ hkind
      exact ⟨'=' :: more, hmore.symm⟩
  refine ⟨more, hmore, ?_⟩
  have hreading := h.reading_eq
  rw [hmore] at hreading
  have hmark : Token.Reading.of ('/' :: more) = .mark '/' more := rfl
  rw [← hreading, hmark, Token.Reading.mark, Punctuator.longest?_slash]
  rfl

namespace Lexeme

/-- A slash and the regular expression that it is the beginning of. -/
theorem exists_regex_of_isSlash {offset : Nat} {text : Stretch}
    (hkind : (read offset text).token.kind.IsSlash) :
    ∃ more s closed,
      (read offset text).token.kind = .punctuator (.slashOf more)
        ∧ (read offset text).token.value = ""
        ∧ (read offset text).token.isOpen = false
        ∧ (read offset text).token.openComment = none
        ∧ (read offset text).token.stop = (read offset text).token.start
          + byteLength (Punctuator.slashOf more).text.toList
        ∧ (read offset text).asRegex.token
          = (read offset text).token.regex ('/' :: s) closed
        ∧ (s.head? = some '=' ↔ more.head? = some '=') := by
  obtain ⟨items, reading, rest, hopens⟩ := exists_opensWith text.chars
  obtain ⟨htoken, hahead, -⟩ := hopens.read offset
  have hslash : reading.kind.IsSlash := by rwa [htoken] at hkind
  obtain ⟨more, hmore, hreading⟩ := hopens.reading_of_isSlash hslash
  have hcomment := hopens.openComment?_eq_none (by
    intro hraw
    have hend := hopens.kind_eq_iff.2 hraw
    rcases hslash with hslash | hslash <;> simp [hend] at hslash) offset
  obtain ⟨s, closed, hread, hhead⟩ := RegexLiteral.exists_read more
  have hdrop : RegexLiteral.read ((read offset text).ahead.chars.drop 1)
      = ('/' :: s, closed) := by
    rw [hahead, hmore]
    exact hread
  have hregex := asRegex_of_isSlash hkind hdrop
  refine ⟨more, s, closed, ?_, ?_, ?_, ?_, ?_, by rw [hregex], hhead⟩ <;>
    rw [htoken, hreading] <;> simp [Token.behind, hcomment]

/-- Only a slash becomes a regular expression. -/
theorem isSlash_of_asRegex {offset : Nat} {text : Stretch}
    (h : (read offset text).asRegex.token.kind = .regex) :
    (read offset text).token.kind.IsSlash := by
  rcases (read offset text).asRegex_eq_or with hsame | ⟨hslash, -⟩
  · rw [hsame] at h
    exact absurd h (kind_read_ne _ _)
  · exact hslash

/-- A slash is no longer than the regular expression it begins. -/
theorem stop_le_asRegex (offset : Nat) (text : Stretch) :
    (read offset text).token.stop
      ≤ (read offset text).asRegex.token.stop := by
  by_cases hkind : (read offset text).token.kind.IsSlash
  · obtain ⟨more, s, closed, -, -, -, -, hstop, hregex, hhead⟩ :=
      exists_regex_of_isSlash hkind
    rw [hstop, hregex]
    refine Nat.add_le_add_left ?_ _
    rw [Punctuator.slashOf]
    split
    · rename_i hequals
      obtain ⟨s, rfl⟩ := List.head?_eq_some_iff.1 (hhead.2 hequals)
      exact Nat.add_le_add_left (Nat.le_add_right _ _) _
    · exact Nat.le_add_right _ _
  · rw [asRegex_of_not_isSlash hkind]

end Lexeme

end ScriptLint
