/-
Reading bytes as UTF-8 undoes writing. A character is read off the front
of some bytes just when its encoding stands there
(`readChar?_eq_some_iff`), so the characters that are read, with the bytes
that are left over, are the one way to cut the bytes into encodings and a
rest that begins with none (`decode_eq_iff`).

Bytes that are no text break off somewhere: they are the encoding of some
characters up to a byte from which on no character can be read
(`BreaksOff`). These characters and what is left are unique.

# The argument

- `utf8EncodeChar_cases` writes the encoding of a character as numbers, one
  case for each length. All of the rest is arithmetic on these cases.
- Reading what has been written gives the character back
  (`readChar?_utf8EncodeChar`), and what is read has been written there
  (`eq_of_readChar?`). Both go through the four lengths.
- For whole texts, the first is used along the characters and the second
  along the reading (`decode_eq_iff`).
-/
import Mathlib.Data.List.Basic
import ScriptLint.Text.Offset
import ScriptLint.Text.RawText

namespace ScriptLint

namespace Text.Utf8

-- ========================================================== characters

@[simp] theorem encode_nil : encode [] = [] := rfl

@[simp] theorem encode_cons (c : Char) (cs : List Char) :
    encode (c :: cs) = String.utf8EncodeChar c ++ encode cs := rfl

@[simp] theorem length_encode (cs : List Char) :
    (encode cs).length = byteLength cs := by
  induction cs with
  | nil => rfl
  | cons c cs ih => simp [ih, String.length_utf8EncodeChar]

theorem continuation?_eq_some_iff {byte : UInt8} {x : Nat} :
    continuation? byte = some x ↔ x < 64 ∧ byte = UInt8.ofNat (x + 128) := by
  have hbyte := byte.toNat_lt
  rw [continuation?, ← UInt8.toNat_inj]
  constructor
  · intro h
    split at h
    · cases h
      refine ⟨by omega, ?_⟩
      rw [UInt8.toNat_ofNat']
      omega
    · cases h
  · rintro ⟨hx, h⟩
    rw [UInt8.toNat_ofNat'] at h
    rw [if_pos (by omega), Option.some_inj]
    omega

theorem charOfSize?_eq_some_iff {size code : Nat} {c : Char} :
    charOfSize? size code = some c ↔ c.toNat = code ∧ c.utf8Size = size := by
  rw [charOfSize?]
  constructor
  · intro h
    by_cases hvalid : code.isValidChar
    · rw [dif_pos hvalid, Option.ite_none_right_eq_some,
        Option.some_inj] at h
      obtain ⟨hsize, rfl⟩ := h
      exact ⟨rfl, hsize⟩
    · rw [dif_neg hvalid] at h
      cases h
  · rintro ⟨rfl, rfl⟩
    have hvalid : c.toNat.isValidChar := c.valid
    rw [dif_pos hvalid]
    exact if_pos rfl

/-- The four lengths of an encoding. -/
theorem utf8EncodeChar_cases (c : Char) :
    (c.toNat < 0x80 ∧ c.utf8Size = 1
        ∧ String.utf8EncodeChar c = [UInt8.ofNat c.toNat])
      ∨ (0x80 ≤ c.toNat ∧ c.toNat < 0x800 ∧ c.utf8Size = 2
        ∧ String.utf8EncodeChar c = [UInt8.ofNat (c.toNat / 64 + 0xC0),
          UInt8.ofNat (c.toNat % 64 + 0x80)])
      ∨ (0x800 ≤ c.toNat ∧ c.toNat < 0x10000 ∧ c.utf8Size = 3
        ∧ String.utf8EncodeChar c = [UInt8.ofNat (c.toNat / 4096 + 0xE0),
          UInt8.ofNat (c.toNat / 64 % 64 + 0x80),
          UInt8.ofNat (c.toNat % 64 + 0x80)])
      ∨ (0x10000 ≤ c.toNat ∧ c.toNat < 0x110000 ∧ c.utf8Size = 4
        ∧ String.utf8EncodeChar c = [UInt8.ofNat (c.toNat / 262144 + 0xF0),
          UInt8.ofNat (c.toNat / 4096 % 64 + 0x80),
          UInt8.ofNat (c.toNat / 64 % 64 + 0x80),
          UInt8.ofNat (c.toNat % 64 + 0x80)]) := by
  have hvalid : c.toNat < 0x110000 := by
    have hvalid : c.toNat.isValidChar := c.valid
    rw [Nat.isValidChar] at hvalid
    omega
  have hsize := String.length_utf8EncodeChar c
  rw [← hsize]
  have hval : c.val.toNat = c.toNat := rfl
  rw [String.utf8EncodeChar, hval]
  by_cases h1 : c.toNat < 0x80
  · rw [if_pos (by omega)]
    exact .inl ⟨h1, rfl, rfl⟩
  · rw [if_neg (by omega)]
    by_cases h2 : c.toNat < 0x800
    · rw [if_pos (by omega), Nat.mod_eq_of_lt (a := c.toNat / 64) (by omega)]
      exact .inr (.inl ⟨by omega, h2, rfl, rfl⟩)
    · rw [if_neg (by omega)]
      by_cases h3 : c.toNat < 0x10000
      · rw [if_pos (by omega),
          Nat.mod_eq_of_lt (a := c.toNat / 4096) (by omega)]
        exact .inr (.inr (.inl ⟨by omega, h3, rfl, rfl⟩))
      · rw [if_neg (by omega),
          Nat.mod_eq_of_lt (a := c.toNat / 262144) (by omega)]
        exact .inr (.inr (.inr ⟨by omega, hvalid, rfl, rfl⟩))

/-- A character is read from its encoding. -/
theorem readChar?_utf8EncodeChar (c : Char) (rest : List UInt8) :
    readChar? (String.utf8EncodeChar c ++ rest) = some (c, rest) := by
  have hbyte {n : Nat} (h : n < 256) : (UInt8.ofNat n).toNat = n := by
    rw [UInt8.toNat_ofNat']
    omega
  have hnext {x : Nat} (h : x < 64) :
      continuation? (UInt8.ofNat (x + 0x80)) = some x :=
    continuation?_eq_some_iff.2 ⟨h, rfl⟩
  -- the lengths are told apart by the first byte, which is read again from its
  -- range
  rcases utf8EncodeChar_cases c with ⟨hlt, hsize, hencode⟩
    | ⟨hge, hlt, hsize, hencode⟩ | ⟨hge, hlt, hsize, hencode⟩
    | ⟨hge, hlt, hsize, hencode⟩
  · have hc : charOfSize? 1 c.toNat = some c :=
      charOfSize?_eq_some_iff.2 ⟨rfl, hsize⟩
    simp [hencode, readChar?, hbyte (n := c.toNat) (by omega), hlt, hc]
  · have hc : charOfSize? 2 ((c.toNat / 64 + 0xC0) % 0x20 * 64
        + c.toNat % 64) = some c :=
      charOfSize?_eq_some_iff.2 ⟨by omega, hsize⟩
    simp only [hencode, List.cons_append, List.nil_append]
    unfold readChar?
    dsimp only
    rw [hbyte (by omega), if_neg (by omega), if_neg (by omega),
      if_pos (by omega), hnext (by omega)]
    simp [hc]
  · have hc : charOfSize? 3 (((c.toNat / 4096 + 0xE0) % 0x10 * 64
        + c.toNat / 64 % 64) * 64 + c.toNat % 64) = some c :=
      charOfSize?_eq_some_iff.2 ⟨by omega, hsize⟩
    simp only [hencode, List.cons_append, List.nil_append]
    unfold readChar?
    dsimp only
    rw [hbyte (by omega), if_neg (by omega), if_neg (by omega),
      if_neg (by omega), if_pos (by omega), hnext (by omega),
      hnext (by omega)]
    simp [hc]
  · have hc : charOfSize? 4 ((((c.toNat / 262144 + 0xF0) % 0x08 * 64
        + c.toNat / 4096 % 64) * 64 + c.toNat / 64 % 64) * 64
        + c.toNat % 64) = some c :=
      charOfSize?_eq_some_iff.2 ⟨by omega, hsize⟩
    simp only [hencode, List.cons_append, List.nil_append]
    unfold readChar?
    dsimp only
    rw [hbyte (by omega), if_neg (by omega), if_neg (by omega),
      if_neg (by omega), if_neg (by omega), if_pos (by omega),
      hnext (by omega), hnext (by omega), hnext (by omega)]
    simp [hc]

/-- What is read off the front of some bytes stands there. -/
theorem eq_of_readChar? {bytes rest : List UInt8} {c : Char}
    (h : readChar? bytes = some (c, rest)) :
    String.utf8EncodeChar c ++ rest = bytes := by
  have hcases := utf8EncodeChar_cases c
  have hbyte {n : Nat} (byte : UInt8) (h : n = byte.toNat) :
      UInt8.ofNat n = byte := by rw [h, UInt8.ofNat_toNat]
  unfold readChar? at h
  split at h
  · cases h
  rename_i b bytes
  simp only [Option.pure_def, Option.bind_eq_bind] at h
  split at h
  -- one byte; in the cases below, each continuation byte is a digit of the
  -- code to the base 64
  · simp only [Option.map_eq_some_iff, Prod.mk.injEq,
      charOfSize?_eq_some_iff] at h
    obtain ⟨c, ⟨hcode, hsize⟩, rfl, rfl⟩ := h
    have hencode := (hcases.resolve_right (by omega)).2.2
    rw [hencode, hbyte b hcode]
    rfl
  split at h
  · cases h
  split at h
  · split at h
    · simp only [Option.bind_eq_some_iff, Option.some.injEq,
        Prod.mk.injEq, charOfSize?_eq_some_iff,
        continuation?_eq_some_iff] at h
      obtain ⟨x, ⟨hx, rfl⟩, c, ⟨hcode, hsize⟩, rfl, rfl⟩ := h
      have hencode := (hcases.resolve_left (by omega)
        |>.resolve_right (by omega)).2.2.2
      rw [hencode, hbyte b (by omega),
        show c.toNat % 64 = x by omega]
      rfl
    · cases h
  split at h
  · split at h
    · simp only [Option.bind_eq_some_iff, Option.some.injEq,
        Prod.mk.injEq, charOfSize?_eq_some_iff,
        continuation?_eq_some_iff] at h
      obtain ⟨x, ⟨hx, rfl⟩, y, ⟨hy, rfl⟩, c, ⟨hcode, hsize⟩, rfl, rfl⟩ := h
      have hencode := (hcases.resolve_left (by omega)
        |>.resolve_left (by omega) |>.resolve_right (by omega)).2.2.2
      rw [hencode, hbyte b (by omega),
        show c.toNat / 64 % 64 = x by omega,
        show c.toNat % 64 = y by omega]
      rfl
    · cases h
  split at h
  · split at h
    · simp only [Option.bind_eq_some_iff, Option.some.injEq,
        Prod.mk.injEq, charOfSize?_eq_some_iff,
        continuation?_eq_some_iff] at h
      obtain ⟨x, ⟨hx, rfl⟩, y, ⟨hy, rfl⟩, z, ⟨hz, rfl⟩, c,
        ⟨hcode, hsize⟩, rfl, rfl⟩ := h
      have hencode := (hcases.resolve_left (by omega)
        |>.resolve_left (by omega) |>.resolve_left (by omega)).2.2.2
      rw [hencode, hbyte b (by omega),
        show c.toNat / 4096 % 64 = x by omega,
        show c.toNat / 64 % 64 = y by omega,
        show c.toNat % 64 = z by omega]
      rfl
    · cases h
  · cases h

theorem readChar?_eq_some_iff {bytes rest : List UInt8} {c : Char} :
    readChar? bytes = some (c, rest)
      ↔ String.utf8EncodeChar c ++ rest = bytes := by
  constructor
  · exact eq_of_readChar?
  · rintro rfl
    exact readChar?_utf8EncodeChar c rest

-- =============================================================== texts

/-- No character can be read just where none is encoded at the front. -/
theorem readChar?_eq_none_iff {bytes : List UInt8} :
    readChar? bytes = none ↔ ∀ c, ¬ String.utf8EncodeChar c <+: bytes := by
  constructor
  · rintro hnone c ⟨rest, hrest⟩
    rw [readChar?_eq_some_iff.2 hrest] at hnone
    cases hnone
  · intro h
    cases hread : readChar? bytes with
    | none => rfl
    | some result => exact absurd ⟨_, eq_of_readChar? hread⟩ (h result.1)

/-- Reading takes characters off the front as long as any can be read. -/
theorem decode_eq_iff {bytes left : List UInt8} {cs : List Char} :
    decode bytes = (cs, left)
      ↔ encode cs ++ left = bytes ∧ ∀ c, ¬ String.utf8EncodeChar c <+: left := by
  rw [← readChar?_eq_none_iff]
  constructor
  · intro h
    -- one way by the reading, the other by what has been written
    fun_induction decode bytes generalizing cs with
    | case1 bytes hread =>
      cases h
      exact ⟨rfl, hread⟩
    | case2 bytes c rest hread ds left' hrest ih =>
      cases h
      obtain ⟨hencode, hnone⟩ := ih hrest
      rw [encode_cons, List.append_assoc, hencode]
      exact ⟨eq_of_readChar? hread, hnone⟩
  · rintro ⟨rfl, hnone⟩
    induction cs with
    | nil =>
        rw [encode_nil, List.nil_append, decode]
        split
        · rfl
        · rename_i hread
          rw [hnone] at hread
          cases hread
    | cons c cs ih =>
        have hread := readChar?_utf8EncodeChar c (encode cs ++ left)
        rw [encode_cons, List.append_assoc, decode]
        split
        · rename_i hnothing
          rw [hread] at hnothing
          cases hnothing
        · rename_i c' rest hread'
          rw [hread] at hread'
          cases hread'
          rw [ih]

theorem decode_encode (cs : List Char) : decode (encode cs) = (cs, []) := by
  refine decode_eq_iff.2 ⟨List.append_nil _, fun c hfront => ?_⟩
  have hlength := congrArg List.length (List.prefix_nil.1 hfront)
  rw [String.length_utf8EncodeChar, List.length_nil] at hlength
  have := c.utf8Size_pos
  omega

/-- Bytes that leave something over are no encoding of a text. -/
theorem encode_ne_of_decode {bytes left : List UInt8} {cs : List Char}
    (h : decode bytes = (cs, left)) (hleft : left ≠ []) (ds : List Char) :
    encode ds ≠ bytes := by
  rintro rfl
  rw [decode_encode] at h
  exact hleft (Prod.mk.inj h).2.symm

/-- The text of some bytes is the one that they encode. -/
theorem text?_eq_some_iff {bytes : List UInt8} {text : String} :
    text? bytes = some text ↔ encode text.toList = bytes := by
  constructor
  · intro h
    unfold text? at h
    split at h
    · rename_i cs hdecode
      obtain rfl := Option.some.inj h
      rw [String.toList_ofList]
      simpa using (decode_eq_iff.1 hdecode).1
    · cases h
  · rintro rfl
    rw [text?, decode_encode]
    exact congrArg some String.ofList_toList

/-- What encodes a text is shown as this text. -/
theorem shown_encode (cs : List Char) : shown (encode cs) = cs := by
  induction cs with
  | nil => rw [encode_nil, shown]
  | cons c cs ih =>
      have hread := readChar?_utf8EncodeChar c (encode cs)
      cases hbytes : String.utf8EncodeChar c ++ encode cs with
      | nil =>
          rw [hbytes] at hread
          cases hread
      | cons first more =>
          rw [hbytes] at hread
          rw [encode_cons, hbytes, shown]
          split
          · rename_i hread'
            rw [hread] at hread'
            cases hread'
            rw [ih]
          · rename_i hnone
            rw [hread] at hnone
            cases hnone

/-- Where bytes can no longer be read: `front` is what they encode up to
there, and at the front of what is left no character is encoded. -/
structure BreaksOff (bytes : List UInt8) (front : List Char)
    (left : List UInt8) : Prop where
  encode_append : encode front ++ left = bytes
  left_ne_nil : left ≠ []
  unreadable (c : Char) : ¬ String.utf8EncodeChar c <+: left

variable {bytes left : List UInt8} {front : List Char}

theorem BreaksOff.decode_eq (h : BreaksOff bytes front left) :
    decode bytes = (front, left) :=
  decode_eq_iff.2 ⟨h.encode_append, h.unreadable⟩

/-- Bytes that encode no text break off. -/
theorem exists_breaksOff (h : ∀ cs, encode cs ≠ bytes) :
    ∃ front left, BreaksOff bytes front left := by
  rcases hdecode : decode bytes with ⟨front, left⟩
  obtain ⟨hencode, hunreadable⟩ := decode_eq_iff.1 hdecode
  refine ⟨front, left, hencode, ?_, hunreadable⟩
  rintro rfl
  rw [List.append_nil] at hencode
  exact h front hencode

/-- Bytes that break off are no text. -/
theorem BreaksOff.text?_eq_none (h : BreaksOff bytes front left) :
    text? bytes = none := by
  obtain ⟨b, more, rfl⟩ := List.exists_cons_of_ne_nil h.left_ne_nil
  rw [text?, h.decode_eq]

-- =============================================================== ASCII

/-- Bytes below 128 stand for themselves: one of them is in the encoding of
a character only if it is all of it. -/
theorem ofNat_mem_utf8EncodeChar_iff {c d : Char} (h : d.toNat < 0x80) :
    UInt8.ofNat d.toNat ∈ String.utf8EncodeChar c ↔ c = d := by
  have hbyte {n : Nat} (hn : n < 256) :
      UInt8.ofNat d.toNat = UInt8.ofNat n ↔ d.toNat = n := by
    rw [← UInt8.toNat_inj, UInt8.toNat_ofNat', UInt8.toNat_ofNat']
    omega
  have hvalue : c = d ↔ c.toNat = d.toNat := Char.toNat_inj.symm
  rcases utf8EncodeChar_cases c with ⟨hlt, -, hencode⟩
    | ⟨hle, hlt, -, hencode⟩ | ⟨hle, hlt, -, hencode⟩
    | ⟨hle, hlt, -, hencode⟩
  all_goals
    rw [hencode, hvalue]
    simp only [List.mem_cons, List.not_mem_nil, or_false]
  · rw [hbyte (by omega)]
    omega
  · rw [hbyte (by omega), hbyte (by omega)]
    omega
  · rw [hbyte (by omega), hbyte (by omega), hbyte (by omega)]
    omega
  · rw [hbyte (by omega), hbyte (by omega), hbyte (by omega),
      hbyte (by omega)]
    omega

theorem ofNat_mem_encode_iff {cs : List Char} {d : Char}
    (h : d.toNat < 0x80) : UInt8.ofNat d.toNat ∈ encode cs ↔ d ∈ cs := by
  rw [encode, List.mem_flatMap]
  simp only [ofNat_mem_utf8EncodeChar_iff h]
  exact ⟨fun ⟨c, hc, heq⟩ => heq ▸ hc, fun hd => ⟨d, hd, rfl⟩⟩

/-- So the first byte of a text is one of them just if it begins with that
character. -/
theorem head?_encode_iff {cs : List Char} {d : Char} (h : d.toNat < 0x80) :
    (encode cs).head? = some (UInt8.ofNat d.toNat) ↔ cs.head? = some d := by
  cases cs with
  | nil => simp
  | cons c cs =>
      rw [encode_cons, List.head?_cons, Option.some_inj]
      constructor
      · intro hhead
        rw [← ofNat_mem_utf8EncodeChar_iff h]
        have hlength := String.length_utf8EncodeChar c
        have hpos := c.utf8Size_pos
        rw [List.head?_append_of_ne_nil _
          (List.length_pos_iff.1 (by omega))] at hhead
        exact List.mem_of_head? hhead
      · rintro rfl
        rcases utf8EncodeChar_cases c with ⟨-, -, hencode⟩ | hlong
        · rw [hencode]
          rfl
        · omega

end Text.Utf8

-- =========================================================== raw texts

namespace RawText

open Text

variable {raw : RawText} {text : String}

/-- The bytes of a text are a text, and no others are. -/
theorem text?_eq_some_iff : raw.text? = some text ↔ raw = ofText text := by
  rw [text?, Utf8.text?_eq_some_iff]
  exact ⟨fun h => congrArg RawText.mk h.symm, fun h => h ▸ rfl⟩

@[simp] theorem text?_ofText (text : String) :
    (ofText text).text? = some text :=
  text?_eq_some_iff.2 rfl

theorem ofText_injective : Function.Injective ofText := by
  intro a b h
  have htext := text?_ofText b
  rw [← h, text?_ofText] at htext
  exact Option.some.inj htext

/-- A text is shown as it is. -/
@[simp] theorem shown_ofText (text : String) :
    (ofText text).shown = text := by
  rw [shown, ofText, Utf8.shown_encode, String.ofList_toList]

end RawText

end ScriptLint
