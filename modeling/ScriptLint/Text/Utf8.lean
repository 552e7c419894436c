/-
Reading bytes as UTF-8. Characters are read from the front for as long as
the bytes allow; what cannot be read is left over, so a sequence of bytes
is a text exactly when nothing is left.

Bytes that are no text can still be shown. Then reading goes on behind what
cannot be read, and a mark stands in its place.
-/

namespace ScriptLint.Text.Utf8

/-- The six bits that a continuation byte adds to a code point. -/
def continuation? (byte : UInt8) : Option Nat :=
  if byte.toNat / 64 = 2 then some (byte.toNat % 64) else none

/-- The character with a code point, provided that it takes `size` bytes:
no surrogate, and no longer than it must be. -/
def charOfSize? (size code : Nat) : Option Char :=
  if h : code.isValidChar then
    let c := Char.ofNatAux code h
    if c.utf8Size = size then some c else none
  else none

/-- The character at the front of some bytes, and the bytes behind it. The
first byte tells how many there are, and holds the bits that the others
have no room for. -/
def readChar? : List UInt8 → Option (Char × List UInt8)
  | [] => none
  | b :: bytes =>
    let b := b.toNat
    if b < 0x80 then
      (charOfSize? 1 b).map (·, bytes)
    else if b < 0xC0 then none
    else if b < 0xE0 then
      match bytes with
      | x :: bytes => do
        let x ← continuation? x
        -- longer than need be is not well-formed, hence the size
        let c ← charOfSize? 2 (b % 0x20 * 64 + x)
        return (c, bytes)
      | _ => none
    else if b < 0xF0 then
      match bytes with
      | x :: y :: bytes => do
        let x ← continuation? x
        let y ← continuation? y
        let c ← charOfSize? 3 ((b % 0x10 * 64 + x) * 64 + y)
        return (c, bytes)
      | _ => none
    else if b < 0xF8 then
      match bytes with
      | x :: y :: z :: bytes => do
        let x ← continuation? x
        let y ← continuation? y
        let z ← continuation? z
        let c ← charOfSize? 4 (((b % 0x08 * 64 + x) * 64 + y) * 64 + z)
        return (c, bytes)
      | _ => none
    else none

/-- Reading a character uses up bytes. -/
theorem length_lt_of_readChar? {bytes rest : List UInt8} {c : Char}
    (h : readChar? bytes = some (c, rest)) :
    rest.length < bytes.length := by
  unfold readChar? at h
  split at h
  · simp at h
  · simp only [Option.pure_def, Option.bind_eq_bind] at h
    split at h
    · simp only [Option.map_eq_some_iff, Prod.mk.injEq] at h
      obtain ⟨_, _, _, rfl⟩ := h
      simp
    · split at h
      · simp at h
      split at h
      · split at h
        · simp only [Option.bind_eq_some_iff, Option.some.injEq,
            Prod.mk.injEq] at h
          obtain ⟨_, _, _, _, _, rfl⟩ := h
          simp only [List.length_cons]
          omega
        · simp at h
      · split at h
        · split at h
          · simp only [Option.bind_eq_some_iff, Option.some.injEq,
              Prod.mk.injEq] at h
            obtain ⟨_, _, _, _, _, _, _, rfl⟩ := h
            simp only [List.length_cons]
            omega
          · simp at h
        · split at h
          · split at h
            · simp only [Option.bind_eq_some_iff, Option.some.injEq,
                Prod.mk.injEq] at h
              obtain ⟨_, _, _, _, _, _, _, _, _, rfl⟩ := h
              simp only [List.length_cons]
              omega
            · simp at h
          · simp at h

/-- The characters that can be read from the front, and the bytes left
over. -/
def decode (bytes : List UInt8) : List Char × List UInt8 :=
  match _h : readChar? bytes with
  | none => ([], bytes)
  | some (c, rest) =>
    let (cs, left) := decode rest
    (c :: cs, left)
termination_by bytes.length
decreasing_by exact length_lt_of_readChar? _h

/-- The encoding of some characters. -/
def encode (cs : List Char) : List UInt8 := cs.flatMap String.utf8EncodeChar

/-- The text of some bytes, if they are UTF-8. -/
def text? (bytes : List UInt8) : Option String :=
  match decode bytes with
  | (cs, []) => some (String.ofList cs)
  | _ => none

-- ============================================================= showing

/-- Whether some character is encoded with two given bytes in front and
more behind them. The bounds on the second byte keep out characters that
would take more bytes than they must, surrogates, and what lies beyond the
last code point. -/
def beginsLong (first second : UInt8) : Bool :=
  let low : UInt8 :=
    if first = 0xE0 then 0xA0 else if first = 0xF0 then 0x90 else 0x80
  let high : UInt8 :=
    if first = 0xED then 0x9F else if first = 0xF4 then 0x8F else 0xBF
  0xE0 ≤ first && first ≤ 0xF4 && low ≤ second && second ≤ high

/-- What is behind a mistake: a first byte that begins no character with
the bytes that follow it. As many of these are passed over with it as could
stand in front of a character that is cut off. -/
def behindMistake (first : UInt8) (bytes : List UInt8) : List UInt8 :=
  match bytes with
  | second :: more =>
    if beginsLong first second then
      match more with
      | third :: rest =>
        if 0xF0 ≤ first && (continuation? third).isSome then rest else more
      | [] => []
    else bytes
  | [] => []

theorem length_behindMistake_le (first : UInt8) (bytes : List UInt8) :
    (behindMistake first bytes).length ≤ bytes.length := by
  unfold behindMistake
  repeat' split
  all_goals simp only [List.length_cons, List.length_nil]
  all_goals omega

/-- The characters that some bytes are shown as. For each mistake there is
a mark. -/
def shown (bytes : List UInt8) : List Char :=
  match bytes with
  | [] => []
  | first :: more =>
    match _h : readChar? (first :: more) with
    | some (c, rest) => c :: shown rest
    | none => '\uFFFD' :: shown (behindMistake first more)
termination_by bytes.length
decreasing_by
  · exact length_lt_of_readChar? _h
  · exact Nat.lt_succ_of_le (length_behindMistake_le first more)

end ScriptLint.Text.Utf8
