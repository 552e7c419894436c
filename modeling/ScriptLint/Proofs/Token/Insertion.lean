/-
Semicolons written into a text. A text gets a semicolon behind each
character that ends at one of some places (`Text.withSemicolons`). A
character that begins at byte `n` then begins at `shift p n`, and what ends
there ends at `settled p n`, in front of a semicolon at the same place.

The semicolons begin no lines and, as long as none is written between a
carriage return and a line feed, divide none, so that every character
stays in its line (`LineMap.lineOf_withSemicolons`). Where none is written
into the middle of a token, the tokens are read as they are without them
(`Lexeme.read_inserted`).

# The argument

- `withSemicolons` writes the new text character by character, `shift` and
  `settled` say where the old bytes have gone. The three agree on pieces of
  text (`withSemicolons_append`).
- `Inserted` relates a lexeme of the old text to one of the new: they are
  alike, in corresponding places, and what is ahead of them corresponds.
- Reading the next lexeme keeps the relation, as a token is read locally
  (`Lexeme.read_inserted`), and so does reading a slash again
  (`Inserted.asRegex`).
-/
import Mathlib.Data.Nat.Count
import ScriptLint.Proofs.Parse.Coupling
import ScriptLint.Proofs.Token.Locality

namespace ScriptLint

open Text

namespace Text

variable (p : Nat → Bool)

-- =========================================================== insertion

/-- The semicolon at a place, if there is to be one. -/
def semicolonAt (n : Nat) : List Char := if p n then [';'] else []

/-- The text `cs`, which begins at byte `offset`, with a semicolon behind
every character that ends at one of the places. -/
def withSemicolons : Nat → List Char → List Char
  | _, [] => []
  | offset, c :: cs =>
    c :: (semicolonAt p (offset + c.utf8Size)
      ++ withSemicolons (offset + c.utf8Size) cs)

/-- Where something ends in the new text that ends at byte `n`. -/
def settled (n : Nat) : Nat := n + Nat.count (p · = true) n

/-- Where something begins in the new text that begins at byte `n`. -/
def shift (n : Nat) : Nat := n + Nat.count (p · = true) (n + 1)

variable {p}

theorem shift_eq (n : Nat) :
    shift p n = settled p n + byteLength (semicolonAt p n) := by
  rw [shift, settled, Nat.count_succ, semicolonAt]
  split <;> simp [Nat.add_assoc, show (';' : Char).utf8Size = 1 from rfl]

/-- Where nothing is inserted, everything is moved alike. -/
theorem shift_add {n k : Nat} (h : ∀ y, n < y → y ≤ n + k → p y = false) :
    shift p (n + k) = shift p n + k := by
  have hnone : Nat.count (fun i => p (n + 1 + i) = true) k = 0 := by
    rw [Nat.count_iff_forall_not]
    intro i hi
    simp [h (n + 1 + i) (by omega) (by omega)]
  rw [shift, shift, Nat.add_right_comm n k 1, Nat.count_add, hnone]
  omega

theorem settled_eq {n m : Nat} (hlt : n < m)
    (h : ∀ y, n < y → y < m → p y = false) :
    settled p m = shift p n + (m - n) := by
  obtain ⟨k, rfl⟩ := Nat.exists_eq_add_of_lt hlt
  have hshift := shift_add (k := k) fun y hy hle => h y hy (by omega)
  rw [shift] at hshift
  rw [settled]
  omega

theorem shift_of_false {n : Nat} (h : p n = false) :
    shift p n = settled p n := by
  rw [shift_eq, semicolonAt, h]
  rfl

theorem semicolonAt_of_false {n : Nat} (h : p n = false) :
    semicolonAt p n = [] := by
  rw [semicolonAt, h]
  rfl

theorem semicolonAt_of_true {n : Nat} (h : p n = true) :
    semicolonAt p n = [';'] := by
  rw [semicolonAt, h]
  rfl

/-- A piece of text that nothing is inserted into. -/
theorem withSemicolons_append {a : List Char} (ha : a ≠ []) {offset : Nat}
    (h : ∀ y, offset < y → y < offset + byteLength a → p y = false)
    (b : List Char) :
    withSemicolons p offset (a ++ b)
      = a ++ (semicolonAt p (offset + byteLength a)
        ++ withSemicolons p (offset + byteLength a) b) := by
  induction a generalizing offset with
  | nil => exact absurd rfl ha
  | cons c a ih =>
      rw [List.cons_append, withSemicolons, byteLength_cons, ← Nat.add_assoc]
      cases a with
      | nil => rfl
      | cons d a =>
          have hsize := c.utf8Size_pos
          have hlength : 0 < byteLength (d :: a) :=
            Lexeme.byteLength_pos (List.cons_ne_nil _ _)
          rw [byteLength_cons, ← Nat.add_assoc] at h
          rw [semicolonAt_of_false (h _ (by omega) (by omega)),
            ih (List.cons_ne_nil _ _) fun y hy => h y (by omega)]
          rfl

/-- A text that nothing is inserted into. -/
theorem withSemicolons_eq_self {cs : List Char} {offset : Nat}
    (h : ∀ y, offset < y → p y = false) :
    withSemicolons p offset cs = cs := by
  induction cs generalizing offset with
  | nil => rfl
  | cons c cs ih =>
      have hsize := c.utf8Size_pos
      rw [withSemicolons, semicolonAt_of_false (h _ (by omega)),
        ih fun y hy => h y (by omega), List.nil_append]

theorem departs_withSemicolons (offset : Nat) (cs : List Char) :
    Departs cs (withSemicolons p offset cs) := by
  induction cs generalizing offset with
  | nil => exact .refl []
  | cons c cs ih =>
      refine .cons c ?_
      cases hp : p (offset + c.utf8Size) with
      | false =>
          rw [semicolonAt_of_false hp]
          exact ih _
      | true =>
          rw [semicolonAt_of_true hp]
          exact .here cs (by simp)

/-- Behind a place, the new text differs first in a semicolon. -/
theorem departs_semicolonAt (offset : Nat) (cs : List Char) :
    Departs cs (semicolonAt p offset ++ withSemicolons p offset cs) := by
  cases hp : p offset with
  | false =>
      rw [semicolonAt_of_false hp]
      exact departs_withSemicolons offset cs
  | true =>
      rw [semicolonAt_of_true hp]
      exact .here cs (by simp)

-- =============================================================== lines

/-- Places at which semicolons may be written into a text without changing
its lines: each is behind a character that is no carriage return. -/
def KeepsLines (p : Nat → Bool) (offset : Nat) (cs : List Char) : Prop :=
  ∀ y, p y = true → offset < y → y ≤ offset + byteLength cs →
    ∃ a c b, cs = a ++ c :: b ∧ y = offset + byteLength a + c.utf8Size
      ∧ c ≠ '\r'

theorem KeepsLines.cons {offset : Nat} {c : Char} {cs : List Char}
    (h : KeepsLines p offset (c :: cs)) :
    (∀ y, offset < y → y < offset + c.utf8Size → p y = false)
      ∧ (c = '\r' → p (offset + c.utf8Size) = false)
      ∧ KeepsLines p (offset + c.utf8Size) cs := by
  -- a place is behind the first character or behind a later one
  have hplace : ∀ y, p y = true → offset < y →
      y ≤ offset + byteLength (c :: cs) →
      y = offset + c.utf8Size ∧ c ≠ '\r'
        ∨ offset + c.utf8Size < y ∧ ∃ a d b, cs = a ++ d :: b
          ∧ y = offset + c.utf8Size + byteLength a + d.utf8Size
          ∧ d ≠ '\r' := by
    intro y hy hlt hle
    obtain ⟨a, d, b, hcs, hplace, hne⟩ := h y hy hlt hle
    cases a with
    | nil =>
        cases hcs
        exact .inl ⟨by simpa using hplace, hne⟩
    | cons _ a =>
        cases hcs
        have hsize := d.utf8Size_pos
        rw [byteLength_cons] at hplace
        exact .inr ⟨by omega, a, d, b, rfl, by omega, hne⟩
  have hsize := c.utf8Size_pos
  rw [byteLength_cons] at hplace
  refine ⟨fun y hlt hlt' => ?_, fun hc => ?_, fun y hy hlt hle => ?_⟩
  · by_contra hy
    rcases hplace y (by simpa using hy) hlt (by omega) with ⟨hy, -⟩ | ⟨hy, -⟩
    · omega
    · omega
  · by_contra hy
    rcases hplace _ (by simpa using hy) (by omega) (by omega) with
      ⟨-, hne⟩ | ⟨hy, -⟩
    · exact hne hc
    · omega
  · rcases hplace y hy (by omega) (by omega) with ⟨hy, -⟩ | ⟨-, hbehind⟩
    · omega
    · exact hbehind

/-- Behind a character the new text has moved as far as the text. -/
theorem KeepsLines.shift_add_size {offset : Nat} {c : Char}
    {cs : List Char} (h : KeepsLines p offset (c :: cs)) :
    shift p offset + c.utf8Size = settled p (offset + c.utf8Size) := by
  have hsize := c.utf8Size_pos
  rw [settled_eq (by omega) h.cons.1]
  omega

/-- No pair of line ends comes to be that was none. -/
theorem KeepsLines.no_pair {offset : Nat} {c : Char} {cs : List Char}
    (h : KeepsLines p offset (c :: cs))
    (hpair : ∀ ds, c = '\r' → cs = '\n' :: ds → False) (ds : List Char)
    (hc : c = '\r')
    (hds : semicolonAt p (offset + c.utf8Size)
      ++ withSemicolons p (offset + c.utf8Size) cs = '\n' :: ds) :
    False := by
  rw [semicolonAt_of_false (h.cons.2.1 hc)] at hds
  cases cs with
  | nil => cases hds
  | cons d cs =>
      injection hds with hd
      exact hpair cs hc (by rw [hd])

namespace LineMap

variable {offset : Nat} {cs : List Char}

/-- A semicolon begins no line. -/
theorem startsAfter_semicolonAt (n : Nat) (cs : List Char) :
    startsAfter (settled p n) (semicolonAt p n ++ cs)
      = startsAfter (shift p n) cs := by
  rw [shift_eq, semicolonAt]
  split
  · rw [List.singleton_append, startsAfter.eq_3 _ _ _ (by rintro _ ⟨⟩)]
    rfl
  · rfl

/-- The lines of the new text begin where those of the text do. -/
theorem startsAfter_withSemicolons (h : KeepsLines p offset cs) :
    startsAfter (shift p offset) (withSemicolons p offset cs)
      = (startsAfter offset cs).map (settled p) := by
  fun_induction startsAfter offset cs with
  | case1 => rfl
  | case2 offset cs ih =>
      -- nothing is inserted between a carriage return and its line feed, so
      -- they stay one line end
      have hnone : p (offset + 1) = false := h.cons.2.1 rfl
      have hkeeps : KeepsLines p (offset + 1) ('\n' :: cs) := h.cons.2.2
      have hplace : shift p offset + 1 = settled p (offset + 1) :=
        h.shift_add_size
      have hplace' : shift p (offset + 1) + 1 = settled p (offset + 2) :=
        hkeeps.shift_add_size
      rw [shift_of_false hnone, ← hplace] at hplace'
      have hnew : withSemicolons p offset ('\r' :: '\n' :: cs)
          = '\r' :: '\n' :: (semicolonAt p (offset + 2)
            ++ withSemicolons p (offset + 2) cs) := by
        rw [withSemicolons, show ('\r' : Char).utf8Size = 1 from rfl,
          semicolonAt_of_false hnone]
        rfl
      rw [hnew, startsAfter, show shift p offset + 2 = settled p (offset + 2)
        from hplace', startsAfter_semicolonAt, ih hkeeps.cons.2.2]
      rfl
  | case3 offset c cs hpair hend ih =>
      have hsize : c.utf8Size = 1 := by
        have hc : c = '\n' ∨ c = '\r' := by simpa [isLineEnd] using hend
        rcases hc with rfl | rfl <;> rfl
      have hplace := h.shift_add_size
      have hkeeps := h.cons.2.2
      rw [hsize] at hplace hkeeps
      rw [withSemicolons, startsAfter.eq_3 _ _ _ (h.no_pair hpair), if_pos hend,
        hsize, hplace, startsAfter_semicolonAt, ih hkeeps]
      rfl
  | case4 offset c cs hpair hend ih =>
      rw [withSemicolons, startsAfter.eq_3 _ _ _ (h.no_pair hpair), if_neg hend,
        h.shift_add_size, startsAfter_semicolonAt, ih h.cons.2.2]

/-- What begins in a line of the text begins in the same line of the new
one. -/
theorem lineOf_withSemicolons {text : String}
    (h : KeepsLines p 0 text.toList) (hzero : p 0 = false) (n : Nat) :
    (ofText (.ofList (withSemicolons p 0 text.toList))).lineOf (shift p n)
      = (ofText text).lineOf n := by
  have hle (start : Nat) : settled p start ≤ shift p n ↔ start ≤ n := by
    constructor
    · intro h
      by_contra hlt
      have hcount := Nat.count_monotone (p · = true)
        (show n + 1 ≤ start by omega)
      rw [settled, shift] at h
      omega
    · intro h
      have hcount := Nat.count_monotone (p · = true)
        (show start ≤ n + 1 by omega)
      rw [settled, shift]
      omega
  have hzero : shift p 0 = 0 := by simp [shift, Nat.count_succ, hzero]
  have hstarts : (ofText (.ofList (withSemicolons p 0 text.toList))).starts
      = (ofText text).starts.map (settled p) := by
    have hafter := startsAfter_withSemicolons h
    rw [hzero] at hafter
    simp [ofText, hafter, settled]
  rw [lineOf_ofText, lineOf_ofText, hstarts, List.countP_map]
  refine List.countP_congr fun start _ => ?_
  simp [hle]

end LineMap

end Text

-- ====================================================== ends of tokens

namespace NumberLiteral

theorem not_mem_takeWhile {c : Char} {q : Char → Bool} (hc : q c = false)
    (cs : List Char) : c ∉ cs.takeWhile q := fun hmem => by
  rw [List.mem_takeWhile_imp hmem] at hc
  cases hc

theorem not_mem_exponent (cs : List Char) : '\r' ∉ exponent cs := by
  intro hmem
  obtain ⟨letter, sign, digits, rest, he, -, hletter, hsign, -, hdigits⟩ :=
    (exponent_eq_iff (List.ne_nil_of_mem hmem)).1 rfl
  have hnone : '\r' ∉ digits := by
    rw [← hdigits]
    exact not_mem_takeWhile (by decide) rest
  rw [he] at hmem
  rcases hletter with rfl | rfl <;> rcases hsign with rfl | rfl | rfl <;>
    simp [hnone] at hmem

/-- A number holds no carriage return. -/
theorem not_mem_read (cs : List Char) : '\r' ∉ read cs := by
  have hfraction (cs : List Char) : '\r' ∉ fraction cs := by
    unfold fraction
    split
    · simpa using not_mem_takeWhile (by decide) _
    · simp
  have hdecimal (cs : List Char) : '\r' ∉ decimal cs := by
    simpa [decimal, hfraction, not_mem_exponent]
      using not_mem_takeWhile (by decide) cs
  cases hhex : isHex cs with
  | false =>
      rw [read_of_not_isHex hhex]
      exact hdecimal cs
  | true =>
      unfold read
      split
      · rename_i x cs
        split
        · rename_i hx
          have hne : '\r' ≠ x := by
            rintro rfl
            cases hx
          simpa [hne] using not_mem_takeWhile (by decide) cs
        · exact hdecimal _
      · exact hdecimal _

end NumberLiteral

/-- A string that is closed ends in its quote, and all other tokens in one
of their characters: none ends in a carriage return. -/
theorem Token.Reading.getLast?_ne {cs : List Char}
    (hkind : (of cs).kind ≠ .unknown) (hopen : (of cs).isOpen = false) :
    (of cs).raw.getLast? ≠ some '\r' := by
  cases cs with
  | nil => simp [of]
  | cons c cs =>
      rw [of] at hkind hopen ⊢
      split
      · rename_i hquote
        rw [if_pos hquote] at hopen
        have hc : c ≠ '\r' := by
          rintro rfl
          cases hquote
        unfold string at hopen ⊢
        rcases hparts : StringLiteral.parts c cs with ⟨ps, rest⟩
        rw [hparts] at hopen
        have hclosed : (rest.head? == some c) = true := by simpa using hopen
        dsimp only
        rw [if_pos hclosed, List.getLast?_concat, ne_eq, Option.some_inj]
        exact hc
      · rename_i hquote
        rw [if_neg hquote] at hkind hopen
        split
        · exact fun h => NumberLiteral.not_mem_read (c :: cs)
            (List.mem_of_getLast? h)
        · rename_i hnumber
          rw [if_neg hnumber] at hkind hopen
          split
          · exact fun h => NumberLiteral.not_mem_takeWhile (by decide) _
              (List.mem_of_getLast? h)
          · rename_i hword
            rw [if_neg hword] at hkind
            unfold mark at hkind ⊢
            split at hkind
            · cases ‹Punctuator› <;> decide
            · exact absurd rfl hkind

/-- A regular expression that is closed ends in a slash or a flag. -/
theorem RegexLiteral.getLast?_ne {cs : List Char} (h : (read cs).2 = true) :
    (read cs).1.getLast? ≠ some '\r' := by
  have hbody : ∀ inClass cs, (body inClass cs).2 = true →
      (body inClass cs).1.getLast? = some '/' := by
    intro inClass cs
    fun_induction body inClass cs with
    | case1 => exact fun hclosed => absurd hclosed Bool.false_ne_true
    | case2 => exact fun hclosed => absurd hclosed Bool.false_ne_true
    | case3 inClass c cs hbreak raw closed hrun ih =>
        intro hclosed
        rw [hrun] at ih
        simp [List.getLast?_cons, ih hclosed]
    | case4 => exact fun hclosed => absurd hclosed Bool.false_ne_true
    | case5 inClass c cs hescape hbreak hclose =>
        intro _
        simp_all
    | case6 inClass c cs hescape hbreak hclose inClass' raw closed hrun ih =>
        intro hclosed
        rw [hrun] at ih
        simp [List.getLast?_cons, ih hclosed]
  have hclosed : (body false cs).2 = true := h
  unfold read
  intro hlast
  dsimp only at hlast
  rw [List.getLast?_append, List.getLast?_cons,
    hbody false cs hclosed] at hlast
  rcases Option.or_eq_some_iff.1 hlast with hflag | ⟨-, hslash⟩
  · exact NumberLiteral.not_mem_takeWhile (by decide) _
      (List.mem_of_getLast? hflag)
  · cases hslash

-- ============================================================= lexemes

namespace Lexeme

variable {p : Nat → Bool} {offset : Nat} {text text' : Stretch}

/-- A lexeme of a text and the same one in the new text. -/
structure Inserted (p : Nat → Bool) (a b : Lexeme) : Prop where
  alike : a.token.Alike b.token
  start_eq : b.token.start = shift p a.token.start
  ahead_eq : b.ahead.chars = withSemicolons p a.token.start a.ahead.chars
  stop_eq : a.token.kind ≠ .endOfText →
    b.token.stop = settled p a.token.stop
  rest_eq : a.token.kind ≠ .endOfText →
    b.rest.chars = semicolonAt p a.token.stop
      ++ withSemicolons p a.token.stop a.rest.chars

/-- At the end nothing is inserted any more, and the new text ends as the
old one does. -/
theorem read_inserted_end
    (htext : text'.chars = withSemicolons p offset text.chars)
    (hkind : (read offset text).token.kind = .endOfText)
    (hnone : ∀ y, offset < y → p y = false) :
    Inserted p (read offset text) (read (shift p offset) text') := by
  obtain ⟨items, reading, rest, hopens⟩ := exists_opensWith text.chars
  obtain ⟨htoken, hahead, -⟩ := hopens.read offset
  have hsame : text'.chars = text.chars := by
    rw [htext, withSemicolons_eq_self hnone]
  obtain ⟨htoken', hahead', -⟩ := (hsame ▸ hopens).read (shift p offset)
  have hcomment := Trivia.isSome_openComment? offset (shift p offset) items
  refine ⟨?_, ?_, ?_, fun hne => absurd hkind hne,
    fun hne => absurd hkind hne⟩
  · rw [htoken, htoken']
    exact ⟨rfl, rfl, rfl, rfl, congrArg (reading.isOpen || ·) hcomment,
      hcomment⟩
  · rw [htoken, htoken']
    exact (shift_add fun y hy _ => hnone y hy).symm
  · have hbehind : ∀ y, (Token.behind offset items reading).start < y →
        p y = false := fun y hy =>
      hnone y (Nat.lt_of_le_of_lt (Nat.le_add_right _ _) hy)
    rw [htoken, hahead, hahead', withSemicolons_eq_self hbehind]

/-- What is read off the new text is the same token, if nothing is
inserted into it or in front of it. -/
theorem read_inserted
    (htext : text'.chars = withSemicolons p offset text.chars)
    (hgap : ∀ y, offset < y → y < (read offset text).token.stop →
      p y = false)
    (hend : (read offset text).token.kind = .endOfText →
      ∀ y, offset < y → p y = false)
    (hopen : (read offset text).token.isOpen = true →
      p (read offset text).token.stop = false) :
    Inserted p (read offset text) (read (shift p offset) text') := by
  by_cases hkind : (read offset text).token.kind = .endOfText
  · exact read_inserted_end htext hkind (hend hkind)
  obtain ⟨items, reading, rest, hopens⟩ := exists_opensWith text.chars
  obtain ⟨htoken, hahead, hrest⟩ := hopens.read offset
  have hchars := hopens.text_eq
  rw [htoken] at hgap hopen hkind
  have hraw : reading.raw ≠ [] := fun hraw =>
    hkind (hopens.kind_eq_iff.2 hraw)
  have hlength := byteLength_pos hraw
  have hstart : (Token.behind offset items reading).start
      = offset + byteLength (Trivia.charsOf items) := rfl
  have hstop : (Token.behind offset items reading).stop
      = offset + byteLength (Trivia.charsOf items)
        + byteLength reading.raw := rfl
  rw [hstop] at hgap hopen
  -- the new text departs from the text behind the token
  have hnew : text'.chars = Trivia.charsOf items ++ (reading.raw
      ++ (semicolonAt p (Token.behind offset items reading).stop
        ++ withSemicolons p (Token.behind offset items reading).stop
          rest)) := by
    have hne : Trivia.charsOf items ++ reading.raw ≠ [] := by simp [hraw]
    rw [htext, hchars, ← List.append_assoc, withSemicolons_append hne,
      byteLength_append, ← Nat.add_assoc, ← hstop, List.append_assoc]
    intro y hy hlt
    rw [byteLength_append] at hlt
    exact hgap y hy (by omega)
  have hcomment := hopens.openComment?_eq_none hraw
  have hnext := hopens.departs
    (departs_semicolonAt (Token.behind offset items reading).stop rest)
    hraw fun hreading => by
      have hnone := hopen (by simp [Token.behind, hreading])
      rw [← hstop] at hnone
      rw [semicolonAt_of_false hnone]
      cases rest <;> rfl
  obtain ⟨htoken', hahead', hrest'⟩ :=
    (hnew ▸ hnext).read (shift p offset)
  have hshift : shift p (offset + byteLength (Trivia.charsOf items))
      = shift p offset + byteLength (Trivia.charsOf items) :=
    shift_add fun y hy hle => hgap y hy (by omega)
  refine ⟨?_, ?_, ?_, fun _ => ?_, fun _ => ?_⟩
  · rw [htoken, htoken']
    simp only [Token.behind, hcomment]
    exact ⟨rfl, rfl, rfl, rfl, rfl, rfl⟩
  · rw [htoken, htoken', hstart, hshift]
    rfl
  · rw [htoken, hahead, hahead', hstart, withSemicolons_append hraw]
    · rfl
    · exact fun y hy hlt => hgap y (by omega) (by omega)
  · rw [htoken, htoken', hstop, settled_eq (by omega) hgap]
    simp only [Token.behind]
    omega
  · rw [htoken, hrest, hrest']

/-- A closed regular expression that nothing is inserted into is read again
in the new text. -/
theorem Inserted.asRegex {a b : Lexeme} (h : Inserted p a b)
    (hkind : a.token.kind.IsSlash) {more : List Char}
    (hahead : a.ahead.chars = '/' :: more)
    (hclosed : a.asRegex.token.isOpen = false)
    (hgap : ∀ y, a.token.start < y → y < a.asRegex.token.stop →
      p y = false) :
    Inserted p a.asRegex b.asRegex := by
  obtain ⟨s, closed, hread, -⟩ := RegexLiteral.exists_read more
  have hdrop : RegexLiteral.read (a.ahead.chars.drop 1)
      = ('/' :: s, closed) := by
    rw [hahead]
    exact hread
  have hregex := asRegex_of_isSlash hkind hdrop
  obtain ⟨x, hx⟩ := RegexLiteral.read_front more
  rw [hread] at hx
  simp only [List.cons_append, List.cons.injEq, true_and] at hx
  subst hx
  have hopen : a.token.isOpen = false ∧ closed = true := by
    rw [hregex] at hclosed
    simpa [Token.regex] using hclosed
  obtain ⟨hopen, rfl⟩ := hopen
  have hstop : a.asRegex.token.stop
      = a.token.start + byteLength ('/' :: s) := by
    rw [hregex]
    rfl
  rw [hstop] at hgap
  -- nothing is inserted inside the expression, so it stands in the second text
  -- as it is
  have hnew : b.ahead.chars = '/' :: (s
      ++ (semicolonAt p a.asRegex.token.stop
        ++ withSemicolons p a.asRegex.token.stop x)) := by
    rw [h.ahead_eq, hahead, ← List.cons_append,
      withSemicolons_append (List.cons_ne_nil _ _) hgap, ← hstop,
      List.cons_append]
  have hdrop' : RegexLiteral.read (b.ahead.chars.drop 1)
      = ('/' :: s, true) := by
    rw [hnew]
    exact RegexLiteral.read_congr
      (departs_semicolonAt a.asRegex.token.stop x) hread
  have hregex' := asRegex_of_isSlash (h.alike.kind_eq ▸ hkind) hdrop'
  -- the expression is not empty, hence its end lies behind its start on both
  -- sides
  have hlength : 0 < byteLength ('/' :: s) :=
    byteLength_pos (List.cons_ne_nil _ _)
  refine ⟨?_, ?_, ?_, fun _ => ?_, fun _ => ?_⟩
  · rw [hregex, hregex']
    exact ⟨rfl, rfl, h.alike.afterBreak_eq, h.alike.doc_eq,
      congrArg (· || !true) h.alike.isOpen_eq, h.alike.openComment_eq⟩
  · rw [hregex, hregex']
    exact h.start_eq
  · rw [hregex, hregex']
    exact h.ahead_eq
  · rw [hstop, settled_eq (by omega) hgap, hregex']
    simp only [Token.regex, h.start_eq]
    omega
  · have hbehind (y : List Char) :
        ('/' :: s ++ y).drop ('/' :: s).length = y := List.drop_left
    have hrest : a.asRegex.rest.chars = x := by
      rw [hregex]
      simp only [Stretch.drop, hahead]
      exact hbehind x
    rw [hrest, hregex']
    simp only [Stretch.drop, hnew]
    exact hbehind _

/-- Behind a token at a place there is the semicolon in the new text, and
behind that the text goes on. -/
theorem Inserted.next_semicolon {a b : Lexeme} (h : Inserted p a b)
    (hkind : a.token.kind ≠ .endOfText) (hplace : p a.token.stop = true) :
    b.next.token.kind = Punctuator.semicolon
      ∧ b.next.token.stop = shift p a.token.stop
      ∧ b.next.rest.chars
        = withSemicolons p a.token.stop a.rest.chars := by
  have hopens := opensWith_semicolon
    (withSemicolons p a.token.stop a.rest.chars)
  rw [← List.singleton_append, ← semicolonAt_of_true hplace,
    ← h.rest_eq hkind] at hopens
  obtain ⟨htoken, -, hbehind⟩ := hopens.read b.token.stop
  refine ⟨?_, ?_, hbehind⟩
  · exact congrArg Token.kind htoken
  · have hstop := congrArg Token.stop htoken
    rw [shift_eq, ← h.stop_eq hkind]
    exact hstop

/-- Behind which character a piece of text ends that does not end in a
carriage return. -/
theorem exists_last {raw : List Char} (hraw : raw ≠ [])
    (hlast : raw.getLast? ≠ some '\r') (front rest : List Char) :
    ∃ a c b, front ++ (raw ++ rest) = a ++ c :: b
      ∧ byteLength front + byteLength raw = byteLength a + c.utf8Size
      ∧ c ≠ '\r' := by
  obtain ⟨init, c, rfl⟩ := (List.eq_nil_or_concat raw).resolve_left hraw
  rw [List.concat_eq_append] at hlast ⊢
  refine ⟨front ++ init, c, rest, by simp, ?_, ?_⟩
  · simp [Nat.add_assoc]
  · rintro rfl
    exact hlast List.getLast?_concat

/-- A token that is in order ends behind a character that is no carriage
return. -/
theorem exists_last_read {before cs : List Char}
    (h : before ++ text.chars = cs)
    (hend : (read (byteLength before) text).token.kind ≠ .endOfText)
    (hknown : (read (byteLength before) text).token.kind ≠ .unknown)
    (hclosed : (read (byteLength before) text).token.isOpen = false) :
    ∃ a c b, cs = a ++ c :: b
      ∧ (read (byteLength before) text).token.stop
        = byteLength a + c.utf8Size
      ∧ c ≠ '\r' := by
  obtain ⟨items, reading, rest, hopens⟩ := exists_opensWith text.chars
  obtain ⟨htoken, -, -⟩ := hopens.read (byteLength before)
  rw [htoken] at hend hknown hclosed ⊢
  have hof := hopens.reading_eq
  have hlast : reading.raw.getLast? ≠ some '\r' := by
    rw [← hof]
    refine Token.Reading.getLast?_ne ?_ ?_
    · rwa [hof]
    · rw [hof]
      exact (Bool.or_eq_false_iff.1 hclosed).1
  obtain ⟨a, c, b, hcs, hstop, hne⟩ := exists_last
    (fun hraw => hend (hopens.kind_eq_iff.2 hraw)) hlast
    (before ++ Trivia.charsOf items) rest
  refine ⟨a, c, b, ?_, ?_, hne⟩
  · rw [← h, hopens.text_eq, ← hcs, List.append_assoc]
  · rw [← hstop, byteLength_append]
    rfl

/-- A regular expression that is closed ends behind a character that is no
carriage return. -/
theorem exists_last_asRegex {cs : List Char} {lexeme : Lexeme}
    (h : lexeme.LiesIn cs) (hkind : lexeme.token.kind.IsSlash)
    (hclosed : lexeme.asRegex.token.isOpen = false) :
    ∃ a c b, cs = a ++ c :: b
      ∧ lexeme.asRegex.token.stop = byteLength a + c.utf8Size
      ∧ c ≠ '\r' := by
  obtain ⟨before, items, raw, hcut⟩ := h
  rcases hcut.asRegex with hsame | hregex
  · have hkind' := kind_asRegex hkind
    rw [hsame] at hkind'
    rcases hkind with hkind | hkind <;> rw [hkind] at hkind' <;> cases hkind'
  have hregular
      (h : (RegexLiteral.read (lexeme.ahead.chars.drop 1)).2 = true) :=
    RegexLiteral.getLast?_ne h
  have hne : (RegexLiteral.read (lexeme.ahead.chars.drop 1)).1 ≠ [] := by
    simp [RegexLiteral.read]
  rcases hread : RegexLiteral.read (lexeme.ahead.chars.drop 1) with
    ⟨raw', closed⟩
  rw [hread] at hregex hregular hne
  rw [asRegex_of_isSlash hkind hread] at hclosed
  have hclosed : closed = true := by
    simpa using (Bool.or_eq_false_iff.1 hclosed).2
  obtain ⟨a, c, b, hcs, hstop, hlast⟩ := exists_last hne (hregular hclosed)
    (before ++ Trivia.charsOf items) lexeme.asRegex.rest.chars
  refine ⟨a, c, b, ?_, ?_, hlast⟩
  · rw [← hregex.text_eq, ← hregex.ahead_eq, ← hcs, List.append_assoc]
  · rw [hregex.stop_eq, hregex.start_eq, ← hstop, byteLength_append]

end Lexeme

end ScriptLint
