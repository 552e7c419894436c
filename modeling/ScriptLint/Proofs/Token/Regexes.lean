/-
A slash read again. Where an operand is expected, a slash begins a regular
expression, and the expression ends at the next slash that stands in no
class and behind no backslash. The text up to there has a form that can be
said without reading it (`RegexLiteral.IsDelimited`): a sequence of
escapes, of classes in brackets, which may contain slashes, and of other
characters. The reading is closed exactly if the text from the slash on
begins with such a form, and then takes the shortest, with the flags that
follow it; if there is none, it stops at the end of the line
(`Lexeme.asRegex_unread`).

Going through a body, the reading only knows whether it is within a class,
and with this the forms of what is still to come are told apart
(`RegexLiteral.GoesOn`).

# The argument

- The reading has two states, within a class and outside. `GoesOn` says in
  either state which texts close it, and is built up like the reading goes
  (`exists_of_body`).
- A text that goes on in such a way makes the reading close at its end, and
  no earlier. So the reading stops at the shortest delimited front, if
  there is one.
- Flags are a run of identifier characters behind the slash.
-/
import ScriptLint.Proofs.Token.Spelling

namespace ScriptLint

open Text

/-- The shortest front of a text that is as `p` says. -/
structure IsShortest (p : List Char → Prop) (front cs : List Char) :
    Prop where
  isPrefix : front <+: cs
  holds : p front
  le_length : ∀ other, other <+: cs → p other →
    front.length ≤ other.length

namespace RegexLiteral

-- =============================================================== forms

/-- What may stand in the brackets of a class: escapes, and characters but
for the closing bracket and the backslash. -/
inductive IsClass : List Char → Prop where
  | nil : IsClass []
  | escape {c : Char} {cs : List Char} : isLineBreak c = false →
    IsClass cs → IsClass ('\\' :: c :: cs)
  | char {c : Char} {cs : List Char} : c ≠ ']' → c ≠ '\\' →
    isLineBreak c = false → IsClass cs → IsClass (c :: cs)

/-- What may stand between the slashes: escapes, classes, and characters
but for the slash, the opening bracket and the backslash. -/
inductive IsBody : List Char → Prop where
  | nil : IsBody []
  | escape {c : Char} {cs : List Char} : isLineBreak c = false →
    IsBody cs → IsBody ('\\' :: c :: cs)
  | brackets {inner cs : List Char} : IsClass inner → IsBody cs →
    IsBody ('[' :: (inner ++ ']' :: cs))
  | char {c : Char} {cs : List Char} : c ≠ '/' → c ≠ '[' → c ≠ '\\' →
    isLineBreak c = false → IsBody cs → IsBody (c :: cs)

/-- A regular expression without flags. -/
def IsDelimited (cs : List Char) : Prop :=
  ∃ inner, IsBody inner ∧ cs = '/' :: (inner ++ ['/'])

/-- How a body may go on, within a class or outside of any. -/
def GoesOn : Bool → List Char → Prop
  | false, cs => IsBody cs
  | true, cs => ∃ inner more, IsClass inner ∧ IsBody more
    ∧ cs = inner ++ ']' :: more

variable {inClass : Bool} {c : Char} {cs inner raw : List Char}

theorem GoesOn.escape (hc : isLineBreak c = false) (h : GoesOn inClass cs) :
    GoesOn inClass ('\\' :: c :: cs) := by
  cases inClass with
  | false => exact IsBody.escape hc h
  | true =>
      obtain ⟨inner, more, hinner, hmore, rfl⟩ := h
      exact ⟨_, more, .escape hc hinner, hmore, rfl⟩

theorem GoesOn.openBracket (h : GoesOn true cs) :
    GoesOn inClass ('[' :: cs) := by
  obtain ⟨inner, more, hinner, hmore, rfl⟩ := h
  cases inClass with
  | false => exact IsBody.brackets hinner hmore
  | true =>
      exact ⟨'[' :: inner, more, .char (by decide) (by decide) rfl hinner,
        hmore, rfl⟩

theorem GoesOn.closeBracket (h : IsBody cs) : GoesOn inClass (']' :: cs) := by
  cases inClass with
  | false =>
      exact IsBody.char (by decide) (by decide) (by decide) rfl h
  | true => exact ⟨[], cs, .nil, h, rfl⟩

theorem GoesOn.char (hslash : (c == '/' && !inClass) = false)
    (hopen : c ≠ '[') (hclose : c ≠ ']') (hescape : c ≠ '\\')
    (hbreak : isLineBreak c = false) (h : GoesOn inClass cs) :
    GoesOn inClass (c :: cs) := by
  cases inClass with
  | false => exact IsBody.char (by simpa using hslash) hopen hescape hbreak h
  | true =>
      obtain ⟨inner, more, hinner, hmore, rfl⟩ := h
      exact ⟨c :: inner, more, .char hclose hescape hbreak hinner, hmore,
        rfl⟩

-- ============================================================= readings

/-- What is read as closed has the form of a body, and a slash behind
it. -/
theorem exists_of_body (h : body inClass cs = (raw, true)) :
    ∃ inner, GoesOn inClass inner ∧ raw = inner ++ ['/'] := by
  fun_induction body inClass cs generalizing raw with
  | case1 => cases h
  | case2 => cases h
  | case3 inClass c cs hbreak raw closed hrun ih =>
      cases h
      obtain ⟨inner, hinner, rfl⟩ := ih hrun
      exact ⟨_, hinner.escape (by simpa using hbreak), rfl⟩
  | case4 => cases h
  | case5 inClass c cs _ hbreak hclose =>
      cases h
      simp only [Bool.and_eq_true, beq_iff_eq, Bool.not_eq_true'] at hclose
      rw [hclose.1, hclose.2]
      exact ⟨[], IsBody.nil, rfl⟩
  | case6 inClass c cs hnext hbreak hclose inClass' raw closed hrun =>
      rename_i ih
      cases h
      obtain ⟨inner, hinner, rfl⟩ := ih hrun
      refine ⟨c :: inner, ?_, rfl⟩
      -- a backslash with nothing behind it leaves the literal open
      have hescape : c ≠ '\\' := by
        rintro rfl
        cases cs with
        | nil => cases congrArg Prod.snd hrun
        | cons d ds => exact hnext d ds rfl rfl
      by_cases hopen : c = '['
      · subst hopen
        exact hinner.openBracket
      by_cases hshut : c = ']'
      · subst hshut
        exact .closeBracket hinner
      · have hsame : inClass' = inClass := by simp [inClass', hopen, hshut]
        rw [hsame] at hinner
        exact hinner.char (by simpa using hclose) hopen hshut hescape
          (by simpa using hbreak)

/-- Characters but for backslashes, line breaks and the slash that closes
are read one by one. -/
theorem body_cons (next : Bool) (hescape : c ≠ '\\')
    (hbreak : isLineBreak c = false) (hslash : (c == '/' && !inClass) = false)
    (hnext : (if c == '[' then true else if c == ']' then false else inClass)
      = next) (cs : List Char) :
    body inClass (c :: cs) = (c :: (body next cs).1, (body next cs).2) := by
  rw [body.eq_3 _ _ _ fun _ _ h => absurd h hescape, hbreak,
    if_neg Bool.false_ne_true, hslash, if_neg Bool.false_ne_true, hnext]

theorem body_escape (hc : isLineBreak c = false) (cs : List Char) :
    body inClass ('\\' :: c :: cs)
      = ('\\' :: c :: (body inClass cs).1, (body inClass cs).2) := by
  rw [body, hc, if_neg Bool.false_ne_true]

/-- Within a class everything up to its end is read, slashes too. -/
theorem body_class (h : IsClass inner) (cs : List Char) :
    body true (inner ++ ']' :: cs)
      = (inner ++ ']' :: (body false cs).1, (body false cs).2) := by
  induction h with
  | nil => exact body_cons false (by decide) rfl rfl rfl cs
  | escape hc _ ih =>
      rw [List.cons_append, List.cons_append, body_escape hc, ih]
      rfl
  | char hclose hescape hbreak _ ih =>
      rw [List.cons_append,
        body_cons true hescape hbreak (by simp) (by simp [hclose]), ih]
      rfl

/-- What has the form of a body is read up to the slash behind it. -/
theorem body_append (h : IsBody inner) (cs : List Char) :
    body false (inner ++ '/' :: cs) = (inner ++ ['/'], true) := by
  induction h with
  | nil => rfl
  | escape hc _ ih =>
      rw [List.cons_append, List.cons_append, body_escape hc, ih]
      rfl
  | brackets hclass _ ih =>
      rw [List.cons_append, List.append_assoc, List.cons_append,
        body_cons true (by decide) rfl rfl rfl, body_class hclass, ih]
      simp
  | char hslash hopen hescape hbreak _ ih =>
      rw [List.cons_append,
        body_cons false hescape hbreak (by simp [hslash]) (by simp [hopen]),
        ih]
      rfl

/-- What is not closed is read to the end of the line. -/
theorem body_eq_takeWhile (h : (body inClass cs).2 = false) :
    (body inClass cs).1 = cs.takeWhile fun c => !isLineBreak c := by
  fun_induction body inClass cs with
  | case1 => rfl
  | case2 inClass c cs hbreak =>
      have hescape : isLineBreak '\\' = false := rfl
      simp [hescape, hbreak]
  | case3 inClass c cs hbreak raw closed hrun ih =>
      have hescape : isLineBreak '\\' = false := rfl
      rw [hrun] at ih
      have hraw := ih h
      dsimp only at hraw
      simp [hescape, hbreak, hraw]
  | case4 inClass c cs _ hbreak => simp [hbreak]
  | case5 inClass c cs _ hbreak hclose => cases h
  | case6 inClass c cs hnext hbreak hclose inClass' raw closed hrun =>
      rename_i ih
      rw [hrun] at ih
      have hraw := ih h
      dsimp only at hraw
      simp [hbreak, hraw]

-- ============================================================ literals

/-- A text that begins with a slash begins with a literal exactly if what
is behind the slash is read as closed, and with no other than the one that
is read. -/
theorem isDelimited_iff {front : List Char} :
    front <+: '/' :: cs ∧ IsDelimited front
      ↔ (body false cs).2 = true ∧ front = '/' :: (body false cs).1 := by
  constructor
  · rintro ⟨⟨rest, hrest⟩, inner, hinner, rfl⟩
    have hcs : inner ++ '/' :: rest = cs := by simpa using hrest
    rw [← hcs, body_append hinner]
    exact ⟨rfl, rfl⟩
  · rintro ⟨hclosed, rfl⟩
    obtain ⟨inner, hinner, hraw⟩ := exists_of_body (Prod.ext rfl hclosed)
    exact ⟨List.cons_prefix_cons.2 ⟨rfl, body_front false cs⟩, inner,
      hinner, congrArg ('/' :: ·) hraw⟩

theorem read_closed_iff : (read cs).2 = true
    ↔ ∃ front, front <+: '/' :: cs ∧ IsDelimited front :=
  ⟨fun h => ⟨_, isDelimited_iff.2 ⟨h, rfl⟩⟩,
    fun ⟨_, hfront⟩ => (isDelimited_iff.1 hfront).1⟩

/-- A closed literal is the shortest at the front of the text, with the
flags that follow it. -/
theorem read_of_closed (h : (read cs).2 = true) : ∃ front flags rest,
    (read cs).1 = front ++ flags ∧ '/' :: cs = front ++ rest
      ∧ IsShortest IsDelimited front ('/' :: cs)
      ∧ IsLongest (fun cs => ∀ c ∈ cs, isIdentifierPart c = true) flags
        rest := by
  obtain ⟨hfront, hdelimited⟩ := isDelimited_iff.2 ⟨h, rfl⟩
  refine ⟨'/' :: (body false cs).1, _, cs.drop (body false cs).1.length, rfl,
    ?_, ⟨hfront, hdelimited, fun other hother hform => ?_⟩,
    isLongest_takeWhile _ _⟩
  · exact congrArg ('/' :: ·)
      (List.prefix_iff_eq_append.1 (body_front false cs)).symm
  · rw [(isDelimited_iff.1 ⟨hother, hform⟩).2]

/-- An open literal is all that is left of the line. -/
theorem read_of_open (h : (read cs).2 = false) :
    IsLongest (fun cs => ∀ c ∈ cs, isLineBreak c = false) (read cs).1
      ('/' :: cs) := by
  have hbody : (body false cs).1 = cs.takeWhile fun c => !isLineBreak c :=
    body_eq_takeWhile h
  have hflags : (cs.dropWhile fun c => !isLineBreak c).takeWhile
      isIdentifierPart = [] := by
    have hhead := List.head?_dropWhile_not (fun c => !isLineBreak c) cs
    cases hrest : cs.dropWhile fun c => !isLineBreak c with
    | nil => rfl
    | cons c rest =>
        rw [hrest] at hhead
        have hbreak : isLineBreak c = true := by simpa using hhead
        simp [isIdentifierPart_of_isLineBreak hbreak]
  have hread : (read cs).1
      = ('/' :: cs).takeWhile fun c => !isLineBreak c := by
    show '/' :: (body false cs).1
      ++ (cs.drop (body false cs).1.length).takeWhile isIdentifierPart = _
    rw [hbody, drop_length_takeWhile, hflags, List.append_nil]
    rfl
  rw [hread]
  simpa using isLongest_takeWhile (fun c => !isLineBreak c) ('/' :: cs)

end RegexLiteral

-- ============================================================== tokens

namespace Lexeme

variable {text : String} {again : Nat → Bool} {n : Nat}

/-- Where a slash is read, the text goes on with it, and what becomes of it
when it is read again depends on what is behind it. -/
theorem exists_regex_unread
    (h : (unread text again n).token.kind.IsSlash) : ∃ front cs,
      text.toList = front ++ '/' :: cs
        ∧ (unread text again n).token.start = byteLength front
        ∧ (unread text again n).token.isOpen = false
        ∧ (unread text again n).asRegex.token
          = (unread text again n).token.regex (RegexLiteral.read cs).1
            (RegexLiteral.read cs).2 := by
  obtain ⟨front, reading, rest, hread⟩ :=
    exists_isReadOff_unread text again n
  have hfront := Token.Reading.of_frontOf (reading.raw ++ rest)
  have hplain := Token.Reading.of_plainly (reading.raw ++ rest)
  have hkind := h
  rw [hread.reading_eq] at hfront hplain
  rw [hread.kind_eq] at hkind
  -- cs := by :: both operators are written with a slash in front
  obtain ⟨cs, hcs⟩ : ∃ cs, reading.raw ++ rest = '/' :: cs := by
    rcases hkind with hkind | hkind
    · obtain ⟨more, hmore⟩ := hfront.mark_front _ hkind
      exact ⟨more, hmore.symm⟩
    · obtain ⟨more, hmore⟩ := hfront.mark_front _ hkind
      exact ⟨'=' :: more, hmore.symm⟩
  have hraw : reading.raw ≠ [] := hfront.raw_ne_nil (by simp [hcs])
  have hstring : reading.kind ≠ .string := by
    rcases hkind with hkind | hkind <;> simp [hkind]
  refine ⟨front, cs, ?_, hread.start_eq,
    (hread.isOpen_eq hraw).trans (hplain.closed hstring), ?_⟩
  · rw [← hcs, hread.text_eq]
  · have hagain : RegexLiteral.read
        ((unread text again n).ahead.chars.drop 1)
          = ((RegexLiteral.read cs).1, (RegexLiteral.read cs).2) := by
      rw [hread.ahead_eq, hcs]
      rfl
    rw [asRegex_of_isSlash h hagain]

/-- A slash that is read again is a regular expression in its place. It is
closed exactly if the text from there on begins with a literal that is, and
is then the shortest of them with the flags that follow it. Else it is all
that is left of the line. -/
theorem asRegex_unread (h : (unread text again n).token.kind.IsSlash) :
    let slash := (unread text again n).token
    let token := (unread text again n).asRegex.token
    ∃ front ahead,
      splitAtByte? slash.start text.toList = some (front, ahead)
        ∧ token.kind = .regex ∧ token.start = slash.start
        ∧ slice? text.toList token.start token.stop
          = some token.value.toList
        ∧ (token.isOpen = false
          ↔ ∃ literal, literal <+: ahead ∧ RegexLiteral.IsDelimited literal)
        ∧ (token.isOpen = false → ∃ literal flags rest,
          token.value.toList = literal ++ flags ∧ ahead = literal ++ rest
            ∧ IsShortest RegexLiteral.IsDelimited literal ahead
            ∧ IsLongest (fun cs => ∀ c ∈ cs, isIdentifierPart c = true)
              flags rest)
        ∧ (token.isOpen = true →
          IsLongest (fun cs => ∀ c ∈ cs, isLineBreak c = false)
            token.value.toList ahead) := by
  dsimp only
  obtain ⟨front, cs, htext, hstart, hopen, hregex⟩ := exists_regex_unread h
  -- the token is read off what stands behind the slash, whatever it was before
  have hclosed : (unread text again n).asRegex.token.isOpen
      = !(RegexLiteral.read cs).2 := by
    rw [hregex, Token.regex, hopen, Bool.false_or]
  have hvalue : (unread text again n).asRegex.token.value.toList
      = (RegexLiteral.read cs).1 := by
    rw [hregex]
    exact String.toList_ofList
  rw [hclosed, hvalue]
  refine ⟨front, '/' :: cs, ?_, by rw [hregex]; rfl, by rw [hregex]; rfl,
    ?_, ?_, fun h => RegexLiteral.read_of_closed (by simpa using h),
    fun h => RegexLiteral.read_of_open (by simpa using h)⟩
  · rw [htext, hstart, splitAtByte?_append]
  · obtain ⟨rest, hrest⟩ := RegexLiteral.read_front cs
    rw [hregex, htext, ← hrest]
    show slice? _ (unread text again n).token.start
      ((unread text again n).token.start + _) = _
    rw [hstart, slice?_append]
  · rw [Bool.not_eq_false']
    exact RegexLiteral.read_closed_iff

/-- In `x = /=[/\]]+\//gi;` neither the slash in the class nor the one
behind the backslash ends the literal, and its flags belong to it. -/
theorem asRegex_unread_flags :
    let lexeme := unread "x = /=[/\\]]+\\//gi;" (fun _ => false) 2
    lexeme.token.kind.IsSlash
      ∧ lexeme.asRegex.token.value = "/=[/\\]]+\\//gi"
      ∧ ∃ literal flags ahead,
        lexeme.asRegex.token.value.toList = literal ++ flags
          ∧ IsShortest RegexLiteral.IsDelimited literal ahead := by
  have hkind : (unread "x = /=[/\\]]+\\//gi;" (fun _ => false)
      2).token.kind.IsSlash := .inr (by decide +kernel)
  refine ⟨hkind, by decide +kernel, ?_⟩
  obtain ⟨front, ahead, -, -, -, -, -, hclosed, -⟩ := asRegex_unread hkind
  obtain ⟨literal, flags, rest, hvalue, -, hshortest, -⟩ :=
    hclosed (by decide +kernel)
  exact ⟨literal, flags, ahead, hvalue, hshortest⟩

end Lexeme

end ScriptLint
