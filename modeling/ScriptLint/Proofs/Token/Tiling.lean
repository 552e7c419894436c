/-
The tokens of a text tile it. Each begins, with the trivia in front of
it, where the one before ends; the first begins at the first byte, and
the one that says that the text has ended ends at the last. Nothing is
lost in between, nothing is read twice, and no token begins or ends
within a character.

A lexeme lies in a text when the text can be cut into what comes before,
the trivia, the token and the rest, in such a way that the token's
places are the byte lengths of these pieces (`Lexeme.LiesIn`). Whatever
stands at the front of a text, its reading is taken off that front
(`Token.Reading.FrontOf`), so the next lexeme lies in the text again, and
so does a slash that is read as a regular expression. That the pieces in
front of a token are trivia is said of each with what follows it, since a
line comment goes up to the line end and a block comment up to its first
close, or else to the end of the text (`Trivia.Proper`).

# What other files use

- `LiesIn`: a lexeme has its place in a text. `first_liesIn`, `LiesIn.next`
  and `LiesIn.asRegex` are the steps, `nth_liesIn` is the run.
- `LiesIn.exists_before`: what comes in front of the rest of the text.
- `asRegex_eq_or`: reading again does nothing, or makes a regular
  expression of a slash in its place.
-/
import ScriptLint.Proofs.Runs
import ScriptLint.Token

namespace ScriptLint

open Text

-- ============================================================== trivia

namespace Trivia

/-- The two characters that close a block comment. -/
def blockClose : List Char := ['*', '/']

/-- Whether an item is what it is called, with `rest` behind it. -/
def IsProper : Trivia → List Char → Prop
  | .blanks run, _ => run ≠ [] ∧ ∀ c ∈ run, isBlank c = true
  | .lineBreak c, _ => isLineBreak c = true
  | .lineComment body, rest => (∀ c ∈ body, isLineEnd c = false)
      ∧ ∀ c ∈ rest.head?, isLineEnd c = true
  | .blockComment body true, _ => ¬ blockClose <:+: body
  | .blockComment body false, rest => ¬ blockClose <:+: body ∧ rest = []

/-- Whether all items are what they are called, with `rest` behind the
last. -/
def Proper : List Trivia → List Char → Prop
  | [], _ => True
  | item :: items, rest =>
    item.IsProper (charsOf items ++ rest) ∧ Proper items rest

/-- A text that does not begin with a close has one only further on. -/
theorem not_blockClose_infix_cons {c : Char} {cs : List Char}
    (hne : ∀ ds, c = '*' → cs ≠ '/' :: ds) (h : ¬ blockClose <:+: cs) :
    ¬ blockClose <:+: c :: cs := by
  rw [List.infix_cons_iff, not_or]
  refine ⟨fun hfront => ?_, h⟩
  obtain ⟨hstar, hmore⟩ := List.cons_prefix_cons.1 hfront
  obtain ⟨ds, hds⟩ := hmore
  exact hne ds hstar.symm hds.symm

/-- The body of a closed comment ends at the first close. -/
theorem not_infix_of_blockBody? {cs body rest : List Char}
    (h : Comment.blockBody? cs = some (body, rest)) :
    ¬ blockClose <:+: body := by
  fun_induction Comment.blockBody? cs generalizing body with
  | case1 => cases h
  | case2 cs =>
      simp only [Option.some.injEq, Prod.mk.injEq] at h
      rw [← h.1, List.infix_nil]
      exact List.cons_ne_nil _ _
  | case3 c cs hopen ih =>
      obtain ⟨⟨body', rest'⟩, hbody, heq⟩ := Option.map_eq_some_iff.1 h
      simp only [Prod.mk.injEq] at heq
      obtain ⟨rfl, rfl⟩ := heq
      refine not_blockClose_infix_cons (fun ds hc hds => ?_) (ih hbody)
      have hcs := Comment.eq_of_blockBody? hbody
      rw [hds, List.cons_append] at hcs
      exact hopen _ hc hcs

/-- An open comment has no close. -/
theorem not_infix_of_blockBody?_eq_none {cs : List Char}
    (h : Comment.blockBody? cs = none) : ¬ blockClose <:+: cs := by
  fun_induction Comment.blockBody? cs with
  | case1 =>
      rw [List.infix_nil]
      exact List.cons_ne_nil _ _
  | case2 cs => cases h
  | case3 c cs hopen ih =>
      exact not_blockClose_infix_cons (fun ds hc hds => hopen ds hc hds)
        (ih (Option.map_eq_none_iff.1 h))

/-- The item that is cut off is what it is called. -/
theorem isProper_of_first? {cs rest : List Char} {item : Trivia}
    (h : first? cs = some (item, rest)) : item.IsProper rest := by
  unfold first? at h
  split at h
  · cases h
  · rename_i cs
    simp only [Option.some.injEq, Prod.mk.injEq] at h
    obtain ⟨rfl, rfl⟩ := h
    -- a line comment goes as far as the line, so a line end is all that may
    -- follow
    refine ⟨fun c hc => by simpa using List.mem_takeWhile_imp hc,
      fun c hc => ?_⟩
    have hhead := List.head?_dropWhile_not (fun c => !isLineEnd c) cs
    rw [Comment.afterLine, Option.mem_def] at hc
    rw [hc] at hhead
    simpa using hhead
  · split at h
    · rename_i hbody
      simp only [Option.some.injEq, Prod.mk.injEq] at h
      obtain ⟨rfl, rfl⟩ := h
      exact not_infix_of_blockBody? hbody
    · rename_i hbody
      simp only [Option.some.injEq, Prod.mk.injEq] at h
      obtain ⟨rfl, rfl⟩ := h
      exact ⟨not_infix_of_blockBody?_eq_none hbody, rfl⟩
  · split at h
    · rename_i hbreak
      simp only [Option.some.injEq, Prod.mk.injEq] at h
      obtain ⟨rfl, rfl⟩ := h
      exact hbreak
    · split at h
      · rename_i hblank
        simp only [Option.some.injEq, Prod.mk.injEq] at h
        obtain ⟨rfl, rfl⟩ := h
        refine ⟨List.cons_ne_nil _ _, List.forall_mem_cons.2
          ⟨hblank, fun c hc => List.mem_takeWhile_imp hc⟩⟩
      · cases h

/-- What is cut off as trivia is trivia. -/
theorem proper_split (cs : List Char) :
    Proper (split cs).1 (split cs).2 := by
  fun_induction split cs with
  | case1 => trivial
  | case2 cs item rest h items rest' hs ih =>
      have hrest := charsOf_append_split rest
      rw [hs] at hrest ih
      refine ⟨?_, ih⟩
      rw [hrest]
      exact isProper_of_first? h

end Trivia

-- ============================================================ literals

theorem NumberLiteral.fraction_front (cs : List Char) :
    fraction cs <+: cs := by
  unfold fraction
  split
  · exact List.cons_prefix_cons.2 ⟨rfl, List.takeWhile_prefix _⟩
  · exact List.nil_prefix

theorem NumberLiteral.exponent_front (cs : List Char) :
    exponent cs <+: cs := by
  unfold exponent
  split
  · rename_i e cs
    dsimp only
    split
    · split
      · rename_i sign ds
        split
        · split
          · exact List.nil_prefix
          · refine List.cons_prefix_cons.2 ⟨rfl, ?_⟩
            exact List.cons_prefix_cons.2 ⟨rfl, List.takeWhile_prefix _⟩
        · split
          · exact List.nil_prefix
          · exact List.cons_prefix_cons.2 ⟨rfl, List.takeWhile_prefix _⟩
      · exact List.nil_prefix
    · exact List.nil_prefix
  · exact List.nil_prefix

/-- A piece off the front of what another piece leaves. -/
theorem prefix_append_drop {cs front more : List Char} (h : front <+: cs)
    (hmore : more <+: cs.drop front.length) : front ++ more <+: cs := by
  obtain ⟨rest, rfl⟩ := h
  rw [List.drop_left] at hmore
  exact (List.prefix_append_right_inj front).2 hmore

theorem NumberLiteral.decimal_front (cs : List Char) :
    decimal cs <+: cs := by
  unfold decimal
  dsimp only
  rw [List.append_assoc]
  refine prefix_append_drop (List.takeWhile_prefix _) ?_
  rw [drop_length_takeWhile]
  exact prefix_append_drop (fraction_front _) (exponent_front _)

/-- A number is a piece off the front of the text. -/
theorem NumberLiteral.read_front (cs : List Char) : read cs <+: cs := by
  unfold read
  split
  · split
    · refine List.cons_prefix_cons.2 ⟨rfl, ?_⟩
      exact List.cons_prefix_cons.2 ⟨rfl, List.takeWhile_prefix _⟩
    · exact decimal_front _
  · exact decimal_front _

/-- What begins like a number is not an empty one. -/
theorem NumberLiteral.read_ne_nil {cs : List Char}
    (h : startsAt cs = true) : read cs ≠ [] := by
  have hdecimal : ∀ ds, startsAt ds = true → decimal ds ≠ [] := by
    intro ds hds
    unfold startsAt at hds
    split at hds
    · rw [decimal]
      simp [isDigit, fraction]
    · rw [decimal]
      simp [hds]
    · cases hds
  unfold read
  split
  · split
    · exact List.cons_ne_nil _ _
    · exact hdecimal _ h
  · exact hdecimal _ h

/-- The body of a regular expression is a piece off the front of the
text. -/
theorem RegexLiteral.body_front (inClass : Bool) (cs : List Char) :
    (body inClass cs).1 <+: cs := by
  fun_induction body inClass cs with
  | case1 => exact List.nil_prefix
  | case2 =>
      exact List.cons_prefix_cons.2 ⟨rfl, List.nil_prefix⟩
  | case3 inClass c cs hbreak raw closed hrun ih =>
      rw [hrun] at ih
      refine List.cons_prefix_cons.2 ⟨rfl, ?_⟩
      exact List.cons_prefix_cons.2 ⟨rfl, ih⟩
  | case4 => exact List.nil_prefix
  | case5 => exact List.cons_prefix_cons.2 ⟨rfl, List.nil_prefix⟩
  | case6 inClass c cs _ hbreak hclose inClass' raw closed hrun ih =>
      rw [hrun] at ih
      exact List.cons_prefix_cons.2 ⟨rfl, ih⟩

/-- With its flags, a regular expression is a piece off the front of the
text that its opening slash begins. -/
theorem RegexLiteral.read_front (cs : List Char) :
    (read cs).1 <+: '/' :: cs := by
  unfold read
  dsimp only
  rw [List.cons_append]
  refine List.cons_prefix_cons.2 ⟨rfl, ?_⟩
  exact prefix_append_drop (body_front false cs) (List.takeWhile_prefix _)

-- ============================================================ readings

namespace Token.Reading

/-- A reading is taken off the front of a text. It is empty only at the
end of the text, and there alone it says that the text has ended. A
punctuator is what the text begins with. -/
structure FrontOf (cs : List Char) (reading : Reading) : Prop where
  raw_front : reading.raw <+: cs
  raw_ne_nil : cs ≠ [] → reading.raw ≠ []
  kind_eq_iff : reading.kind = .endOfText ↔ cs = []
  mark_front (p : Punctuator) :
    reading.kind = .punctuator p → p.text.toList <+: cs

variable {c : Char} {cs : List Char}

/-- A reading of a kind that has neither to do with the end of the text
nor with punctuators. -/
theorem frontOf_of_kind {reading : Reading}
    (hraw : reading.raw <+: c :: cs) (hne : reading.raw ≠ [])
    (hend : reading.kind ≠ .endOfText)
    (hmark : ∀ p, reading.kind ≠ .punctuator p) :
    reading.FrontOf (c :: cs) where
  raw_front := hraw
  raw_ne_nil _ := hne
  kind_eq_iff := by simp [hend]
  mark_front p hp := absurd hp (hmark p)

theorem string_frontOf (quote : Char) (cs : List Char) :
    (string quote cs).FrontOf (quote :: cs) := by
  have hcut := StringLiteral.rawOf_append_parts quote cs
  unfold string
  cases hparts : StringLiteral.parts quote cs with
  | mk parts rest =>
      rw [hparts] at hcut
      refine frontOf_of_kind ?_ (by simp) (by simp) (by simp)
      refine List.cons_prefix_cons.2 ⟨rfl, ?_⟩
      rw [← hcut]
      refine (List.prefix_append_right_inj _).2 ?_
      split
      · rename_i hclosed
        obtain ⟨more, rfl⟩ := List.head?_eq_some_iff.1 (eq_of_beq hclosed)
        exact ⟨more, rfl⟩
      · exact List.nil_prefix

theorem number_frontOf (h : NumberLiteral.startsAt (c :: cs) = true) :
    (number (c :: cs)).FrontOf (c :: cs) :=
  frontOf_of_kind (NumberLiteral.read_front _)
    (NumberLiteral.read_ne_nil h) nofun nofun

theorem word_frontOf (h : isIdentifierStart c = true) :
    (word (c :: cs)).FrontOf (c :: cs) := by
  have hpart : isIdentifierPart c = true := by simp [isIdentifierPart, h]
  unfold word
  refine frontOf_of_kind (List.takeWhile_prefix _) (by simp [hpart]) ?_ ?_
  · dsimp only
    split <;> nofun
  · dsimp only
    split <;> nofun

theorem mark_frontOf (c : Char) (cs : List Char) :
    (mark c cs).FrontOf (c :: cs) := by
  unfold mark
  split
  · rename_i p hp
    have hfront : p.text.toList <+: c :: cs :=
      List.isPrefixOf_iff_prefix.1 (List.find?_some hp :)
    refine ⟨hfront, fun _ => ?_, by simp, fun q hq => ?_⟩
    · cases p <;> decide
    · rw [← TokenKind.punctuator.inj hq]
      exact hfront
  · exact frontOf_of_kind ⟨cs, rfl⟩ (List.cons_ne_nil _ _) nofun nofun

/-- Whatever stands at the front of a text, its reading is taken off that
front. -/
theorem of_frontOf (cs : List Char) : (of cs).FrontOf cs := by
  cases cs with
  | nil => exact ⟨List.nil_prefix, (absurd rfl ·), by simp [of], nofun⟩
  | cons c cs =>
      rw [of]
      split
      · exact string_frontOf c cs
      · split
        · rename_i hnumber
          exact number_frontOf hnumber
        · split
          · rename_i hstart
            exact word_frontOf hstart
          · exact mark_frontOf c cs

end Token.Reading

-- ============================================================== places

namespace Lexeme

/-- How a text is cut at a lexeme: into what comes before, the trivia,
the token and the rest. The places of the token are the lengths of these
pieces. -/
structure CutBy (cs before : List Char) (items : List Trivia)
    (raw : List Char) (lexeme : Lexeme) : Prop where
  text_eq : before ++ (Trivia.charsOf items ++ lexeme.ahead.chars) = cs
  ahead_eq : raw ++ lexeme.rest.chars = lexeme.ahead.chars
  fullStart_eq : lexeme.token.fullStart = byteLength before
  start_eq : lexeme.token.start
    = byteLength before + byteLength (Trivia.charsOf items)
  stop_eq : lexeme.token.stop = lexeme.token.start + byteLength raw
  proper : Trivia.Proper items lexeme.ahead.chars
  raw_ne_nil : lexeme.ahead.chars ≠ [] → raw ≠ []
  kind_eq_iff : lexeme.token.kind = .endOfText ↔ lexeme.ahead.chars = []
  mark_front (p : Punctuator) : lexeme.token.kind = .punctuator p →
    p.text.toList <+: lexeme.ahead.chars

/-- A lexeme lies in a text when the text can be cut at it. -/
def LiesIn (cs : List Char) (lexeme : Lexeme) : Prop :=
  ∃ before items raw, lexeme.CutBy cs before items raw

variable {cs before : List Char} {lexeme : Lexeme}

/-- The lexeme that is read off what is left of a text lies in it. -/
theorem read_liesIn {text : Stretch} (h : before ++ text.chars = cs) :
    (read (byteLength before) text).LiesIn cs := by
  have hcut := Trivia.charsOf_append_split text.chars
  have hfront := Token.Reading.of_frontOf (Trivia.split text.chars).2
  refine ⟨before, (Trivia.split text.chars).1, _,
    h ▸ congrArg (before ++ ·) hcut,
    List.prefix_iff_eq_append.1 hfront.raw_front, rfl, rfl, rfl,
    Trivia.proper_split _, hfront.raw_ne_nil, hfront.kind_eq_iff,
    hfront.mark_front⟩

/-- The first lexeme of a text lies in it. -/
theorem first_liesIn (text : String) : (first text).LiesIn text.toList := by
  have hnothing : [] ++ (Stretch.ofList text.toList).chars = text.toList :=
    List.nil_append _
  exact read_liesIn hnothing

/-- What comes before the rest of a text behind a lexeme. -/
theorem LiesIn.exists_before (h : lexeme.LiesIn cs) :
    ∃ before, before ++ lexeme.rest.chars = cs
      ∧ lexeme.token.stop = byteLength before := by
  obtain ⟨before, items, raw, hcut⟩ := h
  refine ⟨before ++ (Trivia.charsOf items ++ raw), ?_, ?_⟩
  · rw [List.append_assoc, List.append_assoc, hcut.ahead_eq, hcut.text_eq]
  · rw [hcut.stop_eq, hcut.start_eq, byteLength_append, byteLength_append,
      Nat.add_assoc]

/-- The next lexeme lies in the text again: it is read off what is left
behind this one. -/
theorem LiesIn.next (h : lexeme.LiesIn cs) : lexeme.next.LiesIn cs := by
  obtain ⟨before, hrest, hstop⟩ := h.exists_before
  rw [Lexeme.next, hstop]
  exact read_liesIn hrest

/-- What reading again does: nothing, or it makes a regular expression of
a slash, in its place and with its trivia. -/
theorem asRegex_eq_or (lexeme : Lexeme) :
    lexeme.asRegex = lexeme
      ∨ (lexeme.token.kind = Punctuator.slash
          ∨ lexeme.token.kind = Punctuator.slashEquals)
        ∧ lexeme.asRegex.token.kind = .regex
        ∧ lexeme.asRegex.token.fullStart = lexeme.token.fullStart
        ∧ lexeme.asRegex.token.start = lexeme.token.start
        ∧ lexeme.asRegex.ahead = lexeme.ahead
        ∧ ∃ raw, raw = (RegexLiteral.read (lexeme.ahead.chars.drop 1)).1
          ∧ lexeme.asRegex.token.stop = lexeme.token.start + byteLength raw
          ∧ lexeme.asRegex.rest = lexeme.ahead.drop raw.length := by
  unfold asRegex
  split
  · rename_i hkind
    exact .inr ⟨.inl hkind, rfl, rfl, rfl, rfl, _, rfl, rfl, rfl⟩
  · rename_i hkind
    exact .inr ⟨.inr hkind, rfl, rfl, rfl, rfl, _, rfl, rfl, rfl⟩
  · exact .inl rfl

/-- A slash that is read again is a regular expression. -/
theorem kind_asRegex (h : lexeme.token.kind = Punctuator.slash
    ∨ lexeme.token.kind = Punctuator.slashEquals) :
    lexeme.asRegex.token.kind = .regex := by
  unfold asRegex
  rcases h with h | h <;> rw [h]

/-- A slash can be read as a regular expression in its place. -/
theorem CutBy.asRegex {items : List Trivia} {raw : List Char}
    (hcut : lexeme.CutBy cs before items raw) :
    lexeme.asRegex = lexeme
      ∨ lexeme.asRegex.CutBy cs before items
        (RegexLiteral.read (lexeme.ahead.chars.drop 1)).1 := by
  rcases lexeme.asRegex_eq_or with hsame
    | ⟨hkind, hregex, hfullStart, hstart, hahead, raw, hraw, hstop, hrest⟩
  · exact .inl hsame
  · obtain ⟨ds, hds⟩ : ∃ ds, lexeme.ahead.chars = '/' :: ds := by
      rcases hkind with hkind | hkind
      · obtain ⟨ds, hds⟩ := hcut.mark_front _ hkind
        exact ⟨ds, hds.symm⟩
      · obtain ⟨ds, hds⟩ := hcut.mark_front _ hkind
        exact ⟨'=' :: ds, hds.symm⟩
    rw [← hraw]
    rw [hds, List.drop_one, List.tail_cons] at hraw
    have hfront : raw <+: lexeme.ahead.chars := by
      rw [hraw, hds]
      exact RegexLiteral.read_front ds
    refine .inr ⟨?_, ?_, ?_, ?_, ?_, ?_, ?_, ?_, ?_⟩
    · rw [hahead, hcut.text_eq]
    · rw [hahead, hrest]
      exact List.prefix_iff_eq_append.1 hfront
    · rw [hfullStart, hcut.fullStart_eq]
    · rw [hstart, hcut.start_eq]
    · rw [hstop, hstart]
    · rw [hahead]
      exact hcut.proper
    · rw [hraw]
      exact fun _ => List.cons_ne_nil _ _
    · simp [hregex, hahead, hds]
    · simp [hregex]

theorem LiesIn.asRegex (h : lexeme.LiesIn cs) : lexeme.asRegex.LiesIn cs := by
  obtain ⟨before, items, raw, hcut⟩ := h
  rcases hcut.asRegex with hsame | hregex
  · rw [hsame]
    exact ⟨before, items, raw, hcut⟩
  · exact ⟨before, items, _, hregex⟩

/-- Behind a lexeme no more of the text is left than from it on, and less
unless it is the end. -/
theorem LiesIn.length_rest (h : lexeme.LiesIn cs) :
    lexeme.rest.length ≤ lexeme.ahead.length
      ∧ (lexeme.token.kind ≠ .endOfText →
        lexeme.rest.length < lexeme.ahead.length) := by
  obtain ⟨before, items, raw, hcut⟩ := h
  have hlength := congrArg List.length hcut.ahead_eq
  rw [List.length_append] at hlength
  rw [Stretch.length_eq, Stretch.length_eq]
  refine ⟨by omega, fun hkind => ?_⟩
  have hahead := (not_congr hcut.kind_eq_iff).1 hkind
  have := List.length_pos_iff.2 (hcut.raw_ne_nil hahead)
  omega

end Lexeme

-- ============================================================== tiling

/-- Whether a byte lies between characters of a text, or at one of its
ends. -/
def OnBoundary (cs : List Char) (n : Nat) : Prop :=
  ∃ front back, front ++ back = cs ∧ byteLength front = n

/-- A text can be cut at the length of what it begins with. -/
theorem Text.splitAtByte?_append (front back : List Char) :
    splitAtByte? (byteLength front) (front ++ back) = some (front, back) := by
  induction front with
  | nil => cases back <;> rfl
  | cons c front ih =>
      have hpos := c.utf8Size_pos
      rw [byteLength_cons, List.cons_append]
      obtain ⟨n, hn⟩ : ∃ n, c.utf8Size + byteLength front = n + 1 :=
        ⟨c.utf8Size + byteLength front - 1, by omega⟩
      rw [hn, splitAtByte?, if_pos (by omega),
        show n + 1 - c.utf8Size = byteLength front by omega, ih]
      rfl

/-- What lies between two pieces of a text is the slice between them. -/
theorem Text.slice?_append (front middle back : List Char) :
    slice? (front ++ (middle ++ back)) (byteLength front)
        (byteLength front + byteLength middle) = some middle := by
  rw [slice?, if_pos (Nat.le_add_right _ _), splitAtByte?_append,
    Nat.add_sub_cancel_left]
  show (splitAtByte? _ (middle ++ back)).bind _ = _
  rw [splitAtByte?_append]
  rfl

/-- What it takes for a token to be a tile of a text: its places are in
order and on boundaries, it has some length unless it is the end, which
lies at the end of the text, and in front of it is nothing but trivia. -/
structure Token.TilesIn (cs : List Char) (token : Token) : Prop where
  fullStart_le : token.fullStart ≤ token.start
  start_le : token.start ≤ token.stop
  stop_le : token.stop ≤ byteLength cs
  fullStart_on : OnBoundary cs token.fullStart
  start_on : OnBoundary cs token.start
  stop_on : OnBoundary cs token.stop
  start_lt : token.kind ≠ .endOfText → token.start < token.stop
  stop_eq : token.kind = .endOfText → token.stop = byteLength cs
  trivia : ∃ items front ahead,
    slice? cs token.fullStart token.start = some (Trivia.charsOf items)
      ∧ splitAtByte? token.start cs = some (front, ahead)
      ∧ Trivia.Proper items ahead

namespace Lexeme

variable {cs : List Char} {lexeme : Lexeme}

theorem byteLength_pos {cs : List Char} (h : cs ≠ []) :
    0 < byteLength cs := by
  cases cs with
  | nil => exact absurd rfl h
  | cons c cs =>
      have := c.utf8Size_pos
      rw [byteLength_cons]
      omega

/-- The token of a lexeme that lies in a text is a tile of it. -/
theorem LiesIn.tilesIn (h : lexeme.LiesIn cs) : lexeme.token.TilesIn cs := by
  obtain ⟨before, items, raw, hcut⟩ := h
  have hfront : (before ++ Trivia.charsOf items) ++ lexeme.ahead.chars
      = cs := by rw [List.append_assoc, hcut.text_eq]
  have hstart : lexeme.token.start
      = byteLength (before ++ Trivia.charsOf items) := by
    rw [hcut.start_eq, byteLength_append]
  have hstop : lexeme.token.stop
      = byteLength (before ++ Trivia.charsOf items ++ raw) := by
    rw [hcut.stop_eq, hstart, byteLength_append _ raw]
  -- the pieces in front, at and behind the token make up the text
  have hwhole : (before ++ Trivia.charsOf items ++ raw)
      ++ lexeme.rest.chars = cs := by
    rw [List.append_assoc, hcut.ahead_eq, hfront]
  have hsize := congrArg byteLength hwhole
  rw [byteLength_append, ← hstop] at hsize
  constructor
  case fullStart_le => rw [hcut.fullStart_eq, hcut.start_eq]; omega
  case start_le => rw [hcut.stop_eq]; omega
  case stop_le => omega
  case fullStart_on => exact ⟨_, _, hcut.text_eq, hcut.fullStart_eq.symm⟩
  case start_on => exact ⟨_, _, hfront, hstart.symm⟩
  case stop_on => exact ⟨_, _, hwhole, hstop.symm⟩
  -- only the token at the end is empty
  case start_lt =>
    intro hkind
    have hahead := (not_congr hcut.kind_eq_iff).1 hkind
    have := byteLength_pos (hcut.raw_ne_nil hahead)
    rw [hcut.stop_eq]
    omega
  case stop_eq =>
    intro hkind
    have hahead := hcut.ahead_eq
    rw [hcut.kind_eq_iff.1 hkind, List.append_eq_nil_iff] at hahead
    rw [hahead.2, byteLength_nil] at hsize
    omega
  case trivia =>
    have hslice := slice?_append before (Trivia.charsOf items)
      lexeme.ahead.chars
    have hsplit := splitAtByte?_append (before ++ Trivia.charsOf items)
      lexeme.ahead.chars
    rw [hcut.text_eq, ← hcut.start_eq, ← hcut.fullStart_eq] at hslice
    rw [hfront, ← hstart] at hsplit
    exact ⟨items, _, _, hslice, hsplit, hcut.proper⟩

-- ================================================================ runs

/-- The `n`th lexeme of a text when lexeme after lexeme is read and a
slash is read again as a regular expression wherever `again` says so. -/
def nth (text : String) (again : Nat → Bool) : Nat → Lexeme
  | 0 => if again 0 then (first text).asRegex else first text
  | n + 1 =>
    let lexeme := (nth text again n).next
    if again (n + 1) then lexeme.asRegex else lexeme

variable {text : String} {again : Nat → Bool}

/-- Whatever is read again, every lexeme lies in the text. -/
theorem nth_liesIn (n : Nat) : (nth text again n).LiesIn text.toList := by
  induction n with
  | zero =>
      rw [nth]
      split
      · exact (first_liesIn text).asRegex
      · exact first_liesIn text
  | succ n ih =>
      rw [nth]
      split
      · exact ih.next.asRegex
      · exact ih.next

/-- Reading again does not move the place where the trivia begins. -/
theorem fullStart_asRegex (lexeme : Lexeme) :
    lexeme.asRegex.token.fullStart = lexeme.token.fullStart := by
  rcases lexeme.asRegex_eq_or with hsame | ⟨-, -, hfullStart, -⟩
  · rw [hsame]
  · exact hfullStart

theorem fullStart_nth_zero : (nth text again 0).token.fullStart = 0 := by
  rw [nth]
  split
  · exact fullStart_asRegex _
  · rfl

theorem fullStart_nth_succ (n : Nat) :
    (nth text again (n + 1)).token.fullStart
      = (nth text again n).token.stop := by
  rw [nth]
  split
  · exact fullStart_asRegex _
  · rfl

/-- As long as the end is not reached, every token takes a byte at
least. -/
theorem le_fullStart_nth {n : Nat}
    (h : ∀ k < n, (nth text again k).token.kind ≠ .endOfText) :
    n ≤ (nth text again n).token.fullStart := by
  induction n with
  | zero => exact Nat.zero_le _
  | succ n ih =>
      have hbefore := ih fun k hk => h k (Nat.lt_succ_of_lt hk)
      have hlies : (nth text again n).LiesIn text.toList := nth_liesIn n
      have htile := hlies.tilesIn
      have hle := htile.fullStart_le
      have hlt := htile.start_lt (h n (Nat.lt_succ_self n))
      rw [fullStart_nth_succ]
      omega

/-- The tokens of any text tile it, whatever slashes are read again as
regular expressions: the first begins at the first byte, each other one
where the one before it ends, all of them are tiles of the text, and
among the first as many as there are bytes, and one more, is the end. -/
theorem nth_tiles_text (text : String) (again : Nat → Bool) :
    let token n := (nth text again n).token
    (token 0).fullStart = 0
      ∧ (∀ n, (token (n + 1)).fullStart = (token n).stop)
      ∧ (∀ n, (token n).TilesIn text.toList)
      ∧ ∃ n ≤ byteLength text.toList, (token n).kind = .endOfText := by
  refine ⟨fullStart_nth_zero, fullStart_nth_succ,
    fun n => (nth_liesIn n).tilesIn, ?_⟩
  by_contra hnever
  have hnone : ∀ k < byteLength text.toList + 1,
      (nth text again k).token.kind ≠ .endOfText := fun k hk hkind =>
    hnever ⟨k, Nat.le_of_lt_succ hk, hkind⟩
  have hfar := le_fullStart_nth hnone
  have hlies : (nth text again (byteLength text.toList + 1)).LiesIn
      text.toList := nth_liesIn _
  have htile := hlies.tilesIn
  have hstart := htile.fullStart_le
  have hstop := htile.start_le
  have hsize := htile.stop_le
  omega

end Lexeme

end ScriptLint
