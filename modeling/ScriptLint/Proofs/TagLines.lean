/-
Documentation tags line by line. A line has an entry when its first at sign
is followed by one of the tags as a whole word, with the next word behind
spaces or tabs as its value (`DocTags.HasEntry`); `DocTags.Collects` reads
off the entries of all lines, one for each line that has one.

A comment is read that way exactly if every such line that begins with its
at sign stands behind a line without one (`DocTags.collects_parse`): the
sign needs something in front of it, and what is in front may reach back
over the end of a line, but not over another at sign.

# The argument

- What a line is read as is an entry of it in the sense of the grammar,
  unless its at sign comes first and nothing precedes it
  (`entryIn?_eq_some_iff`).
- Reading all lines finds a part of what `Collects` asks for, in the same
  order (`ofLines_sublist`). So the two are the same exactly if they have
  the same length, which is counted line by line (`length_ofLines_iff`).
-/
import ScriptLint.DocTags
import ScriptLint.Proofs.Names
import ScriptLint.Proofs.Runs

namespace ScriptLint

open Text

-- ================================================================ tags

namespace DocTag

variable {cs rest : List Char} {tag other : DocTag}

theorem isWordChar_text (tag : DocTag) :
    ∀ c ∈ tag.text.toList, isWordChar c = true := by
  rw [← List.all_eq_true]
  cases tag <;> decide +kernel

theorem eq_of_text_eq (h : tag.text = other.text) : tag = other := by
  cases tag <;> cases other <;> first | rfl | exact absurd h (by decide)

/-- The tag stands in front, and the word ends behind it. -/
theorem isPrefixOf_and_iff :
    (tag.text.toList.isPrefixOf cs
        && !(cs.drop tag.text.toList.length).head?.any isWordChar) = true
      ↔ cs.takeWhile isWordChar = tag.text.toList
        ∧ cs.dropWhile isWordChar = cs.drop tag.text.toList.length := by
  have hany : ∀ c? : Option Char, (!c?.any isWordChar) = true
      ↔ ∀ c ∈ c?, isWordChar c = false := by
    rintro (_ | c) <;> simp
  rw [takeWhile_dropWhile_iff, Bool.and_eq_true, List.isPrefixOf_iff_prefix,
    List.prefix_iff_eq_append, hany, eq_comm]
  exact and_congr_right fun _ => (and_iff_right tag.isWordChar_text).symm

/-- A tag is read when the word in front is how the tag is written. -/
theorem read?_eq_some_iff :
    read? cs = some (tag, rest)
      ↔ cs.takeWhile isWordChar = tag.text.toList
        ∧ cs.dropWhile isWordChar = rest := by
  have hfound : ∀ {tag rest}, read? cs = some (tag, rest) →
      cs.takeWhile isWordChar = tag.text.toList
        ∧ cs.dropWhile isWordChar = rest := by
    intro tag rest h
    obtain ⟨other, -, hother⟩ := List.exists_of_findSome?_eq_some h
    dsimp only at hother
    split at hother
    · rename_i hreads
      cases hother
      exact isPrefixOf_and_iff.1 hreads
    · cases hother
  refine ⟨hfound, ?_⟩
  rintro ⟨hword, hrest⟩
  cases hread : read? cs with
  | none =>
      have hlength : cs.drop tag.text.toList.length = rest := by
        have hcut := List.takeWhile_append_dropWhile
          (p := isWordChar) (l := cs)
        rw [hword, hrest] at hcut
        rw [← hcut, List.drop_left]
      have hnone := List.findSome?_eq_none_iff.1 hread tag
        (by cases tag <;> decide)
      dsimp only at hnone
      rw [if_pos (isPrefixOf_and_iff.2 ⟨hword, hrest.trans hlength.symm⟩)]
        at hnone
      cases hnone
  | some found =>
      obtain ⟨other, behind⟩ := found
      obtain ⟨hother, hbehind⟩ := hfound hread
      have htext : other.text = tag.text :=
        String.toList_inj.1 (hother.symm.trans hword)
      rw [eq_of_text_eq htext, hbehind.symm.trans hrest]

end DocTag

-- ============================================================== values

namespace DocTags

variable {cs word : List Char} {value : String}

/-- The next word behind spaces or tabs. -/
def NextWord (cs word : List Char) : Prop :=
  ∃ gap more, cs = gap ++ (word ++ more)
    ∧ gap ≠ [] ∧ (∀ c ∈ gap, c = ' ' ∨ c = '\t')
    ∧ word ≠ [] ∧ (∀ c ∈ word, isWhiteSpace c = false)
    ∧ ∀ c ∈ more.head?, isWhiteSpace c = true

/-- The characters between a tag and its value. -/
def isGap (c : Char) : Bool := c == ' ' || c == '\t'

theorem isGap_iff {c : Char} : isGap c = true ↔ c = ' ' ∨ c = '\t' := by
  simp [isGap]

theorem isWhiteSpace_of_isGap {c : Char} (h : isGap c = true) :
    isWhiteSpace c = true := by
  rcases isGap_iff.1 h with rfl | rfl <;> decide

/-- The next word is found by the run of gaps and the run of what is no white
space behind it. -/
theorem nextWord_iff :
    NextWord cs word ↔ cs.takeWhile isGap ≠ [] ∧ word ≠ []
      ∧ (cs.dropWhile isGap).takeWhile (fun c => !isWhiteSpace c)
        = word := by
  constructor
  · rintro ⟨gap, more, rfl, hne, hgap, hword, hplain, hmore⟩
    -- the word begins with no gap, since gaps are white space
    have hgaps : (gap ++ (word ++ more)).takeWhile isGap = gap
        ∧ (gap ++ (word ++ more)).dropWhile isGap = word ++ more := by
      refine takeWhile_dropWhile_iff.2
        ⟨rfl, fun c hc => isGap_iff.2 (hgap c hc), fun c hc => ?_⟩
      obtain ⟨d, ds, rfl⟩ := List.exists_cons_of_ne_nil hword
      obtain rfl : d = c := Option.some.inj hc
      rw [← Bool.not_eq_true]
      intro hd
      have hno := hplain d (List.mem_cons_self ..)
      rw [isWhiteSpace_of_isGap hd] at hno
      cases hno
    have hrun : (word ++ more).takeWhile (fun c => !isWhiteSpace c) = word
        ∧ (word ++ more).dropWhile (fun c => !isWhiteSpace c) = more := by
      refine takeWhile_dropWhile_iff.2 ⟨rfl, fun c hc => ?_, fun c hc => ?_⟩
      · rw [hplain c hc]
        rfl
      · rw [hmore c hc]
        rfl
    rw [hgaps.1, hgaps.2]
    exact ⟨hne, hword, hrun.1⟩
  · rintro ⟨hne, hword, hrun⟩
    generalize hback : cs.dropWhile isGap = back at hrun
    generalize hmore : back.dropWhile (fun c => !isWhiteSpace c) = more
    obtain ⟨hcs, hgap, -⟩ := takeWhile_dropWhile_iff.1 ⟨rfl, hback⟩
    obtain ⟨rfl, hplain, hends⟩ := takeWhile_dropWhile_iff.1 ⟨hrun, hmore⟩
    refine ⟨_, more, hcs, hne, fun c hc => isGap_iff.1 (hgap c hc), hword,
      fun c hc => ?_, fun c hc => ?_⟩
    · simpa using hplain c hc
    · simpa using hends c hc

/-- A value is the next word. -/
theorem valueIn?_eq_some_iff :
    valueIn? cs = some value ↔ NextWord cs value.toList := by
  have hhead : cs.head?.any isGap = true ↔ cs.takeWhile isGap ≠ [] := by
    cases cs with
    | nil => simp
    | cons c cs => by_cases hc : isGap c = true <;> simp [hc]
  rw [nextWord_iff, ← hhead]
  show (if (cs.head?.any isGap && !((cs.dropWhile isGap).takeWhile
      fun c => !isWhiteSpace c).isEmpty) = true
    then some (String.ofList ((cs.dropWhile isGap).takeWhile
      fun c => !isWhiteSpace c)) else none) = some value ↔ _
  generalize (cs.dropWhile isGap).takeWhile (fun c => !isWhiteSpace c)
    = word
  have hvalue : String.ofList word = value ↔ word = value.toList := by
    rw [← String.toList_inj, String.toList_ofList]
  cases cs.head?.any isGap with
  | false => simp
  | true =>
      cases word with
      | nil => simp
      | cons c word =>
          have hword : (true && !(c :: word).isEmpty) = true := rfl
          rw [if_pos hword, Option.some_inj, hvalue]
          constructor
          · intro heq
            rw [← heq]
            exact ⟨rfl, List.cons_ne_nil c word, rfl⟩
          · exact fun h => h.2.2

-- ============================================================== entries

variable {line rest : List Char} {tag : DocTag} {value? : Option String}

/-- The value of a tag is the next word behind it, or there is none. -/
def IsValue (cs : List Char) (value? : Option String) : Prop :=
  ∀ value, value? = some value ↔ NextWord cs value.toList

theorem isValue_iff : IsValue cs value? ↔ valueIn? cs = value? := by
  constructor
  · intro h
    ext value
    rw [valueIn?_eq_some_iff]
    exact (h value).symm
  · rintro rfl value
    exact valueIn?_eq_some_iff

/-- The first at sign of the line is followed by a tag as a whole word, and
that by the rest. -/
def HasTag (line : List Char) (tag : DocTag) (rest : List Char) : Prop :=
  ∃ front, line = front ++ '@' :: (tag.text.toList ++ rest)
    ∧ '@' ∉ front ∧ ∀ c ∈ rest.head?, isWordChar c = false

/-- The line has an entry: a tag with its value. -/
def HasEntry (line : List Char) (tag : DocTag) (value? : Option String) :
    Prop :=
  ∃ rest, HasTag line tag rest ∧ IsValue rest value?

/-- The first at sign, and what stands in front of and behind it. -/
theorem cut_iff {front : List Char} :
    line.takeWhile (· != '@') = front
        ∧ line.dropWhile (· != '@') = '@' :: rest
      ↔ line = front ++ '@' :: rest ∧ '@' ∉ front := by
  rw [takeWhile_dropWhile_iff]
  constructor
  · rintro ⟨hline, hfront, -⟩
    exact ⟨hline, fun hmem => by simpa using hfront '@' hmem⟩
  · rintro ⟨hline, hfront⟩
    refine ⟨hline, fun c hc => ?_, fun c hc => ?_⟩
    · rw [bne_iff_ne]
      rintro rfl
      exact hfront hc
    · rw [← Option.some.inj hc]
      rfl

/-- The tag is the run of word characters behind the first at sign. -/
theorem hasTag_iff :
    HasTag line tag rest
      ↔ ∃ cs, line.dropWhile (· != '@') = '@' :: cs
        ∧ cs.takeWhile isWordChar = tag.text.toList
        ∧ cs.dropWhile isWordChar = rest := by
  constructor
  · rintro ⟨front, hline, hnone, hends⟩
    exact ⟨_, (cut_iff.2 ⟨hline, hnone⟩).2,
      takeWhile_dropWhile_iff.2 ⟨rfl, tag.isWordChar_text, hends⟩⟩
  · rintro ⟨cs, hdrop, hrun⟩
    obtain ⟨hline, hnone⟩ := cut_iff.1 ⟨rfl, hdrop⟩
    obtain ⟨rfl, -, hends⟩ := takeWhile_dropWhile_iff.1 hrun
    exact ⟨_, hline, hnone, hends⟩

theorem HasTag.mem (h : HasTag line tag rest) : '@' ∈ line := by
  obtain ⟨front, rfl, -⟩ := h
  exact List.mem_append_right _ (List.mem_cons_self ..)

/-- What is put behind a line with an at sign, and does not begin with a
character of words, comes behind its tag. -/
theorem hasTag_append_iff {c : Char} {ds : List Char}
    (hc : isWordChar c = false) (hline : '@' ∈ line) :
    HasTag (line ++ c :: ds) tag rest
      ↔ ∃ behind, HasTag line tag behind ∧ rest = behind ++ c :: ds := by
  obtain ⟨front, cs, rfl, hfront⟩ := List.eq_append_cons_of_mem hline
  have hline := (cut_iff.2 ⟨rfl, hfront⟩ :
    (front ++ '@' :: cs).takeWhile (· != '@') = front ∧ _).2
  have hall := (cut_iff.2 ⟨List.append_assoc .., hfront⟩ :
    (front ++ '@' :: cs ++ c :: ds).takeWhile (· != '@') = front
      ∧ _ = '@' :: (cs ++ c :: ds)).2
  simp only [hasTag_iff, hline, hall, List.cons.injEq, true_and,
    exists_eq_left', takeWhile_append_cons hc, dropWhile_append_cons hc]
  constructor
  · rintro ⟨htag, rfl⟩
    exact ⟨_, ⟨htag, rfl⟩, rfl⟩
  · rintro ⟨behind, ⟨htag, rfl⟩, rfl⟩
    exact ⟨htag, rfl⟩

/-- The entry of a line is found, unless the line begins with its at sign
and nothing else is in front of that. -/
theorem entryIn?_eq_some_iff {preceded : Bool} :
    entryIn? preceded line = some (tag, value?)
      ↔ HasEntry line tag value?
        ∧ (line.head? = some '@' → preceded = true) := by
  constructor
  · intro h
    unfold entryIn? at h
    dsimp only at h
    split at h
    · cases h
    · rename_i c cs hdrop
      split at h
      · rename_i hfront
        obtain ⟨⟨other, rest⟩, hread, heq⟩ := Option.map_eq_some_iff.1 h
        cases heq
        -- the rest begins where the first sign was found
        have hsign : c = '@' := by
          have hhead := List.head?_dropWhile_not (· != '@') line
          rw [hdrop] at hhead
          simpa using hhead
        rw [hsign] at hdrop
        refine ⟨⟨rest, hasTag_iff.2 ⟨cs, hdrop,
          DocTag.read?_eq_some_iff.1 hread⟩, isValue_iff.2 rfl⟩, ?_⟩
        intro hhead
        have hempty : line.takeWhile (· != '@') = [] := by
          obtain ⟨cs, rfl⟩ := List.head?_eq_some_iff.1 hhead
          rfl
        rw [hempty] at hfront
        simpa using hfront
      · cases h
  · rintro ⟨⟨rest, htag, hvalue⟩, hhead⟩
    obtain ⟨cs, hdrop, hrun⟩ := hasTag_iff.1 htag
    -- a sign in front of the line needs something before the line; any other
    -- has it in the line
    have hfront :
        (preceded || !(line.takeWhile (· != '@')).isEmpty) = true := by
      cases line with
      | nil => cases hdrop
      | cons c line =>
          by_cases hc : c = '@'
          · rw [hhead (by rw [hc]; rfl), Bool.true_or]
          · simp [hc]
    unfold entryIn?
    dsimp only
    rw [hdrop]
    dsimp only
    rw [if_pos hfront, DocTag.read?_eq_some_iff.2 hrun, Option.map_some,
      isValue_iff.1 hvalue]

/-- A tag that is read is the entry of its line, with the next word as its
value. -/
theorem entryIn?_of_hasTag {preceded : Bool} (h : HasTag line tag rest)
    (hhead : line.head? = some '@' → preceded = true) :
    entryIn? preceded line = some (tag, valueIn? rest) :=
  entryIn?_eq_some_iff.2 ⟨⟨rest, h, isValue_iff.2 rfl⟩, hhead⟩

/-- No entry is found where the line has no tag, and where it begins with
the at sign of that. -/
theorem entryIn?_eq_none_iff {preceded : Bool} :
    entryIn? preceded line = none
      ↔ ∀ tag rest, HasTag line tag rest →
        line.head? = some '@' ∧ preceded = false := by
  constructor
  · intro hnone tag rest htag
    by_contra hread
    rw [not_and, Bool.not_eq_false] at hread
    rw [entryIn?_of_hasTag htag hread] at hnone
    cases hnone
  · intro h
    rw [Option.eq_none_iff_forall_ne_some]
    rintro ⟨tag, value?⟩ hentry
    obtain ⟨⟨rest, htag, -⟩, hhead⟩ := entryIn?_eq_some_iff.1 hentry
    obtain ⟨hsign, hfalse⟩ := h tag rest htag
    rw [hhead hsign] at hfalse
    cases hfalse

/-- A line without an at sign has no entry. -/
theorem entryIn?_eq_none (h : '@' ∉ line) (preceded : Bool) :
    entryIn? preceded line = none :=
  entryIn?_eq_none_iff.2 fun _ _ htag => (h htag.mem).elim

-- =============================================================== lines

variable {lines : List (List Char)} {entries : DocTags} {preceded : Bool}

/-- The entries of lines in order, one for each line that has one. -/
inductive Collects : List (List Char) → DocTags → Prop where
  | nil : Collects [] []
  | entry {line : List Char} {lines : List (List Char)} {tag : DocTag}
    {value? : Option String} {entries : DocTags} :
    HasEntry line tag value? → Collects lines entries →
    Collects (line :: lines) ((tag, value?) :: entries)
  | skip {line : List Char} {lines : List (List Char)} {entries : DocTags} :
    (∀ tag value?, ¬HasEntry line tag value?) → Collects lines entries →
    Collects (line :: lines) entries

/-- The entries of lines that all have something in front of them. -/
def entriesOf (lines : List (List Char)) : DocTags :=
  lines.flatMap fun line => (entryIn? true line).toList

theorem collects_entriesOf (lines : List (List Char)) :
    Collects lines (entriesOf lines) := by
  induction lines with
  | nil => exact .nil
  | cons line lines ih =>
      rw [entriesOf, List.flatMap_cons]
      cases hentry : entryIn? true line with
      | none =>
          refine .skip (fun tag value? h => ?_) ih
          rw [entryIn?_eq_some_iff.2 ⟨h, fun _ => rfl⟩] at hentry
          cases hentry
      | some entry => exact .entry (entryIn?_eq_some_iff.1 hentry).1 ih

/-- The entry of a line is read as if something were in front of it, or not
at all. -/
theorem entryIn?_eq_or (preceded : Bool) (line : List Char) :
    entryIn? preceded line = entryIn? true line
      ∨ entryIn? preceded line = none := by
  cases hentry : entryIn? preceded line with
  | none => exact .inr rfl
  | some entry =>
      obtain ⟨h, -⟩ := entryIn?_eq_some_iff.1 hentry
      exact .inl (entryIn?_eq_some_iff.2 ⟨h, fun _ => rfl⟩).symm

/-- Nothing is read but the entries of lines, in their order. -/
theorem ofLines_sublist (preceded : Bool) (lines : List (List Char)) :
    (ofLines preceded lines).Sublist (entriesOf lines) := by
  induction lines generalizing preceded with
  | nil => exact .slnil
  | cons line lines ih =>
      rw [ofLines, entriesOf, List.flatMap_cons]
      rcases entryIn?_eq_or preceded line with heq | hnone
      · rw [heq]
        exact (ih _).append_left _
      · rw [hnone]
        exact (ih _).trans (List.sublist_append_right _ _)

/-- Whether a line has something in front of it: the line before it, if
there is one, without an at sign. -/
def precededBy (preceded : Bool) (front : List (List Char)) : Bool :=
  front.getLast?.elim preceded fun line => !line.contains '@'

theorem precededBy_false_iff {front : List (List Char)} :
    precededBy false front = true
      ↔ ∃ before, front.getLast? = some before ∧ '@' ∉ before := by
  unfold precededBy
  cases front.getLast? <;> simp

theorem precededBy_cons (preceded : Bool) (line : List Char)
    (front : List (List Char)) :
    precededBy preceded (line :: front)
      = precededBy (!line.contains '@') front := by
  unfold precededBy
  rw [List.getLast?_cons]
  cases front.getLast? <;> rfl

/-- Every line with an entry that begins with its at sign has something in
front of it. -/
def Readable (preceded : Bool) (lines : List (List Char)) : Prop :=
  ∀ front line back, lines = front ++ line :: back →
    (∃ tag value?, HasEntry line tag value?) → line.head? = some '@' →
    precededBy preceded front = true

theorem readable_cons :
    Readable preceded (line :: lines)
      ↔ ((∃ tag value?, HasEntry line tag value?) →
          line.head? = some '@' → preceded = true)
        ∧ Readable (!line.contains '@') lines := by
  constructor
  · intro h
    refine ⟨fun hentry hhead => h [] line lines rfl hentry hhead, ?_⟩
    intro front other back hlines hentry hhead
    rw [← precededBy_cons preceded line front]
    exact h (line :: front) other back (by rw [hlines]; rfl) hentry hhead
  · rintro ⟨hfirst, hrest⟩ front other back hlines hentry hhead
    cases front with
    | nil =>
        cases hlines
        exact hfirst hentry hhead
    | cons first front =>
        cases hlines
        rw [precededBy_cons]
        exact hrest front other back rfl hentry hhead

/-- The entry of one line is read unless the line begins with its at sign
and has nothing in front of it. -/
theorem length_entryIn?_iff (preceded : Bool) (line : List Char) :
    (entryIn? preceded line).toList.length
        = (entryIn? true line).toList.length
      ↔ ((∃ tag value?, HasEntry line tag value?) →
        line.head? = some '@' → preceded = true) := by
  cases hentry : entryIn? true line with
  | none =>
      have hnone : ∀ tag value?, ¬HasEntry line tag value? := by
        intro tag value? h
        rw [entryIn?_eq_some_iff.2 ⟨h, fun _ => rfl⟩] at hentry
        cases hentry
      have hsame : entryIn? preceded line = none := by
        rcases entryIn?_eq_or preceded line with heq | heq
        · rw [heq, hentry]
        · exact heq
      rw [hsame]
      exact iff_of_true rfl fun ⟨tag, value?, h⟩ => (hnone _ _ h).elim
  | some entry =>
      have h := (entryIn?_eq_some_iff.1 hentry).1
      cases hread : entryIn? preceded line with
      | none =>
          refine iff_of_false (by simp) fun hhead => ?_
          rw [entryIn?_eq_some_iff.2 ⟨h, hhead ⟨_, _, h⟩⟩] at hread
          cases hread
      | some other =>
          exact iff_of_true rfl
            fun _ => (entryIn?_eq_some_iff.1 hread).2

/-- All entries are read exactly where every line is readable. -/
theorem length_ofLines_iff (preceded : Bool) (lines : List (List Char)) :
    (ofLines preceded lines).length = (entriesOf lines).length
      ↔ Readable preceded lines := by
  induction lines generalizing preceded with
  | nil =>
      refine iff_of_true rfl fun front line back hlines => ?_
      cases front <;> cases hlines
  | cons line lines ih =>
      have hline : (entryIn? preceded line).toList.length
          ≤ (entryIn? true line).toList.length := by
        rcases entryIn?_eq_or preceded line with heq | heq <;> rw [heq]
        exact Nat.zero_le _
      have hlines := (ofLines_sublist (!line.contains '@') lines).length_le
      rw [readable_cons, ← length_entryIn?_iff, ← ih, ofLines, entriesOf,
        List.flatMap_cons, List.length_append, List.length_append]
      change _ + _ = _ + (entriesOf lines).length ↔ _
      omega

-- ============================================================= comments

theorem values_cons (entry : DocTag × Option String) (tags : DocTags)
    (tag : DocTag) :
    values (entry :: tags) tag
      = (if entry.1 = tag then [entry.2] else []) ++ tags.values tag := by
  by_cases htag : entry.1 = tag <;> simp [values, htag]

/-- A part of a table with the same values for every tag is the whole. -/
theorem eq_of_sublist {tags entries : DocTags} (h : tags.Sublist entries)
    (hvalues : ∀ tag, tags.values tag = entries.values tag) :
    tags = entries := by
  induction h with
  | slnil => rfl
  | @cons tags entries entry h ih =>
      -- the entry that is left out would be a value too many for its tag
      have hle : (values tags entry.1).length
          ≤ (values entries entry.1).length :=
        ((h.filter _).map _).length_le
      have hlength := congrArg List.length (hvalues entry.1)
      rw [values_cons, if_pos rfl, List.length_append,
        List.length_singleton] at hlength
      omega
  | @cons_cons tags entries entry h ih =>
      rw [ih]
      intro tag
      have hsame := hvalues tag
      rw [values_cons, values_cons] at hsame
      exact List.append_cancel_left hsame

/-- A comment is read line by line, and nothing else is read; every entry
is read exactly if each line that begins with the at sign of its entry
stands behind a line without an at sign. -/
theorem collects_parse (comment : String) :
    let lines := pieces '\n' comment.toList
    ∃ entries, Collects lines entries ∧ (parse comment).Sublist entries
      ∧ ((∀ tag, (parse comment).values tag = entries.values tag)
        ↔ ∀ front line back, lines = front ++ line :: back →
          (∃ tag value?, HasEntry line tag value?) →
          line.head? = some '@' →
          ∃ before, front.getLast? = some before ∧ '@' ∉ before) := by
  intro lines
  have hsublist : (parse comment).Sublist (entriesOf lines) :=
    ofLines_sublist false lines
  refine ⟨entriesOf lines, collects_entriesOf lines, hsublist, ?_⟩
  have hreadable : (∀ tag,
      (parse comment).values tag = (entriesOf lines).values tag)
        ↔ Readable false lines := by
    rw [← length_ofLines_iff]
    constructor
    · intro hvalues
      exact congrArg List.length (eq_of_sublist hsublist hvalues)
    · intro hlength tag
      rw [hsublist.eq_of_length hlength]
  rw [hreadable]
  simp only [Readable, precededBy_false_iff]

/-- A field that is deprecated, with its type at the beginning of the line
behind that. -/
def deprecatedField : String := "/**\n * @deprecated\n@type Number\n */"

/-- The line of the type has an entry, which is not read. -/
theorem not_collects_parse_deprecatedField :
    ∃ entries, Collects (pieces '\n' deprecatedField.toList) entries
      ∧ entries.values .type = [some "Number"]
      ∧ (parse deprecatedField).values .type = [] :=
  ⟨_, collects_entriesOf _, by decide +kernel, by decide +kernel⟩

end DocTags

end ScriptLint
