/-
The search for tags. A tag is matched from the beginning of a line on: some
characters, which may go on over the ends of lines, the next at sign, the
tag as a whole word and its value, and the rest of that line. The search
takes the first line that there is a match at, and goes on behind the match.

Reading a comment line by line finds what the search finds
(`DocTags.searches_iff`). A match that begins on an earlier line ends on the
line of its at sign, as does a match that begins there; all that the earlier
line adds is that the sign may be the first character of its own.

# The argument

- The induction is on the lines of the text, the last one first
  (`Text.lines_induction`): a search either ends in the first line or goes
  on as the search in the others.
- Where the first line has an at sign, its tag is that of the text
  (`hasTag_line_iff`); where it has none, the text has the tag of what is
  behind it (`hasTag_skip_iff`), but now with something in front.
- A search is unique (`Searches.unique`), so it suffices that reading line
  by line is one.
-/
import ScriptLint.Proofs.TagLines

namespace ScriptLint

open Text

-- =============================================================== lines

/-- Texts are built from their lines, the last one first. -/
theorem Text.lines_induction {motive : List Char → Prop}
    (last : ∀ line, '\n' ∉ line → motive line)
    (next : ∀ line text, '\n' ∉ line → motive text →
      motive (line ++ '\n' :: text)) (text : List Char) : motive text := by
  induction hlength : text.length using Nat.strong_induction_on
    generalizing text with
  | _ n ih =>
      by_cases hmem : '\n' ∈ text
      · obtain ⟨line, more, rfl, hline⟩ := List.eq_append_cons_of_mem hmem
        refine next line more hline (ih more.length ?_ more rfl)
        rw [← hlength, List.length_append, List.length_cons]
        omega
      · exact last text hmem

theorem Text.pieces_line {line : List Char} (h : '\n' ∉ line)
    (text : List Char) :
    pieces '\n' (line ++ '\n' :: text) = line :: pieces '\n' text := by
  rw [pieces_append, pieces_of_not_mem h, List.singleton_append]

namespace DocTags

variable {text line behind : List Char} {tag : DocTag}
  {value? : Option String} {entries : DocTags} {preceded : Bool}

/-- The text behind the first line, if there are more lines. -/
def nextLine? (text : List Char) : Option (List Char) :=
  (text.dropWhile (· != '\n')).tail?

theorem nextLine?_eq_none (h : '\n' ∉ text) : nextLine? text = none := by
  have hnone : text.dropWhile (· != '\n') = [] := by
    rw [List.dropWhile_eq_nil_iff]
    intro c hc
    rw [bne_iff_ne]
    rintro rfl
    exact h hc
  rw [nextLine?, hnone, List.tail?_nil]

theorem nextLine?_append (h : '\n' ∉ line) (text : List Char) :
    nextLine? (line ++ '\n' :: text) = some text := by
  have hline : ∀ c ∈ line, (c != '\n') = true := by
    intro c hc
    rw [bne_iff_ne]
    rintro rfl
    exact h hc
  rw [nextLine?, List.dropWhile_append_of_pos hline,
    List.dropWhile_cons_of_neg (by decide), List.tail?_cons]

theorem length_of_nextLine? {next : List Char}
    (h : nextLine? text = some next) : next.length < text.length := by
  have hle := (List.dropWhile_suffix (l := text) (· != '\n')).length_le
  unfold nextLine? at h
  cases hdrop : text.dropWhile (· != '\n') with
  | nil =>
      rw [hdrop] at h
      cases h
  | cons c more =>
      rw [hdrop] at h hle
      obtain rfl : more = next := Option.some.inj h
      exact hle

-- ============================================================== search

/-- The pattern matches a tag at the beginning of the text: there is
something in front of the first at sign. -/
def Matches (text : List Char) (tag : DocTag) (behind : List Char) : Prop :=
  HasTag text tag behind ∧ text.head? ≠ some '@'

/-- The search from the beginning of a line on, if there is one. After a
match it goes on with the line behind that, and else with the next line. -/
inductive Searches : Option (List Char) → DocTags → Prop where
  | stop : Searches none []
  | found {text behind : List Char} {tag : DocTag} {value? : Option String}
    {entries : DocTags} :
    Matches text tag behind → IsValue behind value? →
    Searches (nextLine? behind) entries →
    Searches (some text) ((tag, value?) :: entries)
  | next {text : List Char} {entries : DocTags} :
    (∀ tag behind, ¬Matches text tag behind) →
    Searches (nextLine? text) entries → Searches (some text) entries

/-- A text has one tag at most at its first at sign. -/
theorem HasTag.unique {other : DocTag} {rest : List Char}
    (h : HasTag text tag behind) (hother : HasTag text other rest) :
    tag = other ∧ behind = rest := by
  obtain ⟨cs, hcs, htag, hbehind⟩ := hasTag_iff.1 h
  obtain ⟨ds, hds, hword, hrest⟩ := hasTag_iff.1 hother
  obtain rfl : cs = ds := by
    rw [hcs] at hds
    exact (List.cons.inj hds).2
  refine ⟨DocTag.eq_of_text_eq (String.toList_inj.1 ?_), ?_⟩
  · rw [← htag, hword]
  · rw [← hbehind, hrest]

/-- A search finds one list of entries. -/
theorem Searches.unique {text? : Option (List Char)} {others : DocTags}
    (h : Searches text? entries) (hother : Searches text? others) :
    entries = others := by
  induction h generalizing others with
  | stop =>
      cases hother
      rfl
  | found hmatch hvalue _ ih =>
      cases hother with
      | found hmatch' hvalue' hothers =>
          obtain ⟨rfl, rfl⟩ := hmatch.1.unique hmatch'.1
          rw [ih hothers, ← isValue_iff.1 hvalue, isValue_iff.1 hvalue']
      | next hnone _ => exact (hnone _ _ hmatch).elim
  | next hnone _ ih =>
      cases hother with
      | found hmatch _ _ => exact (hnone _ _ hmatch).elim
      | next _ hothers => exact ih hothers

-- ======================================================= line by line

/-- A value ends with its line. -/
theorem valueIn?_line (line text : List Char) :
    valueIn? (line ++ '\n' :: text) = valueIn? line := by
  have hgap : isGap '\n' = false := rfl
  have hspace : (!isWhiteSpace '\n') = false := by decide
  ext value
  rw [valueIn?_eq_some_iff, valueIn?_eq_some_iff, nextWord_iff, nextWord_iff,
    takeWhile_append_cons hgap, dropWhile_append_cons hgap,
    takeWhile_append_cons hspace]

/-- The tag behind an at sign of the first line stands on that line. -/
theorem hasTag_line_iff (hline : '@' ∈ line) (text : List Char) :
    HasTag (line ++ '\n' :: text) tag behind
      ↔ ∃ rest, HasTag line tag rest ∧ behind = rest ++ '\n' :: text :=
  hasTag_append_iff (by decide +kernel) hline

/-- In front of the first at sign there may be more lines. -/
theorem hasTag_skip_iff (hline : '@' ∉ line) (text : List Char) :
    HasTag (line ++ '\n' :: text) tag behind ↔ HasTag text tag behind := by
  have hskip : (line ++ '\n' :: text).dropWhile (· != '@')
      = text.dropWhile (· != '@') := by
    rw [List.dropWhile_append_of_pos,
      List.dropWhile_cons_of_pos (by decide)]
    intro c hc
    rw [bne_iff_ne]
    rintro rfl
    exact hline hc
  rw [hasTag_iff, hasTag_iff, hskip]

theorem HasTag.length_le (h : HasTag text tag behind) :
    behind.length ≤ text.length := by
  obtain ⟨front, rfl, -⟩ := h
  simp only [List.length_append, List.length_cons]
  omega

theorem HasTag.notMem_behind {c : Char} (h : HasTag text tag behind)
    (hc : c ∉ text) : c ∉ behind := by
  obtain ⟨front, rfl, -⟩ := h
  intro hmem
  apply hc
  simp [hmem]

/-- The entries of the lines behind, if there are more lines. -/
def rest? (text? : Option (List Char)) : DocTags :=
  text?.elim [] fun text => ofLines false (pieces '\n' text)

/-- Where the text has a tag, its entry is read, and the lines behind
it. -/
theorem ofLines_of_hasTag (h : HasTag text tag behind)
    (hhead : text.head? = some '@' → preceded = true) :
    ofLines preceded (pieces '\n' text)
      = (tag, valueIn? behind) :: rest? (nextLine? behind) := by
  induction text using lines_induction generalizing preceded with
  | last line hline =>
      rw [pieces_of_not_mem hline, ofLines, ofLines,
        entryIn?_of_hasTag h hhead,
        nextLine?_eq_none (h.notMem_behind hline)]
      rfl
  | next line text hline ih =>
      rw [pieces_line hline, ofLines]
      by_cases hsign : '@' ∈ line
      · obtain ⟨rest, hrest, rfl⟩ := (hasTag_line_iff hsign text).1 h
        have hfirst : line.head? = some '@' → preceded = true := by
          intro hline
          apply hhead
          rw [List.head?_append, hline, Option.some_or]
        rw [entryIn?_of_hasTag hrest hfirst, List.contains_iff_mem.2 hsign,
          nextLine?_append (hrest.notMem_behind hline), valueIn?_line]
        rfl
      · have hbehind := (hasTag_skip_iff hsign text).1 h
        have hflag : (!line.contains '@') = true := by simpa using hsign
        rw [entryIn?_eq_none hsign, hflag, ih hbehind fun _ => rfl]
        rfl

/-- Where it has no tag, or begins with the at sign of that, the first line
adds nothing. -/
theorem ofLines_of_not_hasTag
    (h : ∀ tag behind, HasTag text tag behind →
      text.head? = some '@' ∧ preceded = false) :
    ofLines preceded (pieces '\n' text) = rest? (nextLine? text) := by
  induction text using lines_induction generalizing preceded with
  | last line hline =>
      rw [pieces_of_not_mem hline, ofLines, ofLines,
        entryIn?_eq_none_iff.2 h, nextLine?_eq_none hline]
      rfl
  | next line text hline ih =>
      rw [pieces_line hline, ofLines, nextLine?_append hline]
      -- a line without a sign is in front of the next one, and makes a tag
      -- there readable
      by_cases hsign : '@' ∈ line
      · have hnone : entryIn? preceded line = none := by
          rw [entryIn?_eq_none_iff]
          intro tag rest htag
          have hsome := List.isSome_head?.2 (List.ne_nil_of_mem hsign)
          have hfirst := h tag _
            ((hasTag_line_iff hsign text).2 ⟨rest, htag, rfl⟩)
          rwa [List.head?_append, Option.or_of_isSome hsome] at hfirst
        rw [hnone, List.contains_iff_mem.2 hsign]
        rfl
      · -- no tag comes behind the line, so it is all one what is in front
        have hnone : ∀ tag behind, ¬HasTag text tag behind := by
          intro tag behind htag
          obtain ⟨hfirst, -⟩ := h tag behind
            ((hasTag_skip_iff hsign text).2 htag)
          cases line with
          | nil => cases hfirst
          | cons c line =>
              rw [Option.some.inj hfirst] at hsign
              exact hsign (List.mem_cons_self ..)
        have hsame : ∀ preceded, ofLines preceded (pieces '\n' text)
            = rest? (nextLine? text) :=
          fun preceded => ih fun tag behind htag =>
            (hnone tag behind htag).elim
        rw [entryIn?_eq_none hsign, hsame]
        exact (hsame false).symm

-- ============================================================ comments

/-- The lines of a text have the entries that the search finds in it. -/
theorem searches_ofLines (text : List Char) :
    Searches (some text) (ofLines false (pieces '\n' text)) := by
  -- the search goes on with a shorter text
  induction hlength : text.length using Nat.strong_induction_on
    generalizing text with
  | _ n ih =>
      have hrest : ∀ behind : List Char, behind.length ≤ n →
          Searches (nextLine? behind) (rest? (nextLine? behind)) := by
        intro behind hle
        cases hnext : nextLine? behind with
        | none => exact .stop
        | some next =>
            have hlt := length_of_nextLine? hnext
            exact ih next.length (by omega) next rfl
      by_cases hmatch : ∃ tag behind, Matches text tag behind
      · obtain ⟨tag, behind, htag, hhead⟩ := hmatch
        rw [ofLines_of_hasTag htag fun hsign => (hhead hsign).elim]
        refine .found ⟨htag, hhead⟩ (isValue_iff.2 rfl) (hrest behind ?_)
        rw [← hlength]
        exact htag.length_le
      · have hnone : ∀ tag behind, ¬Matches text tag behind :=
          fun tag behind h => hmatch ⟨tag, behind, h⟩
        rw [ofLines_of_not_hasTag fun tag behind htag =>
          ⟨of_not_not fun hhead => hnone tag behind ⟨htag, hhead⟩, rfl⟩]
        exact .next hnone (hrest text (Nat.le_of_eq hlength))

/-- A comment has exactly the entries that the search finds in it. -/
theorem searches_iff {comment : String} :
    Searches (some comment.toList) entries ↔ entries = parse comment := by
  constructor
  · intro h
    exact h.unique (searches_ofLines comment.toList)
  · rintro rfl
    exact searches_ofLines comment.toList

end DocTags

end ScriptLint
