/-
The end of a comment. A documentation comment is recorded with the star and
the slash that close it, and tags are looked for in all of it. The two
characters are no part of a tag, but they are no white space either: they
become part of a value that stands right in front of them, or are the value
of a tag that has no other (`DocTags.parse_close`). Of all other comments
the tags are the same without them.

# The argument

- A text is lines in front and a last one; whatever is put behind the text
  goes to the last one (`Text.exists_lastPiece`).
- The closing does not change whether a line has a tag
  (`hasTag_closing_iff`), nor what is left of it in front of the closing.
- It changes the value just where the rest of the line runs out into a word
  or a gap (`RunsOut.valueIn?_append`).
-/
import ScriptLint.Proofs.TagLines
import ScriptLint.Token

namespace ScriptLint

open Text

-- ============================================================== pieces

/-- What is put behind a text without a separator goes to the last
piece. -/
theorem Text.exists_lastPiece (separator : Char) (cs : List Char) :
    ∃ front last, ∀ ds, separator ∉ ds →
      pieces separator (cs ++ ds) = front ++ [last ++ ds] := by
  cases hsplit : splitLast? separator cs with
  | none =>
      refine ⟨[], cs, fun ds hds => pieces_of_not_mem ?_⟩
      rw [List.mem_append, not_or]
      exact ⟨splitLast?_eq_none hsplit, hds⟩
  | some cut =>
      obtain ⟨hcs, hlast⟩ := splitLast?_eq_some hsplit
      refine ⟨pieces separator cut.1, cut.2, fun ds hds => ?_⟩
      have hback : separator ∉ cut.2 ++ ds := by
        rw [List.mem_append, not_or]
        exact ⟨hlast, hds⟩
      rw [hcs, List.append_assoc, List.cons_append, pieces_append,
        pieces_of_not_mem hback]

theorem Text.pieces_append_of_notMem {separator : Char} {cs ds : List Char}
    {front : List (List Char)} {last : List Char}
    (h : pieces separator cs = front ++ [last]) (hds : separator ∉ ds) :
    pieces separator (cs ++ ds) = front ++ [last ++ ds] := by
  obtain ⟨front', last', hpieces⟩ := exists_lastPiece separator cs
  have hsame := hpieces [] List.not_mem_nil
  rw [List.append_nil, List.append_nil, h] at hsame
  obtain ⟨rfl, hlast⟩ := List.append_inj' hsame rfl
  rw [List.singleton_inj.1 hlast]
  exact hpieces ds hds

namespace DocTags

/-- What closes a comment. -/
def closing : List Char := ['*', '/']

variable {cs rest word line : List Char} {tag : DocTag} {preceded : Bool}

-- ================================================================ tags

/-- A line and the same line with the closing behind it have the same tag. -/
theorem hasTag_closing_iff :
    HasTag (line ++ closing) tag rest
      ↔ ∃ behind, HasTag line tag behind ∧ rest = behind ++ closing := by
  have hstar : isWordChar '*' = false := by decide +kernel
  constructor
  · intro h
    have hmem : '@' ∈ line := by
      simpa [closing] using h.mem
    exact (hasTag_append_iff hstar hmem).1 h
  · rintro ⟨behind, h, rfl⟩
    exact (hasTag_append_iff hstar h.mem).2 ⟨behind, h, rfl⟩

-- ============================================================== values

/-- The text is a gap and then a word, or only a gap. -/
def RunsOut (cs word : List Char) : Prop :=
  ∃ gap, cs = gap ++ word ∧ gap ≠ [] ∧ (∀ c ∈ gap, c = ' ' ∨ c = '\t')
    ∧ ∀ c ∈ word, isWhiteSpace c = false

theorem RunsOut.valueIn?_append (h : RunsOut cs word) :
    valueIn? (cs ++ closing) = some (String.ofList (word ++ closing)) := by
  obtain ⟨gap, rfl, hne, hgap, hword⟩ := h
  rw [valueIn?_eq_some_iff, String.toList_ofList]
  have hclosing : ∀ c ∈ closing, isWhiteSpace c = false :=
    List.forall_mem_cons.2 ⟨rfl, List.forall_mem_singleton.2 rfl⟩
  exact ⟨gap, [], by simp, hne, hgap, by simp [closing],
    List.forall_mem_append.2 ⟨hword, hclosing⟩, by simp⟩

theorem RunsOut.valueIn?_eq (h : RunsOut cs word) :
    valueIn? cs = if word = [] then none else some (String.ofList word) := by
  obtain ⟨gap, rfl, hne, hgap, hword⟩ := h
  split
  · rename_i hempty
    rw [Option.eq_none_iff_forall_ne_some]
    intro value hvalue
    obtain ⟨-, hne, hrun⟩ := nextWord_iff.1 (valueIn?_eq_some_iff.1 hvalue)
    rw [hempty, List.append_nil, List.dropWhile_eq_nil_iff.2
      fun c hc => isGap_iff.2 (hgap c hc)] at hrun
    exact hne hrun.symm
  · rename_i hempty
    rw [valueIn?_eq_some_iff, String.toList_ofList]
    exact ⟨gap, [], by simp, hne, hgap, hempty, hword, by simp⟩

/-- Any other text has the same next word with the closing behind it. -/
theorem valueIn?_append_of_not_runsOut (h : ¬∃ word, RunsOut cs word) :
    valueIn? (cs ++ closing) = valueIn? cs := by
  have hstar : isGap '*' = false := rfl
  ext value
  rw [valueIn?_eq_some_iff, valueIn?_eq_some_iff, nextWord_iff, nextWord_iff,
    closing, takeWhile_append_cons hstar, dropWhile_append_cons hstar]
  refine and_congr_right fun hne => and_congr_right fun hword => ?_
  generalize hback : cs.dropWhile isGap = back
  obtain ⟨hcs, hgap, -⟩ := takeWhile_dropWhile_iff.1 ⟨rfl, hback⟩
  -- some white space behind the gap ends the word
  have hends : back.dropWhile (fun c => !isWhiteSpace c) ≠ [] := by
    intro hnone
    refine h ⟨back, _, hcs, hne, fun c hc => isGap_iff.1 (hgap c hc), ?_⟩
    simpa using List.dropWhile_eq_nil_iff.1 hnone
  obtain ⟨c, more, hmore⟩ := List.exists_cons_of_ne_nil hends
  obtain ⟨hfront, hplain, hc⟩ := takeWhile_dropWhile_iff.1 ⟨rfl, hmore⟩
  have hrun := takeWhile_dropWhile_iff.2
    (⟨by rw [← List.append_assoc, ← hfront], hplain, hc⟩ :
      back ++ ['*', '/'] = back.takeWhile (fun c => !isWhiteSpace c)
          ++ (c :: more ++ ['*', '/']) ∧ _ ∧ _)
  rw [hrun.1]

-- ============================================================= comments

/-- The last line of the text has a tag that is read, and ends with a gap
and a word behind it, or with a gap alone. -/
def EndsInTag (text : String) (tag : DocTag) (word : List Char) : Prop :=
  ∃ front last rest, pieces '\n' text.toList = front ++ [last]
    ∧ HasTag last tag rest ∧ RunsOut rest word
    ∧ (last.head? = some '@' →
      ∃ before, front.getLast? = some before ∧ '@' ∉ before)

theorem ofLines_append (preceded : Bool) (front back : List (List Char)) :
    ofLines preceded (front ++ back)
      = ofLines preceded front
        ++ ofLines (precededBy preceded front) back := by
  induction front generalizing preceded with
  | nil => rfl
  | cons line front ih =>
      rw [List.cons_append, ofLines, ofLines, ih, precededBy_cons,
        List.append_assoc]

/-- The entry of the last line comes last. -/
theorem parse_of_pieces {text : String} {front : List (List Char)}
    {last : List Char} (h : pieces '\n' text.toList = front ++ [last]) :
    parse text = ofLines false front
      ++ (entryIn? (precededBy false front) last).toList := by
  rw [parse, h, ofLines_append, ofLines, ofLines, List.append_nil]

/-- The closing goes to the last line. -/
theorem parse_close_of_pieces {text : String} {front : List (List Char)}
    {last : List Char} (h : pieces '\n' text.toList = front ++ [last]) :
    parse (text ++ "*/") = ofLines false front
      ++ (entryIn? (precededBy false front) (last ++ closing)).toList := by
  apply parse_of_pieces
  rw [String.toList_append]
  exact pieces_append_of_notMem h (by decide)

theorem head?_of_hasTag (h : HasTag line tag rest) :
    (line ++ closing).head? = line.head? := by
  obtain ⟨front, rfl, -⟩ := h
  cases front <;> rfl

/-- Where the text ends in a tag, the closing becomes part of its value. -/
theorem EndsInTag.parse_eq {text : String} (h : EndsInTag text tag word) :
    ∃ entries, parse text = entries
        ++ [(tag, if word = [] then none else some (String.ofList word))]
      ∧ parse (text ++ "*/") = entries
        ++ [(tag, some (String.ofList (word ++ closing)))] := by
  obtain ⟨front, last, rest, hpieces, htag, hrest, hhead⟩ := h
  have hpreceded : last.head? = some '@' → precededBy false front = true :=
    fun hsign => precededBy_false_iff.2 (hhead hsign)
  refine ⟨ofLines false front, ?_, ?_⟩
  · rw [parse_of_pieces hpieces, entryIn?_of_hasTag htag hpreceded,
      hrest.valueIn?_eq]
    rfl
  · have hclosed := hasTag_closing_iff.2 ⟨rest, htag, rfl⟩
    rw [← head?_of_hasTag htag] at hpreceded
    rw [parse_close_of_pieces hpieces, entryIn?_of_hasTag hclosed hpreceded,
      hrest.valueIn?_append]
    rfl

/-- Where it does not, the closing adds nothing. -/
theorem parse_close_eq {text : String}
    (h : ¬∃ tag word, EndsInTag text tag word) :
    parse (text ++ "*/") = parse text := by
  obtain ⟨front, last, hall⟩ := exists_lastPiece '\n' text.toList
  have hpieces := hall [] List.not_mem_nil
  rw [List.append_nil, List.append_nil] at hpieces
  rw [parse_of_pieces hpieces, parse_close_of_pieces hpieces]
  -- only the last line is closed, and only a tag in it could be read otherwise
  by_cases hread : ∃ tag rest, HasTag last tag rest
      ∧ (last.head? = some '@' → precededBy false front = true)
  · obtain ⟨tag, rest, htag, hpreceded⟩ := hread
    have hrest : ¬∃ word, RunsOut rest word := by
      rintro ⟨word, hword⟩
      exact h ⟨tag, word, front, last, rest, hpieces, htag, hword,
        fun hsign => precededBy_false_iff.1 (hpreceded hsign)⟩
    have hclosed := hasTag_closing_iff.2 ⟨rest, htag, rfl⟩
    rw [entryIn?_of_hasTag htag hpreceded, entryIn?_of_hasTag hclosed
      (by rwa [head?_of_hasTag htag]), valueIn?_append_of_not_runsOut hrest]
  · have hnone : ∀ tag rest, HasTag last tag rest →
        last.head? = some '@' ∧ precededBy false front = false := by
      intro tag rest htag
      by_contra hpreceded
      rw [not_and, Bool.not_eq_false] at hpreceded
      exact hread ⟨tag, rest, htag, hpreceded⟩
    have hclosed : ∀ tag rest, HasTag (last ++ closing) tag rest →
        (last ++ closing).head? = some '@'
          ∧ precededBy false front = false := by
      intro tag rest htag
      obtain ⟨behind, hlast, -⟩ := hasTag_closing_iff.1 htag
      rw [head?_of_hasTag hlast]
      exact hnone tag behind hlast
    rw [entryIn?_eq_none_iff.2 hnone, entryIn?_eq_none_iff.2 hclosed]

/-- A comment has the same tags without the star and the slash that close
it exactly if it does not end in a tag. If it does, the two characters are
part of the value of the last entry, or that value alone. -/
theorem parse_close (text : String) :
    ((∀ tag, (parse (text ++ "*/")).values tag = (parse text).values tag)
      ↔ ¬∃ tag word, EndsInTag text tag word)
      ∧ ∀ tag word, EndsInTag text tag word → ∃ entries,
        parse text = entries
            ++ [(tag, if word = [] then none else some (String.ofList word))]
          ∧ parse (text ++ "*/") = entries
            ++ [(tag, some (String.ofList (word ++ closing)))] := by
  refine ⟨⟨?_, fun hends tag => by rw [parse_close_eq hends]⟩,
    fun tag word hends => hends.parse_eq⟩
  rintro hsame ⟨tag, word, hends⟩
  obtain ⟨entries, hopen, hclosed⟩ := hends.parse_eq
  have hlast : ∀ value? : Option String,
      (entries ++ [(tag, value?)]).values tag
        = entries.values tag ++ [value?] := by
    intro value?
    simp [values]
  have hvalues := hsame tag
  rw [hopen, hclosed, hlast, hlast] at hvalues
  have heq := List.singleton_inj.1 (List.append_cancel_left hvalues)
  split at heq
  · cases heq
  · rw [Option.some_inj, String.ofList_inj] at heq
    exact absurd (congrArg List.length heq) (by simp [closing])

/-- A comment that begins a program and ends with its type. -/
def closedType : String := "/** @return Number*/"

/-- The comment is recorded with its end, and the type that it returns is not
the one that is documented. -/
theorem not_parse_close_closedType :
    (Lexeme.first (closedType ++ "f();")).token.doc = some closedType
      ∧ closedType = "/** @return Number" ++ "*/"
      ∧ (parse "/** @return Number").values .returns = [some "Number"]
      ∧ (parse closedType).values .returns = [some "Number*/"] := by
  decide +kernel

end DocTags

end ScriptLint
