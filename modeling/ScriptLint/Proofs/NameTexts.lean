/-
Names that break a line. Those of classes and of static members are made up
of letters, digits and underscores with dots between them. An identifier
and a number have no line break in them, either; so a name that a program
gives breaks a line only if it is the value of a string literal
(`Arena.oneLine_nameOf_or`).
-/
import ScriptLint.Check.Directive
import ScriptLint.Proofs.NameParts
import ScriptLint.Proofs.Parse.Identifiers
import ScriptLint.Proofs.Text.OneLine
import ScriptLint.Proofs.Token.Spelling
import ScriptLint.Proofs.Token.Words

namespace ScriptLint

open Text

-- =============================================================== names

namespace Naming

variable {name : String} {segment : List Char} {first more : Char → Bool}

theorem oneLine_of_isShaped (h : isShaped first more segment = true)
    (hfirst : lineBreaks.any first = false)
    (hmore : lineBreaks.any more = false) :
    ∀ c ∈ segment, isLineBreak c = false := by
  rw [List.any_eq_false] at hfirst hmore
  intro c hc
  rw [← Bool.not_eq_true, isLineBreak_iff_mem]
  intro hmem
  exact notMem_of_isShaped h (Bool.eq_false_iff.2 (hfirst c hmem))
    (Bool.eq_false_iff.2 (hmore c hmem)) hc

/-- The segments of the name of a class are those of a package and of
classes. -/
theorem segment_cases_of_isClassPath {path : List (List Char)}
    (h : isClassPath path = true) (hmem : segment ∈ path) :
    isPackageHead segment = true ∨ isClassSegment segment = true := by
  unfold isClassPath at h
  cases path with
  | nil => cases hmem
  | cons head more =>
      rw [behindPackage?] at h
      by_cases hhead : isPackageHead head = true
      · rw [if_pos hhead] at h
        obtain ⟨-, hclasses⟩ := Bool.and_eq_true_iff.1 h
        obtain rfl | hmem := List.mem_cons.1 hmem
        · exact .inl hhead
        · rw [← List.takeWhile_append_dropWhile (p := isPackageSegment)
            (l := more)] at hmem
          obtain hpackage | hclass := List.mem_append.1 hmem
          · have hsegment : isPackageSegment segment = true :=
              List.mem_takeWhile_imp hpackage
            exact .inl (Bool.and_eq_true_iff.1 hsegment).1
          · exact .inr (List.all_eq_true.1 hclasses _ hclass)
      · rw [if_neg hhead] at h
        cases h

/-- The name of a class breaks no line. -/
theorem oneLine_of_isClassName (h : isClassName name = true) :
    OneLine isLineBreak name := by
  intro c hc
  obtain rfl | ⟨segment, hsegment, hc⟩ := eq_or_mem_pieces '.' hc
  · decide
  · obtain hpackage | hclass := segment_cases_of_isClassPath h hsegment
    · exact oneLine_of_isShaped hpackage (by decide) (by decide) c hc
    · exact oneLine_of_isShaped hclass (by decide) (by decide) c hc

/-- There is no line break in the name of a static member. -/
theorem oneLine_of_isStaticMemberName (h : isStaticMemberName name = true) :
    OneLine isLineBreak name := by
  obtain ⟨owner, member, rfl, hclass, -, hmember⟩ :=
    isMemberPath_segments_iff.1 h
  have hline : OneLine isLineBreak member := by
    obtain hfield | hconstant := Bool.or_eq_true_iff.1 hmember
    · exact oneLine_of_isShaped hfield (by decide) (by decide)
    · exact oneLine_of_isShaped hconstant (by decide) (by decide)
  rw [oneLine_append, oneLine_append]
  exact ⟨⟨oneLine_of_isClassName hclass, by decide⟩, hline⟩

end Naming

/-- A number is written without line breaks. -/
theorem NumberLiteral.IsNumeral.oneLine {cs : List Char}
    (h : IsNumeral cs) : ∀ c ∈ cs, isLineBreak c = false := by
  have hdigits (ds : List Char) (hds : ∀ d ∈ ds, isDigit d = true) :
      ∀ d ∈ ds, isLineBreak d = false :=
    fun d hd => isLineBreak_of_holds (by decide) (hds d hd)
  obtain ⟨x, digits, rfl, hx, hhex⟩ | ⟨whole, part, power, rfl, hwhole,
    hpart, hpower⟩ := h
  · rw [List.forall_mem_cons, List.forall_mem_cons]
    refine ⟨by decide, ?_, fun d hd =>
      isLineBreak_of_holds (by decide) (hhex d hd)⟩
    obtain rfl | rfl := hx <;> decide
  · rw [List.forall_mem_append, List.forall_mem_append]
    refine ⟨hdigits whole hwhole, ?_, ?_⟩
    · obtain rfl | ⟨digits, rfl, hall⟩ := hpart
      · exact List.forall_mem_nil _
      · exact List.forall_mem_cons.2 ⟨by decide, hdigits digits hall⟩
    · obtain rfl | ⟨letter, sign, digits, rfl, hletter, hsign, -, hall⟩ :=
        hpower
      · exact List.forall_mem_nil _
      · rw [List.forall_mem_cons, List.forall_mem_append]
        refine ⟨?_, ?_, hdigits digits hall⟩
        · obtain rfl | rfl := hletter <;> decide
        · obtain rfl | rfl | rfl := hsign
          · exact List.forall_mem_nil _
          · exact List.forall_mem_singleton.2 (by decide)
          · exact List.forall_mem_singleton.2 (by decide)

namespace Arena

variable {lines : LineMap} {text : String} {tree : Tree} {ref : Ref}
  {s : String}

theorem oneLine_identifier? (h : Tree.parse text = .ok tree)
    (hname : (ofTree lines tree).2.identifier? ref = some s) :
    OneLine isLineBreak s := by
  intro c hc
  rw [← Bool.not_eq_true]
  intro hbreak
  have hpart := identifier?_of_parse h hname c hc
  rw [isIdentifierPart_of_isLineBreak hbreak] at hpart
  cases hpart

theorem oneLine_number (h : Tree.parse text = .ok tree)
    (hform : (ofTree lines tree).2.form? ref = some (.number s)) :
    OneLine isLineBreak s := by
  obtain ⟨cursor, cursor', joint, hjoint, hcursor, hread⟩ :=
    exists_isRead_of_parse h hform nofun
  cases joint <;> cases hjoint
  obtain ⟨token, htakes, hkind, rfl⟩ := hread
  refine htakes.of_reading (P := fun kind value => kind = .number →
    ∀ c ∈ value, isLineBreak c = false) ?_ hcursor ?_ hkind
  · intro cs hnumber
    obtain ⟨hvalue, hlongest⟩ := (Token.Reading.spelled_of cs).number hnumber
    rw [hvalue]
    exact hlongest.holds.oneLine
  · rw [hkind]
    nofun

theorem oneLine_intercalate {words : List String}
    (h : ∀ word ∈ words, OneLine isLineBreak word) :
    OneLine isLineBreak (".".intercalate words) := by
  induction words with
  | nil => exact List.forall_mem_nil _
  | cons word words ih =>
      rw [List.forall_mem_cons] at h
      cases words with
      | nil =>
          rw [String.intercalate_singleton]
          exact h.1
      | cons next words =>
          rw [String.intercalate_cons_cons, oneLine_append, oneLine_append]
          exact ⟨⟨h.1, by decide⟩, ih h.2⟩

/-- A name that breaks a line is the value of a string literal that stands
by itself. -/
theorem oneLine_nameWith_or (lines : LineMap)
    (h : Tree.parse text = .ok tree) (steps : Nat) (ref : Ref)
    {tail : List String}
    (htail : ∀ word ∈ tail, OneLine isLineBreak word) :
    OneLine isLineBreak ((ofTree lines tree).2.nameWith steps ref tail)
      ∨ tail = [] ∧ (ofTree lines tree).2.stringValue? ref
        = some ((ofTree lines tree).2.nameWith steps ref tail) := by
  induction steps generalizing ref tail with
  | zero => exact .inl (oneLine_intercalate htail)
  | succ steps ih =>
      rw [nameWith]
      split
      -- a member puts its name in front of the tail, which is then no longer
      -- empty
      · rename_i owner name hform
        split
        · rename_i segment hsegment
          have hwords := List.forall_mem_cons.2
            ⟨oneLine_identifier? h hsegment, htail⟩
          obtain hline | ⟨hnil, -⟩ := ih owner hwords
          · exact .inl hline
          · cases hnil
        · exact .inl (List.forall_mem_nil _)
      · rename_i word hform
        have hword : (ofTree lines tree).2.identifier? ref = some word := by
          rw [identifier?, hform]
        exact .inl (oneLine_intercalate
          (List.forall_mem_cons.2 ⟨oneLine_identifier? h hword, htail⟩))
      · exact .inl (oneLine_intercalate
          (List.forall_mem_cons.2 ⟨by decide, htail⟩))
      · rename_i value hform
        cases tail with
        | nil =>
            right
            rw [stringValue?, hform]
            exact ⟨rfl, rfl⟩
        | cons => exact .inl (List.forall_mem_nil _)
      · rename_i value hform
        left
        cases tail with
        | nil => exact oneLine_number h hform
        | cons => exact List.forall_mem_nil _
      · exact .inl (List.forall_mem_nil _)

theorem oneLine_nameOf_or (h : Tree.parse text = .ok tree) (ref : Ref) :
    OneLine isLineBreak ((ofTree lines tree).2.nameOf ref)
      ∨ (ofTree lines tree).2.stringValue? ref
        = some ((ofTree lines tree).2.nameOf ref) := by
  obtain hline | ⟨-, hvalue⟩ :=
    oneLine_nameWith_or lines h walkLimit ref (List.forall_mem_nil _)
  · exact .inl hline
  · exact .inr hvalue

theorem nameOf_of_stringValue? {arena : Arena}
    (h : arena.stringValue? ref = some s) : arena.nameOf ref = s := by
  unfold stringValue? at h
  split at h
  · rename_i hform
    cases h
    have hlimit : walkLimit = 9999 + 1 := rfl
    rw [nameOf, hlimit, nameWith, hform]
    rfl
  · cases h

end Arena

end ScriptLint
