/-
Texts that are one line. A line is broken by any of four characters; none
of them is a letter, a digit or a mark, so what is made up of those breaks
no line (`Text.isLineBreak_of_holds`). Where only some of the four count, a
text may be one line that the others break.
-/
import ScriptLint.Text.CharClass

namespace ScriptLint

namespace Text

variable {ends q : Char → Bool} {c : Char} {cs : List Char} {s t : String}

/-- The characters that break a line. -/
def lineBreaks : List Char := ['\n', '\r', '\u2028', '\u2029']

theorem isLineBreak_iff_mem : isLineBreak c = true ↔ c ∈ lineBreaks := by
  simp [isLineBreak, lineBreaks, or_assoc]

/-- What no line break is, breaks no line. -/
theorem isLineBreak_of_holds (hq : lineBreaks.any q = false)
    (h : q c = true) : isLineBreak c = false := by
  rw [← Bool.not_eq_true, isLineBreak_iff_mem]
  intro hmem
  exact List.any_eq_false.1 hq c hmem h

/-- No character of a text ends a line. -/
def OneLine (ends : Char → Bool) (s : String) : Prop :=
  ∀ c ∈ s.toList, ends c = false

instance (ends : Char → Bool) (s : String) : Decidable (OneLine ends s) :=
  List.decidableBAll (fun c => ends c = false) s.toList

/-- A literal is one line if its characters, read off, are. -/
theorem oneLine_ofList (h : cs.any ends = false) :
    OneLine ends (String.ofList cs) := by
  intro c hc
  rw [String.toList_ofList] at hc
  exact Bool.eq_false_iff.2 (List.any_eq_false.1 h c hc)

theorem oneLine_append :
    OneLine ends (s ++ t) ↔ OneLine ends s ∧ OneLine ends t := by
  unfold OneLine
  rw [String.toList_append, List.forall_mem_append]

/-- A text that quotes another one breaks a line where that does. -/
theorem oneLine_quoted_iff {front back : String}
    (hfront : OneLine ends front) (hback : OneLine ends back) :
    OneLine ends (front ++ s ++ back) ↔ OneLine ends s := by
  rw [oneLine_append, oneLine_append, and_iff_right hfront,
    and_iff_left hback]

/-- Of the characters that break lines, only some may count. -/
theorem OneLine.of_isLineBreak
    (hends : ∀ c, ends c = true → isLineBreak c = true)
    (h : OneLine isLineBreak s) : OneLine ends s := by
  intro c hc
  rw [← Bool.not_eq_true]
  intro hend
  have hbreak := hends c hend
  rw [h c hc] at hbreak
  cases hbreak

end Text

end ScriptLint
