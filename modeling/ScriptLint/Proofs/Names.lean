/-
What the shape of a name tells. A dotted name is its segments, and putting
two names together puts their segments together (`Naming.segments_join`); so
a name that ends in a constant is not that of a prototype
(`Naming.not_isPrototypeName`).
-/
import Mathlib.Data.List.TakeWhile
import ScriptLint.Naming

namespace ScriptLint

-- ============================================================== pieces

namespace Text

variable {α : Type} [BEq α] [LawfulBEq α] {separator : α}

theorem pieces_cons_ne {c : α} (h : c ≠ separator) (cs : List α) :
    ∃ piece more, pieces separator cs = piece :: more
      ∧ pieces separator (c :: cs) = (c :: piece) :: more := by
  rw [pieces, if_neg (by simpa using h)]
  cases hcs : pieces separator cs with
  | nil =>
      cases cs with
      | nil => cases hcs
      | cons d ds =>
          rw [pieces] at hcs
          split at hcs
          · cases hcs
          · split at hcs <;> cases hcs
  | cons piece more => exact ⟨piece, more, rfl, rfl⟩

/-- A separator parts the pieces before it from those behind it. -/
theorem pieces_append (cs ds : List α) :
    pieces separator (cs ++ separator :: ds)
      = pieces separator cs ++ pieces separator ds := by
  induction cs with
  | nil => simp [pieces]
  | cons c cs ih =>
      by_cases hc : c = separator
      · subst hc
        simpa [pieces] using ih
      · obtain ⟨piece, more, hcs, hcons⟩ := pieces_cons_ne hc cs
        obtain ⟨piece', more', hall, hall'⟩ :=
          pieces_cons_ne hc (cs ++ separator :: ds)
        rw [ih, hcs, List.cons_append, List.cons.injEq] at hall
        obtain ⟨rfl, rfl⟩ := hall
        rw [List.cons_append, hall', hcons, List.cons_append]

/-- Without a separator there is one piece. -/
theorem pieces_of_not_mem {cs : List α} (h : separator ∉ cs) :
    pieces separator cs = [cs] := by
  induction cs with
  | nil => rfl
  | cons c cs ih =>
      rw [List.mem_cons, not_or] at h
      rw [pieces, if_neg (by simpa using Ne.symm h.1), ih h.2]

/-- A character that is no separator makes the last piece longer. -/
theorem pieces_concat_ne {c : α} (h : c ≠ separator) (cs : List α) :
    ∃ init last, pieces separator cs = init ++ [last]
      ∧ pieces separator (cs ++ [c]) = init ++ [last ++ [c]] := by
  induction cs with
  | nil => exact ⟨[], [], rfl, by simp [pieces, h]⟩
  | cons d cs ih =>
      obtain ⟨init, last, hcs, hconcat⟩ := ih
      by_cases hd : d = separator
      · exact ⟨[] :: init, last, by simp [pieces, hd, hcs],
          by simp [pieces, hd, hconcat]⟩
      · rw [List.cons_append]
        unfold pieces
        rw [if_neg (by simpa using hd), if_neg (by simpa using hd), hcs,
          hconcat]
        cases init with
        | nil => exact ⟨[], d :: last, rfl, rfl⟩
        | cons piece init => exact ⟨(d :: piece) :: init, last, rfl, rfl⟩

/-- A piece has no separators, and no characters that are not in the
text. -/
theorem of_mem_pieces {cs piece : List α}
    (h : piece ∈ pieces separator cs) :
    separator ∉ piece ∧ ∀ c ∈ piece, c ∈ cs := by
  induction cs generalizing piece with
  | nil =>
      obtain rfl : piece = [] := List.mem_singleton.1 h
      exact ⟨List.not_mem_nil, List.forall_mem_nil _⟩
  | cons d cs ih =>
      by_cases hd : d = separator
      · rw [pieces, if_pos (by simpa using hd)] at h
        obtain rfl | hmem := List.mem_cons.1 h
        · exact ⟨List.not_mem_nil, List.forall_mem_nil _⟩
        · obtain ⟨hfree, hchars⟩ := ih hmem
          exact ⟨hfree, fun c hc => List.mem_cons_of_mem _ (hchars c hc)⟩
      · obtain ⟨first, more, hcs, hcons⟩ := pieces_cons_ne hd cs
        rw [hcons] at h
        rw [hcs] at ih
        obtain rfl | hmem := List.mem_cons.1 h
        · obtain ⟨hfree, hchars⟩ := ih List.mem_cons_self
          refine ⟨?_, fun c hc => ?_⟩
          · rw [List.mem_cons, not_or]
            exact ⟨Ne.symm hd, hfree⟩
          · obtain rfl | hc := List.mem_cons.1 hc
            · exact List.mem_cons_self
            · exact List.mem_cons_of_mem _ (hchars c hc)
        · obtain ⟨hfree, hchars⟩ := ih (List.mem_cons_of_mem _ hmem)
          exact ⟨hfree, fun c hc => List.mem_cons_of_mem _ (hchars c hc)⟩

/-- A text and its pieces have the same characters, separators apart. -/
theorem eq_or_mem_pieces (separator : α) {cs : List α} {c : α}
    (h : c ∈ cs) :
    c = separator ∨ ∃ piece ∈ pieces separator cs, c ∈ piece := by
  induction cs with
  | nil => cases h
  | cons d cs ih =>
      by_cases hd : d = separator
      · obtain rfl | hmem := List.mem_cons.1 h
        · exact .inl hd
        · rw [pieces, if_pos (by simpa using hd)]
          obtain heq | ⟨piece, hpiece, hc⟩ := ih hmem
          · exact .inl heq
          · exact .inr ⟨piece, List.mem_cons_of_mem _ hpiece, hc⟩
      · obtain ⟨first, more, hcs, hcons⟩ := pieces_cons_ne hd cs
        rw [hcs] at ih
        rw [hcons]
        obtain rfl | hmem := List.mem_cons.1 h
        · exact .inr ⟨_, List.mem_cons_self, List.mem_cons_self⟩
        · obtain heq | ⟨piece, hpiece, hc⟩ := ih hmem
          · exact .inl heq
          · obtain rfl | hpiece := List.mem_cons.1 hpiece
            · exact .inr ⟨_, List.mem_cons_self, List.mem_cons_of_mem _ hc⟩
            · exact .inr ⟨piece, List.mem_cons_of_mem _ hpiece, hc⟩

/-- A text that is cut at the last separator. -/
theorem splitLast?_eq_some {cs front back : List α}
    (h : splitLast? separator cs = some (front, back)) :
    cs = front ++ separator :: back ∧ separator ∉ back := by
  unfold splitLast? at h
  dsimp only at h
  have hcut := List.takeWhile_append_dropWhile
    (p := (· != separator)) (l := cs.reverse)
  split at h
  · cases h
  · rename_i c rest hdrop
    cases h
    have hc : c = separator := by
      have hhead := List.head?_dropWhile_not (· != separator) cs.reverse
      rw [hdrop] at hhead
      simpa using hhead
    rw [hdrop, hc] at hcut
    refine ⟨?_, fun hmem => ?_⟩
    · have hreverse := congrArg List.reverse hcut
      simpa using hreverse.symm
    · have hpassed := List.mem_takeWhile_imp (List.mem_reverse.1 hmem)
      simp at hpassed

theorem splitLast?_eq_none {cs : List α}
    (h : splitLast? separator cs = none) : separator ∉ cs := by
  unfold splitLast? at h
  dsimp only at h
  split at h
  · rename_i hdrop
    intro hmem
    have hpassed := List.dropWhile_eq_nil_iff.1 hdrop separator
      (List.mem_reverse.2 hmem)
    simp at hpassed
  · cases h

end Text

-- =============================================================== names

namespace Naming

open Text

variable {name : String}

/-- A name behind another one. -/
theorem segments_join (front back : String) :
    segments (front ++ "." ++ back) = segments front ++ segments back := by
  rw [segments, String.toList_append, String.toList_append,
    List.append_assoc]
  exact pieces_append _ _

theorem isConstantSegment_prototype :
    isConstantSegment prototypeSegment = false := by decide

/-- Whether the last segment of the name is a constant. -/
def endsInConstant (name : String) : Bool :=
  (segments name).getLast?.any isConstantSegment

theorem endsInConstant_of_isConstantName (h : isConstantName name = true) :
    endsInConstant name = true := by
  unfold isConstantName at h
  split at h
  · rename_i segment hsegments
    rw [endsInConstant, hsegments]
    exact h
  · exact (Bool.and_eq_true_iff.1 h).2

theorem endsInConstant_join (front : String)
    (h : endsInConstant name = true) :
    endsInConstant (front ++ "." ++ name) = true := by
  unfold endsInConstant at h ⊢
  rw [segments_join, List.getLast?_append]
  cases hlast : (segments name).getLast? with
  | none =>
      rw [hlast] at h
      cases h
  | some segment =>
      rw [hlast] at h
      exact h

theorem not_isPrototypeName (h : endsInConstant name = true) :
    isPrototypeName name = false := by
  unfold endsInConstant at h
  unfold isPrototypeName isMemberPath
  cases hlast : (segments name).getLast? with
  | none => simp
  | some segment =>
      rw [hlast, Option.any_some] at h
      have hne : segment ≠ prototypeSegment := by
        rintro rfl
        rw [isConstantSegment_prototype] at h
        cases h
      simp [hne]

/-- A member of `this` is no static member of a class. -/
theorem not_isStaticMemberName_this (h : '.' ∉ name.toList) :
    isStaticMemberName ("this" ++ "." ++ name) = false := by
  unfold isStaticMemberName isMemberPath
  rw [segments_join, show segments name = [name.toList] from
    pieces_of_not_mem h, List.dropLast_concat,
    show isClassPath (segments "this") = false by decide, Bool.false_and]

end Naming

end ScriptLint
