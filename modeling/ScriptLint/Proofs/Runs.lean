/-
Runs. What belongs together is taken off the front of a text as the longest
run of characters of one kind, and the text falls apart into the run and
what ends it (`takeWhile_dropWhile_iff`). So a run depends on nothing behind
the character that ends it.
-/
import Mathlib.Data.List.TakeWhile

namespace ScriptLint

/-- A list falls apart in one way into a run and what ends the run. -/
theorem takeWhile_dropWhile_iff {α : Type} {p : α → Bool}
    {xs front back : List α} :
    xs.takeWhile p = front ∧ xs.dropWhile p = back
      ↔ xs = front ++ back ∧ (∀ x ∈ front, p x = true)
        ∧ ∀ x ∈ back.head?, p x = false := by
  constructor
  · rintro ⟨rfl, rfl⟩
    refine ⟨List.takeWhile_append_dropWhile.symm,
      fun x hx => List.mem_takeWhile_imp hx, fun x hx => ?_⟩
    have hhead := List.head?_dropWhile_not p xs
    rw [Option.mem_def.1 hx] at hhead
    simpa using hhead
  · rintro ⟨rfl, hfront, hback⟩
    rw [List.takeWhile_append_of_pos hfront,
      List.dropWhile_append_of_pos hfront]
    cases back with
    | nil => exact ⟨List.append_nil _, rfl⟩
    | cons x back =>
        have hx : ¬p x = true := by
          rw [hback x rfl]
          exact Bool.false_ne_true
        rw [List.takeWhile_cons_of_neg hx, List.dropWhile_cons_of_neg hx,
          List.append_nil]
        exact ⟨rfl, rfl⟩

variable {p : Char → Bool} {c : Char}

/-- A run stops where the predicate fails, whatever follows. -/
theorem takeWhile_append_cons (hc : p c = false) (cs ds : List Char) :
    (cs ++ c :: ds).takeWhile p = cs.takeWhile p := by
  induction cs with
  | nil => simp [hc]
  | cons d cs ih =>
      rw [List.cons_append, List.takeWhile_cons, List.takeWhile_cons, ih]

theorem dropWhile_append_cons (hc : p c = false) (cs ds : List Char) :
    (cs ++ c :: ds).dropWhile p = cs.dropWhile p ++ c :: ds := by
  induction cs with
  | nil => simp [hc]
  | cons d cs ih =>
      rw [List.cons_append, List.dropWhile_cons, List.dropWhile_cons, ih]
      split <;> rfl

/-- When the front of a text is its run. -/
theorem takeWhile_append_eq_self {s x : List Char} :
    (s ++ x).takeWhile p = s
      ↔ (∀ c ∈ s, p c = true) ∧ ∀ c ∈ x.head?, p c = false := by
  constructor
  · intro h
    have hcut := List.takeWhile_append_dropWhile (p := p) (l := s ++ x)
    rw [h] at hcut
    exact (takeWhile_dropWhile_iff.1 ⟨h, List.append_cancel_left hcut⟩).2
  · intro h
    exact (takeWhile_dropWhile_iff.2 ⟨rfl, h⟩).1

/-- What is left behind a run of characters. -/
theorem drop_length_takeWhile (p : Char → Bool) (cs : List Char) :
    cs.drop (cs.takeWhile p).length = cs.dropWhile p :=
  calc cs.drop (cs.takeWhile p).length
      = (cs.takeWhile p ++ cs.dropWhile p).drop (cs.takeWhile p).length := by
        rw [List.takeWhile_append_dropWhile]
    _ = cs.dropWhile p := List.drop_left

end ScriptLint
