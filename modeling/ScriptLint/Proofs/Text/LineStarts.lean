/-
Where lines end, and how lines are counted. A line ends behind each line
feed, and behind each carriage return that no line feed follows; so the
pair of both is one line end, and a line begins behind each.

A line map lists just the bytes at which lines begin, in increasing order
(`LineMap.mem_starts_iff`, `LineMap.pairwise_starts`). That order is what
the binary search needs, and that nothing is missing from the list or
twice in it is why the place that the search comes to is the number of
line ends up to there (`LineMap.lineOf_counts`).

# The argument

- `mem_startsAfter_iff` goes along the recursion of the map: each step
  moves the offset by the size of what it has passed, and the places of
  line ends move with it.
- The search halves a sorted list as long as there is more than one element
  left. What it comes to is the number of elements up to the byte, by
  `line_search`.
- Both together make the line of a byte the number of line ends in front of
  it (`countP_eq_ncard`).
-/
import Mathlib.Data.Finset.Max
import Mathlib.Data.Set.Card
import ScriptLint.Text.LineMap

namespace ScriptLint.Text

-- ============================================================ line ends

/-- Whether a line ends between two parts of a text. A carriage return
ends it only where it is not the first half of a pair. -/
def EndsLine (front back : List Char) : Prop :=
  front.getLast? = some '\n'
    ∨ front.getLast? = some '\r' ∧ back.head? ≠ some '\n'

/-- Whether a line end of the text ends at the byte. -/
def EndsLineAt (cs : List Char) (n : Nat) : Prop :=
  ∃ front back, front ++ back = cs ∧ byteLength front = n
    ∧ EndsLine front back

/-- Whether a line of the text begins at the byte. -/
def BeginsLineAt (cs : List Char) (n : Nat) : Prop :=
  n = 0 ∨ EndsLineAt cs n

variable {cs front back : List Char} {c : Char} {n : Nat}

theorem not_endsLine_nil : ¬ EndsLine [] back := by
  simp [EndsLine]

/-- Of what stands in front of a line end only the last character
counts. -/
theorem endsLine_cons_iff (h : front ≠ []) :
    EndsLine (c :: front) back ↔ EndsLine front back := by
  obtain ⟨d, ds, rfl⟩ := List.exists_cons_of_ne_nil h
  rw [EndsLine, EndsLine, List.getLast?_cons_cons]

theorem not_endsLineAt_nil : ¬ EndsLineAt [] n := by
  rintro ⟨front, back, htext, -, hends⟩
  rw [(List.append_eq_nil_iff.1 htext).1] at hends
  exact not_endsLine_nil hends

/-- A line end of a text ends behind the first character, or it is one of
the rest. -/
theorem endsLineAt_cons_iff :
    EndsLineAt (c :: cs) n ↔ n = c.utf8Size ∧ EndsLine [c] cs
      ∨ ∃ k, n = c.utf8Size + k ∧ EndsLineAt cs k := by
  constructor
  · rintro ⟨front, back, htext, rfl, hends⟩
    cases front with
    | nil => exact absurd hends not_endsLine_nil
    | cons d front =>
        rw [List.cons_append, List.cons.injEq] at htext
        obtain ⟨rfl, htext⟩ := htext
        rw [byteLength_cons]
        by_cases hfront : front = []
        · subst hfront
          rw [List.nil_append] at htext
          exact .inl ⟨by simp, htext ▸ hends⟩
        · exact .inr ⟨_, rfl, front, back, htext, rfl,
            (endsLine_cons_iff hfront).1 hends⟩
  · rintro (⟨rfl, hends⟩ | ⟨k, rfl, front, back, htext, rfl, hends⟩)
    · exact ⟨[c], cs, rfl, by simp, hends⟩
    · have hfront : front ≠ [] := by
        rintro rfl
        exact not_endsLine_nil hends
      exact ⟨c :: front, back, by rw [List.cons_append, htext],
        byteLength_cons .., (endsLine_cons_iff hfront).2 hends⟩

/-- The line feed of a pair ends the line, the carriage return does
not. -/
theorem endsLineAt_pair_iff :
    EndsLineAt ('\r' :: '\n' :: cs) n
      ↔ n = 2 ∨ ∃ k, n = 2 + k ∧ EndsLineAt cs k := by
  have hreturn : ¬ EndsLine ['\r'] ('\n' :: cs) := by simp [EndsLine]
  have hfeed : EndsLine ['\n'] cs := .inl rfl
  have hone : ('\r').utf8Size = 1 ∧ ('\n').utf8Size = 1 := by decide
  rw [endsLineAt_cons_iff, hone.1]
  constructor
  · rintro (⟨-, hends⟩ | ⟨k, rfl, hends⟩)
    · exact absurd hends hreturn
    · rw [endsLineAt_cons_iff, hone.2] at hends
      rcases hends with ⟨rfl, -⟩ | ⟨j, rfl, hends⟩
      · exact .inl rfl
      · exact .inr ⟨j, by omega, hends⟩
  · intro h
    refine .inr ⟨n - 1, by omega, ?_⟩
    rw [endsLineAt_cons_iff, hone.2]
    rcases h with rfl | ⟨k, rfl, hends⟩
    · exact .inl ⟨rfl, hfeed⟩
    · exact .inr ⟨k, by omega, hends⟩

theorem isLineEnd_iff : isLineEnd c = true ↔ c = '\n' ∨ c = '\r' := by
  simp [isLineEnd]

/-- A line end is one byte. -/
theorem utf8Size_of_isLineEnd (h : isLineEnd c = true) : c.utf8Size = 1 := by
  rcases isLineEnd_iff.1 h with rfl | rfl <;> decide

/-- Where no pair is cut, a line ends behind a character that is a line
end. -/
theorem endsLine_singleton_iff
    (h : ∀ ds, c = '\r' → cs = '\n' :: ds → False) :
    EndsLine [c] cs ↔ isLineEnd c = true := by
  rw [isLineEnd_iff, EndsLine, List.getLast?_singleton, Option.some_inj,
    Option.some_inj]
  constructor
  · rintro (hfeed | ⟨hreturn, -⟩)
    · exact .inl hfeed
    · exact .inr hreturn
  · rintro (hfeed | hreturn)
    · exact .inl hfeed
    · refine .inr ⟨hreturn, fun hhead => ?_⟩
      obtain ⟨ds, hds⟩ := List.head?_eq_some_iff.1 hhead
      exact h ds hreturn hds

/-- No line ends behind the text. -/
theorem EndsLineAt.le_byteLength (h : EndsLineAt cs n) :
    n ≤ byteLength cs := by
  obtain ⟨front, back, rfl, rfl, -⟩ := h
  rw [byteLength_append]
  omega

/-- There is something in front of a line end. -/
theorem EndsLineAt.pos (h : EndsLineAt cs n) : 0 < n := by
  cases cs with
  | nil => exact absurd h not_endsLineAt_nil
  | cons c cs =>
      have hsize := c.utf8Size_pos
      rcases endsLineAt_cons_iff.1 h with ⟨rfl, -⟩ | ⟨k, rfl, -⟩
      · exact hsize
      · omega

-- ========================================================== line starts

namespace LineMap

/-- The lines that begin behind the first begin where a line ends. -/
theorem mem_startsAfter_iff {offset : Nat} :
    n ∈ startsAfter offset cs ↔ ∃ k, n = offset + k ∧ EndsLineAt cs k := by
  fun_induction startsAfter offset cs with
  | case1 => simp [not_endsLineAt_nil]
  -- a carriage return and a line feed end one line together
  | case2 offset cs ih =>
    rw [List.mem_cons, ih]
    constructor
    · rintro (rfl | ⟨k, rfl, hends⟩)
      · exact ⟨2, rfl, endsLineAt_pair_iff.2 (.inl rfl)⟩
      · exact ⟨2 + k, by omega, endsLineAt_pair_iff.2 (.inr ⟨k, rfl, hends⟩)⟩
    · rintro ⟨k, rfl, hends⟩
      rcases endsLineAt_pair_iff.1 hends with rfl | ⟨j, rfl, hmore⟩
      · exact .inl rfl
      · exact .inr ⟨j, by omega, hmore⟩
  | case3 offset c cs hpair hend ih =>
    have hsize := utf8Size_of_isLineEnd hend
    have hends := (endsLine_singleton_iff hpair).2 hend
    rw [List.mem_cons, ih]
    constructor
    · rintro (rfl | ⟨k, rfl, hmore⟩)
      · exact ⟨1, rfl, endsLineAt_cons_iff.2 (.inl ⟨hsize.symm, hends⟩)⟩
      · exact ⟨1 + k, by omega,
          endsLineAt_cons_iff.2 (.inr ⟨k, by omega, hmore⟩)⟩
    · rintro ⟨k, rfl, hany⟩
      rcases endsLineAt_cons_iff.1 hany with ⟨rfl, -⟩ | ⟨j, rfl, hmore⟩
      · exact .inl (by omega)
      · exact .inr ⟨j, by omega, hmore⟩
  | case4 offset c cs hpair hend ih =>
    rw [ih]
    constructor
    · rintro ⟨k, rfl, hmore⟩
      exact ⟨c.utf8Size + k, by omega,
        endsLineAt_cons_iff.2 (.inr ⟨k, rfl, hmore⟩)⟩
    · rintro ⟨k, rfl, hany⟩
      rcases endsLineAt_cons_iff.1 hany with ⟨-, hends⟩ | ⟨j, rfl, hmore⟩
      · exact absurd ((endsLine_singleton_iff hpair).1 hends) hend
      · exact ⟨j, by omega, hmore⟩

/-- A line map lists the bytes at which lines begin. -/
theorem mem_starts_iff {text : String} :
    n ∈ (ofText text).starts ↔ BeginsLineAt text.toList n := by
  rw [ofText, List.mem_cons, mem_startsAfter_iff, BeginsLineAt]
  simp

/-- What is counted in a strictly increasing list is as many numbers. -/
theorem countP_eq_ncard {l : List Nat} (h : l.Pairwise (· < ·))
    (p : Nat → Prop) [DecidablePred p] :
    l.countP (p ·) = {n | n ∈ l ∧ p n}.ncard := by
  have hnodup : (l.filter (p ·)).Nodup :=
    (h.imp fun hlt => Nat.ne_of_lt hlt).filter _
  have hset : {n | n ∈ l ∧ p n} = ((l.filter (p ·)).toFinset : Set Nat) := by
    ext n
    simp
  rw [hset, Set.ncard_coe_finset, List.toFinset_card_of_nodup hnodup,
    List.countP_eq_length_filter]

/-- The number of a line is one more than the line ends up to it. -/
theorem lineOf_eq_ncard (text : String) (offset : Nat) :
    (ofText text).lineOf offset
      = 1 + {n | EndsLineAt text.toList n ∧ n ≤ offset}.ncard := by
  have hmem (n : Nat) :
      n ∈ startsAfter 0 text.toList ↔ EndsLineAt text.toList n := by
    simp [mem_startsAfter_iff]
  rw [lineOf_ofText, ofText, List.countP_cons_of_pos (by simp),
    countP_eq_ncard (pairwise_startsAfter 0 text.toList), Nat.add_comm]
  simp only [hmem]

/-- A byte lies in the last line when no line begins behind it. -/
theorem lineOf_eq_count_iff (text : String) (offset : Nat) :
    (ofText text).lineOf offset = (ofText text).count
      ↔ ∀ n, BeginsLineAt text.toList n → n ≤ offset := by
  rw [lineOf_ofText, count, List.countP_eq_length]
  simp only [mem_starts_iff, decide_eq_true_eq]

/-- The end of the text is in its last line. -/
theorem lineOf_byteLength (text : String) :
    (ofText text).lineOf (byteLength text.toList) = (ofText text).count := by
  rw [lineOf_eq_count_iff]
  rintro n (rfl | hends)
  · exact Nat.zero_le _
  · exact hends.le_byteLength

/-- One of the lines is the last. -/
theorem exists_isGreatest_beginsLineAt (text : String) :
    ∃ start, IsGreatest {n | BeginsLineAt text.toList n} start := by
  have hset : {n | BeginsLineAt text.toList n}
      = ((ofText text).starts.toFinset : Set Nat) := by
    ext n
    simp [mem_starts_iff]
  have hfirst : 0 ∈ (ofText text).starts.toFinset := by
    rw [List.mem_toFinset, mem_starts_iff]
    exact .inl rfl
  rw [hset]
  exact ⟨_, Finset.isGreatest_max' _ ⟨0, hfirst⟩⟩

/-- For every text and every byte, the line of the byte is one more than
the number of line ends that end at or before it; a pair of carriage return
and line feed counts once, and so does each of the two alone. So later
bytes lie in later lines or in the same, the first byte lies in line 1, and
just the bytes from the start of the last line on, also those behind the
text, lie in the line whose number is how many lines there are. -/
theorem lineOf_counts (text : String) :
    (∀ offset, (ofText text).lineOf offset
        = 1 + {n | EndsLineAt text.toList n ∧ n ≤ offset}.ncard)
      ∧ Monotone (ofText text).lineOf
      ∧ (ofText text).lineOf 0 = 1
      ∧ ∃ start, IsGreatest {n | BeginsLineAt text.toList n} start
        ∧ ∀ offset, (ofText text).lineOf offset = (ofText text).count
          ↔ start ≤ offset := by
  obtain ⟨start, hstart⟩ := exists_isGreatest_beginsLineAt text
  refine ⟨lineOf_eq_ncard text, fun m n hle => ?_, ?_, start, hstart,
    fun offset => ?_⟩
  · rw [lineOf_ofText, lineOf_ofText]
    exact List.countP_mono_left fun k _ hk =>
      decide_eq_true (Nat.le_trans (of_decide_eq_true hk) hle)
  · have hnone : {n | EndsLineAt text.toList n ∧ n ≤ 0} = ∅ :=
      Set.eq_empty_of_forall_notMem fun n hn => by
        have hpos := hn.1.pos
        have hle := hn.2
        omega
    rw [lineOf_eq_ncard, hnone, Set.ncard_empty]
  · rw [lineOf_eq_count_iff]
    exact ⟨fun h => h start hstart.1,
      fun hle n hn => Nat.le_trans (hstart.2 hn) hle⟩

/-- A pair of carriage return and line feed is one line end, and so are
each of the two alone. -/
example : (ofText "a\r\n\n\rb").starts = [0, 3, 4, 5] := by decide

end LineMap

end ScriptLint.Text
