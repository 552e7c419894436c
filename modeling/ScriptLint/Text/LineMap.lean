/-
Line numbers. A line map lists the byte offsets at which the lines of a
text begin; a line feed, a carriage return and the pair of both end a
line, other separators do not. Lines are counted from 1, and the line of a
byte is found by a binary search among the beginnings.
-/
import ScriptLint.Text.CharClass
import ScriptLint.Text.Offset

namespace ScriptLint.Text

/-- Where the lines of a text begin, in increasing order. -/
structure LineMap where
  starts : List Nat
  deriving Repr, DecidableEq

namespace LineMap

-- =============================================================== search

/-- What the search for a number in an increasing list comes to. -/
inductive Hit where
  /-- The number stands at the index. -/
  | found (index : Nat)
  /-- The number is not in the list, and so many of the list are below
  it. -/
  | missed (below : Nat)
  deriving Repr, DecidableEq

namespace Hit

/-- The same hit in a list with `n` more numbers in front. -/
def behind (n : Nat) : Hit → Hit
  | found index => found (n + index)
  | missed below => missed (n + below)

/-- The line that a hit among the line starts stands for: the one that
begins there, or else the last of those that begin before. -/
def line : Hit → Nat
  | found index => index + 1
  | missed below => below

@[simp] theorem line_behind (n : Nat) (hit : Hit) :
    (hit.behind n).line = n + hit.line := by
  cases hit <;> rfl

end Hit

/-- Binary search for a number in an increasing list. -/
def search (n : Nat) (starts : List Nat) : Hit :=
  let half := starts.length / 2
  match _h : starts.drop half with
  | [] => .missed 0
  | start :: right =>
    if start = n then .found half
    else if start < n then (search n right).behind (half + 1)
    else search n (starts.take half)
termination_by starts.length
decreasing_by
  · have hlength := congrArg List.length _h
    simp only [List.length_drop, List.length_cons] at hlength
    omega
  · have hlength := congrArg List.length _h
    simp only [List.length_drop, List.length_cons] at hlength
    rw [List.length_take]
    omega

/-- A strictly increasing list, cut at one of its numbers: the numbers in
front are below it, those behind are above it. -/
theorem halves_of_pairwise {k start : Nat} {starts right : List Nat}
    (h : starts.Pairwise (· < ·)) (hsplit : starts.drop k = start :: right) :
    starts = starts.take k ++ start :: right ∧ (starts.take k).length = k
      ∧ (∀ m ∈ starts.take k, m < start) ∧ (∀ m ∈ right, start < m)
      ∧ (starts.take k).Pairwise (· < ·) ∧ right.Pairwise (· < ·) := by
  have hstarts := (List.take_append_drop k starts).symm
  have hlength := congrArg List.length hsplit
  simp only [List.length_drop, List.length_cons] at hlength
  rw [hsplit] at hstarts
  rw [hstarts, List.pairwise_append, List.pairwise_cons] at h
  obtain ⟨hleft, ⟨habove, hright⟩, hbelow⟩ := h
  exact ⟨hstarts, List.length_take_of_le (by omega),
    fun m hm => hbelow m hm start (List.mem_cons_self ..), habove, hleft,
    hright⟩

/-- In a strictly increasing list the search tells how many numbers are
not above the one that is looked for. -/
theorem line_search {n : Nat} {starts : List Nat}
    (h : starts.Pairwise (· < ·)) :
    (search n starts).line = starts.countP (· ≤ n) := by
  have hall : ∀ {l : List Nat}, (∀ m ∈ l, m ≤ n) →
      l.countP (· ≤ n) = l.length := fun hl =>
    List.countP_eq_length.2 fun m hm => decide_eq_true (hl m hm)
  have hnone : ∀ {l : List Nat}, (∀ m ∈ l, n < m) →
      l.countP (· ≤ n) = 0 := fun hl =>
    List.countP_eq_zero.2 fun m hm => by simpa using hl m hm
  fun_induction search n starts with
  | case1 starts half hempty =>
    have hlength := congrArg List.length hempty
    simp only [List.length_drop, List.length_nil] at hlength
    rw [List.eq_nil_of_length_eq_zero (by omega : starts.length = 0)]
    rfl
  | case2 starts half right hsplit =>
    obtain ⟨hstarts, hlength, hbelow, habove, -⟩ := halves_of_pairwise h hsplit
    rw [hstarts, List.countP_append, List.countP_cons_of_pos (by simp),
      hall fun m hm => Nat.le_of_lt (hbelow m hm), hnone habove, hlength]
    rfl
  | case3 starts half start right hsplit hne hlt ih =>
    obtain ⟨hstarts, hlength, hbelow, -, -, hright⟩ :=
      halves_of_pairwise h hsplit
    rw [hstarts, List.countP_append,
      List.countP_cons_of_pos (by simpa using Nat.le_of_lt hlt),
      hall fun m hm => Nat.le_of_lt (Nat.lt_trans (hbelow m hm) hlt), hlength,
      Hit.line_behind, ih hright]
    omega
  | case4 starts half start right hsplit hne hlt ih =>
    obtain ⟨hstarts, -, -, habove, hleft, -⟩ := halves_of_pairwise h hsplit
    have hstart : n < start := by omega
    rw [ih hleft]
    conv => rhs; rw [hstarts]
    rw [List.countP_append, hnone (l := start :: right)]
    · rfl
    · intro m hm
      rcases List.mem_cons.1 hm with rfl | hm
      · exact hstart
      · exact Nat.lt_trans hstart (habove m hm)

-- ================================================================= maps

/-- The line starts behind the first, for a text that begins at byte
`offset`. -/
def startsAfter : Nat → List Char → List Nat
  | _, [] => []
  | offset, '\r' :: '\n' :: cs =>
    (offset + 2) :: startsAfter (offset + 2) cs
  | offset, c :: cs =>
    if isLineEnd c then (offset + 1) :: startsAfter (offset + 1) cs
    else startsAfter (offset + c.utf8Size) cs

/-- Behind the first line no line begins before the text does. -/
theorem lt_of_mem_startsAfter {offset n : Nat} {cs : List Char}
    (h : n ∈ startsAfter offset cs) : offset < n := by
  fun_induction startsAfter offset cs with
  | case1 => cases h
  | case2 offset cs ih =>
    rcases List.mem_cons.1 h with rfl | h
    · omega
    · have := ih h
      omega
  | case3 offset c cs _ _ ih =>
    rcases List.mem_cons.1 h with rfl | h
    · omega
    · have := ih h
      omega
  | case4 offset c cs _ _ ih =>
    have := ih h
    omega

/-- Lines begin one behind the other. -/
theorem pairwise_startsAfter (offset : Nat) (cs : List Char) :
    (startsAfter offset cs).Pairwise (· < ·) := by
  fun_induction startsAfter offset cs with
  | case1 => exact .nil
  | case2 offset cs ih =>
    exact .cons (fun n hn => lt_of_mem_startsAfter hn) ih
  | case3 offset c cs _ _ ih =>
    exact .cons (fun n hn => lt_of_mem_startsAfter hn) ih
  | case4 offset c cs _ _ ih => exact ih

/-- The line map of a text. The first line begins at byte 0, also in an
empty text. -/
def ofText (text : String) : LineMap :=
  ⟨0 :: startsAfter 0 text.toList⟩

/-- How many lines the text has. -/
def count (lines : LineMap) : Nat := lines.starts.length

/-- The line that holds the byte at `offset`: the last that begins at or
before it. Behind the text this is the last line. -/
def lineOf (lines : LineMap) (offset : Nat) : Nat :=
  (search offset lines.starts).line

theorem pairwise_starts (text : String) :
    (ofText text).starts.Pairwise (· < ·) :=
  .cons (fun _ => lt_of_mem_startsAfter) (pairwise_startsAfter 0 text.toList)

/-- The number of a line is how many lines begin up to there. -/
theorem lineOf_ofText (text : String) (offset : Nat) :
    (ofText text).lineOf offset
      = (ofText text).starts.countP (· ≤ offset) :=
  line_search (pairwise_starts text)

/-- The text of a line without its end. `source` is normally the text
that the map was made from; when it is another, the line is `none`
wherever the cut is not possible. -/
def lineText? (lines : LineMap) (source : String) (line : Nat) :
    Option String := do
  guard (line ≠ 0)
  let start ← lines.starts[line - 1]?
  let cs := source.toList
  let stop := lines.starts[line]?.getD (byteLength cs)
  let slice ← slice? cs start stop
  return String.ofList (slice.reverse.dropWhile isLineEnd).reverse

end LineMap

end ScriptLint.Text
