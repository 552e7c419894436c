/-
Lines by their tables. In a text of less than 2^32 bytes every line start
fits into the 32 bits that a table has for it, so what the table lists is
what the line map lists (`LineTable.toLineMap_ofText`). A table then gives
the same line of every byte as the map, and the same text of every line,
as long as the lines can be counted in 32 bits as well.

The second bound is no consequence of the first, but nearly: a text has at
most one line more than it has bytes (`LineMap.count_le`). Of all texts of
less than 2^32 bytes it excludes the one that consists of 2^32 - 1 line
ends, whose last line begins at the last offset there is and has the number
2^32, which is stored as 0.

What lines are is said for line maps (`LineMap.lineOf_counts`,
`LineMap.lineText?_rows`); here it is carried over to what is stored.
-/
import ScriptLint.Proofs.Text.LineTexts
import ScriptLint.Text.LineTable

namespace ScriptLint.Text

variable {text : String}

-- =============================================================== widths

/-- A line end takes a byte, so there are no more lines behind the first
than there are bytes. -/
theorem LineMap.length_startsAfter_le (offset : Nat) (cs : List Char) :
    (startsAfter offset cs).length ≤ byteLength cs := by
  fun_induction startsAfter offset cs with
  | case1 => simp
  | case2 offset cs ih =>
    have hsizes : ('\r').utf8Size = 1 ∧ ('\n').utf8Size = 1 := by decide
    rw [List.length_cons, byteLength_cons, byteLength_cons]
    omega
  | case3 offset c cs _ _ ih =>
    have hsize := c.utf8Size_pos
    rw [List.length_cons, byteLength_cons]
    omega
  | case4 offset c cs _ _ ih =>
    rw [byteLength_cons]
    omega

/-- A text has at most one line more than it has bytes. -/
theorem LineMap.count_le (text : String) :
    (ofText text).count ≤ byteLength text.toList + 1 := by
  have hle := length_startsAfter_le 0 text.toList
  rw [count, ofText, List.length_cons]
  omega

/-- There is no line behind the last. -/
theorem LineMap.lineOf_le_count (text : String) (offset : Nat) :
    (ofText text).lineOf offset ≤ (ofText text).count := by
  rw [lineOf_ofText]
  exact List.countP_le_length

namespace LineTable

/-- What is stored for a line is where it begins, if that fits. -/
theorem toNat_behind {last : Nat} (h : last + 1 < 2 ^ 32) :
    (behind last).toNat = last + 1 := by
  rw [behind, UInt32.toNat_add, UInt32.toNat_ofNat_of_lt' (Nat.lt_of_succ_lt h),
    UInt32.toNat_one, Nat.mod_eq_of_lt h]

/-- Up to 2^32 bytes nothing wraps around. -/
theorem toNat_startsAfter {offset : Nat} {cs : List Char}
    (h : offset + byteLength cs < 2 ^ 32) :
    (startsAfter offset cs).map UInt32.toNat
      = LineMap.startsAfter offset cs := by
  fun_induction LineMap.startsAfter offset cs with
  | case1 => rfl
  | case2 offset cs ih =>
    have hsizes : ('\r').utf8Size = 1 ∧ ('\n').utf8Size = 1 := by decide
    rw [byteLength_cons, byteLength_cons] at h
    rw [startsAfter, List.map_cons, toNat_behind (by omega),
      ih (by omega)]
  | case3 offset c cs hpair hend ih =>
    have hsize := utf8Size_of_isLineEnd hend
    rw [byteLength_cons] at h
    rw [startsAfter.eq_3 _ _ _ hpair, if_pos hend, List.map_cons,
      toNat_behind (by omega), ih (by omega)]
  | case4 offset c cs hpair hend ih =>
    rw [byteLength_cons] at h
    rw [startsAfter.eq_3 _ _ _ hpair, if_neg hend, ih (by omega)]

/-- The table of a text lists what its line map lists. -/
theorem toLineMap_ofText (hbytes : byteLength text.toList < 2 ^ 32) :
    (ofText text).toLineMap = .ofText text := by
  rw [toLineMap, ofText, List.map_cons, UInt32.toNat_zero,
    toNat_startsAfter (by omega), LineMap.ofText]

theorem count_toLineMap (table : LineTable) :
    table.toLineMap.count = table.count := by
  rw [LineMap.count, toLineMap, List.length_map, count]

theorem count_ofText (hbytes : byteLength text.toList < 2 ^ 32) :
    (ofText text).count = (LineMap.ofText text).count := by
  rw [← toLineMap_ofText hbytes, count_toLineMap]

-- ================================================================ lines

/-- The line of a byte by the table is that by the map, in 32 bits. -/
theorem toNat_lineOf (table : LineTable) (offset : UInt32)
    (h : table.toLineMap.lineOf offset.toNat < 2 ^ 32) :
    (table.lineOf offset).toNat = table.toLineMap.lineOf offset.toNat := by
  unfold lineOf
  unfold LineMap.lineOf at h ⊢
  split
  case h_1 index hhit =>
      rw [hhit, LineMap.Hit.line] at h ⊢
      exact toNat_behind h
  case h_2 below hhit =>
      rw [hhit, LineMap.Hit.line] at h ⊢
      exact UInt32.toNat_ofNat_of_lt' h

/-- In a text that its table has room for, the table gives the line of
every byte as the map does. -/
theorem lineOf_ofText (hbytes : byteLength text.toList < 2 ^ 32)
    (hlines : (ofText text).count < 2 ^ 32) (offset : UInt32) :
    ((ofText text).lineOf offset).toNat
      = (LineMap.ofText text).lineOf offset.toNat := by
  have hmap := toLineMap_ofText hbytes
  rw [count_ofText hbytes] at hlines
  have hfits : (ofText text).toLineMap.lineOf offset.toNat < 2 ^ 32 := by
    rw [hmap]
    exact Nat.lt_of_le_of_lt (LineMap.lineOf_le_count text _) hlines
  rw [toNat_lineOf _ _ hfits, hmap]

/-- The text of a line is what the map cuts out for it, of any source. -/
theorem lineText?_eq (table : LineTable) (source : String) (line : UInt32) :
    table.lineText? source line
      = table.toLineMap.lineText? source line.toNat := by
  have hzero : line ≠ 0 ↔ line.toNat ≠ 0 := by
    rw [ne_eq, ne_eq, ← UInt32.toNat_inj, UInt32.toNat_zero]
  have hstored (n : Nat) : table.toLineMap.starts[n]?
      = table.starts[n]?.map UInt32.toNat := List.getElem?_map
  have hstop : table.starts[line.toNat]?.elim (byteLength source.toList)
        UInt32.toNat
      = (table.starts[line.toNat]?.map UInt32.toNat).getD
        (byteLength source.toList) := by
    cases table.starts[line.toNat]? <;> rfl
  rw [lineText?, LineMap.lineText?]
  simp only [hzero, hstored, hstop]
  cases table.starts[line.toNat - 1]? <;> rfl

-- ======================================================== what is stored

/-- For every text of less than 2^32 bytes and lines, and every offset: the
line of the offset that the table gives is one more than the number of line
ends that end at or before it; a pair of carriage return and line feed
counts once, and so does each of the two alone. So later offsets lie in
later lines or in the same, the first lies in line 1, and just the offsets
from the start of the last line on, also those behind the text, lie in the
line whose number is how many lines there are. -/
theorem lineOf_counts_endsLineAt (text : String)
    (hbytes : byteLength text.toList < 2 ^ 32)
    (hlines : (ofText text).count < 2 ^ 32) :
    (∀ offset, ((ofText text).lineOf offset).toNat
        = 1 + {n | EndsLineAt text.toList n ∧ n ≤ offset.toNat}.ncard)
      ∧ (∀ offset later, offset ≤ later →
        (ofText text).lineOf offset ≤ (ofText text).lineOf later)
      ∧ (ofText text).lineOf 0 = 1
      ∧ ∃ start : UInt32,
        IsGreatest {n | BeginsLineAt text.toList n} start.toNat
        ∧ ∀ offset,
          ((ofText text).lineOf offset).toNat = (ofText text).count
            ↔ start ≤ offset := by
  have hline := lineOf_ofText hbytes hlines
  obtain ⟨hcounts, hmono, hfirst, start, hstart, hlast⟩ :=
    LineMap.lineOf_counts text
  -- the last line begins within the text, so its start can be written down
  have hfits : start < 2 ^ 32 := by
    refine Nat.lt_of_le_of_lt ?_ hbytes
    rcases hstart.1 with rfl | hends
    · exact Nat.zero_le _
    · exact hends.le_byteLength
  have hnat : (UInt32.ofNat start).toNat = start :=
    UInt32.toNat_ofNat_of_lt' hfits
  refine ⟨fun offset => (hline offset).trans (hcounts _),
    fun offset later hle => ?_, ?_, .ofNat start, hnat.symm ▸ hstart,
    fun offset => ?_⟩
  · rw [UInt32.le_iff_toNat_le, hline, hline]
    exact hmono (UInt32.le_iff_toNat_le.1 hle)
  · rw [← UInt32.toNat_inj, hline]
    exact hfirst
  · rw [hline, count_ofText hbytes, UInt32.le_iff_toNat_le, hnat]
    exact hlast _

theorem lineOf_counts_endsLineAt_ends :
    (∀ offset, ((ofText "a\r\n\n\rb").lineOf offset).toNat
        = 1 + {n | EndsLineAt "a\r\n\n\rb".toList n
          ∧ n ≤ offset.toNat}.ncard)
      ∧ (ofText "a\r\n\n\rb").starts = [0, 3, 4, 5]
      ∧ (ofText "a\r\n\n\rb").lineOf 2 = 1
      ∧ (ofText "a\r\n\n\rb").lineOf 3 = 2
      ∧ (ofText "a\r\n\n\rb").lineOf 9 = 4 := by
  have hcounts := lineOf_counts_endsLineAt "a\r\n\n\rb" (by decide)
    (by decide)
  exact ⟨hcounts.1, by decide, by decide +kernel, by decide +kernel,
    by decide +kernel⟩

/-- For every text of less than 2^32 bytes and lines: the table gives a
line for each number from 1 to the number of its lines and for no other;
there is no line end in a line; and the lines in order, each but the last
with the line end that closes it, are the text. -/
theorem lineText?_layout (text : String)
    (hbytes : byteLength text.toList < 2 ^ 32)
    (hlines : (ofText text).count < 2 ^ 32) :
    (∀ n, ((ofText text).lineText? text n).isSome = true
        ↔ 1 ≤ n.toNat ∧ n.toNat ≤ (ofText text).count)
      ∧ (∀ n line, (ofText text).lineText? text n = some line →
        ∀ c ∈ line.toList, c ≠ '\r' ∧ c ≠ '\n')
      ∧ ∃ rows last, Row.charsOf rows ++ last = text.toList
        ∧ IsLayout rows last
        ∧ (ofText text).count = rows.length + 1
        ∧ (List.range (ofText text).count).map
            (fun i => (ofText text).lineText? text (.ofNat (i + 1)))
          = (rows.map Row.line ++ [last]).map
            fun line => some (String.ofList line) := by
  obtain ⟨hsome, hbare, rows, last, htext, hlayout, hcount, hline⟩ :=
    LineMap.lineText?_rows text
  have hmap := toLineMap_ofText hbytes
  rw [← count_ofText hbytes] at hsome hcount
  simp only [lineText?_eq, hmap]
  refine ⟨fun n => hsome n.toNat, fun n => hbare n.toNat, rows, last, htext,
    hlayout, hcount, List.ext_getElem? fun i => ?_⟩
  -- the two lists agree at every place, within the lines and behind them
  rw [List.getElem?_map, List.getElem?_map]
  rcases Nat.lt_or_ge i (ofText text).count with hlt | hge
  · -- a number of a line is one that the table can be asked for
    have hnat : (UInt32.ofNat (i + 1)).toNat = i + 1 :=
      UInt32.toNat_ofNat_of_lt' (Nat.lt_of_le_of_lt hlt hlines)
    have hlength : i < (rows.map Row.line ++ [last]).length := by
      simpa [hcount] using hlt
    rw [List.getElem?_range hlt, Option.map_some, hnat, hline,
      List.getElem?_eq_getElem hlength]
    rfl
  · have hlength : (rows.map Row.line ++ [last]).length ≤ i := by
      simpa [hcount] using hge
    rw [List.getElem?_eq_none (by simpa using hge),
      List.getElem?_eq_none hlength]
    rfl

theorem lineText?_layout_ends :
    ((ofText "\r\r\n\nb").lineText? "\r\r\n\nb" 4 = some "b"
        ∧ (ofText "\r\r\n\nb").count = 4)
      ∧ ∀ n line,
        (ofText "\r\r\n\nb").lineText? "\r\r\n\nb" n = some line →
        ∀ c ∈ line.toList, c ≠ '\r' ∧ c ≠ '\n' :=
  ⟨by decide, (lineText?_layout "\r\r\n\nb" (by decide) (by decide)).2.1⟩

end LineTable

end ScriptLint.Text
