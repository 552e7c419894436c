/-
The texts of lines. Every text is laid out in rows, each a line with the
line end that closes it, and the last line, which nothing closes
(`exists_isLayout`). There is no line end in a line, and no pair is cut in
two: a carriage return that closes a line alone has no line feed behind it.

The line map of a text lists where the rows of its layout end
(`LineMap.startsAfter_charsOf`), so what lies between two starts is a row.
The text of a line is what is left when all the characters of line ends
are taken off the end of its row, and as there are none in the line, that
takes off just the one line end (`LineMap.dropWhile_closed`). Hence
nothing of a text is lost between its lines but the line ends
(`LineMap.lineText?_rows`).

# The argument

- `exists_isLayout` goes along the recursion that lists the line starts,
  and closes a row wherever that lists one.
- The starts behind a row are those of the rest, moved by the length of the
  row (`startsAfter_charsOf`), so the slice between two starts is one row
  (`lineText?_row`).
- The last line has no row behind it and is cut off at the end of the text
  (`lineText?_last`).
-/
import ScriptLint.Proofs.Runs
import ScriptLint.Proofs.Text.LineStarts
import ScriptLint.Proofs.Token.Tiling

namespace ScriptLint.Text

-- ============================================================== layouts

/-- The three ways to close a line. -/
inductive LineEnd where
  | feed
  | carriage
  | pair
  deriving Repr, DecidableEq

/-- What a line end is written with. -/
def LineEnd.chars : LineEnd → List Char
  | .feed => ['\n']
  | .carriage => ['\r']
  | .pair => ['\r', '\n']

/-- A line with the line end behind it. -/
structure Row where
  line : List Char
  stop : LineEnd
  deriving Repr, DecidableEq

/-- The row as it stands in the text. -/
def Row.chars (row : Row) : List Char := row.line ++ row.stop.chars

/-- The text of several rows. -/
def Row.charsOf (rows : List Row) : List Char := rows.flatMap Row.chars

/-- Whether there is no line end in a line. -/
def Unbroken (line : List Char) : Prop := ∀ c ∈ line, isLineEnd c = false

/-- Whether rows, with a last line behind them, are what their text is laid
out in: no line has a line end in it, and where a carriage return closes a
line alone, it is not the first half of a pair. -/
def IsLayout : List Row → List Char → Prop
  | [], last => Unbroken last
  | row :: rows, last =>
    Unbroken row.line
      ∧ (row.stop = .carriage →
        (Row.charsOf rows ++ last).head? ≠ some '\n')
      ∧ IsLayout rows last

namespace Row

@[simp] theorem charsOf_nil : charsOf [] = [] := rfl

@[simp] theorem charsOf_cons (row : Row) (rows : List Row) :
    charsOf (row :: rows) = row.chars ++ charsOf rows := rfl

@[simp] theorem charsOf_append (rows more : List Row) :
    charsOf (rows ++ more) = charsOf rows ++ charsOf more :=
  List.flatMap_append

end Row

theorem isLineEnd_of_mem_chars {stop : LineEnd} :
    ∀ c ∈ stop.chars, isLineEnd c = true := by
  cases stop <;> simp [LineEnd.chars, isLineEnd_iff]

variable {c : Char} {cs line last : List Char} {rows : List Row}

theorem unbroken_nil : Unbroken [] := List.forall_mem_nil _

theorem unbroken_cons_iff :
    Unbroken (c :: line) ↔ isLineEnd c = false ∧ Unbroken line :=
  List.forall_mem_cons

theorem IsLayout.unbroken (h : IsLayout rows last) :
    ∀ line ∈ rows.map Row.line ++ [last], Unbroken line := by
  induction rows with
  | nil => exact List.forall_mem_singleton.2 h
  | cons row rows ih =>
      obtain ⟨hline, -, hmore⟩ := h
      exact List.forall_mem_cons.2 ⟨hline, ih hmore⟩

/-- A character that is no line end joins the first line of what stands
behind it. -/
theorem exists_isLayout_cons (hc : isLineEnd c = false)
    (h : IsLayout rows last) :
    ∃ rows' last',
      Row.charsOf rows' ++ last' = c :: (Row.charsOf rows ++ last)
        ∧ IsLayout rows' last' := by
  cases rows with
  | nil => exact ⟨[], c :: last, rfl, unbroken_cons_iff.2 ⟨hc, h⟩⟩
  | cons row rows =>
      obtain ⟨hline, hstop, hmore⟩ := h
      exact ⟨⟨c :: row.line, row.stop⟩ :: rows, last, rfl,
        unbroken_cons_iff.2 ⟨hc, hline⟩, hstop, hmore⟩

/-- Every text has a layout. -/
theorem exists_isLayout (cs : List Char) :
    ∃ rows last, Row.charsOf rows ++ last = cs ∧ IsLayout rows last := by
  fun_induction LineMap.startsAfter 0 cs with
  | case1 => exact ⟨[], [], rfl, unbroken_nil⟩
  | case2 offset cs ih =>
    obtain ⟨rows, last, rfl, hlayout⟩ := ih
    exact ⟨⟨[], .pair⟩ :: rows, last, rfl, unbroken_nil, by simp, hlayout⟩
  | case3 offset c cs hpair hend ih =>
    obtain ⟨rows, last, rfl, hlayout⟩ := ih
    rcases isLineEnd_iff.1 hend with rfl | rfl
    · exact ⟨⟨[], .feed⟩ :: rows, last, rfl, unbroken_nil, by simp, hlayout⟩
    · refine ⟨⟨[], .carriage⟩ :: rows, last, rfl, unbroken_nil,
        fun _ hhead => ?_, hlayout⟩
      obtain ⟨ds, hds⟩ := List.head?_eq_some_iff.1 hhead
      exact hpair ds rfl hds
  | case4 offset c cs hpair hend ih =>
    obtain ⟨rows, last, rfl, hlayout⟩ := ih
    exact exists_isLayout_cons (by simpa using hend) hlayout

-- ========================================================== line starts

namespace LineMap

/-- Where the rows end when the first begins at byte `offset`. -/
def stopsAfter : Nat → List Row → List Nat
  | _, [] => []
  | offset, row :: rows =>
    let stop := offset + byteLength row.chars
    stop :: stopsAfter stop rows

/-- No line begins within a line. -/
theorem startsAfter_unbroken {offset : Nat} (h : Unbroken line) :
    startsAfter offset (line ++ cs)
      = startsAfter (offset + byteLength line) cs := by
  induction line generalizing offset with
  | nil => rfl
  | cons c line ih =>
      obtain ⟨hc, hline⟩ := unbroken_cons_iff.1 h
      have hpair : ∀ ds, c = '\r' → line ++ cs = '\n' :: ds → False := by
        rintro _ rfl
        cases hc
      rw [List.cons_append, startsAfter.eq_3 _ _ _ hpair,
        if_neg (by simp [hc]), ih hline, byteLength_cons, Nat.add_assoc]

/-- A line begins behind a line end. -/
theorem startsAfter_lineEnd {offset : Nat} {stop : LineEnd}
    (h : stop = .carriage → cs.head? ≠ some '\n') :
    startsAfter offset (stop.chars ++ cs)
      = (offset + byteLength stop.chars)
        :: startsAfter (offset + byteLength stop.chars) cs := by
  cases stop with
  | feed => rfl
  | pair => rfl
  | carriage =>
      have hpair : ∀ ds, '\r' = '\r' → cs = '\n' :: ds → False := by
        rintro ds - rfl
        exact h rfl rfl
      show startsAfter offset ('\r' :: cs) = _
      rw [startsAfter.eq_3 _ _ _ hpair]
      rfl

/-- Behind the first line, lines begin where the rows end. -/
theorem startsAfter_charsOf {offset : Nat} (h : IsLayout rows last) :
    startsAfter offset (Row.charsOf rows ++ last) = stopsAfter offset rows := by
  induction rows generalizing offset with
  | nil =>
      have hnone : startsAfter offset (last ++ []) = _ := startsAfter_unbroken h
      rw [List.append_nil] at hnone
      exact hnone
  | cons row rows ih =>
      obtain ⟨hline, hstop, hmore⟩ := h
      rw [Row.charsOf_cons, Row.chars, List.append_assoc, List.append_assoc,
        startsAfter_unbroken hline, startsAfter_lineEnd hstop, ih hmore,
        Nat.add_assoc, ← byteLength_append]
      rfl

theorem length_stopsAfter (offset : Nat) (rows : List Row) :
    (stopsAfter offset rows).length = rows.length := by
  induction rows generalizing offset with
  | nil => rfl
  | cons row rows ih => rw [stopsAfter, List.length_cons, ih, List.length_cons]

/-- A row begins where those in front of it end. -/
theorem getElem?_stopsAfter (offset : Nat) (rows more : List Row) :
    (offset :: stopsAfter offset (rows ++ more))[rows.length]?
      = some (offset + byteLength (Row.charsOf rows)) := by
  induction rows generalizing offset with
  | nil => rfl
  | cons row rows ih =>
      rw [List.cons_append, List.length_cons, List.getElem?_cons_succ,
        stopsAfter, ih, Row.charsOf_cons, byteLength_append, Nat.add_assoc]

-- =========================================================== line texts

/-- A line is left of its row when all line ends are taken off the end. -/
theorem dropWhile_closed {tail : List Char} (h : Unbroken line)
    (htail : ∀ c ∈ tail, isLineEnd c = true) :
    ((line ++ tail).reverse.dropWhile isLineEnd).reverse = line := by
  have hsplit : (line ++ tail).reverse.takeWhile isLineEnd = tail.reverse
      ∧ (line ++ tail).reverse.dropWhile isLineEnd = line.reverse := by
    refine takeWhile_dropWhile_iff.2 ⟨List.reverse_append, ?_, ?_⟩
    · exact fun c hc => htail c (List.mem_reverse.1 hc)
    · exact fun c hc => h c (List.mem_reverse.1 (List.mem_of_mem_head? hc))
  rw [hsplit.2, List.reverse_reverse]

variable {text : String}

/-- The line map of a text that is laid out in rows. -/
theorem starts_eq (htext : Row.charsOf rows ++ last = text.toList)
    (h : IsLayout rows last) :
    (ofText text).starts = 0 :: stopsAfter 0 rows := by
  rw [ofText, ← htext, startsAfter_charsOf h]

/-- The text of a line is cut out between its start and the next. -/
theorem lineText?_of_slice {n start stop : Nat} {middle : List Char}
    (hstart : (ofText text).starts[n]? = some start)
    (hstop : (ofText text).starts[n + 1]?.getD (byteLength text.toList) = stop)
    (hslice : slice? text.toList start stop = some middle) :
    (ofText text).lineText? text (n + 1)
      = some (String.ofList (middle.reverse.dropWhile isLineEnd).reverse) := by
  simp [lineText?, hstart, hstop, hslice]

/-- A line that is closed. -/
theorem lineText?_row {before after : List Row} {row : Row}
    (htext : Row.charsOf (before ++ row :: after) ++ last = text.toList)
    (h : IsLayout (before ++ row :: after) last) (hrow : Unbroken row.line) :
    (ofText text).lineText? text (before.length + 1)
      = some (String.ofList row.line) := by
  have hstarts := starts_eq htext h
  have hstart : (ofText text).starts[before.length]?
      = some (byteLength (Row.charsOf before)) := by
    rw [hstarts, getElem?_stopsAfter, Nat.zero_add]
  have hstop : (ofText text).starts[before.length + 1]?
      = some (byteLength (Row.charsOf before) + byteLength row.chars) := by
    have hnext := getElem?_stopsAfter 0 (before ++ [row]) after
    rw [List.append_assoc, List.length_append] at hnext
    rw [hstarts]
    simpa using hnext
  have hslice := slice?_append (Row.charsOf before) row.chars
    (Row.charsOf after ++ last)
  have hwhole : Row.charsOf before
      ++ (row.chars ++ (Row.charsOf after ++ last)) = text.toList := by
    rw [← htext, Row.charsOf_append, Row.charsOf_cons]
    simp only [List.append_assoc]
  rw [hwhole] at hslice
  rw [lineText?_of_slice hstart (by rw [hstop]; rfl) hslice, Row.chars,
    dropWhile_closed hrow isLineEnd_of_mem_chars]

/-- The last line, which is not closed. -/
theorem lineText?_last (htext : Row.charsOf rows ++ last = text.toList)
    (h : IsLayout rows last) (hlast : Unbroken last) :
    (ofText text).lineText? text (rows.length + 1)
      = some (String.ofList last) := by
  have hstarts := starts_eq htext h
  have hstart : (ofText text).starts[rows.length]?
      = some (byteLength (Row.charsOf rows)) := by
    have hbegin := getElem?_stopsAfter 0 rows []
    rw [List.append_nil, Nat.zero_add] at hbegin
    rw [hstarts, hbegin]
  have hstop : (ofText text).starts[rows.length + 1]? = none := by
    rw [hstarts, List.getElem?_eq_none_iff, List.length_cons,
      length_stopsAfter]
  have hsize : byteLength text.toList
      = byteLength (Row.charsOf rows) + byteLength last := by
    rw [← htext, byteLength_append]
  have hslice := slice?_append (Row.charsOf rows) last []
  rw [List.append_nil, htext] at hslice
  have htrim : ((last ++ []).reverse.dropWhile isLineEnd).reverse = last :=
    dropWhile_closed hlast nofun
  rw [List.append_nil] at htrim
  rw [lineText?_of_slice hstart (by rw [hstop]; exact hsize) hslice, htrim]

/-- The lines that a line map gives of its text are those of the
layout. -/
theorem lineText?_eq_getElem? (htext : Row.charsOf rows ++ last = text.toList)
    (h : IsLayout rows last) (i : Nat) :
    (ofText text).lineText? text (i + 1)
      = ((rows.map Row.line ++ [last])[i]?).map String.ofList := by
  have hlines := h.unbroken
  rcases Nat.lt_trichotomy i rows.length with hlt | rfl | hgt
  · have hsplit : rows = rows.take i ++ rows[i] :: rows.drop (i + 1) := by
      rw [← List.drop_eq_getElem_cons hlt, List.take_append_drop]
    have hrow := hlines rows[i].line
      (List.mem_append_left _ (List.mem_map_of_mem (List.getElem_mem hlt)))
    rw [hsplit] at htext h
    have hline := lineText?_row htext h hrow
    rw [List.length_take_of_le (Nat.le_of_lt hlt)] at hline
    rw [hline, List.getElem?_append_left (by simpa using hlt)]
    simp [hlt]
  · have hlast := hlines last (List.mem_append_right _ (by simp))
    rw [lineText?_last htext h hlast,
      List.getElem?_append_right (by simp)]
    simp
  · have hnone : (ofText text).starts[i]? = none := by
      rw [starts_eq htext h, List.getElem?_eq_none_iff, List.length_cons,
        length_stopsAfter]
      exact hgt
    rw [List.getElem?_eq_none (by simpa using hgt)]
    simp [lineText?, hnone]

/-- For every text: it has a line for each number from 1 to the number of
its lines and for no other; there is no line end in a line; and the lines
in order, each but the last with the line end that closes it, are the
text. -/
theorem lineText?_rows (text : String) :
    (∀ n, ((ofText text).lineText? text n).isSome = true
        ↔ 1 ≤ n ∧ n ≤ (ofText text).count)
      ∧ (∀ n line, (ofText text).lineText? text n = some line →
        ∀ c ∈ line.toList, c ≠ '\r' ∧ c ≠ '\n')
      ∧ ∃ rows last, Row.charsOf rows ++ last = text.toList
        ∧ IsLayout rows last
        ∧ (ofText text).count = rows.length + 1
        ∧ ∀ i, (ofText text).lineText? text (i + 1)
          = ((rows.map Row.line ++ [last])[i]?).map String.ofList := by
  obtain ⟨rows, last, htext, h⟩ := exists_isLayout text.toList
  have hcount : (ofText text).count = rows.length + 1 := by
    rw [count, starts_eq htext h, List.length_cons, length_stopsAfter]
  have hline := lineText?_eq_getElem? htext h
  have hzero : (ofText text).lineText? text 0 = none := rfl
  refine ⟨fun n => ?_, fun n line hsome c hc => ?_, rows, last, htext, h,
    hcount, hline⟩
  · cases n with
    | zero => simp [hzero]
    | succ i =>
        simp [hline, hcount]
  · cases n with
    | zero => cases hzero.symm.trans hsome
    | succ i =>
        rw [hline] at hsome
        obtain ⟨cs, hcs, rfl⟩ := Option.map_eq_some_iff.1 hsome
        rw [String.toList_ofList] at hc
        have hnot := h.unbroken cs (List.mem_of_getElem? hcs) c hc
        constructor
        · rintro rfl
          cases hnot
        · rintro rfl
          cases hnot

/-- Neither return nor feed of `\r\r\n\n` is lost, and the middle two are
one line end. -/
example : (ofText "\r\r\n\nb").lineText? "\r\r\n\nb" 4 = some "b" := by
  decide

end LineMap

end ScriptLint.Text
