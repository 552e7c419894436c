/-
The line of bytes that are not UTF-8. A file that is no text has one
finding, at the first byte that cannot be read, and its line is counted by
the line feeds in front of that byte. A line map of what can be read also
counts the carriage returns that no line feed follows, so it gives the
byte a line that is later by their number
(`CheckedFile.diagnose_undecodable`).

# The argument

- The bytes in front of the first mistake encode some characters, and these
  are what both counts are about (`lineOf_of_breaksOff`).
- A line map counts a line for each line end
  (`LineMap.length_startsAfter`); the other count takes line feeds alone,
  so it misses the carriage returns that stand by themselves, one line
  each.
-/
import Mathlib.Data.List.Infix
import ScriptLint.CheckedFile
import ScriptLint.Proofs.Text.LineStarts
import ScriptLint.Proofs.Text.Utf8

namespace ScriptLint

open Text

-- ======================================================== lone returns

namespace Text

/-- Whether a text begins with a carriage return that no line feed
follows. -/
def beginsLoneReturn (cs : List Char) : Bool :=
  cs.head? == some '\r' && cs.tail.head? != some '\n'

/-- How many carriage returns of a text no line feed follows. -/
def loneReturns (cs : List Char) : Nat := cs.tails.countP beginsLoneReturn

variable {c : Char} {cs : List Char}

theorem beginsLoneReturn_cons_iff :
    beginsLoneReturn (c :: cs) = true ↔ c = '\r' ∧ cs.head? ≠ some '\n' := by
  simp [beginsLoneReturn]

theorem loneReturns_cons_of_pos (hc : c = '\r')
    (hnext : cs.head? ≠ some '\n') :
    loneReturns (c :: cs) = loneReturns cs + 1 := by
  rw [loneReturns, List.tails_cons, List.countP_cons_of_pos
    (beginsLoneReturn_cons_iff.2 ⟨hc, hnext⟩), loneReturns]

theorem loneReturns_cons_of_neg (h : c = '\r' → cs.head? = some '\n') :
    loneReturns (c :: cs) = loneReturns cs := by
  have hnot : ¬ beginsLoneReturn (c :: cs) = true := fun hlone =>
    have ⟨hc, hnext⟩ := beginsLoneReturn_cons_iff.1 hlone
    hnext (h hc)
  rw [loneReturns, List.tails_cons, List.countP_cons_of_neg hnot, loneReturns]

/-- There are none where a line feed follows every carriage return. -/
theorem loneReturns_eq_zero_iff :
    loneReturns cs = 0
      ↔ ∀ front back, front ++ '\r' :: back = cs →
        back.head? = some '\n' := by
  rw [loneReturns, List.countP_eq_zero]
  constructor
  · intro h front back hcs
    by_contra hback
    exact h _ ((List.mem_tails ..).2 ⟨front, hcs⟩)
      (beginsLoneReturn_cons_iff.2 ⟨rfl, hback⟩)
  · intro h rest hrest hlone
    obtain ⟨front, hcs⟩ := (List.mem_tails ..).1 hrest
    cases rest with
    | nil => cases hlone
    | cons c back =>
        obtain ⟨rfl, hback⟩ := beginsLoneReturn_cons_iff.1 hlone
        exact hback (h front back hcs)

/-- Lines begin behind line feeds and behind lone carriage returns. -/
theorem LineMap.length_startsAfter (offset : Nat) (cs : List Char) :
    (startsAfter offset cs).length = cs.count '\n' + loneReturns cs := by
  have hfeed (cs : List Char) : loneReturns ('\n' :: cs) = loneReturns cs :=
    loneReturns_cons_of_neg fun h => absurd h (by decide)
  fun_induction startsAfter offset cs with
  | case1 => rfl
  | case2 offset cs ih =>
    rw [List.length_cons, ih, loneReturns_cons_of_neg fun _ => rfl,
      hfeed, List.count_cons_of_ne (by decide),
      List.count_cons_self]
    omega
  | case3 offset c cs hpair hend ih =>
    rw [List.length_cons, ih]
    rcases isLineEnd_iff.1 hend with rfl | rfl
    · rw [hfeed, List.count_cons_self]
      omega
    · have hnext : cs.head? ≠ some '\n' := by
        intro hhead
        obtain ⟨ds, hds⟩ := List.head?_eq_some_iff.1 hhead
        exact hpair ds rfl hds
      rw [loneReturns_cons_of_pos rfl hnext,
        List.count_cons_of_ne (by decide), Nat.add_assoc]
  | case4 offset c cs hpair hend ih =>
    have hc := (not_congr isLineEnd_iff).1 hend
    rw [ih, loneReturns_cons_of_neg fun hreturn => absurd (.inr hreturn) hc,
      List.count_cons_of_ne fun hfeed => hc (.inl hfeed)]

end Text

-- ============================================================== findings

namespace CheckedFile

variable {bytes left : List UInt8} {front : List Char}

/-- The line map of what can be read counts the lone carriage returns, and
the finding does not. -/
theorem lineOf_of_breaksOff (h : Utf8.BreaksOff bytes front left) :
    (LineMap.ofText (.ofList front)).lineOf (Utf8.encode front).length
      = undecodableLine bytes + loneReturns front := by
  have hend := LineMap.lineOf_byteLength (.ofList front)
  rw [String.toList_ofList] at hend
  rw [Utf8.length_encode, hend, LineMap.count, LineMap.ofText,
    String.toList_ofList, List.length_cons, LineMap.length_startsAfter,
    undecodableLine, h.decode_eq]
  dsimp only
  omega

/-- Bytes that encode no text break off behind the characters that can be
read, and have one finding. A line map of these characters gives the byte
where they break off the line of the finding and as many lines more as
carriage returns stand among them that no line feed follows, so the same
line exactly where there are none. -/
theorem diagnose_undecodable (options : Options) (name : String)
    (h : ∀ cs, Utf8.encode cs ≠ bytes) :
    ∃ front left, Utf8.BreaksOff bytes front left
      ∧ diagnose options name bytes
        = .ok [.of .badSyntax name (undecodableLine bytes)
          "Source is not valid UTF-8."]
      ∧ (LineMap.ofText (.ofList front)).lineOf (Utf8.encode front).length
        = undecodableLine bytes + loneReturns front
      ∧ ((LineMap.ofText (.ofList front)).lineOf (Utf8.encode front).length
          = undecodableLine bytes
        ↔ ∀ before behind, before ++ '\r' :: behind = front →
          behind.head? = some '\n') := by
  obtain ⟨front, left, hbreaks⟩ := Utf8.exists_breaksOff h
  have hline := lineOf_of_breaksOff hbreaks
  refine ⟨front, left, hbreaks, ?_, hline, ?_⟩
  · rw [diagnose, hbreaks.text?_eq_none]
  · rw [hline, ← loneReturns_eq_zero_iff]
    omega

/-- Two lines that a pair closes, and a byte that begins no character. -/
def brokenPairs : List UInt8 := [0x61, 0x0D, 0x0A, 0x62, 0x0D, 0x0A, 0xFF]

/-- Where all carriage returns are in pairs, the two lines are the
same. -/
theorem diagnose_undecodable_pairs :
    (∀ cs, Utf8.encode cs ≠ brokenPairs)
      ∧ undecodableLine brokenPairs = 3
      ∧ ∃ front left, Utf8.BreaksOff brokenPairs front left
        ∧ (LineMap.ofText (.ofList front)).lineOf
          (Utf8.encode front).length = 3 := by
  have hdecode : Utf8.decode brokenPairs
      = (['a', '\r', '\n', 'b', '\r', '\n'], [0xFF]) := by decide +kernel
  have hline : undecodableLine brokenPairs = 3 := by decide +kernel
  have hbad := Utf8.encode_ne_of_decode hdecode (List.cons_ne_nil _ _)
  obtain ⟨front, left, hbreaks, -, hlater, -⟩ :=
    diagnose_undecodable {} "a.js" hbad
  have hfront : front = ['a', '\r', '\n', 'b', '\r', '\n'] :=
    congrArg Prod.fst (hbreaks.decode_eq.symm.trans hdecode)
  refine ⟨hbad, hline, front, left, hbreaks, ?_⟩
  rw [hlater, hline, hfront]
  decide

/-- A line that a carriage return closes, and a byte that begins no
character. -/
def brokenReturn : List UInt8 := [0x61, 0x0D, 0xFF]

/-- The byte is in the second line, and its finding is in the first. -/
theorem not_undecodableLine_brokenReturn :
    (∀ cs, Utf8.encode cs ≠ brokenReturn)
      ∧ Utf8.BreaksOff brokenReturn ['a', '\r'] [0xFF]
      ∧ (LineMap.ofText (.ofList ['a', '\r'])).lineOf
        (Utf8.encode ['a', '\r']).length = 2
      ∧ undecodableLine brokenReturn = 1 := by
  have hdecode : Utf8.decode brokenReturn = (['a', '\r'], [0xFF]) := by
    decide +kernel
  have hleft : ([0xFF] : List UInt8) ≠ [] := List.cons_ne_nil _ _
  obtain ⟨hencode, hunreadable⟩ := Utf8.decode_eq_iff.1 hdecode
  exact ⟨Utf8.encode_ne_of_decode hdecode hleft,
    ⟨hencode, hleft, hunreadable⟩, by decide +kernel, by decide +kernel⟩

end CheckedFile

end ScriptLint
