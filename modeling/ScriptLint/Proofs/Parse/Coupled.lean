/-
The grammar run on two texts. Whatever coupling of the steps is given, the
parsers of the grammar run coupled, one lemma for each, provided that those
they call do (`Coupling.Handles`); and so the parsers at all depths do, and
with them the parser of programs (`Coupling.program`).

The proofs follow the parsers line by line: `here` for the start, one rule
for each part, and `finish` at the end, where it remains to be seen that
the forms agree and that the ends inside them have been collected. Where a
parser tests the current token, the proof splits on the kind, which is part
of the statement and the same on both sides.

Statements that end with a semicolon are where a coupling does something of
its own (`Coupling.endStatement`). They are read in the mode `whole`,
everything inside an expression as well, and what may be followed by a line
break is read `ahead`. So none of the lemmas says anything about
semicolons, and the same lemmas serve whatever coupling is given.
-/
import ScriptLint.Proofs.Parse.Coupling

namespace ScriptLint

open Parse Grammar HasPlaces

variable {left right : Nat → Nat} {C : Coupling left right} {g : Grammar}
  {m : Mode} {k : TokenKind} {K : Set Nat}

namespace Coupling

/-- The parsers of a grammar run coupled. -/
structure Handles (C : Coupling left right) (g : Grammar) : Prop where
  assignment (noIn : Bool) (k : TokenKind) (K : Set Nat) :
    C.Runs .whole k K ends (g.assignment noIn) (g.assignment noIn)
  operand (above : Nat) (noIn : Bool) (k : TokenKind) (K : Set Nat) :
    C.Runs .whole k K ends (g.operand above noIn) (g.operand above noIn)
  unary (k : TokenKind) (K : Set Nat) :
    C.Runs .whole k K ends g.unary g.unary
  callee (k : TokenKind) (K : Set Nat) :
    C.Runs .whole k K ends g.callee g.callee
  statement (s : Surroundings) (k : TokenKind) (K : Set Nat) :
    C.Runs .whole k K ends (g.statement s) (g.statement s)

/-- Punctuators are in order whatever they are. -/
theorem mark_isPlain (p : Punctuator) :
    TokenKind.IsPlain (.punctuator p) := .inr (.inl ⟨p, rfl⟩)

/-- Keywords are plain tokens. -/
theorem word_isPlain (w : Keyword) : TokenKind.IsPlain (.keyword w) :=
  .inr (.inr ⟨w, rfl⟩)

/-- Operands with commas between them. -/
theorem expression (hg : C.Handles g) (noIn : Bool) :
    C.Runs .whole k K ends (g.expression noIn) (g.expression noIn) := by
  refine here (.inr rfl) fun s s' hs => C.bind_whole (hg.assignment noIn k K)
    fun first first' hfirst k => C.tail ?_
  refine C.iterate (.inl rfl) (fun t t' ht k => ?_) hfirst
    Set.subset_union_right
  refine C.bind_ahead (.inl rfl) (accept (mark_isPlain _) (by simp))
    fun b b' hb k => ?_
  obtain rfl := same_bool.1 hb
  cases b with
  | false => exact C.ret same_none (by simp)
  | true =>
      refine C.ahead (C.bind_whole (hg.assignment noIn k _)
        fun operand operand' hoperand k => C.tail ?_)
      refine C.bind_ahead (.inl rfl) (node hs ?_ rfl ?_)
        fun both both' hboth k => C.ret (same_some.2 hboth) (by simp)
      · simp_all [Same, mapPlaces, Form.map]
      · simp [ends_form, Form.heads, Form.bodies, Form.slots]

/-- Arguments are read up to the closing parenthesis. -/
theorem arguments (hg : C.Handles g) :
    C.Runs .whole k K ends g.arguments g.arguments := by
  refine C.bind_whole (expect (mark_isPlain _)) fun _ _ _ k =>
    C.tail (C.ahead (isAt (.inr rfl) ?_))
  refine choice (C.inner (C.ret same_nil (by simp)))
    (C.inner (C.ahead (separated (hg.assignment false)))) ?_
  refine fun as as' has k => C.bind_whole (expect (mark_isPlain _))
    fun _ _ _ k => C.tail (C.ret has.map_some ?_)
  simp

/-- Statements up to the end of what encloses them. -/
theorem statements (hg : C.Handles g) (s : Surroundings) :
    C.Runs .inner k K ends (g.statements s) (g.statements s) := by
  refine many (.inr rfl) fun k K => look_kind (.inl rfl) ?_
  split
  iterate 4 exact C.inner (C.ret same_none (by simp))
  exact C.inner (C.ahead (bind_pure (by simp) (hg.statement s k K) (by simp)
    (by simp)))

/-- A block has its braces, so its statements are read inside. -/
theorem block (hg : C.Handles g) (s : Surroundings) :
    C.Runs .whole k K ends (g.block s) (g.block s) := by
  refine here (.inr rfl) fun start start' hstart =>
    C.bind_whole (expect (mark_isPlain _)) fun _ _ _ k =>
      C.tail (C.ahead ?_)
  refine C.bind_inner (.inr rfl) (statements hg s) fun as as' has k =>
    C.bind_whole (expect (mark_isPlain _)) fun _ _ _ k =>
      C.tail (node hstart ?_ rfl ?_)
  · simp_all [Same, mapPlaces, Form.map]
  · simp [ends_form, Form.heads, Form.bodies, Form.slots]

/-- A function has its name, its parameters and its body. -/
theorem function (hg : C.Handles g) (isDeclaration : Bool) :
    C.Runs .whole k K ends (g.function isDeclaration)
      (g.function isDeclaration) := by
  refine here (.inr rfl) fun s s' hs =>
    C.bind_whole (expect (word_isPlain _)) fun _ _ _ k =>
      C.tail (C.ahead ?_)
  have hname (K : Set Nat) : C.Runs .inner k K ends
      (some <$> Parse.name false) (some <$> Parse.name false) :=
    C.inner (C.ahead (map (by simp) (name false) (by simp) (by simp)))
  refine isAt (.inr rfl) (choice₃ (hname _) (hname _)
    (C.inner (C.ret same_none (by simp))) fun name name' hname k => ?_)
  refine C.bind_whole (expect (mark_isPlain _)) fun _ _ _ k =>
    C.tail (C.ahead (isAt (.inr rfl) ?_))
  refine choice (C.inner (C.ret same_nil (by simp)))
    (C.inner (C.ahead (separated fun _ _ => Coupling.name false)))
    fun as as' has k => ?_
  refine C.bind_whole (expect (mark_isPlain _)) fun _ _ _ k =>
    C.tail (C.bind_ahead (.inl rfl) (C.ahead (block hg _))
      fun body body' hbody k => node hs ?_ rfl ?_)
  · have has := has.map_some
    simp_all [Same, mapPlaces, Form.map]
  · simp [ends_form, Form.heads, Form.bodies, Form.slots]
    grind

-- ============================================================= literals

/-- Holes are read where a comma stands in place of an element. -/
theorem array (hg : C.Handles g) :
    C.Runs .whole k K ends g.array g.array := by
  refine here (.inr rfl) fun s s' hs =>
    C.bind_whole (expect (mark_isPlain _)) fun _ _ _ k =>
      C.tail (C.ahead ?_)
  refine C.bind_inner (.inr rfl) (C.iterate (.inr rfl) ?_
    (same_pair.2 ⟨same_nil, same_bool.2 rfl⟩) (by simp))
    fun ⟨found, more⟩ ⟨found', more'⟩ hfound k =>
      C.bind_whole (expect (mark_isPlain _)) fun _ _ _ k =>
        C.tail (node hs ?_ rfl ?_)
  · rintro ⟨done, more⟩ ⟨done', more'⟩ h k
    obtain ⟨hdone, hmore⟩ := same_pair.1 h
    obtain rfl := same_bool.1 hmore
    refine isAt (.inl rfl) ?_
    split
    · exact C.inner (C.ret same_none (by simp))
    refine C.bind_inner (.inl rfl)
      (C.inner (accept (mark_isPlain _) (by simp))) fun b b' hb k => ?_
    obtain rfl := same_bool.1 hb
    split
    · exact C.inner (C.ret (by simpa using hdone) (by simp))
    refine C.bind_inner (.inl rfl) (C.inner (C.ahead (hg.assignment _ _ _)))
      fun element element' helement k => ?_
    refine bind_pure (by simp) (C.inner (accept (mark_isPlain _) (by simp))) ?_ ?_
    · simp_all
    · simp
  · have h := Same.reverse (same_pair.1 hfound).1
    simp_all [Same, mapPlaces, Form.map]
  · simp [ends_form, Form.heads, Form.bodies, Form.slots]

/-- A property behind its key. -/
theorem propertyValue (hg : C.Handles g) {s s' : Nat} {key key' : Tree}
    (hs : Same left right s s') (hkey : Same left right key key')
    (isAccessor : Bool) (hK : ends key ⊆ K) :
    C.Runs .tail k K ends
      (do
        if isAccessor && !(← Parse.isAt Punctuator.colon) then
          Parse.failAt s .accessorProperty
        else
          Parse.expect Punctuator.colon
          let value ← g.assignment false
          Parse.finish s (.property (some key) (some value)))
      (do
        if isAccessor && !(← Parse.isAt Punctuator.colon) then
          Parse.failAt s' .accessorProperty
        else
          Parse.expect Punctuator.colon
          let value ← g.assignment false
          Parse.finish s' (.property (some key') (some value))) := by
  have hvalue : C.Runs .whole k K ends
      (do
        Parse.expect Punctuator.colon
        let value ← g.assignment false
        Parse.finish s (.property (some key) (some value)))
      (do
        Parse.expect Punctuator.colon
        let value ← g.assignment false
        Parse.finish s' (.property (some key') (some value))) := by
    refine C.bind_whole (expect (mark_isPlain _)) fun _ _ _ k => C.tail ?_
    refine C.bind_ahead (.inl rfl) (C.ahead (hg.assignment _ _ _))
      fun value value' hvalue k => node hs ?_ rfl ?_
    · simp_all [Same, mapPlaces, Form.map]
    · simp [ends_form, Form.heads, Form.bodies, Form.slots]
      grind
  refine isAt_ahead (.inr rfl) (by simp) (fun _ => .inl ?_) fun _ => ?_
  · simpa using hvalue
  · split
    · exact C.tail (C.ahead (C.failAt _ _ _ (by simp)))
    · exact C.tail (C.ahead hvalue)

/-- A key is a name, a string or a number. -/
theorem property (hg : C.Handles g) :
    C.Runs .whole k K ends g.property g.property := by
  refine look_token (.inr rfl) fun t t' h hstart hk hk' => ?_
  rw [hk, hk', h.doc_eq]
  split
  all_goals refine C.bind_whole (E := ends) ?_ fun key key' hkey k => ?_
  case h_1.refine_1 => exact C.literal (.inl rfl)
  case h_2.refine_1 => exact C.literal (.inr rfl)
  case h_3.refine_1 => exact name true
  all_goals
    dsimp only
    rw [hkey.identifier?_eq]
    exact propertyValue hg hstart (hkey.withDoc _) _ (by simp)

/-- Properties are read up to the closing brace, a comma behind the last one
allowed. -/
theorem object (hg : C.Handles g) :
    C.Runs .whole k K ends g.object g.object := by
  refine here (.inr rfl) fun s s' hs =>
    C.bind_whole (expect (mark_isPlain _)) fun _ _ _ k =>
      C.tail (C.ahead ?_)
  refine C.bind_inner (.inr rfl) (C.iterate (.inr rfl) ?_
    (same_pair.2 ⟨same_nil, same_bool.2 rfl⟩) (by simp))
    fun ⟨found, more⟩ ⟨found', more'⟩ hfound k =>
      C.bind_whole (expect (mark_isPlain _)) fun _ _ _ k =>
        C.tail (node hs ?_ rfl ?_)
  · rintro ⟨done, more⟩ ⟨done', more'⟩ h k
    obtain ⟨hdone, hmore⟩ := same_pair.1 h
    obtain rfl := same_bool.1 hmore
    refine isAt (.inl rfl) ?_
    split
    · exact C.inner (C.ret same_none (by simp))
    refine C.bind_inner (.inl rfl) (C.inner (C.ahead (property hg)))
      fun item item' hitem k => ?_
    refine bind_pure (by simp) (C.inner (accept (mark_isPlain _) (by simp))) ?_ ?_
    · simp_all
    · simp
  · have h := Same.reverse (same_pair.1 hfound).1
    simp_all [Same, mapPlaces, Form.map]
  · simp [ends_form, Form.heads, Form.bodies, Form.slots]

/-- An operand is told by its first token, which is alike on both sides. -/
theorem primary (hg : C.Handles g) :
    C.Runs .whole k K ends g.primary g.primary := by
  refine look_token (.inr rfl) fun t t' h hstart hk hk' => ?_
  rw [hk, hk', h.doc_eq]
  split
  case h_1 => exact name false
  case h_2 => exact atom (word_isPlain _) rfl rfl (ends_of_slots rfl)
  case h_3 => exact atom (word_isPlain _) rfl rfl (ends_of_slots rfl)
  case h_4 => exact atom (word_isPlain _) rfl rfl (ends_of_slots rfl)
  case h_5 => exact atom (word_isPlain _) rfl rfl (ends_of_slots rfl)
  case h_6 => exact C.literal (.inl rfl)
  case h_7 => exact C.literal (.inr rfl)
  case h_8 => exact C.regex (.inl rfl)
  case h_9 => exact C.regex (.inr rfl)
  case h_10 =>
      refine C.bind_whole (C.advance (mark_isPlain _)) fun _ _ _ k =>
        C.tail (C.bind_ahead (.inl rfl) (C.ahead (expression hg false))
          fun inner inner' hinner k => C.bind_ahead (.inl rfl)
            (C.ahead (expect (mark_isPlain _))) fun _ _ _ k =>
              node hstart ?_ rfl ?_)
      · simp_all [Same, mapPlaces, Form.map]
      · simp [ends_form, Form.heads, Form.bodies, Form.slots]
  case h_11 => exact array hg
  case h_12 => exact object hg
  case h_13 =>
      exact bind_pure (by simp) (function hg false) (fun _ _ h => h.withDoc _)
        (by simp)
  case h_14 => exact C.fail _ (by simp)

-- ============================================================ operators

/-- An operator in front is a punctuator or a keyword. -/
theorem isPlain_of_isLeadingOperator {kind : TokenKind}
    (h : isLeadingOperator kind = true) : kind.IsPlain := by
  cases kind with
  | punctuator p => exact mark_isPlain p
  | keyword w => exact word_isPlain w
  | _ => cases h

/-- An operator between two operands is a plain token. -/
theorem isPlain_of_precedence {kind : TokenKind}
    (h : kind.precedence ≠ 0) : kind.IsPlain := by
  cases kind with
  | punctuator p => exact mark_isPlain p
  | keyword w => exact word_isPlain w
  | _ => exact absurd rfl h

/-- Operators that assign are punctuators. -/
theorem isPlain_of_isAssignment {kind : TokenKind}
    (h : kind.isAssignment = true) : kind.IsPlain := by
  cases kind with
  | punctuator p => exact mark_isPlain p
  | _ => cases h

/-- What may stand behind an operand is read ahead, since the operand may be
the end of a statement. -/
theorem extend (hg : C.Handles g) (calls : Bool) {s s' : Nat}
    {owner owner' : Tree} (hs : Same left right s s')
    (howner : Same left right owner owner') (hK : ends owner ⊆ K) :
    C.Runs .ahead k K ends (g.extend calls s owner)
      (g.extend calls s' owner') := by
  refine look_kind_ahead (.inl rfl) ?_
  split
  case h_1 =>
      refine .inl (C.bind_whole (C.advance (mark_isPlain _)) fun _ _ _ k =>
        C.tail (C.bind_ahead (.inl rfl) (C.ahead (Coupling.name true))
          fun member member' hmember k => map (by simp) (node hs ?_ rfl ?_) ?_ ?_))
      · simp_all [Same, mapPlaces, Form.map]
      · simp [ends_form, Form.heads, Form.bodies, Form.slots]
        grind
      · simp
      · simp
  case h_2 =>
      refine .inl (C.bind_whole (C.advance (mark_isPlain _)) fun _ _ _ k =>
        C.tail (C.bind_ahead (.inl rfl) (C.ahead (expression hg false))
          fun index index' hindex k => C.bind_ahead (.inl rfl)
            (C.ahead (expect (mark_isPlain _))) fun _ _ _ k =>
              map (by simp) (node hs ?_ rfl ?_) ?_ ?_))
      · simp_all [Same, mapPlaces, Form.map]
      · simp [ends_form, Form.heads, Form.bodies, Form.slots]
        grind
      · simp
      · simp
  case h_3 =>
      -- where calls are not read, a parenthesis is left alone
      cases calls with
      | false =>
          exact .inr ⟨C.ret same_none (by simp),
            fun _ => C.ret same_none (by simp)⟩
      | true =>
          refine .inl (C.bind_whole (arguments hg)
            fun as as' has k => C.tail (map (by simp) (node hs ?_ rfl ?_) ?_ ?_))
          · simp_all [Same, mapPlaces, Form.map]
          · simp [ends_form, Form.heads, Form.bodies, Form.slots]
            grind
          · simp
          · simp
  case h_4 =>
      exact .inr ⟨C.ret same_none (by simp),
        fun _ => C.ret same_none (by simp)⟩

/-- A construction has its callee and perhaps arguments. -/
theorem head (hg : C.Handles g) :
    C.Runs .whole k K ends g.head g.head := by
  refine here (.inr rfl) fun s s' hs =>
    accept_bind (.inr rfl) (fun hk => ?_) fun _ => primary hg
  refine C.bind_whole (C.advance (hk ▸ word_isPlain _)) fun _ _ _ k =>
    C.tail (C.bind_ahead (.inl rfl) (C.ahead (hg.callee _ _))
      fun callee callee' hcallee k => ?_)
  have hnode (K : Set Nat) (hK : ends callee ⊆ K)
      (as as' : List (Option Tree)) (has : Same left right as as')
      (k : TokenKind) : C.Runs .ahead k (K ∪ ends as) ends
        (Parse.finish s (.construct (some callee) as))
        (Parse.finish s' (.construct (some callee') as')) := by
    refine node hs ?_ rfl ?_
    · simp_all [Same, mapPlaces, Form.map]
    · simp [ends_form, Form.heads, Form.bodies, Form.slots]
      grind
  refine isAt_ahead (.inl rfl) (by simp) (fun _ => .inl ?_) fun _ => ?_
  · exact C.bind_whole (arguments hg) fun as as' has k =>
      C.tail (hnode _ Set.subset_union_right as as' has k)
  · exact C.bind_ahead (.inl rfl) (C.ret same_nil (by simp))
      (hnode _ Set.subset_union_right)

/-- Members, elements and calls are read until none follows. -/
theorem leftHand (hg : C.Handles g) (calls : Bool) :
    C.Runs .whole k K ends (g.leftHand calls) (g.leftHand calls) := by
  refine here (.inr rfl) fun s s' hs => C.bind_whole (head hg)
    fun head head' hhead k => C.tail (C.iterate (.inl rfl)
      (fun owner owner' howner k => ?_) hhead Set.subset_union_right)
  exact extend hg calls hs howner subset_rfl

/-- Behind an operand an increment counts only on the same line, which is the
same on both sides. -/
theorem unaryExpression (hg : C.Handles g) :
    C.Runs .whole k K ends g.unaryExpression g.unaryExpression := by
  refine look_token (.inr rfl) fun t t' h hstart hk hk' => ?_
  rw [hk, hk']
  split
  · refine C.bind_whole (C.advance ?_) fun _ _ _ k =>
      C.tail (C.bind_ahead (.inl rfl) (C.ahead (hg.unary _ _))
        fun operand operand' hoperand k => node hstart ?_ rfl ?_)
    · rename_i hlead
      exact isPlain_of_isLeadingOperator hlead
    · simp_all [Same, mapPlaces, Form.map]
    · simp [ends_form, Form.heads, Form.bodies, Form.slots]
  · refine C.bind_whole (leftHand hg true)
      fun operand operand' hoperand k => C.tail ?_
    -- with an operator behind the operand a token is consumed, without one the
    -- operand is the result; the mode differs
    have hwhole (next : Token) (hnext : next.kind = k)
        (hmark : ((next.kind == Punctuator.plusPlus
          || next.kind == Punctuator.minusMinus) && !next.afterBreak)
          = true) :
        C.Runs .whole k (K ∪ ends operand) ends
          (do
            Parse.advance
            Parse.finish t.start
              (.unary next.kind (some operand) false))
          (do
            Parse.advance
            Parse.finish t'.start
              (.unary next.kind (some operand') false)) := by
      refine C.bind_whole (C.advance ?_) fun _ _ _ k =>
        C.tail (node hstart ?_ rfl ?_)
      · rw [← hnext]
        exact .inr (.inl (by
          simp at hmark
          rcases hmark.1 with h | h
          · exact ⟨_, h⟩
          · exact ⟨_, h⟩))
      · simp_all [Same, mapPlaces, Form.map]
      · simp [ends_form, Form.heads, Form.bodies, Form.slots]
    have hpure : C.Runs .ahead k (K ∪ ends operand) ends
        (pure operand) (pure operand') :=
      C.ret hoperand Set.subset_union_right
    refine look_token_ahead (.inl rfl)
      (fun next next' halike _ hnext hnext' => ?_)
      fun next next' hnext hk hnext' => ?_
    · rw [← halike.kind_eq, ← halike.afterBreak_eq]
      split
      · rename_i hmark
        exact C.ahead (hwhole next hnext hmark)
      · exact hpure
    · rw [hnext']
      by_cases hmark : ((next.kind == Punctuator.plusPlus
          || next.kind == Punctuator.minusMinus) && !next.afterBreak)
          = true
      · rw [if_pos hmark]
        exact .inr ⟨_, hwhole next hnext hmark⟩
      · rw [if_neg hmark]
        exact .inl hpure

/-- The loop over operators goes on or stops on both sides. -/
theorem binaryExpression (hg : C.Handles g) (above : Nat) (noIn : Bool) :
    C.Runs .whole k K ends (g.binaryExpression above noIn)
      (g.binaryExpression above noIn) := by
  refine here (.inr rfl) fun s s' hs => C.bind_whole (unaryExpression hg)
    fun first first' hfirst k => C.tail (C.iterate (.inl rfl)
      (fun operand operand' hoperand k => look_kind_ahead (.inl rfl) ?_)
      hfirst Set.subset_union_right)
  split
  · refine .inr ⟨C.ret same_none (by simp), fun _ => ?_⟩
    exact C.ret same_none (by simp)
  · rename_i hbinds
    refine .inl (C.bind_whole (C.advance ?_) fun _ _ _ k =>
      C.tail (C.bind_ahead (.inl rfl) (C.ahead (hg.operand _ _ _ _))
        fun other other' hother k => bind_pure (by simp) (node hs ?_ rfl ?_) ?_ ?_))
    · exact isPlain_of_precedence fun h => hbinds (by simp [h])
    · simp_all [Same, mapPlaces, Form.map]
    · simp [ends_form, Form.heads, Form.bodies, Form.slots]
    · simp
    · simp

/-- A question mark decides whether there are branches. -/
theorem conditional (hg : C.Handles g) (noIn : Bool) :
    C.Runs .whole k K ends (g.conditional noIn) (g.conditional noIn) := by
  refine here (.inr rfl) fun s s' hs =>
    C.bind_whole (binaryExpression hg 0 noIn)
      fun condition condition' hcondition k => C.tail ?_
  refine C.bind_ahead (.inl rfl) (accept (mark_isPlain _) (by simp))
    fun b b' hb k => ?_
  obtain rfl := same_bool.1 hb
  cases b with
  | false => exact C.ret hcondition (by simp)
  | true =>
      refine C.bind_ahead (.inl rfl) (C.ahead (hg.assignment _ _ _))
        fun yes yes' hyes k => C.bind_ahead (.inl rfl)
          (C.ahead (expect (mark_isPlain _))) fun _ _ _ k =>
            C.bind_ahead (.inl rfl) (C.ahead (hg.assignment _ _ _))
              fun no no' hno k => node hs ?_ rfl ?_
      · simp_all [Same, mapPlaces, Form.map]
      · simp [ends_form, Form.heads, Form.bodies, Form.slots]
        grind

/-- Whether something can be assigned to is the same on both sides. -/
theorem assignmentExpression (hg : C.Handles g) (noIn : Bool) :
    C.Runs .whole k K ends (g.assignmentExpression noIn)
      (g.assignmentExpression noIn) := by
  refine here (.inr rfl) fun s s' hs => C.bind_whole (conditional hg noIn)
    fun target target' htarget k => C.tail (look_kind_ahead (.inl rfl) ?_)
  split
  · rename_i hassign
    refine .inl ?_
    rw [htarget.isTarget_eq]
    split
    · refine C.bind_whole (C.advance (isPlain_of_isAssignment hassign))
        fun _ _ _ k => C.tail (C.bind_ahead (.inl rfl)
          (C.ahead (hg.assignment _ _ _))
          fun value value' hvalue k => node hs ?_ rfl ?_)
      · simp_all [Same, mapPlaces, Form.map]
      · simp [ends_form, Form.heads, Form.bodies, Form.slots]
        grind
    · exact C.fail _ (by simp)
  · refine .inr ⟨C.ret htarget (by simp), fun _ => ?_⟩
    exact C.ret htarget (by simp)

-- ======================================================== declarations

/-- A variable may have an initial value. -/
theorem declaration (hg : C.Handles g) (noIn : Bool) :
    C.Runs .whole k K ends (g.declaration noIn) (g.declaration noIn) := by
  refine here (.inr rfl) fun s s' hs => C.bind_whole (Coupling.name false)
    fun name name' hname k => C.tail ?_
  refine optionally (mark_isPlain _) (by simp) (hg.assignment noIn)
    fun value value' K' k hK hends hvalue => node hs ?_ rfl ?_
  · simp_all [Same, mapPlaces, Form.map]
  · simp [ends_form, Form.heads, Form.bodies, Form.slots]
    grind

/-- Declarations, with what is done about their node. -/
theorem declarations {β : Type} [HasPlaces β] {E : β → Set Nat}
    (hg : C.Handles g) (noIn : Bool) {f f' : Tree → Parse β}
    (hf : ∀ (s s' : Nat) (form form' : Form (Option Tree)) (K : Set Nat)
      (k : TokenKind), Same left right s s' → Same left right form form' →
      ends form ⊆ K → C.Runs .tail k K E (Parse.finish s form >>= f)
        (Parse.finish s' form' >>= f')) :
    C.Runs .whole k K E (g.declarations noIn >>= f)
      (g.declarations noIn >>= f') := by
  simp only [Grammar.declarations, bind_assoc]
  refine here (.inr rfl) fun s s' hs =>
    C.bind_whole (expect (word_isPlain _)) fun _ _ _ k =>
      C.tail (C.ahead (C.bind_whole
        (separated fun _ _ => declaration hg noIn)
        fun items items' hitems k => hf _ _ _ _ _ _ hs ?_ ?_))
  · have hitems := hitems.map_some
    simp_all [Same, mapPlaces, Form.map]
  · simp [ends_form, Form.heads, Form.bodies, Form.slots]

-- ========================================================== conditions

/-- A condition stands in parentheses. -/
theorem condition (hg : C.Handles g) :
    C.Runs .whole k K ends g.condition g.condition := by
  refine C.bind_whole (expect (mark_isPlain _)) fun _ _ _ k =>
    C.tail (C.bind_ahead (.inl rfl) (C.ahead (expression hg false))
      fun value value' hvalue k => ?_)
  exact C.ahead (bind_pure (by simp) (expect (mark_isPlain _)) (fun _ _ _ => hvalue)
    (by simp))

/-- The token that would stand in its place says whether it is missing. -/
theorem optionalExpression (hg : C.Handles g) (stop : Punctuator) :
    C.Runs .inner k K ends (g.optionalExpression stop)
      (g.optionalExpression stop) := by
  refine isAt (.inl rfl) ?_
  split
  · exact C.inner (C.ret same_none (by simp))
  · exact C.inner (C.ahead (map (by simp) (expression hg false) (by simp) (by simp)))

/-- The word `else` is looked for behind the first statement, which has ended
by then. -/
theorem branch (hg : C.Handles g) (s : Surroundings) :
    C.Runs .whole k K ends (g.branch s) (g.branch s) := by
  refine here (.inr rfl) fun start start' hstart =>
    C.bind_whole (expect (word_isPlain _)) fun _ _ _ k =>
      C.tail (C.bind_ahead (.inl rfl) (C.ahead (condition hg))
        fun value value' hvalue k => C.bind_ahead (.inl rfl)
          (C.ahead (hg.statement _ _ _)) fun yes yes' hyes k => ?_)
  refine optionally (word_isPlain _) (by simp) (hg.statement s)
    fun no no' K' k hK hends hno => node hstart ?_ rfl ?_
  · simp_all [Same, mapPlaces, Form.map]
  · simp [ends_form, Form.heads, Form.bodies, Form.slots]
    grind

-- =============================================================== loops

/-- The head of such a loop is closed by a parenthesis, so no statement ends in
it. -/
theorem forInTail (hg : C.Handles g) (s : Surroundings)
    {start start' : Nat} {target target' : Tree}
    (hstart : Same left right start start')
    (htarget : Same left right target target')
    (hK : {y | y ∈ target.innerEnds} ⊆ K) :
    C.Runs .whole k K ends (g.forInTail s start target)
      (g.forInTail s start' target') := by
  unfold Grammar.forInTail
  rw [htarget.declaresMany_eq]
  split
  · exact C.fail _ (by simp)
  refine C.bind_whole (expression hg false)
    fun subject subject' hsubject k => C.tail (C.bind_ahead (.inl rfl)
      (C.ahead (expect (mark_isPlain _))) fun _ _ _ k =>
        C.bind_ahead (.inl rfl) (C.ahead (hg.statement _ _ _))
          fun body body' hbody k => node hstart ?_ rfl ?_)
  · simp_all [Same, mapPlaces, Form.map]
  · simp [ends_form, Form.heads, Form.bodies]
    grind

/-- The semicolons in the head of a loop are no ends of statements and stand in
both texts. -/
theorem forTail (hg : C.Handles g) (s : Surroundings) {start start' : Nat}
    {first first' : Option Tree} (hstart : Same left right start start')
    (hfirst : Same left right first first')
    (hK : ∀ tree ∈ first, {y | y ∈ tree.innerEnds} ⊆ K) :
    C.Runs .whole k K ends (g.forTail s start first)
      (g.forTail s start' first') := by
  refine C.bind_whole (expect (mark_isPlain _)) fun _ _ _ k =>
    C.tail (C.ahead ?_)
  refine C.bind_inner (.inr rfl) (optionalExpression hg _)
    fun value value' hvalue k => C.bind_whole (expect (mark_isPlain _))
      fun _ _ _ k => C.tail (C.ahead ?_)
  refine C.bind_inner (.inr rfl) (optionalExpression hg _)
    fun step step' hstep k => C.bind_whole (expect (mark_isPlain _))
      fun _ _ _ k => C.tail (C.bind_ahead (.inl rfl)
        (C.ahead (hg.statement _ _ _))
        fun body body' hbody k => node hstart ?_ rfl ?_)
  · simp_all [Same, mapPlaces, Form.map]
  · simp [ends_form, Form.heads, Form.bodies]
    grind

/-- What follows the first part of a for loop. -/
theorem forRest (hg : C.Handles g) (s : Surroundings) {start start' : Nat}
    {first first' : Tree} (hstart : Same left right start start')
    (hfirst : Same left right first first')
    (hK : {y | y ∈ first.innerEnds} ⊆ K) :
    C.Runs .whole k K ends
      (do
        if ← Parse.accept Keyword.inWord then g.forInTail s start first
        else g.forTail s start (some first))
      (do
        if ← Parse.accept Keyword.inWord then g.forInTail s start' first'
        else g.forTail s start' (some first')) := by
  refine accept_bind (.inr rfl) (fun hk => ?_) fun _ => ?_
  · refine C.bind_whole (C.advance (hk ▸ word_isPlain _)) fun _ _ _ k =>
      C.tail (C.ahead (forInTail hg s hstart hfirst ?_))
    exact hK.trans Set.subset_union_left
  · refine forTail hg s hstart (same_some.2 hfirst) fun tree htree => ?_
    exact Option.some.inj htree ▸ hK

/-- Which loop it is shows behind the first part of the head. -/
theorem forLoop (hg : C.Handles g) (s : Surroundings) :
    C.Runs .whole k K ends (g.forLoop s) (g.forLoop s) := by
  refine here (.inr rfl) fun start start' hstart =>
    C.bind_whole (expect (word_isPlain _)) fun _ _ _ k =>
      C.tail (C.bind_ahead (.inl rfl) (C.ahead (expect (mark_isPlain _)))
        fun _ _ _ k => C.ahead (look_kind (.inr rfl) ?_))
  split
  · exact forTail hg s hstart same_none (by simp)
  dsimp only
  split
  · refine declarations hg true fun _ _ form form' K k hs hform hK => ?_
    refine C.bind_ahead (.inr rfl)
      (C.finish (E := fun tree => {y | y ∈ tree.innerEnds}) hs hform
        fun stop => (innerEnds_node _ stop _ form).trans_subset hK)
      fun first first' hfirst k => C.tail (C.ahead ?_)
    exact forRest hg s hstart hfirst Set.subset_union_right
  · refine C.bind_whole (expression hg true) fun first first' hfirst k =>
      C.tail (C.ahead (forRest hg s hstart hfirst ?_))
    exact fun y hy => .inr (List.mem_append_right _ hy)

/-- The body is the last thing that is read. -/
theorem whileLoop (hg : C.Handles g) (s : Surroundings) :
    C.Runs .whole k K ends (g.whileLoop s) (g.whileLoop s) := by
  refine here (.inr rfl) fun start start' hstart =>
    C.bind_whole (expect (word_isPlain _)) fun _ _ _ k =>
      C.tail (C.bind_ahead (.inl rfl) (C.ahead (condition hg))
        fun value value' hvalue k => C.bind_ahead (.inl rfl)
          (C.ahead (hg.statement _ _ _))
          fun body body' hbody k => node hstart ?_ rfl ?_)
  · simp_all [Same, mapPlaces, Form.map]
  · simp [ends_form, Form.heads, Form.bodies, Form.slots]
    grind

/-- The condition is behind the body, and a semicolon may follow. -/
theorem doWhile (hg : C.Handles g) (s : Surroundings) :
    C.Runs .whole k K ends (g.doWhile s) (g.doWhile s) := by
  refine here (.inr rfl) fun start start' hstart =>
    C.bind_whole (expect (word_isPlain _)) fun _ _ _ k =>
      C.tail (C.ahead (C.bind_whole (hg.statement _ _ _)
        fun body body' hbody k => C.bind_ahead (.inr rfl)
          (C.ahead (expect (word_isPlain _))) fun _ _ _ k =>
            C.bind_ahead (.inr rfl) (C.ahead (condition hg))
              fun value value' hvalue k =>
                C.accept_finish hstart ?_ rfl ?_))
  · simp_all [Same, mapPlaces, Form.map]
  · simp [ends_form, Form.heads, Form.bodies, Form.slots]
    grind

-- =============================================================== jumps

/-- A jump behind its label. -/
theorem jumpRest (s : Surroundings) (isBreak : Bool) {start start' : Nat}
    {label label' : Option Tree} (hstart : Same left right start start')
    (hlabel : Same left right label label') (hK : ends label ⊆ K) :
    C.Runs .tail k K ends
      (if label.isNone && isBreak && !s.inLoop && !s.inSwitch then
        Parse.failAt start .breakOutside
      else if label.isNone && !isBreak && !s.inLoop then
        Parse.failAt start .continueOutside
      else do
        endStatement
        Parse.finish start
          (if isBreak then .breaking label else .continuing label))
      (if label'.isNone && isBreak && !s.inLoop && !s.inSwitch then
        Parse.failAt start' .breakOutside
      else if label'.isNone && !isBreak && !s.inLoop then
        Parse.failAt start' .continueOutside
      else do
        endStatement
        Parse.finish start'
          (if isBreak then .breaking label' else .continuing label')) := by
  have hnone : label.isNone = label'.isNone := by
    rcases hlabel.option with ⟨rfl, rfl⟩ | ⟨_, _, rfl, rfl, -⟩ <;> rfl
  rw [hnone]
  split
  · exact C.tail (C.ahead (C.failAt _ _ _ (by simp)))
  split
  · exact C.tail (C.ahead (C.failAt _ _ _ (by simp)))
  refine C.endStatement_finish hstart ?_ ?_
  · cases isBreak <;> simp_all [Same, mapPlaces, Form.map]
  · cases isBreak <;>
      simpa [ends_form, Form.heads, Form.bodies, Form.slots] using hK

/-- A label counts only on the same line. -/
theorem jump (s : Surroundings)
    (hk : k = Keyword.breakWord ∨ k = Keyword.continueWord) :
    C.Runs .whole k K ends (Grammar.jump s) (Grammar.jump s) := by
  have hplain : k.IsPlain := by
    rcases hk with rfl | rfl <;> exact word_isPlain _
  refine here (.inr rfl) fun start start' hstart => isAt (.inr rfl) ?_
  refine C.bind_whole (C.advance hplain) fun _ _ _ k' => ?_
  -- the rest is the same with a label and without one
  have hlabel (K : Set Nat) (label label' : Option Tree)
      (h : Same left right label label') (k' : TokenKind) :=
    jumpRest (C := C) (k := k') s (k == Keyword.breakWord) hstart h
      (Set.subset_union_right (s := K))
  have hsome (K : Set Nat) (k' : TokenKind) : C.Runs .whole k' K ends
      (some <$> Parse.name false) (some <$> Parse.name false) :=
    map (by simp) (Coupling.name false) (by simp) (by simp)
  have hnone (K : Set Nat) (k' : TokenKind) : C.Runs .ahead k' K ends
      (pure none) (pure (none : Option Tree)) :=
    C.ret same_none (by simp)
  refine look_token_ahead (.inr rfl) (fun t t' h _ _ _ => ?_)
    fun t t' _ _ ht' => ?_
  · rw [h.kind_eq, h.afterBreak_eq]
    by_cases hname : (t'.kind == .identifier && !t'.afterBreak) = true
    · rw [if_pos hname, if_pos hname]
      exact C.tail (C.ahead (C.bind_whole (hsome _ _) (hlabel _)))
    · rw [if_neg hname, if_neg hname]
      exact C.bind_ahead (.inr rfl) (hnone _ _) (hlabel _)
  -- the second text has a semicolon here, so it has no label; if the first has
  -- one, it goes on where the second cannot
  · have hstop : ¬ (t'.kind == .identifier && !t'.afterBreak) = true := by
      simp [ht']
    rw [if_neg hstop]
    by_cases hname : (t.kind == .identifier && !t.afterBreak) = true
    · rw [if_pos hname]
      exact .inr ⟨_, C.bind_whole (hsome _ _) (hlabel _)⟩
    · rw [if_neg hname]
      exact .inl (C.bind_ahead (.inr rfl) (hnone _ _) (hlabel _))

/-- A value that is returned may be left out in front of a semicolon that is.
-/
theorem returning (hg : C.Handles g) (s : Surroundings) :
    C.Runs .whole k K ends (g.returning s) (g.returning s) := by
  unfold Grammar.returning
  split
  · exact C.fail _ (by simp)
  refine here (.inr rfl) fun start start' hstart =>
    C.bind_whole (expect (word_isPlain _)) fun _ _ _ k => ?_
  have hvalue (K : Set Nat) (value value' : Option Tree)
      (h : Same left right value value') (k : TokenKind) :
      C.Runs .tail k (K ∪ ends value) ends
        (endStatement >>= fun _ => Parse.finish start (.returning value))
        (endStatement >>= fun _ =>
          Parse.finish start' (.returning value')) := by
    refine C.endStatement_finish hstart ?_ ?_
    · simp_all [Same, mapPlaces, Form.map]
    · simp [ends_form, Form.heads, Form.bodies, Form.slots]
  have hnone (K : Set Nat) (k : TokenKind) : C.Runs .ahead k K ends
      (pure none) (pure (none : Option Tree)) :=
    C.ret same_none (by simp)
  have hsome (K : Set Nat) (k : TokenKind) : C.Runs .whole k K ends
      (some <$> g.expression false) (some <$> g.expression false) :=
    map (by simp) (expression hg false) (by simp) (by simp)
  refine look_mayEnd_tail (fun _ => ?_) fun _ => ?_
  · exact C.bind_ahead (.inr rfl) (hnone _ _) (hvalue _)
  · exact C.bind_whole (hsome _ _) (hvalue _)

/-- Behind `throw` a line break is an error, on both sides. -/
theorem throwing (hg : C.Handles g) :
    C.Runs .whole k K ends g.throwing g.throwing := by
  refine here (.inr rfl) fun start start' hstart =>
    C.bind_whole (expect (word_isPlain _)) fun _ _ _ k => C.tail (C.ahead ?_)
  refine C.look (fun t => t.afterBreak) (.inr rfl) fun t t' h _ => ?_
  rw [(same_token.1 h).1.afterBreak_eq]
  split
  · exact C.fail _ (by simp)
  refine C.bind_whole (expression hg false) fun value value' hvalue k =>
    C.endStatement_finish hstart ?_ ?_
  · simp_all [Same, mapPlaces, Form.map]
  · simp [ends_form, Form.heads, Form.bodies, Form.slots]

/-- A try statement behind its handler. -/
theorem tryingRest (hg : C.Handles g) (s : Surroundings)
    {start start' : Nat} {body body' : Tree}
    {handler handler' : Option (Tree × Tree)}
    (hstart : Same left right start start')
    (hbody : Same left right body body')
    (hhandler : Same left right handler handler')
    (hK : ends body ⊆ K) (hK' : ends handler ⊆ K) :
    C.Runs .ahead k K ends
      (do
        let cleanup ←
          if ← Parse.accept Keyword.finallyWord then some <$> g.block s
          else pure none
        if handler.isNone && cleanup.isNone then Parse.fail .expectedHandler
        else
          Parse.finish start
            (.trying (some body) (handler.map (·.1)) (handler.map (·.2))
              cleanup))
      (do
        let cleanup ←
          if ← Parse.accept Keyword.finallyWord then some <$> g.block s
          else pure none
        if handler'.isNone && cleanup.isNone then Parse.fail .expectedHandler
        else
          Parse.finish start'
            (.trying (some body') (handler'.map (·.1)) (handler'.map (·.2))
              cleanup)) := by
  refine optionally (word_isPlain _) (by simp) (fun k K => block hg s)
    fun cleanup cleanup' K' k hKK' hends hcleanup => ?_
  dsimp only
  -- the handler and the last block are missing on both sides or on neither
  rw [hhandler.isNone_eq, hcleanup.isNone_eq]
  split
  · exact C.ahead (C.fail _ (by simp))
  refine node hstart ?_ rfl ?_
  · rcases hhandler.option with ⟨rfl, rfl⟩
      | ⟨⟨_, _⟩, ⟨_, _⟩, rfl, rfl, hpair⟩
    · simp_all [Same, mapPlaces, Form.map]
    · obtain ⟨hcaught, hblock⟩ := same_pair.1 hpair
      simp_all [Same, mapPlaces, Form.map]
  · rcases handler with _ | ⟨caught, block⟩
    · simp [ends_form, Form.heads, Form.bodies, Form.slots]
      grind
    · simp at hK'
      simp [ends_form, Form.heads, Form.bodies, Form.slots]
      grind

/-- Either a handler or a last block must follow, and perhaps both. -/
theorem trying (hg : C.Handles g) (s : Surroundings) :
    C.Runs .whole k K ends (g.trying s) (g.trying s) := by
  refine here (.inr rfl) fun start start' hstart =>
    C.bind_whole (expect (word_isPlain _)) fun _ _ _ k =>
      C.tail (C.bind_ahead (.inl rfl) (C.ahead (block hg s))
        fun body body' hbody k => ?_)
  have hhandled (caught caught' : Tree)
      (hcaught : Same left right caught caught') (K : Set Nat)
      (k : TokenKind) (hK : ends caught ⊆ K) : C.Runs .whole k K ends
        (some <$> (caught, ·) <$> g.block s)
        (some <$> (caught', ·) <$> g.block s) := by
    refine map (E := ends) (by simp) (map (by simp) (block hg s) ?_ ?_) ?_ ?_
    · exact fun _ _ h => same_pair.2 ⟨hcaught, h⟩
    · simp
      grind
    · simp
    · simp
  refine C.bind_ahead (.inl rfl) (accept (word_isPlain _) (by simp))
    fun b b' hb k => ?_
  obtain rfl := same_bool.1 hb
  cases b with
  | false =>
      refine C.bind_ahead (E := ends) (.inl rfl) (C.ret same_none (by simp))
        fun handler handler' hhandler k =>
          tryingRest hg s hstart hbody hhandler ?_ Set.subset_union_right
      grind
  | true =>
      refine C.bind_ahead (.inl rfl) (C.ahead (expect (mark_isPlain _)))
        fun _ _ _ k => C.bind_ahead (.inl rfl)
          (C.ahead (Coupling.name false)) fun caught caught' hcaught k =>
            C.bind_ahead (.inl rfl) (C.ahead (expect (mark_isPlain _)))
              fun _ _ _ k => C.bind_ahead (E := ends) (.inl rfl)
                (C.ahead (hhandled caught caught' hcaught _ _ (by grind)))
                fun handler handler' hhandler k =>
                  tryingRest hg s hstart hbody hhandler ?_
                    Set.subset_union_right
      grind

-- ============================================================== switch

/-- A clause has a test or is the default one. -/
theorem clauseTest (hg : C.Handles g) (hasDefault : Bool) :
    C.Runs .whole k K ends (g.clauseTest hasDefault)
      (g.clauseTest hasDefault) := by
  refine look_kind (.inr rfl) ?_
  split
  · exact C.bind_whole (C.advance (word_isPlain _)) fun _ _ _ k =>
      C.tail (C.ahead (map (by simp) (expression hg false) (by simp) (by simp)))
  · split
    · exact C.fail _ (by simp)
    · exact C.bind_whole (C.advance (word_isPlain _)) fun _ _ _ k =>
        C.tail (C.ret same_none (by simp))
  · exact C.fail _ (by simp)

/-- Its statements go on up to the next clause. -/
theorem clause (hg : C.Handles g) (s : Surroundings) (hasDefault : Bool) :
    C.Runs .inner k K ends (g.clause s hasDefault)
      (g.clause s hasDefault) := by
  refine here (.inl rfl) fun start start' hstart =>
    C.bind_inner (.inl rfl) (C.inner (C.ahead (clauseTest hg hasDefault)))
      fun test test' htest k => C.bind_inner (.inl rfl)
        (C.inner (C.ahead (expect (mark_isPlain _)))) fun _ _ _ k =>
          C.bind_inner (.inl rfl) (statements hg _)
            fun as as' has k => C.bind_inner (.inl rfl)
              (C.inner (node hstart ?_ rfl ?_))
              fun tree tree' htree k => C.inner (C.ret ?_ ?_)
  · simp_all [Same, mapPlaces, Form.map]
  · simp [ends_form, Form.heads, Form.bodies, Form.slots]
    grind
  · rw [htest.isNone_eq]
    exact same_pair.2 ⟨htree, same_bool.2 rfl⟩
  · simp

/-- The braces of a switch statement hold its clauses. -/
theorem switch (hg : C.Handles g) (s : Surroundings) :
    C.Runs .whole k K ends (g.switch s) (g.switch s) := by
  refine here (.inr rfl) fun start start' hstart =>
    C.bind_whole (expect (word_isPlain _)) fun _ _ _ k =>
      C.tail (C.bind_ahead (.inl rfl) (C.ahead (condition hg))
        fun value value' hvalue k => C.bind_ahead (.inl rfl)
          (C.ahead (expect (mark_isPlain _))) fun _ _ _ k => C.ahead ?_)
  refine C.bind_inner (.inr rfl) (C.iterate (.inr rfl) ?_
    (same_pair.2 ⟨same_nil, same_bool.2 rfl⟩) (by simp))
    fun ⟨found, more⟩ ⟨found', more'⟩ hfound k =>
      C.bind_whole (expect (mark_isPlain _)) fun _ _ _ k =>
        C.tail (node hstart ?_ rfl ?_)
  · rintro ⟨done, hasDefault⟩ ⟨done', hasDefault'⟩ h k
    obtain ⟨hdone, hmore⟩ := same_pair.1 h
    obtain rfl := same_bool.1 hmore
    refine isAt (.inl rfl) ?_
    split
    · exact C.inner (C.ret same_none (by simp))
    refine bind_pure (by simp) (clause hg s _) ?_ ?_
    · rintro ⟨clause, isDefault⟩ ⟨clause', isDefault'⟩ hclause
      simp_all
    · simp
  · have h := Same.reverse (same_pair.1 hfound).1
    simp_all [Same, mapPlaces, Form.map]
  · simp [ends_form, Form.heads, Form.bodies, Form.slots]
    grind

-- ========================================================== statements

/-- Behind an identifier a colon makes it a label. -/
theorem expressionStatement (hg : C.Handles g) (s : Surroundings) :
    C.Runs .whole k K ends (g.expressionStatement s)
      (g.expressionStatement s) := by
  refine look_token (.inr rfl) fun t t' h hstart hk hk' =>
    C.bind_whole (expression hg false) fun value value' hvalue k => ?_
  rw [hvalue.identifier?_eq, h.doc_eq]
  have hend (k : TokenKind) : C.Runs .tail k (K ∪ ends value) ends
      (do
        endStatement
        Parse.finish t.start (.expression (some (value.withDoc t'.doc))))
      (do
        endStatement
        Parse.finish t'.start
          (.expression (some (value'.withDoc t'.doc)))) := by
    refine C.endStatement_finish hstart ?_ ?_
    · have hvalue := hvalue.withDoc t'.doc
      simp_all [Same, mapPlaces, Form.map]
    · simp [ends_form, Form.heads, Form.bodies, Form.slots]
  refine isAt_ahead (.inr rfl) (by simp) (fun hcolon => ?_) fun _ => ?_
  · cases value'.identifier?.isSome with
    | false => exact .inr ⟨hend k, hend k⟩
    | true =>
        refine .inl (C.bind_whole (C.advance (hcolon ▸ mark_isPlain _))
          fun _ _ _ k => C.bind_ahead (.inr rfl)
            (C.ahead (hg.statement _ _ _))
            fun statement statement' hstatement k =>
              C.tail (node hstart ?_ rfl ?_))
        · simp_all [Same, mapPlaces, Form.map]
        · simp [ends_form, Form.heads, Form.bodies, Form.slots]
          grind
  · rw [Bool.and_false, if_neg Bool.false_ne_true,
      if_neg Bool.false_ne_true]
    exact hend k

/-- The first token says which statement it is. -/
theorem statementHere (hg : C.Handles g) (s : Surroundings) :
    C.Runs .whole k K ends (g.statementHere s) (g.statementHere s) := by
  refine look_token (.inr rfl) fun t t' h hstart hk hk' => ?_
  rw [hk, hk', h.doc_eq, h.value_eq]
  split
  case h_1 => exact block hg s
  case h_2 => exact C.lone
  case h_3 =>
      refine C.bind_whole (C.advance (word_isPlain _)) fun _ _ _ k =>
        C.endStatement_finish hstart rfl ?_
      simp [ends_form, Form.heads, Form.bodies, Form.slots]
  case h_4 =>
      exact declarations hg false fun _ _ _ _ _ _ hs hform hK =>
        C.finish_endStatement _ hs hform hK
  case h_5 =>
      exact bind_pure (by simp) (function hg true) (fun _ _ h => h.withDoc _) (by simp)
  case h_6 => exact branch hg s
  case h_7 => exact forLoop hg s
  case h_8 => exact whileLoop hg s
  case h_9 => exact doWhile hg s
  case h_10 => exact jump s (.inr rfl)
  case h_11 => exact jump s (.inl rfl)
  case h_12 => exact returning hg s
  case h_13 => exact throwing hg
  case h_14 => exact trying hg s
  case h_15 => exact switch hg s
  case h_16 =>
      split
      · exact C.failAt _ _ _ (by simp)
      · exact expressionStatement hg s
  case h_17 => exact expressionStatement hg s

-- =============================================================== depth

/-- Parsers that fail at once fail on both sides. -/
theorem handles_exhausted : C.Handles exhausted where
  assignment _ _ _ := C.fail _ (by simp)
  operand _ _ _ _ := C.fail _ (by simp)
  unary _ _ := C.fail _ (by simp)
  callee _ _ := C.fail _ (by simp)
  statement _ _ _ := C.fail _ (by simp)

/-- One level further out, the parsers call those that are coupled. -/
theorem Handles.outer (hg : C.Handles g) : C.Handles g.outer where
  assignment noIn _ _ := assignmentExpression hg noIn
  operand above noIn _ _ := binaryExpression hg above noIn
  unary _ _ := unaryExpression hg
  callee _ _ := leftHand hg false
  statement s _ _ := statementHere hg s

/-- At all depths, the parsers of the grammar are coupled. -/
theorem handles_levels (n : Nat) : C.Handles (levels n) := by
  induction n with
  | zero => exact handles_exhausted
  | succ n ih => exact ih.outer

-- ============================================================ programs

/-- A program is its statements up to the end of the text. -/
theorem program (hg : C.Handles g) :
    C.Runs .inner k K ends g.program g.program := by
  refine C.bind_inner (.inl rfl) (many (.inr rfl) fun k K => ?_)
    fun statements statements' hstatements k => ?_
  · refine isAt (.inl rfl) ?_
    split
    · exact C.inner (C.ret same_none (by simp))
    · exact C.inner (C.ahead (bind_pure (by simp) (hg.statement _ _ _) (by simp)
        (by simp)))
  · refine look_token (.inl rfl) fun t t' h _ _ _ => ?_
    have hopen := h.openComment_eq
    cases ht : t.openComment with
    | some offset =>
        rw [ht] at hopen
        obtain ⟨offset', ht'⟩ := Option.isSome_iff_exists.1 hopen.symm
        rw [ht']
        exact C.inner (C.ahead (C.failAt _ _ _ (by simp)))
    | none =>
        have ht' : t'.openComment = none := by simpa [ht] using hopen.symm
        rw [ht']
        refine C.inner (C.ret ?_ ?_)
        · simp_all [Same, mapPlaces, Tree.mapPlaces_node, Form.map,
            C.start_eq]
        · rw [ends_node rfl]
          simp [ends_form, Form.heads, Form.bodies, Form.slots]

end Coupling

end ScriptLint
