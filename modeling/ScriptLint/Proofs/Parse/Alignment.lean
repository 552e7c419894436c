/-
Two texts read in step. An alignment says which cursors in two texts stand
at the same token, when the second text may have semicolons of its own at
some places (`Alignment.points`): there the cursor in it is behind, at a
semicolon that the first text does not have. Parsers whose steps are the
same then run alike on the two texts (`Alignment.coupling`).

A cursor only knows what lies ahead of it by where the reading of the first
text ends. Whether a slash is read again, and whether a statement ends at a
place, shows there, and so what is said of two runs presupposes that the
first one ends on the way to that place and finds the ends that are
expected of it (`Alignment.Expects`).

A number goes with the two cursors, from which on the semicolons in the
second text are still to come (`Alignment.At`). It is what the ends that
are known and those that are found are compared with.

How two runs may begin and end is one of four modes (`Mode`). What a mode
tells about a run is put into three small functions: whether both runs must
begin at the same token (`Mode.isFixed`), from where on the ends lie that a
run can find (`Mode.first`), and up to where they are known when it ends
(`Mode.bound`). Modes of runs one after the other are put together by a
table of five lines (`Mode.Then`), and every fact about sequences is read
off it by going through these lines.

So there are three groups of lemmas. The first is about modes alone. The
second gives the rules for sequences, looks and loops, from which `Runs`
follows for parsers that are put together (`Runs.bind`, `Runs.look_ahead`,
`Runs.iterate`). The third is about the single steps that a grammar is made
of: tokens, literals, the ends of statements. Together they are the fields
of `Alignment.coupling`, and nothing else in here knows of the grammar.

The first text is read by its own parser, the second one by a parser that
is the same step by step, and there are two results: a program is read as
the same program, if every semicolon in the second text is at the end of a
statement (`Alignment.read_ok`), and what is no program is none there for
the same reason, if there are no such semicolons (`Alignment.read_error`).
`refl` aligns a text with itself, which is how facts about one run only are
had from the same lemmas.
-/
import ScriptLint.Proofs.Parse.Coupled

namespace ScriptLint

open Parse

/-- How a sequence ends: behind its second part, or where the first one
fails. -/
theorem Parse.run_bind_cases {α β : Type} {p : Parse α} {f : α → Parse β}
    {c e : Cursor} {r : Except SyntaxError β}
    (h : (p >>= f).run.run c = (r, e)) :
    (∃ a d, p.run.run c = (.ok a, d) ∧ (f a).run.run d = (r, e))
      ∨ ∃ fault, p.run.run c = (.error fault, e) ∧ r = .error fault := by
  rw [run_bind] at h
  rcases hp : p.run.run c with ⟨fault | a, d⟩ <;> rw [hp] at h
  · cases h
    exact .inr ⟨fault, rfl, rfl⟩
  · exact .inl ⟨a, d, rfl, h⟩

/-- A step that goes on is followed by the rest of the loop, if something has
been consumed. -/
theorem Parse.iterate_some {σ : Type} {step : σ → Parse (Option σ)}
    {state state' : σ} {c d : Cursor}
    (h : (step state).run.run c = (.ok (some state'), d)) :
    Parse.iterate step state c
      = if d.remaining < c.remaining then Parse.iterate step state' d
        else (.ok state', d) := by
  rw [iterate, h]

/-- How a loop ends: where a step fails or declines, behind a step that
consumes nothing, or behind the rest of the loop. -/
theorem Parse.iterate_cases {σ : Type} {step : σ → Parse (Option σ)}
    {state : σ} {c e : Cursor} {r : Except SyntaxError σ}
    (h : Parse.iterate step state c = (r, e)) :
    (∃ fault, (step state).run.run c = (.error fault, e) ∧ r = .error fault)
      ∨ (step state).run.run c = (.ok none, e) ∧ r = .ok state
      ∨ ∃ state' d, (step state).run.run c = (.ok (some state'), d)
        ∧ (d.remaining < c.remaining
            ∧ Parse.iterate step state' d = (r, e)
          ∨ ¬ d.remaining < c.remaining ∧ r = .ok state' ∧ d = e) := by
  rw [iterate] at h
  rcases hrun : (step state).run.run c with ⟨fault | _ | state', d⟩ <;>
    rw [hrun] at h <;> dsimp only at h
  · cases h
    exact .inl ⟨fault, rfl, rfl⟩
  · cases h
    exact .inr (.inl ⟨rfl, rfl⟩)
  · refine .inr (.inr ⟨state', d, rfl, ?_⟩)
    split at h
    · exact .inl ⟨‹_›, h⟩
    · cases h
      exact .inr ⟨‹_›, rfl, rfl⟩

/-- Nodes that start and are made of the same are the same. -/
theorem Same.node {left right : Nat → Nat} {start start' stop stop' : Nat}
    {form form' : Form (Option Tree)} (hstart : Same left right start start')
    (hform : Same left right form form') :
    Same left right (Tree.node start stop none form)
      (Tree.node start' stop' none form') := by
  have hmap (f : Nat → Nat) (start stop : Nat) (form : Form (Option Tree)) :
      HasPlaces.mapPlaces f (Tree.node start stop none form)
        = .node (HasPlaces.mapPlaces f start) 0 none
          (HasPlaces.mapPlaces f form) := Tree.mapPlaces_node ..
  rw [Same, hmap, hmap, hstart, hform]

/-- The ends in a node that has just been made: those in its form, and
perhaps where the last token ends. -/
theorem HasPlaces.of_mem_ends {start stop y : Nat}
    {form : Form (Option Tree)}
    (h : y ∈ ends (Tree.node start (max stop start) none form)) :
    y ∈ ends form ∨ form.isEnded = true ∧ y = stop := by
  rw [← innerEnds_node start (max stop start) none]
  rcases List.mem_append.1 h with hy | hy
  · obtain ⟨hended, hlt, rfl⟩ := Tree.mem_ownEnds.1 hy
    refine .inr ⟨hended, ?_⟩
    simp only [Tree.start, Tree.stop] at hlt ⊢
    omega
  · exact .inl hy

-- ========================================================== alignments

/-- How the cursors in two texts stand to each other. The second text may
have semicolons that the first has not. -/
structure Alignment (left right : Nat → Nat) (text text' : String) where
  /-- Where the reading of the first text ends. -/
  last : Cursor
  /-- Where in the first text the second one has a semicolon. -/
  points : Set Nat
  /-- The cursors are at the same token. -/
  Aligned : Cursor → Cursor → Prop
  /-- The second cursor is at a semicolon in front of that token. -/
  Behind : Cursor → Cursor → Prop
  /-- Where in the second text a place of the first one is. -/
  place : Nat → Nat
  place_eq : right ∘ place = left
  start_eq : left 0 = right 0
  first : Aligned { lexeme := Lexeme.first text }
    { lexeme := Lexeme.first text' }
  token_same {c c' : Cursor} : Aligned c c' → Same left right c.token c'.token
  next {c c' : Cursor} : c.Reached text → Aligned c c' →
    c.kind ≠ .endOfText → c.next.Reaches last →
    (c.token.stop ∉ points → Aligned c.next c'.next)
      ∧ (c.token.stop ∈ points → Behind c.next c'.next)
  asRegex {c c' : Cursor} : c.Reached text → Aligned c c' →
    c.kind = Punctuator.slash ∨ c.kind = Punctuator.slashEquals →
    c.asRegex.Reaches last → Aligned c.asRegex c'.asRegex
  behind {c c' : Cursor} : Behind c c' →
    c'.kind = Punctuator.semicolon ∧ c.kind ≠ Punctuator.semicolon
      ∧ c.lastStop ∈ points ∧ Aligned c c'.next
  semicolon {c : Cursor} : c.Reached text →
    c.kind = Punctuator.semicolon → c.next.Reaches last →
    c.token.stop ∉ points

-- =============================================================== modes

namespace Mode

/-- Whether both runs begin at the same token. -/
def isFixed : Mode → Bool
  | .whole | .inner => true
  | .ahead | .tail => false

/-- Where an end may lie that a run finds which begins behind a byte. -/
def first : Mode → Nat → Nat
  | .tail, stop => stop
  | _, stop => stop + 1

/-- Up to where the ends are known when a run ends behind a byte. -/
def bound : Mode → Nat → Nat
  | .inner, stop => stop + 1
  | _, stop => stop

/-- How far two runs get: both over a token, or both nowhere. -/
def Moved : Mode → Cursor → Cursor → Cursor → Cursor → Prop
  | .whole, c, c', d, d' =>
    d.remaining < c.remaining ∧ d'.remaining < c'.remaining
  | .ahead, c, c', d, d' | .inner, c, c', d, d' =>
    d = c ∧ d' = c'
      ∨ d.remaining < c.remaining ∧ d'.remaining < c'.remaining
  | .tail, _, _, _, _ => True

/-- A step of a loop gets both runs somewhere or neither. -/
theorem Moved.inner {m : Mode} {c c' d d' : Cursor}
    (h : m.Moved c c' d d') (hm : m = .ahead ∨ m = .inner) :
    Mode.inner.Moved c c' d d' := by
  rcases hm with rfl | rfl <;> exact h

/-- If the one run has got somewhere, the other one has. -/
theorem Moved.lt_of_lt {c c' d d' : Cursor}
    (h : Mode.inner.Moved c c' d d') (hlt : d.remaining < c.remaining) :
    d'.remaining < c'.remaining := by
  rcases h with ⟨rfl, -⟩ | ⟨-, hlt'⟩
  · exact absurd hlt (Nat.lt_irrefl _)
  · exact hlt'

/-- The mode of two runs, one after the other. -/
inductive Then : Mode → Mode → Mode → Prop where
  | whole_tail : Then .whole .tail .whole
  | ahead : Then .ahead .ahead .ahead
  | ahead_tail : Then .ahead .tail .tail
  | inner : Then .inner .inner .inner
  | inner_whole : Then .inner .whole .whole

/-- What the steps of a loop may be may follow itself. -/
theorem Then.loop {m : Mode} (hm : m = .ahead ∨ m = .inner) :
    m.Then m m := by
  rcases hm with rfl | rfl
  · exact .ahead
  · exact .inner

/-- The further on a run begins, the further on lie the ends that it finds. -/
theorem first_le {m : Mode} {stop stop' : Nat} (h : stop ≤ stop') :
    m.first stop ≤ m.first stop' := by
  cases m <;> simpa [first] using h

namespace Then

variable {m₁ m₂ m : Mode} {c c' d d' e e' : Cursor}

/-- The first of two runs begins where both together do. -/
theorem isFixed_left (h : m₁.Then m₂ m) (hm : m₁.isFixed) : m.isFixed := by
  cases h <;> exact hm

/-- If the second one must begin at the same token, the first one sees to
that. -/
theorem isFixed_right (h : m₁.Then m₂ m) (hm : m₂.isFixed) :
    m₁ = .inner := by
  cases h <;> first | rfl | cases hm

/-- What is known at the end is decided by how the second run ends. -/
theorem bound_eq (h : m₁.Then m₂ m) (stop : Nat) :
    m₂.bound stop = m.bound stop := by
  cases h <;> rfl

/-- The first run finds nothing that lies in front of what both may find. -/
theorem first_le_left (h : m₁.Then m₂ m) (stop : Nat) :
    m.first stop ≤ m₁.first stop := by
  cases h <;> simp [first]

/-- What a second run finds lies behind what is known when the first one
ends. -/
theorem bound_le_first (h : m₁.Then m₂ m) (stop : Nat) :
    m₁.bound stop ≤ m₂.first stop := by
  cases h <;> simp [bound, first]

/-- What is known behind the first run is known behind both. Only a second run
that must consume something may stop short of that. -/
theorem bound_left_le (h : m₁.Then m₂ m) {stop stop' : Nat}
    (hle : stop ≤ stop') (hwhole : m₂ = .whole → stop < stop') :
    m₁.bound stop ≤ m.bound stop' := by
  cases h with
  | whole_tail => exact hle
  | ahead => exact hle
  | ahead_tail => exact hle
  | inner => exact Nat.succ_le_succ hle
  | inner_whole => exact hwhole rfl

/-- What the second run finds lies where both may find it, since it begins no
further in front. -/
theorem first_le_right (h : m₁.Then m₂ m) {stop stop' : Nat}
    (hle : stop ≤ stop') (hwhole : m₁ = .whole → stop < stop') :
    m.first stop ≤ m₂.first stop' := by
  cases h with
  | whole_tail => exact hwhole rfl
  | ahead => exact first_le hle
  | ahead_tail => exact first_le hle
  | inner => exact first_le hle
  | inner_whole => exact first_le hle

/-- What ends between tokens ends with a run that does. -/
theorem eq_inner (h : m₁.Then m₂ m) (hm : m = .inner) : m₂ = .inner := by
  cases h <;> first | rfl | cases hm

/-- A sequence consumes something if one of its parts does. -/
theorem whole (h : m₁.Then m₂ m) (hm : m = .whole) :
    m₁ = .whole ∨ m₂ = .whole := by
  cases h <;> simp_all

/-- Two runs, one after the other, get as far as their mode says, since neither
ever goes back. -/
theorem moved (h : m₁.Then m₂ m) (h₁ : m₁.Moved c c' d d')
    (h₂ : m₂.Moved d d' e e') (hle : e.remaining ≤ d.remaining)
    (hle' : e'.remaining ≤ d'.remaining) : m.Moved c c' e e' := by
  have hboth (h₁ : Mode.inner.Moved c c' d d')
      (h₂ : Mode.inner.Moved d d' e e') : Mode.inner.Moved c c' e e' := by
    rcases h₁ with ⟨rfl, rfl⟩ | ⟨hlt, hlt'⟩
    · exact h₂
    · exact .inr ⟨Nat.lt_of_le_of_lt hle hlt, Nat.lt_of_le_of_lt hle' hlt'⟩
  cases h with
  | whole_tail =>
      exact ⟨Nat.lt_of_le_of_lt hle h₁.1, Nat.lt_of_le_of_lt hle' h₁.2⟩
  | ahead => exact hboth h₁ h₂
  | ahead_tail => trivial
  | inner => exact hboth h₁ h₂
  | inner_whole =>
      rcases h₁ with ⟨rfl, rfl⟩ | ⟨hlt, hlt'⟩
      · exact h₂
      · exact ⟨h₂.1.trans hlt, h₂.2.trans hlt'⟩

end Then

end Mode

/-- What a parser does on a text: it goes on from token to token, and the
ends it finds lie where it has been. -/
def Parse.Goes {α : Type} (text : String) (m : Mode) (k : TokenKind)
    (K : Set Nat) (E : α → Set Nat) (p : Parse α) : Prop :=
  ∀ c r d, c.Reached text → c.kind = k → p.run.run c = (r, d) →
    c.Reaches d ∧ ∀ a, r = .ok a →
      (m = .whole → c.lastStop < d.lastStop)
        ∧ ∀ y ∈ E a, y ∈ K ∨ m.first c.lastStop ≤ y ∧ y ≤ d.lastStop

namespace Alignment

variable {left right : Nat → Nat} {text text' : String}
  (A : Alignment left right text text')

/-- Two cursors, with the place from which on semicolons are still to
come in the second text. -/
inductive At : Nat → Cursor → Cursor → Prop where
  | aligned {c c' : Cursor} : A.Aligned c c' → At (c.lastStop + 1) c c'
  | behind {c c' : Cursor} : A.Behind c c' → At c.lastStop c c'

/-- The ends at which there are semicolons from a place on are known or
found. -/
def Expects (m : Mode) (s : Nat) (d : Cursor) (K E : Set Nat) : Prop :=
  ∀ y ∈ A.points, s ≤ y → y < m.bound d.lastStop → y ∈ K ∨ y ∈ E

/-- Where two runs end that have begun at `c` and `c'`. -/
structure Arrives (m : Mode) (s t : Nat) (E : Set Nat)
    (c c' d d' : Cursor) : Prop where
  at_end : A.At t d d'
  le : s ≤ t
  found_lt : ∀ y ∈ E, y < t
  fixed : m = .inner → t = d.lastStop + 1
  reaches : c'.Reaches d'
  moved : m.Moved c c' d d'

/-- Two parsers that run alike on the two texts. -/
structure Runs {α : Type} [HasPlaces α] (m : Mode) (k : TokenKind)
    (K : Set Nat) (E : α → Set Nat) (p p' : Parse α) : Prop where
  goes : Parse.Goes text m k K E p
  succeeds {s : Nat} {c c' d : Cursor} {a : α} :
    c.Reached text → c'.Reached text' → c.kind = k → A.At s c c' →
    (m.isFixed → s = c.lastStop + 1) → (∀ y ∈ K, y < s) →
    p.run.run c = (.ok a, d) → d.Reaches A.last → A.Expects m s d K (E a) →
    ∃ a' d' t, p'.run.run c' = (.ok a', d') ∧ Same left right a a'
      ∧ A.Arrives m s t (E a) c c' d d'
  fails {c c' d : Cursor} {e : SyntaxError} :
    A.points = ∅ → c.Reached text → c'.Reached text' → c.kind = k →
    A.Aligned c c' → (∀ y ∈ K, y ≤ c.lastStop) →
    p.run.run c = (.error e, d) → d.Reaches A.last →
    ∃ e' d', p'.run.run c' = (.error e', d') ∧ e'.fault = e.fault

variable {A}

/-- The place is that where the last token ends, or the one behind. -/
theorem At.bounds {s : Nat} {c c' : Cursor} (h : A.At s c c') :
    c.lastStop ≤ s ∧ s ≤ c.lastStop + 1 := by
  cases h <;> omega

/-- Without semicolons of its own, the second text is never behind. -/
theorem At.of_points {s : Nat} {c c' : Cursor} (h : A.At s c c')
    (hpoints : A.points = ∅) :
    A.Aligned c c' ∧ s = c.lastStop + 1 := by
  cases h with
  | aligned h => exact ⟨h, rfl⟩
  | behind h =>
      have hy := (A.behind h).2.2.1
      exact absurd (hpoints ▸ hy) (Set.notMem_empty _)

/-- Behind that end both cursors are at the same token. -/
theorem At.of_eq {s : Nat} {c c' : Cursor} (h : A.At s c c')
    (hs : s = c.lastStop + 1) : A.Aligned c c' := by
  cases h with
  | aligned h => exact h
  | behind => omega

section

variable {m₁ m₂ m : Mode} {s t u : Nat} {K K' E E' : Set Nat}
  {c c' d d' e e' : Cursor}

/-- What a run has to find its first part has found, for the second one
only finds what lies behind. -/
theorem Expects.before (hthen : m₁.Then m₂ m) (h : A.Expects m s e K E')
    (hle : d.lastStop ≤ e.lastStop)
    (hwhole : m₂ = .whole → d.lastStop < e.lastStop)
    (hfound : ∀ y ∈ E', y ∈ K ∪ E ∨ m₂.first d.lastStop ≤ y) :
    A.Expects m₁ s d K E := by
  intro y hy hfrom hto
  have hbound := hthen.bound_left_le hle hwhole
  rcases h y hy hfrom (Nat.lt_of_lt_of_le hto hbound) with hy | hy
  · exact .inl hy
  · refine (hfound y hy).resolve_right fun hy => ?_
    exact Nat.not_lt.2 ((hthen.bound_le_first d.lastStop).trans hy) hto

/-- The second part has to find what is left. -/
theorem Expects.after (hthen : m₁.Then m₂ m) (h : A.Expects m s e K E')
    (hle : s ≤ t) (hK : K ⊆ K') : A.Expects m₂ t e K' E' := by
  intro y hy hfrom hto
  rw [hthen.bound_eq] at hto
  exact (h y hy (hle.trans hfrom) hto).imp_left fun hy => hK hy

/-- Where two runs end that go on from where two others have ended. -/
theorem Arrives.trans (hthen : m₁.Then m₂ m)
    (h : A.Arrives m₁ s t E c c' d d') (h' : A.Arrives m₂ t u E' d d' e e')
    (hd : d.Reached text) (hd' : d'.Reached text') (hreach : d.Reaches e) :
    A.Arrives m s u E' c c' e e' where
  at_end := h'.at_end
  le := h.le.trans h'.le
  found_lt := h'.found_lt
  fixed hm := h'.fixed (hthen.eq_inner hm)
  reaches := h.reaches.trans h'.reaches
  moved := hthen.moved h.moved h'.moved (hreach.remaining_le hd)
    (h'.reaches.remaining_le hd')

end

section

variable {α : Type} [HasPlaces α] {m : Mode} {k : TokenKind} {K : Set Nat}
  {E : α → Set Nat} {p p' : Parse α}

/-- What there is in the second text for something in the first. -/
theorem same_place (A : Alignment left right text text') (a : α) :
    Same left right a (HasPlaces.mapPlaces A.place a) := by
  rw [Same, HasPlaces.mapPlaces_mapPlaces, A.place_eq]

-- =============================================================== modes

/-- A run that consumes a token may as well begin where the second text has a
semicolon, for it never does: a statement would have to end there, and with a
token consumed it does not. -/
theorem Runs.ahead (h : A.Runs .whole k K E p p') :
    A.Runs .ahead k K E p p' where
  goes c r d hc hk hrun := by
    obtain ⟨hreach, hfound⟩ := h.goes c r d hc hk hrun
    exact ⟨hreach, fun a ha => ⟨nofun, (hfound a ha).2⟩⟩
  succeeds {s c c' d a} hc hc' hk hat _ hK hrun hlast hexpects := by
    obtain ⟨hwhole, hfound⟩ := (h.goes c _ d hc hk hrun).2 a rfl
    have hlt := hwhole rfl
    cases hat with
    | aligned haligned =>
        obtain ⟨a', d', t, hrun', hsame, harrives⟩ := h.succeeds hc hc' hk
          (.aligned haligned) (fun _ => rfl) hK hrun hlast hexpects
        exact ⟨a', d', t, hrun', hsame, { harrives with
          fixed := nofun
          moved := .inr harrives.moved }⟩
    | behind hbehind =>
        -- a token is consumed, so this is not where a statement ends
        exfalso
        obtain ⟨-, -, hpoint, -⟩ := A.behind hbehind
        rcases hexpects _ hpoint (Nat.le_refl _) hlt with hy | hy
        · exact absurd (hK _ hy) (Nat.lt_irrefl _)
        · rcases hfound _ hy with hy | ⟨hle, -⟩
          · exact absurd (hK _ hy) (Nat.lt_irrefl _)
          · exact absurd hle (Nat.not_succ_le_self _)
  fails := h.fails

/-- What leaves the semicolon where it is may be followed by what consumes
it. -/
theorem Runs.tail (h : A.Runs .ahead k K E p p') :
    A.Runs .tail k K E p p' where
  goes c r d hc hk hrun := by
    obtain ⟨hreach, hfound⟩ := h.goes c r d hc hk hrun
    refine ⟨hreach, fun a ha => ⟨nofun, fun y hy => ?_⟩⟩
    exact ((hfound a ha).2 y hy).imp_right fun hy =>
      ⟨Nat.le_of_succ_le hy.1, hy.2⟩
  succeeds hc hc' hk hat _ hK hrun hlast hexpects := by
    obtain ⟨a', d', t, hrun', hsame, harrives⟩ :=
      h.succeeds hc hc' hk hat nofun hK hrun hlast hexpects
    exact ⟨a', d', t, hrun', hsame, { harrives with
      fixed := nofun
      moved := trivial }⟩
  fails := h.fails

/-- Where both runs begin at the same token, a run that might have begun behind
does not end there either. -/
theorem Runs.inner (h : A.Runs .ahead k K E p p') :
    A.Runs .inner k K E p p' where
  goes c r d hc hk hrun := by
    obtain ⟨hreach, hfound⟩ := h.goes c r d hc hk hrun
    exact ⟨hreach, fun a ha => ⟨nofun, (hfound a ha).2⟩⟩
  succeeds {s c c' d a} hc hc' hk hat hs hK hrun hlast hexpects := by
    obtain ⟨a', d', t, hrun', hsame, harrives⟩ :=
      h.succeeds hc hc' hk hat nofun hK hrun hlast
        fun y hy hle hlt => hexpects y hy hle (Nat.lt_succ_of_lt hlt)
    refine ⟨a', d', t, hrun', hsame, { harrives with fixed := fun _ => ?_ }⟩
    -- a semicolon in front of the second cursor would have to be an end
    -- that is known, but those have their semicolons behind them
    cases harrives.at_end with
    | aligned => rfl
    | behind hbehind =>
        exfalso
        obtain ⟨-, -, hpoint, -⟩ := A.behind hbehind
        rcases hexpects _ hpoint harrives.le (Nat.lt_succ_self _) with
          hy | hy
        · exact absurd (hK _ hy) (Nat.not_lt.2 harrives.le)
        · exact absurd (harrives.found_lt _ hy) (Nat.lt_irrefl _)
  fails := h.fails

/-- Giving a result leaves everything where it is. -/
theorem runs_pure {a a' : α} (h : Same left right a a') (hE : E a ⊆ K) :
    A.Runs .ahead k K E (pure a) (pure a') where
  goes c r d hc hk hrun := by
    cases hrun
    refine ⟨.refl _, fun b hb => ⟨nofun, fun y hy => .inl ?_⟩⟩
    cases hb
    exact hE hy
  succeeds {s c c' d b} hc hc' hk hat _ hK hrun hlast hexpects := by
    cases hrun
    exact ⟨a', c', s, rfl, h, hat, Nat.le_refl _, fun y hy => hK y (hE hy),
      nofun, .refl _, .inl ⟨rfl, rfl⟩⟩
  fails _ _ _ _ _ _ hrun _ := by cases hrun

end

-- =========================================================== sequences

section

variable {α β : Type} {m₁ m₂ m : Mode} {k : TokenKind} {K : Set Nat}
  {E : α → Set Nat} {E' : β → Set Nat} {p p' : Parse α}
  {f f' : α → Parse β}

/-- The ends that a sequence finds are those that either part finds. -/
theorem goes_bind (h : m₁.Then m₂ m) (hp : Parse.Goes text m₁ k K E p)
    (hf : ∀ a k, Parse.Goes text m₂ k (K ∪ E a) E' (f a)) :
    Parse.Goes text m k K E' (p >>= f) := by
  intro c r e hc hk hrun
  rcases run_bind_cases hrun with ⟨a, d, hrun, hmore⟩ | ⟨fault, hfail, rfl⟩
  · obtain ⟨hreach, hfound⟩ := hp c _ d hc hk hrun
    obtain ⟨hwhole, hfound⟩ := hfound a rfl
    have hd := hreach.reached hc
    obtain ⟨hreach', hfound'⟩ := hf a d.kind d r e hd rfl hmore
    refine ⟨hreach.trans hreach', fun b hb => ?_⟩
    obtain ⟨hwhole', hfound'⟩ := hfound' b hb
    have hle := hreach.lastStop_le hc
    have hle' := hreach'.lastStop_le hd
    refine ⟨fun hm => ?_, fun y hy => ?_⟩
    · rcases h.whole hm with hm | hm
      · exact Nat.lt_of_lt_of_le (hwhole hm) hle'
      · exact Nat.lt_of_le_of_lt hle (hwhole' hm)
    · rcases hfound' y hy with (hy | hy) | ⟨hfirst, hlast⟩
      · exact .inl hy
      · refine (hfound y hy).imp_right fun hy => ⟨?_, hy.2.trans hle'⟩
        exact (h.first_le_left _).trans hy.1
      · exact .inr ⟨(h.first_le_right hle hwhole).trans hfirst, hlast⟩
  · refine ⟨(hp c _ e hc hk hfail).1, fun b hb => ?_⟩
    cases hb

/-- One run and then another one, for all modes that may follow each
other. -/
theorem Runs.bind [HasPlaces α] [HasPlaces β] (h : m₁.Then m₂ m)
    (hp : A.Runs m₁ k K E p p')
    (hf : ∀ a a', Same left right a a' →
      ∀ k, A.Runs m₂ k (K ∪ E a) E' (f a) (f' a')) :
    A.Runs m k K E' (p >>= f) (p' >>= f') where
  goes := goes_bind h hp.goes fun a k => (hf a _ (A.same_place a) k).goes
  succeeds {s c c' e b} hc hc' hk hat hs hK hrun hlast hexpects := by
    rcases run_bind_cases hrun with ⟨a, d, hrun, hmore⟩ | ⟨_, -, hb⟩
    swap
    · cases hb
    obtain ⟨hreach, hfound⟩ := hp.goes c _ d hc hk hrun
    have hd := hreach.reached hc
    have hthen := hf a _ (A.same_place a) d.kind
    obtain ⟨hreach', hfound'⟩ := hthen.goes d _ e hd rfl hmore
    obtain ⟨hwhole', hfound'⟩ := hfound' b rfl
    -- the ends that are expected of the whole are shared out between its parts
    have hfirst : A.Expects m₁ s d K (E a) :=
      Expects.before h hexpects (hreach'.lastStop_le hd) hwhole' fun y hy =>
        (hfound' y hy).imp_right And.left
    obtain ⟨a', d', t, hrun', hsame, harrives⟩ := hp.succeeds hc hc' hk hat
      (fun hm => hs (h.isFixed_left hm)) hK hrun (hreach'.trans hlast) hfirst
    have hd' := harrives.reaches.reached hc'
    -- the second run is where the first part has brought it, which is what the
    -- second part starts from
    obtain ⟨b', e', u, hmore', hsame', harrives'⟩ :=
      (hf a a' hsame d.kind).succeeds hd hd' rfl harrives.at_end
        (fun hm => harrives.fixed (h.isFixed_right hm))
        (by
          rintro y (hy | hy)
          · exact Nat.lt_of_lt_of_le (hK y hy) harrives.le
          · exact harrives.found_lt y hy)
        hmore hlast
        (Expects.after h hexpects harrives.le Set.subset_union_left)
    refine ⟨b', e', u, ?_, hsame', harrives.trans h harrives' hd hd' hreach'⟩
    rw [run_bind, hrun']
    exact hmore'
  fails {c c' e error} hpoints hc hc' hk hat hK hrun hlast := by
    rcases run_bind_cases hrun with ⟨a, d, hrun, hmore⟩ | ⟨fault, hrun, hfault⟩
    · obtain ⟨hreach, -⟩ := hp.goes c _ d hc hk hrun
      have hd := hreach.reached hc
      have hthen := hf a _ (A.same_place a) d.kind
      obtain ⟨hreach', -⟩ := hthen.goes d _ e hd rfl hmore
      obtain ⟨a', d', t, hrun', hsame, harrives⟩ := hp.succeeds hc hc' hk
        (.aligned hat) (fun _ => rfl) (fun y hy => Nat.lt_succ_of_le (hK y hy))
        hrun (hreach'.trans hlast)
        (fun y hy => absurd (hpoints ▸ hy) (Set.notMem_empty y))
      have hd' := harrives.reaches.reached hc'
      have haligned := harrives.at_end.of_points hpoints
      obtain ⟨e', c'', hmore', hfault⟩ := (hf a a' hsame d.kind).fails hpoints
        hd hd' rfl haligned.1 (by
          rintro y (hy | hy)
          · exact (hK y hy).trans (hreach.lastStop_le hc)
          · have hlt := harrives.found_lt y hy
            omega) hmore hlast
      refine ⟨e', c'', ?_, hfault⟩
      rw [run_bind, hrun']
      exact hmore'
    -- the first part has failed already
    · cases hfault
      obtain ⟨e', d', hrun', hsame⟩ :=
        hp.fails hpoints hc hc' hk hat hK hrun hlast
      refine ⟨e', d', ?_, hsame⟩
      rw [run_bind, hrun']

end

-- =============================================================== looks

section

variable {α β : Type} {m : Mode} {k : TokenKind} {K : Set Nat}
  {E : β → Set Nat} {f f' : α → Parse β}

/-- A look finds nothing, and what follows may depend on what is seen. -/
theorem goes_look (h : Token → α)
    (hf : ∀ t : Token, t.kind = k → Parse.Goes text m k K E (f (h t))) :
    Parse.Goes text m k K E (Parse.look (fun c => h c.token) >>= f) :=
  fun c r d hc hk hrun => hf c.token hk c r d hc hk hrun

/-- At the same token, both runs see the same but for places, and go on
alike. -/
theorem Runs.look [HasPlaces β] (h : Token → α)
    (hm : m = .inner ∨ m = .whole)
    (hf : ∀ t t', Same left right t t' → t.kind = k →
      A.Runs m k K E (f (h t)) (f' (h t'))) :
    A.Runs m k K E (Parse.look (fun c => h c.token) >>= f)
      (Parse.look (fun c => h c.token) >>= f') where
  goes := goes_look h fun t hk => (hf t _ (A.same_place t) hk).goes
  succeeds {s c c' d a} hc hc' hk hat hs hK hrun hlast hexpects := by
    have hfixed : m.isFixed := by rcases hm with rfl | rfl <;> rfl
    have hsame := A.token_same (hat.of_eq (hs hfixed))
    exact (hf _ _ hsame hk).succeeds hc hc' hk hat hs hK hrun hlast hexpects
  fails {c c' d e} hpoints hc hc' hk hat hK hrun hlast :=
    (hf _ _ (A.token_same hat) hk).fails hpoints hc hc' hk hat hK hrun hlast

/-- A look may see a semicolon in the second text where the first one has
another token. Then both runs must go on alike all the same, or the first one
must be about to consume a token, which it does nowhere near the end of a
statement. -/
theorem Runs.look_ahead [HasPlaces β] (h : Token → α)
    (hm : m = .ahead ∨ m = .tail)
    (hf : ∀ t t', Same left right t t' → t.kind = k →
      A.Runs m k K E (f (h t)) (f' (h t')))
    (hstop : ∀ t t' : Token, t.kind = k → k ≠ Punctuator.semicolon →
      t'.kind = Punctuator.semicolon →
      A.Runs m k K E (f (h t)) (f' (h t'))
        ∨ ∃ q, A.Runs .whole k K E (f (h t)) q) :
    A.Runs m k K E (Parse.look (fun c => h c.token) >>= f)
      (Parse.look (fun c => h c.token) >>= f') where
  goes := goes_look h fun t hk => (hf t _ (A.same_place t) hk).goes
  succeeds {s c c' d a} hc hc' hk hat hs hK hrun hlast hexpects := by
    cases hat with
    | aligned haligned =>
        exact (hf _ _ (A.token_same haligned) hk).succeeds hc hc' hk
          (.aligned haligned) hs hK hrun hlast hexpects
    | behind hbehind =>
        obtain ⟨hk', hne, hpoint, -⟩ := A.behind hbehind
        rcases hstop c.token c'.token hk (hk ▸ hne) hk' with
          hboth | ⟨q, hwhole⟩
        · exact hboth.succeeds hc hc' hk (.behind hbehind) hs hK hrun hlast
            hexpects
        · -- the first run goes on over a token, but a statement has to end
          exfalso
          obtain ⟨hlt, hfound⟩ := (hwhole.goes c _ d hc hk hrun).2 a rfl
          have hbound : c.lastStop < m.bound d.lastStop := by
            rcases hm with rfl | rfl <;> exact hlt rfl
          rcases hexpects _ hpoint (Nat.le_refl _) hbound with hy | hy
          · exact absurd (hK _ hy) (Nat.lt_irrefl _)
          · rcases hfound _ hy with hy | ⟨hle, -⟩
            · exact absurd (hK _ hy) (Nat.lt_irrefl _)
            · exact absurd hle (Nat.not_succ_le_self _)
  fails {c c' d e} hpoints hc hc' hk hat hK hrun hlast :=
    (hf _ _ (A.token_same hat) hk).fails hpoints hc hc' hk hat hK hrun hlast

end

-- ============================================================== tokens

section

variable {c c' : Cursor}

/-- At the same token, the kinds are the same. -/
theorem kind_eq (h : A.Aligned c c') : c.kind = c'.kind :=
  (same_token.1 (A.token_same h)).1.kind_eq

/-- Both cursors go over the token. -/
theorem arrives_next {m : Mode} (hm : m ≠ .inner) (hc : c.Reached text)
    (hc' : c'.Reached text') (hat : A.Aligned c c')
    (hend : c.kind ≠ .endOfText) (hlast : c.next.Reaches A.last) :
    ∃ t, A.Arrives m (c.lastStop + 1) t ∅ c c' c.next c'.next
      ∧ (c.token.stop ∉ A.points → t = c.next.lastStop + 1) := by
  have hlt : c.lastStop < c.next.lastStop :=
    Nat.lt_of_le_of_lt hc.lastStop_le (hc.tilesIn.start_lt hend)
  have hmoved : c.next.remaining < c.remaining
      ∧ c'.next.remaining < c'.remaining :=
    ⟨Cursor.InText.remaining_next hc.standsIn.liesIn hend,
      Cursor.InText.remaining_next hc'.standsIn.liesIn
        (kind_eq hat ▸ hend)⟩
  have harrives {t : Nat} (h : A.At t c.next c'.next)
      (hle : c.lastStop + 1 ≤ t) :
      A.Arrives m (c.lastStop + 1) t ∅ c c' c.next c'.next :=
    { at_end := h
      le := hle
      found_lt := nofun
      fixed := fun h => absurd h hm
      reaches := .next (.refl _)
      moved := by
        cases m with
        | whole => exact hmoved
        | ahead => exact .inr hmoved
        | inner => exact absurd rfl hm
        | tail => trivial }
  obtain ⟨haligned, hbehind⟩ := A.next hc hat hend hlast
  -- behind the end of a statement, the second text may have a semicolon next
  by_cases hpoint : c.token.stop ∈ A.points
  · exact ⟨_, harrives (.behind (hbehind hpoint)) hlt,
      fun h => absurd hpoint h⟩
  · exact ⟨_, harrives (.aligned (haligned hpoint))
      (Nat.le_succ_of_le hlt), fun _ => rfl⟩

/-- A fault is found in both texts. -/
theorem fault_error (h : A.Aligned c c') (fault : SyntaxFault) :
    (c'.error fault).fault = (c.error fault).fault := by
  obtain ⟨halike, -⟩ := same_token.1 (A.token_same h)
  have hkind : c.kind = c'.kind := halike.kind_eq
  have hcomment := halike.openComment_eq
  unfold Cursor.error
  rw [hkind, halike.isOpen_eq]
  cases ht : c.token.openComment <;> cases ht' : c'.token.openComment <;>
    rw [ht, ht'] at hcomment <;> first | rfl | cases hcomment

/-- A token that is taken plainly is not the end of the text. -/
theorem kind_ne_of_isPlain (hk : c.kind.IsPlain) : c.kind ≠ .endOfText :=
  (Cursor.Takes.plain hk).kind_ne.1

end

section

variable {k : TokenKind} {K : Set Nat}

/-- Going over a token that is not the end. -/
theorem runs_advance (hk : k.IsPlain) :
    A.Runs .whole k K HasPlaces.ends Parse.advance Parse.advance where
  goes c r d hc hkind hrun := by
    have hend := kind_ne_of_isPlain (hkind ▸ hk)
    cases hrun
    refine ⟨.next (.refl _), fun _ _ => ⟨fun _ => ?_, nofun⟩⟩
    exact Nat.lt_of_le_of_lt hc.lastStop_le (hc.tilesIn.start_lt hend)
  succeeds {s c c' d a} hc hc' hkind hat hs _ hrun hlast _ := by
    have hend := kind_ne_of_isPlain (hkind ▸ hk)
    cases hrun
    obtain rfl := hs rfl
    obtain ⟨t, harrives, -⟩ := arrives_next (m := .whole) (by simp) hc hc'
      (hat.of_eq rfl) hend hlast
    exact ⟨(), c'.next, t, rfl, rfl, harrives⟩
  fails _ _ _ _ _ _ hrun _ := by cases hrun

/-- Both runs fail where both begin. -/
theorem runs_fail {α : Type} [HasPlaces α] {E : α → Set Nat}
    (fault : SyntaxFault) :
    A.Runs .whole k K E (Parse.fail fault) (Parse.fail fault) where
  goes c r d _ _ hrun := by
    cases hrun
    exact ⟨.refl _, nofun⟩
  succeeds _ _ _ _ _ _ hrun _ _ := by cases hrun
  fails {c c' d e} _ _ _ _ hat _ hrun _ := by
    cases hrun
    exact ⟨_, c', rfl, fault_error hat fault⟩

/-- An error that names a place of its own is the same fault at either. -/
theorem runs_failAt {α : Type} [HasPlaces α] {E : α → Set Nat}
    (offset offset' : Nat) (fault : SyntaxFault) :
    A.Runs .whole k K E (Parse.failAt offset fault)
      (Parse.failAt offset' fault) where
  goes c r d _ _ hrun := by
    cases hrun
    exact ⟨.refl _, nofun⟩
  succeeds _ _ _ _ _ _ hrun _ _ := by cases hrun
  fails {c c' d e} _ _ _ _ _ _ hrun _ := by
    cases hrun
    exact ⟨_, c', rfl, rfl⟩

/-- A node is made without moving. -/
theorem runs_finish {E : Tree → Set Nat} {start start' : Nat}
    {form form' : Form (Option Tree)} (hstart : Same left right start start')
    (hform : Same left right form form')
    (hE : ∀ stop, E (.node start stop none form) ⊆ K) :
    A.Runs .ahead k K E (Parse.finish start form)
      (Parse.finish start' form') where
  goes c r d _ _ hrun := by
    cases hrun
    refine ⟨.refl _, fun a ha => ⟨nofun, fun y hy => .inl ?_⟩⟩
    cases ha
    exact hE _ hy
  succeeds {s c c' d a} _ _ _ hat _ hK hrun _ _ := by
    cases hrun
    exact ⟨_, c', s, rfl, hstart.node hform, {
      at_end := hat
      le := Nat.le_refl _
      found_lt := fun y hy => hK y (hE _ hy)
      fixed := nofun
      reaches := .refl _
      moved := .inl ⟨rfl, rfl⟩ }⟩
  fails _ _ _ _ _ _ hrun _ := by cases hrun

end

-- ============================================================ literals

/-- A slash that is read again is a literal, so not the end of the text. -/
theorem kind_asRegex_ne {c : Cursor}
    (h : c.kind = Punctuator.slash ∨ c.kind = Punctuator.slashEquals) :
    c.asRegex.kind ≠ .endOfText := by
  simp [show c.asRegex.kind = .regex from Lexeme.kind_asRegex h]

/-- What a literal is made of. -/
def literalForm (token : Token) : Form (Option Tree) :=
  match token.kind with
  | .string => .string token.value
  | .number => .number token.value
  | _ => .regex token.value

/-- No statement ends in a literal. -/
theorem ends_literalForm (token : Token) {K : Set Nat} :
    HasPlaces.ends (literalForm token) ⊆ K
      ∧ (literalForm token).isEnded = false := by
  unfold literalForm
  split <;> exact ⟨ends_of_slots rfl, rfl⟩

/-- Tokens that are alike make the same literal. -/
theorem same_literalForm {t t' : Token} (h : t.Alike t') :
    Same left right (literalForm t) (literalForm t') := by
  unfold literalForm
  rw [h.kind_eq, h.value_eq]
  split <;> rfl

/-- A literal that is closed is consumed. -/
theorem run_literal (c : Cursor) :
    Parse.literal.run.run c
      = if c.token.isOpen then (.error (c.error .expectedExpression), c)
        else (.ok (.node c.token.start (max c.next.lastStop c.token.start)
          none (literalForm c.token)), c.next) := by
  have hlook : Parse.literal.run.run c
      = (if c.token.isOpen then Parse.fail .expectedExpression
        else Parse.advance >>= fun _ =>
          Parse.finish c.token.start (literalForm c.token)).run.run c := rfl
  rw [hlook]
  split <;> rfl

section

variable {k : TokenKind} {K : Set Nat} {c c' d : Cursor} {m : Mode}

/-- Two literals that are the same. -/
theorem arrives_literal {a : Tree} (hc : c.Reached text)
    (hc' : c'.Reached text') (hat : A.Aligned c c')
    (hend : c.kind ≠ .endOfText)
    (hrun : Parse.literal.run.run c = (.ok a, d)) (hlast : d.Reaches A.last) :
    ∃ a' d' t, Parse.literal.run.run c' = (.ok a', d')
      ∧ Same left right a a'
      ∧ A.Arrives .whole (c.lastStop + 1) t (HasPlaces.ends a) c c' d d' := by
  obtain ⟨halike, hstart⟩ := same_token.1 (A.token_same hat)
  rw [run_literal] at hrun
  split at hrun
  · cases hrun
  rename_i hopen
  cases hrun
  obtain ⟨t, harrives, -⟩ := arrives_next (m := .whole) (by simp) hc hc' hat
    hend hlast
  refine ⟨_, _, t, (run_literal c').trans (if_neg ?_),
    Same.node hstart (same_literalForm halike),
    { harrives with found_lt := fun y hy => ?_ }⟩
  · rwa [← halike.isOpen_eq]
  · obtain ⟨hends, hended⟩ := ends_literalForm c.token (K := ∅)
    rw [ends_node hended] at hy
    exact absurd (hends hy) (Set.notMem_empty y)

/-- A literal is one token, and no statement ends in it. -/
theorem goes_literal {r : Except SyntaxError Tree} (hc : c.Reached text)
    (hend : c.kind ≠ .endOfText)
    (hrun : Parse.literal.run.run c = (r, d)) :
    c.Reaches d ∧ ∀ a, r = .ok a →
      c.lastStop < d.lastStop ∧ HasPlaces.ends a = ∅ := by
  rw [run_literal] at hrun
  split at hrun
  · cases hrun
    exact ⟨.refl _, nofun⟩
  · cases hrun
    refine ⟨.next (.refl _), fun a ha => ?_⟩
    cases ha
    obtain ⟨hends, hended⟩ := ends_literalForm c.token (K := ∅)
    rw [ends_node hended]
    exact ⟨Nat.lt_of_le_of_lt hc.lastStop_le (hc.tilesIn.start_lt hend),
      Set.subset_empty_iff.1 hends⟩

/-- A literal that is open in the first text is open in the second. -/
theorem fails_literal {e : SyntaxError} (hat : A.Aligned c c')
    (hrun : Parse.literal.run.run c = (.error e, d)) :
    ∃ e' d', Parse.literal.run.run c' = (.error e', d')
      ∧ e'.fault = e.fault := by
  obtain ⟨halike, -⟩ := same_token.1 (A.token_same hat)
  rw [run_literal] at hrun ⊢
  rw [← halike.isOpen_eq]
  split at hrun
  · rename_i hopen
    cases hrun
    rw [if_pos hopen]
    exact ⟨_, _, rfl, fault_error hat _⟩
  · cases hrun

/-- Strings and numbers are literals as they stand. -/
theorem runs_literal (hk : k = .string ∨ k = .number) :
    A.Runs .whole k K HasPlaces.ends Parse.literal Parse.literal where
  goes c r d hc hkind hrun := by
    have hend : c.kind ≠ .endOfText := by
      rw [hkind]
      rcases hk with rfl | rfl <;> simp
    obtain ⟨hreach, hfound⟩ := goes_literal hc hend hrun
    refine ⟨hreach, fun a ha => ⟨fun _ => (hfound a ha).1, fun y hy => ?_⟩⟩
    rw [(hfound a ha).2] at hy
    exact absurd hy (Set.notMem_empty y)
  succeeds {s c c' d a} hc hc' hkind hat hs hK hrun hlast _ := by
    have hend : c.kind ≠ .endOfText := by
      rw [hkind]
      rcases hk with rfl | rfl <;> simp
    obtain rfl := hs rfl
    exact arrives_literal hc hc' (hat.of_eq rfl) hend hrun hlast
  fails _ _ _ _ hat _ hrun _ := fails_literal hat hrun

/-- A regular expression is read again in both texts. -/
theorem runs_regex
    (hk : k = Punctuator.slash ∨ k = Punctuator.slashEquals) :
    A.Runs .whole k K HasPlaces.ends (enterRegex >>= fun _ => Parse.literal)
      (enterRegex >>= fun _ => Parse.literal) where
  goes c r d hc hkind hrun := by
    obtain ⟨hreach, hfound⟩ := goes_literal hc.asRegex
      (kind_asRegex_ne (hkind ▸ hk)) hrun
    refine ⟨.asRegex hreach,
      fun a ha => ⟨fun _ => (hfound a ha).1, fun y hy => ?_⟩⟩
    rw [(hfound a ha).2] at hy
    exact absurd hy (Set.notMem_empty y)
  succeeds {s c c' d a} hc hc' hkind hat hs hK hrun hlast _ := by
    obtain rfl := hs rfl
    have hend := kind_asRegex_ne (hkind ▸ hk)
    have hreach := (goes_literal hc.asRegex hend hrun).1
    have haligned := A.asRegex hc (hat.of_eq rfl) (hkind ▸ hk)
      (hreach.trans hlast)
    obtain ⟨a', d', t, hrun', hsame, harrives⟩ :=
      arrives_literal hc.asRegex hc'.asRegex haligned hend hrun hlast
    exact ⟨a', d', t, hrun', hsame, { harrives with
      reaches := .asRegex harrives.reaches
      moved := by
        have hle := (Cursor.Reaches.asRegex (.refl _)).remaining_le hc
        have hle' := (Cursor.Reaches.asRegex (.refl _)).remaining_le hc'
        exact ⟨Nat.lt_of_lt_of_le harrives.moved.1 hle,
          Nat.lt_of_lt_of_le harrives.moved.2 hle'⟩ }⟩
  fails {c c' d e} _ hc _ hkind hat _ hrun hlast := by
    have hreach := (goes_literal hc.asRegex
      (kind_asRegex_ne (hkind ▸ hk)) hrun).1
    exact fails_literal (A.asRegex hc hat (hkind ▸ hk)
      (hreach.trans hlast)) hrun

end

-- ========================================================== semicolons

/-- The cursor behind a semicolon, if there is one. -/
def pastSemicolon (c : Cursor) : Cursor :=
  if c.kind = Punctuator.semicolon then c.next else c

/-- Taking a semicolon, if there is one. -/
theorem run_accept_semicolon (c : Cursor) :
    (Parse.accept Punctuator.semicolon).run.run c
      = (.ok (c.kind == Punctuator.semicolon), pastSemicolon c) := by
  have hlook : (Parse.accept Punctuator.semicolon).run.run c
      = (if (c.kind == Punctuator.semicolon) = true
        then Parse.advance >>= fun _ => pure true
        else pure false).run.run c := rfl
  rw [hlook, pastSemicolon]
  by_cases hk : c.kind = Punctuator.semicolon
  · rw [beq_iff_eq.2 hk, if_pos rfl, if_pos hk]
    rfl
  · rw [beq_eq_false_iff_ne.2 hk, if_neg Bool.false_ne_true, if_neg hk]
    rfl

/-- Ending a statement is going past a semicolon where a statement may end, and
an error elsewhere. -/
theorem run_endStatement (c : Cursor) :
    endStatement.run.run c
      = if mayEnd c then (.ok (), pastSemicolon c)
        else (.error (c.error (.expected Punctuator.semicolon)), c) := by
  rw [endStatement, run_bind, run_accept_semicolon]
  by_cases hk : c.kind = Punctuator.semicolon
  · have hend : mayEnd c = true := by simp [mayEnd, hk]
    rw [beq_iff_eq.2 hk, if_pos hend]
    rfl
  · rw [beq_eq_false_iff_ne.2 hk, pastSemicolon, if_neg hk]
    show (if mayEnd c = true then pure () else Parse.fail _).run.run c = _
    split <;> rfl

section

variable {k : TokenKind} {K : Set Nat} {s : Nat} {c c' d : Cursor}

/-- Behind the semicolon, or at the same place. -/
theorem reaches_pastSemicolon (c : Cursor) : c.Reaches (pastSemicolon c) := by
  unfold pastSemicolon
  split
  · exact .next (.refl _)
  · exact .refl _

/-- Wherever two runs are, behind a semicolon that may be missing they are
at the same token. -/
theorem arrives_pastSemicolon {E : Set Nat} (hc : c.Reached text)
    (hat : A.At s c c') (hlast : (pastSemicolon c).Reaches A.last)
    (hE : ∀ y ∈ E, y ≤ (pastSemicolon c).lastStop) :
    A.Arrives .tail s ((pastSemicolon c).lastStop + 1) E c c'
      (pastSemicolon c) (pastSemicolon c') := by
  have hle := (reaches_pastSemicolon c).lastStop_le hc
  have haligned : A.Aligned (pastSemicolon c) (pastSemicolon c') := by
    unfold pastSemicolon at hlast ⊢
    cases hat with
    | aligned hat =>
        rw [← kind_eq hat]
        split
        · rename_i hk
          rw [if_pos hk] at hlast
          have hend : c.kind ≠ .endOfText := by simp [hk]
          exact (A.next hc hat hend hlast).1 (A.semicolon hc hk hlast)
        · exact hat
    | behind hbehind =>
        obtain ⟨hk', hk, -, hnext⟩ := A.behind hbehind
        rwa [if_neg hk, if_pos hk']
  exact {
    at_end := .aligned haligned
    le := hat.bounds.2.trans (Nat.succ_le_succ hle)
    found_lt := fun y hy => Nat.lt_succ_of_le (hE y hy)
    fixed := nofun
    reaches := reaches_pastSemicolon c'
    moved := trivial }

/-- Whether a statement may end where two runs are is the same in both
texts, but for where the second one has a semicolon of its own. -/
theorem mayEnd_eq (hat : A.Aligned c c') : mayEnd c = mayEnd c' := by
  have hbreak := (same_token.1 (A.token_same hat)).1.afterBreak_eq
  unfold mayEnd
  rw [kind_eq hat, hbreak]

/-- Where the second text has a semicolon, a statement may end there in any
case. -/
theorem mayEnd_of_at (hat : A.At s c c') (h : mayEnd c = true) :
    mayEnd c' = true := by
  cases hat with
  | aligned hat => exact mayEnd_eq hat ▸ h
  | behind hbehind => simp [mayEnd, (A.behind hbehind).1]

/-- A parser that ends a statement: it succeeds where `may` says so, goes
past a semicolon and makes a node that ends in front of it or with it. -/
def Closes (may : Cursor → Bool) (start : Nat) (form : Form (Option Tree))
    (doc : Option String) (p : Parse Tree) : Prop :=
  ∀ c, (may c = true ∧ ∃ stop,
      (stop = c.lastStop ∨ stop = (pastSemicolon c).lastStop)
        ∧ p.run.run c = (.ok ((Tree.node start (max stop start) none
            form).withDoc doc), pastSemicolon c))
    ∨ may c = false
      ∧ p.run.run c = (.error (c.error (.expected Punctuator.semicolon)), c)

/-- Two parsers that end a statement run alike, and are at the same token
behind it. Here the semicolons of the second text are consumed: whether it
has one decides only where the node ends, and that is no part of what is the
same. -/
theorem runs_closes {may : Cursor → Bool} {start start' : Nat}
    {form form' : Form (Option Tree)} {doc : Option String}
    {p p' : Parse Tree} (hp : Closes may start form doc p)
    (hp' : Closes may start' form' doc p')
    (hmay : ∀ {s c c'}, A.At s c c' → may c = true → may c' = true)
    (hmay' : ∀ {c c'}, A.Aligned c c' → may c = may c')
    (hstart : Same left right start start')
    (hform : Same left right form form') (hK : HasPlaces.ends form ⊆ K) :
    A.Runs .tail k K HasPlaces.ends p p' where
  goes c r d hc _ hrun := by
    rcases hp c with ⟨-, stop, hstop, hok⟩ | ⟨-, herror⟩
    · rw [hok] at hrun
      cases hrun
      have hreach := reaches_pastSemicolon c
      have hle := hreach.lastStop_le hc
      refine ⟨hreach, fun a ha => ⟨nofun, fun y hy => ?_⟩⟩
      cases ha
      rw [ends_withDoc] at hy
      rcases HasPlaces.of_mem_ends hy with hy | ⟨-, rfl⟩
      · exact .inl (hK hy)
      · right
        rcases hstop with rfl | rfl
        · exact ⟨Nat.le_refl _, hle⟩
        · exact ⟨hle, Nat.le_refl _⟩
    · rw [herror] at hrun
      cases hrun
      exact ⟨.refl _, nofun⟩
  succeeds {s c c' d a} hc hc' _ hat _ hknown hrun hlast _ := by
    rcases hp c with ⟨hcan, stop, hstop, hok⟩ | ⟨-, herror⟩
    · rw [hok] at hrun
      cases hrun
      have hle := (reaches_pastSemicolon c).lastStop_le hc
      -- whether it may be closed here is the same question on both sides
      rcases hp' c' with ⟨-, stop', -, hok'⟩ | ⟨hcannot, -⟩
      · refine ⟨_, _, _, hok', (hstart.node hform).withDoc doc,
          arrives_pastSemicolon hc hat hlast fun y hy => ?_⟩
        rw [ends_withDoc] at hy
        rcases HasPlaces.of_mem_ends hy with hy | ⟨-, rfl⟩
        · have hlt := hknown y (hK hy)
          have hbound := hat.bounds.2
          omega
        · rcases hstop with rfl | rfl
          · exact hle
          · exact Nat.le_refl _
      · rw [hmay hat hcan] at hcannot
        cases hcannot
    · rw [herror] at hrun
      cases hrun
  fails {c c' d e} _ _ _ _ hat _ hrun _ := by
    rcases hp c with ⟨-, stop, -, hok⟩ | ⟨hcannot, herror⟩
    · rw [hok] at hrun
      cases hrun
    · rw [herror] at hrun
      cases hrun
      rcases hp' c' with ⟨hcan, -⟩ | ⟨-, herror'⟩
      · rw [← hmay' hat, hcannot] at hcan
        cases hcan
      · exact ⟨_, _, herror', fault_error hat _⟩

/-- Most statements are made when their semicolon has been consumed. -/
theorem closes_endStatement_finish (start : Nat)
    (form : Form (Option Tree)) :
    Closes mayEnd start form none
      (endStatement >>= fun _ => Parse.finish start form) := by
  intro c
  rw [run_bind, run_endStatement]
  cases hcan : mayEnd c with
  | true => exact .inl ⟨rfl, _, .inr rfl, rfl⟩
  | false => exact .inr ⟨rfl, rfl⟩

/-- Those that are documented are made before, and end in front of it. -/
theorem closes_finish_endStatement (start : Nat)
    (form : Form (Option Tree)) (doc : Option String) :
    Closes mayEnd start form doc
      (Parse.finish start form >>= fun tree =>
        endStatement >>= fun _ => pure (tree.withDoc doc)) := by
  intro c
  have hfinish : (Parse.finish start form >>= fun tree =>
        endStatement >>= fun _ => pure (tree.withDoc doc)).run.run c
      = (endStatement >>= fun _ => pure ((Tree.node start
          (max c.lastStop start) none form).withDoc doc)).run.run c := rfl
  rw [hfinish, run_bind, run_endStatement]
  cases hcan : mayEnd c with
  | true => exact .inl ⟨rfl, _, .inl rfl, rfl⟩
  | false => exact .inr ⟨rfl, rfl⟩

/-- Behind a loop with its condition at the end the semicolon may always be
missing. -/
theorem closes_accept_finish (start : Nat) (form : Form (Option Tree)) :
    Closes (fun _ => true) start form none
      (Parse.accept Punctuator.semicolon >>= fun _ =>
        Parse.finish start form) := by
  intro c
  rw [run_bind, run_accept_semicolon]
  exact .inl ⟨rfl, _, .inr rfl, rfl⟩

/-- A semicolon alone. -/
theorem runs_lone :
    A.Runs .whole Punctuator.semicolon K HasPlaces.ends (atom .empty)
      (atom .empty) where
  goes c r d hc hk hrun := by
    have hend : c.kind ≠ .endOfText := by simp [hk]
    have hlt := Nat.lt_of_le_of_lt hc.lastStop_le (hc.tilesIn.start_lt hend)
    cases hrun
    refine ⟨.next (.refl _), fun a ha => ⟨fun _ => hlt, fun y hy => ?_⟩⟩
    cases ha
    rcases HasPlaces.of_mem_ends hy with hy | ⟨-, rfl⟩
    · exact .inl (ends_of_slots rfl hy)
    · exact .inr ⟨hlt, Nat.le_refl _⟩
  succeeds {s c c' d a} hc hc' hk hat hs _ hrun hlast _ := by
    have hend : c.kind ≠ .endOfText := by simp [hk]
    cases hrun
    obtain rfl := hs rfl
    have haligned := hat.of_eq rfl
    obtain ⟨t, harrives, ht⟩ := arrives_next (m := .whole) (by simp) hc hc'
      haligned hend hlast
    obtain rfl := ht (A.semicolon hc hk hlast)
    have hstart := (same_token.1 (A.token_same haligned)).2
    refine ⟨_, _, _, rfl, Same.node hstart rfl,
      { harrives with found_lt := fun y hy => ?_ }⟩
    rcases HasPlaces.of_mem_ends hy with hy | ⟨-, rfl⟩
    · exact absurd (ends_of_slots rfl hy) (Set.notMem_empty y)
    · exact Nat.lt_succ_self _
  fails _ _ _ _ _ _ hrun _ := by cases hrun

end

-- =============================================================== loops

section

open HasPlaces

variable {σ : Type} [HasPlaces σ] {m : Mode} {k : TokenKind} {K : Set Nat}
  {step step' : σ → Parse (Option σ)}

/-- The ends that a loop finds are in its state at the beginning, or lie where
it has been. -/
theorem goes_iterate (hm : m = .ahead ∨ m = .inner)
    (hstep : ∀ state k, Parse.Goes text m k (ends state) ends (step state))
    {state : σ} {c e : Cursor} {r : Except SyntaxError σ}
    (hc : c.Reached text) (hrun : Parse.iterate step state c = (r, e)) :
    c.Reaches e ∧ ∀ a, r = .ok a → ∀ y ∈ ends a,
      y ∈ ends state ∨ c.lastStop < y ∧ y ≤ e.lastStop := by
  have hfirst (stop : Nat) : m.first stop = stop + 1 := by
    rcases hm with rfl | rfl <;> rfl
  -- on what is left of the text, which every step that goes on makes less
  induction hn : c.remaining using Nat.strongRecOn generalizing state c with
  | _ n ih =>
      rcases iterate_cases hrun with ⟨fault, hstop, rfl⟩ | ⟨hstop, rfl⟩
          | ⟨state', d, hmore, hrest⟩
      · exact ⟨(hstep state _ c _ e hc rfl hstop).1, nofun⟩
      · refine ⟨(hstep state _ c _ e hc rfl hstop).1, fun a ha y hy => ?_⟩
        cases ha
        exact .inl hy
      · obtain ⟨hreach, hfound⟩ := hstep state _ c _ d hc rfl hmore
        have hfound (y : Nat) (hy : y ∈ ends state') :
            y ∈ ends state ∨ c.lastStop < y ∧ y ≤ d.lastStop := by
          have hy := (hfound _ rfl).2 y (by rwa [ends_some])
          rwa [hfirst] at hy
        rcases hrest with ⟨hlt, hrest⟩ | ⟨-, rfl, rfl⟩
        · have hd := hreach.reached hc
          obtain ⟨hreach', hfound'⟩ := ih _ (hn ▸ hlt) hd hrest rfl
          have hle := hreach.lastStop_le hc
          have hle' := hreach'.lastStop_le hd
          refine ⟨hreach.trans hreach', fun a ha y hy => ?_⟩
          rcases hfound' a ha y hy with hy | hy
          · exact (hfound y hy).imp_right fun hy => ⟨hy.1, by omega⟩
          · exact .inr ⟨by omega, hy.2⟩
        · refine ⟨hreach, fun a ha y hy => ?_⟩
          cases ha
          exact hfound y hy

/-- A loop in the second text that takes the steps of the one in the
first. -/
theorem arrives_iterate (hm : m = .ahead ∨ m = .inner)
    (hstep : ∀ s s', Same left right s s' →
      ∀ k, A.Runs m k (ends s) ends (step s) (step' s'))
    {state state' a : σ} {s : Nat} {c c' e : Cursor}
    (hsame : Same left right state state') (hc : c.Reached text)
    (hc' : c'.Reached text') (hat : A.At s c c')
    (hs : m.isFixed → s = c.lastStop + 1) (hK : ∀ y ∈ ends state, y < s)
    (hrun : Parse.iterate step state c = (.ok a, e))
    (hlast : e.Reaches A.last) (hexpects : A.Expects m s e ∅ (ends a)) :
    ∃ a' e' t, Parse.iterate step' state' c' = (.ok a', e')
      ∧ Same left right a a' ∧ A.Arrives m s t (ends a) c c' e e' := by
  induction hn : c.remaining using Nat.strongRecOn
    generalizing state state' c c' s with
  | _ n ih =>
      have hgoes (state : σ) (k : TokenKind) :
          Parse.Goes text m k (ends state) ends (step state) :=
        (hstep state _ (A.same_place state) k).goes
      have hruns := hstep state state' hsame c.kind
      have hthen := Mode.Then.loop hm
      rcases iterate_cases hrun with ⟨fault, -, ha⟩ | ⟨hstop, ha⟩
          | ⟨next, d, hmore, hrest⟩
      · cases ha
      · cases ha
        obtain ⟨r', e', t, hstop', hnone, harrives⟩ := hruns.succeeds hc hc'
          rfl hat hs hK hstop hlast fun y hy hfrom hto =>
            (hexpects y hy hfrom hto).symm.imp_right False.elim
        rcases hnone.option with ⟨-, rfl⟩ | ⟨_, _, hsome, -⟩
        · refine ⟨state', e', t, ?_, hsame, { harrives with
            found_lt := fun y hy => Nat.lt_of_lt_of_le (hK y hy)
              harrives.le }⟩
          rw [iterate, hstop']
        · cases hsome
      · obtain ⟨hreach, -⟩ := hgoes state _ c _ d hc rfl hmore
        have hd := hreach.reached hc
        -- behind the step the loop only finds what lies behind
        have hrest' : d.Reaches e ∧ ∀ y ∈ ends a,
            y ∈ ∅ ∪ ends (some next) ∨ m.first d.lastStop ≤ y := by
          rw [Set.empty_union, ends_some]
          rcases hrest with ⟨-, hrest⟩ | ⟨-, ha, rfl⟩
          · obtain ⟨hreach', hfound'⟩ := goes_iterate hm hgoes hd hrest
            refine ⟨hreach', fun y hy => ?_⟩
            refine (hfound' a rfl y hy).imp_right fun hy => ?_
            rcases hm with rfl | rfl <;> exact hy.1
          · cases ha
            exact ⟨.refl _, fun y hy => .inl hy⟩
        have hwhole : m ≠ .whole := by rcases hm with rfl | rfl <;> simp
        have hfirst : A.Expects m s d ∅ (ends (some next)) :=
          Expects.before hthen hexpects (hrest'.1.lastStop_le hd)
            (fun hm => absurd hm hwhole) hrest'.2
        obtain ⟨r', d', t, hmore', hsome, harrives⟩ := hruns.succeeds hc hc'
          rfl hat hs hK hmore (hrest'.1.trans hlast) fun y hy hfrom hto =>
            .inr ((hfirst y hy hfrom hto).resolve_left id)
        rcases hsome.option with ⟨hnone, -⟩ | ⟨_, next', hnext, rfl, hsame⟩
        · cases hnone
        cases hnext
        have hfound : ∀ y ∈ ends next, y < t := fun y hy =>
          harrives.found_lt y (by rwa [ends_some])
        have hmoved := harrives.moved.inner hm
        -- both loops go on, or both have come to stand at the same step
        rcases hrest with ⟨hlt, hrest⟩ | ⟨hle, ha, rfl⟩
        · have hlt' := hmoved.lt_of_lt hlt
          have hd' := harrives.reaches.reached hc'
          obtain ⟨a', e', u, hrun', hsame', harrives'⟩ := ih _ (hn ▸ hlt)
            hsame hd hd' harrives.at_end
            (fun hfixed => harrives.fixed (hthen.isFixed_right hfixed)) hfound
            hrest (Expects.after hthen hexpects harrives.le subset_rfl) rfl
          refine ⟨a', e', u, ?_, hsame',
            harrives.trans hthen harrives' hd hd' hrest'.1⟩
          rw [iterate_some hmore', if_pos hlt', hrun']
        · cases ha
          obtain ⟨rfl, rfl⟩ := hmoved.resolve_right fun h => hle h.1
          refine ⟨next', d', t, ?_, hsame,
            { harrives with found_lt := hfound }⟩
          rw [iterate_some hmore', if_neg (Nat.lt_irrefl _)]

/-- A loop fails in the second text where it does in the first. -/
theorem fails_iterate (hm : m = .ahead ∨ m = .inner)
    (hstep : ∀ s s', Same left right s s' →
      ∀ k, A.Runs m k (ends s) ends (step s) (step' s'))
    (hpoints : A.points = ∅) {state state' : σ} {c c' d : Cursor}
    {error : SyntaxError} (hsame : Same left right state state')
    (hc : c.Reached text) (hc' : c'.Reached text') (hat : A.Aligned c c')
    (hK : ∀ y ∈ ends state, y ≤ c.lastStop)
    (hrun : Parse.iterate step state c = (.error error, d))
    (hlast : d.Reaches A.last) :
    ∃ error' d', Parse.iterate step' state' c' = (.error error', d')
      ∧ error'.fault = error.fault := by
  induction hn : c.remaining using Nat.strongRecOn
    generalizing state state' c c' with
  | _ n ih =>
      have hgoes (state : σ) (k : TokenKind) :
          Parse.Goes text m k (ends state) ends (step state) :=
        (hstep state _ (A.same_place state) k).goes
      have hruns := hstep state state' hsame c.kind
      -- the loop fails in this step, or in the rest behind it, which is
      -- shorter
      rcases iterate_cases hrun with ⟨fault, hstop, herror⟩ | ⟨-, herror⟩
          | ⟨next, middle, hmore, ⟨hlt, hrest⟩ | ⟨-, herror, -⟩⟩
      · cases herror
        obtain ⟨error', d', hstop', hfault⟩ :=
          hruns.fails hpoints hc hc' rfl hat hK hstop hlast
        refine ⟨error', d', ?_, hfault⟩
        rw [iterate, hstop']
      · cases herror
      · obtain ⟨hreach, -⟩ := hgoes state _ c _ middle hc rfl hmore
        have hmiddle := hreach.reached hc
        obtain ⟨hreach', -⟩ := goes_iterate hm hgoes hmiddle hrest
        obtain ⟨r', middle', t, hmore', hsome, harrives⟩ := hruns.succeeds hc
          hc' rfl (.aligned hat) (fun _ => rfl)
          (fun y hy => Nat.lt_succ_of_le (hK y hy)) hmore
          (hreach'.trans hlast)
          (fun y hy => absurd (hpoints ▸ hy) (Set.notMem_empty y))
        rcases hsome.option with ⟨hnone, -⟩ | ⟨_, next', hnext, rfl, hsame⟩
        · cases hnone
        cases hnext
        obtain ⟨hat', rfl⟩ := harrives.at_end.of_points hpoints
        have hlt' := (harrives.moved.inner hm).lt_of_lt hlt
        obtain ⟨error', d', hrun', hfault⟩ := ih _ (hn ▸ hlt) hsame hmiddle
          (harrives.reaches.reached hc') hat'
          (fun y hy => Nat.le_of_lt_succ
            (harrives.found_lt y (by rwa [ends_some]))) hrest rfl
        refine ⟨error', d', ?_, hfault⟩
        rw [iterate_some hmore', if_pos hlt', hrun']
      · cases herror

/-- Loops whose steps run alike run alike. -/
theorem Runs.iterate (hm : m = .ahead ∨ m = .inner)
    (hstep : ∀ s s', Same left right s s' →
      ∀ k, A.Runs m k (ends s) ends (step s) (step' s'))
    {state state' : σ} (hsame : Same left right state state')
    (hK : ends state ⊆ K) :
    A.Runs m k K ends (Parse.iterate step state)
      (Parse.iterate step' state') where
  goes c r d hc _ hrun := by
    have hfirst : m.first c.lastStop = c.lastStop + 1 := by
      rcases hm with rfl | rfl <;> rfl
    obtain ⟨hreach, hfound⟩ := goes_iterate hm
      (fun state k => (hstep state _ (A.same_place state) k).goes) hc hrun
    refine ⟨hreach, fun a ha => ⟨?_, fun y hy => ?_⟩⟩
    · rcases hm with rfl | rfl <;> nofun
    · rw [hfirst]
      exact (hfound a ha y hy).imp_left fun hy => hK hy
  succeeds {s c c' d a} hc hc' _ hat hs hknown hrun hlast hexpects := by
    refine arrives_iterate hm hstep hsame hc hc' hat hs
      (fun y hy => hknown y (hK hy)) hrun hlast fun y hy hfrom hto => ?_
    refine .inr ((hexpects y hy hfrom hto).resolve_left fun hy => ?_)
    exact absurd (hknown y hy) (Nat.not_lt.2 hfrom)
  fails hpoints hc hc' _ hat hknown hrun hlast :=
    fails_iterate hm hstep hpoints hsame hc hc' hat
      (fun y hy => hknown y (hK hy)) hrun hlast

end

-- ============================================================ coupling

/-- Parsers with the same steps run alike on two texts that are aligned. -/
def coupling (A : Alignment left right text text') : Coupling left right where
  Runs := A.Runs
  start_eq := A.start_eq
  ahead := Runs.ahead
  tail := Runs.tail
  inner := Runs.inner
  ret := runs_pure
  bind_whole := Runs.bind .whole_tail
  bind_ahead hm := by
    rcases hm with rfl | rfl
    · exact Runs.bind .ahead
    · exact Runs.bind .ahead_tail
  bind_inner hm := by
    rcases hm with rfl | rfl
    · exact Runs.bind .inner
    · exact Runs.bind .inner_whole
  look h _ _ hm hf := Runs.look h hm hf
  look_ahead h _ _ hm hf hstop := Runs.look_ahead h hm hf hstop
  advance := runs_advance
  literal := runs_literal
  regex := runs_regex
  fail fault _ := runs_fail fault
  failAt offset offset' fault _ := runs_failAt offset offset' fault
  finish := runs_finish
  endStatement_finish hstart hform hK :=
    runs_closes (closes_endStatement_finish _ _)
      (closes_endStatement_finish _ _) mayEnd_of_at mayEnd_eq hstart hform hK
  finish_endStatement doc hstart hform hK :=
    runs_closes (closes_finish_endStatement _ _ doc)
      (closes_finish_endStatement _ _ doc) mayEnd_of_at mayEnd_eq hstart
      hform hK
  accept_finish hstart hform _ hK :=
    runs_closes (closes_accept_finish _ _) (closes_accept_finish _ _)
      (fun _ => id) (fun _ => rfl) hstart hform hK
  lone := runs_lone
  iterate hm hstep hsame hK := Runs.iterate hm hstep hsame hK

-- ============================================================ programs

/-- The parser for programs has the same steps on both texts. -/
theorem runs_program (A : Alignment left right text text') :
    A.Runs .inner (Cursor.kind { lexeme := Lexeme.first text }) ∅
      HasPlaces.ends (Grammar.levels Grammar.maxDepth).program
      (Grammar.levels Grammar.maxDepth).program :=
  A.coupling.program (Coupling.handles_levels Grammar.maxDepth)

/-- A program is read in the second text where the semicolons in it are
ends of statements. -/
theorem read_ok {tree : Tree} (h : Tree.read text = (.ok tree, A.last))
    (hpoints : ∀ y ∈ A.points, y ∈ tree.ends) :
    ∃ tree' last', Tree.read text' = (.ok tree', last')
      ∧ Same left right tree tree' := by
  obtain ⟨tree', last', t, hrun, hsame, -⟩ := A.runs_program.succeeds
    .first .first rfl (.aligned A.first) (fun _ => rfl)
    (fun _ => False.elim) h (.refl _) fun y hy _ _ => .inr (hpoints y hy)
  exact ⟨tree', last', hrun, hsame⟩

/-- A text that is no program fails in the same way as the other one. -/
theorem read_error {e : SyntaxError} (hpoints : A.points = ∅)
    (h : Tree.read text = (.error e, A.last)) :
    ∃ e' last', Tree.read text' = (.error e', last')
      ∧ e'.fault = e.fault :=
  A.runs_program.fails hpoints .first .first rfl A.first
    (fun _ => False.elim) h (.refl _)

/-- A text is aligned with itself. -/
def refl (text : String) : Alignment id id text text where
  last := (Tree.read text).2
  points := ∅
  Aligned c c' := c = c'
  Behind _ _ := False
  place := id
  place_eq := rfl
  start_eq := rfl
  first := rfl
  token_same h := h ▸ rfl
  next _ h _ _ := ⟨fun _ => h ▸ rfl, False.elim⟩
  asRegex _ h _ _ := h ▸ rfl
  behind := False.elim
  semicolon _ _ _ := id

end Alignment

/-- Where the reading of a text ends, whether it is a program or not. -/
theorem Tree.reached_read (text : String) :
    (Tree.read text).2.Reached text :=
  (((Alignment.refl text).runs_program.goes _ _ _ .first rfl rfl).1).reached
    .first

end ScriptLint
