/-
Parsers on two texts, step by step. What the runs of a parser on two texts
have in common is put into rules for the steps that parsers are made of: a
coupling says when two runs do the same, and has one rule for each way to
put parsers together (`Coupling`). Whoever compares two texts gives such a
coupling and need not look at the grammar.

Results are compared as data with places in it (`HasPlaces`): two trees are
the same if they agree once each side has mapped its starts to common ones
(`Same`). The second text may have a semicolon where a statement of the
first one only ends; how the two runs stand to it is their `Mode`.

A run in one of the modes `ahead` and `tail` may come to the place where
the second text has a semicolon of its own, and the first one only a line
break, a closing brace or the end. The mode says which part of a statement
is being read, and with it whether that place is allowed to turn up: inside
a construct it is not, since a statement ends where its last part does. The
rules for sequences come in the variants that this calls for, named after
the mode of the first part (`bind_whole`, `bind_ahead`).
-/
import Mathlib.Data.Set.Basic
import ScriptLint.Parse.Statement
import ScriptLint.Proofs.Parse.Trace
import ScriptLint.Proofs.Syntax.Ends
import ScriptLint.Proofs.Syntax.Places

namespace ScriptLint

open Parse

-- ============================================================== places

/-- Data with places of a text in it: starts, which a function may change
while all else that is a place is forgotten, and ends of statements. -/
class HasPlaces (α : Type) where
  mapPlaces : (Nat → Nat) → α → α
  mapPlaces_mapPlaces : ∀ (f g : Nat → Nat) (a : α),
    mapPlaces g (mapPlaces f a) = mapPlaces (g ∘ f) a
  ends : α → Set Nat

namespace HasPlaces

/-- Data without places. -/
abbrev placeless (α : Type) : HasPlaces α where
  mapPlaces _ a := a
  mapPlaces_mapPlaces _ _ _ := rfl
  ends _ := ∅

instance : HasPlaces Unit := placeless Unit

instance : HasPlaces Bool := placeless Bool

instance : HasPlaces TokenKind := placeless TokenKind

/-- A number is the start of something. -/
instance : HasPlaces Nat where
  mapPlaces f n := f n
  mapPlaces_mapPlaces _ _ _ := rfl
  ends _ := ∅

instance : HasPlaces Token where
  mapPlaces f token :=
    { token with
      fullStart := 0
      start := f token.start
      stop := 0
      openComment := token.openComment.map fun _ => 0 }
  mapPlaces_mapPlaces f g token := by simp [Function.comp_def]
  ends _ := ∅

instance : HasPlaces Tree where
  mapPlaces := Tree.mapPlaces
  mapPlaces_mapPlaces := Tree.mapPlaces_mapPlaces
  ends tree := {y | y ∈ tree.ends}

variable {α β : Type} [HasPlaces α] [HasPlaces β]

instance : HasPlaces (Option α) where
  mapPlaces f := Option.map (mapPlaces f)
  mapPlaces_mapPlaces f g a := by
    cases a <;> simp [mapPlaces_mapPlaces]
  ends a := {y | ∃ b ∈ a, y ∈ ends b}

instance : HasPlaces (List α) where
  mapPlaces f := List.map (mapPlaces f)
  mapPlaces_mapPlaces f g as := by simp [mapPlaces_mapPlaces]
  ends as := {y | ∃ a ∈ as, y ∈ ends a}

instance : HasPlaces (α × β) where
  mapPlaces f := Prod.map (mapPlaces f) (mapPlaces f)
  mapPlaces_mapPlaces f g a :=
    Prod.ext (mapPlaces_mapPlaces f g a.1) (mapPlaces_mapPlaces f g a.2)
  ends a := ends a.1 ∪ ends a.2

instance : HasPlaces (Form (Option Tree)) where
  mapPlaces f := Form.map (mapPlaces f)
  mapPlaces_mapPlaces f g form := by
    rw [Form.map_map]
    exact Form.map_congr fun slot _ => mapPlaces_mapPlaces f g slot
  ends form :=
    {y | ∃ child, some child ∈ form.heads ∧ y ∈ child.innerEnds}
      ∪ ends form.bodies

end HasPlaces

/-- Tokens that differ in their places at most. -/
structure Token.Alike (a b : Token) : Prop where
  kind_eq : a.kind = b.kind
  value_eq : a.value = b.value
  afterBreak_eq : a.afterBreak = b.afterBreak
  doc_eq : a.doc = b.doc
  isOpen_eq : a.isOpen = b.isOpen
  openComment_eq : a.openComment.isSome = b.openComment.isSome

instance : DecidableRel Token.Alike := fun a b =>
  decidable_of_iff (a.kind = b.kind ∧ a.value = b.value
      ∧ a.afterBreak = b.afterBreak ∧ a.doc = b.doc ∧ a.isOpen = b.isOpen
      ∧ a.openComment.isSome = b.openComment.isSome)
    ⟨fun ⟨h₁, h₂, h₃, h₄, h₅, h₆⟩ => ⟨h₁, h₂, h₃, h₄, h₅, h₆⟩,
      fun ⟨h₁, h₂, h₃, h₄, h₅, h₆⟩ => ⟨h₁, h₂, h₃, h₄, h₅, h₆⟩⟩

/-- Whether something can be assigned to is a matter of forms. -/
theorem isTarget_mapPlaces (f : Nat → Nat) (tree : Tree) :
    isTarget (tree.mapPlaces f) = isTarget tree := by
  induction tree using Tree.induct with
  | node start stop doc form ih =>
      rw [Tree.mapPlaces_node]
      cases form with
      | paren inner =>
          cases inner with
          | none => rfl
          | some inner =>
              simp only [Form.map, Option.map_some, isTarget]
              exact ih inner (Form.mem_children.2 (by simp [Form.slots]))
      | _ => rfl

/-- Whether a declaration has several variables does not depend on places. -/
theorem declaresMany_mapPlaces (f : Nat → Nat) (tree : Tree) :
    Grammar.declaresMany (tree.mapPlaces f) = Grammar.declaresMany tree := by
  obtain ⟨start, stop, doc, form⟩ := tree
  rw [Tree.mapPlaces_node]
  cases form <;> simp [Form.map, Grammar.declaresMany]

/-- Data about two texts that is the same, once the functions have been
applied to the starts. -/
def Same (left right : Nat → Nat) {α : Type} [HasPlaces α] (a b : α) :
    Prop :=
  HasPlaces.mapPlaces left a = HasPlaces.mapPlaces right b

section

open HasPlaces

variable {left right : Nat → Nat} {α β : Type} [HasPlaces α] [HasPlaces β]

@[simp] theorem same_unit (a b : Unit) : Same left right a b := rfl

@[simp] theorem same_bool {a b : Bool} : Same left right a b ↔ a = b :=
  Iff.rfl

@[simp] theorem same_kind {a b : TokenKind} : Same left right a b ↔ a = b :=
  Iff.rfl

@[simp] theorem same_none : Same left right (none : Option α) none := rfl

@[simp] theorem same_some {a b : α} :
    Same left right (some a) (some b) ↔ Same left right a b := by
  simp [Same, mapPlaces]

@[simp] theorem same_nil : Same left right ([] : List α) [] := rfl

@[simp] theorem same_cons {a b : α} {as bs : List α} :
    Same left right (a :: as) (b :: bs)
      ↔ Same left right a b ∧ Same left right as bs := by
  simp [Same, mapPlaces]

@[simp] theorem same_pair {a a' : α} {b b' : β} :
    Same left right (a, b) (a', b')
      ↔ Same left right a a' ∧ Same left right b b' := by
  simp [Same, mapPlaces]

/-- What agrees item by item does so from the back. -/
theorem Same.reverse {as bs : List α} (h : Same left right as bs) :
    Same left right as.reverse bs.reverse := by
  simp only [Same, mapPlaces, List.map_reverse] at h ⊢
  rw [h]

/-- Items that are there agree as contents of slots. -/
theorem Same.map_some {as bs : List α} (h : Same left right as bs) :
    Same left right (as.map some) (bs.map some) := by
  have h := congrArg (List.map some) h
  simpa [Same, mapPlaces, Function.comp_def] using h

/-- Tokens agree if they are alike and their starts correspond. -/
theorem same_token {t t' : Token} :
    Same left right t t' ↔ t.Alike t' ∧ left t.start = right t'.start := by
  obtain ⟨_, _, _, _, _, _, _, _, openComment⟩ := t
  obtain ⟨_, _, _, _, _, _, _, _, openComment'⟩ := t'
  constructor
  · intro h
    simp only [Same, mapPlaces, Token.mk.injEq] at h
    obtain ⟨hkind, hvalue, -, hstart, -, hbreak, hdoc, hopen, hcomment⟩ := h
    refine ⟨⟨hkind, hvalue, hbreak, hdoc, hopen, ?_⟩, hstart⟩
    simpa using congrArg Option.isSome hcomment
  · rintro ⟨⟨hkind, hvalue, hbreak, hdoc, hopen, hcomment⟩, hstart⟩
    simp only [Same, mapPlaces, Token.mk.injEq]
    refine ⟨hkind, hvalue, trivial, hstart, trivial, hbreak, hdoc, hopen,
      ?_⟩
    cases openComment <;> cases openComment' <;> simp_all

/-- Trees that agree are the same identifier, if any. -/
theorem Same.identifier?_eq {tree tree' : Tree}
    (h : Same left right tree tree') :
    tree.identifier? = tree'.identifier? := by
  have h := congrArg Tree.identifier? h
  simpa [mapPlaces] using h

/-- Trees that agree may be given the same documentation. -/
theorem Same.withDoc {tree tree' : Tree} (h : Same left right tree tree')
    (doc : Option String) :
    Same left right (tree.withDoc doc) (tree'.withDoc doc) := by
  have h := congrArg (Tree.withDoc doc) h
  simpa [Same, mapPlaces] using h

/-- Both sides can be assigned to, or neither. -/
theorem Same.isTarget_eq {tree tree' : Tree}
    (h : Same left right tree tree') : isTarget tree = isTarget tree' := by
  have h := congrArg isTarget h
  simpa [mapPlaces, isTarget_mapPlaces] using h

/-- Both sides declare several variables, or neither does. -/
theorem Same.declaresMany_eq {tree tree' : Tree}
    (h : Same left right tree tree') :
    Grammar.declaresMany tree = Grammar.declaresMany tree' := by
  have h := congrArg Grammar.declaresMany h
  simpa [mapPlaces, declaresMany_mapPlaces] using h

/-- A slot that is filled on one side is on the other. -/
theorem Same.option {a b : Option α} (h : Same left right a b) :
    (a = none ∧ b = none)
      ∨ ∃ c d, a = some c ∧ b = some d ∧ Same left right c d := by
  cases a <;> cases b
  · exact .inl ⟨rfl, rfl⟩
  · cases h
  · cases h
  · exact .inr ⟨_, _, rfl, rfl, same_some.1 h⟩

/-- A slot is empty on both sides or on neither. -/
theorem Same.isNone_eq {a b : Option α} (h : Same left right a b) :
    a.isNone = b.isNone := by
  rcases h.option with ⟨rfl, rfl⟩ | ⟨_, _, rfl, rfl, -⟩ <;> rfl

end

-- =========================================================== couplings

/-- How the runs of two parsers on two texts may begin and end. -/
inductive Mode where
  /-- Both begin at the same token and consume it. -/
  | whole
  /-- They may also begin where only the second text has a semicolon, and
  leave it there if they consume nothing. -/
  | ahead
  /-- They begin as before, and the second run may consume that
  semicolon. -/
  | tail
  /-- Both begin at the same token and need not consume anything, but what
  follows them does. -/
  | inner

/-- A way to couple the runs of parsers on two texts: what holds of two
runs that do the same step by step (`Runs`), as rules for the steps. It is
said at which kind of token the first run begins, of which trees that are
at hand the ends are known, and which ends in the result are. -/
structure Coupling (left right : Nat → Nat) where
  /-- What holds of two runs that do the same. -/
  Runs {α : Type} [HasPlaces α] (mode : Mode) (kind : TokenKind)
    (known : Set Nat) (found : α → Set Nat) (p p' : Parse α) : Prop
  /-- Both texts begin at the same start. -/
  start_eq : left 0 = right 0
  /-- What consumes a token may also be read ahead. -/
  ahead {α : Type} [HasPlaces α] {k : TokenKind} {K : Set Nat}
    {E : α → Set Nat} {p p' : Parse α} :
    Runs .whole k K E p p' → Runs .ahead k K E p p'
  tail {α : Type} [HasPlaces α] {k : TokenKind} {K : Set Nat}
    {E : α → Set Nat} {p p' : Parse α} :
    Runs .ahead k K E p p' → Runs .tail k K E p p'
  inner {α : Type} [HasPlaces α] {k : TokenKind} {K : Set Nat}
    {E : α → Set Nat} {p p' : Parse α} :
    Runs .ahead k K E p p' → Runs .inner k K E p p'
  /-- A result may be given without consuming anything. -/
  ret {α : Type} [HasPlaces α] {k : TokenKind} {K : Set Nat}
    {E : α → Set Nat} {a a' : α} :
    Same left right a a' → E a ⊆ K → Runs .ahead k K E (pure a) (pure a')
  /-- Behind a token that is consumed, a statement may end. -/
  bind_whole {α β : Type} [HasPlaces α] [HasPlaces β] {k : TokenKind}
    {K : Set Nat} {E : α → Set Nat} {E' : β → Set Nat} {p p' : Parse α}
    {f f' : α → Parse β} :
    Runs .whole k K E p p' →
    (∀ a a', Same left right a a' →
      ∀ k, Runs .tail k (K ∪ E a) E' (f a) (f' a')) →
    Runs .whole k K E' (p >>= f) (p' >>= f')
  /-- What is read ahead may be followed by what is read in any such mode. -/
  bind_ahead {α β : Type} [HasPlaces α] [HasPlaces β] {m : Mode}
    {k : TokenKind} {K : Set Nat} {E : α → Set Nat} {E' : β → Set Nat}
    {p p' : Parse α} {f f' : α → Parse β} :
    m = .ahead ∨ m = .tail → Runs .ahead k K E p p' →
    (∀ a a', Same left right a a' →
      ∀ k, Runs m k (K ∪ E a) E' (f a) (f' a')) →
    Runs m k K E' (p >>= f) (p' >>= f')
  /-- Inside a construct, something follows that is consumed. -/
  bind_inner {α β : Type} [HasPlaces α] [HasPlaces β] {m : Mode}
    {k : TokenKind} {K : Set Nat} {E : α → Set Nat} {E' : β → Set Nat}
    {p p' : Parse α} {f f' : α → Parse β} :
    m = .inner ∨ m = .whole → Runs .inner k K E p p' →
    (∀ a a', Same left right a a' →
      ∀ k, Runs m k (K ∪ E a) E' (f a) (f' a')) →
    Runs m k K E' (p >>= f) (p' >>= f')
  /-- Where both runs are at the same token, they see alike tokens. -/
  look {α β : Type} [HasPlaces β] {m : Mode} {k : TokenKind} {K : Set Nat}
    {E : β → Set Nat} (h : Token → α) {f f' : α → Parse β} :
    m = .inner ∨ m = .whole →
    (∀ t t', Same left right t t' → t.kind = k →
      Runs m k K E (f (h t)) (f' (h t'))) →
    Runs m k K E (Parse.look (fun c => h c.token) >>= f)
      (Parse.look (fun c => h c.token) >>= f')
  /-- Where the second text may have a semicolon of its own, the two may go
  different ways, as long as the first one then consumes something. -/
  look_ahead {α β : Type} [HasPlaces β] {m : Mode} {k : TokenKind}
    {K : Set Nat} {E : β → Set Nat} (h : Token → α) {f f' : α → Parse β} :
    m = .ahead ∨ m = .tail →
    (∀ t t', Same left right t t' → t.kind = k →
      Runs m k K E (f (h t)) (f' (h t'))) →
    (∀ t t' : Token, t.kind = k → k ≠ Punctuator.semicolon →
      t'.kind = Punctuator.semicolon →
      Runs m k K E (f (h t)) (f' (h t'))
        ∨ ∃ q, Runs .whole k K E (f (h t)) q) →
    Runs m k K E (Parse.look (fun c => h c.token) >>= f)
      (Parse.look (fun c => h c.token) >>= f')
  /-- A word or a punctuator is consumed on both sides. -/
  advance {k : TokenKind} {K : Set Nat} : k.IsPlain →
    Runs .whole k K HasPlaces.ends Parse.advance Parse.advance
  /-- A literal becomes a node on both sides. -/
  literal {k : TokenKind} {K : Set Nat} : k = .string ∨ k = .number →
    Runs .whole k K HasPlaces.ends Parse.literal Parse.literal
  /-- So does a slash that is read again. -/
  regex {k : TokenKind} {K : Set Nat} :
    k = Punctuator.slash ∨ k = Punctuator.slashEquals →
    Runs .whole k K HasPlaces.ends (enterRegex >>= fun _ => Parse.literal)
      (enterRegex >>= fun _ => Parse.literal)
  /-- A failure is the same on both sides, if it is not that a regular
  expression is open. -/
  fail {α : Type} [HasPlaces α] {k : TokenKind} {K : Set Nat}
    {E : α → Set Nat} (fault : SyntaxFault) : fault ≠ .openRegex →
    Runs .whole k K E (Parse.fail fault) (Parse.fail fault)
  /-- It may be at places that have nothing to do with each other. -/
  failAt {α : Type} [HasPlaces α] {k : TokenKind} {K : Set Nat}
    {E : α → Set Nat} (offset offset' : Nat) (fault : SyntaxFault) :
    fault ≠ .openRegex →
    Runs .whole k K E (Parse.failAt offset fault)
      (Parse.failAt offset' fault)
  /-- Nodes agree that are made of the same and begin at the same start. -/
  finish {k : TokenKind} {K : Set Nat} {E : Tree → Set Nat} {s s' : Nat}
    {form form' : Form (Option Tree)} :
    Same left right s s' → Same left right form form' →
    (∀ stop, E (.node s stop none form) ⊆ K) →
    Runs .ahead k K E (Parse.finish s form) (Parse.finish s' form')
  /-- Where a statement ends, the second run may consume a semicolon. -/
  endStatement_finish {k : TokenKind} {K : Set Nat} {s s' : Nat}
    {form form' : Form (Option Tree)} :
    Same left right s s' → Same left right form form' →
    HasPlaces.ends form ⊆ K →
    Runs .tail k K HasPlaces.ends
      (endStatement >>= fun _ => Parse.finish s form)
      (endStatement >>= fun _ => Parse.finish s' form')
  /-- It may do so behind the node as well, if the statement is one by
  itself. -/
  finish_endStatement {k : TokenKind} {K : Set Nat} {s s' : Nat}
    {form form' : Form (Option Tree)} (doc : Option String) :
    Same left right s s' → Same left right form form' →
    HasPlaces.ends form ⊆ K →
    Runs .tail k K HasPlaces.ends
      (Parse.finish s form >>= fun tree =>
        endStatement >>= fun _ => pure (tree.withDoc doc))
      (Parse.finish s' form' >>= fun tree =>
        endStatement >>= fun _ => pure (tree.withDoc doc))
  /-- A semicolon that need not be there ends no statement. -/
  accept_finish {k : TokenKind} {K : Set Nat} {s s' : Nat}
    {form form' : Form (Option Tree)} :
    Same left right s s' → Same left right form form' →
    form.isEnded = false → HasPlaces.ends form ⊆ K →
    Runs .tail k K HasPlaces.ends
      (accept Punctuator.semicolon >>= fun _ => Parse.finish s form)
      (accept Punctuator.semicolon >>= fun _ => Parse.finish s' form')
  /-- A semicolon by itself is a statement on both sides. -/
  lone {K : Set Nat} :
    Runs .whole Punctuator.semicolon K HasPlaces.ends (atom .empty)
      (atom .empty)
  /-- Loops run alike if their steps do. -/
  iterate {σ : Type} [HasPlaces σ] {m : Mode} {k : TokenKind} {K : Set Nat}
    {step step' : σ → Parse (Option σ)} {state state' : σ} :
    m = .ahead ∨ m = .inner →
    (∀ s s', Same left right s s' →
      ∀ k, Runs m k (HasPlaces.ends s) HasPlaces.ends (step s) (step' s')) →
    Same left right state state' → HasPlaces.ends state ⊆ K →
    Runs m k K HasPlaces.ends (Parse.iterate step state)
      (Parse.iterate step' state')

section

open HasPlaces

variable {α β : Type} [HasPlaces α] [HasPlaces β]

@[simp] theorem ends_unit (a : Unit) : ends a = ∅ := rfl

@[simp] theorem ends_bool (a : Bool) : ends a = ∅ := rfl

@[simp] theorem ends_kind (a : TokenKind) : ends a = ∅ := rfl

@[simp] theorem ends_none : ends (none : Option α) = ∅ := by
  simp [ends]

@[simp] theorem ends_some (a : α) : ends (some a) = ends a := by
  simp [ends]

@[simp] theorem ends_nil : ends ([] : List α) = ∅ := by
  simp [ends]

@[simp] theorem ends_cons (a : α) (as : List α) :
    ends (a :: as) = ends a ∪ ends as := by
  ext y
  simp [ends]

@[simp] theorem ends_append (as bs : List α) :
    ends (as ++ bs) = ends as ∪ ends bs := by
  ext y
  simp [ends, or_and_right, exists_or]

@[simp] theorem ends_pair (a : α) (b : β) :
    ends (a, b) = ends a ∪ ends b := rfl

@[simp] theorem ends_reverse (as : List α) :
    ends as.reverse = ends as := by
  ext y
  simp [ends]

@[simp] theorem ends_map_some (as : List α) :
    ends (as.map some) = ends as := by
  ext y
  simp [ends]

/-- Documentation ends no statement. -/
@[simp] theorem ends_withDoc (doc : Option String) (tree : Tree) :
    ends (tree.withDoc doc) = ends tree := by
  ext y
  simp [ends]

/-- Only a for loop has something in its head. -/
theorem ends_form (form : Form (Option Tree)) :
    ends form
      = {y | ∃ child, some child ∈ form.heads ∧ y ∈ child.innerEnds}
        ∪ ends form.bodies := rfl

/-- What has no parts has no ends. -/
theorem ends_of_slots {form : Form (Option Tree)} (h : form.slots = [])
    {K : Set Nat} : ends form ⊆ K := by
  have hheads : form.heads = [] :=
    List.eq_nil_iff_forall_not_mem.2 fun _ hslot => by
      simpa [h] using Form.mem_slots_of_mem_heads hslot
  have hbodies : form.bodies = [] :=
    List.eq_nil_iff_forall_not_mem.2 fun _ hslot => by
      simpa [h] using Form.mem_slots_of_mem_bodies hslot
  simp [ends_form, hheads, hbodies]

/-- The ends inside a node are those in its slots. -/
theorem innerEnds_node (start stop : Nat) (doc : Option String)
    (form : Form (Option Tree)) :
    {y | y ∈ (Tree.node start stop doc form).innerEnds} = ends form := by
  ext y
  rw [Set.mem_ofPred_eq, Tree.mem_innerEnds, ends_form, Set.mem_union]
  refine or_congr Iff.rfl ?_
  simp only [ends, Set.mem_ofPred_eq]
  constructor
  · exact fun ⟨child, hslot, hy⟩ => ⟨some child, hslot, child, rfl, hy⟩
  · rintro ⟨_, hslot, child, rfl, hy⟩
    exact ⟨child, hslot, hy⟩

/-- What no semicolon ends has the ends of its parts. -/
theorem ends_node {start stop : Nat} {doc : Option String}
    {form : Form (Option Tree)} (h : form.isEnded = false) :
    ends (Tree.node start stop doc form) = ends form := by
  rw [← innerEnds_node start stop doc]
  ext y
  simp [ends, Tree.ends, Tree.ownEnds, h]

end

namespace Coupling

variable {left right : Nat → Nat} (C : Coupling left right)
  {α β : Type} [HasPlaces α] [HasPlaces β] {m : Mode} {k : TokenKind}
  {K : Set Nat} {E : α → Set Nat} {E' : β → Set Nat} {p p' : Parse α}

section

variable {C}

/-- A result that is made of the one before. -/
theorem bind_pure {f f' : α → β} (hm : m ≠ .tail)
    (hp : C.Runs m k K E p p')
    (hf : ∀ a a', Same left right a a' → Same left right (f a) (f' a'))
    (hE : ∀ a, E' (f a) ⊆ K ∪ E a) :
    C.Runs m k K E' (p >>= fun a => pure (f a))
      (p' >>= fun a => pure (f' a)) := by
  have hpure (a a' : α) (h : Same left right a a') (k : TokenKind) :
      C.Runs .ahead k (K ∪ E a) E' (pure (f a)) (pure (f' a')) :=
    C.ret (hf a a' h) (hE a)
  cases m with
  | whole => exact C.bind_whole hp fun a a' h k => C.tail (hpure a a' h k)
  | ahead => exact C.bind_ahead (.inl rfl) hp hpure
  | inner =>
      exact C.bind_inner (.inl rfl) hp fun a a' h k => C.inner (hpure a a' h k)
  | tail => exact absurd rfl hm

/-- A result may be changed, if that keeps results alike and brings in no
ends. -/
theorem map {f f' : α → β} (hm : m ≠ .tail) (hp : C.Runs m k K E p p')
    (hf : ∀ a a', Same left right a a' → Same left right (f a) (f' a'))
    (hE : ∀ a, E' (f a) ⊆ K ∪ E a) :
    C.Runs m k K E' (f <$> p) (f' <$> p') := by
  rw [map_eq_pure_bind, map_eq_pure_bind]
  exact bind_pure hm hp hf hE

/-- Two ways to go on, with the same continuation behind both. -/
theorem choice {q q' : Parse α} {f f' : α → Parse β} {c : Prop}
    [Decidable c] (hp : C.Runs .inner k K E p p')
    (hq : C.Runs .inner k K E q q')
    (hf : ∀ a a', Same left right a a' →
      ∀ k, C.Runs .whole k (K ∪ E a) E' (f a) (f' a')) :
    C.Runs .whole k K E' (if c then p >>= f else q >>= f)
      (if c then p' >>= f' else q' >>= f') := by
  split
  · exact C.bind_inner (.inr rfl) hp hf
  · exact C.bind_inner (.inr rfl) hq hf

/-- Of three ways, both runs take the same one. -/
theorem choice₃ {q q' r r' : Parse α} {f f' : α → Parse β} {c d : Prop}
    [Decidable c] [Decidable d] (hp : C.Runs .inner k K E p p')
    (hq : C.Runs .inner k K E q q') (hr : C.Runs .inner k K E r r')
    (hf : ∀ a a', Same left right a a' →
      ∀ k, C.Runs .whole k (K ∪ E a) E' (f a) (f' a')) :
    C.Runs .whole k K E'
      (if c then p >>= f else if d then q >>= f else r >>= f)
      (if c then p' >>= f' else if d then q' >>= f' else r' >>= f') := by
  split
  · exact C.bind_inner (.inr rfl) hp hf
  · exact choice hq hr hf

end

-- =============================================================== looks

section

variable {C} {γ : Type}

/-- Both runs look at tokens that are alike, and of the kind that is known. -/
theorem look_token {f f' : Token → Parse β} (hm : m = .inner ∨ m = .whole)
    (hf : ∀ t t' : Token, t.Alike t' → left t.start = right t'.start →
      t.kind = k → t'.kind = k → C.Runs m k K E' (f t) (f' t')) :
    C.Runs m k K E' (Parse.look (·.token) >>= f)
      (Parse.look (·.token) >>= f') := by
  refine C.look id hm fun t t' h hkind => ?_
  obtain ⟨halike, hstart⟩ := same_token.1 h
  exact hf t t' halike hstart hkind (halike.kind_eq.symm.trans hkind)

/-- A parser that looks at the kind alone sees the one that is known. -/
theorem look_kind {f f' : TokenKind → Parse β}
    (hm : m = .inner ∨ m = .whole) (hf : C.Runs m k K E' (f k) (f' k)) :
    C.Runs m k K E' (Parse.look Cursor.kind >>= f)
      (Parse.look Cursor.kind >>= f') := by
  refine C.look Token.kind hm fun t t' h hkind => ?_
  rw [← (same_token.1 h).1.kind_eq, hkind]
  exact hf

/-- The answer to a question for the kind of the current token is known on
both sides. -/
theorem isAt {f f' : Bool → Parse β} {kind : TokenKind}
    (hm : m = .inner ∨ m = .whole)
    (hf : C.Runs m k K E' (f (k == kind)) (f' (k == kind))) :
    C.Runs m k K E' (Parse.isAt kind >>= f) (Parse.isAt kind >>= f') := by
  refine C.look (fun t => t.kind == kind) hm fun t t' h hkind => ?_
  rw [← (same_token.1 h).1.kind_eq, hkind]
  exact hf

/-- The two starts correspond. -/
theorem here {f f' : Nat → Parse β} (hm : m = .inner ∨ m = .whole)
    (hf : ∀ s s', Same left right s s' → C.Runs m k K E' (f s) (f' s')) :
    C.Runs m k K E' (Parse.here >>= f) (Parse.here >>= f') :=
  C.look Token.start hm fun _ _ h _ => hf _ _ (same_token.1 h).2

/-- Where the second text may have a semicolon of its own, looking has to be
right there as well. -/
theorem look_token_ahead {f f' : Token → Parse β}
    (hm : m = .ahead ∨ m = .tail)
    (hf : ∀ t t' : Token, t.Alike t' → left t.start = right t'.start →
      t.kind = k → t'.kind = k → C.Runs m k K E' (f t) (f' t'))
    (hstop : ∀ t t' : Token, t.kind = k → k ≠ Punctuator.semicolon →
      t'.kind = Punctuator.semicolon →
      C.Runs m k K E' (f t) (f' t') ∨ ∃ q, C.Runs .whole k K E' (f t) q) :
    C.Runs m k K E' (Parse.look (·.token) >>= f)
      (Parse.look (·.token) >>= f') := by
  refine C.look_ahead id hm (fun t t' h hkind => ?_) hstop
  obtain ⟨halike, hstart⟩ := same_token.1 h
  exact hf t t' halike hstart hkind (halike.kind_eq.symm.trans hkind)

/-- A choice by the kind of the next token: the token is consumed, or both
parsers go on alike, also where the second one is at a semicolon. -/
theorem look_kind_ahead {f f' : TokenKind → Parse β}
    (hm : m = .ahead ∨ m = .tail)
    (hf : C.Runs .whole k K E' (f k) (f' k)
      ∨ C.Runs m k K E' (f k) (f' k)
        ∧ (k ≠ Punctuator.semicolon →
          C.Runs m k K E' (f k) (f' Punctuator.semicolon))) :
    C.Runs m k K E' (Parse.look Cursor.kind >>= f)
      (Parse.look Cursor.kind >>= f') := by
  refine C.look_ahead Token.kind hm (fun t t' h hkind => ?_)
    fun _ _ hkind hk hkind' => ?_
  · rw [← (same_token.1 h).1.kind_eq, hkind]
    rcases hf with hwhole | ⟨hboth, -⟩
    · rcases hm with rfl | rfl
      · exact C.ahead hwhole
      · exact C.tail (C.ahead hwhole)
    · exact hboth
  · rw [hkind, hkind']
    rcases hf with hwhole | ⟨-, hstop⟩
    · exact .inr ⟨_, hwhole⟩
    · exact .inl (hstop hk)

/-- Asking for a token other than a semicolon. -/
theorem isAt_ahead {f f' : Bool → Parse β} {kind : TokenKind}
    (hm : m = .ahead ∨ m = .tail) (hkind : kind ≠ Punctuator.semicolon)
    (hhit : k = kind → C.Runs .whole k K E' (f true) (f' true)
      ∨ C.Runs m k K E' (f true) (f' true)
        ∧ C.Runs m k K E' (f true) (f' false))
    (hmiss : k ≠ kind → C.Runs m k K E' (f false) (f' false)) :
    C.Runs m k K E' (Parse.isAt kind >>= f) (Parse.isAt kind >>= f') := by
  have hother : ((Punctuator.semicolon : TokenKind) == kind) = false := by
    simpa using hkind.symm
  have hlook := @look_kind_ahead left right C β _ m k K E'
    (fun k => f (k == kind)) fun k => f' (k == kind)
  refine hlook hm ?_
  rw [hother]
  by_cases h : k = kind
  · rw [beq_iff_eq.2 h]
    exact (hhit h).imp_right fun hboth => ⟨hboth.1, fun _ => hboth.2⟩
  · rw [beq_eq_false_iff_ne.2 h]
    exact .inr ⟨hmiss h, fun _ => hmiss h⟩

/-- Whether a statement may end is the same at a semicolon that only the
second text has, or the first parser goes on. -/
theorem look_mayEnd_tail {f f' : Bool → Parse β}
    (hend : ∀ k, C.Runs .tail k K E' (f true) (f' true))
    (hmore : ∀ k, C.Runs .whole k K E' (f false) (f' false)) :
    C.Runs .tail k K E' (Parse.look mayEnd >>= f)
      (Parse.look mayEnd >>= f') := by
  have hboth (b : Bool) : C.Runs .tail k K E' (f b) (f' b) := by
    cases b with
    | false => exact C.tail (C.ahead (hmore k))
    | true => exact hend k
  refine C.look_ahead (fun t => t.kind == .punctuator .semicolon
      || t.kind == .punctuator .closeBrace || t.kind == .endOfText
      || t.afterBreak) (.inr rfl) (fun t t' h _ => ?_)
    fun t t' _ _ ht' => ?_
  · obtain ⟨halike, -⟩ := same_token.1 h
    rw [halike.kind_eq, halike.afterBreak_eq]
    exact hboth _
  · rw [ht', beq_self_eq_true, Bool.true_or, Bool.true_or, Bool.true_or]
    generalize (t.kind == .punctuator .semicolon
      || t.kind == .punctuator .closeBrace || t.kind == .endOfText
      || t.afterBreak) = b
    cases b with
    | false => exact .inr ⟨_, hmore k⟩
    | true => exact .inl (hend k)

end

-- ============================================================== tokens

section

variable {C}

/-- A token is taken on both sides or on neither, and the kind says which. -/
theorem accept_bind {f f' : Bool → Parse β} {kind : TokenKind}
    (hm : m = .inner ∨ m = .whole)
    (hhit : k = kind → C.Runs m k K E' (Parse.advance >>= fun _ => f true)
      (Parse.advance >>= fun _ => f' true))
    (hmiss : k ≠ kind → C.Runs m k K E' (f false) (f' false)) :
    C.Runs m k K E' (Parse.accept kind >>= f)
      (Parse.accept kind >>= f') := by
  simp only [Parse.accept, bind_assoc]
  refine isAt hm ?_
  by_cases hkind : k = kind
  · simpa [hkind] using hhit hkind
  · simpa [hkind] using hmiss hkind

/-- Accepting a token other than a semicolon. -/
theorem accept {kind : TokenKind} (hplain : kind.IsPlain)
    (hkind : kind ≠ Punctuator.semicolon) :
    C.Runs .ahead k K HasPlaces.ends (Parse.accept kind)
      (Parse.accept kind) := by
  refine isAt_ahead (.inl rfl) hkind (fun h => .inl ?_) fun _ => ?_
  · exact C.bind_whole (C.advance (h ▸ hplain)) fun _ _ _ _ =>
      C.tail (C.ret (by simp) (by simp))
  · exact C.ret (by simp) (by simp)

/-- A token that is called for is taken on both sides, or missing on both. -/
theorem expect {kind : TokenKind} (hplain : kind.IsPlain) :
    C.Runs .whole k K HasPlaces.ends (Parse.expect kind)
      (Parse.expect kind) := by
  refine accept_bind (.inr rfl) (fun h => ?_) fun _ => ?_
  · exact C.bind_whole (C.advance (h ▸ hplain)) fun _ _ _ _ =>
      C.tail (C.ret (by simp) (by simp))
  · exact C.fail _ (by simp)

end

-- ============================================================== pieces

section

variable {C}

/-- In the modes in which a run may go on, sequences are put together as they
are. -/
theorem seq (hm : m = .ahead ∨ m = .inner) {f f' : α → Parse β}
    (hp : C.Runs m k K E p p')
    (hf : ∀ a a', Same left right a a' →
      ∀ k, C.Runs m k (K ∪ E a) E' (f a) (f' a')) :
    C.Runs m k K E' (p >>= f) (p' >>= f') := by
  rcases hm with rfl | rfl
  · exact C.bind_ahead (.inl rfl) hp hf
  · exact C.bind_inner (.inl rfl) hp hf

/-- A result that is given at once agrees if the two do. -/
theorem pure_of (hm : m = .ahead ∨ m = .inner) {a a' : α}
    (h : Same left right a a') (hE : E a ⊆ K) :
    C.Runs m k K E (pure a) (pure a') := by
  rcases hm with rfl | rfl
  · exact C.ret h hE
  · exact C.inner (C.ret h hE)

/-- A node that no semicolon ends. -/
theorem node {s s' : Nat} {form form' : Form (Option Tree)}
    (hs : Same left right s s') (hform : Same left right form form')
    (hended : form.isEnded = false) (hE : HasPlaces.ends form ⊆ K) :
    C.Runs .ahead k K HasPlaces.ends (Parse.finish s form)
      (Parse.finish s' form') :=
  C.finish hs hform fun _ => (ends_node hended).trans_subset hE

/-- Something behind a token that may be missing with it. -/
theorem optionally {kind : TokenKind} {f f' : Option α → Parse β}
    (hplain : kind.IsPlain) (hkind : kind ≠ Punctuator.semicolon)
    (hp : ∀ k K, C.Runs .whole k K HasPlaces.ends p p')
    (hf : ∀ (a a' : Option α) (K' : Set Nat) (k : TokenKind), K ⊆ K' →
      HasPlaces.ends a ⊆ K' → Same left right a a' →
      C.Runs .ahead k K' E' (f a) (f' a')) :
    C.Runs .ahead k K E'
      (Parse.accept kind >>= fun b =>
        if b then some <$> p >>= f else pure none >>= f)
      (Parse.accept kind >>= fun b =>
        if b then some <$> p' >>= f' else pure none >>= f') := by
  refine C.bind_ahead (.inl rfl) (accept hplain hkind) fun b b' hb k => ?_
  obtain rfl := same_bool.1 hb
  cases b with
  | false =>
      exact C.bind_ahead (E := HasPlaces.ends) (.inl rfl)
        (C.ret same_none (by simp)) fun a a' ha k =>
          hf a a' _ k (by simp) Set.subset_union_right ha
  | true =>
      have hsome : C.Runs .ahead k (K ∪ HasPlaces.ends true)
          HasPlaces.ends (some <$> p) (some <$> p') :=
        C.ahead (map (by simp) (hp k _) (by simp) (by simp))
      exact C.bind_ahead (.inl rfl) hsome fun a a' ha k =>
        hf a a' _ k (by simp) Set.subset_union_right ha

/-- A step that is repeated until it declines. -/
theorem many {step step' : Parse (Option α)} (hm : m = .ahead ∨ m = .inner)
    (hstep : ∀ k K, C.Runs m k K HasPlaces.ends step step') :
    C.Runs m k K HasPlaces.ends (Parse.many step) (Parse.many step') := by
  refine seq hm (C.iterate hm ?_ same_nil (by simp))
    fun done done' h k => pure_of hm h.reverse (by simp)
  refine fun done done' h k => seq hm (hstep k _) fun r r' hr k => ?_
  refine pure_of hm ?_ ?_
  · rcases hr.option with ⟨rfl, rfl⟩ | ⟨a, a', rfl, rfl, ha⟩
    · exact same_none
    · exact same_some.2 (same_cons.2 ⟨ha, h⟩)
  · cases r <;> simp [Set.union_comm]

/-- Items with commas between them. -/
theorem separated {item item' : Parse α}
    (hitem : ∀ k K, C.Runs .whole k K HasPlaces.ends item item') :
    C.Runs .whole k K HasPlaces.ends (Parse.separated item)
      (Parse.separated item') := by
  refine C.bind_whole (hitem k K) fun first first' hfirst k => C.tail ?_
  refine C.bind_ahead (.inl rfl) (many (.inl rfl) fun k K => ?_)
    fun more more' hmore k => C.ret (same_cons.2 ⟨hfirst, hmore⟩) ?_
  · refine C.bind_ahead (.inl rfl) (accept (.inr (.inl ⟨_, rfl⟩)) (by simp))
      fun b b' hb k => ?_
    obtain rfl := same_bool.1 hb
    cases b with
    | false => exact C.ret same_none (by simp)
    | true => exact C.ahead (map (by simp) (hitem k _) (by simp) (by simp))
  · simp [Set.union_assoc]

/-- A token that is a node by itself. -/
theorem name (orKeyword : Bool) :
    C.Runs .whole k K HasPlaces.ends (Parse.name orKeyword)
      (Parse.name orKeyword) := by
  refine look_token (.inr rfl) fun t t' h hstart hk hk' => ?_
  rw [hk, hk', h.value_eq]
  split
  · rename_i hname
    refine C.bind_whole (C.advance ?_) fun _ _ _ _ =>
      C.tail (node hstart rfl rfl (by simp [ends_form, Form.heads,
        Form.bodies, Form.slots]))
    cases k <;> simp_all [TokenKind.IsPlain, TokenKind.isKeyword]
  · exact C.fail _ (by simp)

/-- A token that is a node by itself makes nodes that agree. -/
theorem atom {form : Form (Option Tree)} (hplain : k.IsPlain)
    (hform : Same left right form form) (hended : form.isEnded = false)
    (hE : HasPlaces.ends form ⊆ K) :
    C.Runs .whole k K HasPlaces.ends (Parse.atom form)
      (Parse.atom form) := by
  refine here (.inr rfl) fun s s' hs => C.bind_whole (C.advance hplain)
    fun _ _ _ _ => C.tail (node hs hform hended ?_)
  exact hE.trans Set.subset_union_left

end

end Coupling

end ScriptLint
