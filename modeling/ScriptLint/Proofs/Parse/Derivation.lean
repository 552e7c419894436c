/-
Where trees come from. Whatever a parser yields has been read off the
tokens between the cursor before and the cursor behind it: a node begins
with the current token and ends with the last one consumed, and in between
its children have been read in order, with tokens around them
(`Derives`). Tokens that have been consumed are in order, and a name or a
literal is a token of its own.

A documentation comment is the one in front of the first token of a node.
Functions take it wherever they stand, declarations unless they are in the
head of a loop, and other nodes only where the parent says so
(`Form.role`). The parser attaches it behind the reading of a node, so the
contract for an expression says how it is derived in any role
(`Parse.Makes`).

Every reading takes one token at least. Where a construct may also be
absent, nothing is read or something is derived (`Continues`).

The file has three parts: what a derivation is and how derivations are put
together, the rules for parsers, and one lemma for each parser of the
grammar. The main one for the grammar is that the parsers at all depths
derive what they yield (`isDerived_levels`); texts come in with
`Tree.derives_of_read`, from where spans, lines and documentation are
taken.

A part of a reading is a tree with its role. That the comment of the first
token is attached to a node behind its reading means that the tree that is
derived is not the one that a parser yields, but that tree with a comment,
if its role asks for one (`Role.attach`). A contract for all roles at once
(`Makes`) spares the parsers from knowing theirs.
-/
import ScriptLint.Proofs.Parse.Trace
import ScriptLint.Proofs.Syntax.Layout

namespace ScriptLint

open Parse

-- =============================================================== roles

/-- What a child is to its parent, as far as documentation comments are
concerned. -/
inductive Role where
  /-- The comment in front belongs to the child, whatever it is. -/
  | documented
  /-- The head of a loop, where a declaration takes no comment. -/
  | head
  | plain
  deriving DecidableEq

/-- The role of what stands in the `n`th slot of a form. -/
def Form.role {ι : Type} (form : Form ι) (n : Nat) : Role :=
  match form, n with
  | .expression _, 0 | .property _ _, 0 => .documented
  | .forLoop _ _ _ _, 0 | .forIn _ _ _, 0 => .head
  | _, _ => .plain

/-- Whether a node in a role takes the comment in front of it. -/
def Form.takesDoc {ι : Type} (form : Form ι) (role : Role) : Bool :=
  match role, form with
  | .documented, _ | _, .function .. | .plain, .declarations _ => true
  | _, _ => false

/-- A child of a node in its role. -/
abbrev Part := Role × Tree

/-- The child in a slot with the number `n`, in its role. -/
def Form.partAt {ι : Type} (form : Form (Option ι)) :
    Option ι × Nat → Option (Role × ι)
  | (slot, n) => slot.map (form.role n, ·)

@[simp] theorem Form.partAt_none {ι : Type} (form : Form (Option ι))
    (n : Nat) : form.partAt (none, n) = none := rfl

/-- A child is a part in the role of its slot. -/
@[simp] theorem Form.partAt_some {ι : Type} (form : Form (Option ι))
    (child : ι) (n : Nat) :
    form.partAt (some child, n) = some (form.role n, child) := rfl

/-- The children of a form in their roles. -/
def Form.parts {ι : Type} (form : Form (Option ι)) : List (Role × ι) :=
  form.slots.zipIdx.filterMap form.partAt

/-- What stands in a slot without a role of its own. -/
def partsOf (slot : Option Tree) : List Part :=
  (slot.map (Prod.mk Role.plain)).toList

@[simp] theorem partsOf_none : partsOf none = [] := rfl

@[simp] theorem partsOf_some (tree : Tree) :
    partsOf (some tree) = [(.plain, tree)] := rfl

/-- The children of a form that gives its children no roles. -/
theorem Form.parts_of_plain {form : Form (Option Tree)}
    (h : ∀ n, form.role n = .plain) :
    form.parts = form.slots.flatMap partsOf := by
  have hslots : ∀ (slots : List (Option Tree)) (k : Nat),
      (slots.zipIdx k).filterMap form.partAt = slots.flatMap partsOf := by
    intro slots
    induction slots with
    | nil => intro k; rfl
    | cons slot slots ih =>
        intro k
        rw [List.zipIdx_cons, List.flatMap_cons, ← ih (k + 1)]
        cases slot <;> simp [List.filterMap_cons, h]
  exact hslots form.slots 0

/-- The tree as the child of a parent that may give it the comment. -/
def Role.attach (role : Role) (doc : Option String) (tree : Tree) : Tree :=
  match role with
  | .documented => tree.withDoc doc
  | _ => tree

/-- Attaching a comment twice is attaching it once. -/
theorem Tree.withDoc_withDoc (tree : Tree) (doc : Option String) :
    (tree.withDoc doc).withDoc doc = tree.withDoc doc := by
  obtain ⟨start, stop, own, form⟩ := tree
  cases own <;> cases doc <;> rfl

-- ========================================================== derivations

/-- What a form is like that has been read between two cursors. Names and
literals are tokens; a function has names for its own and for its
parameters, a member has an owner and a name, and a property has a
key. -/
def Form.IsRead (cursor cursor' : Cursor) : Form (Option Tree) → Prop
  | .identifier text => ∃ token, cursor.Takes token cursor'
    ∧ (token.kind = .identifier ∨ token.kind.isKeyword = true)
    ∧ token.value = text
  | .string value => ∃ token, cursor.Takes token cursor'
    ∧ token.kind = .string ∧ token.value = value
  | .number text => ∃ token, cursor.Takes token cursor'
    ∧ token.kind = .number ∧ token.value = text
  | .regex text => ∃ token, cursor.Takes token cursor'
    ∧ token.kind = .regex ∧ token.value = text
  | .function name parameters _ _ =>
    ∀ slot ∈ name :: parameters, ∀ tree ∈ slot,
      tree.identifier?.isSome = true
  | .member owner name => owner.isSome = true
    ∧ ∃ tree, name = some tree ∧ tree.identifier?.isSome = true
  | .property key _ => key.isSome = true
  | _ => True

/-- From one cursor to another, trees have been read in order, with tokens
around them. -/
inductive Derives : Cursor → List Part → Cursor → Prop where
  | token {cursor cursor' : Cursor} {token : Token} :
    cursor.Takes token cursor' → Derives cursor [] cursor'
  | node {cursor cursor' : Cursor} {form : Form (Option Tree)}
    (role : Role) :
    Derives cursor form.parts cursor' → form.IsRead cursor cursor' →
    Derives cursor
      [(role, .node cursor.token.start
        (max cursor'.lastStop cursor.token.start)
        (if form.takesDoc role then cursor.token.doc else none) form)]
      cursor'
  | append {cursor middle cursor' : Cursor} {parts more : List Part} :
    Derives cursor parts middle → Derives middle more cursor' →
    Derives cursor (parts ++ more) cursor'

/-- Nothing has been read, or something is derived. -/
def Continues (cursor : Cursor) (parts : List Part) (cursor' : Cursor) :
    Prop :=
  (cursor' = cursor ∧ parts = []) ∨ Derives cursor parts cursor'

section

variable {cursor middle cursor' : Cursor} {parts more : List Part}

/-- A reading may go on with another. -/
theorem Derives.continue (h : Derives cursor parts middle)
    (h' : Continues middle more cursor') :
    Derives cursor (parts ++ more) cursor' := by
  rcases h' with ⟨rfl, rfl⟩ | h'
  · rwa [List.append_nil]
  · exact h.append h'

/-- Two readings follow each other. -/
theorem Continues.trans (h : Continues cursor parts middle)
    (h' : Continues middle more cursor') :
    Continues cursor (parts ++ more) cursor' := by
  rcases h with ⟨rfl, rfl⟩ | h
  · rwa [List.nil_append]
  · exact .inr (h.continue h')

/-- Nothing is read by staying. -/
theorem continues_refl (cursor : Cursor) : Continues cursor [] cursor :=
  .inl ⟨rfl, rfl⟩

/-- Behind a word or a punctuator. -/
theorem Derives.next (h : Derives cursor parts middle)
    (hkind : middle.kind.IsPlain) : Derives cursor parts middle.next := by
  rw [← List.append_nil parts]
  exact h.append (.token (.plain hkind))

end

section

variable {text : String} {cursor cursor' : Cursor} {parts : List Part}

/-- Reading stays in the text. -/
theorem Derives.reached (h : Derives cursor parts cursor')
    (hcursor : cursor.Reached text) : cursor'.Reached text := by
  induction h with
  | token htakes => exact htakes.reached hcursor
  | node role h hread ih => exact ih hcursor
  | append h h' ih ih' => exact ih' (ih hcursor)

/-- Reading brings the end of the text closer. -/
theorem Derives.remaining_lt (h : Derives cursor parts cursor')
    (hcursor : cursor.Reached text) :
    cursor'.remaining < cursor.remaining := by
  induction h with
  | token htakes => exact htakes.remaining_lt hcursor
  | node role h hread ih => exact ih hcursor
  | append h h' ih ih' =>
      exact Nat.lt_trans (ih' (h.reached hcursor)) (ih hcursor)

/-- What has been consumed stays so. -/
theorem Derives.consumed_suffix (h : Derives cursor parts cursor') :
    cursor.consumed <:+ cursor'.consumed := by
  induction h with
  | token htakes => exact ⟨[_], htakes.consumed_eq.symm⟩
  | node role h hread ih => exact ih
  | append h h' ih ih' => exact ih.trans ih'

/-- The first token that has been read is the one that the cursor stood
on, or that slash read again. -/
theorem Derives.exists_first (h : Derives cursor parts cursor') :
    ∃ token ∈ cursor'.consumed, token.start = cursor.token.start
      ∧ token.fullStart = cursor.token.fullStart := by
  induction h with
  | token htakes =>
      exact ⟨_, by rw [htakes.consumed_eq]; exact List.mem_cons_self ..,
        htakes.start_eq⟩
  | node role h hread ih => exact ih
  | append h h' ih ih' =>
      obtain ⟨token, hmem, hplace⟩ := ih
      exact ⟨token, h'.consumed_suffix.subset hmem, hplace⟩

/-- A reading goes along the text. -/
theorem Continues.reached (h : Continues cursor parts cursor')
    (hcursor : cursor.Reached text) : cursor'.Reached text := by
  rcases h with ⟨rfl, -⟩ | h
  · exact hcursor
  · exact h.reached hcursor

end

@[simp] theorem isPlain_punctuator (p : Punctuator) :
    (TokenKind.punctuator p).IsPlain := .inr (.inl ⟨p, rfl⟩)

@[simp] theorem isPlain_keyword (k : Keyword) :
    (TokenKind.keyword k).IsPlain := .inr (.inr ⟨k, rfl⟩)

/-- Binary operators are words or punctuators. -/
theorem isPlain_of_precedence {kind : TokenKind} (h : 0 < kind.precedence) :
    kind.IsPlain := by
  cases kind <;> first | simp | cases h

/-- An operator that assigns is in order. -/
theorem isPlain_of_isAssignment {kind : TokenKind}
    (h : kind.isAssignment = true) : kind.IsPlain := by
  cases kind <;> first | simp | cases h

-- =========================================================== contracts

namespace Parse

variable {α β : Type}

/-- Whatever the parser goes over its result is made of. -/
def Derived (p : Parse α) (parts : α → List Part) : Prop :=
  ∀ cursor, Meets p cursor (fun a => Derives cursor (parts a))
    fun _ => True

/-- The parser reads nothing, or what its result is made of. -/
def Continued (p : Parse α) (parts : α → List Part) : Prop :=
  ∀ cursor, Meets p cursor (fun a => Continues cursor (parts a))
    fun _ => True

/-- The parser makes trees that may stand anywhere. -/
def Makes (p : Parse Tree) : Prop :=
  ∀ cursor, Meets p cursor
    (fun tree cursor' => ∀ role : Role,
      Derives cursor [(role, role.attach cursor.token.doc tree)] cursor')
    fun _ => True

/-- A plain part takes no comment but that of a function or a declaration. -/
theorem Makes.derived {p : Parse Tree} (h : Makes p) :
    Derived p fun tree => [(.plain, tree)] :=
  fun cursor => (h cursor).mono (fun _ _ htree => htree .plain) fun _ => id

/-- A slot that the parser fills. -/
theorem Derived.slot {p : Parse Tree}
    (h : Derived p fun tree => [(.plain, tree)]) :
    Continued (some <$> p) partsOf :=
  fun cursor => meets_map.2 ((h cursor).mono (fun _ _ => .inr) fun _ => id)

/-- What is derived may stand where something may be absent. -/
theorem Derived.continued {p : Parse α} {parts : α → List Part}
    (h : Derived p parts) : Continued p parts :=
  fun cursor => (h cursor).mono (fun _ _ => .inr) fun _ => id

/-- Nothing is derived from nothing. -/
theorem continued_pure {a : α} {parts : α → List Part}
    (h : parts a = []) : Continued (pure a) parts :=
  fun _ => meets_pure.2 (.inl ⟨rfl, h⟩)

section

variable {cursor : Cursor} {kind : TokenKind} {Q : β → Cursor → Prop}
  {E : SyntaxError → Prop}

/-- The cursor is looked at, and the rest goes on from there. -/
theorem meets_look_bind {f : Cursor → α} {g : α → Parse β} :
    Meets (look f >>= g) cursor Q E ↔ Meets (g (f cursor)) cursor Q E :=
  meets_bind

/-- Two ways to go on. -/
theorem meets_ite {p q : Parse β} {c : Prop} [Decidable c]
    (hp : Meets p cursor Q E) (hq : Meets q cursor Q E) :
    Meets (if c then p else q) cursor Q E := by
  split
  · exact hp
  · exact hq

/-- With the token or without it. -/
theorem meets_accept_bind {f : Bool → Parse β}
    (htaken : cursor.kind = kind → Meets (f true) cursor.next Q E)
    (hleft : Meets (f false) cursor Q E) :
    Meets (accept kind >>= f) cursor Q E := by
  refine meets_bind.2 (meets_accept.2 ?_)
  split
  · rename_i hkind
    exact htaken hkind
  · exact hleft

/-- A first token that has to be there. -/
theorem derives_expect {f : Unit → Parse β} (hkind : kind.IsPlain)
    (hf : ∀ cursor', Derives cursor [] cursor' →
      Meets (f ()) cursor' Q fun _ => True) :
    Meets (expect kind >>= f) cursor Q fun _ => True := by
  refine meets_bind.2 (meets_expect.2 ?_)
  split
  · rename_i heq
    exact hf _ (.token (.plain (heq ▸ hkind)))
  · trivial

end

-- =============================================================== loops

/-- A loop reads what its step reads, one after the other. -/
theorem Continued.many {step : Parse (Option α)} {parts : α → List Part}
    (hstep : Continued step fun r => r.elim [] parts) :
    Continued (Parse.many step) fun results => results.flatMap parts := by
  intro cursor
  unfold Parse.many
  refine (Meets.iterate
    (I := fun done => Continues cursor (done.reverse.flatMap parts))
    (fun done middle hdone => ?_) (continues_refl cursor)).bind
    fun reversed cursor' hreversed => meets_pure.2 hreversed
  refine (hstep middle).bind fun r cursor' hr => meets_pure.2 ?_
  have h := hdone.trans hr
  cases r with
  | none => exact (List.append_nil _ ▸ h :)
  | some a =>
      show Continues cursor ((a :: done).reverse.flatMap parts) cursor'
      rwa [List.reverse_cons, List.flatMap_append, List.flatMap_singleton]

/-- Items with separators in between, which are tokens of the node around
them. -/
theorem Derived.separated {item : Parse α} {parts : α → List Part}
    (hitem : Derived item parts) :
    Derived (Parse.separated item) fun items => items.flatMap parts := by
  intro cursor
  have hmore : Continued (Parse.many do
      if ← accept Punctuator.comma then some <$> item else return none)
      fun items => items.flatMap parts := by
    refine .many fun cursor => ?_
    refine meets_accept_bind (fun hkind => ?_)
      (meets_pure.2 (continues_refl cursor))
    refine meets_map.2 ((hitem _).mono (fun a cursor' ha => .inr ?_)
      fun _ => id)
    have hcomma : Derives cursor [] cursor.next :=
      .token (.plain (hkind ▸ isPlain_punctuator _))
    exact hcomma.append ha
  refine (hitem cursor).bind fun first middle hfirst => ?_
  exact (hmore middle).bind fun more cursor' hmore =>
    meets_pure.2 (hfirst.continue hmore)

end Parse

-- =============================================================== rules

namespace Derives

variable {α β : Type} {cursor middle : Cursor} {ts : List Part}
  {kind : TokenKind} {Q : β → Cursor → Prop} {f : α → Parse β}

/-- Behind something that may have been read. -/
theorem part {p : Parse α} {parts : α → List Part}
    (h : Derives cursor ts middle) (hp : Continued p parts)
    (hf : ∀ a cursor', Derives cursor (ts ++ parts a) cursor' →
      Meets (f a) cursor' Q fun _ => True) :
    Meets (p >>= f) middle Q fun _ => True :=
  (hp middle).bind fun a cursor' ha => hf a cursor' (h.continue ha)

/-- Behind one of two things that may have been read. -/
theorem choice {p q : Parse α} {parts : α → List Part} {c : Prop}
    [Decidable c] (h : Derives cursor ts middle) (hp : Continued p parts)
    (hq : Continued q parts)
    (hf : ∀ a cursor', Derives cursor (ts ++ parts a) cursor' →
      Meets (f a) cursor' Q fun _ => True) :
    Meets (if c then p >>= f else q >>= f) middle Q fun _ => True := by
  split
  · exact h.part hp hf
  · exact h.part hq hf

/-- Behind a tree. -/
theorem tree {p : Parse Tree} {f : Tree → Parse β}
    (h : Derives cursor ts middle)
    (hp : Derived p fun tree => [(.plain, tree)])
    (hf : ∀ tree cursor', Derives cursor (ts ++ [(.plain, tree)]) cursor' →
      Meets (f tree) cursor' Q fun _ => True) :
    Meets (p >>= f) middle Q fun _ => True :=
  h.part hp.continued hf

/-- Behind a token that may be there. -/
theorem accept {f : Bool → Parse β} (h : Derives cursor ts middle)
    (hkind : kind.IsPlain)
    (hf : ∀ taken cursor', Derives cursor ts cursor' →
      Meets (f taken) cursor' Q fun _ => True) :
    Meets (Parse.accept kind >>= f) middle Q fun _ => True :=
  meets_accept_bind (fun heq => hf _ _ (h.next (heq ▸ hkind))) (hf _ _ h)

/-- Behind a token that has to be there. -/
theorem expect {f : Unit → Parse β} (h : Derives cursor ts middle)
    (hkind : kind.IsPlain)
    (hf : ∀ cursor', Derives cursor ts cursor' →
      Meets (f ()) cursor' Q fun _ => True) :
    Meets (Parse.expect kind >>= f) middle Q fun _ => True := by
  refine meets_bind.2 (meets_expect.2 ?_)
  split
  · rename_i heq
    exact hf _ (h.next (heq ▸ hkind))
  · trivial

/-- Behind the end of a statement. -/
theorem endStatement {f : Unit → Parse β} (h : Derives cursor ts middle)
    (hf : ∀ cursor', Derives cursor ts cursor' →
      Meets (f ()) cursor' Q fun _ => True) :
    Meets (Parse.endStatement >>= f) middle Q fun _ => True := by
  refine meets_bind.2 (h.accept (isPlain_punctuator _)
    fun taken cursor' h => ?_)
  cases taken with
  | true => exact hf cursor' h
  | false =>
      refine meets_look_bind.2 ?_
      split
      · exact hf cursor' h
      · trivial

/-- A node in any role, where the form takes no comment of itself. -/
theorem finish {form : Form (Option Tree)} (h : Derives cursor ts middle)
    (hparts : form.parts = ts) (hplain : form.takesDoc .plain = false)
    (hread : form.IsRead cursor middle) :
    Meets (Parse.finish cursor.token.start form) middle
      (fun tree cursor' => ∀ role : Role,
        Derives cursor [(role, role.attach cursor.token.doc tree)] cursor')
      fun _ => True := by
  subst hparts
  refine meets_finish.2 fun role => ?_
  have hnode := Derives.node role h hread
  cases role with
  | documented => exact hnode
  | plain => rwa [hplain] at hnode
  | head =>
      have hhead : form.takesDoc .head = false := by
        cases form <;> first | rfl | cases hplain
      rwa [hhead] at hnode

end Derives

-- ============================================================== tokens

/-- A name is a token, and the identifier that is read off it. -/
theorem name_meets (orKeyword : Bool) (cursor : Cursor) :
    Meets (name orKeyword) cursor
      (fun tree cursor' => (∀ role : Role,
          Derives cursor [(role, role.attach cursor.token.doc tree)] cursor')
        ∧ tree.identifier?.isSome = true)
      fun _ => True := by
  refine meets_look_bind.2 ?_
  split
  · rename_i hkind
    have hword : cursor.token.kind = .identifier
        ∨ cursor.token.kind.isKeyword = true := by
      simp only [Bool.or_eq_true, beq_iff_eq, Bool.and_eq_true] at hkind
      exact hkind.imp_right And.right
    have hplain : cursor.kind.IsPlain := by
      rcases hword with hword | hword
      · exact .inl hword
      · unfold TokenKind.isKeyword at hword
        split at hword
        · rename_i hkeyword
          exact .inr (.inr ⟨_, hkeyword⟩)
        · cases hword
    refine meets_bind.2 (meets_advance.2 ?_)
    have htoken : Derives cursor [] cursor.next := .token (.plain hplain)
    refine Meets.and ?_ (meets_finish.2 rfl)
    exact htoken.finish rfl rfl ⟨_, .plain hplain, hword, rfl⟩
  · trivial

/-- A name is a token of its own. -/
theorem name_makes (orKeyword : Bool) : Makes (name orKeyword) :=
  fun cursor => (name_meets orKeyword cursor).mono (fun _ _ => And.left)
    fun _ => id

/-- A string or a number is one as well. -/
theorem literal_meets {cursor : Cursor}
    (hkind : cursor.kind = .string ∨ cursor.kind = .number) :
    Meets literal cursor
      (fun tree cursor' => ∀ role : Role,
        Derives cursor [(role, role.attach cursor.token.doc tree)] cursor')
      fun _ => True := by
  refine meets_look_bind.2 ?_
  split
  · trivial
  · rename_i hopen
    have htakes : cursor.Takes cursor.token cursor.next :=
      .literal hkind (Bool.eq_false_iff.2 hopen)
    refine meets_bind.2 (meets_advance.2 ?_)
    have htoken : Derives cursor [] cursor.next := .token htakes
    rcases hkind with hkind | hkind <;>
      rw [show cursor.token.kind = _ from hkind]
    · exact htoken.finish rfl rfl ⟨_, htakes, hkind, rfl⟩
    · exact htoken.finish rfl rfl ⟨_, htakes, hkind, rfl⟩

/-- A regular expression is derived as a literal, once its slash has been read
again. -/
theorem regex_meets {cursor : Cursor} (hkind : cursor.asRegex.kind = .regex) :
    Meets (enterRegex >>= fun _ => literal) cursor
      (fun tree cursor' => ∀ role : Role,
        Derives cursor [(role, role.attach cursor.token.doc tree)] cursor')
      fun _ => True := by
  show Meets literal cursor.asRegex _ _
  refine meets_look_bind.2 ?_
  split
  · trivial
  · rename_i hopen
    have htakes : cursor.Takes cursor.asRegex.token cursor.asRegex.next :=
      .regex hkind (Bool.eq_false_iff.2 hopen)
    refine meets_bind.2 (meets_advance.2 ?_)
    have htoken : Derives cursor [] cursor.asRegex.next := .token htakes
    rw [show cursor.asRegex.token.kind = _ from hkind,
      Cursor.start_asRegex]
    exact htoken.finish rfl rfl ⟨_, htakes, hkind, rfl⟩

/-- Other tokens that are nodes by themselves. -/
theorem atom_meets {cursor : Cursor} (hkind : cursor.kind.IsPlain)
    {form : Form (Option Tree)} (hparts : form.parts = [])
    (hplain : form.takesDoc .plain = false)
    (hread : ∀ cursor', form.IsRead cursor cursor') :
    Meets (atom form) cursor
      (fun tree cursor' => ∀ role : Role,
        Derives cursor [(role, role.attach cursor.token.doc tree)] cursor')
      fun _ => True := by
  refine meets_look_bind.2 (meets_bind.2 (meets_advance.2 ?_))
  have htoken : Derives cursor [] cursor.next := .token (.plain hkind)
  exact htoken.finish hparts hplain (hread _)

namespace Grammar

/-- The parsers of a grammar make expressions and derive statements. -/
structure IsDerived (g : Grammar) : Prop where
  assignment (noIn : Bool) : Makes (g.assignment noIn)
  operand (above : Nat) (noIn : Bool) : Makes (g.operand above noIn)
  unary : Makes g.unary
  callee : Makes g.callee
  statement (s : Surroundings) :
    Derived (g.statement s) fun tree => [(.plain, tree)]

variable {g : Grammar}

-- ========================================================= expressions

/-- A node for each comma, from the left. -/
theorem expression_makes (hg : g.IsDerived) (noIn : Bool) :
    Makes (g.expression noIn) := by
  intro cursor
  refine meets_look_bind.2 ((hg.assignment noIn cursor).bind
    fun first middle hfirst => ?_)
  refine Meets.iterate (I := fun left cursor' => ∀ role : Role,
    Derives cursor [(role, role.attach cursor.token.doc left)] cursor')
    (fun left middle hleft => ?_) hfirst
  refine meets_accept_bind (fun hkind => ?_) (meets_pure.2 hleft)
  have hcomma := (hleft .plain).next (hkind ▸ isPlain_punctuator _)
  refine hcomma.tree (hg.assignment noIn).derived fun right cursor' h => ?_
  exact (h.finish rfl rfl (by trivial)).bind fun both _ hboth =>
    meets_pure.2 hboth

/-- As a plain part. -/
theorem expression_derived (hg : g.IsDerived) (noIn : Bool) :
    Derived (g.expression noIn) fun tree => [(.plain, tree)] :=
  (expression_makes hg noIn).derived

/-- The arguments are parts, their commas and parentheses are not. -/
theorem arguments_derived (hg : g.IsDerived) :
    Derived g.arguments fun slots => slots.flatMap partsOf := by
  intro cursor
  refine derives_expect (isPlain_punctuator _) fun middle h => ?_
  refine meets_look_bind.2 ?_
  refine h.choice (continued_pure rfl)
    (Derived.separated (hg.assignment false).derived).continued
    fun items middle h => ?_
  refine h.expect (isPlain_punctuator _) fun cursor' h => meets_pure.2 ?_
  simpa [List.flatMap_map] using h

-- ============================================================ functions

/-- There may be no statements at all. -/
theorem statements_continued (hg : g.IsDerived) (s : Surroundings) :
    Continued (g.statements s) fun slots => slots.flatMap partsOf := by
  refine .many fun cursor => ?_
  refine meets_look_bind.2 ?_
  split
  case h_5 =>
      exact (hg.statement s cursor).bind fun tree cursor' h =>
        meets_pure.2 (.inr h)
  all_goals exact meets_pure.2 (continues_refl cursor)

/-- A block begins with its brace. -/
theorem block_makes (hg : g.IsDerived) (s : Surroundings) :
    Makes (g.block s) := by
  intro cursor
  refine meets_look_bind.2 ?_
  refine derives_expect (isPlain_punctuator _) fun _ h => ?_
  refine h.part (statements_continued hg s) fun statements _ h => ?_
  refine h.expect (isPlain_punctuator _) fun _ h => ?_
  exact h.finish (Form.parts_of_plain fun _ => rfl) rfl (by trivial)

/-- A name that is read where it may be left out. -/
theorem nameSlot_continued : Continued (some <$> name false) partsOf :=
  (name_makes false).derived.slot

/-- Names are read as identifiers. -/
theorem name_yields (orKeyword : Bool) :
    Yields (name orKeyword) fun tree => tree.identifier?.isSome = true :=
  fun cursor => (name_meets orKeyword cursor).mono (fun _ _ => And.right)
    fun _ => id

/-- A function before it is seen what its names are. -/
theorem function_meets (hg : g.IsDerived) (isDeclaration : Bool)
    (cursor : Cursor) :
    Meets (g.function isDeclaration) cursor
      (fun tree cursor' => ∃ name parameters body,
        tree = .node cursor.token.start
            (max cursor'.lastStop cursor.token.start) none
            (.function name parameters body isDeclaration)
          ∧ Derives cursor
            (Form.function name parameters body isDeclaration).parts cursor')
      fun _ => True := by
  refine meets_look_bind.2 ?_
  refine derives_expect (isPlain_keyword _) fun middle h => ?_
  refine meets_look_bind.2 ?_
  suffices hrest : _ from meets_ite (h.part nameSlot_continued hrest)
    (h.choice nameSlot_continued (continued_pure rfl) hrest)
  intro name middle h
  refine h.expect (isPlain_punctuator _) fun middle h => ?_
  refine meets_look_bind.2 ?_
  refine h.choice (continued_pure rfl)
    (Derived.separated (name_makes false).derived).continued
    fun parameters middle h => ?_
  refine h.expect (isPlain_punctuator _) fun middle h => ?_
  refine h.tree (block_makes hg _).derived fun body middle h => ?_
  refine meets_finish.2 ⟨_, _, _, rfl, ?_⟩
  rw [Form.parts_of_plain fun _ => rfl]
  simpa [Form.slots, List.flatMap_map] using h

/-- The name of a function and its parameters are identifiers. -/
theorem function_yields (isDeclaration : Bool) :
    Yields (g.function isDeclaration) fun tree =>
      ∀ name parameters body, tree.form
          = .function name parameters body isDeclaration →
        ∀ slot ∈ name :: parameters, ∀ t ∈ slot,
          t.identifier?.isSome = true := by
  refine .behind fun start => .behind fun _ => .behind fun isNamed => ?_
  have hslot : Yields (some <$> name false) fun slot =>
      ∀ t ∈ slot, t.identifier?.isSome = true :=
    (name_yields false).map (by simp)
  suffices hrest : _ from .ite (hslot.bind hrest)
    (.choice hslot (yields_pure (by simp)) hrest)
  intro name hname
  refine .behind fun _ => .behind fun isClosed => ?_
  refine .choice (yields_pure (by simp))
    (Yields.separated (name_yields false)) fun parameters hparameters => ?_
  refine .behind fun _ => .behind fun body => yields_finish fun stop => ?_
  intro name' parameters' body' hform
  cases hform
  simpa using ⟨hname, hparameters⟩

/-- A function with the comment in front of it attached, which it takes
in any role. -/
theorem function_documented (hg : g.IsDerived) (isDeclaration : Bool)
    (cursor : Cursor) :
    Meets (g.function isDeclaration) cursor
      (fun tree cursor' => ∀ role : Role,
        Derives cursor [(role, tree.withDoc cursor.token.doc)] cursor')
      fun _ => True := by
  refine ((function_meets hg isDeclaration cursor).and
    (function_yields isDeclaration cursor)).mono ?_ fun _ => id
  rintro _ cursor' ⟨⟨name, parameters, body, rfl, h⟩, hnames⟩ role
  have hnode := Derives.node role h (hnames _ _ _ rfl)
  cases role <;> exact hnode

-- ============================================================= literals

/-- Holes are no parts. -/
theorem array_makes (hg : g.IsDerived) : Makes g.array := by
  intro cursor
  refine meets_look_bind.2 ?_
  refine derives_expect (isPlain_punctuator _) fun middle h => ?_
  refine Meets.bind (Meets.iterate (I := fun state =>
      Derives cursor (state.1.reverse.flatMap partsOf)) ?_ h)
    fun elements middle h => h.expect (isPlain_punctuator _)
      fun middle h => ?_
  · rintro ⟨done, more⟩ middle h
    refine meets_look_bind.2 (meets_ite (meets_pure.2 h) ?_)
    refine h.accept (isPlain_punctuator _) fun isHole middle h => ?_
    refine meets_ite (meets_pure.2 ?_) ?_
    · simpa using h
    · refine h.tree (hg.assignment false).derived fun element middle h => ?_
      refine h.accept (isPlain_punctuator _) fun isMore middle h => ?_
      refine meets_pure.2 ?_
      simpa using h
  · exact h.finish (Form.parts_of_plain fun _ => rfl) rfl (by trivial)

/-- The key takes the comment in front of it, being documented by its role. -/
theorem property_makes (hg : g.IsDerived) : Makes g.property := by
  intro cursor
  refine meets_look_bind.2 ?_
  have hvalue : ∀ (key : Tree) (named : Bool) (middle : Cursor),
      (∀ role : Role, Derives cursor
        [(role, role.attach cursor.token.doc key)] middle) →
      Meets (do
        if named && !(← isAt Punctuator.colon) then
          failAt cursor.token.start .accessorProperty
        else
          expect Punctuator.colon
          let value ← g.assignment false
          finish cursor.token.start
            (.property (some (key.withDoc cursor.token.doc)) (some value)))
        middle (fun tree cursor' => ∀ role : Role, Derives cursor
          [(role, role.attach cursor.token.doc tree)] cursor')
        fun _ => True := by
    intro key named middle hkey
    refine meets_look_bind.2 (meets_ite (meets_failAt.2 trivial) ?_)
    have h := hkey .documented
    refine h.expect (isPlain_punctuator _) fun middle h => ?_
    refine h.tree (hg.assignment false).derived fun value middle h => ?_
    exact h.finish rfl rfl rfl
  split
  · rename_i hkind
    exact (literal_meets (.inl hkind)).bind fun key middle => hvalue key _ middle
  · rename_i hkind
    exact (literal_meets (.inr hkind)).bind fun key middle => hvalue key _ middle
  · exact (name_makes true cursor).bind fun key middle => hvalue key _ middle

/-- Properties with commas between them. -/
theorem object_makes (hg : g.IsDerived) : Makes g.object := by
  intro cursor
  refine meets_look_bind.2 ?_
  refine derives_expect (isPlain_punctuator _) fun middle h => ?_
  refine Meets.bind (Meets.iterate (I := fun state =>
      Derives cursor (state.1.reverse.flatMap partsOf)) ?_ h)
    fun properties middle h => h.expect (isPlain_punctuator _)
      fun middle h => ?_
  · rintro ⟨done, more⟩ middle h
    refine meets_look_bind.2 (meets_ite (meets_pure.2 h) ?_)
    refine h.tree (property_makes hg).derived fun property middle h => ?_
    refine h.accept (isPlain_punctuator _) fun isMore middle h => ?_
    refine meets_pure.2 ?_
    simpa using h
  · exact h.finish (Form.parts_of_plain fun _ => rfl) rfl (by trivial)

/-- What is in parentheses is a part of the node for the parentheses. -/
theorem primary_makes (hg : g.IsDerived) : Makes g.primary := by
  intro cursor
  refine meets_look_bind.2 ?_
  -- a slash can only have been the start of a regular expression here
  have hslash : (cursor.token.kind = Punctuator.slash
      ∨ cursor.token.kind = Punctuator.slashEquals) →
      cursor.asRegex.kind = .regex := by
    intro hkind
    show cursor.lexeme.asRegex.token.kind = .regex
    unfold Lexeme.asRegex
    rcases hkind with hkind | hkind <;>
      rw [show cursor.lexeme.token.kind = _ from hkind]
  split
  case h_1 => exact name_makes false cursor
  case h_2 hkind =>
      exact atom_meets (hkind ▸ isPlain_keyword _ :) rfl rfl fun _ => trivial
  case h_3 hkind =>
      exact atom_meets (hkind ▸ isPlain_keyword _ :) rfl rfl fun _ => trivial
  case h_4 hkind =>
      exact atom_meets (hkind ▸ isPlain_keyword _ :) rfl rfl fun _ => trivial
  case h_5 hkind =>
      exact atom_meets (hkind ▸ isPlain_keyword _ :) rfl rfl fun _ => trivial
  case h_6 hkind => exact literal_meets (.inl hkind)
  case h_7 hkind => exact literal_meets (.inr hkind)
  case h_8 hkind => exact regex_meets (hslash (.inl hkind))
  case h_9 hkind => exact regex_meets (hslash (.inr hkind))
  case h_10 hkind =>
      refine meets_bind.2 (meets_advance.2 ?_)
      have h : Derives cursor [] cursor.next :=
        .token (.plain (hkind ▸ isPlain_punctuator _ :))
      refine h.tree (expression_derived hg false) fun inner middle h => ?_
      refine h.expect (isPlain_punctuator _) fun middle h => ?_
      exact h.finish rfl rfl (by trivial)
  case h_11 => exact array_makes hg cursor
  case h_12 => exact object_makes hg cursor
  case h_13 =>
      -- a function has taken its comment already, so attaching it again
      -- changes nothing
      refine (function_documented hg false cursor).bind
        fun function middle h => meets_pure.2 fun role => ?_
      cases role with
      | documented =>
          rw [Role.attach, Tree.withDoc_withDoc]
          exact h .documented
      | head => exact h .head
      | plain => exact h .plain
  case h_14 => trivial

-- ============================================================ operators

/-- What extends an expression is read behind it, or nothing is. -/
theorem extend_meets (hg : g.IsDerived) (calls : Bool) {owner : Tree}
    {cursor middle : Cursor}
    (h : ∀ role : Role, Derives cursor
      [(role, role.attach cursor.token.doc owner)] middle) :
    Meets (g.extend calls cursor.token.start owner) middle
      (fun r cursor' => ∀ role : Role, Derives cursor
        [(role, role.attach cursor.token.doc (r.getD owner))] cursor')
      fun _ => True := by
  refine meets_look_bind.2 ?_
  have howner := h .plain
  split
  case h_1 hkind =>
      refine meets_bind.2 (meets_advance.2 ?_)
      have hdot := howner.next (hkind ▸ isPlain_punctuator _ :)
      refine (name_meets true _).bind fun name middle hname => ?_
      have hmember := hdot.append (hname.1 .plain)
      exact meets_map.2
        (hmember.finish rfl rfl ⟨rfl, name, rfl, hname.2⟩)
  case h_2 hkind =>
      refine meets_bind.2 (meets_advance.2 ?_)
      have hopen := howner.next (hkind ▸ isPlain_punctuator _ :)
      refine hopen.tree (expression_derived hg false) fun index middle h => ?_
      refine h.expect (isPlain_punctuator _) fun middle h => ?_
      exact meets_map.2 (h.finish rfl rfl (by trivial))
  case h_3 =>
      refine meets_ite ?_ (meets_pure.2 h)
      refine howner.part (arguments_derived hg).continued
        fun arguments middle h => meets_map.2 (h.finish ?_ rfl (by trivial))
      exact Form.parts_of_plain fun _ => rfl
  case h_4 => exact meets_pure.2 h

/-- The word `new` is where a construction begins. -/
theorem head_makes (hg : g.IsDerived) : Makes g.head := by
  intro cursor
  refine meets_look_bind.2 ?_
  refine meets_accept_bind (fun hkind => ?_) (primary_makes hg cursor)
  have hnew : Derives cursor [] cursor.next :=
    .token (.plain (hkind ▸ isPlain_keyword _ :))
  refine hnew.tree hg.callee.derived fun callee middle h => ?_
  refine meets_look_bind.2 ?_
  refine h.choice (arguments_derived hg).continued (continued_pure rfl)
    fun arguments middle h => h.finish ?_ rfl (by trivial)
  exact Form.parts_of_plain fun _ => rfl

/-- An operand is the first part of what is put around it. -/
theorem leftHand_makes (hg : g.IsDerived) (calls : Bool) :
    Makes (g.leftHand calls) := by
  intro cursor
  refine meets_look_bind.2 ((head_makes hg cursor).bind
    fun head middle hhead => ?_)
  exact Meets.iterate (I := fun owner cursor' => ∀ role : Role,
    Derives cursor [(role, role.attach cursor.token.doc owner)] cursor')
    (fun owner middle h => extend_meets hg calls h) hhead

/-- The operator is the first or the last token. -/
theorem unaryExpression_makes (hg : g.IsDerived) :
    Makes g.unaryExpression := by
  intro cursor
  refine meets_look_bind.2 ?_
  split
  · rename_i hleading
    have hkind : cursor.kind.IsPlain := by
      unfold isLeadingOperator at hleading
      split at hleading <;> simp_all [Cursor.kind]
    refine meets_bind.2 (meets_advance.2 ?_)
    have h : Derives cursor [] cursor.next := .token (.plain hkind)
    refine h.tree hg.unary.derived fun operand middle h => ?_
    exact h.finish rfl rfl (by trivial)
  · refine (leftHand_makes hg true cursor).bind fun operand middle h => ?_
    refine meets_look_bind.2 ?_
    split
    · rename_i hpostfix
      have hkind : middle.kind.IsPlain := by
        simp only [Bool.and_eq_true, Bool.or_eq_true, beq_iff_eq]
          at hpostfix
        rcases hpostfix.1 with hkind | hkind <;>
          exact (hkind ▸ isPlain_punctuator _ :)
      refine meets_bind.2 (meets_advance.2 ?_)
      exact ((h .plain).next hkind).finish rfl rfl (by trivial)
    · exact meets_pure.2 h

/-- Operands follow each other, with their operators in between. -/
theorem binaryExpression_makes (hg : g.IsDerived) (above : Nat)
    (noIn : Bool) : Makes (g.binaryExpression above noIn) := by
  intro cursor
  refine meets_look_bind.2 ((unaryExpression_makes hg cursor).bind
    fun first middle hfirst => ?_)
  refine Meets.iterate (I := fun left cursor' => ∀ role : Role,
    Derives cursor [(role, role.attach cursor.token.doc left)] cursor')
    (fun left middle hleft => ?_) hfirst
  refine meets_look_bind.2 ?_
  split
  · exact meets_pure.2 hleft
  · rename_i hbinds
    have hkind : middle.kind.IsPlain := by
      simp only [Bool.or_eq_true, decide_eq_true_eq, not_or, Nat.not_le]
        at hbinds
      exact isPlain_of_precedence (Nat.zero_lt_of_lt hbinds.1)
    refine meets_bind.2 (meets_advance.2 ?_)
    refine ((hleft .plain).next hkind).tree (hg.operand _ noIn).derived
      fun right cursor' h => ?_
    exact (h.finish rfl rfl (by trivial)).bind fun both _ hboth =>
      meets_pure.2 hboth

/-- Three parts with two tokens in between. -/
theorem conditional_makes (hg : g.IsDerived) (noIn : Bool) :
    Makes (g.conditional noIn) := by
  intro cursor
  refine meets_look_bind.2 ((binaryExpression_makes hg 0 noIn cursor).bind
    fun condition middle hcondition => ?_)
  refine meets_accept_bind (fun hkind => ?_) (meets_pure.2 hcondition)
  have h := (hcondition .plain).next (hkind ▸ isPlain_punctuator _)
  refine h.tree (hg.assignment false).derived fun whenTrue middle h => ?_
  refine h.expect (isPlain_punctuator _) fun middle h => ?_
  refine h.tree (hg.assignment noIn).derived fun whenFalse middle h => ?_
  exact h.finish rfl rfl (by trivial)

/-- A target and a value. -/
theorem assignmentExpression_makes (hg : g.IsDerived) (noIn : Bool) :
    Makes (g.assignmentExpression noIn) := by
  intro cursor
  refine meets_look_bind.2 ((conditional_makes hg noIn cursor).bind
    fun left middle hleft => ?_)
  refine meets_look_bind.2 ?_
  split
  · rename_i hassigns
    refine meets_ite ?_ (meets_fail.2 trivial)
    refine meets_bind.2 (meets_advance.2 ?_)
    have h := (hleft .plain).next (isPlain_of_isAssignment hassigns)
    refine h.tree (hg.assignment noIn).derived fun right middle h => ?_
    exact h.finish rfl rfl (by trivial)
  · exact meets_pure.2 hleft

-- ======================================================== declarations

/-- A variable, perhaps with a value. -/
theorem declaration_makes (hg : g.IsDerived) (noIn : Bool) :
    Makes (g.declaration noIn) := by
  intro cursor
  refine meets_look_bind.2 ((name_makes false cursor).bind
    fun name middle hname => ?_)
  refine (hname .plain).accept (isPlain_punctuator _) fun _ middle h => ?_
  refine h.choice (hg.assignment noIn).derived.slot (continued_pure rfl)
    fun initializer middle h => h.finish ?_ rfl (by trivial)
  cases initializer <;> rfl

/-- Declarations take the comment in front of them where they are a
statement, and none in the head of a loop. -/
theorem declarations_meets (hg : g.IsDerived) (noIn : Bool)
    (cursor : Cursor) :
    Meets (g.declarations noIn) cursor
      (fun tree cursor' => Derives cursor [(.head, tree)] cursor'
        ∧ Derives cursor [(.plain, tree.withDoc cursor.token.doc)] cursor')
      fun _ => True := by
  refine meets_look_bind.2 ?_
  refine derives_expect (isPlain_keyword _) fun middle h => ?_
  refine h.part (Derived.separated (declaration_makes hg noIn).derived).continued
    fun items middle h => meets_finish.2 ?_
  have hparts : (Form.declarations (items.map some)).parts
      = [] ++ items.flatMap fun tree => [(.plain, tree)] := by
    rw [Form.parts_of_plain fun _ => rfl]
    simp [Form.slots, List.flatMap_map]
  rw [← hparts] at h
  exact ⟨.node .head h trivial, .node .plain h trivial⟩

-- ========================================================== conditions

/-- The parentheses belong to the statement around them. -/
theorem condition_derived (hg : g.IsDerived) :
    Derived g.condition fun tree => [(.plain, tree)] := by
  intro cursor
  refine derives_expect (isPlain_punctuator _) fun middle h => ?_
  refine h.tree (expression_derived hg false) fun condition middle h => ?_
  exact h.expect (isPlain_punctuator _) fun middle h => meets_pure.2 h

/-- An expression may be absent. -/
theorem optionalExpression_continued (hg : g.IsDerived)
    (stop : Punctuator) :
    Continued (g.optionalExpression stop) partsOf := by
  intro cursor
  refine meets_look_bind.2 (meets_ite (meets_pure.2 (continues_refl _)) ?_)
  exact (expression_derived hg false).slot cursor

/-- Up to three parts. -/
theorem branch_makes (hg : g.IsDerived) (s : Surroundings) :
    Makes (g.branch s) := by
  intro cursor
  refine meets_look_bind.2 ?_
  refine derives_expect (isPlain_keyword _) fun middle h => ?_
  refine h.tree (condition_derived hg) fun condition middle h => ?_
  refine h.tree (hg.statement s) fun consequent middle h => ?_
  refine h.accept (isPlain_keyword _) fun _ middle h => ?_
  refine h.choice (hg.statement s).slot (continued_pure rfl)
    fun alternative middle h => h.finish ?_ rfl (by trivial)
  rw [Form.parts_of_plain fun _ => rfl]
  simp [Form.slots]

-- =============================================================== loops

/-- The rest of a loop whose first part has been derived in the role of a
head. -/
theorem forInTail_meets (hg : g.IsDerived) (s : Surroundings)
    {target : Tree} {cursor middle : Cursor}
    (h : Derives cursor [(.head, target)] middle) :
    Meets (g.forInTail s cursor.token.start target) middle
      (fun tree cursor' => ∀ role : Role, Derives cursor
        [(role, role.attach cursor.token.doc tree)] cursor')
      fun _ => True := by
  refine meets_ite (meets_fail.2 trivial) ?_
  refine h.tree (expression_derived hg false) fun subject middle h => ?_
  refine h.expect (isPlain_punctuator _) fun middle h => ?_
  refine h.tree (hg.statement _) fun body middle h => ?_
  exact h.finish rfl rfl (by trivial)

/-- A loop with semicolons in its head goes on behind its first part, which
may be absent. -/
theorem forTail_meets (hg : g.IsDerived) (s : Surroundings)
    {initializer : Option Tree} {cursor middle : Cursor}
    (h : Derives cursor (initializer.map (Prod.mk .head)).toList middle) :
    Meets (g.forTail s cursor.token.start initializer) middle
      (fun tree cursor' => ∀ role : Role, Derives cursor
        [(role, role.attach cursor.token.doc tree)] cursor')
      fun _ => True := by
  refine h.expect (isPlain_punctuator _) fun middle h => ?_
  refine h.part (optionalExpression_continued hg _)
    fun condition middle h => ?_
  refine h.expect (isPlain_punctuator _) fun middle h => ?_
  refine h.part (optionalExpression_continued hg _) fun step middle h => ?_
  refine h.expect (isPlain_punctuator _) fun middle h => ?_
  refine h.tree (hg.statement _) fun body middle h => ?_
  refine h.finish ?_ rfl (by trivial)
  cases initializer <;> cases condition <;> cases step <;> rfl

/-- Variables in the head of a loop take no comment, which is what the role is
for. -/
theorem forLoop_makes (hg : g.IsDerived) (s : Surroundings) :
    Makes (g.forLoop s) := by
  intro cursor
  refine meets_look_bind.2 ?_
  refine derives_expect (isPlain_keyword _) fun middle h => ?_
  refine h.expect (isPlain_punctuator _) fun middle h => ?_
  refine meets_look_bind.2 ?_
  have hrest : ∀ (first : Tree) (middle : Cursor),
      Derives cursor [(.head, first)] middle → Meets (do
        if ← accept Keyword.inWord then
          g.forInTail s cursor.token.start first
        else g.forTail s cursor.token.start (some first)) middle
        (fun tree cursor' => ∀ role : Role, Derives cursor
          [(role, role.attach cursor.token.doc tree)] cursor')
        fun _ => True := fun first middle h =>
    h.accept (isPlain_keyword _) fun isIn middle h =>
      meets_ite (forInTail_meets hg s h) (forTail_meets hg s h)
  split
  · exact forTail_meets hg s h
  · refine meets_ite ?_ ?_
    · exact (declarations_meets hg true middle).bind fun first _ hfirst =>
        hrest first _ (h.append hfirst.1)
    · exact (expression_makes hg true middle).bind fun first _ hfirst =>
        hrest first _ (h.append (hfirst .head))

/-- A loop with its condition in front. -/
theorem whileLoop_makes (hg : g.IsDerived) (s : Surroundings) :
    Makes (g.whileLoop s) := by
  intro cursor
  refine meets_look_bind.2 ?_
  refine derives_expect (isPlain_keyword _) fun middle h => ?_
  refine h.tree (condition_derived hg) fun condition middle h => ?_
  refine h.tree (hg.statement _) fun body middle h => ?_
  exact h.finish rfl rfl (by trivial)

/-- A loop with its condition behind. -/
theorem doWhile_makes (hg : g.IsDerived) (s : Surroundings) :
    Makes (g.doWhile s) := by
  intro cursor
  refine meets_look_bind.2 ?_
  refine derives_expect (isPlain_keyword _) fun middle h => ?_
  refine h.tree (hg.statement _) fun body middle h => ?_
  refine h.expect (isPlain_keyword _) fun middle h => ?_
  refine h.tree (condition_derived hg) fun condition middle h => ?_
  refine h.accept (isPlain_punctuator _) fun _ middle h => ?_
  exact h.finish rfl rfl (by trivial)

-- =============================================================== jumps

/-- A jump is read from one of its two keywords on. -/
theorem jump_meets (s : Surroundings) {cursor : Cursor}
    (hkind : cursor.kind.IsPlain) :
    Meets (jump s) cursor
      (fun tree cursor' => ∀ role : Role, Derives cursor
        [(role, role.attach cursor.token.doc tree)] cursor')
      fun _ => True := by
  refine meets_look_bind.2 (meets_look_bind.2 ?_)
  refine meets_bind.2 (meets_advance.2 ?_)
  have h : Derives cursor [] cursor.next := .token (.plain hkind)
  refine meets_look_bind.2 ?_
  refine h.choice nameSlot_continued (continued_pure rfl)
    fun label middle h => ?_
  refine meets_ite (meets_failAt.2 trivial)
    (meets_ite (meets_failAt.2 trivial) ?_)
  refine h.endStatement fun middle h => ?_
  cases cursor.kind == Keyword.breakWord <;>
    refine h.finish ?_ rfl (by trivial) <;> cases label <;> rfl

/-- A value is a part, if there is one. -/
theorem returning_makes (hg : g.IsDerived) (s : Surroundings) :
    Makes (g.returning s) := by
  intro cursor
  unfold returning
  refine meets_ite (meets_fail.2 trivial) ?_
  refine meets_look_bind.2 ?_
  refine derives_expect (isPlain_keyword _) fun middle h => ?_
  refine meets_look_bind.2 ?_
  refine h.choice (continued_pure rfl) (expression_derived hg false).slot
    fun value middle h => ?_
  refine h.endStatement fun middle h => h.finish ?_ rfl (by trivial)
  cases value <;> rfl

/-- What is thrown is a part. -/
theorem throwing_makes (hg : g.IsDerived) : Makes g.throwing := by
  intro cursor
  refine meets_look_bind.2 ?_
  refine derives_expect (isPlain_keyword _) fun middle h => ?_
  refine meets_look_bind.2 (meets_ite (meets_fail.2 trivial) ?_)
  refine h.tree (expression_derived hg false) fun value middle h => ?_
  exact h.endStatement fun middle h => h.finish rfl rfl (by trivial)

/-- The parts of a handler: the name and the block, where there is one. -/
def handlerParts (handler : Option (Tree × Tree)) : List Part :=
  partsOf (handler.map (·.1)) ++ partsOf (handler.map (·.2))

/-- Up to four parts, the handler with its name. -/
theorem trying_makes (hg : g.IsDerived) (s : Surroundings) :
    Makes (g.trying s) := by
  intro cursor
  refine meets_look_bind.2 ?_
  refine derives_expect (isPlain_keyword _) fun middle h => ?_
  have hblock := (block_makes hg s).derived
  refine h.tree hblock fun body middle h => ?_
  refine h.accept (isPlain_keyword _) fun isCaught middle h => ?_
  have hrest : ∀ (handler : Option (Tree × Tree)) (middle : Cursor),
      Derives cursor ([(.plain, body)] ++ handlerParts handler) middle →
      Meets (do
        let cleanup ←
          if ← accept Keyword.finallyWord then some <$> g.block s
          else pure none
        if handler.isNone && cleanup.isNone then fail .expectedHandler
        else
          finish cursor.token.start (.trying (some body)
            (handler.map (·.1)) (handler.map (·.2)) cleanup)) middle
        (fun tree cursor' => ∀ role : Role, Derives cursor
          [(role, role.attach cursor.token.doc tree)] cursor')
        fun _ => True := by
    intro handler middle h
    refine h.accept (isPlain_keyword _) fun isCleaned middle h => ?_
    refine h.choice hblock.slot (continued_pure rfl)
      fun cleanup middle h => meets_ite (meets_fail.2 trivial) ?_
    refine h.finish ?_ rfl (by trivial)
    rw [Form.parts_of_plain fun _ => rfl]
    simp [Form.slots, handlerParts]
  refine meets_ite ?_ (hrest none middle h)
  refine h.expect (isPlain_punctuator _) fun middle h => ?_
  refine h.tree (name_makes false).derived fun caught middle h => ?_
  refine h.expect (isPlain_punctuator _) fun middle h => ?_
  refine meets_bind.2 (meets_map.2 (meets_map.2 ((hblock middle).mono
    (fun handler cursor' hhandler => ?_) fun _ => id)))
  exact hrest (some (caught, handler)) cursor' (h.append hhandler)

-- ============================================================== switch

/-- The test of a clause, absent in the default one. -/
theorem clauseTest_derived (hg : g.IsDerived) (hasDefault : Bool) :
    Derived (g.clauseTest hasDefault) partsOf := by
  intro cursor
  refine meets_look_bind.2 ?_
  split
  case h_1 hkind =>
      refine meets_bind.2 (meets_advance.2 (meets_map.2 ?_))
      have h : Derives cursor [] cursor.next :=
        .token (.plain (hkind ▸ isPlain_keyword _ :))
      exact (expression_derived hg false cursor.next).mono
        (fun test cursor' htest => h.append htest) fun _ => id
  case h_2 hkind =>
      refine meets_ite (meets_fail.2 trivial) ?_
      exact .token (.plain (hkind ▸ isPlain_keyword _ :))
  case h_3 => exact meets_fail.2 trivial

/-- A clause is handed on with a flag, which is no part. -/
theorem clause_derived (hg : g.IsDerived) (s : Surroundings)
    (hasDefault : Bool) :
    Derived (g.clause s hasDefault) fun r => [(.plain, r.1)] := by
  intro cursor
  refine meets_look_bind.2 ((clauseTest_derived hg hasDefault cursor).bind
    fun test middle h => ?_)
  refine h.expect (isPlain_punctuator _) fun middle h => ?_
  refine h.part (statements_continued hg _) fun statements middle h => ?_
  refine (h.finish ?_ rfl (by trivial)).bind fun clause middle h =>
    meets_pure.2 (h .plain)
  rw [Form.parts_of_plain fun _ => rfl]
  simp [Form.slots]

/-- The clauses follow what is switched on. -/
theorem switch_makes (hg : g.IsDerived) (s : Surroundings) :
    Makes (g.switch s) := by
  intro cursor
  refine meets_look_bind.2 ?_
  refine derives_expect (isPlain_keyword _) fun middle h => ?_
  refine h.tree (condition_derived hg) fun subject middle h => ?_
  refine h.expect (isPlain_punctuator _) fun middle h => ?_
  refine Meets.bind (Meets.iterate (I := fun state => Derives cursor
      ([(.plain, subject)] ++ state.1.reverse.flatMap partsOf)) ?_ h)
    fun clauses middle h => h.expect (isPlain_punctuator _)
      fun middle h => ?_
  · rintro ⟨done, hasDefault⟩ middle h
    refine meets_look_bind.2 (meets_ite (meets_pure.2 h) ?_)
    refine h.part (clause_derived hg s hasDefault).continued
      fun r middle h => meets_pure.2 ?_
    simpa using h
  · refine h.finish ?_ rfl (by trivial)
    rw [Form.parts_of_plain fun _ => rfl]
    simp [Form.slots]

-- ========================================================== statements

/-- The expression in a statement takes the comment in front of it, being
documented by its role. -/
theorem expressionStatement_makes (hg : g.IsDerived) (s : Surroundings) :
    Makes (g.expressionStatement s) := by
  intro cursor
  refine meets_look_bind.2 ((expression_makes hg false cursor).bind
    fun value middle hvalue => ?_)
  refine meets_look_bind.2 ?_
  split
  · rename_i hlabel
    have hkind : middle.kind.IsPlain := by
      simp only [Bool.and_eq_true, beq_iff_eq] at hlabel
      exact (hlabel.2 ▸ isPlain_punctuator _ :)
    refine meets_bind.2 (meets_advance.2 ?_)
    refine ((hvalue .plain).next hkind).tree (hg.statement s)
      fun statement middle h => h.finish rfl rfl (by trivial)
  · refine (hvalue .documented).endStatement fun middle h => ?_
    exact h.finish rfl rfl (by trivial)

/-- A statement is a plain part wherever it stands. -/
theorem statementHere_derived (hg : g.IsDerived) (s : Surroundings) :
    Derived (g.statementHere s) fun tree => [(.plain, tree)] := by
  intro cursor
  refine meets_look_bind.2 ?_
  split
  case h_1 => exact (block_makes hg s).derived cursor
  case h_2 hkind =>
      have hempty : Meets (atom .empty) cursor _ _ :=
        atom_meets (hkind ▸ isPlain_punctuator _ :) rfl rfl fun _ => trivial
      exact hempty.mono (fun _ _ h => h .plain) fun _ => id
  -- the word `debugger` makes an empty statement
  case h_3 hkind =>
      refine meets_bind.2 (meets_advance.2 ?_)
      have h : Derives cursor [] cursor.next :=
        .token (.plain (hkind ▸ isPlain_keyword _ :))
      refine h.endStatement fun middle h => ?_
      have hempty : Meets (finish cursor.token.start .empty) middle _ _ :=
        h.finish rfl rfl trivial
      exact hempty.mono (fun _ _ h => h .plain) fun _ => id
  case h_4 =>
      refine (declarations_meets hg false cursor).bind
        fun statement middle h => ?_
      exact h.2.endStatement fun middle h => meets_pure.2 h
  case h_5 =>
      exact (function_documented hg true cursor).bind
        fun function middle h => meets_pure.2 (h .plain)
  case h_6 => exact (branch_makes hg s).derived cursor
  case h_7 => exact (forLoop_makes hg s).derived cursor
  case h_8 => exact (whileLoop_makes hg s).derived cursor
  case h_9 => exact (doWhile_makes hg s).derived cursor
  case h_10 hkind =>
      exact (jump_meets s (hkind ▸ isPlain_keyword _ :)).mono
        (fun _ _ h => h .plain) fun _ => id
  case h_11 hkind =>
      exact (jump_meets s (hkind ▸ isPlain_keyword _ :)).mono
        (fun _ _ h => h .plain) fun _ => id
  case h_12 => exact (returning_makes hg s).derived cursor
  case h_13 => exact (throwing_makes hg).derived cursor
  case h_14 => exact (trying_makes hg s).derived cursor
  case h_15 => exact (switch_makes hg s).derived cursor
  case h_16 =>
      exact meets_ite (meets_failAt.2 trivial)
        ((expressionStatement_makes hg s).derived cursor)
  case h_17 => exact (expressionStatement_makes hg s).derived cursor

-- =============================================================== depth

/-- Where nothing is yielded, nothing is to be derived. -/
theorem isDerived_exhausted : exhausted.IsDerived where
  assignment _ _ := meets_fail.2 trivial
  operand _ _ _ := meets_fail.2 trivial
  unary _ := meets_fail.2 trivial
  callee _ := meets_fail.2 trivial
  statement _ _ := meets_fail.2 trivial

/-- One nesting level further out. -/
theorem IsDerived.outer (hg : g.IsDerived) : g.outer.IsDerived where
  assignment := assignmentExpression_makes hg
  operand := binaryExpression_makes hg
  unary := unaryExpression_makes hg
  callee := leftHand_makes hg false
  statement := statementHere_derived hg

/-- At all depths, what the grammar parses is derived. -/
theorem isDerived_levels (n : Nat) : (levels n).IsDerived := by
  induction n with
  | zero => exact isDerived_exhausted
  | succ n ih => exact ih.outer

-- ============================================================ programs

/-- A program is read up to the end of the text, and no comment is left
open there. -/
theorem program_meets (hg : g.IsDerived) {text : String} {cursor : Cursor}
    (hcursor : cursor.Reached text) :
    Meets g.program cursor
      (fun tree cursor' => ∃ statements,
        tree = .node 0 cursor'.token.stop none (.file statements)
          ∧ Continues cursor (statements.flatMap partsOf) cursor'
          ∧ cursor'.kind = .endOfText
          ∧ cursor'.token.openComment = none)
      fun _ => True := by
  refine Meets.bind (Meets.many_until
    (I := fun done cursor' =>
      Continues cursor (done.flatMap partsOf) cursor')
    (Q := fun done cursor' =>
      Continues cursor (done.flatMap partsOf) cursor'
        ∧ cursor'.kind = .endOfText)
    (fun done middle hdone => ?_) (continues_refl cursor))
    fun statements middle h => meets_look_bind.2 ?_
  · refine meets_look_bind.2 ?_
    split
    · rename_i hend
      exact meets_pure.2 ⟨hdone, beq_iff_eq.1 hend⟩
    · refine (hg.statement {} middle).bind fun statement cursor' h =>
        meets_pure.2 ⟨h.remaining_lt (hdone.reached hcursor), ?_⟩
      simpa using hdone.trans (.inr h)
  · split
    · exact meets_failAt.2 trivial
    · rename_i hcomment
      exact meets_pure.2 ⟨statements, rfl, h.1, h.2, hcomment⟩

end Grammar

/-- The statements of a program are derived from its text, which has been
read to the end. -/
theorem Tree.derives_of_read {text : String} {tree : Tree}
    {cursor : Cursor} (h : Tree.read text = (.ok tree, cursor)) :
    ∃ statements,
      tree = .node 0 cursor.token.stop none (.file statements)
        ∧ Continues { lexeme := Lexeme.first text }
          (statements.flatMap partsOf) cursor
        ∧ cursor.kind = .endOfText ∧ cursor.token.openComment = none :=
  (Grammar.program_meets (Grammar.isDerived_levels _) .first).of_ok h

end ScriptLint
