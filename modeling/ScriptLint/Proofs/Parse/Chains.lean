/-
Chains of members as trees. A chain in the tree of a program is a chain in
its arena, behind the same root and with the same members
(`Arena.exists_chain_of_parse`).

Members are read in a loop and not one level further in, so the nesting
levels set no bound to a chain: a function that holds a chain of members is
a program, however many members there are (`Tree.parse_chainFunction`).

# The argument

- What has been read as a member has an owner that has been read
  (`IsReadIn.member`), and so on to the root; the arena shows these trees,
  each as a child of the next (`Shows.exists_chain`).
- For the long example, the parsers are run on the words of a chain
  (`function_chain`, `block_chain`). The loop over members is followed by
  induction on the members, so their number does not matter.
-/
import ScriptLint.Proofs.Constructors
import ScriptLint.Proofs.Parse.RoundTrip
import ScriptLint.Proofs.Syntax.Wrapping

namespace ScriptLint

open Parse

-- =============================================================== trees

namespace Tree

/-- What the members of a tree stand behind; a tree that is no member is a
chain by itself. -/
def chainRoot : Tree → Tree
  | .node _ _ _ (.member (some owner) _) => owner.chainRoot
  | tree => tree

/-- The members of a chain, from its root on. -/
def members : Tree → List String
  | .node _ _ _ (.member (some owner) name) =>
    owner.members ++ (name.bind identifier?).toList
  | _ => []

variable {t owner name : Tree} {segment : String}

theorem chainRoot_of_member (h : t.form = .member (some owner) (some name)) :
    t.chainRoot = owner.chainRoot := by
  obtain ⟨start, stop, doc, form⟩ := t
  obtain rfl : form = _ := h
  rw [chainRoot]

theorem members_of_member (h : t.form = .member (some owner) (some name))
    (hname : name.identifier? = some segment) :
    t.members = owner.members ++ [segment] := by
  obtain ⟨start, stop, doc, form⟩ := t
  obtain rfl : form = _ := h
  rw [members, Option.bind_some, hname]
  rfl

theorem chain_of_not_member
    (h : ∀ owner name, t.form ≠ .member (some owner) name) :
    t.chainRoot = t ∧ t.members = [] := by
  obtain ⟨start, stop, doc, form⟩ := t
  cases form with
  | member owner name =>
      cases owner with
      | none => exact ⟨rfl, rfl⟩
      | some owner => exact (h owner name rfl).elim
  | _ => exact ⟨rfl, rfl⟩

/-- A member that has been read has an owner and is named. -/
theorem IsReadIn.member {text : String} {role : Role}
    (h : t.IsReadIn text role) {owner name : Option Tree}
    (hform : t.form = .member owner name) :
    ∃ o n segment, owner = some o ∧ name = some n
      ∧ n.identifier? = some segment := by
  obtain ⟨-, -, -, hread⟩ := h
  obtain rfl : _ = Form.member owner name := hform
  obtain ⟨howner, n, rfl, hname⟩ := hread
  obtain ⟨o, rfl⟩ := Option.isSome_iff_exists.1 howner
  obtain ⟨segment, hsegment⟩ := Option.isSome_iff_exists.1 hname
  exact ⟨o, n, segment, rfl, rfl, hsegment⟩

/-- The children of a tree that has been read have been read. -/
theorem Holds.exists_isReadIn {text : String} {child : Tree}
    (h : t.Holds text) (hchild : child ∈ t.form.children) :
    ∃ role, child.IsReadIn text role := by
  obtain ⟨role, hpart⟩ := Form.exists_role hchild
  exact ⟨role, h.isReadIn _ hpart⟩

end Tree

-- =============================================================== arena

namespace Arena

variable {arena : Arena} {lines : Text.LineMap} {text : String}
  {i : Nat} {t : Tree}

/-- Every child of a tree is shown by a child of the node. -/
theorem Shows.exists_number (h : arena.Shows lines i t) {child : Tree}
    (hchild : child ∈ t.form.children) :
    ∃ k ∈ arena.childrenOf i, arena.Shows lines k child := by
  obtain ⟨joint, hform, htree, hshown⟩ := h.split
  rw [htree, Form.mem_children, Form.slots_map] at hchild
  obtain ⟨⟨ref, part⟩, hslot, heq⟩ := List.mem_map.1 hchild
  obtain rfl : part = some child := heq
  cases (show Option.Rel _ ref _ from hshown _ hslot) with
  | @some k _ hk =>
      refine ⟨k, ?_, hk⟩
      rw [childrenOf, hform, Option.elim_some]
      exact Form.mem_children.2 (Form.mem_slots_map Prod.fst hslot)

theorem Shows.member (h : arena.Shows lines i t) {owner name : Tree}
    (hform : t.form = .member (some owner) (some name)) :
    ∃ o n, arena.form? (some i) = some (.member (some o) (some n))
      ∧ arena.Shows lines o owner ∧ arena.Shows lines n name := by
  obtain ⟨joint, hnode, htree, hshown⟩ := h.split
  rw [htree] at hform
  cases joint with
  | member first second =>
      obtain ⟨o, part⟩ := first
      obtain ⟨n, part'⟩ := second
      cases hform
      cases (show Option.Rel _ o _ from hshown _ (.head _)) with
      | some ho =>
          cases (show Option.Rel _ n _ from hshown _ (.tail _ (.head _))) with
          | some hn => exact ⟨_, _, hnode, ho, hn⟩
  | _ => cases hform

/-- So the children of a tree that has been read are at hand. -/
theorem Shows.exists_read (h : arena.Shows lines i t) (hholds : t.Holds text)
    {child : Tree} (hchild : child ∈ t.form.children) :
    ∃ k ∈ arena.childrenOf i, arena.Shows lines k child
      ∧ ∃ role, child.IsReadIn text role := by
  obtain ⟨k, hk, hshows⟩ := h.exists_number hchild
  exact ⟨k, hk, hshows, hholds.exists_isReadIn hchild⟩

/-- What has been read is a chain in the arena as it is in the tree. -/
theorem Shows.exists_chain (h : arena.Shows lines i t) {role : Role}
    (hread : t.IsReadIn text role) :
    ∃ r, arena.Shows lines r t.chainRoot
      ∧ arena.MemberChain (some r) (some i) t.members
      ∧ ∀ owner name, t.chainRoot.form ≠ .member owner name := by
  induction t using Tree.induct generalizing i role with
  | node start stop doc form ih =>
      by_cases hmember : ∃ owner name, form = .member owner name
      · obtain ⟨_, _, rfl⟩ := hmember
        obtain ⟨owner, name, segment, rfl, rfl, hsegment⟩ :=
          hread.member rfl
        obtain ⟨o, n, hform, howner, hname⟩ := h.member rfl
        have hchild : owner ∈ (Form.member (some owner) (some name)).children :=
          Form.mem_children.2 (.head _)
        obtain ⟨role', howned⟩ := hread.holds.exists_isReadIn hchild
        obtain ⟨r, hroot, hchain, hend⟩ := ih owner hchild howner howned
        rw [Tree.chainRoot_of_member rfl,
          Tree.members_of_member rfl hsegment]
        exact ⟨r, hroot, .member hform (hname.identifier? hsegment) hchain,
          hend⟩
      · rw [not_exists] at hmember
        have hself := Tree.chain_of_not_member (t := .node start stop doc form)
          fun owner name heq => hmember (some owner) ⟨name, heq⟩
        rw [hself.1, hself.2]
        exact ⟨i, h, .root, fun owner name heq => hmember owner ⟨name, heq⟩⟩

/-- Every node of a program is the end of a chain, if only of one without
members. -/
theorem exists_chain_of_parse (lines : Text.LineMap) {tree : Tree}
    (h : Tree.parse text = .ok tree) (hi : i < (ofTree lines tree).2.size) :
    ∃ t r, (ofTree lines tree).2.Shows lines i t
      ∧ (ofTree lines tree).2.Shows lines r t.chainRoot
      ∧ (ofTree lines tree).2.MemberChain (some r) (some i) t.members
      ∧ ∀ owner name, t.chainRoot.form ≠ .member owner name := by
  have horigin : (ofTree lines tree).2.Origin text lines _ i :=
    origin_of_parse h hi
  obtain ⟨t, hshows, -, ⟨rfl, hroot⟩ | ⟨p, form, role, -, -, -, hread⟩⟩ :=
    horigin
  · obtain ⟨cursor, hrun⟩ := Tree.parse_eq_ok.1 hroot
    obtain ⟨statements, hfile, -⟩ := Tree.derives_of_read hrun
    have hself : t.chainRoot = t ∧ t.members = [] :=
      Tree.chain_of_not_member (by rw [hfile]; rintro _ _ ⟨⟩)
    refine ⟨t, (ofTree lines tree).1, hshows, ?_, ?_, ?_⟩
    · rw [hself.1]
      exact hshows
    · rw [hself.2]
      exact .root
    · rw [hself.1, hfile]
      rintro _ _ ⟨⟩
  · obtain ⟨r, hr, hchain, hend⟩ := hshows.exists_chain hread
    exact ⟨t, r, hshows, hr, hchain, hend⟩

end Arena

-- ============================================================ programs

/-- A chain of members behind an identifier. -/
def Tree.IsChain (root : String) (members : List String) (t : Tree) : Prop :=
  t.chainRoot.form = .identifier root ∧ t.members = members

theorem Tree.form_withDoc (doc : Option String) (t : Tree) :
    (t.withDoc doc).form = t.form := by
  cases t
  rfl

theorem Tree.IsChain.withDoc {root : String} {members : List String}
    {t : Tree} (h : t.IsChain root members) (doc : Option String) :
    (t.withDoc doc).IsChain root members := by
  obtain ⟨start, stop, own, form⟩ := t
  cases form with
  | member owner name => cases owner <;> exact h
  | _ => exact h

/-- A statement that is a chain. -/
def Tree.StatesChain (root : String) (members : List String) (t : Tree) :
    Prop :=
  ∃ value, t.form = .expression (some value) ∧ value.IsChain root members

/-- A block of one such statement. -/
def Tree.BlocksChain (root : String) (members : List String) (t : Tree) :
    Prop :=
  ∃ statement, t.form = .block [some statement]
    ∧ statement.StatesChain root members

/-- A function with such a block as its body. -/
def Tree.RunsChain (root : String) (members : List String) (t : Tree) :
    Prop :=
  ∃ name body, t.form = .function (some name) [] (some body) true
    ∧ body.BlocksChain root members

/-- The words of members behind what owns them. -/
def Word.dotted (members : List String) : List Word :=
  members.flatMap fun name => [.mark .dot, .ofName name]

namespace Grammar

variable {g : Grammar} {root : String} {members : List String}
  {rest : List Word} {cursor : Cursor} {E : SyntaxError → Prop}

/-- The loop over members goes on to the last one. -/
theorem extend_chain (g : Grammar) (start : Nat)
    (hrest : (headKind rest).level < 15) {t : Tree} {front : List String}
    (ht : t.IsChain root front)
    (hat : cursor.At (Word.dotted members ++ rest)) :
    Meets (iterate (g.extend true start) t) cursor (fun t' cursor' =>
      t'.IsChain root (front ++ members) ∧ cursor'.At rest
        ∧ cursor'.remaining ≤ cursor.remaining) E := by
  induction members generalizing t front cursor with
  | nil =>
      refine meets_iterate_stop ((extend_stops g true start (.inl hrest)
        hat).mono ?_ fun _ => id)
      rintro _ _ ⟨rfl, rfl⟩
      rw [List.append_nil]
      exact ⟨rfl, ht, hat, Nat.le_refl _⟩
  | cons name members ih =>
      refine meets_iterate_more ((extend_dot g true start hat).mono ?_
        fun _ => id)
      rintro _ middle ⟨t', n, rfl, hform, hn, hpast⟩
      have hname : n.identifier? = some name := by
        obtain ⟨_, _, _, _⟩ := n
        obtain rfl := hn
        rfl
      have ht' : t'.IsChain root (front ++ [name]) := by
        refine ⟨?_, ?_⟩
        · rw [Tree.chainRoot_of_member hform, ht.1]
        · rw [Tree.members_of_member hform hname, ht.2]
      refine ⟨t', rfl, hpast.2, (ih ht' hpast.1).mono ?_ fun _ => id⟩
      rintro r last ⟨hr, hlast, hle⟩
      rw [List.append_assoc] at hr
      exact ⟨hr, hlast, Nat.le_trans hle (Nat.le_of_lt hpast.2)⟩

theorem leftHand_chain (g : Grammar) (hrest : (headKind rest).level < 15)
    (hat : cursor.At (.identifier root :: (Word.dotted members ++ rest))) :
    Meets (g.leftHand true) cursor (fun t cursor' =>
      t.IsChain root members ∧ cursor.Past rest cursor') E := by
  rw [leftHand, meets_bind, meets_here, head, meets_bind, meets_bind,
    meets_here]
  have hother : headKind (.identifier root :: (Word.dotted members ++ rest))
      ≠ Keyword.newWord := by rintro ⟨⟩
  refine (meets_accept_other hat hother).bind ?_
  rintro _ now ⟨rfl, rfl⟩
  have hprimary : Meets g.primary now (fun t cursor' =>
      t.form = .identifier root
        ∧ now.Past (Word.dotted members ++ rest) cursor') E := by
    rw [primary, meets_bind, meets_look]
    simp only [hat.token.kind_eq, Word.kind]
    exact meets_name_at hat rfl
  refine hprimary.mono ?_ fun _ => id
  rintro t middle ⟨ht, hmiddle⟩
  have hself := Tree.chain_of_not_member (t := t)
    (by rw [ht]; rintro _ _ ⟨⟩)
  have hchain : t.IsChain root [] := by
    refine ⟨?_, hself.2⟩
    rw [hself.1, ht]
  refine (extend_chain g _ hrest hchain hmiddle.1).mono ?_ fun _ => id
  rintro r last ⟨hr, hlast, hle⟩
  exact ⟨hr, hlast, Nat.lt_of_le_of_lt hle hmiddle.2⟩

/-- On the way from a whole expression to its members only one nesting
level is entered. -/
theorem expression_chain (g : Grammar) (hrest : (headKind rest).level = 0)
    (hat : cursor.At (.identifier root :: (Word.dotted members ++ rest))) :
    Meets (g.outer.expression false) cursor (fun t cursor' =>
      t.IsChain root members ∧ cursor.Past rest cursor') E := by
  have hfirst : ¬isLeadingOperator cursor.token.kind = true := by
    rw [hat.token.kind_eq]
    exact Bool.false_ne_true
  have hunary := meets_unaryExpression
    (leftHand_chain g (E := E) (by omega) hat) hfirst (by omega)
  have hbinary : Meets (g.binaryExpression 0 false) cursor (fun t cursor' =>
      t.IsChain root members ∧ cursor.Past rest cursor') E := by
    rw [binaryExpression_eq, meets_bind, meets_here]
    refine hunary.bind fun t last hread => meets_iterate_stop ?_
    refine (binaryStep_stops g _ t (by omega) hread.2.1).mono ?_ fun _ => id
    rintro _ _ ⟨rfl, rfl⟩
    exact ⟨rfl, hread⟩
  have hassignment : Meets (g.outer.assignment false) cursor
      (fun t cursor' => t.IsChain root members ∧ cursor.Past rest cursor')
      E :=
    meets_assignmentExpression (meets_conditional hbinary (by omega))
      (by omega)
  rw [expression_eq, meets_bind, meets_here]
  refine hassignment.bind fun t last hread => meets_iterate_stop ?_
  refine (commaStep_stops g.outer _ t hrest hread.2.1).mono ?_ fun _ => id
  rintro _ _ ⟨rfl, rfl⟩
  exact ⟨rfl, hread⟩

/-- A chain and a semicolon are a statement. -/
theorem statement_chain (g : Grammar) (s : Surroundings)
    (hroot : root ≠ "with")
    (hat : cursor.At (.identifier root
      :: (Word.dotted members ++ .mark .semicolon :: rest))) :
    Meets (g.outer.outer.statement s) cursor (fun t cursor' =>
      t.StatesChain root members ∧ cursor.Past rest cursor') E := by
  refine meets_statementHere (by simpa [Word.opens] using hroot) hat ?_
  rw [expressionStatement, meets_bind, meets_look]
  refine (expression_chain g rfl hat).bind ?_
  rintro value middle ⟨hvalue, hmiddle⟩
  have hplain : ¬(value.identifier?.isSome
      && (headKind (.mark .semicolon :: rest) == Punctuator.colon))
        = true := by
    rw [show (headKind (.mark .semicolon :: rest) == Punctuator.colon)
      = false from rfl, Bool.and_false]
    exact Bool.false_ne_true
  rw [meets_bind, meets_isAt, hmiddle.1.kind, if_neg hplain]
  refine (meets_endStatement_at hmiddle.1 rfl).bind fun _ last hlast => ?_
  exact ⟨⟨_, rfl, hvalue.withDoc _⟩, hmiddle.trans hlast⟩

/-- The words of a block with one statement, a chain. -/
def chainBlock (root : String) (members : List String) : List Word :=
  .mark .openBrace :: .identifier root
    :: (Word.dotted members ++ [.mark .semicolon, .mark .closeBrace])

theorem block_chain (g : Grammar) (s : Surroundings)
    (hroot : root ≠ "with")
    (hat : cursor.At (chainBlock root members ++ rest)) :
    Meets (g.outer.outer.block s) cursor (fun t cursor' =>
      t.BlocksChain root members ∧ cursor.Past rest cursor') E := by
  rw [chainBlock, List.cons_append, List.cons_append, List.append_assoc]
    at hat
  rw [block, meets_bind, meets_here]
  refine (meets_expect_at hat rfl).bind fun _ inside hinside => ?_
  refine Meets.bind (Meets.many_until
    (I := fun done now => (done = [] ∧ now = inside)
      ∨ ∃ statement, done = [some statement]
        ∧ statement.StatesChain root members
        ∧ cursor.Past (.mark .closeBrace :: rest) now)
    (Q := fun done now => ∃ statement, done = [some statement]
      ∧ statement.StatesChain root members
      ∧ cursor.Past (.mark .closeBrace :: rest) now)
    ?_ (.inl ⟨rfl, rfl⟩)) ?_
  · rintro done now (⟨rfl, rfl⟩ | hdone)
    · rw [meets_bind, meets_look, hinside.1.kind]
      refine (statement_chain g s hroot hinside.1).bind ?_
      rintro statement last ⟨hstatement, hlast⟩
      exact ⟨hlast.2, .inr ⟨statement, rfl, hstatement,
        hinside.trans hlast⟩⟩
    · obtain ⟨statement, rfl, hstatement, hnow⟩ := hdone
      rw [meets_bind, meets_look, hnow.1.kind]
      exact ⟨statement, rfl, hstatement, hnow⟩
  · rintro _ last ⟨statement, rfl, hstatement, hlast⟩
    refine (meets_expect_at hlast.1 rfl).bind fun _ behind hbehind => ?_
    exact ⟨⟨statement, rfl, hstatement⟩, hlast.trans hbehind⟩

/-- The words of a function with such a block as its body. -/
def chainFunction (name root : String) (members : List String) :
    List Word :=
  .keyword .functionWord :: .identifier name :: .mark .openParen
    :: .mark .closeParen :: chainBlock root members

theorem function_chain (g : Grammar) {name : String}
    (hroot : root ≠ "with")
    (hat : cursor.At (chainFunction name root members ++ rest)) :
    Meets (g.outer.outer.outer.statement {}) cursor (fun t cursor' =>
      t.RunsChain root members ∧ cursor.Past rest cursor') E := by
  rw [chainFunction, List.cons_append, List.cons_append, List.cons_append,
    List.cons_append] at hat
  -- the function takes two nesting levels, for itself and for its block
  have hfunction : Meets (g.outer.outer.function true) cursor
      (fun t cursor' => t.RunsChain root members
        ∧ cursor.Past rest cursor') E := by
    rw [function, meets_bind, meets_here]
    refine (meets_expect_at hat rfl).bind fun _ atName hname => ?_
    have hslot : Meets (some <$> Parse.name false) atName
        (fun slot cursor' => (∃ n, slot = some n) ∧ atName.Past
          (.mark .openParen :: .mark .closeParen
            :: (chainBlock root members ++ rest)) cursor') E := by
      refine meets_map.2 ((meets_name_at hname.1 rfl).mono ?_ fun _ => id)
      exact fun n _ hread => ⟨⟨n, rfl⟩, hread.2⟩
    rw [meets_bind, meets_isAt]
    dsimp only
    rw [if_pos rfl]
    refine hslot.bind ?_
    rintro _ atParen ⟨⟨n, rfl⟩, hparen⟩
    refine (meets_expect_at hparen.1 rfl).bind fun _ inside hinside => ?_
    rw [meets_bind, meets_isAt, hinside.1.kind]
    refine (meets_expect_at hinside.1 rfl).bind fun _ atBlock hblock => ?_
    refine (block_chain g _ hroot hblock.1).bind ?_
    rintro body last ⟨hbody, hlast⟩
    refine ⟨⟨n, body, rfl, hbody⟩, ?_⟩
    exact (((hname.trans hparen).trans hinside).trans hblock).trans hlast
  show Meets (g.outer.outer.statementHere {}) cursor _ E
  rw [statementHere, meets_bind, meets_look]
  simp only [hat.token.kind_eq, Word.kind]
  refine hfunction.bind fun t last hread => ?_
  obtain ⟨⟨n, body, hform, hbody⟩, hlast⟩ := hread
  refine ⟨⟨n, body, ?_, hbody⟩, hlast⟩
  rw [Tree.form_withDoc, hform]

theorem program_chain (g : Grammar) {name : String}
    (hroot : root ≠ "with")
    (hat : cursor.At (chainFunction name root members)) :
    Meets g.outer.outer.outer.program cursor (fun t _ => ∃ function,
      t.form = .file [some function] ∧ function.RunsChain root members)
      E := by
  rw [← List.append_nil (chainFunction name root members)] at hat
  rw [program]
  refine Meets.bind (Meets.many_until
    (I := fun done now => (done = [] ∧ now = cursor) ∨ ∃ function,
      done = [some function] ∧ function.RunsChain root members
        ∧ now.At [])
    (Q := fun done now => ∃ function, done = [some function]
      ∧ function.RunsChain root members ∧ now.At [])
    ?_ (.inl ⟨rfl, rfl⟩)) ?_
  · rintro done now (⟨rfl, rfl⟩ | ⟨function, rfl, hruns, hend⟩)
    · rw [meets_bind, meets_isAt, hat.kind]
      refine (function_chain g hroot hat).bind ?_
      rintro function last ⟨hruns, hlast⟩
      exact ⟨hlast.2, .inr ⟨function, rfl, hruns, hlast.1⟩⟩
    · rw [meets_bind, meets_isAt, hend.kind]
      exact ⟨function, rfl, hruns, hend⟩
  · rintro _ last ⟨function, rfl, hruns, hend⟩
    rw [meets_bind, meets_look, hend.openComment]
    exact ⟨function, rfl, hruns⟩

end Grammar

open Grammar in
/-- A function with a chain in its body is a program, however long the
chain is. -/
theorem Tree.parse_chainFunction {name root : String}
    {members : List String}
    (hname : (Word.identifier name).isValid = true)
    (hroot : (Word.identifier root).isValid = true) (hwith : root ≠ "with")
    (hmembers : ∀ word ∈ members, Word.isName word.toList = true) :
    Tree.Parses (Word.line (chainFunction name root members)) fun tree =>
      ∃ function, tree.form = .file [some function]
        ∧ function.RunsChain root members := by
  have hvalid : ∀ w ∈ chainFunction name root members,
      w.isValid = true := by
    have hdotted : ∀ w ∈ Word.dotted members, w.isValid = true := by
      intro w hw
      obtain ⟨word, hword, hw⟩ := List.mem_flatMap.1 hw
      rcases List.mem_pair.1 hw with rfl | rfl
      · rfl
      · exact Word.isValid_ofName (hmembers word hword)
    simp only [chainFunction, chainBlock, List.forall_mem_cons,
      List.forall_mem_append]
    exact ⟨rfl, hname, rfl, rfl, rfl, hroot, hdotted, rfl, rfl,
      List.forall_mem_nil _⟩
  have hspells : Spells (Word.line (chainFunction name root members)).toList
      (chainFunction name root members) := by
    have h := spells_line hvalid (.inl (rfl : [] = [])) Word.ends_nil
      Spells.nil (List.cons_ne_nil _ _)
    rwa [List.append_nil, List.append_nil, List.nil_append] at h
  have hat : Cursor.At
      { lexeme := Lexeme.first (Word.line (chainFunction name root members)) }
      (chainFunction name root members) :=
    Lexeme.reads_of_spells hspells 0 rfl
  have hmeets : Meets (levels maxDepth).program _ _ fun _ => False :=
    program_chain (levels 253) hwith hat
  rcases Tree.parse_of_meets hmeets with
    ⟨_, -, hfalse⟩ | ⟨tree, _, hparse, hfile⟩
  · exact hfalse.elim
  · exact ⟨tree, hparse, hfile⟩

/-- The nodes of such a function, from the root of the chain upwards: the
chain, the statement, the block and the function, and then the program. -/
theorem Arena.exists_nodes_chain (lines : Text.LineMap) {text root : String}
    {members : List String} {tree function : Tree}
    (h : Tree.parse text = .ok tree) (hfile : tree.form = .file [some function])
    (hruns : function.RunsChain root members) :
    let arena := (ofTree lines tree).2
    ∃ r v s b f value, arena.MemberChain (some r) (some v) members
      ∧ arena.Shows lines r value.chainRoot
      ∧ arena.Shows lines v value ∧ value.IsChain root members
      ∧ v ∈ arena.childrenOf s ∧ s ∈ arena.childrenOf b
      ∧ b ∈ arena.childrenOf f
      ∧ f ∈ arena.childrenOf (ofTree lines tree).1
      ∧ arena.isFunction (some s) = false
      ∧ arena.isFunction (some b) = false
      ∧ arena.isFunction (some f) = true := by
  intro arena
  obtain ⟨name, body, hfunction, statement, hblock, value, hstatement,
    hvalue⟩ := hruns
  have htop : arena.Shows lines (ofTree lines tree).1 tree :=
    (isTree_shows_ofTree tree).2
  have hinFile : function ∈ tree.form.children := by
    rw [hfile]
    exact List.mem_singleton_self _
  have hinFunction : body ∈ function.form.children := by
    rw [hfunction]
    exact List.mem_cons_of_mem _ (.head _)
  have hinBlock : statement ∈ body.form.children := by
    rw [hblock]
    exact List.mem_singleton_self _
  have hinStatement : value ∈ statement.form.children := by
    rw [hstatement]
    exact List.mem_singleton_self _
  -- from the file down to the value, one level after the other
  obtain ⟨f, hf, hfshows, _, hfread⟩ :=
    htop.exists_read (Tree.holds_of_parse h) hinFile
  obtain ⟨b, hb, hbshows, _, hbread⟩ :=
    hfshows.exists_read hfread.holds hinFunction
  obtain ⟨s, hs, hsshows, _, hsread⟩ :=
    hbshows.exists_read hbread.holds hinBlock
  obtain ⟨v, hv, hvshows, _, hvread⟩ :=
    hsshows.exists_read hsread.holds hinStatement
  obtain ⟨r, hr, hchain, -⟩ := hvshows.exists_chain hvread
  rw [hvalue.2] at hchain
  refine ⟨r, v, s, b, f, value, hchain, hr, hvshows, hvalue, hv, hs, hb,
    hf, ?_, ?_, ?_⟩
  · obtain ⟨_, _, _, _⟩ := statement
    obtain rfl := hstatement
    exact hsshows.isFunction_eq
  · obtain ⟨_, _, _, _⟩ := body
    obtain rfl := hblock
    exact hbshows.isFunction_eq
  · obtain ⟨_, _, _, _⟩ := function
    obtain rfl := hfunction
    exact hfshows.isFunction_eq

/-- The members of a chain that is as long as a walk may be. -/
def longMembers : List String := List.replicate Arena.walkLimit "a"

theorem length_longMembers : longMembers.length = Arena.walkLimit :=
  List.length_replicate

/-- A function that holds such a chain. -/
def longChain : String :=
  Word.line (Grammar.chainFunction "f" "x" longMembers)

theorem parses_longChain :
    Tree.Parses longChain fun tree => ∃ function,
      tree.form = .file [some function]
        ∧ function.RunsChain "x" longMembers := by
  apply Tree.parse_chainFunction
  · decide +kernel
  · decide +kernel
  · decide
  · intro word hword
    rw [List.eq_of_mem_replicate hword]
    decide +kernel

end ScriptLint
