/-
Written expressions. An expression is written word by word, with single
blanks in between; nothing but its words tells how it is built, so every
operand must be of a level that its place calls for, or be put in
parentheses. The levels are, from the loosest on:

    1 comma, 2 assignment, 3 conditional, 4 to 13 the binary operators
    by their precedence, 14 unary operators, 15 members, elements and
    calls, 16 everything else.

A token that could go on with an expression has a level as well, that of
the expression it would make (`TokenKind.level`).

The second half of the file turns a level into the forms that an expression
may have: one that is of level 4 at least is binary or of level 14 at
least, and so on upwards (`WellFormed.binary_or` and its neighbours). That
is how a proof goes along the parsers for operands, each of which either
finds its own operator or hands on what the next one has read.
-/
import ScriptLint.Parse.Expression
import ScriptLint.Proofs.Token.Lines

namespace ScriptLint

-- ============================================================== levels

/-- The level of the expression that a token goes on with; 0 when it goes
on with none. -/
def TokenKind.level (kind : TokenKind) : Nat :=
  match kind with
  | .punctuator .comma => 1
  | .punctuator .question => 3
  | .punctuator .plusPlus | .punctuator .minusMinus => 14
  | .punctuator .dot | .punctuator .openBracket
  | .punctuator .openParen => 15
  | kind =>
    if kind.isAssignment then 2
    else if kind.precedence = 0 then 0
    else 3 + kind.precedence

namespace TokenKind

variable {kind : TokenKind} {n : Nat}

/-- Kinds of different levels differ. -/
theorem ne_of_level_ne {other : TokenKind} (h : kind.level ≠ other.level) :
    kind ≠ other :=
  fun heq => h (congrArg _ heq)

/-- There are ten precedences. -/
theorem precedence_le (kind : TokenKind) : kind.precedence ≤ 10 := by
  unfold precedence
  split <;> decide

/-- The binary operators are those that make expressions of the levels
from 4 to 13. -/
theorem level_of_precedence_pos (h : 0 < kind.precedence) :
    kind.level = 3 + kind.precedence := by
  cases kind with
  | punctuator p => cases p <;> first | rfl | cases h
  | keyword k => cases k <;> first | rfl | cases h
  | _ => cases h

/-- What goes on with a level below the binary ones has no precedence to speak
of. -/
theorem precedence_le_of_level_lt (h : kind.level < 4 + n) :
    kind.precedence ≤ n := by
  rcases Nat.eq_zero_or_pos kind.precedence with hzero | hpos
  · omega
  · have := level_of_precedence_pos hpos
    omega

/-- Binary operators and the comma are below the unary ones. -/
theorem level_of_binary
    (h : kind = Punctuator.comma ∨ 0 < kind.precedence) :
    0 < kind.level ∧ kind.level < 14 := by
  rcases h with rfl | h
  · decide
  · have hle := kind.precedence_le
    rw [level_of_precedence_pos h]
    omega

/-- All assignments are of one level. -/
theorem level_of_isAssignment (h : kind.isAssignment = true) :
    kind.level = 2 := by
  cases kind with
  | punctuator p => cases p <;> first | rfl | cases h
  | _ => cases h

/-- A comma does not assign. -/
theorem isAssignment_of_level_lt (h : kind.level < 2) :
    kind.isAssignment = false := by
  rw [← Bool.not_eq_true]
  intro hassignment
  have := level_of_isAssignment hassignment
  omega

end TokenKind

-- ========================================================= expressions

/-- The expressions of the dialect, but for regular expressions, object
literals, functions, and arrays with holes. -/
inductive Expr where
  | identifier (name : String)
  | thisRef
  | null
  | boolean (value : Bool)
  | number (text : String)
  /-- A string, written in the given quotes. -/
  | string (quote : Char) (value : String)
  | paren (inner : Expr)
  | array (elements : List Expr)
  | member (owner : Expr) (name : String)
  | element (owner index : Expr)
  | call (callee : Expr) (arguments : List Expr)
  | construct (callee : Expr) (arguments : List Expr)
  | unary (operator : Word) (operand : Expr) (leading : Bool)
  | binary (left : Expr) (operator : Word) (right : Expr)
  | conditional (condition whenTrue whenFalse : Expr)
  | assignment (left : Expr) (operator : Word) (right : Expr)
  deriving Repr

/-- The word for the name of a member, which may be a keyword. -/
def Word.ofName (name : String) : Word :=
  match Keyword.ofText? name with
  | some k => .keyword k
  | none => .identifier name

/-- The name of a member is spelled by its word. -/
theorem Word.value_ofName (name : String) : (ofName name).value = name := by
  unfold ofName
  split
  · rename_i k hk
    exact eq_of_beq (List.find?_some hk :)
  · rfl

/-- Behind a dot any name will do, a keyword as well. -/
theorem Word.kind_ofName (name : String) :
    ((ofName name).kind == .identifier
      || (true && (ofName name).kind.isKeyword)) = true := by
  unfold ofName
  split <;> rfl

namespace Expr

mutual

/-- The words of an expression. -/
def words : Expr → List Word
  | .identifier name => [.identifier name]
  | .thisRef => [.keyword .thisWord]
  | .null => [.keyword .nullWord]
  | .boolean value => [.keyword (if value then .trueWord else .falseWord)]
  | .number text => [.number text]
  | .string quote value => [.string quote value]
  | .paren inner => .mark .openParen :: (inner.words ++ [.mark .closeParen])
  | .array elements =>
    .mark .openBracket :: (itemWords elements ++ [.mark .closeBracket])
  | .member owner name => owner.words ++ [.mark .dot, .ofName name]
  | .element owner index =>
    owner.words ++ .mark .openBracket :: (index.words ++ [.mark .closeBracket])
  | .call callee arguments =>
    callee.words
      ++ .mark .openParen :: (itemWords arguments ++ [.mark .closeParen])
  | .construct callee arguments =>
    .keyword .newWord :: (callee.words
      ++ .mark .openParen :: (itemWords arguments ++ [.mark .closeParen]))
  | .unary operator operand true => operator :: operand.words
  | .unary operator operand false => operand.words ++ [operator]
  | .binary left operator right => left.words ++ operator :: right.words
  | .conditional condition whenTrue whenFalse =>
    condition.words ++ .mark .question
      :: (whenTrue.words ++ .mark .colon :: whenFalse.words)
  | .assignment left operator right => left.words ++ operator :: right.words

/-- The words of several expressions, with commas in between. -/
def itemWords : List Expr → List Word
  | [] => []
  | e :: es => e.words ++ moreWords es

/-- The words of several expressions, with a comma before each. -/
def moreWords : List Expr → List Word
  | [] => []
  | e :: es => .mark .comma :: (e.words ++ moreWords es)

end

mutual

/-- Whether a tree is that of an expression, wherever it was found and
whatever its documentation. -/
def ShownBy : Expr → Tree → Prop
  | .identifier name, tree => tree.form = .identifier name
  | .thisRef, tree => tree.form = .thisRef
  | .null, tree => tree.form = .null
  | .boolean value, tree => tree.form = .boolean value
  | .number text, tree => tree.form = .number text
  | .string _ value, tree => tree.form = .string value
  | .paren inner, tree =>
    ∃ t, tree.form = .paren (some t) ∧ inner.ShownBy t
  | .array elements, tree =>
    ∃ slots, tree.form = .array slots ∧ AllShown elements slots
  | .member owner name, tree =>
    ∃ t n, tree.form = .member (some t) (some n) ∧ owner.ShownBy t
      ∧ n.form = .identifier name
  | .element owner index, tree =>
    ∃ t i, tree.form = .element (some t) (some i) ∧ owner.ShownBy t
      ∧ index.ShownBy i
  | .call callee arguments, tree =>
    ∃ t slots, tree.form = .call (some t) slots ∧ callee.ShownBy t
      ∧ AllShown arguments slots
  | .construct callee arguments, tree =>
    ∃ t slots, tree.form = .construct (some t) slots ∧ callee.ShownBy t
      ∧ AllShown arguments slots
  | .unary operator operand leading, tree =>
    ∃ t, tree.form = .unary operator.kind (some t) leading
      ∧ operand.ShownBy t
  | .binary left operator right, tree =>
    ∃ l r, tree.form = .binary (some l) operator.kind (some r)
      ∧ left.ShownBy l ∧ right.ShownBy r
  | .conditional condition whenTrue whenFalse, tree =>
    ∃ c t f, tree.form = .conditional (some c) (some t) (some f)
      ∧ condition.ShownBy c ∧ whenTrue.ShownBy t ∧ whenFalse.ShownBy f
  | .assignment left operator right, tree =>
    ∃ l r, tree.form = .assignment (some l) operator.kind (some r)
      ∧ left.ShownBy l ∧ right.ShownBy r

/-- Whether slots are filled with the trees of several expressions. -/
def AllShown : List Expr → List (Option Tree) → Prop
  | [], slots => slots = []
  | e :: es, slots =>
    ∃ t more, slots = some t :: more ∧ e.ShownBy t ∧ AllShown es more

end

/-- Documentation does not matter. -/
theorem ShownBy.withDoc {e : Expr} {tree : Tree} (h : e.ShownBy tree)
    (doc : Option String) : e.ShownBy (tree.withDoc doc) := by
  obtain ⟨start, stop, own, form⟩ := tree
  cases e <;> exact h

/-- One more expression is shown by one more tree. -/
theorem AllShown.concat {es : List Expr} {slots : List (Option Tree)}
    (h : AllShown es slots) {e : Expr} {t : Tree} (ht : e.ShownBy t) :
    AllShown (es ++ [e]) (slots ++ [some t]) := by
  induction es generalizing slots with
  | nil =>
      obtain rfl : slots = [] := h
      exact ⟨t, [], rfl, ht, rfl⟩
  | cons x es ih =>
      obtain ⟨first, more, rfl, hfirst, hmore⟩ := h
      exact ⟨first, more ++ [some t], rfl, hfirst, ih hmore⟩

-- ======================================================== well-formed

/-- The level of an expression. -/
def level : Expr → Nat
  | .binary _ operator _ => operator.kind.level
  | .assignment _ _ _ => 2
  | .conditional _ _ _ => 3
  | .unary _ _ _ => 14
  | .member _ _ | .element _ _ | .call _ _ => 15
  | _ => 16

/-- Whether an expression may be assigned to, parentheses or not. -/
def isTarget : Expr → Bool
  | .paren inner => inner.isTarget
  | .identifier _ | .member _ _ | .element _ _ | .call _ _ => true
  | _ => false

/-- Whether an expression is a call or a member of one, and so on, outside
parentheses. -/
def callsOnSpine : Expr → Bool
  | .member owner _ | .element owner _ => owner.callsOnSpine
  | .call _ _ => true
  | _ => false

/-- Whether every operand is of a level that its place calls for. -/
inductive WellFormed : Expr → Prop where
  | identifier {name : String} : (Word.identifier name).isValid = true →
    name ≠ "with" → WellFormed (.identifier name)
  | thisRef : WellFormed .thisRef
  | null : WellFormed .null
  | boolean {value : Bool} : WellFormed (.boolean value)
  | number {text : String} : (Word.number text).isValid = true →
    WellFormed (.number text)
  | string {quote : Char} {value : String} :
    (Word.string quote value).isValid = true →
    WellFormed (.string quote value)
  | paren {inner : Expr} : WellFormed inner → WellFormed (.paren inner)
  | array {elements : List Expr} : (∀ e ∈ elements, WellFormed e) →
    (∀ e ∈ elements, 2 ≤ e.level) → WellFormed (.array elements)
  | member {owner : Expr} {name : String} : WellFormed owner →
    15 ≤ owner.level → Word.isName name.toList = true →
    WellFormed (.member owner name)
  | element {owner index : Expr} : WellFormed owner → 15 ≤ owner.level →
    WellFormed index → WellFormed (.element owner index)
  | call {callee : Expr} {arguments : List Expr} : WellFormed callee →
    15 ≤ callee.level → (∀ e ∈ arguments, WellFormed e) →
    (∀ e ∈ arguments, 2 ≤ e.level) → WellFormed (.call callee arguments)
  | construct {callee : Expr} {arguments : List Expr} :
    WellFormed callee → 15 ≤ callee.level → callee.callsOnSpine = false →
    (∀ e ∈ arguments, WellFormed e) → (∀ e ∈ arguments, 2 ≤ e.level) →
    WellFormed (.construct callee arguments)
  | leading {operator : Word} {operand : Expr} :
    Grammar.isLeadingOperator operator.kind = true → WellFormed operand →
    14 ≤ operand.level → WellFormed (.unary operator operand true)
  | trailing {operator : Word} {operand : Expr} :
    operator.kind = Punctuator.plusPlus
      ∨ operator.kind = Punctuator.minusMinus →
    WellFormed operand → 15 ≤ operand.level →
    WellFormed (.unary operator operand false)
  | binary {left right : Expr} {operator : Word} :
    operator.kind = Punctuator.comma ∨ 0 < operator.kind.precedence →
    WellFormed left → operator.kind.level ≤ left.level →
    WellFormed right → operator.kind.level < right.level →
    WellFormed (.binary left operator right)
  | conditional {condition whenTrue whenFalse : Expr} :
    WellFormed condition → 3 < condition.level →
    WellFormed whenTrue → 2 ≤ whenTrue.level →
    WellFormed whenFalse → 2 ≤ whenFalse.level →
    WellFormed (.conditional condition whenTrue whenFalse)
  | assignment {left right : Expr} {operator : Word} :
    operator.kind.isAssignment = true →
    WellFormed left → left.isTarget = true →
    WellFormed right → 2 ≤ right.level →
    WellFormed (.assignment left operator right)

/-- What can be assigned to is of the level of members. -/
theorem level_of_isTarget {e : Expr} (h : e.isTarget = true) :
    15 ≤ e.level := by
  cases e with
  | binary | conditional | assignment | unary => cases h
  | _ => simp [level]

/-- The tree of what may be assigned to is found to be such. -/
theorem isTarget_of_shown {e : Expr} {tree : Tree} (h : e.isTarget = true)
    (ht : e.ShownBy tree) : Parse.isTarget tree = true := by
  obtain ⟨start, stop, doc, form⟩ := tree
  induction hn : sizeOf e using Nat.strongRecOn
    generalizing e start stop doc form with
  | _ n ih =>
      cases e with
      | paren inner =>
          obtain ⟨⟨start', stop', doc', form'⟩, rfl, hinner⟩ := ht
          have hin : inner.isTarget = true := h
          have htree := ih (sizeOf inner) (by simp [← hn]) hin _ _ _ _
            hinner rfl
          exact htree
      | identifier name =>
          obtain rfl : form = _ := ht
          rfl
      | member owner name =>
          obtain ⟨t, n, rfl, -, -⟩ := ht
          rfl
      | element owner index =>
          obtain ⟨t, i, rfl, -, -⟩ := ht
          rfl
      | call callee es =>
          obtain ⟨t, slots, rfl, -, -⟩ := ht
          rfl
      | _ => cases h

-- ============================================================ by level

section

variable {e : Expr}

/-- The loosest expressions have a comma outermost. -/
theorem WellFormed.comma_or (h : e.WellFormed) :
    (∃ left operator right, e = .binary left operator right
      ∧ operator.kind = Punctuator.comma ∧ left.WellFormed
      ∧ right.WellFormed ∧ 2 ≤ right.level)
      ∨ 2 ≤ e.level := by
  cases h with
  | binary hoperator hleft _ hright hrl =>
      rcases hoperator with hcomma | hpos
      · rw [hcomma] at hrl
        exact .inl ⟨_, _, _, rfl, hcomma, hleft, hright, hrl⟩
      · have hlevel := TokenKind.level_of_precedence_pos hpos
        refine .inr ?_
        rw [level, hlevel]
        omega
  | _ => exact .inr (by simp [level])

/-- From level 2 on, an expression is an assignment or of the next level. -/
theorem WellFormed.assignment_or (h : e.WellFormed) (hlevel : 2 ≤ e.level) :
    (∃ left operator right, e = .assignment left operator right
      ∧ operator.kind.isAssignment = true ∧ left.WellFormed
      ∧ left.isTarget = true ∧ right.WellFormed ∧ 2 ≤ right.level)
      ∨ 3 ≤ e.level := by
  cases h with
  | assignment hoperator hleft htarget hright hrl =>
      exact .inl ⟨_, _, _, rfl, hoperator, hleft, htarget, hright, hrl⟩
  | binary hoperator _ _ _ _ =>
      rcases hoperator with hcomma | hpos
      · rw [level, hcomma] at hlevel
        exact absurd hlevel (by decide)
      · refine .inr ?_
        rw [level, TokenKind.level_of_precedence_pos hpos]
        omega
  | _ => exact .inr (by simp [level])

/-- From level 3 on, it is a conditional or of the next level. -/
theorem WellFormed.conditional_or (h : e.WellFormed)
    (hlevel : 3 ≤ e.level) :
    (∃ condition whenTrue whenFalse,
      e = .conditional condition whenTrue whenFalse
      ∧ condition.WellFormed ∧ 4 ≤ condition.level
      ∧ whenTrue.WellFormed ∧ 2 ≤ whenTrue.level
      ∧ whenFalse.WellFormed ∧ 2 ≤ whenFalse.level)
      ∨ 4 ≤ e.level := by
  cases h with
  | conditional hc hcl ht htl hf hfl =>
      exact .inl ⟨_, _, _, rfl, hc, hcl, ht, htl, hf, hfl⟩
  | binary hoperator _ _ _ _ =>
      rcases hoperator with hcomma | hpos
      · rw [level, hcomma] at hlevel
        exact absurd hlevel (by decide)
      · refine .inr ?_
        rw [level, TokenKind.level_of_precedence_pos hpos]
        omega
  | assignment => exact absurd hlevel (by simp [level])
  | _ => exact .inr (by simp [level])

/-- From level 4 on, it has a binary operator or a unary one at least. -/
theorem WellFormed.binary_or (h : e.WellFormed) (hlevel : 4 ≤ e.level) :
    (∃ left operator right, e = .binary left operator right
      ∧ 0 < operator.kind.precedence
      ∧ left.WellFormed ∧ operator.kind.level ≤ left.level
      ∧ right.WellFormed ∧ operator.kind.level < right.level)
      ∨ 14 ≤ e.level := by
  cases h with
  | binary hoperator hleft hll hright hrl =>
      rcases hoperator with hcomma | hpos
      · rw [level, hcomma] at hlevel
        exact absurd hlevel (by decide)
      · exact .inl ⟨_, _, _, rfl, hpos, hleft, hll, hright, hrl⟩
  | conditional | assignment => exact absurd hlevel (by simp [level])
  | _ => exact .inr (by simp [level])

/-- From level 14 on, it has a unary operator, or is of the next level. -/
theorem WellFormed.unary_or (h : e.WellFormed) (hlevel : 14 ≤ e.level) :
    (∃ operator operand, e = .unary operator operand true
      ∧ Grammar.isLeadingOperator operator.kind = true
      ∧ operand.WellFormed ∧ 14 ≤ operand.level)
      ∨ (∃ operator operand, e = .unary operator operand false
        ∧ (operator.kind = Punctuator.plusPlus
          ∨ operator.kind = Punctuator.minusMinus)
        ∧ operand.WellFormed ∧ 15 ≤ operand.level)
      ∨ 15 ≤ e.level := by
  cases h with
  | leading hoperator hoperand hle =>
      exact .inl ⟨_, _, rfl, hoperator, hoperand, hle⟩
  | trailing hoperator hoperand hle =>
      exact .inr (.inl ⟨_, _, rfl, hoperator, hoperand, hle⟩)
  | binary hoperator _ _ _ _ =>
      have hlow := TokenKind.level_of_binary hoperator
      rw [level] at hlevel
      omega
  | conditional | assignment => exact absurd hlevel (by simp [level])
  | _ => exact .inr (.inr (by simp [level]))

/-- From level 15 on, it has something behind an operand, or needs no
operand. -/
theorem WellFormed.member_or (h : e.WellFormed) (hlevel : 15 ≤ e.level) :
    (∃ owner name, e = .member owner name
      ∧ owner.WellFormed ∧ 15 ≤ owner.level)
      ∨ (∃ owner index, e = .element owner index
        ∧ owner.WellFormed ∧ 15 ≤ owner.level ∧ index.WellFormed)
      ∨ (∃ callee arguments, e = .call callee arguments
        ∧ callee.WellFormed ∧ 15 ≤ callee.level
        ∧ (∀ x ∈ arguments, x.WellFormed) ∧ ∀ x ∈ arguments, 2 ≤ x.level)
      ∨ e.level = 16 := by
  cases h with
  | member howner hle _ => exact .inl ⟨_, _, rfl, howner, hle⟩
  | element howner hle hindex =>
      exact .inr (.inl ⟨_, _, rfl, howner, hle, hindex⟩)
  | call hcallee hle hes hlevels =>
      exact .inr (.inr (.inl ⟨_, _, rfl, hcallee, hle, hes, hlevels⟩))
  | binary hoperator _ _ _ _ =>
      have hlow := TokenKind.level_of_binary hoperator
      rw [level] at hlevel
      omega
  | conditional | assignment | leading | trailing =>
      exact absurd hlevel (by simp [level])
  | _ => exact .inr (.inr (.inr rfl))

end

end Expr

-- ============================================================ validity

/-- A name is one word. -/
theorem Word.isValid_ofName {name : String}
    (h : isName name.toList = true) : (ofName name).isValid = true := by
  unfold ofName
  split
  · rfl
  · rename_i hnone
    simp [isValid, h, hnone]

/-- Operators are punctuators or keywords, which are words as they are. -/
theorem Word.isValid_of_operator {w : Word}
    (h : Grammar.isLeadingOperator w.kind = true
      ∨ w.kind.isAssignment = true ∨ 0 < w.kind.level) :
    w.isValid = true := by
  cases w with
  | mark p => rfl
  | keyword k => rfl
  | _ => rcases h with h | h | h <;> cases h

namespace Expr

/-- The words of expressions with commas in front of them. -/
theorem valid_moreWords {es : List Expr}
    (h : ∀ e ∈ es, ∀ w ∈ e.words, w.isValid = true) :
    ∀ w ∈ moreWords es, w.isValid = true := by
  induction es with
  | nil => exact List.forall_mem_nil _
  | cons e es ih =>
      obtain ⟨he, hes⟩ := List.forall_mem_cons.1 h
      refine List.forall_mem_cons.2 ⟨rfl, ?_⟩
      exact List.forall_mem_append.2 ⟨he, ih hes⟩

/-- The words of expressions with commas in between. -/
theorem valid_itemWords {es : List Expr}
    (h : ∀ e ∈ es, ∀ w ∈ e.words, w.isValid = true) :
    ∀ w ∈ itemWords es, w.isValid = true := by
  cases es with
  | nil => exact List.forall_mem_nil _
  | cons e es =>
      obtain ⟨he, hes⟩ := List.forall_mem_cons.1 h
      exact List.forall_mem_append.2 ⟨he, valid_moreWords hes⟩

/-- The words of a well-formed expression are words. -/
theorem WellFormed.valid {e : Expr} (h : e.WellFormed) :
    ∀ w ∈ e.words, w.isValid = true := by
  -- besides the words of its parts, an expression has punctuators, an operator
  -- or a name
  induction h with
  | identifier hvalid _ => simpa [words] using hvalid
  | number hvalid => simpa [words] using hvalid
  | string hvalid => simpa [words] using hvalid
  | thisRef | null | boolean => simp [words, Word.isValid]
  | paren _ ih =>
      simp only [words, List.forall_mem_cons, List.forall_mem_append]
      exact ⟨rfl, ih, rfl, List.forall_mem_nil _⟩
  | array _ _ ih =>
      simp only [words, List.forall_mem_cons, List.forall_mem_append]
      exact ⟨rfl, valid_itemWords ih, rfl, List.forall_mem_nil _⟩
  | member _ _ hname ih =>
      simp only [words, List.forall_mem_cons, List.forall_mem_append]
      exact ⟨ih, rfl, Word.isValid_ofName hname, List.forall_mem_nil _⟩
  | element _ _ _ ih ihindex =>
      simp only [words, List.forall_mem_cons, List.forall_mem_append]
      exact ⟨ih, rfl, ihindex, rfl, List.forall_mem_nil _⟩
  | call _ _ _ _ ih ihes =>
      simp only [words, List.forall_mem_cons, List.forall_mem_append]
      exact ⟨ih, rfl, valid_itemWords ihes, rfl, List.forall_mem_nil _⟩
  | construct _ _ _ _ _ ih ihes =>
      simp only [words, List.forall_mem_cons, List.forall_mem_append]
      exact ⟨rfl, ih, rfl, valid_itemWords ihes, rfl, List.forall_mem_nil _⟩
  | leading hoperator _ _ ih =>
      simp only [words, List.forall_mem_cons]
      exact ⟨Word.isValid_of_operator (.inl hoperator), ih⟩
  | trailing hoperator _ _ ih =>
      simp only [words, List.forall_mem_cons, List.forall_mem_append]
      refine ⟨ih, Word.isValid_of_operator (.inr (.inr ?_)),
        List.forall_mem_nil _⟩
      rcases hoperator with hkind | hkind <;> rw [hkind] <;> decide
  | binary hoperator _ _ _ _ ihleft ihright =>
      simp only [words, List.forall_mem_cons, List.forall_mem_append]
      have hlevel := TokenKind.level_of_binary hoperator
      exact ⟨ihleft, Word.isValid_of_operator (.inr (.inr hlevel.1)),
        ihright⟩
  | conditional _ _ _ _ _ _ ihc iht ihf =>
      simp only [words, List.forall_mem_cons, List.forall_mem_append]
      exact ⟨ihc, rfl, iht, rfl, ihf⟩
  | assignment hoperator _ _ _ _ ihleft ihright =>
      simp only [words, List.forall_mem_cons, List.forall_mem_append]
      exact ⟨ihleft, Word.isValid_of_operator (.inr (.inl hoperator)),
        ihright⟩

end Expr

-- ============================================================ openings

/-- Whether an expression statement may begin with a word. -/
def Word.opens : Word → Bool
  | .identifier name => name != "with"
  | .number _ | .string _ _ => true
  | .mark .openParen | .mark .openBracket | .keyword .thisWord
  | .keyword .nullWord | .keyword .trueWord | .keyword .falseWord
  | .keyword .newWord => true
  | w => Grammar.isLeadingOperator w.kind

/-- Behind an operator in front, an operand begins. -/
theorem Word.opens_of_isLeadingOperator {w : Word}
    (h : Grammar.isLeadingOperator w.kind = true) : w.opens = true := by
  cases w with
  | mark p => cases p <;> first | rfl | cases h
  | keyword k => cases k <;> first | rfl | cases h
  | _ => cases h

/-- No word that may open an expression closes or divides a list. -/
theorem Word.kind_of_opens {w : Word} (h : w.opens = true) :
    w.kind ≠ Punctuator.closeParen ∧ w.kind ≠ Punctuator.closeBracket
      ∧ w.kind ≠ Punctuator.comma ∧ w.kind ≠ .endOfText := by
  cases w with
  | mark p =>
      refine ⟨?_, ?_, ?_, ?_⟩ <;> rintro ⟨⟩ <;> cases h
  | _ => refine ⟨?_, ?_, ?_, ?_⟩ <;> rintro ⟨⟩

namespace Expr

/-- An expression begins with a word that may open one; that is no
operator unless the expression is an operation. -/
theorem WellFormed.exists_head {e : Expr} (h : e.WellFormed) :
    ∃ w ws, e.words = w :: ws ∧ w.opens = true
      ∧ (15 ≤ e.level → Grammar.isLeadingOperator w.kind = false) := by
  -- most expressions begin with the first word of their leftmost part
  have hleft : ∀ {e : Expr} {more : List Word}, (∃ w ws, e.words = w :: ws
      ∧ w.opens = true
      ∧ (15 ≤ e.level → Grammar.isLeadingOperator w.kind = false)) →
      ∃ w ws, e.words ++ more = w :: ws ∧ w.opens = true
        ∧ (15 ≤ e.level → Grammar.isLeadingOperator w.kind = false) := by
    intro e more hread
    obtain ⟨w, ws, hwords, hrest⟩ := hread
    exact ⟨w, ws ++ more, by rw [hwords, List.cons_append], hrest⟩
  induction h with
  | identifier hvalid hwith =>
      exact ⟨_, _, rfl, by simpa [Word.opens] using hwith, fun _ => rfl⟩
  | @boolean value => exact ⟨_, _, rfl, by cases value <;> rfl,
      fun _ => by cases value <;> rfl⟩
  | thisRef | null | number | string | paren | array | construct =>
      exact ⟨_, _, rfl, rfl, fun _ => rfl⟩
  | member _ hlevel _ ih | element _ hlevel _ ih _ | call _ hlevel _ _ ih _ =>
      obtain ⟨w, ws, hwords, hopens, hplain⟩ := hleft ih
      exact ⟨w, ws, hwords, hopens, fun _ => hplain hlevel⟩
  | leading hoperator _ _ _ =>
      refine ⟨_, _, rfl, Word.opens_of_isLeadingOperator hoperator, ?_⟩
      exact fun hle => absurd hle (by simp [level])
  | trailing _ _ hlevel ih =>
      obtain ⟨w, ws, hwords, hopens, hplain⟩ := hleft ih
      exact ⟨w, ws, hwords, hopens, fun _ => hplain hlevel⟩
  | @binary _ _ operator hoperator _ _ _ _ ih _ =>
      obtain ⟨w, ws, hwords, hopens, -⟩ := hleft ih
      refine ⟨w, ws, hwords, hopens, fun hle => absurd hle ?_⟩
      have := TokenKind.level_of_binary hoperator
      simp only [level]
      omega
  | conditional _ _ _ _ _ _ ih _ _ =>
      obtain ⟨w, ws, hwords, hopens, -⟩ := hleft ih
      exact ⟨w, ws, hwords, hopens, fun hle => absurd hle (by simp [level])⟩
  | assignment _ _ _ _ _ ih _ =>
      obtain ⟨w, ws, hwords, hopens, -⟩ := hleft ih
      exact ⟨w, ws, hwords, hopens, fun hle => absurd hle (by simp [level])⟩

end Expr

end ScriptLint
