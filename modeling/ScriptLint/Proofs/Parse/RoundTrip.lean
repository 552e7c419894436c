/-
What is written is what is parsed: the line of a well-formed expression,
with a semicolon behind it, is a program of one expression statement, and
that holds the tree of the expression. The one way to fail is to run out
of nesting levels.

# The argument

- The line is spelled by the words of the expression, with the semicolon as
  one more word, so the scan gives these words back
  (`Lexeme.reads_of_spells`).
- The statement parser sees a first word that begins no other statement,
  reads the expression (`expression_reads`) and takes the semicolon
  (`meets_endStatement_at`).
- Behind it the text is at its end, so the loop over statements stops with
  one of them (`Grammar.program_reads`).
-/
import ScriptLint.Proofs.Parse.Complete

namespace ScriptLint

open Parse

namespace Grammar

variable {g : Grammar} {e : Expr}

-- ========================================================== statements

/-- A semicolon ends a statement. -/
theorem meets_endStatement_at {w : Word} {ws : List Word} {cursor : Cursor}
    (hat : cursor.At (w :: ws)) (hw : w.kind = Punctuator.semicolon)
    {E : SyntaxError → Prop} :
    Meets endStatement cursor (fun _ => cursor.Past ws) E := by
  rw [endStatement]
  refine (meets_accept_at hat hw).bind ?_
  intro _ cursor' hread
  obtain ⟨rfl, hpast⟩ := hread
  exact hpast

/-- An expression in front of a semicolon is a statement. -/
theorem expressionStatement_reads (hg : g.Complete) (h : e.WellFormed)
    (s : Surroundings) {cursor : Cursor}
    (hat : cursor.At (e.words ++ [.mark .semicolon])) :
    Meets (g.expressionStatement s) cursor (fun t cursor' =>
      (∃ value, t.form = .expression (some value) ∧ e.ShownBy value)
        ∧ cursor.Past [] cursor') TooDeep := by
  rw [expressionStatement, meets_bind, meets_look]
  refine (expression_reads hg h rfl cursor hat).bind ?_
  intro value middle hread
  obtain ⟨hvalue, hmiddle⟩ := hread
  have hplain : ¬(value.identifier?.isSome
      && (headKind [.mark .semicolon] == Punctuator.colon)) = true := by
    rw [show (headKind [.mark .semicolon] == Punctuator.colon) = false
      from rfl, Bool.and_false]
    decide
  rw [meets_bind, meets_isAt, hmiddle.1.kind, if_neg hplain]
  refine (meets_endStatement_at hmiddle.1 rfl).bind fun _ last hlast => ?_
  exact ⟨⟨_, rfl, hvalue.withDoc _⟩, hmiddle.trans hlast⟩

/-- A statement that begins like an expression is read as one. -/
theorem meets_statementHere {s : Surroundings} {w : Word}
    (hw : w.opens = true) {ws : List Word} {cursor : Cursor}
    (hat : cursor.At (w :: ws)) {Q : Tree → Cursor → Prop}
    {E : SyntaxError → Prop}
    (h : Meets (g.expressionStatement s) cursor Q E) :
    Meets (g.statementHere s) cursor Q E := by
  rw [statementHere, meets_bind, meets_look]
  cases w with
  | mark p =>
      simp only [hat.token.kind_eq]
      cases p <;> first | exact h | cases hw
  | keyword k =>
      simp only [hat.token.kind_eq]
      cases k <;> first | exact h | cases hw
  | identifier name =>
      have hwith : ¬(cursor.token.value == "with") = true := by
        rw [hat.token.value_eq]
        simpa [Word.opens, Word.value] using hw
      simp only [hat.token.kind_eq, Word.kind, if_neg hwith]
      exact h
  | number text =>
      simp only [hat.token.kind_eq, Word.kind]
      exact h
  | string quote value =>
      simp only [hat.token.kind_eq, Word.kind]
      exact h

-- ============================================================ programs

/-- A statement that holds the tree of an expression. -/
def Holds (e : Expr) (statement : Tree) : Prop :=
  ∃ value, statement.form = .expression (some value) ∧ e.ShownBy value

/-- An expression and a semicolon are a program. -/
theorem program_reads (n : Nat) (h : e.WellFormed) {cursor : Cursor}
    (hat : cursor.At (e.words ++ [.mark .semicolon])) :
    Meets (levels (n + 1)).program cursor (fun tree _ => ∃ statement,
      tree.form = .file [some statement] ∧ Holds e statement) TooDeep := by
  rw [program]
  refine Meets.bind (Meets.many_until
    (I := fun done now => (done = [] ∧ now = cursor) ∨ ∃ statement,
      done = [some statement] ∧ Holds e statement ∧ now.At [])
    (Q := fun done now => ∃ statement, done = [some statement]
      ∧ Holds e statement ∧ now.At []) ?_ (.inl ⟨rfl, rfl⟩)) ?_
  · rintro done now (⟨rfl, rfl⟩ | ⟨statement, rfl, hholds, hend⟩)
    · obtain ⟨w, ws, hwords, hopens, -⟩ := h.exists_head
      have hword := hat
      rw [hwords, List.cons_append] at hword
      have hnext : ¬(now.kind == TokenKind.endOfText) = true := by
        rw [hword.kind]
        simpa [headKind] using (Word.kind_of_opens hopens).2.2.2
      rw [meets_bind, meets_isAt, if_neg hnext]
      refine Meets.bind (meets_statementHere hopens hword
        (expressionStatement_reads (complete_levels n) h {} hat)) ?_
      intro statement last hread
      obtain ⟨hholds, hlast⟩ := hread
      exact ⟨hlast.2, .inr ⟨statement, rfl, hholds, hlast.1⟩⟩
    · rw [meets_bind, meets_isAt, hend.kind]
      exact ⟨statement, rfl, hholds, hend⟩
  · intro done last hread
    obtain ⟨statement, rfl, hholds, hend⟩ := hread
    rw [meets_bind, meets_look, hend.openComment]
    exact ⟨statement, rfl, hholds⟩

end Grammar

-- ========================================================= expressions

/-- An expression as it is written in a line, with single blanks between
its words. -/
def Expr.line (e : Expr) : String := Word.line e.words

/-- The line of a well-formed expression and a semicolon, be there a blank
before it or not, parse into a program of one statement that holds the
tree of the expression, unless the nesting levels run out. -/
theorem parse_line {e : Expr} (h : e.WellFormed) {stop : String}
    (hstop : stop = ";" ∨ stop = " ;") :
    (∃ error, Tree.parse (e.line ++ stop) = .error error
        ∧ error.fault = .tooDeep)
      ∨ ∃ tree statement value, Tree.parse (e.line ++ stop) = .ok tree
        ∧ tree.form = .file [some statement]
        ∧ statement.form = .expression (some value) ∧ e.ShownBy value := by
  -- the semicolon is one more word, right behind the others or with a blank in
  -- front
  have hend : ∀ gap, gap = [] ∨ gap = [' '] →
      Spells (gap ++ [';']) [.mark .semicolon] := by
    intro gap hgap
    have hword : (Word.mark .semicolon).chars = [';'] := by
      simp [Word.chars, Punctuator.text]
    have hspells := Spells.word (w := .mark .semicolon) hgap rfl
      Word.ends_nil .nil
    rwa [hword] at hspells
  have hspells : Spells (e.line ++ stop).toList
      (e.words ++ [.mark .semicolon]) := by
    obtain ⟨w, ws, hwords, -, -⟩ := h.exists_head
    rw [String.toList_append]
    refine spells_line h.valid (.inl (rfl : [] = [])) ?_ ?_ (by simp [hwords])
    · rcases hstop with rfl | rfl
      · exact Word.ends_semicolon []
      · exact Word.ends_blank [';']
    · rcases hstop with rfl | rfl
      · exact hend [] (.inl rfl)
      · exact hend [' '] (.inr rfl)
  have hat : Cursor.At { lexeme := Lexeme.first (e.line ++ stop) }
      (e.words ++ [.mark .semicolon]) :=
    Lexeme.reads_of_spells hspells 0 rfl
  rcases Tree.parse_of_meets (Grammar.program_reads 255 h hat) with
    ⟨error, hparse, hdeep⟩
    | ⟨tree, cursor, hparse, statement, hfile, value, hvalue, hshown⟩
  · exact .inl ⟨error, hparse, hdeep⟩
  · exact .inr ⟨tree, statement, value, hparse, hfile, hvalue, hshown⟩

/-- The expression `a = b + c * 1`. -/
def Expr.assignedSum : Expr :=
  .assignment (.identifier "a") (.mark .equals)
    (.binary (.identifier "b") (.mark .plus)
      (.binary (.identifier "c") (.mark .star) (.number "1")))

/-- It is written without parentheses and parsed as it was built. -/
theorem parse_line_assignedSum :
    ∃ tree statement value, Tree.parse "a = b + c * 1;" = .ok tree
      ∧ tree.form = .file [some statement]
      ∧ statement.form = .expression (some value)
      ∧ Expr.assignedSum.ShownBy value := by
  have hnames : ∀ name ∈ ["a", "b", "c"],
      (Expr.identifier name).WellFormed := by
    have hvalid : ∀ name ∈ ["a", "b", "c"],
        (Word.identifier name).isValid = true ∧ name ≠ "with" := by
      decide +kernel
    exact fun name hname =>
      .identifier (hvalid name hname).1 (hvalid name hname).2
  have hwhole : Expr.assignedSum.WellFormed := by
    refine .assignment rfl (hnames "a" (by decide)) rfl ?_ (by decide)
    refine .binary (.inr (by decide)) (hnames "b" (by decide)) (by decide)
      ?_ (by decide)
    exact .binary (.inr (by decide)) (hnames "c" (by decide)) (by decide)
      (.number (by decide +kernel)) (by decide)
  have hline : Expr.assignedSum.line ++ ";" = "a = b + c * 1;" := by
    decide +kernel
  rcases parse_line hwhole (.inl rfl) with ⟨error, hparse, -⟩ | hparse
  · have hparses : Tree.Parses "a = b + c * 1;" fun _ => True := by
      decide +kernel
    obtain ⟨tree, htree, -⟩ := hparses
    rw [hline, htree] at hparse
    cases hparse
  · rwa [hline] at hparse

end ScriptLint
