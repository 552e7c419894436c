/-
The identifiers of a program are words. A token that is an identifier or a
keyword has been read off the text as a run of identifier characters, and
its value is that run (`Token.Reading.word_value`); so the text of an
identifier node has no other characters (`Arena.identifier?_of_parse`), a
dot among them.
-/
import ScriptLint.Proofs.Parse.Origins
import Mathlib.Data.List.TakeWhile

namespace ScriptLint

open Text

/-- Whether the kind is that of an identifier or a keyword. -/
def TokenKind.IsWord (kind : TokenKind) : Prop :=
  kind = .identifier ∨ kind.isKeyword = true

/-- A reading that is a word has identifier characters alone. -/
theorem Token.Reading.word_value {cs : List Char} (h : (of cs).kind.IsWord) :
    ∀ c ∈ (of cs).value, isIdentifierPart c = true := by
  cases cs with
  | nil => rcases h with h | h <;> cases h
  | cons c cs =>
      rw [of] at h ⊢
      split
      · rename_i hquote
        rw [if_pos hquote] at h
        rcases h with h | h <;> cases h
      · rename_i hquote
        rw [if_neg hquote] at h
        split
        · rename_i hnumber
          rw [if_pos hnumber] at h
          rcases h with h | h <;> cases h
        · rename_i hnumber
          rw [if_neg hnumber] at h
          split
          · exact fun _ hmem => List.mem_takeWhile_imp hmem
          · rename_i hstart
            rw [if_neg hstart] at h
            unfold mark at h ⊢
            split
            · intro _ hmem
              cases hmem
            · intro _ hmem
              cases hmem

/-- What is so of every reading is so of what is read off a text at any
byte. -/
theorem Lexeme.read_of_reading {P : TokenKind → List Char → Prop}
    (hreading : ∀ cs,
      P (Token.Reading.of cs).kind (Token.Reading.of cs).value)
    (offset : Nat) (text : Stretch) :
    P (read offset text).token.kind
      (read offset text).token.value.toList := by
  have hvalue : (read offset text).token.value.toList
      = (Token.Reading.of (Trivia.cut text).2.chars).value :=
    String.toList_ofList
  rw [hvalue]
  exact hreading _

/-- It is so of every token that parsing comes to, regular expressions
apart, which are read again. -/
theorem Cursor.Reached.of_reading {P : TokenKind → List Char → Prop}
    (hreading : ∀ cs,
      P (Token.Reading.of cs).kind (Token.Reading.of cs).value)
    {text : String} {cursor : Cursor} (h : cursor.Reached text)
    (hkind : cursor.kind ≠ .regex) :
    P cursor.kind cursor.token.value.toList := by
  induction h with
  | first => exact Lexeme.read_of_reading hreading _ _
  | next h ih => exact Lexeme.read_of_reading hreading _ _
  | @asRegex cursor h ih =>
      rcases cursor.lexeme.asRegex_eq_or with hsame | ⟨-, hregex, -⟩
      · have hcursor : cursor.asRegex = cursor := by
          rw [Cursor.asRegex, hsame]
        rw [hcursor] at hkind ⊢
        exact ih hkind
      · exact absurd hregex hkind

/-- It is so of every token that is consumed. -/
theorem Cursor.Takes.of_reading {P : TokenKind → List Char → Prop}
    (hreading : ∀ cs,
      P (Token.Reading.of cs).kind (Token.Reading.of cs).value)
    {text : String} {cursor cursor' : Cursor} {token : Token}
    (h : cursor.Takes token cursor') (hcursor : cursor.Reached text)
    (hkind : token.kind ≠ .regex) : P token.kind token.value.toList := by
  cases h with
  | plain => exact hcursor.of_reading hreading hkind
  | literal => exact hcursor.of_reading hreading hkind
  | regex => exact hcursor.asRegex.of_reading hreading hkind

theorem TokenKind.IsWord.ne_regex {kind : TokenKind} (h : kind.IsWord) :
    kind ≠ .regex := by
  intro hregex
  rw [hregex] at h
  rcases h with h | h <;> cases h

namespace Arena

variable {lines : LineMap} {text : String} {tree : Tree} {ref : Ref}

/-- The form of a node, as it has been read between two cursors. -/
theorem exists_isRead_of_parse (h : Tree.parse text = .ok tree)
    {form : Form Ref} (hform : (ofTree lines tree).2.form? ref = some form)
    (hfile : ∀ statements, form ≠ .file statements) :
    ∃ (cursor cursor' : Cursor) (joint : Form Placed),
      joint.map Prod.fst = form ∧ cursor.Reached text
        ∧ (joint.map Prod.snd).IsRead cursor cursor' := by
  cases ref with
  | none => cases hform
  | some i =>
      have horigin : (ofTree lines tree).2.Origin text lines _ i :=
        origin_of_parse h (lt_size_of_form? hform)
      obtain ⟨shown, hshows, -, hroot | ⟨p, _, role, -, -, -, hread⟩⟩ :=
        horigin
      · obtain ⟨statements, hstatements⟩ := hshows.exists_file hroot.2
        rw [hform, Option.some_inj] at hstatements
        exact absurd hstatements (hfile statements)
      · obtain ⟨joint, hnode, hjoint⟩ := hshows.exists_joint
        rw [hform, Option.some_inj] at hnode
        obtain ⟨hcursor, -, -, hread⟩ := hread
        dsimp only [Tree.form] at hjoint
        rw [hjoint] at hread
        exact ⟨_, _, joint, hnode.symm, hcursor, hread⟩

/-- An identifier of a program has identifier characters alone. -/
theorem identifier?_of_parse (h : Tree.parse text = .ok tree) {name : String}
    (hname : (ofTree lines tree).2.identifier? ref = some name) :
    ∀ c ∈ name.toList, isIdentifierPart c = true := by
  unfold identifier? at hname
  split at hname
  · rename_i hform
    cases hname
    obtain ⟨cursor, cursor', joint, hjoint, hcursor, hread⟩ :=
      exists_isRead_of_parse h hform nofun
    cases joint <;> cases hjoint
    obtain ⟨token, htakes, hkind, rfl⟩ := hread
    have hword : token.kind.IsWord := hkind
    exact htakes.of_reading (P := fun kind value => kind.IsWord →
        ∀ c ∈ value, isIdentifierPart c = true)
      (fun _ => Token.Reading.word_value) hcursor hword.ne_regex hword
  · cases hname

theorem dot_notMem_identifier? (h : Tree.parse text = .ok tree)
    {name : String}
    (hname : (ofTree lines tree).2.identifier? ref = some name) :
    '.' ∉ name.toList := by
  intro hdot
  have hpart := identifier?_of_parse h hname '.' hdot
  exact absurd hpart (by decide +kernel)

end Arena

end ScriptLint
