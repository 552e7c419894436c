/-
The spacing of a program does not matter. Two texts may have other blanks,
comments and places for their tokens; if the tokens themselves are alike
(`Token.Alike`), as far as the first text is read and with the slashes read
again that are read again there, then both are parsed and checked alike,
but for the places in the nodes and the lines in the findings
(`Tree.parse_of_alike`).

What a slash is before it is read again does not count as a token of its
own. But it shows in the regular expression that it becomes
(`Lexeme.alike_of_asRegex`), and so the parser sees no difference there
either.

# The argument

- The two runs are at the same token of the scan, which may have been read
  again on both sides (`Aligned`). That is an alignment without points, so
  the rules for couplings apply (`alignment`).
- Both fail with the same fault, or yield trees that agree but for their
  places. A check does not look at places, only at lines, and these are
  forgotten on both sides.
-/
import ScriptLint.Proofs.Parse.Alignment
import ScriptLint.Proofs.Relining
import ScriptLint.Proofs.Token.Locality

namespace ScriptLint

open Text

-- ============================================================== slashes

namespace Lexeme

/-- Slashes are alike that are alike once they are read again. -/
theorem alike_of_asRegex {offset offset' : Nat} {text text' : Stretch}
    (h : (read offset text).asRegex.token.Alike
      (read offset' text').asRegex.token)
    (hkind : (read offset text).asRegex.token.kind = .regex) :
    (read offset text).token.Alike (read offset' text').token := by
  obtain ⟨more, s, closed, hslash, hvalue, hopen, hcomment, -, hregex,
    hhead⟩ := exists_regex_of_isSlash (isSlash_of_asRegex hkind)
  obtain ⟨more', s', closed', hslash', hvalue', hopen', hcomment', -,
    hregex', hhead'⟩ := exists_regex_of_isSlash
      (isSlash_of_asRegex (h.kind_eq.symm.trans hkind))
  rw [hregex, hregex'] at h
  have hs : s = s' := by
    have hvalue := congrArg String.toList h.value_eq
    simpa [Token.regex] using hvalue
  refine ⟨?_, by rw [hvalue, hvalue'], h.afterBreak_eq, h.doc_eq,
    by rw [hopen, hopen'], by rw [hcomment, hcomment']⟩
  rw [hslash, hslash', Punctuator.slashOf, Punctuator.slashOf]
  simp only [← hhead, ← hhead', hs]

end Lexeme

-- ============================================================ alignment

/-- The lexemes of two texts are alike, as far as the first one is read
and with the same slashes read again. -/
def SpacedAlike (text text' : String) : Prop :=
  ∀ n < (Tree.read text).2.tokens.length,
    (Lexeme.nth text (Tree.read text).2.rereads n).token.Alike
      (Lexeme.nth text' (Tree.read text).2.rereads n).token

instance : DecidableRel SpacedAlike := fun _ _ =>
  inferInstanceAs (Decidable (∀ n < _, _))

namespace SpacedAlike

variable {text text' : String}

/-- What is read again on the way to where the reading ends. -/
theorem rereads_eq {n : Nat} {token : Token}
    (h : (Tree.read text).2.tokens[n]? = some token) :
    (Tree.read text).2.rereads n = (token.kind == .regex) := by
  rw [Cursor.rereads, h]
  rfl

/-- Before slashes are read again the lexemes are alike as well. -/
theorem unread (h : SpacedAlike text text') {n : Nat}
    (hn : n < (Tree.read text).2.tokens.length) :
    (Lexeme.unread text (Tree.read text).2.rereads n).token.Alike
      (Lexeme.unread text' (Tree.read text).2.rereads n).token := by
  have halike := h n hn
  have hkind : (Tree.read text).2.rereads n
      = ((Lexeme.nth text (Tree.read text).2.rereads n).token.kind
        == .regex) := by
    refine rereads_eq ?_
    rw [(Tree.reached_read text).tokens_eq, List.getElem?_map,
      List.getElem?_range (by simpa using hn)]
    rfl
  rw [Lexeme.nth_eq, Lexeme.nth_eq] at halike
  rw [Lexeme.nth_eq] at hkind
  split at halike
  · rename_i hagain
    rw [if_pos hagain, hagain] at hkind
    obtain ⟨before, rest, -, hread⟩ :=
      Lexeme.exists_unread_eq text (Tree.read text).2.rereads n
    obtain ⟨before', rest', -, hread'⟩ :=
      Lexeme.exists_unread_eq text' (Tree.read text).2.rereads n
    rw [hread, hread'] at halike
    rw [hread] at hkind
    rw [hread, hread']
    exact Lexeme.alike_of_asRegex halike (by simpa using hkind.symm)
  · exact halike

/-- How the cursors in two texts of other spacing stand to each other: at
the same token of the scan, which may have been read again. -/
def Aligned (text text' : String) (c c' : Cursor) : Prop :=
  let again := (Tree.read text).2.rereads
  let n := c.consumed.length
  n < (Tree.read text).2.tokens.length
    ∧ (c.lexeme = Lexeme.unread text again n
        ∧ c'.lexeme = Lexeme.unread text' again n
      ∨ c.lexeme = Lexeme.nth text again n
        ∧ c'.lexeme = Lexeme.nth text' again n)

theorem aligned_next {c c' : Cursor} (h : Aligned text text' c c')
    (hlast : c.next.Reaches (Tree.read text).2) :
    Aligned text text' c.next c'.next := by
  obtain ⟨-, hlexemes⟩ := h
  have hagain := rereads_eq hlast.tokens_next
  have hnth : c.lexeme
        = Lexeme.nth text (Tree.read text).2.rereads c.consumed.length
      ∧ c'.lexeme
        = Lexeme.nth text' (Tree.read text).2.rereads c.consumed.length := by
    rcases hlexemes with ⟨hc, hc'⟩ | hboth
    · have hkind : c.token.kind ≠ .regex := by
        rw [Cursor.token, hc]
        exact Lexeme.kind_unread_ne _ _ _
      rw [beq_eq_false_iff_ne.2 hkind] at hagain
      rw [Lexeme.nth_eq, Lexeme.nth_eq, hagain]
      exact ⟨hc, hc'⟩
    · exact hboth
  refine ⟨?_, .inl ?_⟩
  · have hle := hlast.consumed_suffix.length_le
    simp only [Cursor.tokens, List.length_append, List.length_reverse]
    exact Nat.lt_succ_of_le hle
  · exact ⟨congrArg Lexeme.next hnth.1, congrArg Lexeme.next hnth.2⟩

theorem aligned_asRegex {c c' : Cursor} (h : Aligned text text' c c')
    (hkind : c.kind = Punctuator.slash ∨ c.kind = Punctuator.slashEquals)
    (hlast : c.asRegex.Reaches (Tree.read text).2) :
    Aligned text text' c.asRegex c'.asRegex := by
  obtain ⟨hn, hlexemes⟩ := h
  have hagain := rereads_eq hlast.tokens_asRegex
  have hregex : c.asRegex.token.kind = .regex := Lexeme.kind_asRegex hkind
  rw [beq_iff_eq.2 hregex] at hagain
  refine ⟨hn, .inr ?_⟩
  rw [Lexeme.nth_eq, Lexeme.nth_eq, Cursor.consumed_asRegex, hagain]
  rcases hlexemes with ⟨hc, hc'⟩ | ⟨hc, hc'⟩
  · exact ⟨congrArg Lexeme.asRegex hc, congrArg Lexeme.asRegex hc'⟩
  · rw [Lexeme.nth_eq, hagain] at hc hc'
    exact ⟨(congrArg Lexeme.asRegex hc).trans (Lexeme.asRegex_asRegex _),
      (congrArg Lexeme.asRegex hc').trans (Lexeme.asRegex_asRegex _)⟩

/-- Two texts of other spacing are aligned, without semicolons of their
own. -/
def alignment (h : SpacedAlike text text') :
    Alignment (fun _ => 0) (fun _ => 0) text text' where
  last := (Tree.read text).2
  points := ∅
  Aligned := Aligned text text'
  Behind _ _ := False
  place := id
  place_eq := rfl
  start_eq := rfl
  first := ⟨by simp [Cursor.tokens], .inl ⟨rfl, rfl⟩⟩
  token_same {c c'} hat := by
    obtain ⟨hn, ⟨hc, hc'⟩ | ⟨hc, hc'⟩⟩ := hat
    · rw [Cursor.token, Cursor.token, hc, hc']
      exact same_token.2 ⟨h.unread hn, rfl⟩
    · rw [Cursor.token, Cursor.token, hc, hc']
      exact same_token.2 ⟨h _ hn, rfl⟩
  next _ hat _ hlast := ⟨fun _ => aligned_next hat hlast, False.elim⟩
  asRegex _ hat hkind hlast := aligned_asRegex hat hkind hlast
  behind := False.elim
  semicolon := (Alignment.refl text).semicolon

end SpacedAlike

-- ============================================================= results

/-- Texts with tokens that are alike are programs or not, alike. If they
are not, it is for the same reason, and so with the same message; if they
are, their nodes are the same but for starts, stops and lines. Checking
them, in any session, has the same findings and leaves the same session
behind, but for lines. -/
theorem Tree.parse_of_alike {text text' : String}
    (h : SpacedAlike text text') :
    ((∃ e e', Tree.parse text = .error e ∧ Tree.parse text' = .error e'
          ∧ e'.fault.message = e.fault.message)
      ∨ ∃ tree tree', Tree.parse text = .ok tree
          ∧ Tree.parse text' = .ok tree'
          ∧ (Arena.ofTree (.ofText text) tree).1
            = (Arena.ofTree (.ofText text') tree').1
          ∧ (Arena.ofTree (.ofText text) tree).2.mapLines (fun _ => 0)
            = (Arena.ofTree (.ofText text') tree').2.mapLines fun _ => 0)
      ∧ ∀ (session : Session) (file : String),
        Session.mapResult (fun _ => 0) (session.check file text)
          = Session.mapResult (fun _ => 0) (session.check file text') := by
  cases hread : Tree.parse text with
  | error e =>
      obtain ⟨e', last', hread', hfault⟩ :=
        h.alignment.read_error rfl (Prod.ext hread rfl)
      have hparse' : Tree.parse text' = .error e' :=
        congrArg Prod.fst hread'
      refine ⟨.inl ⟨e, e', rfl, hparse', by rw [hfault]⟩,
        fun session file => ?_⟩
      exact Session.check_of_fault hread hparse' rfl hfault session file
  | ok tree =>
      obtain ⟨tree', last', hread', hsame⟩ :=
        h.alignment.read_ok (Prod.ext hread rfl) (fun _ => False.elim)
      have hparse' : Tree.parse text' = .ok tree' := congrArg Prod.fst hread'
      -- without their places the two trees are one
      have hplaces : tree.mapPlaces ((fun _ => 0) ∘ (LineMap.ofText text).lineOf)
          = tree'.mapPlaces ((fun _ => 0) ∘ (LineMap.ofText text').lineOf) :=
        hsame
      obtain ⟨hroot, harena⟩ := Arena.mapLines_ofTree hplaces
      exact ⟨.inr ⟨tree, tree', rfl, hparse', hroot, harena⟩,
        Session.check_of_mapPlaces rfl hread hparse' hplaces⟩

/-- Blanks, comments and line breaks are added where there is one already;
the slashes begin a regular expression in both texts. -/
theorem Tree.parse_of_alike_regex :
    SpacedAlike "x=/=a/;\ny++" " x = /=a/ /* b */ ;\n\n  y ++ // c"
      ∧ ∃ tree tree', Tree.parse "x=/=a/;\ny++" = .ok tree
        ∧ Tree.parse " x = /=a/ /* b */ ;\n\n  y ++ // c" = .ok tree'
        ∧ (Arena.ofTree (.ofText "x=/=a/;\ny++") tree).2.mapLines (fun _ => 0)
          = (Arena.ofTree (.ofText " x = /=a/ /* b */ ;\n\n  y ++ // c")
              tree').2.mapLines fun _ => 0 := by
  have halike : SpacedAlike "x=/=a/;\ny++"
      " x = /=a/ /* b */ ;\n\n  y ++ // c" := by decide +kernel
  have hparses : Tree.Parses "x=/=a/;\ny++" fun _ => True := by
    decide +kernel
  obtain ⟨tree, hparse, -⟩ := hparses
  refine ⟨halike, ?_⟩
  rcases (Tree.parse_of_alike halike).1 with
    ⟨e, -, herror, -⟩ | ⟨tree, tree', hparse, hparse', -, harena⟩
  · rw [hparse] at herror
    cases herror
  · exact ⟨tree, tree', hparse, hparse', harena⟩

end ScriptLint
