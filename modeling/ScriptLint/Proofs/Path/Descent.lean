/-
Ways down from a directory. Names that are joined to a path one after the
other are the last components of the path that they make
(`Path.components_down`), and seen from the directory that path is these
names with slashes between them (`Path.seenFrom_down`), however the
directory itself was written.

The directory may be written with a slash at its end, or not at all, so a
name is put behind it in one of two ways. Both have the same pieces, if the
empty piece behind a closing slash is not counted (`piecesOf_behind`), and
from there on only pieces matter. Names may be any bytes: nothing is asked
of them but that they are no piece with a meaning of its own
(`Path.IsName`).
-/
import ScriptLint.Path
import ScriptLint.Proofs.Names

namespace ScriptLint

open Text

namespace Path

-- =============================================================== names

/-- What an entry of a directory can be called: there is something to its
name, it is none of the steps that stay or lead up, and it has no slash in
it. -/
structure IsName (name : RawText) : Prop where
  ne_empty : name ≠ ""
  ne_here : name ≠ "."
  ne_up : name ≠ ".."
  slash_notMem : slash ∉ name.bytes

instance (name : RawText) : Decidable (IsName name) :=
  decidable_of_iff
    (name ≠ "" ∧ name ≠ "." ∧ name ≠ ".." ∧ slash ∉ name.bytes)
    ⟨fun h => ⟨h.1, h.2.1, h.2.2.1, h.2.2.2⟩,
      fun h => ⟨h.ne_empty, h.ne_here, h.ne_up, h.slash_notMem⟩⟩

/-- The path behind names that lead down from a directory. -/
def down (path : Path) (names : List RawText) : Path :=
  names.foldl (· / ·) path

variable {path root : Path} {name : RawText} {names : List RawText}

/-- The first name is the first step down. -/
theorem down_cons (path : Path) (name : RawText) (names : List RawText) :
    path.down (name :: names) = (path / name).down names := rfl

/-- Going down may be done in parts. -/
theorem down_append (path : Path) (names more : List RawText) :
    path.down (names ++ more) = (path.down names).down more :=
  List.foldl_append

/-- What is neither empty nor special is a name. -/
theorem ofPiece?_of_ne (hempty : name ≠ "") (hhere : name ≠ ".")
    (hup : name ≠ "..") : Component.ofPiece? name = some (.name name) := by
  unfold Component.ofPiece?
  rw [if_neg (not_or.2 ⟨hempty, hhere⟩), if_neg hup]

/-- A name is a component by itself. -/
theorem IsName.ofPiece? (h : IsName name) :
    Component.ofPiece? name = some (.name name) :=
  ofPiece?_of_ne h.ne_empty h.ne_here h.ne_up

-- ============================================================== pieces

/-- Pieces without the empty one that a slash at the end leaves. -/
def trimmed (ps : List RawText) : List RawText :=
  if ps.getLast? = some ⟨[]⟩ then ps.dropLast else ps

/-- A piece that is not empty stays at the end. -/
theorem trimmed_concat (ps : List RawText) (h : name ≠ "") :
    trimmed (ps ++ [name]) = ps ++ [name] := by
  rw [trimmed, List.getLast?_concat, if_neg (by simpa using h)]

/-- An empty piece at the end goes. -/
theorem trimmed_concat_empty (ps : List RawText) :
    trimmed (ps ++ [⟨[]⟩]) = ps := by
  rw [trimmed, List.getLast?_concat, if_pos rfl, List.dropLast_concat]

/-- Only the last piece is looked at. -/
theorem trimmed_cons_cons (piece next : RawText) (ps : List RawText) :
    trimmed (piece :: next :: ps) = piece :: trimmed (next :: ps) := by
  unfold trimmed
  rw [List.getLast?_cons_cons]
  split <;> rfl

/-- The piece that is taken off is no component. -/
theorem filterMap_trimmed (ps : List RawText) :
    (trimmed ps).filterMap Component.ofPiece?
      = ps.filterMap Component.ofPiece? := by
  by_cases hlast : ps.getLast? = some ⟨[]⟩
  · obtain ⟨init, hinit⟩ := List.getLast?_eq_some_iff.1 hlast
    rw [hinit, trimmed_concat_empty, List.filterMap_append]
    simp [Component.ofPiece?]
  · rw [trimmed, if_neg hlast]

-- ============================================================= joining

/-- A name behind the bytes of a directory. A slash parts them, unless the
directory ends in one or has no bytes. -/
def behind (bytes : List UInt8) (name : RawText) : List UInt8 :=
  if bytes.getLast?.all (· == slash) then bytes ++ name.bytes
  else bytes ++ slash :: name.bytes

/-- A slash in front stays in front. -/
theorem behind_slash_cons (bytes : List UInt8) (name : RawText) :
    behind (slash :: bytes) name = slash :: behind bytes name := by
  unfold behind
  cases bytes with
  | nil => rfl
  | cons b bytes =>
      rw [List.getLast?_cons_cons]
      split <;> rfl

/-- Names begin with something other than a slash. -/
theorem IsName.bytes_eq (h : IsName name) :
    ∃ b bytes, name.bytes = b :: bytes ∧ b ≠ slash := by
  cases hbytes : name.bytes with
  | nil => exact absurd (congrArg RawText.mk hbytes) h.ne_empty
  | cons b bytes =>
      refine ⟨b, bytes, rfl, ?_⟩
      rintro rfl
      apply h.slash_notMem
      rw [hbytes]
      exact List.mem_cons_self

/-- The bytes of a path that goes down by a name. -/
theorem bytes_div (path : Path) (h : IsName name) :
    (path / name).raw.bytes = behind path.raw.bytes name := by
  obtain ⟨b, bytes, hbytes, hb⟩ := h.bytes_eq
  have hrelative : isAbsolute ⟨name⟩ = false := by
    rw [isAbsolute, hbytes]
    simpa using hb
  show (join path ⟨name⟩).raw.bytes = _
  unfold join behind
  rw [hrelative, if_neg Bool.false_ne_true]
  split
  · rfl
  · exact List.append_assoc _ [slash] _

/-- A name behind some bytes is one more piece. -/
theorem piecesOf_behind (bytes : List UInt8) (h : IsName name) :
    piecesOf (behind bytes name) = trimmed (piecesOf bytes) ++ [name] := by
  have hname : piecesOf name.bytes = [name] := by
    rw [piecesOf, pieces_of_not_mem h.slash_notMem]
    rfl
  have hbehind (bytes : List UInt8) :
      piecesOf (bytes ++ slash :: name.bytes)
        = piecesOf bytes ++ [name] := by
    rw [← hname, piecesOf, pieces_append, List.map_append]
    rfl
  cases hlast : bytes.getLast? with
  | none =>
      obtain rfl := List.getLast?_eq_none_iff.1 hlast
      exact hname
  | some b =>
      obtain ⟨init, rfl⟩ := List.getLast?_eq_some_iff.1 hlast
      -- behind a closing slash there is an empty piece, which the name takes
      -- the place of
      by_cases hb : b = slash
      · have htrimmed : piecesOf (init ++ [slash])
            = piecesOf init ++ [⟨[]⟩] := by
          rw [piecesOf, pieces_append, List.map_append]
          rfl
        rw [hb, htrimmed, trimmed_concat_empty, ← hbehind, behind,
          List.getLast?_concat, if_pos (by simp), List.append_assoc]
        rfl
      · obtain ⟨front, last, -, hpieces⟩ := pieces_concat_ne hb init
        have htrimmed : trimmed (piecesOf (init ++ [b]))
            = piecesOf (init ++ [b]) := by
          rw [piecesOf, hpieces, List.map_append, List.map_singleton]
          refine trimmed_concat _ fun hempty => ?_
          exact List.append_ne_nil_of_right_ne_nil last
            (List.cons_ne_nil b []) (congrArg RawText.bytes hempty)
        rw [htrimmed, ← hbehind, behind, List.getLast?_concat,
          if_neg (by simpa using hb)]

/-- What is not the current directory is the first piece. -/
theorem relative_of_ne {piece : RawText} (ps : List RawText)
    (h : piece ≠ ".") : relative (piece :: ps) = (none, piece :: ps) := by
  rw [relative, if_neg h]

/-- The current directory in front is no piece. -/
theorem relative_here (ps : List RawText) :
    relative ("." :: ps) = (some .here, ps) := by
  rw [relative, if_pos rfl]

/-- With a slash in front a path begins at the root. -/
theorem opened_of_slash {bytes : List UInt8}
    (h : path.raw.bytes = slash :: bytes) :
    path.opened = (some .root, piecesOf bytes) := by
  have habsolute : path.isAbsolute = true := by rw [isAbsolute, h]; rfl
  rw [opened, if_pos habsolute, h, List.tail_cons]

/-- Without one it is relative. -/
theorem opened_of_ne_slash (h : ∀ bytes, path.raw.bytes ≠ slash :: bytes) :
    path.opened = relative (piecesOf path.raw.bytes) := by
  have habsolute : ¬ path.isAbsolute = true := by
    rw [isAbsolute, beq_iff_eq, List.head?_eq_some_iff]
    exact fun ⟨bytes, hbytes⟩ => h bytes hbytes
  rw [opened, if_neg habsolute]

/-- A name at the end does not change what is at the front. -/
theorem relative_trimmed_concat (ps : List RawText) (h : IsName name) :
    relative (trimmed ps ++ [name])
      = ((relative ps).1, trimmed (relative ps).2 ++ [name]) := by
  cases ps with
  | nil => exact relative_of_ne [] h.ne_here
  | cons piece ps =>
      by_cases hhere : piece = "."
      · rw [hhere, relative_here]
        cases ps with
        | nil => rfl
        | cons next ps =>
            rw [trimmed_cons_cons, List.cons_append, relative_here]
      · rw [relative_of_ne ps hhere]
        cases ps with
        | nil =>
            by_cases hempty : piece = ""
            · rw [hempty]
              exact relative_of_ne [] h.ne_here
            · rw [← List.nil_append [piece], trimmed_concat [] hempty]
              exact relative_of_ne _ hhere
        | cons next ps =>
            rw [trimmed_cons_cons]
            exact relative_of_ne _ hhere

/-- A relative path stays relative. -/
theorem behind_ne_slash {bytes : List UInt8}
    (hbytes : ∀ rest, bytes ≠ slash :: rest) (h : IsName name)
    (rest : List UInt8) : behind bytes name ≠ slash :: rest := by
  obtain ⟨b, more, hname, hb⟩ := h.bytes_eq
  intro heq
  cases bytes with
  | nil =>
      change name.bytes = slash :: rest at heq
      rw [hname] at heq
      exact hb (List.cons.inj heq).1
  | cons first bytes =>
      apply hbytes bytes
      unfold behind at heq
      split at heq
      all_goals rw [(List.cons.inj heq).1]

/-- A directory is opened as before when a name has been put behind it, and
the name is the last of its pieces. -/
theorem opened_div (path : Path) (h : IsName name) :
    (path / name).opened
      = (path.opened.1, trimmed path.opened.2 ++ [name]) := by
  have hdiv := bytes_div path h
  by_cases hslash : ∃ bytes, path.raw.bytes = slash :: bytes
  · obtain ⟨bytes, hbytes⟩ := hslash
    rw [hbytes, behind_slash_cons] at hdiv
    rw [opened_of_slash hbytes, opened_of_slash hdiv,
      piecesOf_behind bytes h]
  · rw [not_exists] at hslash
    have hbehind := behind_ne_slash hslash h
    rw [← hdiv] at hbehind
    rw [opened_of_ne_slash hslash, opened_of_ne_slash hbehind, hdiv,
      piecesOf_behind _ h, relative_trimmed_concat _ h]

-- ============================================================= descent

/-- The component that a path has behind that of its directory. -/
theorem components_div (path : Path) (h : IsName name) :
    (path / name).components = path.components ++ [.name name] := by
  unfold components
  rw [opened_div path h]
  dsimp only
  rw [List.filterMap_append, filterMap_trimmed, List.append_assoc,
    List.filterMap_cons_some h.ofPiece?, List.filterMap_nil]

/-- Names that lead down are the last components. -/
theorem components_down (path : Path) (h : ∀ name ∈ names, IsName name) :
    (path.down names).components = path.components ++ names.map .name := by
  induction names generalizing path with
  | nil => simp [down]
  | cons name names ih =>
      rw [List.forall_mem_cons] at h
      rw [down_cons, ih _ h.2, components_div path h.1, List.append_assoc]
      rfl

/-- Names that lead down are the last pieces, behind those of the directory.
-/
theorem opened_down (path : Path) (h : ∀ name ∈ names, IsName name)
    (hne : names ≠ []) :
    (path.down names).opened
      = (path.opened.1, trimmed path.opened.2 ++ names) := by
  induction names generalizing path with
  | nil => exact absurd rfl hne
  | cons name names ih =>
      rw [List.forall_mem_cons] at h
      cases names with
      | nil => exact opened_div path h.1
      | cons next names =>
          rw [down_cons, ih _ h.2 (List.cons_ne_nil _ _), opened_div path h.1]
          dsimp only
          rw [trimmed_concat _ h.1.ne_empty, List.append_assoc]
          rfl

/-- Names are not blank, at whichever end of them. -/
theorem dropBlank_names (h : ∀ name ∈ names, IsName name) :
    dropBlank names = names := by
  cases names with
  | nil => rfl
  | cons name names =>
      have hname := (h name List.mem_cons_self).ofPiece?
      rw [dropBlank, List.dropWhile_cons_of_neg (by simp [hname])]

/-- Names at the end are not blank. -/
theorem dropBlankEnd_names (h : ∀ name ∈ names, IsName name) :
    dropBlankEnd names = names := by
  rw [dropBlankEnd, dropBlank_names fun name hname =>
    h name (List.mem_reverse.1 hname), List.reverse_reverse]

/-- No component is dropped. -/
theorem dropComponents_zero (ps : List RawText) :
    dropComponents 0 ps = ps := by
  cases ps <;> rfl

/-- Behind as many components as the pieces in front of them make, the
names are left. -/
theorem dropBlank_dropComponents (init : List RawText)
    (h : ∀ name ∈ names, IsName name) :
    dropBlank (dropComponents (init.filterMap Component.ofPiece?).length
      (init ++ names)) = names := by
  induction init with
  | nil =>
      rw [List.filterMap_nil, List.length_nil, dropComponents_zero]
      exact dropBlank_names h
  | cons piece init ih =>
      cases hpiece : Component.ofPiece? piece with
      | none =>
          rw [List.filterMap_cons_none hpiece]
          cases hlength : (init.filterMap Component.ofPiece?).length with
          | zero =>
              rw [hlength, dropComponents_zero] at ih
              rw [dropComponents_zero, List.cons_append, dropBlank,
                List.dropWhile_cons_of_pos (by simp [hpiece])]
              exact ih
          | succ n =>
              rw [hlength] at ih
              rw [List.cons_append, dropComponents, hpiece]
              exact ih
      | some component =>
          rw [List.filterMap_cons_some hpiece, List.length_cons,
            List.cons_append, dropComponents, hpiece]
          exact ih

/-- A piece that is neither empty nor the current directory is a component. -/
theorem ofPiece?_ne_none {piece : RawText} (hempty : piece ≠ "")
    (hhere : piece ≠ ".") : Component.ofPiece? piece ≠ none := by
  unfold Component.ofPiece?
  rw [if_neg (not_or.2 ⟨hempty, hhere⟩)]
  split <;> exact Option.some_ne_none _

/-- Only the path without bytes has no components. -/
theorem opened_of_components_eq_nil (h : path.components = []) :
    path.opened = (none, [⟨[]⟩]) := by
  rw [components, List.append_eq_nil_iff, Option.toList_eq_nil_iff] at h
  obtain ⟨hfront, hpieces⟩ := h
  cases hbytes : path.raw.bytes with
  | nil =>
      have hslash : ∀ rest, path.raw.bytes ≠ slash :: rest := by simp [hbytes]
      rw [opened_of_ne_slash hslash, hbytes]
      exact relative_of_ne [] (by decide)
  | cons b bytes =>
      have hslash : ∀ rest, path.raw.bytes ≠ slash :: rest := by
        intro rest hrest
        rw [opened_of_slash hrest] at hfront
        cases hfront
      have hb : b ≠ slash := by
        rintro rfl
        exact hslash bytes hbytes
      obtain ⟨piece, more, -, hcons⟩ := pieces_cons_ne hb bytes
      rw [opened_of_ne_slash hslash, hbytes, piecesOf, hcons,
        List.map_cons] at hfront hpieces
      by_cases hhere : (⟨b :: piece⟩ : RawText) = "."
      · rw [hhere, relative_here] at hfront
        cases hfront
      · have hempty : (⟨b :: piece⟩ : RawText) ≠ "" := fun heq =>
          List.cons_ne_nil b piece (congrArg RawText.bytes heq)
        rw [relative_of_ne _ hhere, List.filterMap_eq_nil_iff] at hpieces
        exact absurd (hpieces _ List.mem_cons_self)
          (ofPiece?_ne_none hempty hhere)

/-- A path is below any directory from which names lead down to it, and
what is below the directory are these names. -/
theorem below?_down (root : Path) (h : ∀ name ∈ names, IsName name)
    (hne : names ≠ []) :
    (root.down names).below? root = some (ofPieces none names) := by
  have hprefix : root.components.isPrefixOf (root.down names).components
      = true := by
    rw [components_down root h, List.isPrefixOf_iff_prefix]
    exact List.prefix_append _ _
  have hrest := dropBlank_dropComponents (trimmed root.opened.2) h
  have hlength : root.components.length = root.opened.1.toList.length
      + ((trimmed root.opened.2).filterMap Component.ofPiece?).length := by
    rw [components, List.length_append, filterMap_trimmed]
  unfold below?
  rw [opened_down root h hne]
  dsimp only
  rw [if_pos hprefix, hlength]
  -- the root or the current directory in front counts as a component
  cases hfront : root.opened.1 with
  | some front =>
      rw [Option.toList_some, List.length_singleton, Nat.add_comm]
      dsimp only
      rw [hrest, dropBlankEnd_names h]
  | none =>
      rw [Option.toList_none, List.length_nil, Nat.zero_add]
      cases hcount : ((trimmed root.opened.2).filterMap
          Component.ofPiece?).length with
      | zero =>
          -- a directory without components is written without pieces
          have hnil : root.components = [] := by
            apply List.eq_nil_of_length_eq_zero
            rw [hlength, hfront, hcount]
            rfl
          have hempty : trimmed root.opened.2 = [] := by
            rw [opened_of_components_eq_nil hnil]
            rfl
          dsimp only
          rw [hempty, List.nil_append, dropBlankEnd_names h]
      | succ n =>
          rw [hcount] at hrest
          dsimp only
          rw [hrest, dropBlankEnd_names h]

/-- Seen from a directory, the path behind names that lead down from it is
those names with slashes between them. -/
theorem seenFrom_down (root : Path) (h : ∀ name ∈ names, IsName name)
    (hne : names ≠ []) :
    (root.down names).seenFrom root = ⟨joined names⟩ := by
  rw [seenFrom, below?_down root h hne]
  rfl

end Path

end ScriptLint
