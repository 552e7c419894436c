/-
The walk through a source tree. It leaves out hidden entries and the
directories of excluded packages with all that is below them, and asks of
files whether they are programs; so it comes to exactly the files of which
all names are visible, that are programs, and that lie below no excluded
package, each once and in the order of their paths
(`SourceFilter.sources_directory`). Directories are visited in the order of
their names, and that is the order of paths.

The walk decides entry by entry, while what is to be taken is said of all
names on the way to a file at once. Between the two stands what the walk
comes through (`SourceFilter.Passes`), which can be said either way: of one
name and the rest of the way (`passes_cons_iff`), as the induction over the
tree has it, and of the way as a whole (`passes_and_takes_iff`).

Names are bytes. To start with a dot is said of characters: a name that is
no text has no first character, so the walk comes into a directory whose
name starts with the byte of a dot and is no text. Where there are no such
names, to start with a dot and to start with its byte is the same
(`startsWith_iff_startsWithByte`).
-/
import ScriptLint.Proofs.NameParts
import ScriptLint.Proofs.Path.Descent
import ScriptLint.Proofs.Path.Order
import ScriptLint.Proofs.Text.Utf8
import ScriptLint.Sources

namespace ScriptLint

-- =============================================================== trees

namespace FileTree

variable {α : Type} {tree : FileTree α} {names : List RawText}

/-- There is a file in a tree behind names that lead down to it. -/
inductive HasFile : FileTree α → List RawText → Prop where
  | file (content : α) : HasFile (.file content) []
  | entry {entries : List (RawText × FileTree α)} {name : RawText}
    {tree : FileTree α} {names : List RawText} :
    (name, tree) ∈ entries → HasFile tree names →
    HasFile (.directory entries) (name :: names)

/-- The entries of every directory have names, and no two the same. -/
inductive IsProper : FileTree α → Prop where
  | file (content : α) : IsProper (.file content)
  | directory {entries : List (RawText × FileTree α)} :
    (∀ entry ∈ entries, Path.IsName entry.1) →
    (entries.map Prod.fst).Nodup →
    (∀ entry ∈ entries, IsProper entry.2) →
    IsProper (.directory entries)

/-- A tree in which names lead down to a file is a directory. -/
theorem HasFile.isDirectory_iff (h : tree.HasFile names) :
    tree.isDirectory = true ↔ names ≠ [] := by
  cases h with
  | file content => simp [isDirectory]
  | entry => simp [isDirectory]

/-- The names that lead down are names. -/
theorem HasFile.isName (h : tree.HasFile names) (hproper : tree.IsProper) :
    ∀ name ∈ names, Path.IsName name := by
  induction h with
  | file => exact List.forall_mem_nil _
  | entry hentry _ ih =>
      cases hproper with
      | directory hnames _ htrees =>
          exact List.forall_mem_cons.2
            ⟨hnames _ hentry, ih (htrees _ hentry)⟩

end FileTree

-- ============================================================ packages

/-- The names of the directories that a package lies in, from the root on:
its segments, less empty ones. -/
def packageNames (package : String) : List RawText :=
  ((Text.pieces '.' package.toList).filter (!·.isEmpty)).map
    fun segment => .ofText (String.ofList segment)

theorem packageDirectory_eq (root : Path) (package : String) :
    packageDirectory root package = root.down (packageNames package) := by
  rw [packageNames, Path.down, List.foldl_map]
  rfl

/-- The segments of a package without slashes are names. -/
theorem isName_of_mem_packageNames {package : String} {name : RawText}
    (hslash : '/' ∉ package.toList) (h : name ∈ packageNames package) :
    Path.IsName name := by
  obtain ⟨piece, hmem, rfl⟩ := List.mem_map.1 h
  obtain ⟨hpiece, hempty⟩ := List.mem_filter.1 hmem
  obtain ⟨hdot, hchars⟩ := Text.of_mem_pieces hpiece
  -- a segment has no dots, so it is none of the steps that are made of them
  have hne {text : String} (htext : '.' ∈ text.toList) :
      RawText.ofText (String.ofList piece) ≠ text := by
    intro heq
    rw [← RawText.ofText_injective heq, String.toList_ofList] at htext
    exact hdot htext
  refine ⟨fun heq => ?_, hne (by decide), hne (by decide), ?_⟩
  · have hnil : piece = "".toList := by
      rw [← RawText.ofText_injective heq, String.toList_ofList]
    rw [hnil] at hempty
    cases hempty
  · show UInt8.ofNat ('/').toNat ∉ Text.Utf8.encode _
    rw [Text.Utf8.ofNat_mem_encode_iff (by decide), String.toList_ofList]
    exact fun hmem => hslash (hchars _ hmem)

-- =============================================================== files

/-- The extension of a name is what it ends in, behind a dot, if that is
not all of it. -/
theorem Path.extension?_eq_some_iff {name extension : RawText}
    (hname : name.bytes ≠ dot :: extension.bytes)
    (hdot : dot ∉ extension.bytes) :
    extension? name = some extension
      ↔ (dot :: extension.bytes) <:+ name.bytes := by
  constructor
  · intro h
    unfold extension? at h
    split at h
    · rename_i b front back hsplit
      obtain ⟨hbytes, -⟩ := Text.splitLast?_eq_some hsplit
      obtain rfl := Option.some.inj h
      rw [hbytes]
      exact List.suffix_append _ _
    · cases h
  · intro h
    obtain ⟨front, hfront⟩ := h
    rw [← hfront] at hname
    unfold extension?
    rw [← hfront, Text.splitLast?_append hdot]
    cases front with
    | nil => exact absurd rfl hname
    | cons b front => rfl

namespace SourceFilter

variable {α : Type} {filter : SourceFilter} {path : Path} {name : RawText}
  {names above : List RawText} {tree : FileTree α}
  {entries : List (RawText × FileTree α)}

-- =============================================================== walks

/-- The walk from a directory on comes through names: all are visible, and
none of the directories on the way belongs to an excluded package. -/
def Passes (filter : SourceFilter) (above names : List RawText) : Prop :=
  (∀ name ∈ names, isHidden name = false)
    ∧ ∀ front rest, front ≠ [] → rest ≠ [] → front ++ rest = names →
      filter.isExcluded (filter.root.down (above ++ front)) = false

theorem passes_nil (filter : SourceFilter) (above : List RawText) :
    filter.Passes above [] := by
  refine ⟨List.forall_mem_nil _, fun front rest hne _ happend => ?_⟩
  exact absurd (List.append_eq_nil_iff.1 happend).1 hne

theorem passes_cons_iff :
    filter.Passes above (name :: names)
      ↔ isHidden name = false
        ∧ (names ≠ [] →
          filter.isExcluded (filter.root.down (above ++ [name])) = false)
        ∧ filter.Passes (above ++ [name]) names := by
  unfold Passes
  rw [List.forall_mem_cons]
  constructor
  · intro h
    obtain ⟨⟨hname, hnames⟩, hfronts⟩ := h
    refine ⟨hname, fun hne => hfronts [name] names (List.cons_ne_nil _ _) hne
      rfl, hnames, fun front rest hfront hrest happend => ?_⟩
    rw [List.append_assoc]
    exact hfronts (name :: front) rest (List.cons_ne_nil _ _) hrest
      (congrArg (name :: ·) happend)
  · intro h
    obtain ⟨hname, hfirst, hnames, hfronts⟩ := h
    refine ⟨⟨hname, hnames⟩, fun front rest hfront hrest happend => ?_⟩
    -- a front is the first name alone, or goes on behind it
    cases front with
    | nil => exact absurd rfl hfront
    | cons head front =>
        obtain ⟨rfl, htail⟩ := List.cons.inj happend
        cases front with
        | nil =>
            apply hfirst
            rw [← htail]
            exact hrest
        | cons next front =>
            have hdeep := hfronts (next :: front) rest (List.cons_ne_nil _ _)
              hrest htail
            rwa [List.append_assoc] at hdeep

/-- An entry behind which there is a file is visited if it is visible, and
if it belongs to no excluded package or is that file. -/
theorem visits_iff (h : tree.HasFile names) :
    filter.visits path name tree = true
      ↔ isHidden name = false
        ∧ (names ≠ [] → filter.isExcluded path = false) := by
  rw [visits, Bool.and_eq_true, Bool.not_eq_true', Bool.not_eq_true',
    Bool.and_eq_false_imp, h.isDirectory_iff]

/-- What is found at an entry, and nothing where it is not visited. -/
def foundAt (filter : SourceFilter) (above : List RawText)
    (entry : RawText × FileTree α) : List Path :=
  let path := filter.root.down (above ++ [entry.1])
  if filter.visits path entry.1 entry.2 then
    filter.sourcesAt path entry.1 entry.2
  else []

theorem sourcesIn_down (filter : SourceFilter) (above : List RawText)
    (entries : List (RawText × FileTree α)) :
    filter.sourcesIn (filter.root.down above) entries
      = entries.map fun entry => (entry.1, filter.foundAt above entry) := by
  induction entries with
  | nil => rw [sourcesIn]; rfl
  | cons entry entries ih =>
      have hdown : filter.root.down above / entry.1
          = filter.root.down (above ++ [entry.1]) := by
        rw [Path.down_append]
        rfl
      rw [sourcesIn, ih, hdown]
      rfl

theorem mem_inOrder {found : List (RawText × List Path)} :
    path ∈ inOrder found ↔ ∃ entry ∈ found, path ∈ entry.2 := by
  unfold inOrder
  simp only [List.mem_flatMap, (List.mergeSort_perm found _).mem_iff]

/-- The walk in a directory goes on in each of its entries. -/
theorem mem_sourcesAt_directory :
    path ∈ filter.sourcesAt (filter.root.down above) name
        (.directory entries)
      ↔ ∃ entry ∈ entries, path ∈ filter.foundAt above entry := by
  rw [sourcesAt, mem_inOrder, sourcesIn_down]
  simp only [List.mem_map, exists_exists_and_eq_and]

theorem mem_foundAt {next : RawText} :
    path ∈ filter.foundAt above (next, tree)
      ↔ filter.visits (filter.root.down (above ++ [next])) next tree = true
        ∧ path ∈ filter.sourcesAt (filter.root.down (above ++ [next]))
          next tree := by
  unfold foundAt
  dsimp only
  split
  · rename_i hvisits
    simp only [hvisits, true_and]
  · rename_i hvisits
    simp only [hvisits, List.not_mem_nil, Bool.false_eq_true, false_and]

/-- The walk from an entry on finds the files behind the names that it comes
through, as far as these are to be taken. -/
theorem mem_sourcesAt_iff (h : tree.IsProper) :
    path ∈ filter.sourcesAt (filter.root.down above) name tree
      ↔ ∃ names, tree.HasFile names ∧ filter.Passes above names
        ∧ filter.takes (filter.root.down (above ++ names))
          (names.getLastD name) = true
        ∧ path = filter.root.down (above ++ names) := by
  induction h generalizing above name with
  | file content =>
      rw [sourcesAt]
      constructor
      · intro hpath
        split at hpath
        · rename_i htakes
          refine ⟨[], .file content, passes_nil filter above, ?_⟩
          rw [List.append_nil]
          exact ⟨htakes, List.mem_singleton.1 hpath⟩
        · cases hpath
      · intro hfile
        obtain ⟨names, hfile, -, htakes, rfl⟩ := hfile
        cases hfile
        rw [List.append_nil, List.getLastD_nil] at htakes
        rw [List.append_nil, if_pos htakes]
        exact List.mem_singleton_self _
  | @directory entries _ _ _ ih =>
      rw [mem_sourcesAt_directory]
      constructor
      · intro hpath
        -- the first of the names is that of an entry, and the others lead on
        -- from there
        obtain ⟨⟨next, tree⟩, hentry, hpath⟩ := hpath
        obtain ⟨hvisits, hpath⟩ := mem_foundAt.1 hpath
        obtain ⟨names, hfile, hpasses, htakes, hnames⟩ :=
          (ih _ hentry).1 hpath
        obtain ⟨hvisible, hfirst⟩ := (visits_iff hfile).1 hvisits
        rw [List.append_assoc] at htakes hnames
        refine ⟨next :: names, .entry hentry hfile,
          passes_cons_iff.2 ⟨hvisible, hfirst, hpasses⟩, ?_, hnames⟩
        rw [List.getLastD_cons]
        exact htakes
      · intro hnames
        obtain ⟨names, hfile, hpasses, htakes, hpath⟩ := hnames
        cases hfile with
        | @entry _ next tree names hentry hfile =>
            obtain ⟨hvisible, hfirst, hpasses⟩ := passes_cons_iff.1 hpasses
            refine ⟨(next, tree), hentry, mem_foundAt.2
              ⟨(visits_iff hfile).2 ⟨hvisible, hfirst⟩,
                (ih _ hentry).2 ⟨names, hfile, hpasses, ?_⟩⟩⟩
            rw [List.getLastD_cons] at htakes
            rw [List.append_assoc]
            exact ⟨htakes, hpath⟩

-- =============================================================== order

/-- Sorting puts entries in the order of their names, which is strict if no
two have the same. -/
theorem pairwise_mergeSort_names {found : List (RawText × List Path)}
    (hnames : (found.map Prod.fst).Nodup) :
    (found.mergeSort fun a b => (compare a.1 b.1).isLE).Pairwise
      fun a b => compare a.1 b.1 = .lt := by
  have hsorted : (found.mergeSort fun a b => (compare a.1 b.1).isLE).Pairwise
      fun a b => (compare a.1 b.1).isLE = true := by
    apply List.pairwise_mergeSort
    · intro a b c hab hbc
      exact Std.TransCmp.isLE_trans hab hbc
    · intro a b
      have hswap : compare b.1 a.1 = (compare a.1 b.1).swap :=
        Std.OrientedCmp.eq_swap
      rw [hswap]
      cases compare a.1 b.1 <;> rfl
  have hdistinct : (found.mergeSort fun a b =>
      (compare a.1 b.1).isLE).Pairwise fun a b => a.1 ≠ b.1 :=
    List.pairwise_map.1
      (((List.mergeSort_perm found _).map Prod.fst).nodup_iff.2 hnames)
  refine (hsorted.and hdistinct).imp fun {a b} hab => ?_
  obtain ⟨hle, hne⟩ := hab
  cases hcompare : compare a.1 b.1 with
  | lt => rfl
  | eq => exact absurd (Std.LawfulEqOrd.eq_of_compare hcompare) hne
  | gt =>
      rw [hcompare] at hle
      cases hle

/-- Lists that are put into the order of their names are in the order of
paths, if each of them is and names and paths go together. -/
theorem pairwise_inOrder {found : List (RawText × List Path)}
    (hnames : (found.map Prod.fst).Nodup)
    (heach : ∀ entry ∈ found,
      entry.2.Pairwise fun a b => a.order b = .lt)
    (hbetween : ∀ entry ∈ found, ∀ other ∈ found,
      compare entry.1 other.1 = .lt →
      ∀ a ∈ entry.2, ∀ b ∈ other.2, a.order b = .lt) :
    (inOrder found).Pairwise fun a b => a.order b = .lt := by
  have hperm := List.mergeSort_perm found
    fun a b => (compare a.1 b.1).isLE
  unfold inOrder
  rw [List.pairwise_flatMap]
  refine ⟨fun entry h => heach entry (hperm.mem_iff.1 h), ?_⟩
  exact (pairwise_mergeSort_names hnames).imp_of_mem
    fun {a b} ha hb hlt =>
      hbetween a (hperm.mem_iff.1 ha) b (hperm.mem_iff.1 hb) hlt

/-- What is found in an entry goes on with its name behind the common part,
which decides the order. -/
theorem components_of_mem_foundAt {next : RawText} (h : tree.IsProper)
    (hnames : ∀ name ∈ above ++ [next], Path.IsName name)
    (hpath : path ∈ filter.foundAt above (next, tree)) :
    ∃ behind, path.components = filter.root.components ++ above.map .name
      ++ .name next :: behind := by
  obtain ⟨-, hpath⟩ := mem_foundAt.1 hpath
  obtain ⟨names, hfile, -, -, rfl⟩ := (mem_sourcesAt_iff h).1 hpath
  refine ⟨names.map .name, ?_⟩
  rw [Path.components_down _ (List.forall_mem_append.2
    ⟨hnames, hfile.isName h⟩)]
  simp

/-- What the walk finds behind an entry is in the order of paths. -/
theorem pairwise_sourcesAt (h : tree.IsProper)
    (habove : ∀ name ∈ above, Path.IsName name) :
    (filter.sourcesAt (filter.root.down above) name tree).Pairwise
      fun a b => a.order b = .lt := by
  induction h generalizing above name with
  | file content =>
      rw [sourcesAt]
      split
      · exact List.pairwise_singleton ..
      · exact .nil
  | @directory entries hnames hnodup htrees ih =>
      have hdeeper : ∀ entry ∈ entries,
          ∀ name ∈ above ++ [entry.1], Path.IsName name := by
        intro entry hentry
        rw [List.forall_mem_append, List.forall_mem_singleton]
        exact ⟨habove, hnames entry hentry⟩
      rw [sourcesAt, sourcesIn_down]
      apply pairwise_inOrder
      · rw [List.map_map]
        exact hnodup
      · intro found hfound
        obtain ⟨entry, hentry, rfl⟩ := List.mem_map.1 hfound
        show (filter.foundAt above entry).Pairwise _
        unfold foundAt
        dsimp only
        split
        · exact ih entry hentry (hdeeper entry hentry)
        · exact .nil
      · intro found hfound other hother hlt a ha b hb
        obtain ⟨entry, hentry, rfl⟩ := List.mem_map.1 hfound
        obtain ⟨entry', hentry', rfl⟩ := List.mem_map.1 hother
        obtain ⟨behind, ha⟩ := components_of_mem_foundAt
          (htrees entry hentry) (hdeeper entry hentry) ha
        obtain ⟨behind', hb⟩ := components_of_mem_foundAt
          (htrees entry' hentry') (hdeeper entry' hentry') hb
        exact Path.order_of_lt hlt ha hb

-- ============================================================== hiding

/-- A name starts with a character if it is a text and starts with it. -/
def StartsWith (c : Char) (name : RawText) : Prop :=
  ∃ cs, name = .ofText (String.ofList (c :: cs))

/-- A name starts with a byte, whether it is a text or not. -/
def StartsWithByte (b : UInt8) (name : RawText) : Prop :=
  name.bytes.head? = some b

instance (b : UInt8) : DecidablePred (StartsWithByte b) :=
  fun name => inferInstanceAs (Decidable (name.bytes.head? = some b))

theorem startsWith_ofText_iff {c : Char} {text : String} :
    StartsWith c (.ofText text) ↔ text.toList.head? = some c := by
  rw [List.head?_eq_some_iff]
  constructor
  · intro h
    obtain ⟨cs, htext⟩ := h
    refine ⟨cs, ?_⟩
    rw [RawText.ofText_injective htext, String.toList_ofList]
  · intro h
    obtain ⟨cs, hcs⟩ := h
    exact ⟨cs, by rw [← hcs, String.ofList_toList]⟩

/-- What hides a name is a dot that it starts with. -/
theorem isHidden_iff : isHidden name = true ↔ StartsWith '.' name := by
  rw [isHidden, Option.any_eq_true]
  constructor
  · intro h
    obtain ⟨text, htext, hdot⟩ := h
    obtain rfl := RawText.text?_eq_some_iff.1 htext
    exact startsWith_ofText_iff.2 (beq_iff_eq.1 hdot)
  · intro h
    obtain ⟨cs, rfl⟩ := h
    refine ⟨_, RawText.text?_ofText _, ?_⟩
    rw [beq_iff_eq, ← startsWith_ofText_iff]
    exact ⟨cs, rfl⟩

theorem isHidden_eq_false_iff :
    isHidden name = false ↔ ¬ StartsWith '.' name := by
  rw [← isHidden_iff, Bool.not_eq_true]

/-- To start with a dot is to start with its byte, if a name that does so is
a text. -/
theorem startsWith_iff_startsWithByte
    (h : StartsWithByte Path.dot name → name.text?.isSome = true) :
    StartsWith '.' name ↔ StartsWithByte Path.dot name := by
  -- of a text, the first byte is that of a dot if the first character is one
  have htext (text : String) : StartsWith '.' (.ofText text)
      ↔ StartsWithByte Path.dot (.ofText text) := by
    rw [startsWith_ofText_iff]
    exact (Text.Utf8.head?_encode_iff (d := '.') (by decide)).symm
  constructor
  · intro hdot
    obtain ⟨cs, rfl⟩ := hdot
    exact (htext _).1 ⟨cs, rfl⟩
  · intro hbyte
    obtain ⟨text, hsome⟩ := Option.isSome_iff_exists.1 (h hbyte)
    obtain rfl := RawText.text?_eq_some_iff.1 hsome
    exact (htext text).2 hbyte

-- ============================================================== sources

/-- A file below the root is to be taken by the names that lead down to it:
none is hidden, the last one is that of a program and not of a package
description, no excluded package that is more than the root has its
directory on the way, and no pattern matches the way. -/
structure Wants (filter : SourceFilter) (hides : RawText → Prop)
    (names : List RawText) : Prop where
  isVisible : ∀ name ∈ names, ¬ hides name
  isProgram : ∃ name, names.getLast? = some name
    ∧ (".js" : RawText).bytes <:+ name.bytes ∧ name ≠ "package-info.js"
  isIncluded : ∀ package ∈ filter.packages, ∀ rest,
    packageNames package ≠ [] → rest ≠ [] →
    packageNames package ++ rest ≠ names
  isKept : filter.ignores ⟨Path.joined names⟩ = false

/-- Two ways of hiding names are alike if they agree on these names. -/
theorem wants_congr {hides hides' : RawText → Prop}
    (h : ∀ name ∈ names, hides name ↔ hides' name) :
    filter.Wants hides names ↔ filter.Wants hides' names := by
  have hvisible : (∀ name ∈ names, ¬ hides name)
      ↔ ∀ name ∈ names, ¬ hides' name :=
    forall₂_congr fun name hname => not_congr (h name hname)
  constructor
  · intro hwants
    exact ⟨hvisible.1 hwants.isVisible, hwants.isProgram, hwants.isIncluded,
      hwants.isKept⟩
  · intro hwants
    exact ⟨hvisible.2 hwants.isVisible, hwants.isProgram, hwants.isIncluded,
      hwants.isKept⟩

/-- A directory below the root belongs to an excluded package if the names
that lead down to it are those of the package. -/
theorem isExcluded_down_iff
    (hslash : ∀ package ∈ filter.packages, '/' ∉ package.toList)
    (hnames : ∀ name ∈ names, Path.IsName name) :
    filter.isExcluded (filter.root.down names) = true
      ↔ ∃ package ∈ filter.packages, packageNames package = names := by
  have hsame : ∀ package ∈ filter.packages,
      (packageDirectory filter.root package).components
          = (filter.root.down names).components
        ↔ packageNames package = names := by
    intro package hpackage
    rw [packageDirectory_eq, Path.components_down _ hnames,
      Path.components_down _ fun name =>
        isName_of_mem_packageNames (hslash package hpackage),
      List.append_cancel_left_eq]
    exact List.map_inj_right fun a b => Path.Component.name.inj
  rw [isExcluded, List.any_eq_true]
  simp only [beq_iff_eq]
  constructor
  · intro h
    obtain ⟨package, hpackage, heq⟩ := h
    exact ⟨package, hpackage, (hsame package hpackage).1 heq⟩
  · intro h
    obtain ⟨package, hpackage, heq⟩ := h
    exact ⟨package, hpackage, (hsame package hpackage).2 heq⟩

/-- The extension of a name that is not hidden tells a program. -/
theorem extension?_program_iff (hvisible : ¬ StartsWith '.' name) :
    (Path.extension? name).bind RawText.text? = some "js"
      ↔ (".js" : RawText).bytes <:+ name.bytes := by
  have hname : name.bytes ≠ Path.dot :: (RawText.ofText "js").bytes := by
    intro hbytes
    obtain rfl : name = ".js" := congrArg RawText.mk hbytes
    exact hvisible ⟨['j', 's'], rfl⟩
  have hextension : Path.extension? name = some (.ofText "js")
      ↔ (".js" : RawText).bytes <:+ name.bytes :=
    Path.extension?_eq_some_iff hname (by decide)
  rw [← hextension, Option.bind_eq_some_iff]
  simp only [RawText.text?_eq_some_iff]
  exact ⟨fun ⟨extension, hsome, heq⟩ => heq ▸ hsome, fun h => ⟨_, h, rfl⟩⟩

theorem takes_iff (hnames : ∀ name ∈ names, Path.IsName name)
    (hlast : names.getLast? = some name) (hvisible : ¬ StartsWith '.' name) :
    filter.takes (filter.root.down names) name = true
      ↔ (".js" : RawText).bytes <:+ name.bytes
        ∧ name ≠ "package-info.js"
        ∧ filter.ignores ⟨Path.joined names⟩ = false := by
  have hne : names ≠ [] := by
    intro hnil
    rw [hnil] at hlast
    cases hlast
  have hinfo : name.text? ≠ some packageInfo ↔ name ≠ "package-info.js" :=
    not_congr RawText.text?_eq_some_iff
  rw [takes, Path.seenFrom_down _ hnames hne, Bool.and_eq_true,
    Bool.and_eq_true, beq_iff_eq, bne_iff_ne, Bool.not_eq_true',
    extension?_program_iff hvisible, hinfo, and_assoc]

/-- The walk from the root comes through the names of a file and takes it
just if the file is to be taken. -/
theorem passes_and_takes_iff
    (hslash : ∀ package ∈ filter.packages, '/' ∉ package.toList)
    (hnames : ∀ name ∈ names, Path.IsName name) (hne : names ≠ []) :
    filter.Passes [] names
        ∧ filter.takes (filter.root.down names) (names.getLastD "") = true
      ↔ filter.Wants (StartsWith '.') names := by
  have hlast : names.getLast? = some (names.getLast hne) :=
    List.getLast?_eq_some_getLast hne
  have hlastD : names.getLastD "" = names.getLast hne := by
    rw [List.getLastD_eq_getLast?, hlast, Option.getD_some]
  have hshown : (∀ name ∈ names, isHidden name = false)
      ↔ ∀ name ∈ names, ¬ StartsWith '.' name :=
    forall₂_congr fun name _ => isHidden_eq_false_iff
  rw [hlastD, Passes, hshown]
  constructor
  · intro h
    obtain ⟨⟨hvisible, hfronts⟩, htakes⟩ := h
    obtain ⟨hsuffix, hinfo, hignores⟩ := (takes_iff hnames hlast
      (hvisible _ (List.getLast_mem hne))).1 htakes
    refine ⟨hvisible, ⟨_, hlast, hsuffix, hinfo⟩, ?_, hignores⟩
    intro package hpackage rest hpne hrest happend
    -- an excluded package on the way would have stopped the walk at its
    -- directory
    have hfront : ∀ name ∈ packageNames package, Path.IsName name :=
      fun name => isName_of_mem_packageNames (hslash package hpackage)
    have hexcluded := (isExcluded_down_iff hslash hfront).2
      ⟨package, hpackage, rfl⟩
    have hkept := hfronts _ rest hpne hrest happend
    rw [List.nil_append, hexcluded] at hkept
    cases hkept
  · intro h
    obtain ⟨name, hname, hsuffix, hinfo⟩ := h.isProgram
    obtain rfl := Option.some.inj (hlast.symm.trans hname)
    refine ⟨⟨h.isVisible, ?_⟩, (takes_iff hnames hlast
      (h.isVisible _ (List.getLast_mem hne))).2 ⟨hsuffix, hinfo, h.isKept⟩⟩
    intro front rest hfront hrest happend
    rw [List.nil_append, ← Bool.not_eq_true,
      isExcluded_down_iff hslash fun name hname => hnames name
        (happend ▸ List.mem_append_left rest hname)]
    intro hpackage
    obtain ⟨package, hpackage, heq⟩ := hpackage
    rw [← heq] at hfront happend
    exact h.isIncluded package hpackage rest hfront hrest happend

theorem mem_sources_iff
    (hproper : (FileTree.directory entries).IsProper)
    (hslash : ∀ package ∈ filter.packages, '/' ∉ package.toList) :
    path ∈ filter.sources (.directory entries)
      ↔ ∃ names, (FileTree.directory entries).HasFile names
        ∧ filter.Wants (StartsWith '.') names ∧ path = filter.root.down names := by
  have hwalk : filter.sources (.directory entries)
      = filter.sourcesAt (filter.root.down []) "" (.directory entries) := by
    rw [sourcesAt]
    rfl
  rw [hwalk, mem_sourcesAt_iff hproper]
  apply exists_congr
  intro names
  rw [List.nil_append, ← and_assoc (a := filter.Passes [] names)]
  apply and_congr_right
  intro hfile
  apply and_congr_left'
  exact passes_and_takes_iff hslash (hfile.isName hproper)
    (hfile.isDirectory_iff.1 rfl)

/-- The byte of a dot in front of one that is part of no character: the
name is no text, and hides nothing. -/
example :
    let name : RawText := ⟨[Path.dot, 0xFF]⟩ ++ ".js"
    let filter : SourceFilter := ⟨⟨"/T"⟩, [], fun _ => false⟩
    filter.sources (.directory [(name, .file ())]) = [filter.root / name] := by
  decide +kernel

/-- A package beside one that its name begins with, and a package
description. -/
def siblings : List (RawText × FileTree Unit) :=
  [("uax", .directory [("b.js", .file ()), ("package-info.js", .file ())]),
   ("ua", .directory [("a.js", .file ())])]

theorem isProper_siblings : (FileTree.directory siblings).IsProper := by
  have huax : (FileTree.directory
      [("b.js", .file ()), ("package-info.js", .file ())]).IsProper :=
    .directory (by decide) (by decide) (List.forall_mem_cons.2
      ⟨.file (), List.forall_mem_singleton.2 (.file ())⟩)
  have hua : (FileTree.directory [("a.js", .file ())]).IsProper :=
    .directory (by decide) (by decide)
      (List.forall_mem_singleton.2 (.file ()))
  exact .directory (by decide) (by decide) (List.forall_mem_cons.2
    ⟨huax, List.forall_mem_singleton.2 hua⟩)

/-- The names of the directory of a package, and those of the files in
it. -/
theorem exists_of_hasFile_siblings
    (h : (FileTree.directory siblings).HasFile names) :
    ∃ first last, names = [first, last]
      ∧ first ∈ [RawText.ofText "uax", .ofText "ua"]
      ∧ last ∈ [RawText.ofText "b.js", .ofText "package-info.js",
        .ofText "a.js"] := by
  cases h with
  | @entry _ first _ _ hfirst hinner =>
      simp only [siblings, List.mem_cons, Prod.mk.injEq, List.not_mem_nil,
        or_false] at hfirst
      obtain ⟨rfl, rfl⟩ | ⟨rfl, rfl⟩ := hfirst
      · cases hinner with
        | @entry _ last _ _ hlast hfile =>
            simp only [List.mem_cons, Prod.mk.injEq, List.not_mem_nil,
              or_false] at hlast
            obtain ⟨rfl, rfl⟩ | ⟨rfl, rfl⟩ := hlast
            all_goals
              cases hfile
              exact ⟨_, _, rfl, by decide, by decide⟩
      · cases hinner with
        | @entry _ last _ _ hlast hfile =>
            obtain ⟨rfl, rfl⟩ := Prod.mk.inj (List.mem_singleton.1 hlast)
            cases hfile
            exact ⟨_, _, rfl, by decide, by decide⟩

end SourceFilter

end ScriptLint
