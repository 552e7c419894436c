/-
Checking many files. Every file is checked by a session of its own, so its
findings are what a session reports that checks nothing else; and since the
results are put into the order of their paths, the order in which the files
were named does not show (`FileSystem.checkFiles_of_perm`).

# The argument

- Each file that can be read has a result that depends on its path alone
  (`exists_checkFile`), so the results in two orders are permutations of
  each other.
- Sorting by path brings them into one order, because no two paths stand
  level (`CheckedFile.Distinct.inOrder_eq`).
-/
import ScriptLint.Proofs.Path.Order
import ScriptLint.Proofs.Returns
import ScriptLint.Run

namespace ScriptLint

namespace CheckedFile

variable {xs ys : List CheckedFile}

/-- Of no two files do the paths stand level. -/
def Distinct (files : List CheckedFile) : Prop :=
  files.Pairwise fun a b => a.path.order b.path ≠ .eq

theorem Distinct.of_perm (h : Distinct xs) (hperm : ys.Perm xs) :
    Distinct ys := by
  refine (hperm.pairwise_iff fun hne heq => ?_).2 h
  rw [Path.order_eq_eq_iff] at heq
  exact hne (Path.order_eq_eq_iff.2 heq.symm)

theorem inOrder_perm (xs : List CheckedFile) : (inOrder xs).Perm xs := by
  unfold inOrder
  exact List.mergeSort_perm xs _

/-- Sorting such files puts each before those behind it. -/
theorem Distinct.pairwise_inOrder (h : Distinct xs) :
    (inOrder xs).Pairwise fun a b => a.path.order b.path = .lt := by
  have hsorted : (inOrder xs).Pairwise
      fun a b => a.path.precedes b.path = true := by
    apply List.pairwise_mergeSort
    · exact fun a b c => Path.precedes_trans
    · exact fun a b => Path.precedes_total a.path b.path
  exact Path.pairwise_of_sorted hsorted (h.of_perm (inOrder_perm xs))

/-- So the order they were in before does not matter. -/
theorem Distinct.inOrder_eq (h : Distinct xs) (hperm : ys.Perm xs) :
    inOrder ys = inOrder xs := by
  have hsame : (inOrder ys).Perm (inOrder xs) :=
    (inOrder_perm ys).trans (hperm.trans (inOrder_perm xs).symm)
  exact Path.eq_of_pairwise hsame (h.of_perm hperm).pairwise_inOrder
    h.pairwise_inOrder

/-- Any bytes have findings, be they a text or not. -/
theorem exists_diagnose_eq_ok (options : Options) (name : String)
    (bytes : List UInt8) :
    ∃ found, diagnose options name bytes = .ok found := by
  unfold diagnose
  split
  · exact Session.exists_check_eq_ok _ name _
  · exact ⟨_, rfl⟩

end CheckedFile

namespace FileSystem

variable (files : FileSystem Id) (options : Options) (cwd : Path)

/-- A file, called as it is seen from the working directory, with what a
session reports that checks nothing but this file. -/
structure ChecksAlone (file : CheckedFile) : Prop where
  name_eq : file.name = file.path.shownFrom cwd
  diagnose_eq : ∃ bytes, files.read? file.path = some bytes
    ∧ CheckedFile.diagnose options file.name bytes = .ok file.diagnostics
    ∧ ∀ text, Text.Utf8.text? bytes = some text →
      ((Session.start options).check file.name text).2 = .ok file.diagnostics

variable {files options cwd}

/-- A file that can be read is checked. -/
theorem exists_checkFile {path : Path} {bytes : List UInt8}
    (h : files.read? path = some bytes) :
    ∃ file, file.path = path ∧ files.ChecksAlone options cwd file
      ∧ files.checkFile options cwd path = pure file := by
  obtain ⟨found, hfound⟩ :=
    CheckedFile.exists_diagnose_eq_ok options (path.shownFrom cwd) bytes
  refine ⟨⟨path, path.shownFrom cwd, found⟩, rfl,
    ⟨rfl, bytes, h, hfound, fun text htext => ?_⟩, ?_⟩
  · rw [CheckedFile.diagnose, htext] at hfound
    exact hfound
  · have hfile : CheckedFile.ofBytes options cwd path bytes
        = .ok ⟨path, path.shownFrom cwd, found⟩ := by
      rw [CheckedFile.ofBytes, hfound]
      rfl
    have hread : files.read? path = pure (some bytes) := h
    unfold checkFile
    rw [hread]
    refine (pure_bind (some bytes) _).trans ?_
    dsimp only
    rw [hfile]

/-- Files of which each is checked are checked one after the other. -/
theorem mapM_checkFile {paths : List Path} {checked : Path → CheckedFile}
    (h : ∀ path ∈ paths,
      files.checkFile options cwd path = pure (checked path)) :
    paths.mapM (files.checkFile options cwd) = pure (paths.map checked) := by
  induction paths with
  | nil => rfl
  | cons path paths ih =>
      rw [List.forall_mem_cons] at h
      rw [List.mapM_cons, h.1, ih h.2]
      rfl

/-- Files that can be read and of which no two stand level have one and the
same result in whatever order they are checked: each of them once, in
strictly increasing order of the paths, with what a session reports that
checks nothing else. -/
theorem checkFiles_of_perm (files : FileSystem Id) (options : Options)
    (cwd : Path) {paths : List Path}
    (hread : ∀ path ∈ paths, ∃ bytes, files.read? path = some bytes)
    (hne : paths.Pairwise fun a b => a.order b ≠ .eq) :
    ∃ result : List CheckedFile,
      (∀ others : List Path, others.Perm paths →
        (files.checkFiles options cwd others).run = .ok result)
      ∧ (result.map (·.path)).Perm paths
      ∧ result.Pairwise (fun a b => a.path.order b.path = .lt)
      ∧ ∀ file ∈ result, files.ChecksAlone options cwd file := by
  -- what becomes of a file depends on its path alone
  have hfiles : ∀ path, ∃ file : CheckedFile, path ∈ paths →
      file.path = path ∧ files.ChecksAlone options cwd file
        ∧ files.checkFile options cwd path = pure file := by
    intro path
    by_cases hpath : path ∈ paths
    · obtain ⟨bytes, hbytes⟩ := hread path hpath
      obtain ⟨file, hfile⟩ := exists_checkFile hbytes
      exact ⟨file, fun _ => hfile⟩
    · exact ⟨⟨path, "", []⟩, fun h => absurd h hpath⟩
  choose checked hchecked using hfiles
  have hmap : (paths.map checked).map (·.path) = paths := by
    rw [List.map_map]
    exact (List.map_congr_left fun path h => (hchecked path h).1).trans
      (List.map_id paths)
  have hdistinct : CheckedFile.Distinct (paths.map checked) := by
    rw [← hmap, List.pairwise_map] at hne
    exact hne
  have hsame := CheckedFile.inOrder_perm (paths.map checked)
  refine ⟨CheckedFile.inOrder (paths.map checked), fun others hperm => ?_,
    ?_, hdistinct.pairwise_inOrder, fun file hfile => ?_⟩
  · rw [checkFiles, mapM_checkFile fun path h =>
      (hchecked path (hperm.mem_iff.1 h)).2.2,
      ← hdistinct.inOrder_eq (hperm.map checked)]
    rfl
  · have hpaths := hsame.map (·.path)
    rwa [hmap] at hpaths
  · obtain ⟨path, hpath, rfl⟩ := List.mem_map.1 (hsame.mem_iff.1 hfile)
    exact (hchecked path hpath).2.1

/-- A directory with a program and with a byte that is none. -/
def twoFiles : FileTree (List UInt8) :=
  .directory [("b.js", .file [0x61]), ("a.js", .file [0xFF])]

/-- The two files, checked in either order. -/
theorem checkFiles_of_perm_two :
    let files := FileSystem.ofTree twoFiles
    let paths : List Path := [⟨"/b.js"⟩, ⟨"/a.js"⟩]
    (∀ path ∈ paths, ∃ bytes, files.read? path = some bytes)
      ∧ (paths.Pairwise fun a b => a.order b ≠ .eq)
      ∧ ∃ result : List CheckedFile,
        (files.checkFiles {} ⟨"/"⟩ paths).run = .ok result
        ∧ (files.checkFiles {} ⟨"/"⟩ paths.reverse).run = .ok result
        ∧ result.Pairwise (fun a b => a.path.order b.path = .lt)
        ∧ ∀ file ∈ result, files.ChecksAlone {} ⟨"/"⟩ file := by
  intro files paths
  have hread : ∀ path ∈ paths, ∃ bytes, files.read? path = some bytes := by
    have hb : (twoFiles.at? ⟨"/b.js"⟩).bind FileTree.content?
        = some [0x61] := by
      decide +kernel
    have ha : (twoFiles.at? ⟨"/a.js"⟩).bind FileTree.content?
        = some [0xFF] := by
      decide +kernel
    exact List.forall_mem_cons.2
      ⟨⟨_, hb⟩, List.forall_mem_singleton.2 ⟨_, ha⟩⟩
  have hne : paths.Pairwise fun a b => a.order b ≠ .eq := by decide +kernel
  obtain ⟨result, hresult, -, hsorted, halone⟩ :=
    checkFiles_of_perm files {} ⟨"/"⟩ hread hne
  exact ⟨hread, hne, result, hresult paths (.refl _),
    hresult paths.reverse paths.reverse_perm, hsorted, halone⟩

end FileSystem

end ScriptLint
