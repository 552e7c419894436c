/-
The grammar of dotted names. A package is one segment or more, of which
all but the first have two characters at least; behind it stand the classes,
from the outermost one inwards, each of which begins with a capital; and
behind these there may be one member (`Naming.Denotes`). Where the package
ends shows in the first capital, so a name has one reading as a class, and
one as a member.

Class names and the names of static members are told by this grammar at
any depth of classes. Qualified names are told by it at depth one only
(`Naming.isQualifiedName_iff`).

# The argument

- The grammar is given by inductive definitions on texts, the tests are on
  segments. Putting a segment behind a name is putting it behind its
  segments, which translates the one into the other (`segments_concat`,
  `isClassAt_iff`).
- Where the package ends is found by the first segment that begins with a
  capital (`behindPackage?_eq_some_iff`), so there is one reading only.
- The counterexample is a class within a class, whose name has two segments
  behind the package.
-/
import Mathlib.Data.List.Induction
import ScriptLint.Proofs.NameParts

namespace ScriptLint.Naming

open Text

variable {name segment : String} {depth : Nat}
  {path classes : List (List Char)} {last : List Char}

-- ============================================================= grammar

/-- The name of a package. -/
inductive IsPackage : String → Prop where
  | head {segment : String} : isPackageHead segment.toList = true →
    IsPackage segment
  | nested {package segment : String} : IsPackage package →
    isPackageSegment segment.toList = true →
    IsPackage (package ++ "." ++ segment)

/-- The name of a class that has `depth` class segments, itself and the
classes around it. -/
inductive IsClassAt : Nat → String → Prop where
  | outermost {package segment : String} : IsPackage package →
    isClassSegment segment.toList = true →
    IsClassAt 1 (package ++ "." ++ segment)
  | inner {depth : Nat} {owner segment : String} : IsClassAt depth owner →
    isClassSegment segment.toList = true →
    IsClassAt (depth + 1) (owner ++ "." ++ segment)

/-- The name of such a class, or of a member of it. -/
inductive Denotes (depth : Nat) : String → Prop where
  | owner {owner : String} : IsClassAt depth owner → Denotes depth owner
  | member {owner member : String} : IsClassAt depth owner →
    isMemberSegment member.toList = true →
    Denotes depth (owner ++ "." ++ member)

-- ============================================================ segments

theorem dot_notMem_package {segment : List Char}
    (h : isPackageHead segment = true) : '.' ∉ segment :=
  notMem_of_isShaped h (by decide) (by decide)

theorem dot_notMem_class {segment : List Char}
    (h : isClassSegment segment = true) : '.' ∉ segment :=
  notMem_of_isShaped h (by decide) (by decide)

/-- Class segments do not begin like package segments. -/
theorem not_isPackageSegment {segment : List Char}
    (h : isClassSegment segment = true) :
    isPackageSegment segment = false := by
  cases segment with
  | nil => rfl
  | cons c cs =>
      have hcapital : isCapital c = true := (Bool.and_eq_true_iff.1 h).1
      have hsmall : isSmall c = false := by
        simp only [isCapital, isSmall, Bool.and_eq_true, decide_eq_true_eq,
          Bool.and_eq_false_iff, decide_eq_false_iff_not] at hcapital ⊢
        exact .inl fun hle => absurd (Char.le_trans hle hcapital.2) (by decide)
      rw [isPackageSegment, isPackageHead, isShaped, hsmall, Bool.false_and,
        Bool.false_and]

theorem segments_concat (front : String) (h : '.' ∉ segment.toList) :
    segments (front ++ "." ++ segment)
      = segments front ++ [segment.toList] := by
  rw [segments_join, segments_of_notMem h]

theorem segments_ne_nil (name : String) : segments name ≠ [] := by
  rcases segments_cases name with halone | ⟨front, segment, -, hcut, -⟩
  · rw [halone]
    exact List.cons_ne_nil _ _
  · rw [hcut]
    exact List.concat_ne_nil _ _

/-- A name with one segment is that segment. -/
theorem toList_of_segments_singleton (h : segments name = [last]) :
    name.toList = last := by
  rcases segments_cases name with halone | ⟨front, segment, -, hcut, -⟩
  · exact List.singleton_inj.1 (halone.symm.trans h)
  · rw [hcut] at h
    exact absurd (List.append_inj_left' (h.trans (List.nil_append _).symm) rfl)
      (segments_ne_nil front)

/-- A name with more segments ends in the last of them. -/
theorem exists_of_segments_concat (h : segments name = path ++ [last])
    (hpath : path ≠ []) :
    ∃ front segment, name = front ++ "." ++ segment
      ∧ segments front = path ∧ segment.toList = last := by
  rcases segments_cases name with halone | ⟨front, segment, hname, hcut, -⟩
  · rw [halone] at h
    exact absurd (List.append_inj_left' (h.symm.trans
      (List.nil_append _).symm) rfl) hpath
  · rw [hcut] at h
    obtain ⟨hfront, hlast⟩ := List.append_inj' h rfl
    exact ⟨front, segment, hname.symm, hfront, List.singleton_inj.1 hlast⟩

-- ============================================================ packages

/-- The segments of a package. -/
def IsPackagePath : List (List Char) → Prop
  | [] => False
  | head :: more => isPackageHead head = true
    ∧ ∀ segment ∈ more, isPackageSegment segment = true

theorem IsPackagePath.ne_nil (h : IsPackagePath path) : path ≠ [] := by
  rintro rfl
  exact h

theorem isPackagePath_concat_iff (h : path ≠ []) :
    IsPackagePath (path ++ [last])
      ↔ IsPackagePath path ∧ isPackageSegment last = true := by
  cases path with
  | nil => exact absurd rfl h
  | cons head more =>
      simp only [List.cons_append, IsPackagePath, List.forall_mem_append,
        List.forall_mem_singleton, and_assoc]

/-- A name is that of a package when its segments are. -/
theorem isPackage_iff : IsPackage name ↔ IsPackagePath (segments name) := by
  constructor
  · intro h
    induction h with
    | head hsegment =>
        rw [segments_of_notMem (dot_notMem_package hsegment)]
        exact ⟨hsegment, List.forall_mem_nil _⟩
    | nested _ hsegment ih =>
        have hdot := dot_notMem_package (Bool.and_eq_true_iff.1 hsegment).1
        rw [segments_concat _ hdot, isPackagePath_concat_iff ih.ne_nil]
        exact ⟨ih, hsegment⟩
  · intro h
    generalize hpath : segments name = path at h
    induction path using List.reverseRecOn generalizing name with
    | nil => exact h.elim
    | append_singleton path last ih =>
        by_cases hne : path = []
        · subst hne
          obtain rfl := toList_of_segments_singleton hpath
          exact .head h.1
        · obtain ⟨front, segment, rfl, hfront, rfl⟩ :=
            exists_of_segments_concat hpath hne
          obtain ⟨hpackage, hlast⟩ := (isPackagePath_concat_iff hne).1 h
          exact .nested (ih hfront hpackage) hlast

/-- The package ends in front of the first class. -/
theorem behindPackage?_eq_some_iff {owner : List Char}
    (h : isClassSegment owner = true) :
    behindPackage? path = some (owner :: classes)
      ↔ ∃ package, IsPackagePath package
        ∧ path = package ++ owner :: classes := by
  constructor
  · intro hpath
    cases path with
    | nil => cases hpath
    | cons head more =>
        rw [behindPackage?] at hpath
        split at hpath
        · rename_i hhead
          have hcut := List.takeWhile_append_dropWhile
            (p := isPackageSegment) (l := more)
          rw [Option.some.inj hpath] at hcut
          refine ⟨head :: more.takeWhile isPackageSegment,
            ⟨hhead, fun segment hmem => List.mem_takeWhile_imp hmem⟩, ?_⟩
          rw [List.cons_append, hcut]
        · cases hpath
  · rintro ⟨package, hpackage, rfl⟩
    cases package with
    | nil => exact hpackage.elim
    | cons head more =>
        rw [List.cons_append, behindPackage?, if_pos hpackage.1,
          List.dropWhile_append_of_pos hpackage.2, List.dropWhile_cons,
          not_isPackageSegment h]
        rfl

-- ============================================================= classes

/-- The segments of a class: a package and the classes behind it. -/
def IsClassPathAt (depth : Nat) (path : List (List Char)) : Prop :=
  ∃ package classes, IsPackagePath package ∧ path = package ++ classes
    ∧ classes.length = depth
    ∧ ∀ segment ∈ classes, isClassSegment segment = true

/-- A name is that of a class when its segments are. -/
theorem isClassAt_iff :
    IsClassAt depth name ↔ 0 < depth ∧ IsClassPathAt depth (segments name) := by
  constructor
  · intro h
    induction h with
    | @outermost package segment hpackage hsegment =>
        refine ⟨Nat.zero_lt_one, segments package, [segment.toList],
          isPackage_iff.1 hpackage, ?_, rfl,
          List.forall_mem_singleton.2 hsegment⟩
        rw [segments_concat _ (dot_notMem_class hsegment)]
    | @inner depth owner segment _ hsegment ih =>
        obtain ⟨-, package, classes, hpackage, howner, hdepth, hclasses⟩ := ih
        refine ⟨Nat.succ_pos depth, package, classes ++ [segment.toList],
          hpackage, ?_, by simp [hdepth], ?_⟩
        · rw [segments_concat _ (dot_notMem_class hsegment), howner,
            List.append_assoc]
        · exact List.forall_mem_append.2
            ⟨hclasses, List.forall_mem_singleton.2 hsegment⟩
  · rintro ⟨hpos, package, classes, hpackage, hpath, hdepth, hclasses⟩
    -- the innermost class is the last segment, so the path is taken apart from
    -- the end
    induction classes using List.reverseRecOn generalizing depth name with
    | nil => exact absurd hdepth (by simpa using hpos.ne)
    | append_singleton classes last ih =>
        rw [← List.append_assoc] at hpath
        obtain ⟨hinit, hlast⟩ := List.forall_mem_append.1 hclasses
        obtain ⟨front, segment, rfl, hfront, rfl⟩ :=
          exists_of_segments_concat hpath
            (List.append_ne_nil_of_left_ne_nil hpackage.ne_nil _)
        have hsegment := List.forall_mem_singleton.1 hlast
        by_cases hne : classes = []
        · subst hne
          rw [List.append_nil] at hfront
          obtain rfl : depth = 1 := by simpa using hdepth.symm
          exact .outermost (isPackage_iff.2 (hfront ▸ hpackage)) hsegment
        · obtain rfl : depth = classes.length + 1 := by simpa using hdepth.symm
          exact .inner (ih (List.length_pos_iff.2 hne) hfront rfl hinit)
            hsegment

/-- Class names are the names of classes at some depth. -/
theorem isClassName_iff :
    isClassName name = true ↔ ∃ depth, IsClassAt depth name := by
  simp only [isClassAt_iff]
  constructor
  · intro h
    rw [isClassName, isClassPath] at h
    split at h
    · rename_i classes hbehind
      obtain ⟨hsome, hall⟩ := Bool.and_eq_true_iff.1 h
      rw [List.all_eq_true] at hall
      cases classes with
      | nil => cases hsome
      | cons owner classes =>
          obtain ⟨package, hpackage, hpath⟩ := (behindPackage?_eq_some_iff
            (hall owner List.mem_cons_self)).1 hbehind
          exact ⟨classes.length + 1, Nat.succ_pos _, package, _, hpackage,
            hpath, rfl, hall⟩
    · cases h
  · rintro ⟨depth, hpos, package, classes, hpackage, hpath, rfl, hclasses⟩
    obtain ⟨owner, classes, rfl⟩ :=
      List.exists_cons_of_ne_nil (List.length_pos_iff.1 hpos)
    have hbehind := (behindPackage?_eq_some_iff
      (hclasses owner List.mem_cons_self)).2 ⟨package, hpackage, hpath⟩
    rw [isClassName, isClassPath, hbehind]
    simpa [List.all_eq_true] using hclasses

/-- Names of static members are those of members of such classes. -/
theorem isStaticMemberName_iff :
    isStaticMemberName name = true
      ↔ ∃ depth owner member, IsClassAt depth owner
        ∧ isMemberSegment member.toList = true
        ∧ name = owner ++ "." ++ member := by
  rw [isStaticMemberName, isMemberPath_segments_iff]
  constructor
  · rintro ⟨owner, member, hname, hclass, -, hmember⟩
    obtain ⟨depth, howner⟩ := isClassName_iff.1 hclass
    exact ⟨depth, owner, member, howner, hmember, hname.symm⟩
  · rintro ⟨depth, owner, member, howner, hmember, rfl⟩
    exact ⟨owner, member, rfl, isClassName_iff.2 ⟨depth, howner⟩,
      dot_notMem_member hmember, hmember⟩

/-- A class name or the name of a static member: what the grammar
describes. -/
theorem isClassName_or_isStaticMemberName_iff :
    isClassName name = true ∨ isStaticMemberName name = true
      ↔ ∃ depth, Denotes depth name := by
  rw [isClassName_iff, isStaticMemberName_iff]
  constructor
  · rintro (⟨depth, howner⟩ | ⟨depth, owner, member, howner, hmember, rfl⟩)
    · exact ⟨depth, .owner howner⟩
    · exact ⟨depth, .member howner hmember⟩
  · rintro ⟨depth, hname⟩
    cases hname with
    | owner howner => exact .inl ⟨depth, howner⟩
    | member howner hmember =>
        exact .inr ⟨depth, _, _, howner, hmember, rfl⟩

-- ===================================================== qualified names

/-- The class of a package itself, by its segments. -/
theorem isClassAt_one_iff :
    IsClassAt 1 name ↔ ∃ package owner, IsPackagePath package
      ∧ isClassSegment owner = true ∧ segments name = package ++ [owner] := by
  rw [isClassAt_iff]
  constructor
  · rintro ⟨-, package, classes, hpackage, hpath, hdepth, hclasses⟩
    obtain ⟨owner, rfl⟩ := List.length_eq_one_iff.1 hdepth
    exact ⟨package, owner, hpackage, hclasses owner List.mem_cons_self, hpath⟩
  · rintro ⟨package, owner, hpackage, howner, hpath⟩
    exact ⟨Nat.zero_lt_one, package, [owner], hpackage, hpath, rfl,
      List.forall_mem_singleton.2 howner⟩

/-- A qualified name is one of an outermost class or of a member of it. -/
theorem isQualifiedName_eq_true_iff :
    isQualifiedName name = true ↔ Denotes 1 name := by
  constructor
  · intro h
    unfold isQualifiedName at h
    split at h
    -- behind the package stands a class, or a class and a member
    · rename_i owner hbehind
      obtain ⟨package, hpackage, hpath⟩ :=
        (behindPackage?_eq_some_iff h).1 hbehind
      exact .owner (isClassAt_one_iff.2 ⟨package, owner, hpackage, h, hpath⟩)
    · rename_i owner last hbehind
      obtain ⟨howner, hmember⟩ := Bool.and_eq_true_iff.1 h
      obtain ⟨package, hpackage, hpath⟩ :=
        (behindPackage?_eq_some_iff howner).1 hbehind
      rw [List.append_cons] at hpath
      obtain ⟨front, member, rfl, hfront, rfl⟩ :=
        exists_of_segments_concat hpath (List.concat_ne_nil _ _)
      exact .member
        (isClassAt_one_iff.2 ⟨package, owner, hpackage, howner, hfront⟩)
        hmember
    · cases h
  · intro h
    cases h with
    | owner hname =>
        obtain ⟨package, owner, hpackage, howner, hpath⟩ :=
          isClassAt_one_iff.1 hname
        rw [isQualifiedName,
          (behindPackage?_eq_some_iff howner).2 ⟨package, hpackage, hpath⟩]
        exact howner
    | @member front member hfront hmember =>
        obtain ⟨package, owner, hpackage, howner, hpath⟩ :=
          isClassAt_one_iff.1 hfront
        have hall : segments (front ++ "." ++ member)
            = package ++ [owner, member.toList] := by
          rw [segments_concat _ (dot_notMem_member hmember), hpath,
            List.append_assoc]
          rfl
        rw [isQualifiedName,
          (behindPackage?_eq_some_iff howner).2 ⟨package, hpackage, hall⟩]
        exact Bool.and_eq_true_iff.2 ⟨howner, hmember⟩

/-- Class names and names of static members are what the grammar describes
at any depth of classes, and qualified names are what it describes at depth
one. So a name is qualified when it is one of the other two, and only then,
exactly if it has a reading at depth one or none at all. -/
theorem isQualifiedName_iff (name : String) :
    (isQualifiedName name = true ↔ Denotes 1 name)
      ∧ (isClassName name = true ∨ isStaticMemberName name = true
        ↔ ∃ depth, Denotes depth name)
      ∧ ((isQualifiedName name = true
          ↔ isClassName name = true ∨ isStaticMemberName name = true)
        ↔ Denotes 1 name ∨ ¬ ∃ depth, Denotes depth name) := by
  refine ⟨isQualifiedName_eq_true_iff,
    isClassName_or_isStaticMemberName_iff, ?_⟩
  rw [isQualifiedName_eq_true_iff, isClassName_or_isStaticMemberName_iff]
  constructor
  · intro hsame
    by_cases hnamed : ∃ depth, Denotes depth name
    · exact .inl (hsame.2 hnamed)
    · exact .inr hnamed
  · rintro (hone | hnone)
    · exact ⟨fun _ => ⟨1, hone⟩, fun _ => hone⟩
    · exact ⟨fun hone => absurd ⟨1, hone⟩ hnone,
        fun hnamed => absurd hnamed hnone⟩

/-- An inner class has a class name, but no qualified one. -/
theorem not_isQualifiedName_inner :
    ¬ (isQualifiedName "comp.prj.Class.Inner" = true
      ↔ isClassName "comp.prj.Class.Inner" = true
        ∨ isStaticMemberName "comp.prj.Class.Inner" = true) := by
  intro hsame
  have hclass : isClassName "comp.prj.Class.Inner" = true := by decide
  have hqualified : isQualifiedName "comp.prj.Class.Inner" = false := by
    decide
  rw [hsame.2 (.inl hclass)] at hqualified
  cases hqualified

end ScriptLint.Naming
