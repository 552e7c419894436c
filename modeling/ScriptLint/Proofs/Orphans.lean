/-
Classes without a superclass. A check that requires superclasses goes like
one that does not, and reports behind it the classes that are defined, are
not native and have no superclass (`ClassTable.orphans`). A class has a
superclass at the end exactly if some call of `$extends` has linked it
(`Arena.LinksAt`), so which classes are reported, and where, can be read
off the program (`Session.missingSupers_of_check`).

# The argument

- The two checks take the same course, since the option is looked at behind
  the last node only (`visit_requiring`, `check_requiring`).
- What is reported there is a list of classes of the last model
  (`Model.missingSupers_eq`), each once, because names are registered once
  (`Coherent.nodup_orphans`).
- Which classes these are is read off the nodes: those that have been
  defined, and that no call has linked (`Passes.mem_orphans_visit_iff`).
-/
import ScriptLint.Proofs.Ancestry
import ScriptLint.Proofs.NameParts

namespace ScriptLint

-- ============================================================== tables

namespace ClassTable

variable {classes : ClassTable} {name : String}

/-- The root is the only native class in a package. -/
theorem isNative_of_isClassName (h : Naming.isClassName name = true) :
    isNative name = (name == rootName) := by
  rw [isNative, Naming.not_isNativeName h, Bool.false_or]

/-- The classes that need a superclass and have none. -/
def orphans (classes : ClassTable) : List String :=
  (classes.entries.map (·.1)).filter fun name =>
    (classes.definedAt? name).isSome && !isNative name
      && (classes.superName? name).isNone

theorem Coherent.nodup_orphans (h : classes.Coherent) :
    classes.orphans.Nodup :=
  h.unambiguous.filter _

/-- A class that is defined is in the table. -/
theorem mem_orphans_iff :
    name ∈ classes.orphans
      ↔ (classes.definedAt? name).isSome = true ∧ isNative name = false
        ∧ classes.superName? name = none := by
  rw [orphans, List.mem_filter, Bool.and_eq_true_iff, Bool.and_eq_true_iff,
    Bool.not_eq_true', Option.isNone_iff_eq_none, and_assoc]
  refine and_iff_right_of_imp ?_
  rintro ⟨hdefined, -⟩
  obtain ⟨line, hline⟩ := Option.isSome_iff_exists.1 hdefined
  obtain ⟨info, hinfo, -⟩ := Option.bind_eq_some_iff.1 hline
  by_contra hunknown
  rw [Registry.lookUp?_eq_none_iff.2
    (Registry.find?_eq_none_iff.2 hunknown)] at hinfo
  cases hinfo

end ClassTable

/-- What is reported at the end are these classes, each where it is
defined. -/
theorem Model.missingSupers_eq {model : Model}
    (h : model.classes.Coherent) :
    model.missingSupers = model.classes.orphans.map fun name =>
      .report .noSuper ((model.classes.definedAt? name).getD 0)
        s!"Class [{name}]." := by
  rw [missingSupers, ClassTable.orphans, List.filter_map, List.map_map,
    ← List.filterMap_eq_map, List.filterMap_filter]
  refine List.filterMap_congr fun entry hentry => ?_
  obtain ⟨name, info⟩ := entry
  have hinfo : model.classes.lookUp? name = some info :=
    h.unambiguous.lookUp?_eq_some_iff.2 hentry
  have hdefined : model.classes.definedAt? name = info.definedAt := by
    rw [ClassTable.definedAt?, hinfo]
    rfl
  have hsuper : (model.classes.superName? name).isNone
      = !info.superClass.isSome := by
    rw [ClassTable.superName?, hinfo, Option.bind_some, Option.isNone_map,
      Option.not_isSome]
  simp only [Function.comp_apply, hdefined, hsuper]
  cases info.definedAt with
  | none => rfl
  | some line =>
      cases ClassTable.isNative name <;> cases info.superClass <;> rfl

-- =============================================================== links

namespace Arena

variable {arena : Arena} {model : Model} {i : Nat} {name : String}

/-- A call of `$extends` links the class with a name: the class has no
superclass before, and behind the call the one that it names. -/
def Links (arena : Arena) (before after : ClassTable) (i : Nat)
    (name : String) : Prop :=
  ∃ superName, arena.extension? i = some (name, superName)
    ∧ before.superName? name = none
    ∧ after.superName? name = some superName

/-- The step lemma. -/
theorem isSome_superName?_checkNode_iff {outcome : Outcome}
    (h : model.classes.Coherent)
    (hrun : arena.checkNode model i = .ok outcome) :
    (outcome.model.classes.superName? name).isSome = true
      ↔ (model.classes.superName? name).isSome = true
        ∨ arena.Links model.classes outcome.model.classes i name := by
  constructor
  · intro hsome
    by_cases hold : model.classes.superName? name = none
    · right
      obtain ⟨superName, hnew⟩ := Option.isSome_iff_exists.1 hsome
      refine ⟨superName, ?_, hold, hnew⟩
      cases hextends : arena.extension? i with
      | none =>
          rw [superName?_of_extension?_eq_none h hextends hrun, hold] at hnew
          cases hnew
      | some names =>
          obtain ⟨subject, target⟩ := names
          rw [(extends_checkNode h hextends hrun).2] at hnew
          split at hnew
          · rename_i hlinked
            rw [hlinked.2, Option.some.inj hnew]
          · rw [hold] at hnew
            cases hnew
    · exact .inl (Option.isSome_iff_ne_none.2 hold)
  · rintro (hold | ⟨superName, -, -, hnew⟩)
    · obtain ⟨superName, hsuper⟩ := Option.isSome_iff_exists.1 hold
      rw [superName?_checkNode_of_eq_some h hrun hsuper]
      rfl
    · rw [hnew]
      rfl

end Arena

namespace Session

variable {arena : Arena} {root : Ref} {session : Session}

/-- A class has a superclass exactly if some call has linked it. -/
theorem Passes.isSome_superName?_visit_iff (h : Passes arena root)
    (hmodel : session.model.classes = {}) (nodes : List Nat)
    (name : String) :
    let classesAfter nodes := (visit arena nodes session).1.model.classes
    ((classesAfter nodes).superName? name).isSome = true
      ↔ ∃ before i, before ++ [i] <+: nodes
        ∧ arena.Links (classesAfter before) (classesAfter (before ++ [i])) i
          name := by
  have hcoherent : session.model.classes.Coherent := by
    rw [hmodel]
    exact ClassTable.coherent_empty
  refine h.visit_iff_exists (P := fun session =>
    (session.model.classes.superName? name).isSome = true) ?_ ?_ nodes
  · rw [hmodel]
    nofun
  · intro before i outcome hrun
    dsimp only
    rw [h.visit_concat before hrun]
    exact Arena.isSome_superName?_checkNode_iff
      (coherent_visit before hcoherent) hrun

/-- The classes that need a superclass behind some nodes and have none. -/
theorem Passes.mem_orphans_visit_iff (h : Passes arena root)
    (hmodel : session.model.classes = {}) (nodes : List Nat)
    (name : String) :
    let classesAfter nodes := (visit arena nodes session).1.model.classes
    name ∈ (classesAfter nodes).orphans ↔ Naming.isClassName name = true
      ∧ name ≠ ClassTable.rootName
      ∧ (∃ i ∈ nodes, arena.assignsBody name i = true)
      ∧ ¬ ∃ before i, before ++ [i] <+: nodes
        ∧ arena.Links (classesAfter before) (classesAfter (before ++ [i])) i
          name := by
  have hlinked := h.isSome_superName?_visit_iff hmodel nodes name
  dsimp only at hlinked ⊢
  rw [ClassTable.mem_orphans_iff, h.isSome_definedAt?_visit_iff hmodel nodes,
    ← hlinked, Option.not_isSome_iff_eq_none, and_assoc]
  refine and_congr_right fun hclass => ?_
  rw [ClassTable.isNative_of_isClassName hclass, beq_eq_false_iff_ne,
    and_left_comm]

-- ============================================================= options

/-- The session with superclasses required or not. -/
def requiring (session : Session) (required : Bool) : Session :=
  { session with
    options := { session.options with requireSuper := required } }

/-- Whether superclasses are required is not asked before the end. -/
theorem visit_requiring (arena : Arena) (nodes : List Nat)
    (session : Session) (required : Bool) :
    visit arena nodes (session.requiring required)
      = ((visit arena nodes session).1.requiring required,
        (visit arena nodes session).2) := by
  induction nodes generalizing session with
  | nil => rfl
  | cons i nodes ih =>
      rw [visit, visit, show (session.requiring required).model
        = session.model from rfl]
      cases arena.checkNode session.model i with
      | error stray => rfl
      | ok outcome => exact ih (session.absorb outcome)

/-- What a check of a program finds: what its nodes give it, and behind that
what is reported at the end. -/
theorem check_eq_of_passes {text : String} {tree : Tree}
    (h : Tree.parse text = .ok tree) (session : Session) (file : String) :
    let root := some (Arena.ofTree (.ofText text) tree).1
    let arena := (Arena.ofTree (.ofText text) tree).2
    let last := (visit arena (arena.preorder root) (session.reset file)).1
    (session.check file text).2
      = .ok (last.sink.takeAll last.closingEvents).diagnostics := by
  intro root arena last
  have hnone := visit_of_outcomes (passes_of_parse h).outcome
    (arena.preorder root) (session.reset file)
  have hvisit : visit arena (arena.preorder root) (session.reset file)
      = (last, none) := Prod.ext rfl hnone
  have hcheck := check_of_parse h session file
  dsimp only at hcheck
  rw [checkTree_of_visit hvisit] at hcheck
  rw [hcheck]
  rfl

/-- Whether superclasses are required or not, a check finds the same in the
nodes. -/
theorem check_requiring {text : String} {tree : Tree}
    (h : Tree.parse text = .ok tree) (session : Session) (file : String)
    (required : Bool) :
    let root := some (Arena.ofTree (.ofText text) tree).1
    let arena := (Arena.ofTree (.ofText text) tree).2
    let last := (visit arena (arena.preorder root) (session.reset file)).1
    ((session.requiring required).check file text).2
      = .ok (last.sink.takeAll
        (if required then last.model.missingSupers else [])).diagnostics := by
  intro root arena last
  have hvisit := visit_requiring arena (arena.preorder root)
    (session.reset file) required
  rw [check_eq_of_passes h, show visit arena (arena.preorder root)
    ((session.requiring required).reset file) = _ from hvisit]
  rfl

/-- A program that does not suppress NO_SUPER is found to have the same
with superclasses required as without, and behind that one finding for
each class, other than the root, that some assignment defines and no call
of `$extends` links to a superclass: at the line of the first assignment
that defines it. -/
theorem missingSupers_of_check {text : String} {tree : Tree}
    (h : Tree.parse text = .ok tree) (session : Session) (file : String)
    (hsuppress : ∀ i, (Arena.ofTree (.ofText text) tree).2.suppression? i
      ≠ some .noSuper) :
    let root := some (Arena.ofTree (.ofText text) tree).1
    let arena := (Arena.ofTree (.ofText text) tree).2
    let order := arena.preorder root
    let classesAfter nodes :=
      (visit arena nodes (session.reset file)).1.model.classes
    ∃ (found : List Diagnostic) (names : List String),
      ((session.requiring false).check file text).2 = .ok found
      ∧ ((session.requiring true).check file text).2
        = .ok (found ++ names.map fun name => .of .noSuper file
          (arena.lineOf (order.find? (arena.assignsBody name)))
          s!"Class [{name}].")
      ∧ names.Nodup
      ∧ ∀ name, name ∈ names ↔ Naming.isClassName name = true
        ∧ name ≠ ClassTable.rootName
        ∧ (∃ i, arena.assignsBody name i = true)
        ∧ ¬ ∃ before i, before ++ [i] <+: order
          ∧ arena.Links (classesAfter before) (classesAfter (before ++ [i]))
            i name := by
  intro root arena order classesAfter
  have hpasses : Passes arena root := passes_of_parse h
  have hmodel : (session.reset file).model.classes = {} := rfl
  have hcoherent : (classesAfter order).Coherent :=
    coherent_visit order ClassTable.coherent_empty
  refine ⟨(visit arena order (session.reset file)).1.sink.diagnostics,
    (classesAfter order).orphans, check_requiring h session file false, ?_,
    hcoherent.nodup_orphans, fun name => ?_⟩
  · have hloud : (visit arena order
        (session.reset file)).1.sink.isSuppressed .noSuper = false := by
      rw [← Bool.not_eq_true, hpasses.isSuppressed_visit_iff rfl order]
      rintro ⟨i, -, hsuppresses⟩
      exact hsuppress i hsuppresses
    refine (check_requiring h session file true).trans
      (congrArg Except.ok ?_)
    show (Sink.takeAll _ (visit arena order
      (session.reset file)).1.model.missingSupers).diagnostics = _
    rw [Model.missingSupers_eq hcoherent, Sink.takeAll_map_report hloud,
      file_visit arena order (session.reset file)]
    refine congrArg (_ ++ ·) (List.map_congr_left fun name hname => ?_)
    rw [hpasses.getD_definedAt?_visit hmodel
      (ClassTable.mem_orphans_iff.1 hname).1]
    rfl
  · refine (hpasses.mem_orphans_visit_iff hmodel order name).trans ?_
    refine and_congr_right fun _ => and_congr_right fun _ =>
      and_congr_left fun _ => exists_congr fun i => ?_
    -- every node that assigns something is checked
    refine and_iff_right_of_imp fun hbody => ?_
    obtain ⟨_, _, _, hform, -⟩ :=
      Arena.exists_assignment_of_assignsBody hbody
    exact Arena.mem_preorder_ofTree hform

/-- Two classes are defined, and one of them is linked. -/
def oneLinked : String := "a.B=\x7b\x7d;a.C=\x7b\x7d;$extends(a.C,a.D);"

/-- The other one is reported. -/
theorem missingSupers_of_check_oneLinked :
    Tree.Parses oneLinked fun tree =>
      let arena := (Arena.ofTree (.ofText oneLinked) tree).2
      (∀ i, arena.suppression? i ≠ some .noSuper)
        ∧ ∃ (found : List Diagnostic) (names : List String)
          (line : String → Nat),
          (((start {}).requiring false).check "f.js" oneLinked).2 = .ok found
            ∧ (((start {}).requiring true).check "f.js" oneLinked).2
              = .ok (found ++ names.map fun name =>
                .of .noSuper "f.js" (line name) s!"Class [{name}].")
            ∧ "a.B" ∈ names ∧ "a.C" ∉ names := by
  have hparses : Tree.Parses oneLinked fun tree =>
      let root := some (Arena.ofTree (.ofText oneLinked) tree).1
      let arena := (Arena.ofTree (.ofText oneLinked) tree).2
      let before := [21, 5, 4, 2, 0, 1, 3, 11, 10, 8, 6, 7, 9, 20]
      let superOf nodes := (visit arena nodes
        ((start {}).reset "f.js")).1.model.classes.superName?
      (∀ i < arena.size, arena.calleeName? i ≠ some "$suppress")
        ∧ arena.assignsBody "a.B" 4 = true
        ∧ (∀ i ∈ arena.preorder root,
          (arena.extension? i).map (·.1) ≠ some "a.B")
        ∧ before ++ [19] <+: arena.preorder root
        ∧ arena.extension? 19 = some ("a.C", "a.D")
        ∧ superOf before "a.C" = none
        ∧ superOf (before ++ [19]) "a.C" = some "a.D" := by decide +kernel
  obtain ⟨tree, hparse, hcalls, hbody, hunlinked, hbefore, hextends, hnone,
    hsome⟩ := hparses
  have hsuppress : ∀ i,
      (Arena.ofTree (.ofText oneLinked) tree).2.suppression? i
        ≠ some .noSuper := by
    intro i
    rw [Arena.suppression?_of_callsNone hcalls]
    nofun
  obtain ⟨found, names, hlax, hstrict, -, hnames⟩ :=
    missingSupers_of_check hparse (start {}) "f.js" hsuppress
  refine ⟨tree, hparse, hsuppress, found, names, _, hlax, hstrict, ?_, ?_⟩
  · refine (hnames "a.B").2 ⟨by decide, by decide, ⟨4, hbody⟩, ?_⟩
    rintro ⟨before, i, hleads, superName, hlinks, -⟩
    refine hunlinked i (hleads.subset (by simp)) ?_
    rw [hlinks]
    rfl
  · intro hmem
    exact ((hnames "a.C").1 hmem).2.2.2
      ⟨_, 19, hbefore, "a.D", hextends, hnone, hsome⟩

end Session

end ScriptLint
