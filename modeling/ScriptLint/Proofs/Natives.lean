/-
Native classes. Links join only classes in packages, so the classes that
the language brings along never have a superclass. The root is native, too,
but it lies in a package like any other class: it has no superclass exactly
as long as no call of `$extends` behind a definition of the root names a
class for it that does not descend from the root
(`Session.natives_of_check`).

# The argument

- A superclass is given only to a name of a class
  (`Sound.isClassName_of_superName?`), which no native name but the root
  is.
- A class has none as long as no call has linked it, and a call links it
  exactly if nothing speaks against it (`Passes.links_concat_iff`). With
  the other objections out of the way, that is the question whether the
  class would be closed into a circle.
-/
import ScriptLint.Proofs.Orphans

namespace ScriptLint

namespace ClassTable

variable {classes : ClassTable} {name superName : String}

/-- Only classes in packages have superclasses. -/
theorem Sound.isClassName_of_superName? (h : classes.Sound)
    (hsuper : classes.superName? name = some superName) :
    Naming.isClassName name = true := by
  obtain ⟨superId, hlink, -⟩ := Option.map_eq_some_iff.1 hsuper
  obtain ⟨info, hinfo, hsuperClass⟩ := Option.bind_eq_some_iff.1 hlink
  obtain ⟨id, hid, hget⟩ := Option.bind_eq_some_iff.1 hinfo
  rw [← Registry.nameOf_of_find? hid]
  exact (h.named id superId
    (Option.bind_eq_some_iff.2 ⟨info, hget, hsuperClass⟩)).1

/-- Native classes have no superclass exactly if the root has none. -/
theorem Sound.natives_iff (h : classes.Sound) :
    (∀ name, isNative name = true → classes.superName? name = none)
      ↔ classes.superName? rootName = none := by
  constructor
  · intro hnone
    exact hnone rootName (by decide)
  · intro hroot name hnative
    cases hsuper : classes.superName? name with
    | none => rfl
    | some superName =>
        have hclass := h.isClassName_of_superName? hsuper
        rw [isNative_of_isClassName hclass, beq_iff_eq] at hnative
        rw [← hsuper, hnative, hroot]

end ClassTable

namespace Session

variable {arena : Arena} {root : Ref} {session : Session}

/-- A call of `$extends` links a class that has no superclass exactly if
nothing speaks against it. -/
theorem Passes.links_concat_iff (h : Passes arena root)
    (hsession : session.model.classes.Coherent) (before : List Nat) (i : Nat)
    (name : String) :
    let classesAfter nodes := (visit arena nodes session).1.model.classes
    arena.Links (classesAfter before) (classesAfter (before ++ [i])) i name
      ↔ ∃ superName, arena.extension? i = some (name, superName)
        ∧ (classesAfter before).superName? name = none
        ∧ (classesAfter before).objection? name superName = none := by
  refine exists_congr fun superName => and_congr_right fun hextends =>
    and_congr_right fun hnone => ?_
  rw [(h.extends_concat hsession hextends before).2 name, hnone]
  simp

/-- A class has no superclass exactly as long as every call of `$extends`
for it behind a definition of it names no class or one that descends from
it. -/
theorem Passes.superName?_visit_eq_none_iff (h : Passes arena root)
    (hmodel : session.model.classes = {}) {nodes : List Nat}
    (hnodes : nodes <+: arena.preorder root) {name : String}
    (hclass : Naming.isClassName name = true) :
    let classesAfter nodes := (visit arena nodes session).1.model.classes
    (classesAfter nodes).superName? name = none
      ↔ ∀ before i superName, before ++ [i] <+: nodes →
        arena.extension? i = some (name, superName) →
        Naming.isClassName superName = true →
        (∃ j, arena.Precedes root j i
          ∧ arena.assignsBody name j = true) →
        (classesAfter before).DescendsByName superName name := by
  have hcoherent : session.model.classes.Coherent := by
    rw [hmodel]
    exact ClassTable.coherent_empty
  -- whether a class is defined at a call can be told from the nodes before it
  have hdefined : ∀ {before i}, before ++ [i] <+: nodes →
      (((visit arena before session).1.model.classes.definedAt? name).isSome
          = true
        ↔ ∃ j, arena.Precedes root j i
          ∧ arena.assignsBody name j = true) := by
    intro before i hbefore
    rw [h.isSome_definedAt?_visit_iff hmodel]
    simp only [hclass, true_and,
      Arena.precedes_iff h.nodup (hbefore.trans hnodes)]
  have hlinks := fun before i => h.links_concat_iff hcoherent before i name
  have hlinked := h.isSome_superName?_visit_iff hmodel nodes name
  dsimp only at hlinks hlinked ⊢
  rw [← Option.not_isSome_iff_eq_none]
  constructor
  · intro hnone before i superName hbefore hextends hsuper hdef
    -- else this call links the class, or another one has done so
    by_contra hopen
    refine hnone ?_
    cases hold :
        (visit arena before session).1.model.classes.superName? name with
    | some other =>
        rw [h.superName?_onwards hcoherent
          ((List.prefix_append _ _).trans hbefore) hold]
        rfl
    | none =>
        refine hlinked.2 ⟨before, i, hbefore,
          (hlinks before i).2 ⟨superName, hextends, hold, ?_⟩⟩
        exact ClassTable.objection?_eq_none_iff.2 ⟨hclass,
          (hdefined hbefore).2 hdef, hsuper, .inr ⟨hold, hopen⟩⟩
  · intro hall
    rw [hlinked]
    rintro ⟨before, i, hbefore, hlink⟩
    obtain ⟨superName, hextends, hnone, hobjection⟩ :=
      (hlinks before i).1 hlink
    obtain ⟨-, hdef, hsuper, hsame | ⟨-, hopen⟩⟩ :=
      ClassTable.objection?_eq_none_iff.1 hobjection
    · rw [hnone] at hsame
      cases hsame
    · exact hopen (hall before i superName hbefore hextends hsuper
        ((hdefined hbefore).1 hdef))

/-- At every point of a check, the classes that the language brings along
have no superclass, and neither has the root exactly if every call of
`$extends` for it so far, with the name of a class and behind a definition
of the root, names a class that descends from the root. -/
theorem natives_of_check {text : String} {tree : Tree}
    (h : Tree.parse text = .ok tree) (session : Session) (file : String) :
    let root := some (Arena.ofTree (.ofText text) tree).1
    let arena := (Arena.ofTree (.ofText text) tree).2
    let classesAfter nodes :=
      (visit arena nodes (session.reset file)).1.model.classes
    ∀ nodes, nodes <+: arena.preorder root →
      (∀ name, Naming.isNativeName name = true →
        (classesAfter nodes).superName? name = none)
      ∧ ((∀ name, ClassTable.isNative name = true →
          (classesAfter nodes).superName? name = none)
        ↔ ∀ before i superName, before ++ [i] <+: nodes →
          arena.extension? i = some (ClassTable.rootName, superName) →
          Naming.isClassName superName = true →
          (∃ j, arena.Precedes root j i
            ∧ arena.assignsBody ClassTable.rootName j = true) →
          (classesAfter before).DescendsByName superName
            ClassTable.rootName) := by
  intro root arena classesAfter nodes hnodes
  have hpasses : Passes arena root := passes_of_parse h
  have hcoherent : (session.reset file).model.classes.Coherent :=
    ClassTable.coherent_empty
  have hsound : (classesAfter nodes).Sound :=
    (coherent_visit nodes hcoherent).sound
  -- native names are no class names; the root is the one built-in class whose
  -- name is
  refine ⟨fun name hnative => ?_, hsound.natives_iff.trans ?_⟩
  · cases hsuper : (classesAfter nodes).superName? name with
    | none => rfl
    | some superName =>
        rw [Naming.not_isNativeName
          (hsound.isClassName_of_superName? hsuper)] at hnative
        cases hnative
  · exact hpasses.superName?_visit_eq_none_iff rfl hnodes (by decide)

/-- A root that is defined, and linked to itself. -/
def rootToItself : String :=
  "js.lang.Object=\x7b\x7d;$extends(js.lang.Object,js.lang.Object);"

/-- No native class has a superclass. -/
theorem natives_of_check_rootToItself :
    Tree.Parses rootToItself fun tree =>
      let root := some (Arena.ofTree (.ofText rootToItself) tree).1
      let arena := (Arena.ofTree (.ofText rootToItself) tree).2
      ∀ name, ClassTable.isNative name = true →
        (visit arena (arena.preorder root)
          ((start {}).reset "f.js")).1.model.classes.superName? name
          = none := by
  have hparses : Tree.Parses rootToItself fun tree =>
      let root := some (Arena.ofTree (.ofText rootToItself) tree).1
      let arena := (Arena.ofTree (.ofText rootToItself) tree).2
      ∀ i ∈ arena.preorder root, ∀ names ∈ arena.extension? i,
        names.2 = ClassTable.rootName := by decide +kernel
  obtain ⟨tree, hparse, hroot⟩ := hparses
  refine ⟨tree, hparse, ?_⟩
  refine (natives_of_check hparse (start {}) "f.js" _
    (List.prefix_refl _)).2.2 ?_
  intro before i superName hbefore hextends _ _
  have hsuper := hroot i (hbefore.subset (by simp)) _ hextends
  exact ⟨0, by decide, congrArg some hsuper⟩

/-- A root that is defined, and linked to another class. -/
def rootLinked : String :=
  "js.lang.Object=\x7b\x7d;$extends(js.lang.Object,a.B);"

/-- A native class has a superclass. -/
theorem not_natives_rootLinked :
    Tree.Parses rootLinked fun tree =>
      let root := some (Arena.ofTree (.ofText rootLinked) tree).1
      let arena := (Arena.ofTree (.ofText rootLinked) tree).2
      ¬ ∀ name, ClassTable.isNative name = true →
        (visit arena (arena.preorder root)
          ((start {}).reset "f.js")).1.model.classes.superName? name
          = none := by
  have hparses : Tree.Parses rootLinked fun tree =>
      let root := some (Arena.ofTree (.ofText rootLinked) tree).1
      let arena := (Arena.ofTree (.ofText rootLinked) tree).2
      (visit arena (arena.preorder root)
        ((start {}).reset "f.js")).1.model.classes.superName?
          ClassTable.rootName = some "a.B" := by decide +kernel
  obtain ⟨tree, hparse, hsuper⟩ := hparses
  refine ⟨tree, hparse, fun hnone => ?_⟩
  cases (hnone ClassTable.rootName (by decide)).symm.trans hsuper

end Session

end ScriptLint
