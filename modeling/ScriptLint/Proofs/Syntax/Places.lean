/-
Trees and arenas up to places. The tree of a text knows where each node
starts and stops, an arena on which line it starts besides, and some
facts hold of two texts whose trees differ in that alone. What is kept of
the places is said by a function: of a tree that of the starts
(`Tree.mapPlaces`), of an arena that of the lines (`Arena.mapLines`); all
other places are forgotten. Trees that agree in the lines are laid out
as arenas that do (`Arena.mapLines_ofTree`).
-/
import ScriptLint.Proofs.Syntax.Layout

namespace ScriptLint

-- =============================================================== forms

namespace Form

variable {ι κ μ : Type}

theorem map_map (f : ι → κ) (g : κ → μ) (form : Form ι) :
    (form.map f).map g = form.map (g ∘ f) := by
  cases form <;> simp [map]

theorem map_congr {f g : ι → κ} {form : Form ι}
    (h : ∀ x ∈ form.slots, f x = g x) : form.map f = form.map g := by
  cases form <;> simp_all [map, slots]

/-- A form is determined by its shape and what stands in its slots. -/
theorem eq_of_slots {a b : Form ι}
    (hshape : a.map (fun _ => ()) = b.map (fun _ => ()))
    (hslots : a.slots = b.slots) : a = b := by
  cases a <;> cases b <;> first
    | (injection hshape; done)
    | simp_all [map, slots]

/-- The form with each slot beside the proof that it is one. -/
def attach : (form : Form ι) → Form {x // x ∈ form.slots}
  | .file statements => .file statements.attach
  | .identifier text => .identifier text
  | .thisRef => .thisRef
  | .string value => .string value
  | .number text => .number text
  | .regex text => .regex text
  | .boolean value => .boolean value
  | .null => .null
  | .array elements => .array elements.attach
  | .object properties => .object properties.attach
  | .property name initializer =>
    .property ⟨name, by simp [slots]⟩ ⟨initializer, by simp [slots]⟩
  | .function name parameters body isDeclaration =>
    .function ⟨name, by simp [slots]⟩
      (parameters.attach.map fun p => ⟨p.1, by simp [slots, p.2]⟩)
      ⟨body, by simp [slots]⟩ isDeclaration
  | .member owner name =>
    .member ⟨owner, by simp [slots]⟩ ⟨name, by simp [slots]⟩
  | .element owner index =>
    .element ⟨owner, by simp [slots]⟩ ⟨index, by simp [slots]⟩
  | .call callee arguments =>
    .call ⟨callee, by simp [slots]⟩
      (arguments.attach.map fun p => ⟨p.1, by simp [slots, p.2]⟩)
  | .construct callee arguments =>
    .construct ⟨callee, by simp [slots]⟩
      (arguments.attach.map fun p => ⟨p.1, by simp [slots, p.2]⟩)
  | .unary operator operand leading =>
    .unary operator ⟨operand, by simp [slots]⟩ leading
  | .binary left operator right =>
    .binary ⟨left, by simp [slots]⟩ operator ⟨right, by simp [slots]⟩
  | .assignment left operator right =>
    .assignment ⟨left, by simp [slots]⟩ operator ⟨right, by simp [slots]⟩
  | .conditional condition whenTrue whenFalse =>
    .conditional ⟨condition, by simp [slots]⟩ ⟨whenTrue, by simp [slots]⟩
      ⟨whenFalse, by simp [slots]⟩
  | .paren inner => .paren ⟨inner, by simp [slots]⟩
  | .block statements => .block statements.attach
  | .declarations items => .declarations items.attach
  | .declaration name initializer =>
    .declaration ⟨name, by simp [slots]⟩ ⟨initializer, by simp [slots]⟩
  | .expression value => .expression ⟨value, by simp [slots]⟩
  | .branch condition consequent alternative =>
    .branch ⟨condition, by simp [slots]⟩ ⟨consequent, by simp [slots]⟩
      ⟨alternative, by simp [slots]⟩
  | .forLoop initializer condition step body =>
    .forLoop ⟨initializer, by simp [slots]⟩ ⟨condition, by simp [slots]⟩
      ⟨step, by simp [slots]⟩ ⟨body, by simp [slots]⟩
  | .forIn target subject body =>
    .forIn ⟨target, by simp [slots]⟩ ⟨subject, by simp [slots]⟩
      ⟨body, by simp [slots]⟩
  | .whileLoop condition body =>
    .whileLoop ⟨condition, by simp [slots]⟩ ⟨body, by simp [slots]⟩
  | .doWhile body condition =>
    .doWhile ⟨body, by simp [slots]⟩ ⟨condition, by simp [slots]⟩
  | .returning value => .returning ⟨value, by simp [slots]⟩
  | .breaking label => .breaking ⟨label, by simp [slots]⟩
  | .continuing label => .continuing ⟨label, by simp [slots]⟩
  | .throwing value => .throwing ⟨value, by simp [slots]⟩
  | .trying body caught handler cleanup =>
    .trying ⟨body, by simp [slots]⟩ ⟨caught, by simp [slots]⟩
      ⟨handler, by simp [slots]⟩ ⟨cleanup, by simp [slots]⟩
  | .switch subject clauses =>
    .switch ⟨subject, by simp [slots]⟩
      (clauses.attach.map fun p => ⟨p.1, by simp [slots, p.2]⟩)
  | .clause test statements =>
    .clause ⟨test, by simp [slots]⟩
      (statements.attach.map fun p => ⟨p.1, by simp [slots, p.2]⟩)
  | .labeled label statement =>
    .labeled ⟨label, by simp [slots]⟩ ⟨statement, by simp [slots]⟩
  | .empty => .empty

theorem map_attach (f : ι → κ) (form : Form ι) :
    form.attach.map (fun slot => f slot.1) = form.map f := by
  cases form <;> simp [attach, map] <;> exact List.attach_map_val

end Form

-- =============================================================== trees

namespace Tree

/-- The tree with the starts of its nodes changed by a function and the
stops forgotten. -/
def mapPlaces (f : Nat → Nat) : Tree → Tree
  | .node start _ doc form =>
    .node (f start) 0 doc <| form.attach.map fun
      | ⟨none, _⟩ => none
      | ⟨some child, _⟩ => some (child.mapPlaces f)
termination_by tree => sizeOf tree
decreasing_by
  have := Form.sizeOf_lt_of_mem_slots ‹_›
  simp
  omega

variable {f : Nat → Nat}

theorem mapPlaces_node (start stop : Nat) (doc : Option String)
    (form : Form (Option Tree)) :
    (node start stop doc form).mapPlaces f
      = .node (f start) 0 doc (form.map (Option.map (mapPlaces f))) := by
  rw [mapPlaces, ← Form.map_attach (Option.map (mapPlaces f))]
  refine congrArg (node (f start) 0 doc) (Form.map_congr fun slot _ => ?_)
  obtain ⟨_ | child, hslot⟩ := slot
  · rfl
  · rfl

/-- Changing the starts twice is changing them once. -/
theorem mapPlaces_mapPlaces (f g : Nat → Nat) (tree : Tree) :
    (tree.mapPlaces f).mapPlaces g = tree.mapPlaces (g ∘ f) := by
  induction tree using Tree.induct with
  | node start stop doc form ih =>
      simp only [mapPlaces_node, Form.map_map]
      refine congrArg (node _ 0 doc) (Form.map_congr fun slot hslot => ?_)
      cases slot with
      | none => rfl
      | some child =>
          exact congrArg some (ih child (Form.mem_children.2 hslot))

@[simp] theorem identifier?_mapPlaces (tree : Tree) :
    (tree.mapPlaces f).identifier? = tree.identifier? := by
  obtain ⟨start, stop, doc, form⟩ := tree
  rw [mapPlaces_node]
  cases form <;> rfl

@[simp] theorem withDoc_mapPlaces (doc : Option String) (tree : Tree) :
    (tree.withDoc doc).mapPlaces f = (tree.mapPlaces f).withDoc doc := by
  obtain ⟨start, stop, own, form⟩ := tree
  rw [withDoc, mapPlaces_node, mapPlaces_node, withDoc]

end Tree

-- ============================================================== arenas

/-- The node with its line changed by a function and its bytes
forgotten. -/
def Node.mapLine (f : Nat → Nat) (node : Node) : Node :=
  { node with start := 0, stop := 0, line := f node.line }

/-- The arena with its lines changed by a function and all bytes
forgotten. -/
def Arena.mapLines (f : Nat → Nat) (arena : Arena) : Arena :=
  ⟨arena.nodes.map (Node.mapLine f)⟩

theorem Node.mapLine_under (f : Nat → Nat) (parent : Nat) (node : Node) :
    (node.under parent).mapLine f = (node.mapLine f).under parent := rfl

variable {f : Nat → Nat} {lines lines' : Text.LineMap}

/-- Forests of trees that agree in what is kept of the lines have the same
roots and nodes that do. -/
theorem Forest.eq_of_mapPlaces {base : Nat} {placed placed' : List Placed}
    {nodes nodes' : List Node} (h : Forest lines base placed nodes)
    (h' : Forest lines' base placed' nodes')
    (hsame : placed.map (·.2.map (Tree.mapPlaces (f ∘ lines.lineOf)))
      = placed'.map (·.2.map (Tree.mapPlaces (f ∘ lines'.lineOf)))) :
    placed.map Prod.fst = placed'.map Prod.fst
      ∧ nodes.map (Node.mapLine f) = nodes'.map (Node.mapLine f) := by
  induction h generalizing placed' nodes' with
  | nil base =>
      cases h' with
      | nil => exact ⟨rfl, rfl⟩
      | skip h' => simp at hsame
      | tree => simp at hsame
  | skip h ih =>
      cases h' with
      | nil => simp at hsame
      | skip h' =>
          obtain ⟨hfst, hnodes⟩ := ih h' (List.cons.inj hsame).2
          exact ⟨congrArg (none :: ·) hfst, hnodes⟩
      | tree => simp at hsame
  | @tree base root start stop doc joint placed below right hbelow hroot
      hright ihbelow ihright =>
      cases h' with
      | nil => simp at hsame
      | skip h' => simp at hsame
      | @tree _ root' start' stop' doc' joint' placed' below' right'
          hbelow' hroot' hright' =>
          obtain ⟨hhead, htail⟩ := List.cons.inj hsame
          simp only [Option.map_some, Option.some.injEq,
            Tree.mapPlaces_node, Tree.node.injEq, Form.map_map,
            Function.comp_apply] at hhead
          obtain ⟨hline, -, hdoc, hforms⟩ := hhead
          have hslots := congrArg Form.slots hforms
          rw [Form.slots_map, Form.slots_map] at hslots
          obtain ⟨hrefs, hnodes⟩ := ihbelow hbelow' hslots
          have hlength := congrArg List.length hnodes
          simp only [List.length_map] at hlength
          -- as many nodes have been laid out below, so the roots have the same
          -- number
          have hroots : root = root' := by omega
          subst hroots
          obtain ⟨hfst, hmore⟩ := ihright hright' htail
          have hform : joint.map Prod.fst = joint'.map Prod.fst := by
            refine Form.eq_of_slots ?_ (by simpa using hrefs)
            have hshape := congrArg (Form.map fun _ => ()) hforms
            simpa only [Form.map_map, Function.comp_def] using hshape
          refine ⟨congrArg (some root :: ·) hfst, ?_⟩
          have hunder := congrArg (List.map (Node.under root)) hnodes
          simp only [List.map_map, Function.comp_def] at hunder
          simp only [List.map_append, List.map_cons, List.map_map,
            Function.comp_def, Node.mapLine_under, hunder, hmore]
          congr 2
          simp [Node.mapLine, hform, hdoc, hline]

/-- Trees that agree in what is kept of the lines are laid out as arenas
that do. -/
theorem Arena.mapLines_ofTree {tree tree' : Tree}
    (h : tree.mapPlaces (f ∘ lines.lineOf)
      = tree'.mapPlaces (f ∘ lines'.lineOf)) :
    (ofTree lines tree).1 = (ofTree lines' tree').1
      ∧ (ofTree lines tree).2.mapLines f
        = (ofTree lines' tree').2.mapLines f := by
  obtain ⟨root, nodes, hrun, hforest⟩ :=
    (layOut_forest tree : LaysOut lines tree) {}
  obtain ⟨root', nodes', hrun', hforest'⟩ :=
    (layOut_forest tree' : LaysOut lines' tree') {}
  obtain ⟨hroots, hnodes⟩ := hforest.eq_of_mapPlaces hforest'
    (by simpa using h)
  rw [ofTree, ofTree, hrun, hrun']
  refine ⟨by simpa using hroots, ?_⟩
  simp [mapLines, hnodes]

end ScriptLint
