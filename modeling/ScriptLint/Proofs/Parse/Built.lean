/-
What is written down while parsing is what laying out the tree comes to.
A parser that builds goes along with the one that yields a tree: step by
step it is at the same cursor, it fails with the same error, and where the
other one has trees in its hands, it has the numbers of their nodes, which
stand in the arena behind those that were there before, laid out in the
order in which they were read (`Builds`, `LaidOut`). So no production
leaves out a node that it has made, uses one twice, or links them otherwise
than the tree says.

The relation is proved of each production from the parsers one nesting
level further in (`BuildingGrammar.Agrees`), and so of every number of
levels. Its rules follow the ways in which parsers are put together. The
one step that does more than read tokens is `Building.finish`: if the slots
of a form have been laid out, adding the form lays out the tree
(`Builds.finish`).

Hence an arena is a single tree that covers all its nodes
(`Arena.isTree_of_parse`), and whatever is said of the arena of a tree holds
of the one that the parser has written (`Arena.parse_eq`).

How the two sides go together is settled before any production is looked
at. Slots are laid out from left to right, each behind what is there, so
what has been read up to some point is a list of references and a list of
slots that belong together (`LaidOut`); reading on appends to both. A node
is added behind its children on both sides, which is why nothing has to be
renumbered. A comment that is attached to a node is attached to the last
node there is, in the arena as in the tree.

The productions that look at what they have read are the ones with
something to show. The test of a target looks through parentheses, which
the arena does for so many steps only (`Arena.isTarget_of_shows`), and
whether an expression is a single name is read off the node that stands for
it. Everything else is a matter of handing the relation on.
-/
import ScriptLint.Proofs.Parse.Brackets

namespace ScriptLint

open Parse

variable {lines : Text.LineMap} {arena : Arena}

-- ============================================================ laying out

/-- The references are to where the slots have been laid out behind an
arena, which has made it the later one. -/
def LaidOut (lines : Text.LineMap) (arena : Arena) (refs : List Ref)
    (slots : List (Option Tree)) (later : Arena) : Prop :=
  (layOutSlots lines slots).run arena = (refs, later)

section

variable {slots more : List (Option Tree)} {refs others : List Ref}
  {middle later : Arena} {tree : Tree} {i : Nat}

/-- Without slots nothing is laid out. -/
theorem laidOut_nil : LaidOut lines arena [] [] arena := rfl

/-- An empty slot adds no node. -/
theorem laidOut_hole : LaidOut lines arena [none] [none] arena := rfl

/-- One tree is laid out as such. -/
theorem laidOut_single :
    LaidOut lines arena [some i] [some tree] later
      ↔ (tree.layOut lines).run arena = (i, later) := by
  have hrun : (layOutSlots lines [some tree]).run arena
      = ([some ((tree.layOut lines).run arena).1],
        ((tree.layOut lines).run arena).2) := rfl
  rw [LaidOut, hrun, Prod.ext_iff, Prod.ext_iff]
  simp

/-- What is laid out one after the other is laid out together. -/
theorem LaidOut.append (h : LaidOut lines arena refs slots middle)
    (hmore : LaidOut lines middle others more later) :
    LaidOut lines arena (refs ++ others) (slots ++ more) later := by
  rw [LaidOut, layOutSlots_append, show (layOutSlots lines slots).run arena
    = (refs, middle) from h]
  dsimp only
  rw [show (layOutSlots lines more).run middle = (others, later) from hmore]

/-- What is laid out in two parts is laid out part by part. -/
theorem LaidOut.split
    (h : LaidOut lines arena (refs ++ others) (slots ++ more) later)
    (hlength : refs.length = slots.length) :
    ∃ middle, LaidOut lines arena refs slots middle
      ∧ LaidOut lines middle others more later := by
  rw [LaidOut, layOutSlots_append] at h
  obtain ⟨placed, hslots, hrefs⟩ :=
    ScriptLint.exists_placed lines slots arena
  have hfront : ((layOutSlots lines slots).run arena).1.length
      = refs.length := by
    rw [hrefs, hlength, ← hslots, List.length_map, List.length_map]
  obtain ⟨hall, rfl⟩ := Prod.ext_iff.1 h
  obtain ⟨rfl, rfl⟩ := List.append_inj hall hfront
  exact ⟨_, rfl, rfl⟩

/-- References and slots, side by side. -/
theorem LaidOut.exists_placed (h : LaidOut lines arena refs slots later) :
    ∃ placed : List Placed,
      placed.map Prod.snd = slots ∧ placed.map Prod.fst = refs := by
  obtain ⟨placed, hslots, hrefs⟩ := ScriptLint.exists_placed lines slots arena
  refine ⟨placed, hslots, ?_⟩
  rw [← hrefs, show (layOutSlots lines slots).run arena = (refs, later) from h]

/-- A form whose slots have been laid out has been laid out. -/
theorem layOutForm_of_slots {joint : Form Placed}
    (h : LaidOut lines arena (joint.slots.map Prod.fst)
      (joint.slots.map Prod.snd) later) :
    (layOutForm lines (joint.map Prod.snd)).run arena
      = (joint.map Prod.fst, later) := by
  unfold LaidOut at h
  cases joint with
  | identifier | thisRef | string | number | regex | boolean | null | empty =>
      cases h
      rfl
  | paren a | expression a | returning a | breaking a | continuing a
  | throwing a | unary _ a _ =>
      obtain ⟨a, x⟩ := a
      dsimp only [Form.slots, List.map] at h
      cases h
      rfl
  | property a b | member a b | element a b | binary a _ b
  | assignment a _ b | declaration a b | whileLoop a b | doWhile a b
  | labeled a b =>
      obtain ⟨a, x⟩ := a
      obtain ⟨b, y⟩ := b
      dsimp only [Form.slots, List.map] at h
      cases h
      rfl
  | conditional a b c | branch a b c | forIn a b c =>
      obtain ⟨a, x⟩ := a
      obtain ⟨b, y⟩ := b
      obtain ⟨c, z⟩ := c
      dsimp only [Form.slots, List.map] at h
      cases h
      rfl
  | forLoop a b c d | trying a b c d =>
      obtain ⟨a, x⟩ := a
      obtain ⟨b, y⟩ := b
      obtain ⟨c, z⟩ := c
      obtain ⟨d, w⟩ := d
      dsimp only [Form.slots, List.map] at h
      cases h
      rfl
  | file slots => exact congrArg (fun out => (Form.file out.1, out.2)) h
  | array slots => exact congrArg (fun out => (Form.array out.1, out.2)) h
  | object slots => exact congrArg (fun out => (Form.object out.1, out.2)) h
  | block slots => exact congrArg (fun out => (Form.block out.1, out.2)) h
  | declarations slots =>
      exact congrArg (fun out => (Form.declarations out.1, out.2)) h
  | call a slots =>
      exact congrArg
        (fun out => (Form.call (out.1.headD none) out.1.tail, out.2)) h
  | construct a slots =>
      exact congrArg
        (fun out => (Form.construct (out.1.headD none) out.1.tail, out.2)) h
  | switch a slots =>
      exact congrArg
        (fun out => (Form.switch (out.1.headD none) out.1.tail, out.2)) h
  | clause a slots =>
      exact congrArg
        (fun out => (Form.clause (out.1.headD none) out.1.tail, out.2)) h
  | function a slots b isDeclaration =>
      -- the body is laid out behind the other slots
      have hall : LaidOut lines arena ((a :: slots).map Prod.fst ++ [b.1])
          ((a :: slots).map Prod.snd ++ [b.2]) later := by
        simpa [LaidOut, Form.slots] using h
      obtain ⟨middle, hfront, hbody⟩ := hall.split (by simp)
      show (let out :=
          (layOutSlots lines ((a :: slots).map Prod.snd)).run arena
        let last := (layOutSlots lines [b.2]).run out.2
        (Form.function (out.1.headD none) out.1.tail (last.1.headD none)
          isDeclaration, last.2)) = _
      rw [show (layOutSlots lines _).run arena = (_, middle) from hfront]
      dsimp only
      rw [show (layOutSlots lines _).run middle = (_, later) from hbody]
      rfl

/-- There is nothing in a slot without a reference. -/
theorem LaidOut.isNone_eq {ref : Ref} {slot : Option Tree}
    (h : LaidOut lines arena [ref] [slot] later) :
    ref.isNone = slot.isNone := by
  obtain ⟨hrefs, -⟩ := Prod.ext_iff.1 h
  obtain rfl := (List.cons.inj hrefs).1
  cases slot <;> rfl

/-- The node of a tree that has been laid out shows the tree. -/
theorem LaidOut.shows (h : LaidOut lines arena [some i] [some tree] later) :
    later.Shows lines i tree := by
  obtain ⟨root, nodes, hrun, hforest⟩ :=
    (layOut_forest tree : LaysOut lines tree) arena
  obtain ⟨rfl, rfl⟩ := Prod.ext_iff.1 (hrun.symm.trans (laidOut_single.1 h))
  refine Arena.shows_of_forest hforest (fun k node hk => ⟨node.parent, ?_⟩)
    root tree (List.mem_cons_self ..)
  show (arena.nodes ++ nodes.toArray)[arena.nodes.size + k]? = some node
  rw [Array.getElem?_append_right (Nat.le_add_right _ _),
    Nat.add_sub_cancel_left, List.getElem?_toArray, hk]

/-- The last node gets a documentation comment as if it had been added with
it. -/
theorem Arena.attachDoc_add (arena : Arena) (node : Node)
    (doc : Option String) :
    (arena.add node).attachDoc arena.size doc
      = arena.add { node with doc := node.doc.or doc } := by
  have hsize : ∀ (children : List Nat) (parent : Ref) (nodes : Array Node),
      (children.foldl (fun nodes child =>
        nodes.modify child fun n => { n with parent }) nodes).size
        = nodes.size := by
    intro children parent
    induction children with
    | nil => exact fun _ => rfl
    | cons child children ih =>
        exact fun nodes => (ih _).trans Array.size_modify
  unfold add attachDoc
  dsimp only
  congr 1
  refine Array.ext_getElem? fun j => ?_
  rw [Array.getElem?_modify, Array.getElem?_push, Array.getElem?_push, hsize]
  by_cases hj : j = arena.nodes.size
  · subst hj
    simp [size]
  · have hne : arena.size ≠ j := fun h => hj h.symm
    rw [if_neg hne, if_neg hj, if_neg hj]

/-- A comment that the node of a tree gets is one that the tree gets. -/
theorem LaidOut.attachDoc
    (h : LaidOut lines arena [some i] [some tree] later)
    (doc : Option String) :
    LaidOut lines arena [some i] [some (tree.withDoc doc)]
      (later.attachDoc i doc) := by
  obtain ⟨start, stop, own, form⟩ := tree
  have hrun := laidOut_single.1 h
  rw [laidOut_single, Tree.withDoc, layOut_node]
  rw [layOut_node] at hrun
  rcases hform : (layOutForm lines form).run arena with ⟨laid, middle⟩
  rw [hform] at hrun
  obtain ⟨rfl, rfl⟩ := Prod.mk.inj hrun
  exact Prod.ext rfl (Arena.attachDoc_add middle
    { form := laid, start, stop, line := lines.lineOf start, doc := own }
    doc).symm

end

-- ============================================================== building

namespace Building

variable {α α' β β' σ σ' : Type}

/-- A sequence goes on where its first part has succeeded. -/
theorem run_bind (b : Building α) (f : α → Building β) (site : Site) :
    (b >>= f).run.run site = match b.run.run site with
      | (.ok a, site) => (f a).run.run site
      | (.error e, site) => (.error e, site) := by
  rw [ExceptT.run_bind, StateT.run_bind]
  rcases b.run.run site with ⟨_ | _, _⟩ <;> rfl

/-- What a parser that builds comes to goes with what another comes to:
they are at the same cursor, the errors are the same, and the results and
the arena are related. -/
def Matches (lines : Text.LineMap) (R : α → α' → Arena → Prop)
    (outcome : Except SyntaxError α × Site) :
    Except SyntaxError α' × Cursor → Prop
  | (.ok y, cursor) => ∃ x later, outcome = (.ok x, ⟨lines, cursor, later⟩)
      ∧ R x y later
  | (.error e, cursor) => ∃ later, outcome = (.error e, ⟨lines, cursor, later⟩)

/-- From an arena on, a parser that builds does what another does, wherever
in the text. -/
def Builds (lines : Text.LineMap) (arena : Arena) (b : Building α)
    (p : Parse α') (R : α → α' → Arena → Prop) : Prop :=
  ∀ cursor, Matches lines R (b.run.run ⟨lines, cursor, arena⟩)
    (p.run.run cursor)

variable {b : Building α} {p : Parse α'} {R : α → α' → Arena → Prop}
  {S : β → β' → Arena → Prop}

/-- What is known of the results of the other parser is known of the
results that it goes along with. -/
theorem Builds.and_yields {Q : α' → Prop} (h : Builds lines arena b p R)
    (hp : Yields p Q) :
    Builds lines arena b p fun x y later => R x y later ∧ Q y := by
  intro cursor
  have hrun := h cursor
  rcases hplain : p.run.run cursor with ⟨e | y, cursor'⟩
  all_goals rw [hplain] at hrun
  · exact hrun
  · obtain ⟨x, later, hx, hxy⟩ := hrun
    exact ⟨x, later, hx, hxy, hp.of_ok hplain⟩

/-- A result is given without adding nodes. -/
theorem Builds.pure {x : α} {y : α'} (h : R x y arena) :
    Builds lines arena (pure x) (pure y) R :=
  fun _ => ⟨x, arena, rfl, h⟩

/-- The second part begins where the first one has left the arena. -/
theorem Builds.bind {f : α → Building β} {f' : α' → Parse β'}
    (h : Builds lines arena b p R)
    (hf : ∀ x y later, R x y later → Builds lines later (f x) (f' y) S) :
    Builds lines arena (b >>= f) (p >>= f') S := by
  intro cursor
  have hrun := h cursor
  rw [Building.run_bind, Parse.run_bind]
  rcases hplain : p.run.run cursor with ⟨e | y, cursor'⟩
  all_goals rw [hplain] at hrun
  · obtain ⟨later, hx⟩ := hrun
    rw [hx]
    exact ⟨later, rfl⟩
  · obtain ⟨x, later, hx, hxy⟩ := hrun
    rw [hx]
    exact hf x y later hxy cursor'

/-- A result may be changed on both sides. -/
theorem Builds.map {f : α → β} {f' : α' → β'} (h : Builds lines arena b p R)
    (hf : ∀ x y later, R x y later → S (f x) (f' y) later) :
    Builds lines arena (f <$> b) (f' <$> p) S := by
  rw [map_eq_pure_bind, map_eq_pure_bind]
  exact h.bind fun x y later hxy => .pure (hf x y later hxy)

/-- A step that builds nothing leaves the arena alone. -/
theorem Builds.lift (p : Parse α) :
    Builds lines arena (liftM p) p fun x y later => x = y ∧ later = arena := by
  intro cursor
  show Matches lines _ (Building.lift p ⟨lines, cursor, arena⟩) _
  unfold Building.lift
  rcases p.run.run cursor with ⟨e | y, cursor'⟩
  · exact ⟨arena, rfl⟩
  · exact ⟨y, arena, rfl, rfl, rfl⟩

/-- Behind a step that builds nothing. -/
theorem Builds.behind {p : Parse α} {f : α → Building β} {f' : α → Parse β'}
    (hf : ∀ x, Builds lines arena (f x) (f' x) S) :
    Builds lines arena (liftM p >>= f) (p >>= f') S :=
  (Builds.lift p).bind fun x _ _ ⟨hxy, harena⟩ => hxy ▸ harena ▸ hf x

/-- A failure is the same on both sides. -/
theorem builds_fail {fault : SyntaxFault} :
    Builds lines arena (liftM (fail fault : Parse α)) (fail fault) R :=
  fun _ => ⟨arena, rfl⟩

/-- A failure at a place that is named is the same on both sides. -/
theorem builds_failAt {offset : Nat} {fault : SyntaxFault} :
    Builds lines arena (liftM (failAt offset fault : Parse α))
      (failAt offset fault) R :=
  fun _ => ⟨arena, rfl⟩

/-- Behind a look at the arena. -/
theorem Builds.behind_survey {g : Arena → α} {f : α → Building β}
    {q : Parse β'} (hf : Builds lines arena (f (g arena)) q S) :
    Builds lines arena (survey g >>= f) q S :=
  hf

/-- Behind a comment that is attached. -/
theorem Builds.behind_attachDoc {i : Nat} {doc : Option String}
    {f : Unit → Building β} {q : Parse β'}
    (hf : Builds lines (arena.attachDoc i doc) (f ()) q S) :
    Builds lines arena (attachDoc i doc >>= f) q S :=
  hf

/-- Two ways to go. -/
theorem Builds.ite {c : Prop} [Decidable c] {b' : Building α} {p' : Parse α'}
    (h : Builds lines arena b p R) (h' : Builds lines arena b' p' R) :
    Builds lines arena (if c then b else b') (if c then p else p') R := by
  split
  · exact h
  · exact h'

/-- Two ways to go, with the same continuation behind both. -/
theorem Builds.choice {c : Prop} [Decidable c] {b' : Building α}
    {p' : Parse α'} {f : α → Building β} {f' : α' → Parse β'}
    (h : Builds lines arena b p R) (h' : Builds lines arena b' p' R)
    (hf : ∀ x y later, R x y later → Builds lines later (f x) (f' y) S) :
    Builds lines arena (if c then b >>= f else b' >>= f)
      (if c then p >>= f' else p' >>= f') S :=
  (h.bind hf).ite (h'.bind hf)

-- ================================================================ nodes

/-- A reference is to what stands in a slot, laid out behind an arena. -/
abbrev Fills (lines : Text.LineMap) (arena : Arena) (ref : Ref)
    (slot : Option Tree) (later : Arena) : Prop :=
  LaidOut lines arena [ref] [slot] later

/-- A number is that of the root of a tree, laid out behind an arena. -/
abbrev StandsFor (lines : Text.LineMap) (arena : Arena) (i : Nat)
    (tree : Tree) (later : Arena) : Prop :=
  LaidOut lines arena [some i] [some tree] later

/-- What two loops have collected, the last first: the references of one are
to the slots of the other, and both have come to the same flag. -/
def Collects (lines : Text.LineMap) (arena : Arena)
    (state : List Ref × Bool) (state' : List (Option Tree) × Bool)
    (later : Arena) : Prop :=
  LaidOut lines arena state.1.reverse state'.1.reverse later
    ∧ state.2 = state'.2

/-- A loop has collected nothing when it begins. -/
theorem collects_nil {flag : Bool} :
    Collects lines arena ([], flag) ([], flag) arena :=
  ⟨laidOut_nil, rfl⟩

/-- What has been collected, side by side and in the order of the text. -/
theorem Collects.exists_placed {state : List Ref × Bool}
    {state' : List (Option Tree) × Bool} {later : Arena}
    (h : Collects lines arena state state' later) :
    ∃ placed : List Placed, placed.map Prod.fst = state.1.reverse
      ∧ placed.map Prod.snd = state'.1.reverse
      ∧ LaidOut lines arena (placed.map Prod.fst) (placed.map Prod.snd)
        later := by
  obtain ⟨placed, hslots, hrefs⟩ := h.1.exists_placed
  exact ⟨placed, hrefs, hslots, hrefs ▸ hslots ▸ h.1⟩

variable {first : Arena}

/-- Where the slots of a form have been laid out, adding its node lays out
the tree. -/
theorem Builds.add (joint : Form Placed) {start : Nat} {stop : Cursor → Nat}
    (h : LaidOut lines first (joint.slots.map Prod.fst)
      (joint.slots.map Prod.snd) arena) :
    Builds lines arena (add start stop (joint.map Prod.fst))
      (look fun cursor =>
        .node start (stop cursor) none (joint.map Prod.snd))
      (StandsFor lines first) := by
  intro cursor
  refine ⟨_, _, rfl, laidOut_single.2 ?_⟩
  rw [layOut_node, layOutForm_of_slots h]

/-- Adding the node of a form that ends behind the last consumed token lays
out the tree, if the slots of the form have been laid out. -/
theorem Builds.finish (joint : Form Placed) {start : Nat}
    (h : LaidOut lines first (joint.slots.map Prod.fst)
      (joint.slots.map Prod.snd) arena) :
    Builds lines arena (finish start (joint.map Prod.fst))
      (Parse.finish start (joint.map Prod.snd)) (StandsFor lines first) :=
  .add joint h

-- ================================================================ loops

/-- What the states of two loops have to do with each other passes from step
to step; both decline together. -/
theorem Builds.iterate {I : σ → σ' → Arena → Prop}
    {step : σ → Building (Option σ)} {step' : σ' → Parse (Option σ')}
    (hstep : ∀ state state' arena, I state state' arena →
      Builds lines arena (step state) (step' state') fun r r' later =>
        r.isSome = r'.isSome ∧ I (r.getD state) (r'.getD state') later)
    {state : σ} {state' : σ'} (h : I state state' arena) :
    Builds lines arena (Building.iterate step state)
      (Parse.iterate step' state') I := by
  intro cursor
  show Matches lines I
    (Building.iterate step state ⟨lines, cursor, arena⟩)
    (Parse.iterate step' state' cursor)
  induction hn : cursor.remaining using Nat.strongRecOn
    generalizing state state' arena cursor with
  | _ n ih =>
      have hrun := hstep state state' arena h cursor
      rw [Building.iterate, Parse.iterate]
      rcases hplain : (step' state').run.run cursor
        with ⟨e | _ | state', cursor'⟩
      all_goals rw [hplain] at hrun
      · obtain ⟨later, hx⟩ := hrun
        rw [hx]
        exact ⟨later, rfl⟩
      · obtain ⟨x, later, hx, hsome, hxy⟩ := hrun
        obtain rfl : x = none := by simpa using hsome
        rw [hx]
        exact ⟨state, later, rfl, hxy⟩
      · obtain ⟨x, later, hx, hsome, hxy⟩ := hrun
        obtain ⟨state, rfl⟩ := Option.isSome_iff_exists.1 hsome
        rw [hx]
        dsimp only
        split
        · rename_i hlt
          exact ih _ (hn ▸ hlt) hxy cursor' rfl
        · exact ⟨state, later, rfl, hxy⟩

/-- The results of a step that is repeated are laid out one behind the
other. -/
theorem Builds.many (ref : α → Ref) (slot : α' → Option Tree)
    {step : Building (Option α)} {step' : Parse (Option α')}
    (hstep : ∀ arena, Builds lines arena step step' fun r r' later =>
      r.isSome = r'.isSome
        ∧ LaidOut lines arena (r.toList.map ref) (r'.toList.map slot) later) :
    Builds lines arena (Building.many step) (Parse.many step')
      fun refs slots => LaidOut lines arena (refs.map ref) (slots.map slot) := by
  refine .bind (.iterate
    (I := fun done done' => LaidOut lines arena (done.reverse.map ref)
      (done'.reverse.map slot)) (fun done done' middle hdone => ?_) ?_)
    fun done done' later hdone => .pure hdone
  · refine (hstep middle).bind fun r r' later ⟨hsome, hr⟩ => .pure ?_
    refine ⟨by simpa using hsome, ?_⟩
    have hmore := hdone.append hr
    cases r with
    | none =>
        obtain rfl : r' = none := by simpa using hsome.symm
        simpa using hmore
    | some x =>
        obtain ⟨y, rfl⟩ := Option.isSome_iff_exists.1 hsome.symm
        simpa using hmore
  · exact laidOut_nil

/-- Items with commas between them are laid out one behind the other. -/
theorem Builds.separated {b : Building Nat} {p : Parse Tree}
    (h : ∀ arena, Builds lines arena b p (StandsFor lines arena)) :
    Builds lines arena (Building.separated b) (Parse.separated p)
      fun items trees => LaidOut lines arena (items.map some)
        (trees.map some) := by
  refine (h arena).bind fun first tree middle hfirst => ?_
  refine .bind (.many some some fun arena => ?_)
    fun more trees later hmore => .pure (hfirst.append hmore)
  refine .behind fun isMore => .ite ((h arena).map ?_) (.pure ?_)
  · exact fun item tree later hitem => ⟨rfl, hitem⟩
  · exact ⟨rfl, laidOut_nil⟩

end Building

-- ============================================================== grammar

namespace BuildingGrammar

open Building (Builds Collects Fills StandsFor builds_fail builds_failAt
  collects_nil)

/-- The parsers of a grammar that builds do what those of another grammar
do, from any arena on. That one bounds how many parentheses there may be
around an expression. -/
structure Agrees (lines : Text.LineMap) (b : BuildingGrammar) (g : Grammar)
    (n : Nat) : Prop where
  brackets : g.BracketsBelow (n + 1)
  assignment (arena : Arena) (noIn : Bool) :
    Builds lines arena (b.assignment noIn) (g.assignment noIn)
      (StandsFor lines arena)
  operand (arena : Arena) (above : Nat) (noIn : Bool) :
    Builds lines arena (b.operand above noIn) (g.operand above noIn)
      (StandsFor lines arena)
  unary (arena : Arena) :
    Builds lines arena b.unary g.unary (StandsFor lines arena)
  callee (arena : Arena) :
    Builds lines arena b.callee g.callee (StandsFor lines arena)
  statement (arena : Arena) (s : Surroundings) :
    Builds lines arena (b.statement s) (g.statement s)
      (StandsFor lines arena)

variable {b : BuildingGrammar} {g : Grammar} {n : Nat}

-- ======================================================== simple pieces

/-- A name is one node. -/
theorem name_builds (arena : Arena) (orKeyword : Bool) :
    Builds lines arena (Building.name orKeyword) (Parse.name orKeyword)
      (StandsFor lines arena) := by
  refine .behind fun token => .ite (.behind fun _ => ?_) builds_fail
  exact .finish (.identifier token.value) laidOut_nil

/-- A literal is one node. -/
theorem literal_builds (arena : Arena) :
    Builds lines arena Building.literal Parse.literal
      (StandsFor lines arena) := by
  refine .behind fun token => .ite builds_fail (.behind fun _ => ?_)
  generalize token.kind = kind
  cases kind with
  | string => exact .finish (.string token.value) laidOut_nil
  | number => exact .finish (.number token.value) laidOut_nil
  | _ => exact .finish (.regex token.value) laidOut_nil

/-- A token alone has a form without slots. -/
theorem atom_builds (arena : Arena) (joint : Form Placed)
    (hslots : joint.slots = []) :
    Builds lines arena (Building.atom (joint.map Prod.fst))
      (Parse.atom (joint.map Prod.snd)) (StandsFor lines arena) := by
  refine .behind fun start => .behind fun _ => .finish joint ?_
  rw [hslots]
  exact laidOut_nil

-- ==================================================== whole expressions

/-- Operands with commas between them, each node added behind the two that it
joins. -/
theorem expression_builds (h : Agrees lines b g n) (arena : Arena)
    (noIn : Bool) :
    Builds lines arena (b.expression noIn) (g.expression noIn)
      (StandsFor lines arena) := by
  refine .behind fun start => ?_
  refine (h.assignment arena noIn).bind fun first tree middle hfirst => ?_
  refine .iterate (fun left leftTree middle hleft => ?_) hfirst
  refine .behind fun isComma => .ite ?_ (.pure ⟨rfl, hleft⟩)
  refine (h.assignment middle noIn).bind fun right rightTree later hright => ?_
  refine .bind (.finish (.binary (some left, some leftTree)
    Punctuator.comma (some right, some rightTree)) (hleft.append hright))
    fun both tree last hboth => .pure ⟨rfl, hboth⟩

/-- Arguments are laid out in turn, before the call that they belong to. -/
theorem arguments_builds (h : Agrees lines b g n) (arena : Arena) :
    Builds lines arena b.arguments g.arguments (LaidOut lines arena) := by
  refine .behind fun _ => .behind fun isClosed => ?_
  refine .choice (R := fun items trees =>
      LaidOut lines arena (items.map some) (trees.map some))
    (.pure laidOut_nil) (.separated fun arena => h.assignment arena false)
    fun items trees later hitems => .behind fun _ => .pure hitems

-- ============================================================ functions

/-- A loop that collects statements up to the end of a block. -/
theorem statements_build (h : Agrees lines b g n) (arena : Arena)
    (s : Surroundings) :
    Builds lines arena (b.statements s) (g.statements s)
      (LaidOut lines arena) := by
  have hall : Builds lines arena (b.statements s) (g.statements s)
      fun refs slots => LaidOut lines arena (refs.map id) (slots.map id) := by
    refine .many id id fun arena => .behind fun kind => ?_
    have hmore : Builds lines arena
        (do return some (some (← b.statement s)))
        (do return some (some (← g.statement s))) fun r r' later =>
          r.isSome = r'.isSome
            ∧ LaidOut lines arena (r.toList.map id) (r'.toList.map id) later :=
      (h.statement arena s).bind fun i tree later hi => .pure ⟨rfl, hi⟩
    split
    case h_5 => simp only [*]
    all_goals exact .pure ⟨rfl, laidOut_nil⟩
  simpa only [List.map_id] using hall

/-- The body of a block is laid out statement by statement. -/
theorem block_builds (h : Agrees lines b g n) (arena : Arena)
    (s : Surroundings) :
    Builds lines arena (b.block s) (g.block s) (StandsFor lines arena) := by
  refine .behind fun start => .behind fun _ => ?_
  refine (statements_build h arena s).bind fun refs slots later hslots => ?_
  obtain ⟨placed, rfl, rfl⟩ := hslots.exists_placed
  exact .behind fun _ => .finish (.block placed) hslots

/-- Name, parameters and body are laid out in this order. -/
theorem function_builds (h : Agrees lines b g n) (arena : Arena)
    (isDeclaration : Bool) :
    Builds lines arena (b.function isDeclaration) (g.function isDeclaration)
      (StandsFor lines arena) := by
  have hname : Builds lines arena (some <$> Building.name false)
      (some <$> Parse.name false) (Fills lines arena) :=
    (name_builds arena false).map fun _ _ _ hi => hi
  refine .behind fun start => .behind fun _ => .behind fun isNamed => ?_
  suffices hrest : ∀ name slot middle, Fills lines arena name slot middle →
      Builds lines middle _ _ (StandsFor lines arena) from
    .ite (hname.bind hrest) (.choice hname (.pure laidOut_hole) hrest)
  intro name slot middle hfirst
  refine .behind fun _ => .behind fun isClosed => ?_
  refine .choice (R := fun items trees =>
      LaidOut lines middle (items.map some) (trees.map some))
    (.pure laidOut_nil) (.separated fun arena => name_builds arena false)
    fun items trees later hitems => .behind fun _ => ?_
  refine (block_builds h later _).bind fun body tree last hbody => ?_
  obtain ⟨placed, hslots, hrefs⟩ := hitems.exists_placed
  have hall := (hfirst.append hitems).append hbody
  rw [← hslots, ← hrefs] at hall ⊢
  refine .finish (.function (name, slot) placed (some body, some tree)
    isDeclaration) ?_
  simpa [Form.slots] using hall

-- ============================================================= literals

/-- A hole takes a place in the list, but no node. -/
theorem array_builds (h : Agrees lines b g n) (arena : Arena) :
    Builds lines arena b.array g.array (StandsFor lines arena) := by
  refine .behind fun start => .behind fun _ => ?_
  refine .bind (.iterate (I := Collects lines arena) ?_ collects_nil) ?_
  · rintro ⟨done, more⟩ ⟨done', _⟩ middle ⟨hdone, rfl⟩
    refine .behind fun isClosed => .ite (.pure ⟨rfl, hdone, rfl⟩) ?_
    refine .behind fun isHole => .ite (.pure ⟨rfl, ?_, rfl⟩) ?_
    · simpa using hdone.append laidOut_hole
    · refine (h.assignment middle false).bind fun i tree later hi => ?_
      refine .behind fun isMore => .pure ⟨rfl, ?_, rfl⟩
      simpa using hdone.append hi
  · intro state state' later hstate
    obtain ⟨placed, hrefs, hslots, hall⟩ := hstate.exists_placed
    rw [← hrefs, ← hslots]
    exact .behind fun _ => .finish (.array placed) hall

/-- The comment in front of a key is attached to it on both sides. -/
theorem property_builds (h : Agrees lines b g n) (arena : Arena) :
    Builds lines arena b.property g.property (StandsFor lines arena) := by
  refine .behind fun token => ?_
  suffices hrest : ∀ key tree middle, StandsFor lines arena key tree middle →
      Builds lines middle _ _ (StandsFor lines arena) by
    generalize token.kind = kind
    cases kind with
    | string => exact (literal_builds arena).bind hrest
    | number => exact (literal_builds arena).bind hrest
    | _ => exact (name_builds arena true).bind hrest
  intro key tree middle hkey
  refine .behind_survey ?_
  rw [hkey.shows.identifier?_eq]
  refine .behind fun isColon => .ite builds_failAt ?_
  refine .behind_attachDoc (.behind fun _ => ?_)
  refine (h.assignment _ false).bind fun value valueTree later hvalue => ?_
  exact .finish (.property (some key, some (tree.withDoc token.doc))
    (some value, some valueTree)) ((hkey.attachDoc token.doc).append hvalue)

/-- A loop that collects properties. -/
theorem object_builds (h : Agrees lines b g n) (arena : Arena) :
    Builds lines arena b.object g.object (StandsFor lines arena) := by
  refine .behind fun start => .behind fun _ => ?_
  refine .bind (.iterate (I := Collects lines arena) ?_ collects_nil) ?_
  · rintro ⟨done, more⟩ ⟨done', _⟩ middle ⟨hdone, rfl⟩
    refine .behind fun isClosed => .ite (.pure ⟨rfl, hdone, rfl⟩) ?_
    refine (property_builds h middle).bind fun i tree later hi => ?_
    refine .behind fun isMore => .pure ⟨rfl, ?_, rfl⟩
    simpa using hdone.append hi
  · intro state state' later hstate
    obtain ⟨placed, hrefs, hslots, hall⟩ := hstate.exists_placed
    rw [← hrefs, ← hslots]
    exact .behind fun _ => .finish (.object placed) hall

/-- The operands, told by the kind of their first token. -/
theorem primary_builds (h : Agrees lines b g n) (arena : Arena) :
    Builds lines arena b.primary g.primary (StandsFor lines arena) := by
  refine .behind fun token => ?_
  generalize token.kind = kind
  split
  case h_1 => exact name_builds arena false
  case h_2 => exact atom_builds arena .thisRef rfl
  case h_3 => exact atom_builds arena .null rfl
  case h_4 => exact atom_builds arena (.boolean true) rfl
  case h_5 => exact atom_builds arena (.boolean false) rfl
  case h_6 => exact literal_builds arena
  case h_7 => exact literal_builds arena
  case h_8 => exact .behind fun _ => literal_builds arena
  case h_9 => exact .behind fun _ => literal_builds arena
  case h_10 =>
      refine .behind fun _ => ?_
      refine (expression_builds h arena false).bind
        fun inner tree later hinner => .behind fun _ => ?_
      exact .finish (.paren (some inner, some tree)) hinner
  case h_11 => exact array_builds h arena
  case h_12 => exact object_builds h arena
  case h_13 =>
      refine (function_builds h arena false).bind
        fun function tree later hfunction => .behind_attachDoc (.pure ?_)
      exact hfunction.attachDoc token.doc
  case h_14 =>
      simpa only [*] using builds_fail

-- ============================================================ operators

/-- What is put behind an operand has the operand as its first slot, which has
been laid out already. -/
theorem extend_builds (h : Agrees lines b g n) {first arena : Arena}
    (calls : Bool) (start : Nat) {owner : Nat} {tree : Tree}
    (howner : StandsFor lines first owner tree arena) :
    Builds lines arena (b.extend calls start owner)
      (g.extend calls start tree) fun r r' later =>
        r.isSome = r'.isSome
          ∧ StandsFor lines first (r.getD owner) (r'.getD tree) later := by
  refine .behind fun kind => ?_
  split
  · refine .behind fun _ => (name_builds arena true).bind
      fun name nameTree later hname => ?_
    exact .map (.finish (.member (some owner, some tree)
      (some name, some nameTree)) (howner.append hname))
      fun i t last hi => ⟨rfl, hi⟩
  · refine .behind fun _ => (expression_builds h arena false).bind
      fun index indexTree later hindex => .behind fun _ => ?_
    exact .map (.finish (.element (some owner, some tree)
      (some index, some indexTree)) (howner.append hindex))
      fun i t last hi => ⟨rfl, hi⟩
  · refine .ite ((arguments_builds h arena).bind
      fun refs slots later hslots => ?_) (.pure ⟨rfl, howner⟩)
    obtain ⟨placed, rfl, rfl⟩ := hslots.exists_placed
    exact .map (.finish (.call (some owner, some tree) placed)
      (howner.append hslots)) fun i t last hi => ⟨rfl, hi⟩
  · simpa only [*] using .pure ⟨rfl, howner⟩

/-- A construction, with or without arguments. -/
theorem head_builds (h : Agrees lines b g n) (arena : Arena) :
    Builds lines arena b.head g.head (StandsFor lines arena) := by
  refine .behind fun start => .behind fun isNew => .ite ?_
    (primary_builds h arena)
  refine (h.callee arena).bind fun callee tree middle hcallee => ?_
  refine .behind fun isCall => .choice (arguments_builds h middle)
    (.pure laidOut_nil) fun refs slots later hslots => ?_
  obtain ⟨placed, rfl, rfl⟩ := hslots.exists_placed
  exact .finish (.construct (some callee, some tree) placed)
    (hcallee.append hslots)

/-- A loop whose state is the operand that has been read so far. -/
theorem leftHand_builds (h : Agrees lines b g n) (arena : Arena)
    (calls : Bool) :
    Builds lines arena (b.leftHand calls) (g.leftHand calls)
      (StandsFor lines arena) := by
  refine .behind fun start => ?_
  refine (head_builds h arena).bind fun head tree middle hhead => ?_
  exact .iterate (fun owner tree middle howner =>
    extend_builds h calls start howner) hhead

/-- Operators in front of an operand or behind it. -/
theorem unaryExpression_builds (h : Agrees lines b g n) (arena : Arena) :
    Builds lines arena b.unaryExpression g.unaryExpression
      (StandsFor lines arena) := by
  refine .behind fun token => .ite (.behind fun _ => ?_) ?_
  · refine (h.unary arena).bind fun operand tree later hoperand => ?_
    exact .finish (.unary token.kind (some operand, some tree) true)
      hoperand
  · refine (leftHand_builds h arena true).bind
      fun operand tree later hoperand => .behind fun next => ?_
    refine .ite (.behind fun _ => ?_) (.pure hoperand)
    exact .finish (.unary next.kind (some operand, some tree) false)
      hoperand

/-- The loop over operators has the operand so far as its state, with the
right one laid out behind it. -/
theorem binaryExpression_builds (h : Agrees lines b g n) (arena : Arena)
    (above : Nat) (noIn : Bool) :
    Builds lines arena (b.binaryExpression above noIn)
      (g.binaryExpression above noIn) (StandsFor lines arena) := by
  refine .behind fun start => ?_
  refine (unaryExpression_builds h arena).bind
    fun first tree middle hfirst => ?_
  refine .iterate (fun left leftTree middle hleft => ?_) hfirst
  refine .behind fun operator => .ite (.pure ⟨rfl, hleft⟩)
    (.behind fun _ => ?_)
  refine (h.operand middle _ noIn).bind
    fun right rightTree later hright => ?_
  exact .bind (.finish (.binary (some left, some leftTree) operator
    (some right, some rightTree)) (hleft.append hright))
    fun both tree last hboth => .pure ⟨rfl, hboth⟩

/-- A condition and two branches. -/
theorem conditional_builds (h : Agrees lines b g n) (arena : Arena)
    (noIn : Bool) :
    Builds lines arena (b.conditional noIn) (g.conditional noIn)
      (StandsFor lines arena) := by
  refine .behind fun start => ?_
  refine (binaryExpression_builds h arena 0 noIn).bind
    fun condition tree middle hcondition => ?_
  refine .behind fun isAsked => .ite ?_ (.pure hcondition)
  refine (h.assignment middle false).bind
    fun whenTrue trueTree later htrue => .behind fun _ => ?_
  refine (h.assignment later noIn).bind
    fun whenFalse falseTree last hfalse => ?_
  exact .finish (.conditional (some condition, some tree)
    (some whenTrue, some trueTree) (some whenFalse, some falseTree))
    ((hcondition.append htrue).append hfalse)

/-- Whether the left side may be assigned to is read off the arena, which
parentheses do not keep from being seen. -/
theorem assignmentExpression_builds (h : Agrees lines b g n)
    (hn : n + 2 ≤ Arena.walkLimit) (arena : Arena) (noIn : Bool) :
    Builds lines arena (b.assignmentExpression noIn)
      (g.assignmentExpression noIn) (StandsFor lines arena) := by
  refine .behind fun start => ?_
  have hleft := (conditional_builds h arena noIn).and_yields
    (Grammar.conditional_parensBelow h.brackets noIn)
  refine hleft.bind fun left tree middle ⟨hleft, hparens⟩ => ?_
  refine .behind fun operator => .ite (.behind_survey ?_) (.pure hleft)
  rw [Arena.isTarget_of_shows hleft.shows hparens hn]
  refine .ite (.behind fun _ => ?_) builds_fail
  refine (h.assignment middle noIn).bind
    fun right rightTree later hright => ?_
  exact .finish (.assignment (some left, some tree) operator
    (some right, some rightTree)) (hleft.append hright)

-- ======================================================== declarations

/-- A name and perhaps an initial value. -/
theorem declaration_builds (h : Agrees lines b g n) (arena : Arena)
    (noIn : Bool) :
    Builds lines arena (b.declaration noIn) (g.declaration noIn)
      (StandsFor lines arena) := by
  refine .behind fun start => ?_
  refine (name_builds arena false).bind fun name tree middle hname => ?_
  refine .behind fun isSet => .choice (R := Fills lines middle)
    ((h.assignment middle noIn).map fun i t later hi => hi)
    (.pure laidOut_hole) fun ref slot later hslot => ?_
  exact .finish (.declaration (some name, some tree) (ref, slot))
    (hname.append hslot)

/-- Declarations with commas between them are laid out in turn, before the
node that lists them. -/
theorem declarations_build (h : Agrees lines b g n) (arena : Arena)
    (noIn : Bool) :
    Builds lines arena (b.declarations noIn) (g.declarations noIn)
      (StandsFor lines arena) := by
  refine .behind fun start => .behind fun _ => ?_
  refine .bind (.separated fun arena => declaration_builds h arena noIn)
    fun items trees later hitems => ?_
  obtain ⟨placed, hslots, hrefs⟩ := hitems.exists_placed
  rw [← hslots, ← hrefs] at hitems ⊢
  exact .finish (.declarations placed) hitems

-- ========================================================== conditions

/-- What stands in the parentheses of a condition. -/
theorem condition_builds (h : Agrees lines b g n) (arena : Arena) :
    Builds lines arena b.condition g.condition (StandsFor lines arena) := by
  refine .behind fun _ => ?_
  exact (expression_builds h arena false).bind
    fun condition tree later hcondition => .behind fun _ => .pure hcondition

/-- An expression that may be left out. -/
theorem value_builds (h : Agrees lines b g n) (arena : Arena) :
    Builds lines arena (some <$> b.expression false)
      (some <$> g.expression false) (Fills lines arena) :=
  (expression_builds h arena false).map fun _ _ _ hi => hi

/-- An expression, or an empty slot. -/
theorem optionalExpression_builds (h : Agrees lines b g n) (arena : Arena)
    (stop : Punctuator) :
    Builds lines arena (b.optionalExpression stop)
      (g.optionalExpression stop) (Fills lines arena) :=
  .behind fun _ => .ite (.pure laidOut_hole) (value_builds h arena)

/-- A condition and one statement or two. -/
theorem branch_builds (h : Agrees lines b g n) (arena : Arena)
    (s : Surroundings) :
    Builds lines arena (b.branch s) (g.branch s)
      (StandsFor lines arena) := by
  refine .behind fun start => .behind fun _ => ?_
  refine (condition_builds h arena).bind
    fun condition tree middle hcondition => ?_
  refine (h.statement middle s).bind
    fun consequent consequentTree later hconsequent => ?_
  refine .behind fun isElse => .choice (R := Fills lines later)
    ((h.statement later s).map fun i t last hi => hi)
    (.pure laidOut_hole) fun ref slot last hslot => ?_
  exact .finish (.branch (some condition, some tree)
    (some consequent, some consequentTree) (ref, slot))
    ((hcondition.append hconsequent).append hslot)

-- =============================================================== loops

/-- The rest of a loop whose first part has been laid out before it was known
which loop it is. -/
theorem forInTail_builds (h : Agrees lines b g n) {first arena : Arena}
    (s : Surroundings) (start : Nat) {target : Nat} {tree : Tree}
    (htarget : StandsFor lines first target tree arena) :
    Builds lines arena (b.forInTail s start target)
      (g.forInTail s start tree) (StandsFor lines first) := by
  refine .behind_survey ?_
  rw [Arena.declaresMany_of_shows htarget.shows]
  refine .ite builds_fail ?_
  refine (expression_builds h arena false).bind
    fun subject subjectTree later hsubject => .behind fun _ => ?_
  refine (h.statement later _).bind fun body bodyTree last hbody => ?_
  exact .finish (.forIn (some target, some tree)
    (some subject, some subjectTree) (some body, some bodyTree))
    ((htarget.append hsubject).append hbody)

/-- The rest of a loop with semicolons in its head, behind a first part that
may be absent. -/
theorem forTail_builds (h : Agrees lines b g n) {first arena : Arena}
    (s : Surroundings) (start : Nat) {ref : Ref} {slot : Option Tree}
    (hinitializer : Fills lines first ref slot arena) :
    Builds lines arena (b.forTail s start ref) (g.forTail s start slot)
      (StandsFor lines first) := by
  refine .behind fun _ => ?_
  refine (optionalExpression_builds h arena _).bind
    fun condition conditionSlot middle hcondition => .behind fun _ => ?_
  refine (optionalExpression_builds h middle _).bind
    fun step stepSlot later hstep => .behind fun _ => ?_
  refine (h.statement later _).bind fun body bodyTree last hbody => ?_
  exact .finish (.forLoop (ref, slot) (condition, conditionSlot)
    (step, stepSlot) (some body, some bodyTree))
    (((hinitializer.append hcondition).append hstep).append hbody)

/-- The first part of the head, and the tail that it turns out to have. -/
theorem forLoop_builds (h : Agrees lines b g n) (arena : Arena)
    (s : Surroundings) :
    Builds lines arena (b.forLoop s) (g.forLoop s)
      (StandsFor lines arena) := by
  refine .behind fun start => .behind fun _ => .behind fun _ => ?_
  refine .behind fun kind => ?_
  have hrest : ∀ first tree middle, StandsFor lines arena first tree middle →
      Builds lines middle (do
        if ← accept Keyword.inWord then b.forInTail s start first
        else b.forTail s start (some first)) (do
        if ← accept Keyword.inWord then g.forInTail s start tree
        else g.forTail s start (some tree)) (StandsFor lines arena) :=
    fun first tree middle hfirst => .behind fun isIn =>
      .ite (forInTail_builds h s start hfirst)
        (forTail_builds h s start hfirst)
  split
  case h_1 => exact forTail_builds h s start laidOut_hole
  case h_2 =>
      simpa only [*] using Building.Builds.choice
        (declarations_build h arena true) (expression_builds h arena true)
        hrest

/-- A condition in front. -/
theorem whileLoop_builds (h : Agrees lines b g n) (arena : Arena)
    (s : Surroundings) :
    Builds lines arena (b.whileLoop s) (g.whileLoop s)
      (StandsFor lines arena) := by
  refine .behind fun start => .behind fun _ => ?_
  refine (condition_builds h arena).bind
    fun condition tree middle hcondition => ?_
  refine (h.statement middle _).bind fun body bodyTree later hbody => ?_
  exact .finish (.whileLoop (some condition, some tree)
    (some body, some bodyTree)) (hcondition.append hbody)

/-- A condition behind. -/
theorem doWhile_builds (h : Agrees lines b g n) (arena : Arena)
    (s : Surroundings) :
    Builds lines arena (b.doWhile s) (g.doWhile s)
      (StandsFor lines arena) := by
  refine .behind fun start => .behind fun _ => ?_
  refine (h.statement arena _).bind fun body bodyTree middle hbody => ?_
  refine .behind fun _ => (condition_builds h middle).bind
    fun condition tree later hcondition => .behind fun _ => ?_
  exact .finish (.doWhile (some body, some bodyTree)
    (some condition, some tree)) (hbody.append hcondition)

-- =============================================================== jumps

/-- A label, if there is one, is a node. -/
theorem jump_builds (arena : Arena) (s : Surroundings) :
    Builds lines arena (BuildingGrammar.jump s) (Grammar.jump s)
      (StandsFor lines arena) := by
  refine .behind fun start => .behind fun isBreak => .behind fun _ => ?_
  refine .behind fun token => .choice (R := Fills lines arena)
    ((name_builds arena false).map fun i t later hi => hi)
    (.pure laidOut_hole) fun ref slot later hslot => ?_
  dsimp only
  rw [hslot.isNone_eq]
  refine .ite builds_failAt (.ite builds_failAt (.behind fun _ => ?_))
  cases isBreak with
  | true => exact .finish (.breaking (ref, slot)) hslot
  | false => exact .finish (.continuing (ref, slot)) hslot

theorem returning_builds (h : Agrees lines b g n) (arena : Arena)
    (s : Surroundings) :
    Builds lines arena (b.returning s) (g.returning s)
      (StandsFor lines arena) := by
  refine .ite builds_fail (.behind fun start => .behind fun _ => ?_)
  refine .behind fun isEnd => .choice (.pure laidOut_hole)
    (value_builds h arena) fun ref slot later hslot => .behind fun _ => ?_
  exact .finish (.returning (ref, slot)) hslot

theorem throwing_builds (h : Agrees lines b g n) (arena : Arena) :
    Builds lines arena b.throwing g.throwing (StandsFor lines arena) := by
  refine .behind fun start => .behind fun _ => .behind fun isBroken => ?_
  refine .ite builds_fail ((expression_builds h arena false).bind
    fun value tree later hvalue => .behind fun _ => ?_)
  exact .finish (.throwing (some value, some tree)) hvalue

/-- A handler behind the name of what it catches, or neither. -/
def Handles (lines : Text.LineMap) (arena : Arena)
    (handler : Option (Nat × Nat)) (handler' : Option (Tree × Tree))
    (later : Arena) : Prop :=
  handler.isNone = handler'.isNone
    ∧ LaidOut lines arena [handler.map (·.1), handler.map (·.2)]
      [handler'.map (·.1), handler'.map (·.2)] later

theorem trying_builds (h : Agrees lines b g n) (arena : Arena)
    (s : Surroundings) :
    Builds lines arena (b.trying s) (g.trying s)
      (StandsFor lines arena) := by
  refine .behind fun start => .behind fun _ => ?_
  refine (block_builds h arena s).bind fun body tree middle hbody => ?_
  refine .behind fun isCaught => ?_
  suffices hrest : ∀ handler handler' later,
      Handles lines middle handler handler' later →
      Builds lines later _ _ (StandsFor lines arena) by
    have hnone : Handles lines middle none none middle := ⟨rfl, rfl⟩
    refine .ite (.behind fun _ => ?_)
      ((Building.Builds.pure hnone).bind hrest)
    refine (name_builds middle false).bind
      fun caught name later hcaught => .behind fun _ => ?_
    have hhandler : Builds lines later (some <$> (caught, ·) <$> b.block s)
        (some <$> (name, ·) <$> g.block s) (Handles lines middle) := by
      rw [Functor.map_map, Functor.map_map]
      exact (block_builds h later s).map
        fun i t last hi => ⟨rfl, hcaught.append hi⟩
    exact hhandler.bind hrest
  rintro handler handler' later ⟨hnone, hhandler⟩
  refine .behind fun isCleaned => .choice (R := Fills lines later)
    ((block_builds h later s).map fun i t last hi => hi)
    (.pure laidOut_hole) fun ref slot last hslot => ?_
  dsimp only
  rw [hnone, hslot.isNone_eq]
  refine .ite builds_fail ?_
  generalize handler.map (·.1) = caught, handler.map (·.2) = handled,
    handler'.map (·.1) = name, handler'.map (·.2) = block at hhandler ⊢
  exact .finish (.trying (some body, some tree) (caught, name)
    (handled, block) (ref, slot)) ((hbody.append hhandler).append hslot)

-- ============================================================== switch

/-- A test, or an empty slot for the default clause. -/
theorem clauseTest_builds (h : Agrees lines b g n) (arena : Arena)
    (hasDefault : Bool) :
    Builds lines arena (b.clauseTest hasDefault) (g.clauseTest hasDefault)
      (Fills lines arena) := by
  refine .behind fun kind => ?_
  split
  case h_1 => exact .behind fun _ => value_builds h arena
  case h_2 => exact .ite builds_fail (.behind fun _ => .pure laidOut_hole)
  case h_3 => simpa only [*] using builds_fail

/-- A clause has its test first. -/
theorem clause_builds (h : Agrees lines b g n) (arena : Arena)
    (s : Surroundings) (hasDefault : Bool) :
    Builds lines arena (b.clause s hasDefault) (g.clause s hasDefault)
      fun r r' later =>
        StandsFor lines arena r.1 r'.1 later ∧ r.2 = r'.2 := by
  refine .behind fun start => ?_
  refine (clauseTest_builds h arena hasDefault).bind
    fun ref slot middle htest => .behind fun _ => ?_
  refine (statements_build h middle _).bind
    fun refs slots later hslots => ?_
  obtain ⟨placed, rfl, rfl⟩ := hslots.exists_placed
  exact .bind (.finish (.clause (ref, slot) placed)
    (htest.append hslots))
    fun clause tree last hclause => .pure ⟨hclause, htest.isNone_eq⟩

/-- A loop that collects clauses, and remembers whether one was the default. -/
theorem switch_builds (h : Agrees lines b g n) (arena : Arena)
    (s : Surroundings) :
    Builds lines arena (b.switch s) (g.switch s)
      (StandsFor lines arena) := by
  refine .behind fun start => .behind fun _ => ?_
  refine (condition_builds h arena).bind
    fun subject tree middle hsubject => .behind fun _ => ?_
  refine .bind (.iterate (I := Collects lines middle) ?_ collects_nil) ?_
  · rintro ⟨done, hasDefault⟩ ⟨done', _⟩ later ⟨hdone, rfl⟩
    refine .behind fun isClosed => .ite (.pure ⟨rfl, hdone, rfl⟩) ?_
    refine (clause_builds h later s hasDefault).bind ?_
    rintro ⟨clause, isDefault⟩ ⟨clauseTree, _⟩ last ⟨hclause, rfl⟩
    refine .pure ⟨rfl, ?_, rfl⟩
    simpa using hdone.append hclause
  · intro state state' later hstate
    obtain ⟨placed, hrefs, hslots, hall⟩ := hstate.exists_placed
    rw [← hrefs, ← hslots]
    exact .behind fun _ => .finish (.switch (some subject, some tree) placed)
      (hsubject.append hall)

-- ========================================================== statements

/-- An expression that is a single name may turn out to be a label. -/
theorem expressionStatement_builds (h : Agrees lines b g n) (arena : Arena)
    (s : Surroundings) :
    Builds lines arena (b.expressionStatement s) (g.expressionStatement s)
      (StandsFor lines arena) := by
  refine .behind fun token => ?_
  refine (expression_builds h arena false).bind
    fun value tree middle hvalue => .behind_survey ?_
  rw [hvalue.shows.identifier?_eq]
  refine .behind fun isLabel => .ite (.behind fun _ => ?_)
    (.behind fun _ => .behind_attachDoc ?_)
  · refine (h.statement middle s).bind
      fun statement statementTree later hstatement => ?_
    exact .finish (.labeled (some value, some tree)
      (some statement, some statementTree)) (hvalue.append hstatement)
  · exact .finish
      (.expression (some value, some (tree.withDoc token.doc)))
      (hvalue.attachDoc token.doc)

/-- The statements, told by their first token. -/
theorem statementHere_builds (h : Agrees lines b g n) (arena : Arena)
    (s : Surroundings) :
    Builds lines arena (b.statementHere s) (g.statementHere s)
      (StandsFor lines arena) := by
  refine .behind fun token => ?_
  generalize token.kind = kind
  split
  case h_1 => exact block_builds h arena s
  case h_2 => exact atom_builds arena .empty rfl
  case h_3 =>
      exact .behind fun _ => .behind fun _ => .finish .empty laidOut_nil
  case h_4 =>
      refine (declarations_build h arena false).bind
        fun statement tree later hstatement => .behind fun _ => ?_
      exact .behind_attachDoc (.pure (hstatement.attachDoc token.doc))
  case h_5 =>
      exact (function_builds h arena true).bind
        fun function tree later hfunction =>
          .behind_attachDoc (.pure (hfunction.attachDoc token.doc))
  case h_6 => exact branch_builds h arena s
  case h_7 => exact forLoop_builds h arena s
  case h_8 => exact whileLoop_builds h arena s
  case h_9 => exact doWhile_builds h arena s
  case h_10 => exact jump_builds arena s
  case h_11 => exact jump_builds arena s
  case h_12 => exact returning_builds h arena s
  case h_13 => exact throwing_builds h arena
  case h_14 => exact trying_builds h arena s
  case h_15 => exact switch_builds h arena s
  case h_16 => exact .ite builds_failAt (expressionStatement_builds h arena s)
  case h_17 => simpa only [*] using expressionStatement_builds h arena s

-- ============================================================== levels

/-- Where no level is left, nothing is built. -/
theorem agrees_exhausted : Agrees lines exhausted Grammar.exhausted 0 where
  brackets := Grammar.bracketsBelow_levels 0
  assignment _ _ := builds_fail
  operand _ _ _ := builds_fail
  unary _ := builds_fail
  callee _ := builds_fail
  statement _ _ := builds_fail

/-- One nesting level further out. -/
theorem Agrees.outer (h : Agrees lines b g n)
    (hn : n + 2 ≤ Arena.walkLimit) :
    Agrees lines b.outer g.outer (n + 1) where
  brackets := h.brackets.outer
  assignment := assignmentExpression_builds h hn
  operand := binaryExpression_builds h
  unary := unaryExpression_builds h
  callee arena := leftHand_builds h arena false
  statement := statementHere_builds h

/-- A grammar that builds parses like the one with as many levels. -/
theorem agrees_levels {n : Nat} (hn : n + 1 ≤ Arena.walkLimit) :
    Agrees lines (levels n) (Grammar.levels n) n := by
  induction n with
  | zero => exact agrees_exhausted
  | succ n ih => exact (ih (by omega)).outer hn

-- ============================================================ programs

/-- The statements of a program are laid out before its own node. -/
theorem program_builds (h : Agrees lines b g n) (arena : Arena) :
    Builds lines arena b.program g.program (StandsFor lines arena) := by
  refine .bind (.many id id fun arena => ?_)
    fun refs slots later hslots => .behind fun token => ?_
  · refine .behind fun isEnd => .ite (.pure ⟨rfl, laidOut_nil⟩) ?_
    exact (h.statement arena {}).bind
      fun i tree later hi => .pure ⟨rfl, hi⟩
  · generalize token.openComment = comment
    cases comment with
    | some offset => exact builds_failAt
    | none =>
        rw [List.map_id, List.map_id] at hslots
        obtain ⟨placed, rfl, rfl⟩ := hslots.exists_placed
        exact .add (.file placed) hslots

end BuildingGrammar

namespace Arena

/-- Parsing a text into an arena comes to what laying out its tree does. -/
theorem parse_eq (text : String) :
    parse text = (Tree.parse text).map (ofTree (.ofText text)) := by
  have hagrees : BuildingGrammar.Agrees (.ofText text)
      (BuildingGrammar.levels Grammar.maxDepth)
      (Grammar.levels Grammar.maxDepth) Grammar.maxDepth :=
    BuildingGrammar.agrees_levels (by decide)
  have hbuilds := BuildingGrammar.program_builds hagrees {}
    { lexeme := Lexeme.first text }
  unfold parse Tree.parse build Tree.read
  rcases hread : (Grammar.levels Grammar.maxDepth).program.run.run
    { lexeme := Lexeme.first text } with ⟨e | tree, cursor⟩
  all_goals rw [hread] at hbuilds
  · obtain ⟨later, hbuild⟩ := hbuilds
    rw [hbuild]
    rfl
  · obtain ⟨root, later, hbuild, hroot⟩ := hbuilds
    rw [hbuild]
    exact congrArg Except.ok (laidOut_single.1 hroot).symm

/-- An arena is written where a tree is yielded. -/
theorem parse_eq_ok {text : String} {root : Nat} {arena : Arena} :
    parse text = .ok (root, arena)
      ↔ ∃ tree, Tree.parse text = .ok tree
        ∧ ofTree (.ofText text) tree = (root, arena) := by
  rw [parse_eq]
  cases Tree.parse text <;> simp [Except.map]

/-- A text that is accepted has been written down as a single tree, the one
that it is parsed into: the nodes that the parser has made on its way are
all below the root, which is the last of them and has no parent; every other
one is listed as a child once, by its parent, which comes behind it; and the
walk from the root comes to every node once. -/
theorem isTree_of_parse {text : String} {root : Nat} {arena : Arena}
    (h : parse text = .ok (root, arena)) :
    ∃ tree, Tree.parse text = .ok tree ∧ arena.IsTree root
      ∧ arena.Shows (.ofText text) root tree := by
  obtain ⟨tree, hparse, hlaid⟩ := parse_eq_ok.1 h
  have hboth : (ofTree (.ofText text) tree).2.IsTree
      (ofTree (.ofText text) tree).1
      ∧ (ofTree (.ofText text) tree).2.Shows (.ofText text)
        (ofTree (.ofText text) tree).1 tree := isTree_shows_ofTree tree
  rw [hlaid] at hboth
  exact ⟨tree, hparse, hboth⟩

/-- A call with an argument is a tree of five nodes: the program, its
statement, the call, and what is called with what. -/
theorem isTree_of_parse_call :
    ∃ arena tree, parse "f(1);" = .ok (4, arena)
      ∧ arena.preorder (some 4) = [4, 3, 2, 0, 1]
      ∧ Tree.parse "f(1);" = .ok tree ∧ arena.IsTree 4
      ∧ arena.Shows (.ofText "f(1);") 4 tree := by
  have horder : (parse "f(1);").toOption.map
      (fun (root, arena) => (root, arena.preorder (some root)))
      = some (4, [4, 3, 2, 0, 1]) := by decide +kernel
  cases hparse : parse "f(1);" with
  | error e =>
      rw [hparse] at horder
      cases horder
  | ok built =>
      obtain ⟨root, arena⟩ := built
      rw [hparse] at horder
      obtain ⟨rfl, horder⟩ := Prod.mk.inj (Option.some.inj horder)
      obtain ⟨tree, htree⟩ := isTree_of_parse hparse
      exact ⟨arena, tree, rfl, horder, htree⟩

end Arena

end ScriptLint
