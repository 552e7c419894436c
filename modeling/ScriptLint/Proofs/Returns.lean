/-
The check of a file always comes to its end. The one thing it can trip
over is a return without a function around it, found by a walk that is
cut off; but the parser only lets returns into functions, and the
nesting limit keeps the function of a return within the reach of the
walk.

The argument goes down the arena: a node shows a tree whose jumps fit,
and while there is room for a return below it, its function lies among
the nodes above that are out of that room (`Settled`). The root starts
with no function to find, a function gives its children full room, and
any other node uses up one.
-/
import ScriptLint.Proofs.Parse.Jumps
import ScriptLint.Proofs.Syntax.Nodes
import ScriptLint.Proofs.Session

namespace ScriptLint

variable {lines : Text.LineMap}

-- =============================================================== forms

/-- A function begins anew; any other node keeps what is around it and
uses up room. -/
theorem Form.function_or_below {ι : Type} (form : Form ι) (s : Surroundings)
    (room : Nat) :
    (∃ name parameters body isDeclaration,
        form = .function name parameters body isDeclaration)
      ∨ ((form.around s).inFunction = s.inFunction
        ∧ form.roomBelow room = room - 1) := by
  cases form with
  | function name parameters body isDeclaration =>
      exact .inl ⟨_, _, _, _, rfl⟩
  | _ => exact .inr ⟨rfl, rfl⟩

theorem Form.roomBelow_le {ι : Type} (form : Form ι) {room : Nat}
    (h : room ≤ Arena.walkLimit) : form.roomBelow room ≤ Arena.walkLimit := by
  cases form <;> simp only [roomBelow] <;> omega

theorem Tree.Fits.child {s : Surroundings} {room : Nat} {tree child : Tree}
    (h : tree.Fits s room) (hchild : child ∈ tree.form.children) :
    child.Fits (tree.form.around s) (tree.form.roomBelow room) := by
  obtain ⟨hstand, hbelow⟩ := h
  exact hbelow _ (Form.mem_children.1 hchild) child rfl

namespace Arena

variable {arena : Arena}

-- =============================================================== walks

/-- A longer walk upwards begins like a shorter one. -/
theorem isPrefix_chain {m n : Nat} (h : m ≤ n) (ref : Ref) :
    arena.chain m ref <+: arena.chain n ref := by
  induction m generalizing n ref with
  | zero => cases ref <;> exact List.nil_prefix
  | succ m ih =>
      obtain ⟨n, rfl⟩ := Nat.exists_eq_add_of_lt (by omega : 0 < n)
      cases ref with
      | none => exact List.nil_prefix
      | some i =>
          rw [chain, chain]
          exact (List.prefix_cons_inj i).2 (ih (by omega) _)

/-- A longer walk upwards comes to what a shorter one does. -/
theorem mem_chain_mono {m n : Nat} (h : m ≤ n) {ref : Ref} {f : Nat}
    (hf : f ∈ arena.chain m ref) : f ∈ arena.chain n ref :=
  (isPrefix_chain h ref).mem hf

theorem length_chain_le (arena : Arena) (steps : Nat) (ref : Ref) :
    (arena.chain steps ref).length ≤ steps := by
  induction steps generalizing ref with
  | zero => cases ref <;> exact Nat.le_refl 0
  | succ steps ih =>
      cases ref with
      | none => exact Nat.zero_le _
      | some i => exact Nat.succ_le_succ (ih _)

/-- The form that a node has is that of the tree it shows. -/
theorem Shows.exists_joint {i : Nat} {tree : Tree}
    (h : arena.Shows lines i tree) :
    ∃ joint : Form Placed, arena.form? (some i) = some (joint.map Prod.fst)
      ∧ tree.form = joint.map Prod.snd := by
  obtain ⟨hnode, hfilled, hbelow⟩ := h
  exact ⟨_, by simp [form?, node?, hnode], rfl⟩

-- ============================================================= returns

/-- A node at which a tree fits; while there is room for a return, its
function is among the nodes above that the room leaves to the walk. -/
def Settled (lines : Text.LineMap) (arena : Arena) (i : Nat) : Prop :=
  ∃ tree s room, arena.Shows lines i tree ∧ Tree.Fits s room tree
    ∧ room ≤ walkLimit
    ∧ (s.inFunction = true → 0 < room →
      ∃ f ∈ arena.chain (walkLimit + 1 - room) (arena.parentOf (some i)),
        arena.isFunction (some f) = true)

/-- What is settled passes to the children. -/
theorem Settled.child {i child : Nat} (h : arena.Settled lines i)
    (hchild : child ∈ arena.childrenOf i)
    (hparent : arena.parentOf (some child) = some i) :
    arena.Settled lines child := by
  obtain ⟨tree, s, room, hshows, hfits, hroom, hfunction⟩ := h
  obtain ⟨t, ht, hshowsChild⟩ := hshows.exists_child hchild
  refine ⟨t, _, _, hshowsChild, hfits.child ht,
    Form.roomBelow_le _ hroom, fun hinside hpos => ?_⟩
  rw [hparent]
  rcases Form.function_or_below tree.form s room with
    ⟨name, parameters, body, isDeclaration, hform⟩ | ⟨haround, hbelow⟩
  · obtain ⟨joint, hnode, hjoint⟩ := hshows.exists_joint
    refine ⟨i, ?_, ?_⟩
    · rw [hform]
      exact List.mem_cons_self ..
    · rw [hform] at hjoint
      cases joint <;> cases hjoint
      simp [isFunction, hnode, Form.map]
  · rw [haround] at hinside
    rw [hbelow] at hpos ⊢
    obtain ⟨f, hf, hisFunction⟩ := hfunction hinside (by omega)
    refine ⟨f, ?_, hisFunction⟩
    rw [show walkLimit + 1 - (room - 1) = walkLimit + 1 - room + 1
      by omega]
    exact List.mem_cons_of_mem _ hf

/-- What is found around a node is a function. -/
theorem isFunction_of_functionAround? {ref : Ref} {function : Nat}
    (h : arena.functionAround? ref = some function) :
    arena.isFunction (some function) = true :=
  List.find?_some (p := fun i => arena.isFunction (some i)) h

/-- A settled return has a function above it within the reach of the
walk. -/
theorem Settled.exists_function {i : Nat} {value : Ref}
    (h : arena.Settled lines i)
    (hform : arena.form? (some i) = some (.returning value)) :
    ∃ f ∈ arena.ancestors (some i), arena.isFunction (some f) = true := by
  obtain ⟨tree, s, room, hshows, hfits, hroom, hfunction⟩ := h
  obtain ⟨joint, hnode, hjoint⟩ := hshows.exists_joint
  have hstand : tree.form.mayStand s room := by
    obtain ⟨hstand, hbelow⟩ := hfits
    exact hstand
  rw [hform, Option.some_inj] at hnode
  cases joint <;> cases hnode
  rw [hjoint] at hstand
  obtain ⟨f, hf, hisFunction⟩ := hfunction hstand.1 hstand.2
  have hlt := hstand.2
  exact ⟨f, mem_chain_mono (by omega) hf, hisFunction⟩

/-- Every node of a program is settled. -/
theorem settled_of_parse {text : String} {tree : Tree}
    (h : Tree.parse text = .ok tree) {i : Nat}
    (hi : i < (ofTree lines tree).2.size) :
    (ofTree lines tree).2.Settled lines i := by
  obtain ⟨htree, hshows⟩ : (ofTree lines tree).2.IsTree (ofTree lines tree).1
      ∧ (ofTree lines tree).2.Shows lines (ofTree lines tree).1 tree :=
    isTree_shows_ofTree tree
  refine htree.induct ⟨tree, {}, _, hshows, Tree.fits_of_parse h,
    by decide, by simp⟩ ?_ i hi
  exact fun i child hchild hsettled =>
    hsettled.child hchild (htree.parentOf_child hchild)

/-- A node has a form only if it is there. -/
theorem lt_size_of_form? {i : Nat} {form : Form Ref}
    (h : arena.form? (some i) = some form) : i < arena.size := by
  obtain ⟨node, hnode, -⟩ := Option.map_eq_some_iff.1 h
  exact (Array.getElem?_eq_some_iff.1 hnode).1

theorem exists_function_of_returning {text : String} {tree : Tree}
    (h : Tree.parse text = .ok tree) {i : Nat} {value : Ref}
    (hform : (ofTree lines tree).2.form? (some i)
      = some (.returning value)) :
    ∃ f ∈ (ofTree lines tree).2.ancestors (some i),
      (ofTree lines tree).2.isFunction (some f) = true :=
  (settled_of_parse h (lt_size_of_form? hform)).exists_function hform

-- =============================================================== check

/-- Where some node above is a function, the search for one succeeds. -/
theorem isSome_enclosingFunction? {ref : Ref} {f : Nat}
    (hf : f ∈ arena.ancestors ref) (hfunction : arena.isFunction (some f))
    (model : Model) : (arena.enclosingFunction? model ref).isSome := by
  rw [enclosingFunction?, Option.isSome_map, functionAround?,
    List.find?_isSome]
  exact ⟨f, hf, hfunction⟩

/-- No node goes wrong if the returns have their functions. -/
theorem exists_outcome
    (h : ∀ i value, arena.form? (some i) = some (.returning value) →
      ∃ f ∈ arena.ancestors (some i), arena.isFunction (some f))
    (model : Model) (i : Nat) :
    ∃ outcome, arena.checkNode model i = .ok outcome := by
  unfold checkNode
  dsimp only
  split
  case h_5 value hform =>
      obtain ⟨f, hf, hfunction⟩ := h i value hform
      unfold checkReturn
      dsimp only
      split
      · rename_i hnone
        have hsome := isSome_enclosingFunction? hf hfunction
          (arena.enclosingClass model (some i)).2
        rw [hnone] at hsome
        cases hsome
      · exact ⟨_, rfl⟩
  all_goals exact ⟨_, rfl⟩

end Arena

namespace Session

/-- A visit passes over all nodes if none of them goes wrong. -/
theorem visit_of_outcomes {arena : Arena}
    (h : ∀ model i, ∃ outcome, arena.checkNode model i = .ok outcome)
    (nodes : List Nat) (session : Session) :
    (visit arena nodes session).2 = none := by
  induction nodes generalizing session with
  | nil => rfl
  | cons i nodes ih =>
      obtain ⟨outcome, houtcome⟩ := h session.model i
      rw [visit, houtcome]
      exact ih _

/-- The check of a tree passes over all its nodes if none of them goes
wrong. -/
theorem checkTree_of_outcomes {arena : Arena}
    (h : ∀ model i, ∃ outcome, arena.checkNode model i = .ok outcome)
    (session : Session) (root : Ref) :
    (session.checkTree arena root).2 = none := by
  have hvisit := visit_of_outcomes h (arena.preorder root) session
  unfold checkTree
  split
  · rename_i hrun
    rw [hrun] at hvisit
    exact hvisit
  · split <;> rfl

/-- The check of any text yields its findings. -/
theorem exists_check_eq_ok (session : Session) (file text : String) :
    ∃ found, (session.check file text).2 = .ok found := by
  rw [check_eq]
  dsimp only
  split
  · exact ⟨_, rfl⟩
  · rename_i tree hparse
    have houtcome : ∀ model i, ∃ outcome,
        (Arena.ofTree (.ofText text) tree).2.checkNode model i
          = .ok outcome :=
      Arena.exists_outcome fun _ _ hform =>
        Arena.exists_function_of_returning hparse hform
    have hnone := checkTree_of_outcomes houtcome (session.reset file)
      (some (Arena.ofTree (.ofText text) tree).1)
    split
    · rename_i stray hrun
      rw [hrun] at hnone
      cases hnone
    · exact ⟨_, rfl⟩

/-- The check of any text yields its findings. In a program, every return
has a function among the nodes that the bounded walk upwards comes to,
and so the search for the function around it succeeds. -/
theorem check_total (session : Session) (file text : String) :
    (∃ found, (session.check file text).2 = .ok found)
      ∧ ∀ tree, Tree.parse text = .ok tree →
        let arena := (Arena.ofTree (.ofText text) tree).2
        ∀ i value, arena.form? (some i) = some (.returning value) →
          (arena.ancestors (some i)).length ≤ Arena.walkLimit
            ∧ (∃ f ∈ arena.ancestors (some i),
              arena.isFunction (some f) = true)
            ∧ ∀ model, (arena.enclosingFunction? model (some i)).isSome := by
  refine ⟨exists_check_eq_ok session file text, fun tree hparse => ?_⟩
  intro arena i value hform
  obtain ⟨f, hf, hfunction⟩ :=
    Arena.exists_function_of_returning hparse hform
  exact ⟨Arena.length_chain_le .., ⟨f, hf, hfunction⟩,
    Arena.isSome_enclosingFunction? hf hfunction⟩

/-- A return in a function, and the function above it. -/
theorem check_total_function :
    (∃ found, ((start {}).check "f.js" "function f()\x7breturn;\x7d").2
        = .ok found)
      ∧ Tree.Parses "function f()\x7breturn;\x7d" fun tree =>
        let arena := (Arena.ofTree
          (.ofText "function f()\x7breturn;\x7d") tree).2
        arena.form? (some 1) = some (.returning none)
          ∧ ∃ f ∈ arena.ancestors (some 1),
            arena.isFunction (some f) = true := by
  have hparses : Tree.Parses "function f()\x7breturn;\x7d" fun tree =>
      (Arena.ofTree (.ofText "function f()\x7breturn;\x7d") tree).2.form?
        (some 1) = some (.returning none) := by decide +kernel
  obtain ⟨tree, hparse, hform⟩ := hparses
  have htotal := check_total (start {}) "f.js" "function f()\x7breturn;\x7d"
  refine ⟨htotal.1, tree, hparse, hform, ?_⟩
  exact (htotal.2 tree hparse 1 none hform).2.1

end Session
end ScriptLint
