import Tiovx.Lib.CountedArray
import Tiovx.DataReferences
import Tiovx.ScheduleStatus
import Tiovx.TopologicalSort
/-!
# GraphNodeLists — the nodes, the head nodes and the leaf nodes of a graph (`vx_graph.c`)

A graph has all its nodes in one array and, from the last verification on, its head nodes and its leaf nodes in two others.
`ownGraphRemoveNode` takes a node out of the three; in the array of leaf nodes it moves the last entry but clears one of the
array of head nodes.
-/
namespace Tiovx

open CountedArray

/-- The three arrays of a graph, of nodes `N`, with what `ownGraphSetReverify` writes.  `rest` is what the release of a node
changes: its counts, and what it holds where it is the last. -/
structure GraphNodeLists (N R : Type) where
  nodes : CountedArray N
  headNodes : CountedArray N
  leafNodes : CountedArray N
  nodes_capacity : nodes.capacity = graphMaxNodes
  headNodes_capacity : headNodes.capacity = graphMaxHeadNodes
  leafNodes_capacity : leafNodes.capacity = graphMaxLeafNodes
  verified : Bool
  reverify : Bool
  state : VxGraphState
  rest : R

namespace GraphNodeLists

variable {N R : Type} [DecidableEq N]

/-- `ownGraphSetReverify`. -/
def ownGraphSetReverify (g : GraphNodeLists N R) : GraphNodeLists N R :=
  { g with reverify := g.verified, verified := false, state := .unverified }

/-- The loop over `head_nodes`. -/
def removeHead (g : GraphNodeLists N R) (n : N) : GraphNodeLists N R :=
  { g with headNodes := g.headNodes.remove n, headNodes_capacity := capacity_remove.trans g.headNodes_capacity }

/-- The loop over `leaf_nodes`; nothing comes back where it writes outside `head_nodes`. -/
def removeLeaf (g : GraphNodeLists N R) (n : N) : Option (GraphNodeLists N R) :=
  match g.leafNodes.firstIndex n with
  | none => some g
  | some i =>
    -- `graph->head_nodes[graph->num_leaf_nodes-1U] = NULL`
    if g.leafNodes.count - 1 < graphMaxHeadNodes then
      some { g with
        headNodes := g.headNodes.write (g.leafNodes.count - 1) none
        leafNodes := (g.leafNodes.moveLast i).dropLast }
    else none

/-- The loop over `nodes`; `release` is `ownReleaseReferenceInt` of the node. -/
def removeNode (release : N → R → Int × R) (g : GraphNodeLists N R) (n : N) : Int × GraphNodeLists N R :=
  match g.nodes.firstIndex n with
  | none => (vxSuccess, g)
  | some _ =>
    let (status, rest) := release n g.rest
    (status, ownGraphSetReverify
      { g with nodes := g.nodes.remove n, nodes_capacity := capacity_remove.trans g.nodes_capacity, rest })

/-- `ownGraphRemoveNode` of a graph that is valid. -/
def ownGraphRemoveNode (release : N → R → Int × R) (g : GraphNodeLists N R) (n : N) : Option (Int × GraphNodeLists N R) :=
  ((g.removeHead n).removeLeaf n).map (fun g => g.removeNode release n)

/-- The three arrays are compact. -/
structure Compact (g : GraphNodeLists N R) : Prop where
  nodes : g.nodes.Compact
  heads : g.headNodes.Compact
  leaves : g.leafNodes.Compact

/-- `A'` is compact and has what `A` has, without `n`. -/
def Without (A A' : CountedArray N) (n : N) : Prop := A'.Compact ∧ ∀ m, A'.Holds m ↔ A.Holds m ∧ m ≠ n

/-- `ownGraphRemoveNode` leaves the three arrays of `g` without `n`. -/
def Removes (release : N → R → Int × R) (g : GraphNodeLists N R) (n : N) : Prop :=
  ∃ status g', ownGraphRemoveNode release g n = some (status, g') ∧ Without g.nodes g'.nodes n ∧
    Without g.headNodes g'.headNodes n ∧ Without g.leafNodes g'.leafNodes n

/-- `ownGraphRemoveNode` changes nothing. -/
def Keeps (release : N → R → Int × R) (g : GraphNodeLists N R) (n : N) : Prop :=
  ∃ status, ownGraphRemoveNode release g n = some (status, g)

variable {release : N → R → Int × R} {g g' : GraphNodeLists N R} {n : N} {status : Int} {i : Nat}

theorem removeLeaf_of_not_holds (h : ¬ g.leafNodes.Holds n) : g.removeLeaf n = some g := by
  unfold removeLeaf
  rw [firstIndex_eq_none.2 h]

/-- What comes back for a leaf node has the last leaf node where it was. -/
theorem removeLeaf_of_index (h : g.leafNodes.firstIndex n = some i) (hg : g.removeLeaf n = some g') :
    g'.leafNodes = (g.leafNodes.moveLast i).dropLast := by
  unfold removeLeaf at hg
  rw [h] at hg
  simp only at hg
  split at hg
  · cases hg
    rfl
  · cases hg

theorem removeNode_nodes : (g.removeNode release n).2.nodes = g.nodes.remove n := by
  unfold removeNode
  cases hf : g.nodes.firstIndex n with
  | none => exact (remove_of_not_holds (firstIndex_eq_none.1 hf)).symm
  | some i => rfl

@[simp] theorem removeNode_headNodes : (g.removeNode release n).2.headNodes = g.headNodes := by
  unfold removeNode
  split <;> rfl

@[simp] theorem removeNode_leafNodes : (g.removeNode release n).2.leafNodes = g.leafNodes := by
  unfold removeNode
  split <;> rfl

theorem removeNode_of_not_holds (h : ¬ g.nodes.Holds n) : g.removeNode release n = (vxSuccess, g) := by
  unfold removeNode
  rw [firstIndex_eq_none.2 h]

/-- The three arrays of a graph in which the node is no leaf. -/
theorem remove_of_not_leaf (release : N → R → Int × R) (hl : ¬ g.leafNodes.Holds n) :
    ∃ status g', ownGraphRemoveNode release g n = some (status, g') ∧ g'.nodes = g.nodes.remove n ∧
      g'.headNodes = g.headNodes.remove n ∧ g'.leafNodes = g.leafNodes := by
  have hleaf : (g.removeHead n).removeLeaf n = some (g.removeHead n) := removeLeaf_of_not_holds hl
  refine ⟨((g.removeHead n).removeNode release n).1, ((g.removeHead n).removeNode release n).2, ?_, removeNode_nodes,
    removeNode_headNodes, removeNode_leafNodes⟩
  unfold ownGraphRemoveNode
  rw [hleaf]
  rfl

/-- A leaf node stays in the array, past its count. -/
theorem not_compact_of_leaf (hl : g.leafNodes.Holds n) (h : ownGraphRemoveNode release g n = some (status, g')) :
    g'.leafNodes.count + 1 = g.leafNodes.count ∧ ¬ g'.leafNodes.Compact := by
  obtain ⟨i, hi⟩ := Option.ne_none_iff_exists'.1 (fun hn => firstIndex_eq_none.1 hn hl)
  obtain ⟨hlt, hx⟩ := entry_of_firstIndex hi
  obtain ⟨g₁, hg₁, hg'⟩ := Option.map_eq_some_iff.1 h
  have hleaf : g'.leafNodes = (g.leafNodes.moveLast i).dropLast := by
    have hg : g' = (g₁.removeNode release n).2 := by rw [hg']
    rw [hg, removeNode_leafNodes]
    exact (removeLeaf_of_index (show (g.removeHead n).leafNodes.firstIndex n = some i from hi) hg₁ :)
  rw [hleaf]
  have hfits := g.leafNodes.fits
  refine ⟨show g.leafNodes.count - 1 + 1 = _ by omega, fun hc => ?_⟩
  have hcleared := hc.cleared (g.leafNodes.count - 1) (Nat.le_refl _) (show _ < g.leafNodes.capacity by omega)
  have hentry : ∀ k, ((g.leafNodes.moveLast i).dropLast).entry k =
      if k = i then g.leafNodes.entry (g.leafNodes.count - 1) else g.leafNodes.entry k := fun k => Function.update_apply ..
  rw [hentry] at hcleared
  by_cases hil : i = g.leafNodes.count - 1
  · rw [if_pos hil.symm, ← hil, hx] at hcleared
    cases hcleared
  · -- the last entry is empty, and so is the one it was moved to
    rw [if_neg (Ne.symm hil)] at hcleared
    refine hc.nonNull i (show i < g.leafNodes.count - 1 by omega) ?_
    rw [hentry, if_pos rfl, hcleared]

theorem removes_iff : Removes release g n ↔ g.Compact ∧ ¬ g.leafNodes.Holds n := by
  constructor
  · rintro ⟨status, g', h, hnodes, hheads, hleaves⟩
    have hl : ¬ g.leafNodes.Holds n := fun hl => (not_compact_of_leaf hl h).2 hleaves.1
    obtain ⟨_, _, h', hn', hh', hl'⟩ := remove_of_not_leaf release hl
    cases h.symm.trans h'
    rw [hn'] at hnodes
    rw [hh'] at hheads
    exact ⟨⟨remove_iff.1 hnodes, remove_iff.1 hheads, hl' ▸ hleaves.1⟩, hl⟩
  · rintro ⟨hc, hl⟩
    obtain ⟨status, g', h, hn', hh', hl'⟩ := remove_of_not_leaf release hl
    refine ⟨status, g', h, ?_, ?_, ?_⟩
    · exact hn' ▸ hc.nodes.remove
    · exact hh' ▸ hc.heads.remove
    · rw [hl']
      exact ⟨hc.leaves, fun m => ⟨fun hm => ⟨hm, fun e => hl (e ▸ hm)⟩, And.left⟩⟩

theorem keeps_iff (hn : ¬ g.nodes.Holds n) : Keeps release g n ↔ ¬ g.headNodes.Holds n ∧ ¬ g.leafNodes.Holds n := by
  constructor
  · rintro ⟨status, h⟩
    have hl : ¬ g.leafNodes.Holds n := fun hl => by
      have := (not_compact_of_leaf hl h).1
      omega
    obtain ⟨_, _, h', -, hh', -⟩ := remove_of_not_leaf release hl
    cases h.symm.trans h'
    refine ⟨fun hh => ?_, hl⟩
    have := count_remove hh
    rw [← hh'] at this
    omega
  · rintro ⟨hh, hl⟩
    have hsame : g.removeHead n = g := by
      unfold removeHead
      simp only [remove_of_not_holds hh]
    refine ⟨vxSuccess, ?_⟩
    unfold ownGraphRemoveNode
    rw [hsame, removeLeaf_of_not_holds hl, Option.map_some, removeNode_of_not_holds hn]

/-- **A node is removed cleanly when it is no leaf node.**  A node of the graph is taken out of the three arrays, which are
compact then, if they are compact before and the node is not in `leaf_nodes`, and only then.  For a node that is not in the
graph nothing changes if it is in neither of the two other arrays, and only then. -/
theorem removal_iff :
    (if g.nodes.Holds n then Removes release g n else Keeps release g n) ↔
      if g.nodes.Holds n then g.Compact ∧ ¬ g.leafNodes.Holds n else ¬ g.headNodes.Holds n ∧ ¬ g.leafNodes.Holds n := by
  by_cases hn : g.nodes.Holds n
  · rw [if_pos hn, if_pos hn]
    exact removes_iff
  · rw [if_neg hn, if_neg hn]
    exact keeps_iff hn

end GraphNodeLists

/-- The head nodes 1 and 2 with a leaf node after each. -/
def twoChains : GraphNodeLists Nat Unit where
  nodes := .ofList [1, 2, 3, 4] graphMaxNodes (by decide)
  headNodes := .ofList [1, 2] graphMaxHeadNodes (by decide)
  leafNodes := .ofList [3, 4] graphMaxLeafNodes (by decide)
  nodes_capacity := rfl
  headNodes_capacity := rfl
  leafNodes_capacity := rfl
  verified := true
  reverify := false
  state := .verified
  rest := ()

/-- The removal of leaf node 4 leaves it in the array and clears the entry of head node 2, with the arrays compact before. -/
theorem leaf_removal_clears_head :
    twoChains.Compact ∧ twoChains.nodes.Holds 4 ∧ ¬ twoChains.Removes (fun _ r => (vxSuccess, r)) 4 ∧
      (twoChains.ownGraphRemoveNode (fun _ r => (vxSuccess, r)) 4).map
        (fun r => (r.2.headNodes.count, r.2.headNodes.entry 1, r.2.leafNodes.count, r.2.leafNodes.entry 1)) =
          some (2, none, 1, some 4) := by
  refine ⟨⟨compact_ofList (by decide), compact_ofList (by decide), compact_ofList (by decide)⟩, by decide, ?_, by decide⟩
  rintro ⟨status, g', h, -, -, hleaves⟩
  exact (GraphNodeLists.not_compact_of_leaf (by decide) h).2 hleaves.1

end Tiovx
