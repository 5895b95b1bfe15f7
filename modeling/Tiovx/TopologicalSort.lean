import Tiovx.GraphState
/-!
# TopologicalSort — the nodes of a graph sorted in the context's work area (`vx_graph_sort.c`)

The stack and the array of sorted nodes belong to the context: what a sort of another graph left in them is there when the
next sort begins.  A sort counts for each node the in-nodes not yet sorted, and takes from the stack the nodes that have none
left; on the way it sets how deep each node lies.
-/
namespace Tiovx

/-- `TIVX_GRAPH_MAX_NODES`. -/
def graphMaxNodes : Nat := 128

/-- `tivx_graph_sort_context`. -/
structure SortContext where
  stack : Nat → Nat := fun _ => 0
  stackTop : Nat := 0
  stackMaxElems : Nat := 0
  sortedNodes : Nat → Nat := fun _ => 0

/-- `ownGraphSortStackReset`. -/
def ownGraphSortStackReset (x : SortContext) (maxElems : Nat) : SortContext :=
  { x with stackTop := 0, stackMaxElems := maxElems }

/-- `ownGraphSortStackPush`; a push that fails is only printed. -/
def ownGraphSortStackPush (x : SortContext) (n : Nat) : SortContext :=
  if x.stackTop < x.stackMaxElems then
    { x with stack := Function.update x.stack x.stackTop n, stackTop := x.stackTop + 1 }
  else x

/-- `ownGraphSortStackPop`. -/
def ownGraphSortStackPop (x : SortContext) : Option (Nat × SortContext) :=
  if 0 < x.stackTop ∧ x.stackTop < graphMaxNodes then
    some (x.stack (x.stackTop - 1), { x with stackTop := x.stackTop - 1 })
  else none

/-- The counter of a node is set, and the node is put on the stack where it has no in-node. -/
def countInNodes (y : SortContext × GraphState) (n : Nat) : SortContext × GraphState :=
  let c := (y.2.links.inNodes n).length
  (if c = 0 then ownGraphSortStackPush y.1 n else y.1, { y.2 with incounter := Function.update y.2.incounter n c })

/-- A node lies deeper than its in-node `m`. -/
def deepen (n : Nat) (s : GraphState) (m : Nat) : GraphState :=
  if s.nodeDepth n ≤ s.nodeDepth m then { s with nodeDepth := Function.update s.nodeDepth n (s.nodeDepth m + 1) } else s

/-- The 16-bit counter of a node is decremented, and the node is put on the stack where it comes to zero. -/
def countDown (y : SortContext × GraphState) (m : Nat) : SortContext × GraphState :=
  let c := if y.2.incounter m = 0 then 65535 else y.2.incounter m - 1
  (if c = 0 then ownGraphSortStackPush y.1 m else y.1, { y.2 with incounter := Function.update y.2.incounter m c })

/-- The loop that takes the nodes from the stack; `i` is how many there were.  The array has `graphMaxNodes` places. -/
def sortLoop : Nat → Nat → SortContext × GraphState → Nat × (SortContext × GraphState)
  | 0, i, y => (i, y)
  | k + 1, i, y =>
    match ownGraphSortStackPop y.1 with
    | none => (i, y)
    | some (n, x) =>
      let s := (y.2.links.inNodes n).foldl (deepen n) y.2
      sortLoop k (i + 1)
        ((s.links.outNodes n).foldl countDown ({ x with sortedNodes := Function.update x.sortedNodes i n }, s))

/-- `ownGraphTopologicalSort`: the context and the graph it leaves, and whether there is a cycle. -/
def ownGraphTopologicalSort (x : SortContext) (s : GraphState) : SortContext × GraphState × Bool :=
  if s.nodes.length < graphMaxNodes then
    let y := s.nodes.foldl countInNodes (ownGraphSortStackReset x s.nodes.length, s)
    let R := sortLoop graphMaxNodes 0 y
    if R.1 = s.nodes.length then
      (R.2.1, { R.2.2 with nodes := (List.range R.1).map R.2.1.sortedNodes }, false)
    else (R.2.1, R.2.2, true)
  else (x, s, false)

/-- Two sorts of one graph that have come equally far: the contexts agree on what is in use of them. -/
structure SortsAlike (i : Nat) (y y' : SortContext × GraphState) : Prop where
  stackTop : y.1.stackTop = y'.1.stackTop
  stackMaxElems : y.1.stackMaxElems = y'.1.stackMaxElems
  stack : ∀ j < y.1.stackTop, y.1.stack j = y'.1.stack j
  sortedNodes : ∀ j < i, y.1.sortedNodes j = y'.1.sortedNodes j
  graph : y.2 = y'.2

section SortsAlike

variable {i : Nat} {y y' : SortContext × GraphState}

theorem SortsAlike.setGraph (h : SortsAlike i y y') (s : GraphState) : SortsAlike i (y.1, s) (y'.1, s) :=
  { h with graph := rfl }

theorem SortsAlike.push (h : SortsAlike i y y') (n : Nat) :
    SortsAlike i (ownGraphSortStackPush y.1 n, y.2) (ownGraphSortStackPush y'.1 n, y'.2) := by
  unfold ownGraphSortStackPush
  rw [← h.stackTop, ← h.stackMaxElems]
  split
  · refine ⟨rfl, rfl, fun j hj => ?_, h.sortedNodes, h.graph⟩
    simp only [Function.update_apply]
    split
    · rfl
    · rename_i hne
      exact h.stack j (Nat.lt_of_le_of_ne (Nat.le_of_lt_succ hj) hne)
  · exact h

theorem SortsAlike.countInNodes (h : SortsAlike i y y') (n : Nat) :
    SortsAlike i (countInNodes y n) (countInNodes y' n) := by
  unfold Tiovx.countInNodes
  rw [← h.graph]
  simp only
  split
  · exact (h.push n).setGraph _
  · exact h.setGraph _

theorem SortsAlike.countDown (h : SortsAlike i y y') (m : Nat) : SortsAlike i (countDown y m) (countDown y' m) := by
  unfold Tiovx.countDown
  rw [← h.graph]
  simp only
  generalize (if y.2.incounter m = 0 then 65535 else y.2.incounter m - 1) = c
  split
  · exact (h.push m).setGraph _
  · exact h.setGraph _

theorem SortsAlike.pop (h : SortsAlike i y y') :
    (ownGraphSortStackPop y.1 = none ∧ ownGraphSortStackPop y'.1 = none) ∨
      ∃ n x x', ownGraphSortStackPop y.1 = some (n, x) ∧ ownGraphSortStackPop y'.1 = some (n, x') ∧
        SortsAlike i (x, y.2) (x', y'.2) := by
  unfold ownGraphSortStackPop
  rw [← h.stackTop]
  split
  · rename_i hc
    have hlt : y.1.stackTop - 1 < y.1.stackTop := Nat.sub_lt hc.1 Nat.one_pos
    rw [← h.stack _ hlt]
    exact .inr ⟨_, _, _, rfl, rfl, ⟨rfl, h.stackMaxElems, fun j hj => h.stack j (Nat.lt_trans hj hlt), h.sortedNodes,
      h.graph⟩⟩
  · exact .inl ⟨rfl, rfl⟩

theorem SortsAlike.place (h : SortsAlike i y y') (n : Nat) :
    SortsAlike (i + 1) ({ y.1 with sortedNodes := Function.update y.1.sortedNodes i n }, y.2)
      ({ y'.1 with sortedNodes := Function.update y'.1.sortedNodes i n }, y'.2) := by
  refine ⟨h.stackTop, h.stackMaxElems, h.stack, fun j hj => ?_, h.graph⟩
  simp only [Function.update_apply]
  split
  · rfl
  · rename_i hne
    exact h.sortedNodes j (Nat.lt_of_le_of_ne (Nat.le_of_lt_succ hj) hne)

theorem SortsAlike.loop (k : Nat) (h : SortsAlike i y y') :
    (sortLoop k i y).1 = (sortLoop k i y').1 ∧ SortsAlike (sortLoop k i y).1 (sortLoop k i y).2 (sortLoop k i y').2 := by
  induction k generalizing i y y' with
  | zero => exact ⟨rfl, h⟩
  | succ k ih =>
    unfold sortLoop
    rcases h.pop with ⟨hn, hn'⟩ | ⟨n, x, x', hp, hp', hx⟩
    · rw [hn, hn']
      exact ⟨rfl, h⟩
    · rw [hp, hp', ← h.graph]
      simp only
      refine ih (List.foldl_rel ?_ (fun m _ _ _ hc => hc.countDown m))
      exact (hx.place n).setGraph _

end SortsAlike

/-- **A sort does not depend on what an earlier one left in the context.** -/
theorem topologicalSort_shared (x x' : SortContext) (s : GraphState) :
    (ownGraphTopologicalSort x s).2 = (ownGraphTopologicalSort x' s).2 := by
  unfold ownGraphTopologicalSort
  split
  · have hstart : SortsAlike 0 (ownGraphSortStackReset x s.nodes.length, s) (ownGraphSortStackReset x' s.nodes.length, s) :=
      ⟨rfl, rfl, fun j hj => absurd hj (Nat.not_lt_zero j), fun j hj => absurd hj (Nat.not_lt_zero j), rfl⟩
    have hcount := List.foldl_rel (l := s.nodes) hstart (fun n _ _ _ hc => hc.countInNodes n)
    obtain ⟨hi, hloop⟩ := hcount.loop graphMaxNodes
    simp only
    rw [← hi, ← hloop.graph]
    split
    · have hnodes : (List.range (sortLoop graphMaxNodes 0 (s.nodes.foldl countInNodes
          (ownGraphSortStackReset x s.nodes.length, s))).1).map _ = _ :=
        List.map_congr_left (fun j hj => hloop.sortedNodes j (List.mem_range.1 hj))
      simp only [hnodes]
    · rfl
  · rfl

end Tiovx
