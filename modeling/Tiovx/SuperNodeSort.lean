import Tiovx.Lib.TopologicalOrder
import Tiovx.TopologicalSort
import Mathlib.Data.Set.Card
/-!
# SuperNodeSort — the sort of a graph that may have super nodes (`vx_graph_sort.c`, with `BUILD_BAM`)

A super node stands for several nodes of the graph.  A sort does not begin with super nodes: it puts all of them behind the
nodes it has sorted.  When edges lead to a super node the loop takes it like any other node, and it is put behind them once
more.  No sort resets the depths of the nodes: what an earlier one found stays where it is larger.
-/
namespace Tiovx

/-- The counter of a node is set, and the node is put on the stack where it has no in-node and is no super node. -/
def countInNodesBam (isSuper : Nat → Bool) (y : SortContext × GraphState) (n : Nat) : SortContext × GraphState :=
  let c := (y.2.links.inNodes n).length
  (if c = 0 ∧ isSuper n = false then ownGraphSortStackPush y.1 n else y.1,
    { y.2 with incounter := Function.update y.2.incounter n c })

/-- A super node is put behind the nodes there are so far: `none` where that is behind the array. -/
def addSuperNode (isSuper : Nat → Bool) (y : Nat × SortContext) (n : Nat) : Option (Nat × SortContext) :=
  if isSuper n then
    if y.1 < graphMaxNodes then some (y.1 + 1, { y.2 with sortedNodes := Function.update y.2.sortedNodes y.1 n }) else none
  else some y

/-- The end of a sort: the super nodes are added, and when these are as many nodes as the graph has they take their places. -/
def finishSort (isSuper : Nat → Bool) (nodes : List Nat) (R : Nat × (SortContext × GraphState)) :
    Option (SortContext × GraphState × Bool) :=
  (nodes.foldlM (addSuperNode isSuper) (R.1, R.2.1)).map (fun z =>
    if z.1 = nodes.length then (z.2, { R.2.2 with nodes := (List.range z.1).map z.2.sortedNodes }, false)
    else (z.2, R.2.2, true))

/-- `ownGraphTopologicalSort`, with super nodes. -/
def ownGraphTopologicalSortBam (isSuper : Nat → Bool) (x : SortContext) (s : GraphState) :
    Option (SortContext × GraphState × Bool) :=
  if s.nodes.length < graphMaxNodes then
    finishSort isSuper s.nodes (sortLoop graphMaxNodes 0
      (s.nodes.foldl (countInNodesBam isSuper) (ownGraphSortStackReset x s.nodes.length, s)))
  else some (x, s, false)

theorem foldlM_no_super (l : List Nat) (y : Nat × SortContext) : l.foldlM (addSuperNode (fun _ => false)) y = some y := by
  induction l with
  | nil => rfl
  | cons n l ih => exact ih

/-- **Without super nodes the sort is the one there is without them.** -/
theorem topologicalSortBam_no_super (x : SortContext) (s : GraphState) :
    ownGraphTopologicalSortBam (fun _ => false) x s = some (ownGraphTopologicalSort x s) := by
  have hcount : countInNodesBam (fun _ => false) = countInNodes := by
    funext y n
    simp [countInNodesBam, countInNodes]
  unfold ownGraphTopologicalSortBam ownGraphTopologicalSort finishSort
  rw [hcount]
  by_cases hfew : s.nodes.length < graphMaxNodes
  · rw [if_pos hfew, if_pos hfew]
    simp only [foldlM_no_super, Option.map_some]
  · rw [if_neg hfew, if_neg hfew]

/-- A graph as a sort may get it: fewer nodes than there is room for, and in-lists and out-lists that agree. -/
structure SortGraph where
  state : GraphState
  isSuper : Nat → Bool
  fewer : state.nodes.length < graphMaxNodes
  nodup : state.nodes.Nodup
  in_mem : ∀ n ∈ state.nodes, ∀ m ∈ state.links.inNodes n, m ∈ state.nodes
  out_mem : ∀ n ∈ state.nodes, ∀ m ∈ state.links.outNodes n, m ∈ state.nodes
  count_eq : ∀ m ∈ state.nodes, ∀ n ∈ state.nodes, (state.links.outNodes m).count n = (state.links.inNodes n).count m

namespace SortContext

/-- The nodes on the stack, the top one last. -/
def stacked (x : SortContext) : List Nat := (List.range x.stackTop).map x.stack

/-- The first `i` sorted nodes. -/
def sorted (x : SortContext) (i : Nat) : List Nat := (List.range i).map x.sortedNodes

theorem stacked_length (x : SortContext) : x.stacked.length = x.stackTop := by
  rw [stacked, List.length_map, List.length_range]

theorem sorted_length (x : SortContext) (i : Nat) : (x.sorted i).length = i := by
  rw [sorted, List.length_map, List.length_range]

/-- The first entries of an array with the next one written. -/
theorem map_range_update (f : Nat → Nat) (i n : Nat) :
    (List.range (i + 1)).map (Function.update f i n) = (List.range i).map f ++ [n] := by
  rw [List.range_succ, List.map_append, List.map_singleton, Function.update_self]
  congr 1
  apply List.map_congr_left
  intro j hj
  exact Function.update_of_ne (Nat.ne_of_lt (List.mem_range.1 hj)) n f

theorem stacked_push {x : SortContext} (h : x.stackTop < x.stackMaxElems) (n : Nat) :
    (ownGraphSortStackPush x n).stacked = x.stacked ++ [n] := by
  unfold ownGraphSortStackPush
  rw [if_pos h]
  exact map_range_update x.stack x.stackTop n

theorem push_stackMaxElems (x : SortContext) (n : Nat) : (ownGraphSortStackPush x n).stackMaxElems = x.stackMaxElems := by
  unfold ownGraphSortStackPush
  split <;> rfl

theorem sorted_push (x : SortContext) (n i : Nat) : (ownGraphSortStackPush x n).sorted i = x.sorted i := by
  unfold ownGraphSortStackPush
  split <;> rfl

/-- What a pop does to a stack that is not full. -/
theorem pop_spec {x : SortContext} (h : x.stackTop < graphMaxNodes) :
    (ownGraphSortStackPop x = none ∧ x.stacked = []) ∨
      ∃ n x', ownGraphSortStackPop x = some (n, x') ∧ x.stacked = x'.stacked ++ [n] ∧ x'.sortedNodes = x.sortedNodes ∧
        x'.stackMaxElems = x.stackMaxElems := by
  unfold ownGraphSortStackPop
  by_cases hpos : 0 < x.stackTop
  · rw [if_pos ⟨hpos, h⟩]
    refine .inr ⟨_, _, rfl, ?_, rfl, rfl⟩
    have htop : x.stackTop = x.stackTop - 1 + 1 := (Nat.succ_pred_eq_of_pos hpos).symm
    show (List.range x.stackTop).map x.stack = (List.range (x.stackTop - 1)).map x.stack ++ [x.stack (x.stackTop - 1)]
    conv_lhs => rw [htop, List.range_succ, List.map_append, List.map_singleton]
  · rw [if_neg (fun hc => hpos hc.1)]
    refine .inl ⟨rfl, ?_⟩
    rw [stacked, Nat.eq_zero_of_not_pos hpos]
    rfl

end SortContext

namespace SortGraph

/-- The nodes and edges of the graph. -/
def lists (G : SortGraph) : EdgeLists Nat where
  nodes := G.state.nodes
  inNodes := G.state.links.inNodes
  outNodes := G.state.links.outNodes
  nodup := G.nodup
  in_mem := G.in_mem
  out_mem := G.out_mem
  count_eq := G.count_eq

/-- The nodes a sort may begin with. -/
def Plain (G : SortGraph) (n : Nat) : Prop := G.isSuper n = false

section Counting

/-- The counters of the nodes in `l` are set. -/
structure Counting (G : SortGraph) (l : List Nat) (y : SortContext × GraphState) : Prop where
  stackMax : y.1.stackMaxElems = G.state.nodes.length
  stacked : y.1.stacked = l.filter (fun n => (G.lists.inNodes n).length = 0 ∧ G.isSuper n = false)
  incounter : ∀ n ∈ l, y.2.incounter n = (G.lists.inNodes n).length
  nodes : y.2.nodes = G.state.nodes
  links : y.2.links = G.state.links
  nodeDepth : y.2.nodeDepth = G.state.nodeDepth

variable {G : SortGraph} {l : List Nat} {y : SortContext × GraphState} {n : Nat}

theorem Counting.next (h : Counting G l y) (hlt : l.length < G.state.nodes.length) :
    Counting G (l ++ [n]) (countInNodesBam G.isSuper y n) := by
  have hin : y.2.links.inNodes n = G.lists.inNodes n := by
    rw [h.links]
    rfl
  have hroom : y.1.stackTop < y.1.stackMaxElems := by
    rw [← y.1.stacked_length, h.stacked, h.stackMax]
    exact Nat.lt_of_le_of_lt (List.length_filter_le _ l) hlt
  have hcount : ∀ m ∈ l ++ [n], Function.update y.2.incounter n (G.lists.inNodes n).length m = (G.lists.inNodes m).length := by
    intro m hm
    by_cases hmn : m = n
    · rw [hmn, Function.update_self]
    · rw [Function.update_of_ne hmn]
      refine h.incounter m ?_
      simpa [hmn] using hm
  unfold countInNodesBam
  simp only [hin]
  refine ⟨?_, ?_, hcount, h.nodes, h.links, h.nodeDepth⟩
  · show SortContext.stackMaxElems (if _ then _ else _) = _
    split
    · rw [SortContext.push_stackMaxElems]
      exact h.stackMax
    · exact h.stackMax
  · show SortContext.stacked (if _ then _ else _) = _
    rw [List.filter_append, ← h.stacked]
    split
    · rename_i hc
      rw [SortContext.stacked_push hroom, List.filter_singleton, decide_eq_true hc, cond_true]
    · rename_i hc
      rw [List.filter_singleton, decide_eq_false hc, cond_false, List.append_nil]

theorem Counting.all (h : Counting G l y) (r : List Nat) (hr : G.state.nodes = l ++ r) :
    Counting G G.state.nodes (r.foldl (countInNodesBam G.isSuper) y) := by
  induction r generalizing l y with
  | nil =>
    rw [List.append_nil] at hr
    exact hr ▸ h
  | cons n r ih =>
    have hlt : l.length < G.state.nodes.length := by
      rw [hr, List.length_append, List.length_cons]
      omega
    refine ih (h.next hlt) ?_
    rw [hr, List.append_assoc]
    rfl

end Counting

section Loop

/-- The depth of `n` is raised above what the nodes in `l` lie at, and nothing else changes. -/
structure Deepened (n : Nat) (l : List Nat) (s s' : GraphState) : Prop where
  nodes : s'.nodes = s.nodes
  links : s'.links = s.links
  incounter : s'.incounter = s.incounter
  others : ∀ v, v ≠ n → s'.nodeDepth v = s.nodeDepth v
  ge : s.nodeDepth n ≤ s'.nodeDepth n
  gt : ∀ u ∈ l, s.nodeDepth u < s'.nodeDepth n
  reached : s'.nodeDepth n = s.nodeDepth n ∨ ∃ u ∈ l, s'.nodeDepth n = s.nodeDepth u + 1

theorem deepened {n : Nat} {l : List Nat} (hn : n ∉ l) (s : GraphState) : Deepened n l s (l.foldl (deepen n) s) := by
  induction l generalizing s with
  | nil =>
    exact ⟨rfl, rfl, rfl, fun _ _ => rfl, Nat.le_refl _, fun u hu => absurd hu List.not_mem_nil, .inl rfl⟩
  | cons m l ih =>
    have hnl : n ∉ l := fun h => hn (List.mem_cons_of_mem m h)
    have h := ih hnl (deepen n s m)
    have hother : ∀ v, v ≠ n → (deepen n s m).nodeDepth v = s.nodeDepth v := by
      intro v hv
      unfold deepen
      split
      · exact Function.update_of_ne hv _ _
      · rfl
    have hn' : (deepen n s m).nodeDepth n = max (s.nodeDepth n) (s.nodeDepth m + 1) := by
      unfold deepen
      split
      · rename_i hle
        show Function.update s.nodeDepth n (s.nodeDepth m + 1) n = _
        rw [Function.update_self]
        omega
      · omega
    have hsame : (deepen n s m).nodes = s.nodes ∧ (deepen n s m).links = s.links ∧
        (deepen n s m).incounter = s.incounter := by
      unfold deepen
      split <;> exact ⟨rfl, rfl, rfl⟩
    have hne : ∀ u ∈ l, u ≠ n := fun u hu heq => hnl (heq ▸ hu)
    rw [List.foldl_cons]
    refine ⟨h.nodes.trans hsame.1, h.links.trans hsame.2.1, h.incounter.trans hsame.2.2, fun v hv => ?_, ?_, fun u hu => ?_, ?_⟩
    · exact (h.others v hv).trans (hother v hv)
    · exact Nat.le_trans (hn' ▸ Nat.le_max_left _ _) h.ge
    · rcases List.mem_cons.1 hu with rfl | hul
      · exact Nat.lt_of_lt_of_le (Nat.lt_of_succ_le (hn' ▸ Nat.le_max_right _ _)) h.ge
      · exact hother u (hne u hul) ▸ h.gt u hul
    · rcases h.reached with heq | ⟨u, hu, heq⟩
      · rw [heq, hn']
        rcases Nat.le_total (s.nodeDepth m + 1) (s.nodeDepth n) with hle | hle
        · exact .inl (Nat.max_eq_left hle)
        · exact .inr ⟨m, List.mem_cons_self, Nat.max_eq_right hle⟩
      · exact .inr ⟨u, List.mem_cons_of_mem m hu, heq.trans (by rw [hother u (hne u hu)])⟩

/-- `i` nodes are sorted, and the edges from the last one to the nodes in `rest` still have to be counted. -/
structure Sorting (G : SortGraph) (rest : List Nat) (i : Nat) (y : SortContext × GraphState) : Prop where
  stackMax : y.1.stackMaxElems = G.state.nodes.length
  nodes : y.2.nodes = G.state.nodes
  links : y.2.links = G.state.links
  work : G.lists.WorkList G.Plain (y.1.sorted i) y.1.stacked rest y.2.incounter
  depth : ∀ v ∈ y.1.sorted i, G.lists.DepthFrom G.state.nodeDepth y.2.nodeDepth v
  other : ∀ v, v ∉ y.1.sorted i → y.2.nodeDepth v = G.state.nodeDepth v

variable {G : SortGraph} {i : Nat} {y : SortContext × GraphState} {m n : Nat} {rest : List Nat}

theorem Counting.sorting (h : Counting G G.state.nodes y) : Sorting G [] 0 y := by
  have hmem : ∀ m, m ∈ y.1.stacked ↔ m ∈ G.state.nodes ∧ G.lists.inNodes m = [] ∧ G.isSuper m = false := by
    intro m
    rw [h.stacked, List.mem_filter, decide_eq_true_iff, List.length_eq_zero_iff]
  refine ⟨h.stackMax, h.nodes, h.links, ?_, fun v hv => absurd hv List.not_mem_nil, fun v _ => congrFun h.nodeDepth v⟩
  refine ⟨?_, fun m hm => ?_, fun m hm hnil hs => ?_, fun m hm hne hz => ?_, fun m hm => ?_, fun m hm => ?_,
    fun m hm => absurd hm List.not_mem_nil, fun m hm => absurd hm List.not_mem_nil⟩
  · show ([] ++ y.1.stacked).Nodup
    rw [List.nil_append, h.stacked]
    exact G.nodup.filter _
  · obtain ⟨hnode, hnil, hs⟩ := (hmem m).1 hm
    exact .source hnode hnil hs
  · exact (hmem m).2 ⟨hm, hnil, hs⟩
  · rw [h.incounter m hm] at hz
    exact absurd (List.length_eq_zero_iff.1 hz) hne
  · obtain ⟨hnode, hnil, _⟩ := (hmem m).1 hm
    rw [h.incounter m hnode, hnil]
    rfl
  · rw [h.incounter m hm]
    show _ = (G.lists.inNodes m).countP (fun u => decide (u ∉ [])) + 0
    simp

/-- An edge is counted. -/
theorem Sorting.countDown (h : Sorting G (m :: rest) i y) : Sorting G rest i (countDown y m) := by
  have hpos := h.work.left_pos
  have hnext := h.work.countDown
  unfold Tiovx.countDown
  simp only [if_neg (Nat.ne_of_gt hpos)]
  by_cases hz : y.2.incounter m - 1 = 0
  · rw [if_pos hz] at hnext ⊢
    have hroom : y.1.stackTop < y.1.stackMaxElems := by
      have hlen := hnext.length_le
      rw [List.length_append, SortContext.stacked_length, List.length_singleton] at hlen
      rw [h.stackMax]
      have hnodes : G.lists.nodes.length = G.state.nodes.length := rfl
      omega
    refine ⟨(SortContext.push_stackMaxElems _ _).trans h.stackMax, h.nodes, h.links, ?_, ?_, ?_⟩
    · show G.lists.WorkList G.Plain ((ownGraphSortStackPush y.1 m).sorted i) (ownGraphSortStackPush y.1 m).stacked rest _
      rw [SortContext.sorted_push, SortContext.stacked_push hroom]
      exact hnext
    · rw [SortContext.sorted_push]
      exact h.depth
    · rw [SortContext.sorted_push]
      exact h.other
  · rw [if_neg hz] at hnext ⊢
    exact ⟨h.stackMax, h.nodes, h.links, hnext, h.depth, h.other⟩

theorem Sorting.countAll (h : Sorting G rest i y) : Sorting G [] i (rest.foldl Tiovx.countDown y) := by
  induction rest generalizing y with
  | nil => exact h
  | cons m rest ih => exact ih h.countDown

/-- A node is taken from the stack: its depth is set, and the edges from it still have to be counted. -/
theorem Sorting.take {x : SortContext} (h : Sorting G [] i y) (hstack : y.1.stacked = x.stacked ++ [n])
    (hsorted : x.sortedNodes = y.1.sortedNodes) (hmax : x.stackMaxElems = y.1.stackMaxElems) :
    Sorting G (G.state.links.outNodes n) (i + 1) ({ x with sortedNodes := Function.update x.sortedNodes i n },
      (G.state.links.inNodes n).foldl (deepen n) y.2) := by
  have hwork := h.work
  rw [hstack] at hwork
  have hn : n ∈ y.1.sorted i ++ (x.stacked ++ [n]) := by simp
  have hin : ∀ u ∈ G.state.links.inNodes n, u ∈ y.1.sorted i := fun u hu => hwork.in_done hn hu
  have hnot : n ∉ y.1.sorted i := by
    intro hd
    exact List.disjoint_of_nodup_append hwork.nodup hd (by simp)
  have hdeep := deepened (fun hu => hnot (hin n hu)) y.2
  have hnext : ({ x with sortedNodes := Function.update x.sortedNodes i n } : SortContext).sorted (i + 1) =
      y.1.sorted i ++ [n] := by
    rw [SortContext.sorted, SortContext.map_range_update, hsorted]
    rfl
  have hothers : ∀ v ∈ y.1.sorted i, ((G.state.links.inNodes n).foldl (deepen n) y.2).nodeDepth v = y.2.nodeDepth v :=
    fun v hv => hdeep.others v (fun heq => hnot (heq ▸ hv))
  refine ⟨hmax.trans h.stackMax, hdeep.nodes.trans h.nodes, hdeep.links.trans h.links, ?_, ?_, ?_⟩
  · rw [hnext, hdeep.incounter]
    exact hwork.take
  · rw [hnext]
    intro v hv
    rcases List.mem_append.1 hv with hd | hlast
    · have hdv := h.depth v hd
      have hinv : ∀ u ∈ G.lists.inNodes v, u ∈ y.1.sorted i :=
        fun u hu => hwork.in_done (List.mem_append_left _ hd) hu
      refine ⟨(hothers v hd) ▸ hdv.ge, fun u hu => ?_, ?_⟩
      · rw [hothers v hd, hothers u (hinv u hu)]
        exact hdv.gt u hu
      · rw [hothers v hd]
        rcases hdv.reached with heq | ⟨u, hu, heq⟩
        · exact .inl heq
        · exact .inr ⟨u, hu, (hothers u (hinv u hu)).symm ▸ heq⟩
    · obtain rfl := List.mem_singleton.1 hlast
      have hv0 := h.other v hnot
      refine ⟨hv0 ▸ hdeep.ge, fun u hu => ?_, ?_⟩
      · exact hothers u (hin u hu) ▸ hdeep.gt u hu
      · rcases hdeep.reached with heq | ⟨u, hu, heq⟩
        · exact .inl (heq.trans hv0)
        · exact .inr ⟨u, hu, (hothers u (hin u hu)).symm ▸ heq⟩
  · rw [hnext]
    intro v hv
    have hvn : v ≠ n := fun heq => hv (heq ▸ by simp)
    exact (hdeep.others v hvn).trans (h.other v (fun hd => hv (List.mem_append_left _ hd)))

/-- **The loop ends with an empty stack.** -/
theorem Sorting.loop (k : Nat) (h : Sorting G [] i y) (hk : G.state.nodes.length < i + k) :
    Sorting G [] (sortLoop k i y).1 (sortLoop k i y).2 ∧ (sortLoop k i y).2.1.stacked = [] := by
  have hlen : i + y.1.stackTop ≤ G.state.nodes.length := by
    have hle := h.work.length_le
    rw [SortContext.sorted_length, SortContext.stacked_length] at hle
    exact hle
  induction k generalizing i y with
  | zero => omega
  | succ k ih =>
    unfold sortLoop
    rcases SortContext.pop_spec (Nat.lt_of_le_of_lt (Nat.le_trans (Nat.le_add_left _ i) hlen) G.fewer) with
      ⟨hp, hnil⟩ | ⟨n, x, hp, hstack, hsorted, hmax⟩
    · rw [hp]
      exact ⟨h, hnil⟩
    · rw [hp]
      simp only
      have htake := h.take hstack hsorted hmax
      have hlinks := htake.links
      rw [h.links]
      have hnext := htake.countAll
      rw [show ((G.state.links.inNodes n).foldl (deepen n) y.2).links = G.state.links from hlinks]
      refine ih hnext (by omega) ?_
      have hle := hnext.work.length_le
      rw [SortContext.sorted_length, SortContext.stacked_length] at hle
      exact hle

end Loop

section SuperNodes

variable (isSuper : Nat → Bool)

/-- The super nodes in `l` are put behind `i` sorted nodes, where there is room for them. -/
theorem addSuperNodes (l : List Nat) (i : Nat) (x : SortContext) (h : i + (l.filter isSuper).length ≤ graphMaxNodes) :
    ∃ x', l.foldlM (addSuperNode isSuper) (i, x) = some (i + (l.filter isSuper).length, x') ∧
      x'.sorted (i + (l.filter isSuper).length) = x.sorted i ++ l.filter isSuper := by
  induction l generalizing i x with
  | nil => exact ⟨x, rfl, (List.append_nil _).symm⟩
  | cons n l ih =>
    rw [List.foldlM_cons, addSuperNode]
    by_cases hs : isSuper n = true
    · rw [List.filter_cons_of_pos hs, List.length_cons] at h
      have hroom : i < graphMaxNodes := by omega
      obtain ⟨x', hx', hsorted⟩ := ih (i + 1) { x with sortedNodes := Function.update x.sortedNodes i n } (by omega)
      have hlen : i + (n :: l.filter isSuper).length = i + 1 + (l.filter isSuper).length := by
        rw [List.length_cons]
        omega
      rw [if_pos hs, if_pos hroom, List.filter_cons_of_pos hs, hlen]
      refine ⟨x', hx', hsorted.trans ?_⟩
      rw [SortContext.sorted, SortContext.map_range_update, List.append_assoc]
      rfl
    · rw [List.filter_cons_of_neg hs] at h ⊢
      rw [if_neg hs]
      exact ih i x h

/-- Where there is no room for them the last one is written behind the array. -/
theorem addSuperNodes_full (l : List Nat) (i : Nat) (x : SortContext) (hi : i ≤ graphMaxNodes)
    (h : graphMaxNodes < i + (l.filter isSuper).length) : l.foldlM (addSuperNode isSuper) (i, x) = none := by
  induction l generalizing i x with
  | nil => exact absurd h (Nat.not_lt.2 hi)
  | cons n l ih =>
    rw [List.foldlM_cons, addSuperNode]
    by_cases hs : isSuper n = true
    · rw [List.filter_cons_of_pos hs, List.length_cons] at h
      rw [if_pos hs]
      by_cases hroom : i < graphMaxNodes
      · rw [if_pos hroom]
        exact ih (i + 1) _ hroom (by omega)
      · rw [if_neg hroom]
        rfl
    · rw [List.filter_cons_of_neg hs] at h
      rw [if_neg hs]
      exact ih i x hi h

end SuperNodes

/-- The super nodes of the graph, in the order of its nodes. -/
def superNodes (G : SortGraph) : List Nat := G.state.nodes.filter G.isSuper

/-- What a sort of `G` leaves: `done` are the nodes the loop took, in this order, and `d` are the depths. -/
structure SortResult (G : SortGraph) (x : SortContext) (done : List Nat) (d : Nat → Nat) : Prop where
  nodup : done.Nodup
  mem_iff : ∀ v, v ∈ done ↔ G.lists.Free G.Plain v
  earlier : ∀ v ∈ done, ∀ u ∈ G.lists.inNodes v, [u, v].Sublist done
  depth : ∀ v, G.lists.Free G.Plain v → G.lists.DepthFrom G.state.nodeDepth d v
  other : ∀ v, ¬ G.lists.Free G.Plain v → d v = G.state.nodeDepth v
  outside : graphMaxNodes < done.length + G.superNodes.length → ownGraphTopologicalSortBam G.isSuper x G.state = none
  sorted : done.length + G.superNodes.length = G.state.nodes.length → ∃ x' s',
    ownGraphTopologicalSortBam G.isSuper x G.state = some (x', s', false) ∧ s'.nodes = done ++ G.superNodes ∧ s'.nodeDepth = d
  cycle : done.length + G.superNodes.length ≤ graphMaxNodes →
    done.length + G.superNodes.length ≠ G.state.nodes.length → ∃ x' s',
    ownGraphTopologicalSortBam G.isSuper x G.state = some (x', s', true) ∧ s'.nodes = G.state.nodes

theorem sort_result (G : SortGraph) (x : SortContext) : ∃ done d, SortResult G x done d := by
  have hstart : Counting G [] (ownGraphSortStackReset x G.state.nodes.length, G.state) :=
    ⟨rfl, rfl, fun n hn => absurd hn List.not_mem_nil, rfl, rfl, rfl⟩
  obtain ⟨hloop, hnil⟩ := (hstart.all G.state.nodes rfl).sorting.loop graphMaxNodes (by have := G.fewer; omega)
  have hbam : ownGraphTopologicalSortBam G.isSuper x G.state = finishSort G.isSuper G.state.nodes
      (sortLoop graphMaxNodes 0 (G.state.nodes.foldl (countInNodesBam G.isSuper)
        (ownGraphSortStackReset x G.state.nodes.length, G.state))) := if_pos G.fewer
  generalize sortLoop graphMaxNodes 0 (G.state.nodes.foldl (countInNodesBam G.isSuper)
    (ownGraphSortStackReset x G.state.nodes.length, G.state)) = R at hloop hnil hbam
  have hwork := hloop.work
  rw [hnil] at hwork
  have hlen : (R.2.1.sorted R.1).length = R.1 := SortContext.sorted_length _ _
  have hle : R.1 ≤ graphMaxNodes := by
    have hle := hwork.length_le
    rw [hlen] at hle
    exact Nat.le_trans (Nat.le_trans (Nat.le_add_right _ _) hle) (Nat.le_of_lt G.fewer)
  have hmem := fun v => hwork.mem_done_iff (m := v)
  refine ⟨R.2.1.sorted R.1, R.2.2.nodeDepth, ?_, hmem, hwork.earlier, fun v hv => hloop.depth v ((hmem v).2 hv),
    fun v hv => hloop.other v (fun hd => hv ((hmem v).1 hd)), fun hout => ?_, fun hall => ?_, fun hroom hne => ?_⟩
  · exact (List.append_nil (R.2.1.sorted R.1)) ▸ hwork.nodup
  · rw [hlen] at hout
    rw [hbam, finishSort, addSuperNodes_full _ _ _ _ hle hout]
    rfl
  · rw [hlen] at hall
    obtain ⟨x', hx', hsorted⟩ := addSuperNodes G.isSuper G.state.nodes R.1 R.2.1
      (Nat.le_trans (Nat.le_of_eq hall) (Nat.le_of_lt G.fewer))
    rw [hbam, finishSort, hx', Option.map_some]
    refine ⟨x', { R.2.2 with nodes := x'.sorted (R.1 + G.superNodes.length) }, ?_, hsorted, rfl⟩
    exact congrArg some (if_pos hall)
  · rw [hlen] at hroom hne
    obtain ⟨x', hx', _⟩ := addSuperNodes G.isSuper G.state.nodes R.1 R.2.1 hroom
    rw [hbam, finishSort, hx', Option.map_some]
    exact ⟨x', R.2.2, congrArg some (if_neg hne), hloop.nodes⟩

end SortGraph

end Tiovx
