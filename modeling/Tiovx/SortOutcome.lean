import Tiovx.SuperNodeSort
/-!
# SortOutcome — when a sort finds the order, the depths and the cycles of a graph

A sort is right about a graph without cycles when its super nodes can stand at the end, in the order they have, and no depth
is too large before.  It is right about a graph with a cycle when the nodes that it takes and the super nodes together are
not as many as the nodes of the graph.
-/
namespace Tiovx

namespace SortGraph

/-- The nodes of `s` are those of `G` in an order in which every edge goes forward, each at the depth it has. -/
structure InOrder (G : SortGraph) (s : GraphState) : Prop where
  perm : s.nodes.Perm G.state.nodes
  forward : ∀ u v, G.lists.Edge u v → [u, v].Sublist s.nodes
  depth : ∀ v ∈ G.state.nodes, G.lists.IsDepth v (s.nodeDepth v)

/-- A sort of `G` in the context `x` reports a cycle when there is one and leaves the nodes alone, and orders them when there
is none. -/
def Sorts (G : SortGraph) (x : SortContext) : Prop :=
  ∃ x' s' hasCycle, ownGraphTopologicalSortBam G.isSuper x G.state = some (x', s', hasCycle) ∧
    (hasCycle = true ↔ G.lists.HasCycle) ∧ (¬ G.lists.HasCycle → InOrder G s') ∧
    (G.lists.HasCycle → s'.nodes = G.state.nodes)

/-- The super nodes can stand behind all others in the order they have, and no depth is too large. -/
structure SuperNodesLast (G : SortGraph) : Prop where
  edge : ∀ u v, G.lists.Edge u v → G.isSuper u = true → G.isSuper v = true ∧ [u, v].Sublist G.state.nodes
  in_super : ∀ v ∈ G.state.nodes, G.isSuper v = true → G.lists.inNodes v ≠ [] → ∃ u ∈ G.lists.inNodes v, G.isSuper u = true
  depth : ∀ v ∈ G.state.nodes, G.isSuper v = false → G.lists.DepthFits G.state.nodeDepth v
  super_depth : ∀ v ∈ G.state.nodes, G.isSuper v = true → G.lists.IsDepth v (G.state.nodeDepth v)

/-- The nodes that neither a cycle leads to nor a super node without in-nodes. -/
def unblocked (G : SortGraph) : Set Nat := {v | v ∈ G.state.nodes ∧ ¬ G.lists.Blocked G.Plain v}

/-- These and the super nodes together are not as many as the nodes, and not more than there is room for. -/
structure CycleSeen (G : SortGraph) : Prop where
  few : G.unblocked.ncard + G.superNodes.length ≤ graphMaxNodes
  ne : G.unblocked.ncard + G.superNodes.length ≠ G.state.nodes.length

/-- The graphs that a sort is right about. -/
def SortFits (G : SortGraph) : Prop := (¬ G.lists.HasCycle → SuperNodesLast G) ∧ (G.lists.HasCycle → CycleSeen G)

variable {G : SortGraph} {x : SortContext} {done : List Nat} {d : Nat → Nat}

theorem not_plain {v : Nat} : ¬ G.Plain v ↔ G.isSuper v = true := by
  unfold Plain
  rw [Bool.not_eq_false]

theorem mem_superNodes {v : Nat} : v ∈ G.superNodes ↔ v ∈ G.state.nodes ∧ G.isSuper v = true := List.mem_filter

namespace SortResult

theorem ncard_eq (h : SortResult G x done d) : G.unblocked.ncard = done.length := by
  have hset : G.unblocked = (done.toFinset : Set Nat) := by
    ext v
    rw [Finset.mem_coe, List.mem_toFinset, h.mem_iff]
    constructor
    · rintro ⟨hv, hb⟩
      exact (EdgeLists.free_iff (G := G.lists) hv).2 hb
    · intro hf
      exact ⟨hf.mem, hf.not_blocked⟩
  rw [hset, Set.ncard_coe_finset, List.toFinset_card_of_nodup h.nodup]

/-- **In a graph with a cycle the sort is right just where the nodes are not miscounted.** -/
theorem sorts_cycle (h : SortResult G x done d) (hc : G.lists.HasCycle) : Sorts G x ↔ CycleSeen G := by
  have hcard := h.ncard_eq
  constructor
  · rintro ⟨x', s', hasCycle, hs, hiff, _, _⟩
    refine ⟨?_, fun heq => ?_⟩
    · by_contra hout
      rw [hcard, Nat.not_le] at hout
      rw [h.outside hout] at hs
      exact absurd hs (by simp)
    · rw [hcard] at heq
      obtain ⟨_, _, hf, _⟩ := h.sorted heq
      rw [hf] at hs
      have hfalse : hasCycle = false := by
        simp only [Option.some.injEq, Prod.mk.injEq] at hs
        exact hs.2.2.symm
      rw [hfalse] at hiff
      exact absurd (hiff.2 hc) Bool.false_ne_true
  · rintro ⟨hfew, hne⟩
    rw [hcard] at hfew hne
    obtain ⟨x', s', hs, hnodes⟩ := h.cycle hfew hne
    exact ⟨x', s', true, hs, ⟨fun _ => hc, fun _ => rfl⟩, fun hn => absurd hc hn, fun _ => hnodes⟩

/-- The nodes taken and the super nodes are the nodes of the graph just where it is the plain nodes that are taken. -/
theorem perm_iff (h : SortResult G x done d) :
    (done ++ G.superNodes).Perm G.state.nodes ↔ ∀ v ∈ G.lists.nodes, G.lists.Free G.Plain v ↔ G.Plain v := by
  constructor
  · intro hp v hv
    have hdisj := List.disjoint_of_nodup_append (hp.nodup_iff.2 G.nodup)
    constructor
    · intro hf
      by_contra hs
      exact hdisj ((h.mem_iff v).2 hf) (mem_superNodes.2 ⟨hv, not_plain.1 hs⟩)
    · intro hs
      rcases List.mem_append.1 (hp.mem_iff.2 hv) with hd | hsup
      · exact (h.mem_iff v).1 hd
      · exact absurd hs (not_plain.2 (mem_superNodes.1 hsup).2)
  · intro hfree
    refine (List.perm_ext_iff_of_nodup ?_ G.nodup).2 (fun v => ?_)
    · refine List.nodup_append.2 ⟨h.nodup, G.nodup.filter _, fun a ha b hb heq => ?_⟩
      have hf := (h.mem_iff a).1 ha
      exact not_plain.2 (heq ▸ (mem_superNodes.1 hb).2) ((hfree a hf.mem).1 hf)
    · rw [List.mem_append, h.mem_iff, mem_superNodes]
      constructor
      · rintro (hf | ⟨hv, _⟩)
        · exact hf.mem
        · exact hv
      · intro hv
        by_cases hs : G.Plain v
        · exact .inl ((hfree v hv).2 hs)
        · exact .inr ⟨hv, not_plain.1 hs⟩

/-- Every edge goes forward just where the edges between super nodes do so before. -/
theorem forward_iff (h : SortResult G x done d) (hfree : ∀ v ∈ G.lists.nodes, G.lists.Free G.Plain v ↔ G.Plain v) :
    (∀ u v, G.lists.Edge u v → [u, v].Sublist (done ++ G.superNodes)) ↔
      ∀ u v, G.lists.Edge u v → G.isSuper u = true → G.isSuper v = true → [u, v].Sublist G.state.nodes := by
  have hdone : ∀ v, G.isSuper v = true → v ∉ done := by
    intro v hs hd
    have hf := (h.mem_iff v).1 hd
    exact not_plain.2 hs ((hfree v hf.mem).1 hf)
  constructor
  · intro hall u v huv hu hv
    obtain ⟨a, b, hab, ha, hb⟩ := List.sublist_append_iff.1 (hall u v huv)
    have hnil : a = [] := by
      refine List.eq_nil_iff_forall_not_mem.2 (fun w hw => ?_)
      have hwuv : w ∈ [u, v] := hab ▸ List.mem_append_left b hw
      have hws : G.isSuper w = true := by
        rcases List.mem_cons.1 hwuv with rfl | hwv
        · exact hu
        · exact List.mem_singleton.1 hwv ▸ hv
      exact hdone w hws (ha.subset hw)
    rw [hnil, List.nil_append] at hab
    exact hab ▸ hb.trans List.filter_sublist
  · intro hsup u v huv
    by_cases hv : G.isSuper v = true
    · by_cases hu : G.isSuper u = true
      · have hfilter := (hsup u v huv hu hv).filter G.isSuper
        rw [List.filter_cons_of_pos hu, List.filter_cons_of_pos hv, List.filter_nil] at hfilter
        exact hfilter.trans (List.sublist_append_right done _)
      · have hud : u ∈ done :=
          (h.mem_iff u).2 ((hfree u (EdgeLists.mem_of_edge huv)).2 (Bool.eq_false_of_not_eq_true hu))
        exact (List.singleton_sublist.2 hud).append (List.singleton_sublist.2 (mem_superNodes.2 ⟨huv.1, hv⟩))
    · have hvd : v ∈ done := (h.mem_iff v).2 ((hfree v huv.1).2 (Bool.eq_false_of_not_eq_true hv))
      exact (h.earlier v hvd u huv.2).trans (List.sublist_append_left done _)

/-- All depths are right just where those of the super nodes are right before and the others are not too large. -/
theorem depth_iff (h : SortResult G x done d) (hfree : ∀ v ∈ G.lists.nodes, G.lists.Free G.Plain v ↔ G.Plain v) :
    (∀ v ∈ G.state.nodes, G.lists.IsDepth v (d v)) ↔
      (∀ v ∈ G.state.nodes, G.isSuper v = false → G.lists.DepthFits G.state.nodeDepth v) ∧
        ∀ v ∈ G.state.nodes, G.isSuper v = true → G.lists.IsDepth v (G.state.nodeDepth v) := by
  have hother : ∀ v ∈ G.state.nodes, G.isSuper v = true → d v = G.state.nodeDepth v := by
    intro v hv hs
    exact h.other v (fun hf => not_plain.2 hs ((hfree v hv).1 hf))
  have hdepth := EdgeLists.isDepth_all_iff h.depth
  constructor
  · intro hall
    have hfits := hdepth.1 (fun v hf => hall v hf.mem)
    refine ⟨fun v hv hs => hfits v ((hfree v hv).2 hs), fun v hv hs => ?_⟩
    rw [← hother v hv hs]
    exact hall v hv
  · rintro ⟨hplain, hsup⟩ v hv
    by_cases hs : G.isSuper v = true
    · rw [hother v hv hs]
      exact hsup v hv hs
    · refine hdepth.2 (fun w hf => hplain w hf.mem ((hfree w hf.mem).1 hf)) v ?_
      exact (hfree v hv).2 (Bool.eq_false_of_not_eq_true hs)

/-- In a graph without cycles the sort is right just where the nodes taken and the super nodes are the nodes of the graph, in
order and each at its depth. -/
theorem sorts_acyclic (h : SortResult G x done d) (hc : ¬ G.lists.HasCycle) :
    Sorts G x ↔ (done ++ G.superNodes).Perm G.state.nodes ∧
      (∀ u v, G.lists.Edge u v → [u, v].Sublist (done ++ G.superNodes)) ∧
        ∀ v ∈ G.state.nodes, G.lists.IsDepth v (d v) := by
  have hlen : (done ++ G.superNodes).length = done.length + G.superNodes.length := List.length_append
  constructor
  · rintro ⟨x', s', hasCycle, hs, hiff, hord, _⟩
    have hfalse : hasCycle = false := Bool.eq_false_of_not_eq_true (fun ht => hc (hiff.1 ht))
    have hcount : done.length + G.superNodes.length = G.state.nodes.length := by
      by_contra hne
      by_cases hroom : done.length + G.superNodes.length ≤ graphMaxNodes
      · obtain ⟨_, _, ht, _⟩ := h.cycle hroom hne
        rw [ht] at hs
        simp [hfalse] at hs
      · rw [h.outside (Nat.not_le.1 hroom)] at hs
        exact absurd hs (by simp)
    obtain ⟨y, t, ht, hnodes, hd⟩ := h.sorted hcount
    rw [ht] at hs
    simp only [Option.some.injEq, Prod.mk.injEq] at hs
    obtain ⟨_, rfl, _⟩ := hs
    have hin := hord hc
    rw [← hnodes, ← hd]
    exact ⟨hin.perm, hin.forward, hin.depth⟩
  · rintro ⟨hp, hforward, hdepth⟩
    obtain ⟨x', s', hs, hnodes, hd⟩ := h.sorted (hlen.symm.trans hp.length_eq)
    refine ⟨x', s', false, hs, ⟨fun ht => absurd ht Bool.false_ne_true, fun ht => absurd ht hc⟩, fun _ => ?_,
      fun ht => absurd ht hc⟩
    exact ⟨hnodes ▸ hp, hnodes ▸ hforward, hd ▸ hdepth⟩

end SortResult

/-- **A sort is right about exactly the graphs whose super nodes can stand at the end and whose depths are not too large, and
the graphs with a cycle in which the nodes are not miscounted.** -/
theorem sorts_iff (G : SortGraph) (x : SortContext) : Sorts G x ↔ SortFits G := by
  obtain ⟨done, d, h⟩ := sort_result G x
  by_cases hc : G.lists.HasCycle
  · rw [h.sorts_cycle hc]
    exact ⟨fun hseen => ⟨fun hn => absurd hc hn, fun _ => hseen⟩, fun hfits => hfits.2 hc⟩
  · rw [h.sorts_acyclic hc, h.perm_iff]
    constructor
    · rintro ⟨hfree, hforward, hdepth⟩
      obtain ⟨hedge, hin⟩ := (EdgeLists.free_iff_start hc).1 hfree
      have hsup := (h.forward_iff hfree).1 hforward
      obtain ⟨hplain, hsuper⟩ := (h.depth_iff hfree).1 hdepth
      refine ⟨fun _ => ⟨fun u v huv hu => ?_, fun v hv hs hne => ?_, hplain, hsuper⟩, fun ht => absurd ht hc⟩
      · have hv : G.isSuper v = true := not_plain.1 (fun hs => not_plain.2 hu (hedge u v huv hs))
        exact ⟨hv, hsup u v huv hu hv⟩
      · obtain ⟨u, hu, hnu⟩ := hin v hv (not_plain.2 hs) hne
        exact ⟨u, hu, not_plain.1 hnu⟩
    · rintro ⟨hfits, _⟩
      have hlast := hfits hc
      have hfree : ∀ v ∈ G.lists.nodes, G.lists.Free G.Plain v ↔ G.Plain v := (EdgeLists.free_iff_start hc).2
        ⟨fun u v huv hs => by
          by_contra hu
          exact not_plain.2 (hlast.edge u v huv (not_plain.1 hu)).1 hs,
        fun v hv hns hne => by
          obtain ⟨u, hu, hus⟩ := hlast.in_super v hv (not_plain.1 hns) hne
          exact ⟨u, hu, not_plain.2 hus⟩⟩
      exact ⟨hfree, (h.forward_iff hfree).2 (fun u v huv hu _ => (hlast.edge u v huv hu).2),
        (h.depth_iff hfree).2 ⟨hlast.depth, hlast.super_depth⟩⟩

/-- Node 0 before node 1. -/
def twoNodes : GraphState where
  nodes := [0, 1]
  links := { outNodes := fun n => if n = 0 then [1] else [], inNodes := fun n => if n = 1 then [0] else [] }

/-- The graph that a sort of the two nodes leaves, without the edge. -/
def edgeRemoved : SortGraph where
  state := { (ownGraphTopologicalSort {} twoNodes).2.1 with links := {} }
  isSuper := fun _ => false
  fewer := by decide
  nodup := by decide
  in_mem := by decide
  out_mem := by decide
  count_eq := by decide

/-- A graph with nodes 0, 1 and 2 in a row as a second verification sorts it: super node 3 stands for node 1, and the edges
from and to both of them are there. -/
def superNodeInRow : SortGraph where
  state := {
    nodes := [0, 1, 2, 3]
    links := {
      outNodes := fun n => if n = 0 then [3, 1] else if n = 1 ∨ n = 3 then [2] else []
      inNodes := fun n => if n = 2 then [3, 1] else if n = 1 ∨ n = 3 then [0] else [] } }
  isSuper := fun n => n == 3
  fewer := by decide
  nodup := by decide
  in_mem := by decide
  out_mem := by decide
  count_eq := by decide

/-- A cycle is reported where there is none, and a depth stays where it was with an edge that is gone. -/
theorem resort_wrong : ¬ superNodeInRow.Sorts {} ∧ ¬ edgeRemoved.Sorts {} := by
  constructor
  · rintro ⟨x', s', hasCycle, hs, hiff, _⟩
    have hrun : (ownGraphTopologicalSortBam superNodeInRow.isSuper {} superNodeInRow.state).map (fun r => r.2.2) = some true := by
      decide
    rw [hs] at hrun
    refine EdgeLists.not_hasCycle_of_lt (G := superNodeInRow.lists) (fun n => if n = 3 then 1 else n) (by decide) ?_
    exact hiff.1 (Option.some.inj hrun)
  · rintro ⟨x', s', hasCycle, hs, _, hord, _⟩
    have hrun : (ownGraphTopologicalSortBam edgeRemoved.isSuper {} edgeRemoved.state).map (fun r => r.2.1.nodeDepth 1) =
        some 2 := by decide
    rw [hs] at hrun
    have hin := hord (EdgeLists.not_hasCycle_of_lt (G := edgeRemoved.lists) id (by decide))
    have hdepth := (hin.depth 1 (by decide)).1
    have htwo : s'.nodeDepth 1 = 2 := Option.some.inj hrun
    rw [htwo] at hdepth
    cases hdepth with
    | step _ hedge => exact absurd hedge.2 List.not_mem_nil

end SortGraph

end Tiovx
