import Tiovx.KeptStages
import Tiovx.TriggersKept
/-!
# Deployed — the graph that a verification leaves for the targets (`vx_graph_verify.c`, `vx_node.c`)

The verification of a graph makes lists of nodes; what the targets run on are the descriptors, one for each node and
pipeline, with the ids of those before and behind it.  `deploy` reads them off the verified graph.  Where the lists agree and
the nodes are sorted, the descriptors are what the runs rely on.
-/
namespace Tiovx

namespace GraphState

/-- The place of a node in the array of nodes. -/
def place (C : Core) (n : Nat) : Nat := C.nodes.idxOf n

/-- The descriptor an entry of a list is the id of; the id of no descriptor is that of no node. -/
def entry (C : Core) : Option (Nat × Nat) → NodeId
  | some (m, p) => ⟨place C m, p⟩
  | none => ⟨C.nodes.length, 0⟩

/-- The list of the first descriptor of a node, or that of another one. -/
def entries (C : Core) (first : List Nat) (num p : Nat) (ids : Nat → Option (Nat × Nat)) : List NodeId :=
  if p = 0 then first.map fun m => entry C (some (m, 0)) else (List.range num).map fun i => entry C (ids i)

/-- The descriptor of node `n`, where the node has one for its pipeline; `D` is what the lists of nodes say nothing of. -/
def nodeDesc (C : Core) (D : NodeId → NodeDesc) (n : NodeId) : Option NodeDesc :=
  C.nodes[n.node]?.bind fun m =>
    if n.pipe < C.nodePipelineDepth m then
      some { D n with
        inNodeId := entries C (C.links.inNodes m) (C.numInNodes m n.pipe) n.pipe (C.inNodeId m n.pipe)
        outNodeId := entries C (C.links.outNodes m) (C.numOutNodes m n.pipe) n.pipe (C.outNodeId m n.pipe)
        prevPipeNodeId := (C.prevPipe m n.pipe).map fun q => ⟨n.node, q⟩ }
    else none

/-- **The graph the targets run**, with the targets, kernels and queues of `B`. -/
def deploy (C : Core) (B : Graph) (D : NodeId → NodeDesc) : Graph :=
  { B with
    table := { B.table with node := nodeDesc C D }
    numNodes := C.nodes.length
    pipelineDepth := C.pipelineDepth
    headNodes := C.headNodes.map (place C)
    numLeafNodes := C.numLeafNodes }

/-- **A graph as the later stages leave it.** -/
structure Built (C : Core) : Prop where
  nodup : C.nodes.Nodup
  in_mem : ∀ n ∈ C.nodes, ∀ m ∈ C.links.inNodes n, m ∈ C.nodes ∧ n ∈ C.links.outNodes m
  out_mem : ∀ n ∈ C.nodes, ∀ m ∈ C.links.outNodes n, m ∈ C.nodes ∧ n ∈ C.links.inNodes m
  sorted : ∀ n ∈ C.nodes, ∀ m ∈ C.links.inNodes n, [m, n].Sublist C.nodes
  headNodes : C.headNodes = C.nodes.filter (fun n => C.links.inNodes n = [])
  numLeafNodes : C.numLeafNodes = (C.nodes.filter (fun n => C.links.outNodes n = [])).length
  depth : ∀ n ∈ C.nodes, C.nodePipelineDepth n = C.pipelineDepth
  lists : ∀ n ∈ C.nodes, ∀ p < C.pipelineDepth,
    entries C (C.links.inNodes n) (C.numInNodes n p) p (C.inNodeId n p) =
      (C.links.inNodes n).map (fun m => ⟨place C m, p⟩) ∧
    entries C (C.links.outNodes n) (C.numOutNodes n p) p (C.outNodeId n p) =
      (C.links.outNodes n).map (fun m => ⟨place C m, p⟩)
  prevPipe : ∀ n ∈ C.nodes, ∀ p < C.pipelineDepth, C.prevPipe n p =
    if 1 < C.pipelineDepth then some ((p + C.pipelineDepth - 1) % C.pipelineDepth) else none

theorem idxOf_lt_of_sublist {l : List Nat} {a b : Nat} (hl : l.Nodup) (h : [a, b].Sublist l) :
    l.idxOf a < l.idxOf b := by
  induction l with
  | nil => cases h
  | cons c l ih =>
    rw [List.nodup_cons] at hl
    cases h with
    | cons _ h =>
      have hca : c ≠ a := fun e => hl.1 (e ▸ h.subset List.mem_cons_self)
      have hcb : c ≠ b := fun e => hl.1 (e ▸ h.subset (List.mem_cons_of_mem a List.mem_cons_self))
      rw [List.idxOf_cons_ne _ hca, List.idxOf_cons_ne _ hcb]
      exact Nat.succ_lt_succ (ih hl.2 h)
    | cons_cons _ h =>
      have hab : a ≠ b := fun e => hl.1 (e ▸ h.subset List.mem_cons_self)
      rw [List.idxOf_cons_self, List.idxOf_cons_ne _ hab]
      exact Nat.succ_pos _

section Built

variable {C : Core} {B : Graph} {D : NodeId → NodeDesc} {n : NodeId} {N : NodeDesc}

theorem nodeDesc_eq_some (hC : Built C) (h : (deploy C B D).table.node n = some N) :
    ∃ m, C.nodes[n.node]? = some m ∧ n.pipe < C.pipelineDepth ∧
      N = { D n with
        inNodeId := (C.links.inNodes m).map (fun k => ⟨place C k, n.pipe⟩)
        outNodeId := (C.links.outNodes m).map (fun k => ⟨place C k, n.pipe⟩)
        prevPipeNodeId := (if 1 < C.pipelineDepth then
          some ((n.pipe + C.pipelineDepth - 1) % C.pipelineDepth) else none).map fun q => ⟨n.node, q⟩ } := by
  obtain ⟨m, hm, h⟩ := Option.bind_eq_some_iff.1 h
  have hmem := List.mem_of_getElem? hm
  rw [hC.depth m hmem] at h
  split at h
  · rename_i hp
    obtain ⟨hin, hout⟩ := hC.lists m hmem n.pipe hp
    rw [hin, hout, hC.prevPipe m hmem n.pipe hp] at h
    exact ⟨m, hm, hp, (Option.some.inj h).symm⟩
  · cases h

theorem nodeDesc_of_mem (hC : Built C) {m p : Nat} (hm : m ∈ C.nodes) (hp : p < C.pipelineDepth) :
    ∃ N, (deploy C B D).table.node ⟨place C m, p⟩ = some N ∧
      N.inNodeId = (C.links.inNodes m).map (fun k => ⟨place C k, p⟩) ∧
      N.outNodeId = (C.links.outNodes m).map (fun k => ⟨place C k, p⟩) := by
  have hget : C.nodes[place C m]? = some m := List.getElem?_idxOf hm
  obtain ⟨hin, hout⟩ := hC.lists m hm p hp
  simp only [deploy, nodeDesc, hget, Option.bind_some, hC.depth m hm, if_pos hp, hin, hout]
  exact ⟨_, rfl, rfl, rfl⟩

theorem place_of_getElem? (hC : Built C) {i m : Nat} (h : C.nodes[i]? = some m) : place C m = i := by
  obtain ⟨hi, rfl⟩ := List.getElem?_eq_some_iff.1 h
  exact hC.nodup.idxOf_getElem i hi

/-- **The descriptors of a graph so built are what the runs rely on.** -/
theorem Built.wired (hC : Built C) : (deploy C B D).Wired where
  node_isSome n := by
    simp only [deploy, nodeDesc]
    cases hm : C.nodes[n.node]? with
    | none =>
      rw [List.getElem?_eq_none_iff] at hm
      simp only [Option.bind_none, Option.isSome_none, Bool.false_eq_true, false_iff]
      omega
    | some m =>
      have hlt := (List.getElem?_eq_some_iff.1 hm).1
      simp only [Option.bind_some, hC.depth m (List.mem_of_getElem? hm)]
      split <;> simp [*]
  inNode n N k hN hk := by
    obtain ⟨m, hm, hp, rfl⟩ := nodeDesc_eq_some hC hN
    obtain ⟨j, hj, rfl⟩ := List.mem_map.1 hk
    obtain ⟨hjm, hout⟩ := hC.in_mem m (List.mem_of_getElem? hm) j hj
    obtain ⟨K, hK, -, ho⟩ := nodeDesc_of_mem (B := B) (D := D) hC hjm hp
    refine ⟨rfl, K, hK, ?_⟩
    rw [ho]
    exact List.mem_map.2 ⟨m, hout, by rw [place_of_getElem? hC hm]⟩
  outNode n N k hN hk := by
    obtain ⟨m, hm, hp, rfl⟩ := nodeDesc_eq_some hC hN
    obtain ⟨j, hj, rfl⟩ := List.mem_map.1 hk
    obtain ⟨hjm, hin⟩ := hC.out_mem m (List.mem_of_getElem? hm) j hj
    obtain ⟨K, hK, hi, -⟩ := nodeDesc_of_mem (B := B) (D := D) hC hjm hp
    refine ⟨rfl, K, hK, ?_⟩
    rw [hi]
    exact List.mem_map.2 ⟨m, hin, by rw [place_of_getElem? hC hm]⟩
  headNode h hh p N hN := by
    obtain ⟨m, hm, hp, rfl⟩ := nodeDesc_eq_some hC hN
    simp only [deploy, hC.headNodes, List.mem_map, List.mem_filter, decide_eq_true_eq] at hh
    obtain ⟨j, ⟨hj, hnil⟩, rfl⟩ := hh
    have hjm : j = m := by
      have hget : C.nodes[place C j]? = some j := List.getElem?_idxOf hj
      rw [hm] at hget
      exact (Option.some.inj hget).symm
    simp [← hjm, hnil]
  numLeafNodes p hp := by
    show _ = C.numLeafNodes
    -- the places of the leaf nodes are those of the nodes without out-nodes
    have himage : (Finset.range C.nodes.length).filter (fun i => (deploy C B D).isLeaf ⟨i, p⟩ = true) =
        ((C.nodes.filter (fun n => C.links.outNodes n = [])).map (place C)).toFinset := by
      ext i
      simp only [Finset.mem_filter, Finset.mem_range, isLeaf_iff, List.mem_toFinset, List.mem_map, List.mem_filter,
        decide_eq_true_eq]
      constructor
      · rintro ⟨hi, N, hN, ho⟩
        obtain ⟨m, hm, -, rfl⟩ := nodeDesc_eq_some hC hN
        exact ⟨m, ⟨List.mem_of_getElem? hm, by simpa using ho⟩, place_of_getElem? hC hm⟩
      · rintro ⟨m, ⟨hm, hnil⟩, rfl⟩
        obtain ⟨N, hN, -, ho⟩ := nodeDesc_of_mem (B := B) (D := D) hC hm hp
        exact ⟨List.idxOf_lt_length_of_mem hm, N, hN, by rw [ho, hnil]; rfl⟩
    show (Finset.filter _ (Finset.range C.nodes.length)).card = _
    rw [himage, hC.numLeafNodes, List.toFinset_card_of_nodup, List.length_map]
    refine List.Nodup.map_on (fun a ha b hb hab => ?_) (hC.nodup.filter _)
    exact (List.idxOf_inj (List.mem_filter.1 ha).1).1 hab
  acyclic := by
    refine ⟨id, fun n N k hN hk => ?_⟩
    obtain ⟨m, hm, hp, rfl⟩ := nodeDesc_eq_some hC hN
    obtain ⟨j, hj, rfl⟩ := List.mem_map.1 hk
    show place C j < n.node
    rw [← place_of_getElem? hC hm]
    exact idxOf_lt_of_sublist hC.nodup (hC.sorted m (List.mem_of_getElem? hm) j hj)

/-- The pipeline before this one is that of no other. -/
theorem prev_inj {p q d : Nat} (hp : p < d) (hq : q < d) (h : (p + d - 1) % d = (q + d - 1) % d) : p = q := by
  have hmod : ∀ p < d, (p + d - 1) % d = if p = 0 then d - 1 else p - 1 := by
    intro p hp
    split
    · rename_i h0
      rw [h0, Nat.zero_add, Nat.mod_eq_of_lt (by omega)]
    · rw [show p + d - 1 = (p - 1) + d by omega, Nat.add_mod_right, Nat.mod_eq_of_lt (by omega)]
  rw [hmod p hp, hmod q hq] at h
  split at h <;> split at h <;> omega

/-- **Such a graph can be started**: what has no in-node is a head node, and each instance of a node waits for one other. -/
theorem Built.startable (hC : Built C) (hne : C.nodes ≠ [])
    (hprms : ∀ n, (D n).prms.all (fun P => P.isDataRefQ && (B.table.dataRefQ P.dataRefQId).isNone) = false) :
    (deploy C B D).Startable where
  head n N hN hnil := by
    obtain ⟨m, hm, -, rfl⟩ := nodeDesc_eq_some hC hN
    show n.node ∈ C.headNodes.map (place C)
    rw [hC.headNodes]
    refine List.mem_map.2 ⟨m, List.mem_filter.2 ⟨List.mem_of_getElem? hm, ?_⟩, place_of_getElem? hC hm⟩
    simpa using hnil
  prev n N m M k hN hM hn hm := by
    obtain ⟨i, -, hp, rfl⟩ := nodeDesc_eq_some hC hN
    obtain ⟨j, -, hq, rfl⟩ := nodeDesc_eq_some hC hM
    simp only at hn hm
    split at hn
    · rename_i hd
      rw [if_pos hd] at hm
      simp only [Option.map_some, Option.some.injEq] at hn hm
      rw [← hn, NodeId.mk.injEq] at hm
      obtain ⟨a, b⟩ := n
      obtain ⟨c, e⟩ := m
      rw [NodeId.mk.injEq]
      exact ⟨hm.1.symm, (prev_inj hq hp hm.2).symm⟩
    · cases hn
  prms n N hN := by
    obtain ⟨m, -, -, rfl⟩ := nodeDesc_eq_some hC hN
    exact hprms n
  numNodes := List.length_pos_iff.2 hne

end Built

end GraphState

end Tiovx
