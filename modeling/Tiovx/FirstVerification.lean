import Tiovx.Deployed
import Tiovx.EdgeOrder
import Tiovx.NodeDescriptors
import Tiovx.SortOutcome
import Tiovx.SplicedEdges
/-!
# FirstVerification — from the parameters of a graph to the descriptors the targets run on

A graph is described by the parameters of its nodes.  Its first verification makes edges of them, takes out copy and move
nodes, sorts the nodes and makes their descriptors.  Where each bidirectional user can be put between a writer and its readers
and the parameters lead in no circle, the descriptors are what the runs rely on: a node executes after all that it needs.
-/
namespace Tiovx

/-- No list has an entry twice. -/
def Links.Once (L : Links) : Prop := (∀ n, (L.inNodes n).Nodup) ∧ ∀ n, (L.outNodes n).Nodup

section Once

variable {G : GraphNodes} {L L' : Links} {a b : Slot} {n m : Nat}

theorem Links.Once.addEdge (h : L.Once) (he : addEdge L n m = .ok L') : L'.Once := by
  refine ⟨(addEdge_ok he).2.2 h.1, ?_⟩
  obtain ⟨L₁, h₁, h₂⟩ := FoldExcept.bind_eq_ok.1 he
  rw [(addInNode_ok h₂).2.1]
  unfold ownNodeAddOutNode at h₁
  split at h₁
  · cases h₁
    exact h.2
  · rename_i hm
    split at h₁
    · cases h₁
      intro x
      simp only [Function.update_apply]
      split
      · exact (h.2 n).append (List.nodup_singleton m) (by simpa using hm)
      · exact h.2 x
    · cases h₁

theorem Links.Once.compareSlot {x x' : Links × Attached} (h : x.1.Once) (he : compareSlot G a x b = .ok x') :
    x'.1.Once := by
  rcases compareSlot_ok he with ⟨-, rfl⟩ | ⟨-, hne, -, hcase⟩
  · exact h
  · rcases hcase with ⟨-, -, hadd, -⟩ | ⟨-, -, hsame, -⟩ | ⟨-, hins, -⟩ | ⟨-, hsame, -⟩
    · exact h.addEdge hadd
    · rwa [hsame]
    · obtain ⟨hout, -, hin, -⟩ := insertBidi_ok hne h.1 hins
      refine ⟨hin, fun n => ?_⟩
      rw [hout]
      split
      · exact List.nodup_singleton _
      · exact h.2 n
    · rwa [hsame]

theorem Links.Once.calcInAndOutNodes (h : L.Once) (he : ownGraphCalcInAndOutNodes G L = .ok L') : L'.Once := by
  refine FoldExcept.keep (I := Links.Once) h (fun a _ L L' hL hs => ?_) (calcInAndOutNodes_ok he)
  rcases calcSlot_ok hs with ⟨-, rfl⟩ | ⟨-, x, hx, rfl⟩
  · exact hL
  · exact FoldExcept.keep (I := fun x => x.1.Once) hL (fun b _ _ _ hx hc => hx.compareSlot hc) hx

end Once

namespace GraphState

open Relation

section Stages

variable {K : Nat → VxKernel} {o : VerifyOutcome} {s t u : GraphState}

/-- A graph whose lists agree, as the sort sees it where no node is a super node. -/
def Layered.sortGraph {s : GraphState} {rank : Nat → Nat} (h : s.Layered rank) (hf : s.nodes.length < graphMaxNodes) :
    SortGraph where
  state := s
  isSuper _ := false
  fewer := hf
  nodup := h.nodup
  in_mem := h.balanced.in_mem
  out_mem := h.balanced.out_mem
  count_eq := h.balanced.count_eq

/-- **A sort that finds no cycle** puts each node behind its in-nodes, and changes nothing but the order and the depths. -/
theorem sort_ok {s : GraphState} {rank : Nat → Nat} (hA : s.Layered rank) (hf : s.nodes.length < graphMaxNodes)
    (x : SortContext) (h : (ownGraphTopologicalSort x s).2.2 = false) :
    ∃ l c d, (ownGraphTopologicalSort x s).2.1 = { s with nodes := l, incounter := c, nodeDepth := d } ∧ l.Perm s.nodes ∧
      ∀ n ∈ l, ∀ m ∈ s.links.inNodes n, [m, n].Sublist l := by
  obtain ⟨done, d, hr⟩ := (hA.sortGraph hf).sort_result x
  have hsuper : (hA.sortGraph hf).superNodes = [] := by
    unfold SortGraph.superNodes
    simp [Layered.sortGraph]
  have hsub : ∀ n ∈ done, n ∈ s.nodes := fun n hn => ((hr.mem_iff n).1 hn).mem
  have hle : done.length ≤ s.nodes.length := (List.subperm_of_subset hr.nodup hsub).length_le
  have hcycle := hr.cycle
  have hsorted := hr.sorted
  rw [hsuper, show ownGraphTopologicalSortBam (hA.sortGraph hf).isSuper x (hA.sortGraph hf).state =
    some (ownGraphTopologicalSort x s) from topologicalSortBam_no_super x s] at hcycle hsorted
  simp only [List.length_nil, Nat.add_zero, List.append_nil, Option.some.injEq] at hcycle hsorted
  have hlen : done.length = s.nodes.length := by
    by_contra hne
    obtain ⟨x', s', he, -⟩ := hcycle (hle.trans (Nat.le_of_lt hf)) hne
    rw [he] at h
    cases h
  obtain ⟨x', s', he, hnodes, -⟩ := hsorted hlen
  have hgraph : ∃ l c d, (ownGraphTopologicalSort x s).2.1 = { s with nodes := l, incounter := c, nodeDepth := d } := by
    have hstart : SortsWithin s.nodes s 0 (ownGraphSortStackReset x s.nodes.length, s) :=
      ⟨fun j hj => absurd hj (Nat.not_lt_zero j), fun j hj => absurd hj (Nat.not_lt_zero j), s.incounter, s.nodeDepth, rfl⟩
    have hcount := List.foldlRecOn s.nodes countInNodes hstart (fun z hz n hn => hz.countInNodes hn)
    obtain ⟨c, d, hg⟩ := (hcount.loop (fun n hn => ⟨hA.balanced.out_mem n hn, hA.balanced.in_mem n hn⟩) graphMaxNodes).graph
    unfold ownGraphTopologicalSort
    simp only [if_pos hf, hg]
    split
    · exact ⟨_, c, d, rfl⟩
    · exact ⟨s.nodes, c, d, rfl⟩
  obtain ⟨l, c, d', hg⟩ := hgraph
  have hl : l = done := by
    rw [he] at hg
    have := congrArg (fun t : GraphState => t.nodes) hg
    simp only at this
    rw [← this, hnodes]
  subst hl
  exact ⟨l, c, d', hg, (List.subperm_of_subset hr.nodup hsub).perm_of_length_le (Nat.le_of_eq hlen.symm), hr.earlier⟩

/-- The entries of a descriptor beyond the first are those of the same pipeline. -/
theorem entries_eq {C : Core} {first : List Nat} {num p : Nat} {ids : Nat → Option (Nat × Nat)}
    (h : 0 < p → num = first.length ∧ ∀ i m, first[i]? = some m → ids i = some (m, p)) :
    entries C first num p ids = first.map (fun m => ⟨place C m, p⟩) := by
  unfold entries
  split
  · rename_i hp
    rw [hp]
    rfl
  · rename_i hp
    obtain ⟨hnum, hids⟩ := h (Nat.pos_of_ne_zero hp)
    refine List.ext_getElem (by simp [hnum]) (fun i h₁ h₂ => ?_)
    rw [List.length_map] at h₂
    simp only [List.getElem_map, List.getElem_range]
    rw [hids i first[i] (List.getElem?_eq_getElem h₂)]
    rfl

/-- The stages between the sort and the list of queues, where they succeed. -/
theorem collect_ok (h : collect K o s = .ok u) :
    ∃ s₁ t v, s₁.core = s.core ∧ ownGraphCalcHeadAndLeafNodes s₁ = .ok t ∧ v.core = t.core ∧
      pipelineNodes K o.allocatesDescs v = .ok u := by
  obtain ⟨a, ha, h⟩ := FoldExcept.bind_eq_ok.1 h
  obtain ⟨b, hb, h⟩ := FoldExcept.bind_eq_ok.1 h
  obtain ⟨c, hc, h⟩ := FoldExcept.bind_eq_ok.1 h
  obtain ⟨d, hd, h⟩ := FoldExcept.bind_eq_ok.1 h
  obtain ⟨t, ht, h⟩ := FoldExcept.bind_eq_ok.1 h
  obtain ⟨e, he, h⟩ := FoldExcept.bind_eq_ok.1 h
  obtain ⟨v, hv, h⟩ := FoldExcept.bind_eq_ok.1 h
  have hcore : d.core = s.core := by
    rw [(keeps_validatePipelineParameters (V := core)).ok hd, (keeps_linkParameters (V := core)).ok hc,
      (keeps_validateParameters (V := core)).ok hb, (keeps_check (V := core) _).ok ha]
  refine ⟨d, t, v, hcore, ht, ?_, h⟩
  rw [(keeps_check (V := core) _).ok hv, core_detectAndSetNumBuf, keeps_findAndAddDataReferences.ok he]

/-- **What the stages after the sort make of a sorted graph.** -/
theorem built_of_collect {rank : Nat → Nat} (hK : ∀ k, 0 < (K k).numPipeupBufs) (hL : s.Layered rank)
    (hsorted : ∀ n ∈ s.nodes, ∀ m ∈ s.links.inNodes n, [m, n].Sublist s.nodes) (hs : s.Unpiped) (hne : s.nodes ≠ [])
    (h : collect K o s = .ok u) :
    Built u.core ∧ u.core.nodes = s.nodes ∧ u.core.links = s.links ∧ 0 < u.core.pipelineDepth := by
  obtain ⟨s₁, t, v, h₁, ht, hv, hu⟩ := collect_ok h
  have hvcore := hv.trans (calcHeadAndLeafNodes_ok ht)
  have hnodes₁ : s₁.nodes = s.nodes := congrArg Core.nodes h₁
  have hlinks₁ : s₁.links = s.links := congrArg Core.links h₁
  rw [h₁, hnodes₁, hlinks₁] at hvcore
  have hnodes : v.nodes = s.nodes := congrArg Core.nodes hvcore
  have hlinks : v.links = s.links := congrArg Core.links hvcore
  have hheads : v.headNodes = s.nodes.filter (fun n => s.links.inNodes n = []) := congrArg Core.headNodes hvcore
  have hleaves : v.numLeafNodes = (s.nodes.filter (fun n => s.links.outNodes n = [])).length :=
    congrArg Core.numLeafNodes hvcore
  have hunpiped : v.Unpiped := by
    refine ⟨fun n => ?_, fun n => ?_⟩
    · exact (congrFun (congrArg Core.nodePipelineDepth hvcore) n).trans (hs.depth n)
    · exact (congrFun (congrFun (congrArg Core.prevPipe hvcore) n) 0).trans (hs.prevPipe n)
  have hpos : 0 < v.calcPipelineDepth K := calcPipelineDepth_pos hK (hnodes ▸ hne)
  obtain ⟨hkeep, hdescs⟩ := pipelineNodes_ok (hnodes ▸ hL.nodup) hpos hunpiped hu
  rw [hnodes] at hdescs
  have hunodes : u.nodes = s.nodes := hkeep.nodes.trans hnodes
  have hulinks : u.links = s.links := hkeep.links.trans hlinks
  have hudepth : u.pipelineDepth = v.calcPipelineDepth K := hkeep.pipelineDepth
  refine ⟨?_, hunodes, hulinks, Nat.lt_of_lt_of_eq hpos hudepth.symm⟩
  have hids : ∀ p < v.calcPipelineDepth K, ∀ m ∈ s.nodes, u.ownNodeGetObjDescId p m = some (m, p) := by
    intro p hp m hm
    unfold ownNodeGetObjDescId
    rw [(hdescs m hm).1.depth, if_pos hp]
  refine ⟨?_, fun n hn m hm => ?_, fun n hn m hm => ?_, ?_, ?_, ?_, fun n hn => ?_, fun n hn p hp => ?_,
    fun n hn p hp => ?_⟩
  · simp only [core, hunodes]
    exact hL.nodup
  · simp only [core, hunodes, hulinks] at hn hm ⊢
    exact ⟨hL.balanced.in_mem n hn m hm, (hL.balanced.mem_iff (hL.balanced.in_mem n hn m hm) hn).2 hm⟩
  · simp only [core, hunodes, hulinks] at hn hm ⊢
    exact ⟨hL.balanced.out_mem n hn m hm, (hL.balanced.mem_iff hn (hL.balanced.out_mem n hn m hm)).1 hm⟩
  · simp only [core, hunodes, hulinks]
    exact hsorted
  · simp only [core, hunodes, hulinks]
    exact hkeep.headNodes.trans hheads
  · simp only [core, hunodes, hulinks]
    exact hkeep.numLeafNodes.trans hleaves
  · simp only [core, hunodes] at hn
    exact (hdescs n hn).1.depth.trans hudepth.symm
  · simp only [core, hunodes, hulinks, hudepth] at hn hp ⊢
    obtain ⟨hpn, hln⟩ := hdescs n hn
    constructor
    · refine entries_eq fun hp₀ => ⟨(hpn.numIn p hp₀ hp).trans (by rw [hulinks]), fun i m hm => ?_⟩
      rw [(hln p hp₀ hp).1 i m (hulinks ▸ hm)]
      exact hids p hp m (hL.balanced.in_mem n hn m (List.mem_of_getElem? hm))
    · refine entries_eq fun hp₀ => ⟨(hpn.numOut p hp₀ hp).trans (by rw [hulinks]), fun i m hm => ?_⟩
      rw [(hln p hp₀ hp).2 i m (hulinks ▸ hm)]
      exact hids p hp m (hL.balanced.out_mem n hn m (List.mem_of_getElem? hm))
  · simp only [core, hunodes, hudepth] at hn hp ⊢
    exact (hdescs n hn).1.prevPipe p hp

end Stages

/-- **A graph that was described and not verified yet**: each bidirectional user can be put between a writer and its readers,
and the parameters lead in no circle. -/
structure Described (s : GraphState) : Prop where
  nodup : s.nodes.Nodup
  fewer : s.nodes.length < graphMaxNodes
  links : s.links = {}
  unpiped : s.Unpiped
  unverified : s.verified = false
  insertable : VxGraph.Insertable ⟨s.toGraphNodes, nodup⟩
  acyclic : ∃ rank : Nat → Nat, ∀ n k, VxGraph.Required ⟨s.toGraphNodes, nodup⟩ n k → rank n < rank k
  keeps : ∃ n ∈ s.nodes, (s.node n).enumeration = .other

section Described

variable {K : Nat → VxKernel} {o : VerifyOutcome} {S : SharedState} {s t : GraphState} {rank : Nat → Nat}

/-- The edges that are made of the parameters. -/
theorem layered_calcInAndOutNodes {L : Links} (hn : s.nodes.Nodup) (hI : VxGraph.Insertable ⟨s.toGraphNodes, hn⟩)
    (hr : ∀ n k, VxGraph.Required ⟨s.toGraphNodes, hn⟩ n k → rank n < rank k)
    (h : ownGraphCalcInAndOutNodes s.toGraphNodes {} = .ok L) :
    Layered { s with links := L } rank ∧ ∀ n k, VxGraph.Required ⟨s.toGraphNodes, hn⟩ n k → L.EdgeIn s.nodes n k := by
  obtain ⟨hO, -⟩ := orders_of_insertable hI (calcInAndOutNodes_ok h)
  obtain ⟨hS, hL⟩ := done_of_fold (G := ⟨s.toGraphNodes, hn⟩) (List.append_nil _).symm (calcInAndOutNodes_ok h)
  have hreq : ∀ n k, k ∈ L.outNodes n → VxGraph.Required ⟨s.toGraphNodes, hn⟩ n k :=
    fun n k hk => required_of_made (hS.out_made n k hk)
  have hnode : ∀ n k, VxGraph.Required ⟨s.toGraphNodes, hn⟩ n k → n ∈ s.nodes ∧ k ∈ s.nodes := by
    rintro n k ⟨m, hm, o, ho, rfl, rfl, -⟩
    exact ⟨node_of_mem_slots hm, node_of_mem_slots ho⟩
  have honce : L.Once := Links.Once.calcInAndOutNodes ⟨fun _ => List.nodup_nil, fun _ => List.nodup_nil⟩ h
  refine ⟨⟨hn, ⟨fun n _ m hm => ?_, fun n _ m hm => ?_, fun m _ n _ => ?_⟩, fun n _ m hm => ?_⟩, ?_⟩
  · exact (hnode m n (hreq m n ((hO.consistent m n).2 hm))).1
  · exact (hnode n m (hreq n m hm)).2
  · rw [(honce.2 m).count, (honce.1 n).count]
    simp only [hO.consistent m n]
  · exact hr m n (hreq m n ((hO.consistent m n).2 hm))
  · intro n k hk
    have hmem := hnode n k hk
    obtain ⟨m, hm, o, ho, rfl, rfl, hl⟩ := hk
    exact ⟨hmem.2, (hL hI).made_in _ _ (made_of_leads hm ho hm hl)⟩

/-- **The graph that goes to the sort.** -/
theorem prepare_ok {u : GraphState} (hs : s.Described) (h : prepare o { s with verified := false } = .ok u) :
    (∃ rank, u.Layered rank) ∧ u.nodes.length < graphMaxNodes ∧ u.Unpiped ∧ u.verified = false ∧ u.nodes ≠ [] ∧
      ∀ n ∈ u.nodes, ∀ k ∈ u.nodes, TransGen (VxGraph.Required ⟨s.toGraphNodes, hs.nodup⟩) n k →
        TransGen (u.links.EdgeIn u.nodes) n k := by
  have hkeep : Keeps (fun s => (s.nodePipelineDepth, s.desc, s.verified)) (prepare o) :=
    keeps_prepare (fun _ _ _ _ => rfl) (fun _ _ => rfl)
  have hview := hkeep.ok h
  simp only [Prod.mk.injEq] at hview
  obtain ⟨hdepth, hdesc, hverified⟩ := hview
  obtain ⟨rank, hrank⟩ := hs.acyclic
  obtain ⟨v, hv, h⟩ := FoldExcept.bind_eq_ok.1 h
  simp only [hs.links] at hv
  cases hL : ownGraphCalcInAndOutNodes s.toGraphNodes {} with
  | error L =>
    rw [hL] at hv
    cases hv
  | ok L =>
    rw [hL] at hv
    cases hv
    obtain ⟨hlayered, hedges⟩ := layered_calcInAndOutNodes hs.nodup hs.insertable hrank hL
    have hlayered' : Layered { s with verified := false, links := L } rank := ⟨hlayered.1, hlayered.2, hlayered.3⟩
    obtain ⟨hu, hord⟩ := layered_processCopyMoveNodes hlayered' h
    refine ⟨⟨rank, hu⟩, ?_, ⟨fun n => ?_, fun n => ?_⟩, hverified, ?_, fun n hn k hk hr => ?_⟩
    · exact Nat.lt_of_le_of_lt (List.subperm_of_subset hu.nodup hord.nodes).length_le hs.fewer
    · rw [hdepth]
      exact hs.unpiped.depth n
    · rw [hdesc]
      exact hs.unpiped.prevPipe n
    · obtain ⟨n, hn, he⟩ := hs.keeps
      rcases hord.kept n hn with hmem | hne
      · exact List.ne_nil_of_mem hmem
      · exact absurd he hne
    · exact (hord.order n hn k hk).2 (TransGen.mono hedges n k hr)

/-- **What a verification leaves** of a graph that it marks verified. -/
theorem built_of_verify (hK : ∀ k, 0 < (K k).numPipeupBufs) (hs : s.Described)
    (h : (vxVerifyGraph K o S s).2.verified = true) :
    Built (vxVerifyGraph K o S s).2.core ∧ 0 < (vxVerifyGraph K o S s).2.pipelineDepth ∧
      (vxVerifyGraph K o S s).2.nodes ≠ [] ∧
      ∀ n ∈ (vxVerifyGraph K o S s).2.nodes, ∀ k ∈ (vxVerifyGraph K o S s).2.nodes,
        TransGen (VxGraph.Required ⟨s.toGraphNodes, hs.nodup⟩) n k →
          TransGen ((vxVerifyGraph K o S s).2.links.EdgeIn (vxVerifyGraph K o S s).2.nodes) n k := by
  obtain ⟨u, c, hu, hcycle, ht⟩ := sorted_of_verify hs.unverified h
  rw [ht] at h ⊢
  obtain ⟨⟨rank, hL⟩, hfewer, hunpiped, hverified, hne, horder⟩ := prepare_ok hs hu
  obtain ⟨l, ic, d, hsort, hperm, hsorted⟩ := sort_ok hL hfewer S.sort hcycle
  rw [hsort] at h ⊢
  obtain ⟨v, hv, hcore⟩ :=
    finish_verified (s := { u with nodes := l, incounter := ic, nodeDepth := d }) hverified h
  have hmem : ∀ n, n ∈ l ↔ n ∈ u.nodes := fun n => hperm.mem_iff
  have hL' : Layered { u with nodes := l, incounter := ic, nodeDepth := d } rank := by
    refine ⟨hperm.nodup_iff.2 hL.nodup, ⟨fun n hn m hm => ?_, fun n hn m hm => ?_, fun m hm n hn => ?_⟩, fun n hn => ?_⟩
    · exact (hmem m).2 (hL.balanced.in_mem n ((hmem n).1 hn) m hm)
    · exact (hmem m).2 (hL.balanced.out_mem n ((hmem n).1 hn) m hm)
    · exact hL.balanced.count_eq m ((hmem m).1 hm) n ((hmem n).1 hn)
    · exact hL.ranked n ((hmem n).1 hn)
  obtain ⟨hbuilt, hnodes, hlinks, hpos⟩ := built_of_collect hK hL' hsorted ⟨hunpiped.depth, hunpiped.prevPipe⟩
    (fun hnil : l = [] => hne (List.Perm.eq_nil (hnil ▸ hperm.symm))) hv
  have hn : (left (finish K c o { u with nodes := l, incounter := ic, nodeDepth := d })).nodes = l :=
    (congrArg Core.nodes hcore).trans hnodes
  have hl : (left (finish K c o { u with nodes := l, incounter := ic, nodeDepth := d })).links = u.links :=
    (congrArg Core.links hcore).trans hlinks
  rw [hcore, hn, hl]
  refine ⟨⟨hbuilt.1, hbuilt.2, hbuilt.3, hbuilt.4, hbuilt.5, hbuilt.6, hbuilt.7, hbuilt.8, hbuilt.9⟩, ?_, ?_, ?_⟩
  · exact Nat.lt_of_lt_of_eq hpos (congrArg Core.pipelineDepth hcore).symm
  · rintro rfl
    exact hne (List.Perm.eq_nil hperm.symm)
  · intro n hn k hk hr
    exact TransGen.mono (fun a b hab => ⟨(hmem b).2 hab.1, hab.2⟩) n k (horder n ((hmem n).1 hn) k ((hmem k).1 hk) hr)

/-- **A graph that is verified can be run**: its descriptors are what the targets and the host rely on. -/
theorem runnable_of_verify {B : Graph} {D : NodeId → NodeDesc} (hK : ∀ k, 0 < (K k).numPipeupBufs) (hs : s.Described)
    (hprms : ∀ n, (D n).prms.all (fun P => P.isDataRefQ && (B.table.dataRefQ P.dataRefQId).isNone) = false)
    (h : (vxVerifyGraph K o S s).2.verified = true) :
    (deploy (vxVerifyGraph K o S s).2.core B D).Wired ∧ (deploy (vxVerifyGraph K o S s).2.core B D).Startable := by
  obtain ⟨hC, -, hne, -⟩ := built_of_verify hK hs h
  exact ⟨hC.wired, hC.startable hne hprms⟩

end Described

end GraphState

section Runs

variable {G : Graph} {n k : NodeId} {N : NodeDesc} {l l₁ : List Event}

end Runs

namespace GraphState

open Relation StepSystem

section Executions

variable {K : Nat → VxKernel} {o : VerifyOutcome} {S : SharedState} {s : GraphState} {C : Core} {B : Graph}
  {D : NodeId → NodeDesc} {n k p : Nat} {l : List Event}

end Executions

section Example

/-- Node 0 writes a virtual reference, copy node 1 copies it to another one, and node 2 reads that. -/
def copyChain : GraphState where
  ref := fun r => { isVirtual := r = 0 }
  node := fun n =>
    match n with
    | 0 => { prms := [{ dir := .output, ref := some 0 }] }
    | 1 => { enumeration := .copy, prms := [{ dir := .input, ref := some 0 }, { dir := .output, ref := some 1 }] }
    | _ => { prms := [{ dir := .input, ref := some 1 }] }
  nodes := [0, 1, 2]

/-- What its verification leaves, where the references can be copied: the copy node is taken out. -/
def copyChainCore : Core := (vxVerifyGraph (fun _ => {}) { copies := fun _ _ => true } {} copyChain).2.core

/-- Targets without data reference queues. -/
def noQueues : Graph where
  table := { numEntries := 8, dataRefQ := fun _ => none, node := fun _ => none }
  hostOnly := fun _ => false
  hostTarget := 0
  numNodes := 0
  pipelineDepth := 0
  headNodes := []
  numLeafNodes := 0
  isNormal := true
  parameters := []

/-- Each node on a target of its own, with one parameter. -/
def onePrm (n : NodeId) : NodeDesc where
  targetId := n.node + 1
  prms := [{ isDataRefQ := false, isInput := n.node = 1, dataId := 7 }]
  inNodeId := []
  outNodeId := []
  prevPipeNodeId := none

def copyChainGraph : Graph := deploy copyChainCore noQueues onePrm

theorem copyChain_described : copyChain.Described where
  nodup := by decide
  fewer := by decide
  links := rfl
  unpiped := ⟨fun _ => rfl, fun _ => rfl⟩
  unverified := rfl
  insertable := ⟨by decide, by decide, by decide⟩
  acyclic := by
    refine ⟨id, ?_⟩
    rintro n k ⟨a, ha, b, hb, rfl, rfl, hl⟩
    revert a b
    decide
  keeps := ⟨0, by decide, rfl⟩

/-- The descriptors of the two nodes that are left. -/
theorem runnable_copyChain : copyChainGraph.Wired ∧ copyChainGraph.Startable ∧ copyChainCore.nodes = [0, 2] := by
  obtain ⟨hW, hG⟩ := runnable_of_verify (K := fun _ => {}) (S := {}) (B := noQueues) (D := onePrm)
    (fun _ => Nat.one_pos) copyChain_described (fun _ => rfl)
    (show (vxVerifyGraph (fun _ => {}) { copies := fun _ _ => true } {} copyChain).2.verified = true by decide +kernel)
  exact ⟨hW, hG, by decide +kernel⟩

end Example

end GraphState

end Tiovx
