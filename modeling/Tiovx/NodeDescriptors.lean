import Tiovx.KeptStages
/-!
# NodeDescriptors — the head nodes, the leaf nodes and the descriptors of the nodes (`vx_graph_verify.c`, `vx_node.c`)

After the sort a verification lists the nodes without in-nodes and counts those without out-nodes; then each node gets a
descriptor for each pipeline, which is a copy of the first one until the ids in its lists are replaced by those of the
descriptors for the same pipeline.
-/
namespace Tiovx

namespace GraphState

/-- **What the head and leaf nodes are**: the nodes without in-nodes, and as many as there are without out-nodes. -/
theorem calcHeadAndLeafNodes_ok {s t : GraphState} (h : ownGraphCalcHeadAndLeafNodes s = .ok t) :
    t.core = { s.core with
      headNodes := s.nodes.filter (fun n => s.links.inNodes n = [])
      numLeafNodes := (s.nodes.filter (fun n => s.links.outNodes n = [])).length } := by
  refine FoldExcept.inv (I := fun l t => t.core = { s.core with
    headNodes := l.filter (fun n => s.links.inNodes n = [])
    numLeafNodes := (l.filter (fun n => s.links.outNodes n = [])).length }) rfl ?_ h
  intro done n rest u v _ hu hv
  obtain ⟨w, hw, hv⟩ := FoldExcept.bind_eq_ok.1 hv
  have hlinks : u.links = s.links := congrArg Core.links hu
  have hhead : w.core = { u.core with
      headNodes := u.core.headNodes ++ [n].filter (fun n => s.links.inNodes n = []) } := by
    unfold addHeadNode at hw
    split at hw
    · rename_i hn
      rw [hlinks] at hn
      split at hw
      · cases hw
      · cases hw
        simp [hn, core]
    · rename_i hn
      cases hw
      simp [← hlinks, hn]
  have hwlinks : w.links = s.links := (congrArg Core.links hhead).trans hlinks
  have hleaf : v.core = { w.core with
      numLeafNodes := w.core.numLeafNodes + ([n].filter (fun n => s.links.outNodes n = [])).length } := by
    unfold addLeafNode at hv
    split at hv
    · rename_i hn
      rw [hwlinks] at hn
      split at hv
      · cases hv
      · cases hv
        simp [hn, core]
    · rename_i hn
      cases hv
      simp [← hwlinks, hn]
  rw [hleaf, hhead, hu, List.filter_append, List.filter_append, List.length_append]

/-- A graph in which no node has more than its first descriptor. -/
structure Unpiped (s : GraphState) : Prop where
  depth : ∀ n, s.nodePipelineDepth n = 1
  prevPipe : ∀ n, (s.desc n 0).prevPipe = none

/-- Node `n` has its descriptors for pipelines below `d`, with the lists of the first one copied. -/
structure Piped (d : Nat) (s : GraphState) (n : Nat) : Prop where
  depth : s.nodePipelineDepth n = d
  numIn : ∀ p, 0 < p → p < d → (s.desc n p).numInNodes = (s.links.inNodes n).length
  numOut : ∀ p, 0 < p → p < d → (s.desc n p).numOutNodes = (s.links.outNodes n).length
  prevPipe : ∀ p < d, (s.desc n p).prevPipe = if 1 < d then some ((p + d - 1) % d) else none

theorem piped_congr {d : Nat} {s t : GraphState} {n : Nat} (h : Piped d s n) (hl : t.links = s.links)
    (hd : t.nodePipelineDepth n = s.nodePipelineDepth n) (hn : t.desc n = s.desc n) : Piped d t n := by
  obtain ⟨h₁, h₂, h₃, h₄⟩ := h
  rw [← hl, ← hn] at h₂
  rw [← hl, ← hn] at h₃
  rw [← hn] at h₄
  exact ⟨hd.trans h₁, h₂, h₃, h₄⟩

/-- What an allocation of descriptors leaves as it is. -/
structure AllocKeeps (s t : GraphState) : Prop where
  verified : t.verified = s.verified
  nodes : t.nodes = s.nodes
  links : t.links = s.links
  headNodes : t.headNodes = s.headNodes
  numLeafNodes : t.numLeafNodes = s.numLeafNodes
  pipelineDepth : t.pipelineDepth = s.pipelineDepth

theorem AllocKeeps.trans {s t u : GraphState} (h : AllocKeeps s t) (h' : AllocKeeps t u) : AllocKeeps s u :=
  ⟨h'.1.trans h.1, h'.2.trans h.2, h'.3.trans h.3, h'.4.trans h.4, h'.5.trans h.5, h'.6.trans h.6⟩

theorem allocObjDesc_ok {allocates : Nat → Bool} {d n : Nat} {s t : GraphState} (hd : 0 < d)
    (h1 : s.nodePipelineDepth n = 1) (hp : (s.desc n 0).prevPipe = none)
    (h : ownNodeAllocObjDescForPipeline allocates d s n = .ok t) :
    AllocKeeps s t ∧ Piped d t n ∧ ∀ m, m ≠ n → t.nodePipelineDepth m = s.nodePipelineDepth m ∧ t.desc m = s.desc m := by
  unfold ownNodeAllocObjDescForPipeline at h
  by_cases hc : s.nodePipelineDepth n = 1 ∧ 1 < d
  · rw [if_pos hc] at h
    simp only at h
    split at h
    · cases h
      refine ⟨⟨rfl, rfl, rfl, rfl, rfl, rfl⟩, ⟨?_, ?_, ?_, ?_⟩, fun m hm => ?_⟩
      · simp
      · intro p hp hpd
        simp [hp, hpd]
      · intro p hp hpd
        simp [hp, hpd]
      · intro p hpd
        simp [hpd, hc.2]
      · simp only [Function.update_of_ne hm, and_self]
    · cases h
  · rw [if_neg hc] at h
    cases h
    have hd1 : d = 1 := by omega
    subst hd1
    refine ⟨⟨rfl, rfl, rfl, rfl, rfl, rfl⟩, ⟨h1, fun p hp hpd => by omega, fun p hp hpd => by omega, fun p hpd => ?_⟩,
      fun _ _ => ⟨rfl, rfl⟩⟩
    have hp0 : p = 0 := by omega
    rw [hp0, hp]
    rfl

/-- The nodes of a list get their descriptors. -/
theorem allocObjDescs_ok {allocates : Nat → Bool} {d : Nat} {l : List Nat} {s t : GraphState} (hl : l.Nodup) (hd : 0 < d)
    (hs : s.Unpiped) (h : l.foldlM (ownNodeAllocObjDescForPipeline allocates d) s = .ok t) :
    AllocKeeps s t ∧ ∀ n ∈ l, Piped d t n := by
  have hI : AllocKeeps s t ∧ (∀ n ∈ l, Piped d t n) ∧
      ∀ n, n ∉ l → t.nodePipelineDepth n = s.nodePipelineDepth n ∧ t.desc n = s.desc n := by
    refine FoldExcept.inv (I := fun l t => AllocKeeps s t ∧ (∀ n ∈ l, Piped d t n) ∧
      ∀ n, n ∉ l → t.nodePipelineDepth n = s.nodePipelineDepth n ∧ t.desc n = s.desc n)
      ⟨⟨rfl, rfl, rfl, rfl, rfl, rfl⟩, fun n hn => (List.not_mem_nil hn).elim, fun n _ => ⟨rfl, rfl⟩⟩ ?_ h
    rintro done n rest u v hl' ⟨hk, hp, hsame⟩ hv
    have hn : n ∉ done := by
      rw [hl', List.nodup_append] at hl
      exact fun hm => hl.2.2 n hm n List.mem_cons_self rfl
    obtain ⟨hnd, hnp⟩ := hsame n hn
    obtain ⟨hk', hpn, hother⟩ := allocObjDesc_ok hd (hnd.trans (hs.depth n)) (by rw [hnp]; exact hs.prevPipe n) hv
    refine ⟨hk.trans hk', fun m hm => ?_, fun m hm => ?_⟩
    · by_cases hmn : m = n
      · exact hmn ▸ hpn
      · obtain ⟨h₁, h₂⟩ := hother m hmn
        refine piped_congr (hp m ?_) hk'.links h₁ h₂
        rcases List.mem_append.1 hm with hm | hm
        · exact hm
        · exact absurd (List.mem_singleton.1 hm) hmn
    · rw [List.mem_append, List.mem_singleton, not_or] at hm
      obtain ⟨h₁, h₂⟩ := hother m hm.2
      obtain ⟨h₃, h₄⟩ := hsame m hm.1
      exact ⟨h₁.trans h₃, h₂.trans h₄⟩
  exact ⟨hI.1, hI.2.1⟩

/-- The lists of the descriptors of node `n` beyond the first name the descriptors of the same pipeline. -/
def LinkedDescs (d : Nat) (s : GraphState) (n : Nat) : Prop :=
  ∀ p, 0 < p → p < d →
    (∀ i m, (s.links.inNodes n)[i]? = some m → (s.desc n p).inNodeId i = s.ownNodeGetObjDescId p m) ∧
    ∀ i m, (s.links.outNodes n)[i]? = some m → (s.desc n p).outNodeId i = s.ownNodeGetObjDescId p m

/-- **What the linking of the descriptors does.** -/
theorem linkObjDescs {d : Nat} {l : List Nat} {s : GraphState} (hp : ∀ n ∈ l, Piped d s n) :
    AllocKeeps s (l.foldl ownNodeLinkObjDescForPipeline s) ∧
      ∀ n ∈ l, Piped d (l.foldl ownNodeLinkObjDescForPipeline s) n ∧
        LinkedDescs d (l.foldl ownNodeLinkObjDescForPipeline s) n := by
  have hone : ∀ (s : GraphState) (n m : Nat), Piped d s m → Piped d (ownNodeLinkObjDescForPipeline s n) m := by
    intro s n m h
    by_cases hm : m = n
    · subst hm
      refine ⟨h.depth, fun p h0 hpd => ?_, fun p h0 hpd => ?_, fun p hpd => ?_⟩
      · simp only [ownNodeLinkObjDescForPipeline, Function.update_self, h.depth]
        rw [if_pos ⟨h0, hpd⟩]
        exact h.numIn p h0 hpd
      · simp only [ownNodeLinkObjDescForPipeline, Function.update_self, h.depth]
        rw [if_pos ⟨h0, hpd⟩]
        exact h.numOut p h0 hpd
      · rw [← h.prevPipe p hpd]
        simp only [ownNodeLinkObjDescForPipeline, Function.update_self]
        split <;> rfl
    · exact piped_congr h rfl rfl (by simp [ownNodeLinkObjDescForPipeline, Function.update_of_ne hm])
  have hself : ∀ (s : GraphState) (n : Nat), Piped d s n → LinkedDescs d (ownNodeLinkObjDescForPipeline s n) n := by
    intro s n h p h0 hpd
    simp only [ownNodeLinkObjDescForPipeline, Function.update_self, h.depth]
    rw [if_pos ⟨h0, hpd⟩]
    constructor <;> intro i m hm <;> simp only [overwrite, hm] <;> rfl
  have hother : ∀ (s : GraphState) (n m : Nat), m ≠ n → LinkedDescs d s m →
      LinkedDescs d (ownNodeLinkObjDescForPipeline s n) m := by
    intro s n m hm h p h0 hpd
    simp only [ownNodeLinkObjDescForPipeline, Function.update_of_ne hm]
    exact h p h0 hpd
  -- by induction on the list, with the nodes linked so far
  have hrun : ∀ (l : List Nat) (s : GraphState), (∀ n ∈ l, Piped d s n) →
      AllocKeeps s (l.foldl ownNodeLinkObjDescForPipeline s) ∧
      (∀ n, Piped d s n → Piped d (l.foldl ownNodeLinkObjDescForPipeline s) n) ∧
      (∀ n, Piped d s n → LinkedDescs d s n → LinkedDescs d (l.foldl ownNodeLinkObjDescForPipeline s) n) ∧
      ∀ n ∈ l, LinkedDescs d (l.foldl ownNodeLinkObjDescForPipeline s) n := by
    intro l
    induction l with
    | nil => exact fun s _ => ⟨⟨rfl, rfl, rfl, rfl, rfl, rfl⟩, fun n h => h, fun n _ h => h, fun n hn => (List.not_mem_nil hn).elim⟩
    | cons k l ih =>
      intro s hp
      have hk := hp k List.mem_cons_self
      have hall : ∀ n ∈ l, Piped d (ownNodeLinkObjDescForPipeline s k) n :=
        fun n hn => hone s k n (hp n (List.mem_cons_of_mem k hn))
      obtain ⟨h₁, h₂, h₃, h₄⟩ := ih _ hall
      refine ⟨AllocKeeps.trans (t := ownNodeLinkObjDescForPipeline s k) ⟨rfl, rfl, rfl, rfl, rfl, rfl⟩ h₁, fun n h => h₂ n (hone s k n h), fun n h hl => ?_, fun n hn => ?_⟩
      · by_cases hn : n = k
        · subst hn
          exact h₃ n (hone s n n h) (hself s n h)
        · exact h₃ n (hone s k n h) (hother s k n hn hl)
      · rcases List.mem_cons.1 hn with rfl | hn
        · exact h₃ n (hone s n n hk) (hself s n hk)
        · exact h₄ n hn
  obtain ⟨h₁, h₂, -, h₄⟩ := hrun l s hp
  exact ⟨h₁, fun n hn => ⟨h₂ n (hp n hn), h₄ n hn⟩⟩

section Pipeline

variable {K : Nat → VxKernel} {s u : GraphState}

/-- The depth is not zero. -/
theorem calcPipelineDepth_pos (hK : ∀ k, 0 < (K k).numPipeupBufs) (hne : s.nodes ≠ []) : 0 < s.calcPipelineDepth K := by
  unfold calcPipelineDepth
  obtain ⟨n, l, hl⟩ := List.exists_cons_of_ne_nil hne
  rw [hl, List.foldl_cons]
  have hfirst : ∀ d : Nat, 0 < if d ≤ (K (s.node n).kernel).numPipeupBufs then (K (s.node n).kernel).numPipeupBufs else d := by
    intro d
    have := hK (s.node n).kernel
    split <;> omega
  refine List.foldlRecOn l _ (hfirst _) (fun d hd m _ => ?_)
  split
  · exact hK _
  · exact hd

/-- **The nodes get their descriptors**, which are linked. -/
theorem pipelineNodes_ok {allocates : Nat → Bool} (hn : s.nodes.Nodup) (hd : 0 < s.calcPipelineDepth K) (hs : s.Unpiped)
    (h : pipelineNodes K allocates s = .ok u) :
    AllocKeeps { s with pipelineDepth := s.calcPipelineDepth K } u ∧
      ∀ n ∈ s.nodes, Piped (s.calcPipelineDepth K) u n ∧ LinkedDescs (s.calcPipelineDepth K) u n := by
  obtain ⟨t, ht, hu⟩ := FoldExcept.bind_eq_ok.1 h
  obtain ⟨hkeep, hpiped⟩ := allocObjDescs_ok hn hd (s := { s with pipelineDepth := s.calcPipelineDepth K })
    ⟨hs.depth, hs.prevPipe⟩ ht
  cases hu
  have hnodes : t.nodes = s.nodes := hkeep.nodes
  rw [hnodes]
  obtain ⟨hkeep', hlinked⟩ := linkObjDescs hpiped
  exact ⟨hkeep.trans hkeep', hlinked⟩

end Pipeline

end GraphState

end Tiovx
