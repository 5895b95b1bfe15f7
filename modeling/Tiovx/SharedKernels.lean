import Tiovx.LiveNodes
/-!
# SharedKernels — what a graph is given, whatever other graphs of the context do

The graphs of a context share the area of the sort and a number in each kernel, `connected_sink_bufs`, which a verification
raises where a source of the kernel leads to a sink and never sets back.  A later verification of another graph that uses the
kernel then gives its outputs more buffers.  A graph gets the same in all runs with the same calls of its own in which no
verification of another graph raises that number for a kernel it uses.
-/
namespace Tiovx

/-- A context, with its graphs. -/
structure VxContext where
  shared : SharedState := {}
  graph : Nat → GraphState := fun _ => {}

/-- A call for a graph: one that reads and writes only what is the graph's own (to create it or its nodes, to set, schedule,
release), or `vxVerifyGraph`. -/
inductive ContextAct
  | edit (g : Nat) (f : GraphState → GraphState)
  | verifyGraph (g : Nat) (o : VerifyOutcome)

/-- The graph a call is for. -/
def ContextAct.graph : ContextAct → Nat
  | .edit g _ => g
  | .verifyGraph g _ => g

section Context

variable (K : Nat → VxKernel)

/-- **One call.** -/
def contextStep (s : VxContext) : ContextAct → VxContext
  | .edit g f => { s with graph := Function.update s.graph g (f (s.graph g)) }
  | .verifyGraph g o =>
    let R := GraphState.vxVerifyGraph K o s.shared (s.graph g)
    { shared := R.1, graph := Function.update s.graph g R.2 }

/-- The calls in order. -/
def runActs (s : VxContext) (l : List ContextAct) : VxContext := l.foldl (contextStep K) s

/-- Graph `t` has a node of kernel `k` that leads to a sink with more buffers than `c` says: the branch of
`ownGraphDetectSourceSink` that raises `connected_sink_bufs`. -/
def RaisesIn (t : GraphState) (c : Nat → Nat) (k : Nat) : Prop :=
  ∃ n ∈ t.nodes, (t.node n).kernel = k ∧ 1 < (K k).numPipeupBufs ∧
    ∃ m ∈ t.links.outNodes n, 1 < (K (t.node m).kernel).numSinkBufs ∧ c k < (K (t.node m).kernel).numSinkBufs

instance (t : GraphState) (c : Nat → Nat) (k : Nat) : Decidable (RaisesIn K t c k) :=
  inferInstanceAs (Decidable (∃ n ∈ t.nodes, _ ∧ _))

/-- A verification of graph `g` raises `connected_sink_bufs` of kernel `k`. -/
def Raises (s : VxContext) (g : Nat) (o : VerifyOutcome) (k : Nat) : Prop :=
  let R := GraphState.sortStage o s.shared (s.graph g)
  R.2.2 = true ∧ RaisesIn K R.2.1 s.shared.connectedSinkBufs k

instance (s : VxContext) (g : Nat) (o : VerifyOutcome) (k : Nat) : Decidable (Raises K s g o k) :=
  inferInstanceAs (Decidable (_ ∧ _))

/-- **Graph `g`, with kernels in `U`, is not disturbed by a call**: a graph that is verified names no released node, and
another graph raises no kernel in `U`. -/
def StepUndisturbed (g : Nat) (U : Nat → Prop) (s : VxContext) : ContextAct → Prop
  | .edit _ _ => True
  | .verifyGraph h o =>
    (s.graph h).Live ∧
      if h = g then ∀ n ∈ (s.graph g).known, U ((s.graph g).node n).kernel else ∀ k, U k → ¬ Raises K s h o k

instance (g b : Nat) (s : VxContext) : (a : ContextAct) → Decidable (StepUndisturbed K g (fun k => k < b) s a)
  | .edit _ _ => inferInstanceAs (Decidable True)
  | .verifyGraph _ _ => inferInstanceAs (Decidable (_ ∧ _))

/-- Every call of a run leaves graph `g` undisturbed. -/
def Undisturbed (g : Nat) (U : Nat → Prop) : VxContext → List ContextAct → Prop
  | _, [] => True
  | s, a :: l => StepUndisturbed K g U s a ∧ Undisturbed g U (contextStep K s a) l

instance undisturbedDecidable (g b : Nat) :
    (s : VxContext) → (l : List ContextAct) → Decidable (Undisturbed K g (fun k => k < b) s l)
  | _, [] => inferInstanceAs (Decidable True)
  | s, a :: l =>
    have := undisturbedDecidable g b (contextStep K s a) l
    inferInstanceAs (Decidable (StepUndisturbed K g (fun k => k < b) s a ∧ Undisturbed K g (fun k => k < b) _ l))

/-- The calls for graph `g`. -/
def callsFor (g : Nat) (l : List ContextAct) : List ContextAct := l.filter (fun a => a.graph = g)

end Context

namespace GraphState

section Detect

variable {K : Nat → VxKernel} {s : GraphState} {c c' : Nat → Nat} {k n m : Nat}

theorem detectSink_le (c : Nat → Nat) (n m k : Nat) : c k ≤ s.detectSink K n c m k := by
  unfold detectSink
  split
  · rename_i h
    simp only [Function.update_apply]
    split
    · rename_i hk
      rw [hk]
      exact Nat.le_of_lt h.2
    · exact Nat.le_refl _
  · exact Nat.le_refl _

theorem le_detectSink (c : Nat → Nat) (h : 1 < (K (s.node m).kernel).numSinkBufs) :
    (K (s.node m).kernel).numSinkBufs ≤ s.detectSink K n c m (s.node n).kernel := by
  unfold detectSink
  split
  · rw [Function.update_self]
  · rename_i hn
    exact Nat.le_of_not_lt (fun hlt => hn ⟨h, hlt⟩)

theorem detectSinks_le (l : List Nat) (c : Nat → Nat) (n k : Nat) : c k ≤ l.foldl (s.detectSink K n) c k := by
  induction l generalizing c with
  | nil => exact Nat.le_refl _
  | cons m l ih => exact Nat.le_trans (detectSink_le c n m k) (ih _)

theorem detectSource_le (c : Nat → Nat) (n k : Nat) : c k ≤ s.detectSource K c n k := by
  unfold detectSource
  split
  · exact detectSinks_le _ c n k
  · exact Nat.le_refl _

theorem detectSources_le (l : List Nat) (c : Nat → Nat) (k : Nat) : c k ≤ l.foldl (s.detectSource K) c k := by
  induction l generalizing c with
  | nil => exact Nat.le_refl _
  | cons n l ih => exact Nat.le_trans (detectSource_le c n k) (ih _)

/-- A source is given at least what each of its sinks wants. -/
theorem le_detectSource (c : Nat → Nat) (hs : 1 < (K (s.node n).kernel).numPipeupBufs) (hm : m ∈ s.links.outNodes n)
    (h : 1 < (K (s.node m).kernel).numSinkBufs) :
    (K (s.node m).kernel).numSinkBufs ≤ s.detectSource K c n (s.node n).kernel := by
  unfold detectSource
  rw [if_pos hs]
  obtain ⟨p, q, hpq⟩ := List.append_of_mem hm
  rw [hpq, List.foldl_append, List.foldl_cons]
  exact Nat.le_trans (le_detectSink _ h) (detectSinks_le _ _ _ _)

theorem detectSource_of_not_raises (hk : c' k = c k) (hn : n ∈ s.nodes) (h : ¬ RaisesIn K s c k) :
    s.detectSource K c' n k = c k := by
  unfold detectSource
  split
  · rename_i hs
    refine List.foldlRecOn (motive := fun (d : Nat → Nat) => d k = c k) _ _ hk (fun d hd m hm => ?_)
    unfold detectSink
    split
    · rename_i hraise
      simp only [Function.update_apply]
      split
      · rename_i hnk
        subst hnk
        rw [hd] at hraise
        exact absurd ⟨n, hn, rfl, hs, m, hm, hraise⟩ h
      · exact hd
    · exact hd
  · exact hk

/-- **`connected_sink_bufs` of a kernel is raised exactly where a source of it leads to a sink that wants more.** -/
theorem detectSourceSink_eq_iff : s.ownGraphDetectSourceSink K c k = c k ↔ ¬ RaisesIn K s c k := by
  constructor
  · rintro he ⟨n, hn, rfl, hs, m, hm, hbufs, hlt⟩
    unfold ownGraphDetectSourceSink at he
    obtain ⟨p, q, hpq⟩ := List.append_of_mem hn
    rw [hpq, List.foldl_append, List.foldl_cons] at he
    have hle : (K (s.node m).kernel).numSinkBufs ≤ c (s.node n).kernel :=
      he ▸ Nat.le_trans (le_detectSource (p.foldl (s.detectSource K) c) hs hm hbufs) (detectSources_le q _ _)
    exact absurd hlt (Nat.not_lt.2 hle)
  · intro h
    exact List.foldlRecOn (motive := fun (d : Nat → Nat) => d k = c k) _ _ rfl
      (fun d hd n hn => detectSource_of_not_raises hd hn h)

variable {U : Nat → Prop}

/-- Where two numbers agree on the kernels of a graph, what the graph raises them to agrees. -/
theorem detectSourceSink_congr (hU : ∀ n ∈ s.nodes, U (s.node n).kernel) (hc : ∀ k, U k → c k = c' k) :
    ∀ k, U k → s.ownGraphDetectSourceSink K c k = s.ownGraphDetectSourceSink K c' k := by
  refine List.foldl_rel (r := fun (d d' : Nat → Nat) => ∀ k, U k → d k = d' k) hc (fun n hn d d' hd => ?_)
  unfold detectSource
  split
  · refine List.foldl_rel (r := fun (d d' : Nat → Nat) => ∀ k, U k → d k = d' k) hd (fun m _ d d' hd k hk => ?_)
    unfold detectSink
    simp only [← hd _ (hU n hn)]
    split
    · simp only [Function.update_apply]
      split
      · rfl
      · exact hd k hk
    · exact hd k hk
  · exact hd

end Detect

section Finish

variable {K : Nat → VxKernel} {o : VerifyOutcome} {s t u : GraphState}

/-- The nodes of a graph are kept, with their kernels. -/
def SameNodes (s t : GraphState) : Prop := t.nodes = s.nodes ∧ ∀ n, (t.node n).kernel = (s.node n).kernel

theorem SameNodes.trans (h : s.SameNodes t) (h' : t.SameNodes u) : s.SameNodes u :=
  ⟨h'.1.trans h.1, fun n => (h'.2 n).trans (h.2 n)⟩

theorem check_eq_ok {b : Bool} : check b s = .ok t ↔ b = true ∧ t = s := by
  unfold check
  cases b with
  | true => simp [eq_comm]
  | false => simp

theorem sameNodes_calcHeadAndLeafNodes (h : ownGraphCalcHeadAndLeafNodes s = .ok t) : s.SameNodes t := by
  have h0 : s.SameNodes { s with headNodes := [], numLeafNodes := 0 } := ⟨rfl, fun _ => rfl⟩
  refine FoldExcept.keep (I := fun t => s.SameNodes t) h0 (fun n _ u v hu hv => ?_) h
  obtain ⟨w, hw, hv⟩ := FoldExcept.bind_eq_ok.1 hv
  have huw : u.SameNodes w := by
    unfold addHeadNode at hw
    split at hw
    · split at hw
      · cases hw
      · cases hw
        exact ⟨rfl, fun _ => rfl⟩
    · cases hw
      exact ⟨rfl, fun _ => rfl⟩
  have hwv : w.SameNodes v := by
    unfold addLeafNode at hv
    split at hv
    · split at hv
      · cases hv
      · cases hv
        exact ⟨rfl, fun _ => rfl⟩
    · cases hv
      exact ⟨rfl, fun _ => rfl⟩
  exact (hu.trans huw).trans hwv

theorem sameNodes_detectAndSetNumBuf (s : GraphState) : s.SameNodes s.ownGraphDetectAndSetNumBuf := by
  unfold ownGraphDetectAndSetNumBuf
  split
  · refine ⟨rfl, fun n => ?_⟩
    simp only
    split
    · rfl
    · rfl
  · exact ⟨rfl, fun _ => rfl⟩

theorem sameNodes_pipelineNodes {allocates : Nat → Bool} (h : pipelineNodes K allocates s = .ok t) : s.SameNodes t := by
  obtain ⟨u, hu, ht⟩ := FoldExcept.bind_eq_ok.1 h
  have hsu : s.SameNodes u := by
    have h0 : s.SameNodes { s with pipelineDepth := s.calcPipelineDepth K } := ⟨rfl, fun _ => rfl⟩
    refine FoldExcept.keep (I := fun u => s.SameNodes u) h0 (fun n _ v w hv hw => ?_) hu
    unfold ownNodeAllocObjDescForPipeline at hw
    split at hw
    · simp only at hw
      split at hw
      · cases hw
        exact hv
      · cases hw
    · cases hw
      exact hv
  cases ht
  exact List.foldlRecOn (motive := fun t => s.SameNodes t) _ _ hsu (fun v hv n _ => hv)

theorem sameNodes_collect (h : collect K o s = .ok t) : s.SameNodes t := by
  obtain ⟨s₁, h₁, h⟩ := FoldExcept.bind_eq_ok.1 h
  obtain ⟨s₂, h₂, h⟩ := FoldExcept.bind_eq_ok.1 h
  obtain ⟨s₃, h₃, h⟩ := FoldExcept.bind_eq_ok.1 h
  obtain ⟨s₄, h₄, h⟩ := FoldExcept.bind_eq_ok.1 h
  obtain ⟨s₅, h₅, h⟩ := FoldExcept.bind_eq_ok.1 h
  obtain ⟨s₆, h₆, h⟩ := FoldExcept.bind_eq_ok.1 h
  obtain ⟨s₇, h₇, h⟩ := FoldExcept.bind_eq_ok.1 h
  have e₁ : s₁ = s := (check_eq_ok.1 h₁).2
  have e₂ : s₂ = s₁ := by
    unfold ownGraphValidateParameters at h₂
    split at h₂
    · exact (Except.ok.inj h₂).symm
    · cases h₂
  have e₃ : s₃ = s₂ := by
    unfold ownGraphLinkParameters at h₃
    split at h₃
    · exact (Except.ok.inj h₃).symm
    · cases h₃
  have e₄ : s₄ = s₃ := by
    unfold ownGraphValidatePipelineParameters at h₄
    split at h₄
    · cases h₄
    · exact (Except.ok.inj h₄).symm
  have e₅ : s₄.SameNodes s₅ := sameNodes_calcHeadAndLeafNodes h₅
  have e₆ : s₅.SameNodes s₆ := by
    unfold ownGraphFindAndAddDataReferences at h₆
    simp only at h₆
    split at h₆
    · cases h₆
      exact ⟨rfl, fun _ => rfl⟩
    · cases h₆
  have e₇ : s₆.SameNodes s₇ := (check_eq_ok.1 h₇).2 ▸ sameNodes_detectAndSetNumBuf s₆
  rw [e₄, e₃, e₂, e₁] at e₅
  exact ((e₅.trans e₆).trans e₇).trans (sameNodes_pipelineNodes h)

variable {c c' : Nat → Nat}

/-- The numbers of buffers depend on the numbers of the kernels of the graph only. -/
theorem addDataRefQs_congr (creates : Nat → Nat → Bool) (hc : ∀ n ∈ s.nodes, c (s.node n).kernel = c' (s.node n).kernel) :
    addDataRefQs K c creates s = addDataRefQs K c' creates s := by
  unfold addDataRefQs
  split
  · refine FoldExcept.congr (I := fun t => t.node = s.node) rfl (fun x _ t u ht hu => ?_) (fun x hx t ht => ?_)
    · unfold ownGraphAddDataRefQ at hu
      split at hu
      · cases hu
        exact ht
      · split at hu
        · cases hu
          exact ht
        · simp only at hu
          split at hu
          · cases hu
            exact ht
          · cases hu
    · obtain ⟨n, hn, hx⟩ := List.mem_flatMap.1 hx
      obtain ⟨i, -, rfl⟩ := List.mem_map.1 hx
      have hbuf : t.ownNodeGetParameterNumBuf K c n i = t.ownNodeGetParameterNumBuf K c' n i := by
        unfold ownNodeGetParameterNumBuf
        rw [ht, hc n hn]
      unfold ownGraphAddDataRefQ
      rw [hbuf]
  · rfl

theorem finish_congr (hc : ∀ n ∈ s.nodes, c (s.node n).kernel = c' (s.node n).kernel) :
    finish K c o s = finish K c' o s := by
  unfold finish
  cases ht : collect K o s with
  | error t => rfl
  | ok t =>
    obtain ⟨hnodes, hkernel⟩ := sameNodes_collect ht
    have hadd : addDataRefQs K c o.createsRefs t = addDataRefQs K c' o.createsRefs t := by
      refine addDataRefQs_congr _ (fun n hn => ?_)
      rw [hkernel]
      exact hc n (hnodes ▸ hn)
    simp only [bind, Except.bind, hadd]

end Finish

section Verify

variable {K : Nat → VxKernel} {o : VerifyOutcome} {S S' : SharedState} {s : GraphState} {U : Nat → Prop}

/-- What is done up to the sort depends on nothing that is shared. -/
theorem sortStage_shared (o : VerifyOutcome) (S S' : SharedState) (s : GraphState) :
    (sortStage o S s).2 = (sortStage o S' s).2 := by
  unfold sortStage
  split
  · split
    · simp only
      split
      · simp only
        rw [topologicalSort_shared S.sort S'.sort]
      · rfl
    · rfl
  · rfl

theorem connectedSinkBufs_sortStage (o : VerifyOutcome) (S : SharedState) (s : GraphState) :
    (sortStage o S s).1.connectedSinkBufs = S.connectedSinkBufs := by
  unfold sortStage
  split
  · split
    · simp only
      split
      · rfl
      · rfl
    · rfl
  · rfl

/-- The graph that a verification goes on with names no released node. -/
theorem live_sortStage (hs : s.Live) (h : (sortStage o S s).2.2 = true) :
    (sortStage o S s).2.1.Live ∧ s.SameObjects (sortStage o S s).2.1 := by
  unfold sortStage at h ⊢
  split at h
  · rename_i hent
    split at h
    · rename_i hde
      rw [if_pos hent, if_pos hde]
      simp only at h ⊢
      cases ht : prepare o { s with verified := false } with
      | error t =>
        rw [ht] at h
        cases h
      | ok t =>
        have hs' : { s with verified := false }.Live := ⟨hs.nodes, hs.links⟩
        obtain ⟨ht, hst⟩ := live_prepare hs' ht
        obtain ⟨hu, htu⟩ := live_sort S.sort ht
        have hsu : s.SameObjects t := ⟨hst.known, hst.kernel⟩
        exact ⟨hu, hsu.trans htu⟩
    · cases h
  · cases h

/-- **A verification gives a graph the same** in two contexts that agree on the kernels of the graph, and leaves them so. -/
theorem vxVerifyGraph_congr (hs : s.Live) (hU : ∀ n ∈ s.known, U (s.node n).kernel)
    (hc : ∀ k, U k → S.connectedSinkBufs k = S'.connectedSinkBufs k) :
    (vxVerifyGraph K o S s).2 = (vxVerifyGraph K o S' s).2 ∧
      ∀ k, U k → (vxVerifyGraph K o S s).1.connectedSinkBufs k = (vxVerifyGraph K o S' s).1.connectedSinkBufs k := by
  have hsort := sortStage_shared o S S' s
  unfold vxVerifyGraph
  simp only [← hsort]
  split
  · rename_i hgo
    obtain ⟨hlive, hobj⟩ := live_sortStage hs hgo
    have hnodes : ∀ n ∈ (sortStage o S s).2.1.nodes, U ((sortStage o S s).2.1.node n).kernel := by
      intro n hn
      rw [hobj.kernel]
      exact hU n (hobj.known ▸ hlive.nodes n hn)
    rw [connectedSinkBufs_sortStage, connectedSinkBufs_sortStage]
    have hdetect := detectSourceSink_congr (K := K) hnodes hc
    refine ⟨?_, hdetect⟩
    simp only
    rw [finish_congr (fun n hn => hdetect _ (hnodes n hn))]
  · refine ⟨rfl, ?_⟩
    rw [connectedSinkBufs_sortStage, connectedSinkBufs_sortStage]
    exact hc

end Verify

end GraphState

section Runs

variable {K : Nat → VxKernel} {g : Nat} {U : Nat → Prop} {s t : VxContext}

/-- Two contexts agree on graph `g` and on the kernels in `U`. -/
structure Agree (g : Nat) (U : Nat → Prop) (s t : VxContext) : Prop where
  graph : s.graph g = t.graph g
  sinkBufs : ∀ k, U k → s.shared.connectedSinkBufs k = t.shared.connectedSinkBufs k

/-- A call for graph `g` does the same in contexts that agree. -/
theorem Agree.own {a : ContextAct} (h : Agree g U s t) (ha : a.graph = g) (hs : StepUndisturbed K g U s a) :
    Agree g U (contextStep K s a) (contextStep K t a) := by
  cases a with
  | edit g' f =>
    obtain rfl : g' = g := ha
    refine ⟨?_, h.sinkBufs⟩
    simp only [contextStep, Function.update_self]
    exact congrArg f h.graph
  | verifyGraph g' o =>
    obtain rfl : g' = g := ha
    obtain ⟨hlive, hU⟩ := hs
    rw [if_pos rfl] at hU
    obtain ⟨hgraph, hbufs⟩ := GraphState.vxVerifyGraph_congr (K := K) (o := o) hlive hU h.sinkBufs
    simp only [contextStep]
    rw [← h.graph]
    refine ⟨?_, hbufs⟩
    simp only [Function.update_self]
    exact hgraph

/-- A call for another graph keeps the agreement. -/
theorem Agree.other {a : ContextAct} (h : Agree g U s t) (ha : a.graph ≠ g) (hs : StepUndisturbed K g U s a) :
    Agree g U (contextStep K s a) t := by
  cases a with
  | edit g' f =>
    have hne : g ≠ g' := fun he => ha he.symm
    refine ⟨?_, h.sinkBufs⟩
    simp only [contextStep]
    rw [Function.update_of_ne hne]
    exact h.graph
  | verifyGraph g' o =>
    have hne : g ≠ g' := fun he => ha he.symm
    obtain ⟨-, hraise⟩ := hs
    rw [if_neg (Ne.symm hne)] at hraise
    simp only [contextStep]
    refine ⟨?_, fun k hk => ?_⟩
    · exact (Function.update_of_ne hne _ _).trans h.graph
    · rw [← h.sinkBufs k hk]
      unfold GraphState.vxVerifyGraph
      simp only
      split
      · rename_i hgo
        simp only [GraphState.connectedSinkBufs_sortStage]
        exact GraphState.detectSourceSink_eq_iff.2 (fun hr => hraise k hk ⟨hgo, hr⟩)
      · rw [GraphState.connectedSinkBufs_sortStage]

/-- A run leaves graph `g` as its calls alone do. -/
theorem Agree.run (l : List ContextAct) (h : Agree g U s t) (hl : Undisturbed K g U s l) :
    Agree g U (runActs K s l) (runActs K t (callsFor g l)) := by
  induction l generalizing s t with
  | nil => exact h
  | cons a l ih =>
    obtain ⟨ha, hl⟩ := hl
    unfold callsFor
    rw [List.filter_cons]
    split
    · rename_i hg
      exact ih (h.own (by simpa using hg) ha) hl
    · rename_i hg
      exact ih (h.other (by simpa using hg) ha) hl

/-- **A graph is given the same, whatever other graphs of the context do**: two runs with the same calls for graph `g`, which
no call of either run disturbs, leave graph `g` equal. -/
theorem graph_eq_of_undisturbed {l l' : List ContextAct} (hl : Undisturbed K g U s l) (hl' : Undisturbed K g U s l')
    (hown : callsFor g l = callsFor g l') : (runActs K s l).graph g = (runActs K s l').graph g := by
  have h := Agree.run l ⟨rfl, fun _ _ => rfl⟩ hl
  have h' := Agree.run l' ⟨rfl, fun _ _ => rfl⟩ hl'
  rw [h.graph, h'.graph, hown]

end Runs

section Examples

/-- Kernel 0 is a source with two buffers, kernel 1 a sink that wants three; kernel 2 is neither. -/
def sourceKernels : Nat → VxKernel
  | 0 => { numPipeupBufs := 2 }
  | 1 => { numSinkBufs := 3 }
  | _ => {}

/-- A node of kernel 0 writes what a node of kernel `k` reads. -/
def sourceGraph (k : Nat) (_ : GraphState) : GraphState where
  node := fun n =>
    match n with
    | 0 => { kernel := 0, prms := [{ dir := .output, ref := some 0 }] }
    | 1 => { kernel := k, prms := [{ dir := .input, ref := some 0 }] }
    | _ => {}
  nodes := [0, 1]
  known := [0, 1]

/-- Graph 0 is created and verified. -/
def sourceAlone : List ContextAct := [.edit 0 (sourceGraph 2), .verifyGraph 0 {}]

/-- The same after graph 1, in which the source leads to the sink, is created, verified and released. -/
def sourceAfterSink : List ContextAct :=
  .edit 1 (sourceGraph 1) :: .verifyGraph 1 {} :: .edit 1 (fun _ => {}) :: sourceAlone

/-- Graph 0 is given four buffers in place of two where graph 1 was verified before. -/
theorem sourceAfterSink_differs :
    callsFor 0 sourceAfterSink = callsFor 0 sourceAlone ∧
    ((runActs sourceKernels {} sourceAlone).graph 0).dataRefQs.map DataRefQEntry.numBuf = [2] ∧
    ((runActs sourceKernels {} sourceAfterSink).graph 0).dataRefQs.map DataRefQEntry.numBuf = [4] ∧
    (runActs sourceKernels {} sourceAfterSink).graph 0 ≠ (runActs sourceKernels {} sourceAlone).graph 0 := by
  have h2 : ((runActs sourceKernels {} sourceAlone).graph 0).dataRefQs.map DataRefQEntry.numBuf = [2] := by decide +kernel
  have h4 : ((runActs sourceKernels {} sourceAfterSink).graph 0).dataRefQs.map DataRefQEntry.numBuf = [4] := by
    decide +kernel
  refine ⟨rfl, h2, h4, fun he => ?_⟩
  rw [he, h2] at h4
  cases h4

/-- The same after graph 1, in which the source leads to no sink, is created, verified and released. -/
def sourceAfterSource : List ContextAct :=
  .edit 1 (sourceGraph 2) :: .verifyGraph 1 {} :: .edit 1 (fun _ => {}) :: sourceAlone

/-- The graph is given the same two buffers where the other one shares the source and leads to no sink. -/
theorem sourceAfterSource_eq :
    (runActs sourceKernels {} sourceAfterSource).graph 0 = (runActs sourceKernels {} sourceAlone).graph 0 ∧
    ((runActs sourceKernels {} sourceAfterSource).graph 0).dataRefQs.map DataRefQEntry.numBuf = [2] := by
  have h : Undisturbed sourceKernels 0 (fun k => k < 3) {} sourceAfterSource := by decide +kernel
  have h' : Undisturbed sourceKernels 0 (fun k => k < 3) {} sourceAlone := by decide +kernel
  have he := graph_eq_of_undisturbed h h' rfl
  refine ⟨he, ?_⟩
  rw [he]
  decide +kernel

end Examples

end Tiovx
