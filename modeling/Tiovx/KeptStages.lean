import Tiovx.NodeOrder
/-!
# KeptStages — what the stages of a verification leave alone (`vx_graph_verify.c`)

Of all that a verification writes, the targets see the nodes with their lists and their descriptors.  Few stages touch these,
and only the last one marks the graph verified.
-/
namespace Tiovx

/-- The kernel of a node, and the references of its parameters. -/
structure Wiring where
  kernel : Nat
  enumeration : KernelEnum
  prms : List (Dir × Option Nat)

def VxNode.wiring (N : VxNode) : Wiring := ⟨N.kernel, N.enumeration, N.prms.map fun P => (P.dir, P.ref)⟩

namespace GraphState

/-- What the targets see of a graph, and whether it is verified. -/
structure Core where
  verified : Bool
  nodes : List Nat
  wiring : Nat → Wiring
  links : Links
  headNodes : List Nat
  numLeafNodes : Nat
  nodePipelineDepth : Nat → Nat
  pipelineDepth : Nat
  numInNodes : Nat → Nat → Nat
  numOutNodes : Nat → Nat → Nat
  inNodeId : Nat → Nat → Nat → Option (Nat × Nat)
  outNodeId : Nat → Nat → Nat → Option (Nat × Nat)
  prevPipe : Nat → Nat → Option Nat

def core (s : GraphState) : Core where
  verified := s.verified
  nodes := s.nodes
  wiring n := (s.node n).wiring
  links := s.links
  headNodes := s.headNodes
  numLeafNodes := s.numLeafNodes
  nodePipelineDepth := s.nodePipelineDepth
  pipelineDepth := s.pipelineDepth
  numInNodes n p := (s.desc n p).numInNodes
  numOutNodes n p := (s.desc n p).numOutNodes
  inNodeId n p := (s.desc n p).inNodeId
  outNodeId n p := (s.desc n p).outNodeId
  prevPipe n p := (s.desc n p).prevPipe

/-- A stage that leaves what `V` sees as it is, whether it succeeds or not. -/
def Keeps {β : Type} (V : GraphState → β) (f : Stage) : Prop := ∀ s, V (left (f s)) = V s

section Keeps

variable {β : Type} {V : GraphState → β} {f g : Stage}

theorem keeps_bind {x : Except GraphState GraphState} (hg : Keeps V g) : V (left (x.bind g)) = V (left x) := by
  cases x with
  | error s => rfl
  | ok s => exact hg s

theorem Keeps.bind (hf : Keeps V f) (hg : Keeps V g) : Keeps V (fun s => (f s).bind g) :=
  fun s => (keeps_bind hg).trans (hf s)

theorem Keeps.map {h : GraphState → GraphState} (hf : Keeps V f) (hh : ∀ s, V (h s) = V s) :
    Keeps V (fun s => f (h s)) :=
  fun s => (hf (h s)).trans (hh s)

theorem Keeps.comp {γ : Type} (hf : Keeps V f) (see : β → γ) : Keeps (fun s => see (V s)) f :=
  fun s => congrArg see (hf s)

theorem keeps_foldlM {α : Type} {f : GraphState → α → Except GraphState GraphState}
    (hf : ∀ a, Keeps V (fun s => f s a)) (l : List α) : Keeps V (fun s => l.foldlM f s) := by
  induction l with
  | nil => exact fun s => rfl
  | cons a l ih =>
    intro s
    simp only [List.foldlM_cons]
    exact (keeps_bind ih).trans (hf a s)

theorem keeps_foldl {α : Type} {f : GraphState → α → GraphState} (l : List α) (hf : ∀ s a, V (f s a) = V s)
    (s : GraphState) : V (l.foldl f s) = V s := by
  induction l generalizing s with
  | nil => rfl
  | cons a l ih => exact (ih (f s a)).trans (hf s a)

theorem Keeps.ok {s t : GraphState} (hf : Keeps V f) (h : f s = .ok t) : V t = V s := by
  rw [← hf s, h]
  rfl

theorem keeps_check (b : Bool) : Keeps V (check b) := by
  intro s
  unfold check
  split <;> rfl

theorem keeps_validateParameters : Keeps V ownGraphValidateParameters := by
  intro s
  unfold ownGraphValidateParameters
  split <;> rfl

theorem keeps_linkParameters : Keeps V ownGraphLinkParameters := by
  intro s
  unfold ownGraphLinkParameters
  split <;> rfl

theorem keeps_validatePipelineParameters : Keeps V ownGraphValidatePipelineParameters := by
  intro s
  unfold ownGraphValidatePipelineParameters
  split <;> rfl

theorem keeps_findAndAddDataReferences : Keeps core ownGraphFindAndAddDataReferences := by
  intro s
  unfold ownGraphFindAndAddDataReferences
  simp only
  split <;> rfl

/-- The numbers of buffers are set and no reference. -/
theorem wiring_detectNumBuf (s : GraphState) (N : VxNode) :
    VxNode.wiring { N with prms := N.prms.map s.detectNumBuf } = N.wiring := by
  unfold VxNode.wiring
  simp only [List.map_map, Wiring.mk.injEq, true_and]
  refine List.map_congr_left fun P _ => ?_
  unfold detectNumBuf
  simp only [Function.comp]
  split
  · split <;> rfl
  · rfl

theorem core_detectAndSetNumBuf (s : GraphState) : s.ownGraphDetectAndSetNumBuf.core = s.core := by
  unfold ownGraphDetectAndSetNumBuf
  split
  · unfold core
    simp only [Core.mk.injEq, true_and, and_true]
    funext n
    split
    · exact wiring_detectNumBuf s _
    · rfl
  · rfl

theorem keeps_addDataRefQ (K : Nat → VxKernel) (sinkBufs : Nat → Nat) (creates : Nat → Nat → Bool) (x : Nat × Nat) :
    Keeps core (fun s => ownGraphAddDataRefQ K sinkBufs creates s x) := by
  intro s
  simp only [ownGraphAddDataRefQ]
  split
  · rfl
  · split
    · rfl
    · split <;> rfl

theorem keeps_addDataRefQs (K : Nat → VxKernel) (sinkBufs : Nat → Nat) (creates : Nat → Nat → Bool) :
    Keeps core (addDataRefQs K sinkBufs creates) := by
  intro s
  unfold addDataRefQs
  split
  · exact keeps_foldlM (fun x => keeps_addDataRefQ K sinkBufs creates x) s.allPrms s
  · rfl

theorem core_linkArrayElements (s : GraphState) : s.ownGraphLinkArrayElements.core = s.core := by
  unfold ownGraphLinkArrayElements core
  simp only [Core.mk.injEq, true_and]
  refine ⟨?_, ?_, ?_, ?_, ?_⟩ <;> funext n p <;> split <;> rfl

theorem keeps_createDelaySlotQueue (n i d slot : Nat) : Keeps core (fun s => createDelaySlotQueue n i d s slot) := by
  intro s
  simp only [createDelaySlotQueue]
  split
  · rfl
  · split <;> rfl

theorem keeps_delayQueues (n i : Nat) : Keeps core (ownGraphCheckAndCreateDelayDataReferenceQueues n i) := by
  intro s
  unfold ownGraphCheckAndCreateDelayDataReferenceQueues
  split
  · rfl
  · split
    · exact keeps_foldlM (fun slot => keeps_createDelaySlotQueue n i _ slot) _ s
    · rfl

theorem keeps_graphParameterQueue (x : Nat × GraphParameter) : Keeps core (fun s => createGraphParameterQueue s x) := by
  intro s
  simp only [createGraphParameterQueue]
  split
  · exact keeps_delayQueues _ _ _
  · rfl

theorem keeps_intermediateQueue (k : Nat) : Keeps core (fun s => createIntermediateQueue s k) := by
  intro s
  simp only [createIntermediateQueue]
  split
  · exact keeps_delayQueues _ _ _
  · rfl

theorem keeps_primeQueues : Keeps core ownGraphPrimeDataReferenceQueues := by
  intro s
  unfold ownGraphPrimeDataReferenceQueues
  split
  · split
    · split <;> rfl
    · rfl
  · rfl

theorem core_linkDataRefQueue (q : QueueId) (s : GraphState) (n i : Nat) :
    (ownNodeLinkDataRefQueue q s n i).core = s.core := by
  unfold ownNodeLinkDataRefQueue core
  simp only [Core.mk.injEq, true_and]
  refine ⟨?_, ?_, ?_, ?_, ?_⟩ <;> funext m p <;> simp only [Function.update_apply] <;> split
  all_goals first | rfl | (rename_i hm; subst hm; dsimp only; split <;> rfl)

theorem core_linkToNodeIndex (s : GraphState) (q : QueueId) (n i : Nat) :
    (s.ownGraphLinkDataReferenceQueuesToNodeIndex q n i).core = s.core := by
  unfold ownGraphLinkDataReferenceQueuesToNodeIndex
  split
  · exact keeps_foldl _ (fun _ _ => core_linkDataRefQueue _ _ _ _) s
  · rfl

theorem core_linkQueues (s : GraphState) : s.ownGraphLinkDataReferenceQueues.core = s.core := by
  unfold ownGraphLinkDataReferenceQueues
  simp only
  refine (keeps_foldl _ (fun s x => ?_) _).trans ((keeps_foldl _ (fun s x => ?_) _).trans (keeps_foldl _ (fun s x => ?_) _))
  · split
    · exact core_linkToNodeIndex _ _ _ _
    · rfl
  · exact core_linkToNodeIndex _ _ _ _
  · split
    · exact core_linkToNodeIndex _ _ _ _
    · rfl

theorem keeps_createAndLinkQueues : Keeps core ownGraphCreateAndLinkDataReferenceQueues :=
  Keeps.bind (fun s => keeps_foldlM keeps_graphParameterQueue _ s)
    (Keeps.bind (fun s => keeps_foldlM keeps_intermediateQueue _ s) (Keeps.bind keeps_primeQueues core_linkQueues))

end Keeps

section Verify

variable {K : Nat → VxKernel} {o : VerifyOutcome} {s t u : GraphState}

/-- What the stages after the sort keep up to the last one: the mark, and the parameters of the nodes. -/
def marked (s : GraphState) : Bool × (Nat → Wiring) := (s.verified, fun n => (s.node n).wiring)

theorem keeps_calcHeadAndLeafNodes : Keeps marked ownGraphCalcHeadAndLeafNodes := by
  intro s
  unfold ownGraphCalcHeadAndLeafNodes
  refine keeps_foldlM (fun n => Keeps.bind (fun s => ?_) (fun s => ?_)) _ _
  · unfold addHeadNode
    split
    · split <;> rfl
    · rfl
  · unfold addLeafNode
    split
    · split <;> rfl
    · rfl

theorem keeps_allocObjDesc (allocates : Nat → Bool) (d n : Nat) :
    Keeps marked (fun s => ownNodeAllocObjDescForPipeline allocates d s n) := by
  intro s
  simp only [ownNodeAllocObjDescForPipeline]
  split
  · split <;> rfl
  · rfl

theorem keeps_pipelineNodes (allocates : Nat → Bool) : Keeps marked (pipelineNodes K allocates) := by
  intro s
  unfold pipelineNodes
  have hlink : Keeps marked (fun s => .ok (s.nodes.foldl ownNodeLinkObjDescForPipeline s)) :=
    fun s => keeps_foldl s.nodes (V := marked) (f := ownNodeLinkObjDescForPipeline) (fun _ _ => rfl) s
  exact (keeps_bind hlink).trans (keeps_foldlM (keeps_allocObjDesc allocates _) s.nodes _)

theorem keeps_collect : Keeps marked (collect K o) :=
  Keeps.bind (keeps_check _) (Keeps.bind keeps_validateParameters (Keeps.bind keeps_linkParameters
    (Keeps.bind keeps_validatePipelineParameters (Keeps.bind keeps_calcHeadAndLeafNodes
      (Keeps.bind (keeps_findAndAddDataReferences.comp fun C => (C.verified, C.wiring))
        (Keeps.bind (Keeps.map (keeps_check _) (fun s => congrArg (fun C => (C.verified, C.wiring)) (core_detectAndSetNumBuf s)))
          (keeps_pipelineNodes _)))))))

/-- A stage that marks a graph verified where it succeeds, and changes nothing else that the targets see. -/
def Marks (f : Stage) : Prop :=
  ∀ s, (∀ t, f s = .ok t → t.core = { s.core with verified := true }) ∧ ∀ t, f s = .error t → t.core = s.core

theorem Marks.after {f g : Stage} (hf : Keeps core f) (hg : Marks g) : Marks (fun s => (f s).bind g) := by
  intro s
  have hs := hf s
  simp only
  cases h : f s with
  | error e =>
    rw [h] at hs
    refine ⟨fun t ht => (by cases ht), fun t ht => ?_⟩
    cases ht
    exact hs
  | ok u =>
    rw [h] at hs
    change u.core = s.core at hs
    rw [← hs]
    exact hg u

theorem marks_complete : Marks (complete o) := by
  refine Marks.after (keeps_check _) (Marks.after (Keeps.map (keeps_check _) core_linkArrayElements)
    (Marks.after keeps_createAndLinkQueues (Marks.after (keeps_check _) (Marks.after (fun s => keeps_check _ s) fun s => ?_))))
  refine ⟨fun t ht => ?_, fun t ht => by cases ht⟩
  cases ht
  rfl

/-- **A graph that the stages after the sort leave verified**: what they made of it. -/
theorem finish_verified {sinkBufs : Nat → Nat} (hs : s.verified = false)
    (h : (left (finish K sinkBufs o s)).verified = true) :
    ∃ u, collect K o s = .ok u ∧ (left (finish K sinkBufs o s)).core = { u.core with verified := true } := by
  unfold finish at h ⊢
  have hcollect := keeps_collect (K := K) (o := o) s
  cases hc : collect K o s with
  | error e =>
    rw [hc] at h hcollect
    change e.verified = true at h
    have hmark : e.verified = s.verified := congrArg Prod.fst hcollect
    rw [hmark, hs] at h
    cases h
  | ok u =>
    rw [hc] at h hcollect
    have hmark : u.verified = s.verified := congrArg Prod.fst hcollect
    have hmarks : Marks (fun s => (addDataRefQs K sinkBufs o.createsRefs s).bind (complete o)) :=
      Marks.after (keeps_addDataRefQs K sinkBufs o.createsRefs) marks_complete
    change (left ((addDataRefQs K sinkBufs o.createsRefs u).bind (complete o))).verified = true at h
    refine ⟨u, rfl, ?_⟩
    change (left ((addDataRefQs K sinkBufs o.createsRefs u).bind (complete o))).core = _
    cases hr : (addDataRefQs K sinkBufs o.createsRefs u).bind (complete o) with
    | ok t => exact (hmarks u).1 t hr
    | error e =>
      have hcore := (hmarks u).2 e hr
      rw [hr] at h
      change e.verified = true at h
      have := congrArg Core.verified hcore
      change e.verified = u.verified at this
      rw [this, hmark, hs] at h
      cases h

theorem keeps_withLinks {β : Type} {V : GraphState → β} (hv : ∀ s L, V { s with links := L } = V s)
    (x : Except Links Links) : Keeps V (fun s => s.withLinks x) := by
  intro s
  cases x <;> exact hv s _

theorem keeps_removalPass {β : Type} {V : GraphState → β}
    (hv : ∀ s node nodes L, V { s with node := node, nodes := nodes, links := L } = V s)
    {removable : GraphState → Nat → Nat → Nat → Option Removal} {reassign : GraphState → Removal → GraphState}
    (hre : ∀ s R, V (reassign s R) = V s) (k : Nat) : Keeps V (removalPass removable reassign k) := by
  induction k with
  | zero => exact fun _ => rfl
  | succ k ih =>
    intro s
    unfold removalPass
    split
    · rfl
    · rename_i R _
      refine (keeps_bind (Keeps.map ih (fun s => hre s R))).trans ?_
      unfold ownCopyMoveRemoveNode
      cases spliceNode R.node s.links with
      | error L => exact hv s _ s.nodes L
      | ok L => exact hv s _ _ L

/-- What comes before the sort changes the nodes and their lists only. -/
theorem keeps_prepare {β : Type} {V : GraphState → β}
    (hv : ∀ s node nodes L, V { s with node := node, nodes := nodes, links := L } = V s)
    (hp : ∀ s P, V { s with parameters := P } = V s) : Keeps V (prepare o) := by
  intro s
  refine (keeps_bind fun s => ?_).trans (keeps_withLinks (fun s L => hv s s.node s.nodes L) _ s)
  have hre : ∀ s n i r d, V (ownReassignGraphParameter s n i r d) = V s := fun s n i r d => hp s _
  unfold ownGraphProcessCopyMoveNodes
  split
  · refine (keeps_bind fun s => ?_).trans (keeps_removalPass hv (fun s R => hre s R.node 1 R.new .output) _ s)
    refine (keeps_bind fun s => ?_).trans (keeps_removalPass hv (fun s R => hre s R.node 0 R.new .input) _ s)
    exact keeps_removalPass hv (fun _ _ => rfl) _ s
  · rfl

theorem verified_foldl {f : SortContext × GraphState → Nat → SortContext × GraphState}
    (hf : ∀ y n, (f y n).2.verified = y.2.verified) (l : List Nat) (y : SortContext × GraphState) :
    (l.foldl f y).2.verified = y.2.verified := by
  induction l generalizing y with
  | nil => rfl
  | cons n l ih => exact (ih (f y n)).trans (hf y n)

theorem verified_sortLoop (k i : Nat) (y : SortContext × GraphState) :
    (sortLoop k i y).2.2.verified = y.2.verified := by
  induction k generalizing i y with
  | zero => rfl
  | succ k ih =>
    unfold sortLoop
    split
    · rfl
    · rename_i n x _
      refine (ih _ _).trans ((verified_foldl (fun y m => ?_) _ _).trans ?_)
      · unfold countDown
        rfl
      · refine keeps_foldl _ (V := GraphState.verified) (fun s m => ?_) y.2
        unfold deepen
        split <;> rfl

theorem verified_sort (x : SortContext) (s : GraphState) :
    (ownGraphTopologicalSort x s).2.1.verified = s.verified := by
  have hcount : (s.nodes.foldl countInNodes (ownGraphSortStackReset x s.nodes.length, s)).2.verified = s.verified :=
    verified_foldl (f := countInNodes) (fun _ _ => rfl) _ _
  unfold ownGraphTopologicalSort
  split
  · simp only
    split
    · exact (verified_sortLoop _ _ _).trans hcount
    · exact (verified_sortLoop _ _ _).trans hcount
  · rfl

/-- A graph that comes out verified was sorted without a cycle, and the last stages were entered. -/
theorem sorted_of_verify (hs : s.verified = false) (h : (vxVerifyGraph K o S s).2.verified = true) :
    ∃ u c, prepare o { s with verified := false } = .ok u ∧ (ownGraphTopologicalSort S.sort u).2.2 = false ∧
      (vxVerifyGraph K o S s).2 = left (finish K c o (ownGraphTopologicalSort S.sort u).2.1) := by
  have hprepare : Keeps GraphState.verified (prepare o) := keeps_prepare (fun _ _ _ _ => rfl) (fun _ _ => rfl)
  unfold vxVerifyGraph sortStage at h ⊢
  by_cases henters : o.enters = true
  · by_cases hdeinits : o.deinits = true
    · simp only [henters, hdeinits, if_true] at h ⊢
      cases hp : prepare o { s with verified := false } with
      | error e =>
        have he := hprepare { s with verified := false }
        rw [hp] at h he
        simp only [Bool.false_eq_true, if_false] at h
        change e.verified = false at he
        rw [he] at h
        cases h
      | ok u =>
        rw [hp] at h
        simp only at h ⊢
        cases hc : (ownGraphTopologicalSort S.sort u).2.2 with
        | true =>
          -- a graph with a cycle keeps the mark it had
          rw [hc] at h
          simp only [Bool.not_true, Bool.false_eq_true, if_false, verified_sort] at h
          rw [hprepare.ok hp] at h
          cases h
        | false =>
          rw [hc] at h
          exact ⟨u, _, rfl, hc, rfl⟩
    · simp only [henters, hdeinits, if_true, Bool.false_eq_true, if_false] at h
  · simp only [henters, Bool.false_eq_true, if_false, hs] at h

end Verify

end GraphState

end Tiovx
