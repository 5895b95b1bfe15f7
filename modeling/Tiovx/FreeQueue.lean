import Mathlib.Tactic
import Tiovx.Lib.Run
import Tiovx.ObjDesc
/-!
# FreeQueue — the pipeline ids of a graph (`vx_graph_pipeline.c`, `vx_graph_verify.c`)

`vxVerifyGraph` allocates one graph descriptor for each pipeline id and puts the ids into `free_q`; scheduling takes ids
out and a completed run puts its id back.  While a graph is verified, each id below its pipeline depth is free or in
flight, once.  That is lost when a graph is verified again, because the queue is not emptied first, and when the depth
of a verified graph is set.
-/
namespace Tiovx

open StepSystem

/-- `VX_GRAPH_STATE_UNVERIFIED` and so on. -/
inductive VxGraphState
  | unverified
  | verified
  | running
  | abandoned
  | completed
deriving DecidableEq

/-- What is used of `tivx_obj_desc_graph_t`. -/
structure GraphObjDesc where
  pipelineId : Nat := 0
  completeLeafNodes : Nat := 0
deriving DecidableEq

/-- What is used of `tivx_graph_t`.  `queueing` is that the schedule mode is not normal; `inFlight` are the ids whose run
was submitted and is not completed. -/
structure GraphIds where
  verified : Bool := false
  queueing : Bool := false
  isStreamingEnabled : Bool := false
  isPipeliningEnabled : Bool := false
  isPipelineDepthSet : Bool := false
  pipelineDepth : Nat := 1
  numLeafNodes : Nat := 0
  submittedCount : Nat := 0
  schedulePendingCount : Nat := 0
  objDesc : Nat → Option GraphObjDesc := fun _ => none
  freeQ : List Nat := []
  inFlight : List Nat := []

/-- What one `vxVerifyGraph` finds and how its parts end: what comes before the pipeline depth is set, what comes between
that and the graph descriptors, the allocation of each descriptor, and the rest. -/
structure IdVerification where
  enters : Bool := true
  prepares : Bool := true
  numLeafNodes : Nat := 1
  leafDepths : List Nat := [1]
  numPipeupBufs : List Nat := []
  connects : Bool := true
  objDescAlloc : Nat → Bool := fun _ => true
  finishes : Bool := true

/-- What happens to a graph.  A schedule comes from the application, from an enqueue, from streaming or from the
completion of a run; `leafNodeCompleted` is a leaf node that ends in the run with this id. -/
inductive IdAct
  | setGraphAttribute (pipelineDepth : Nat)
  | setGraphPipelineDepth (pipelineDepth : Nat)
  | setGraphScheduleConfig (queueing : Bool)
  | enableGraphStreaming
  | edit
  | verifyGraph (V : IdVerification)
  | scheduleGraph (numSchedule : Nat)
  | leafNodeCompleted (pipelineId : Nat)

/-- `tivxQueuePut` on `free_q`: a full queue takes nothing. -/
def tivxQueuePut (q : List Nat) (pipelineId : Nat) : List Nat :=
  if q.length < graphMaxPipelineDepth then q ++ [pipelineId] else q

/-- `ownGraphDequeueFreeObjDesc`: an id that is not below the depth is dropped. -/
def ownGraphDequeueFreeObjDesc (s : GraphIds) : Option GraphObjDesc × GraphIds :=
  match s.freeQ with
  | [] => (none, s)
  | pipelineId :: q => (if pipelineId < s.pipelineDepth then s.objDesc pipelineId else none, { s with freeQ := q })

/-- `ownGraphEnqueueFreeObjDesc`. -/
def ownGraphEnqueueFreeObjDesc (s : GraphIds) (D : GraphObjDesc) : GraphIds :=
  if D.pipelineId < s.pipelineDepth then { s with freeQ := tivxQueuePut s.freeQ D.pipelineId } else s

/-- `ownGraphGetObjDesc`. -/
def ownGraphGetObjDesc (s : GraphIds) (pipelineId : Nat) : Option GraphObjDesc :=
  if pipelineId < s.pipelineDepth then s.objDesc pipelineId else none

/-- `ownGraphGetPipeDepth`. -/
def ownGraphGetPipeDepth (V : IdVerification) (s : GraphIds) : Nat :=
  let pipeDepth := V.leafDepths.foldl (fun p d => if p ≤ d then d else p) 1
  if graphMaxPipelineDepth ≤ pipeDepth ∧ s.isPipelineDepthSet = false then graphMaxPipelineDepth - 1 else pipeDepth

/-- `ownGraphNodePipeline`, what it does to the pipeline depth. -/
def ownGraphNodePipeline (V : IdVerification) (s : GraphIds) : GraphIds :=
  let depth := if s.isPipeliningEnabled && !s.isPipelineDepthSet then ownGraphGetPipeDepth V s else s.pipelineDepth
  { s with pipelineDepth := V.numPipeupBufs.foldl (fun p b => if p ≤ b then b else p) depth }

/-- `ownGraphAllocAndEnqueueObjDescForPipeline`. -/
def ownGraphAllocAndEnqueueObjDescForPipeline (V : IdVerification) (s : GraphIds) : Bool × GraphIds :=
  if graphMaxPipelineDepth ≤ s.pipelineDepth then (false, { s with objDesc := fun _ => none })
  else if (List.range s.pipelineDepth).all V.objDescAlloc then
    (true, (List.range s.pipelineDepth).foldl (fun s i => ownGraphEnqueueFreeObjDesc s { pipelineId := i })
      { s with objDesc := fun i => if i < s.pipelineDepth then some { pipelineId := i } else none })
  else
    (false, { s with objDesc := fun i =>
        if i < s.pipelineDepth ∧ (List.range (i + 1)).all V.objDescAlloc = true then some {} else none })

/-- `vxVerifyGraph`, what it does to the pipeline depth, the graph descriptors and the free queue. -/
def verifyIds (V : IdVerification) (s : GraphIds) : GraphIds :=
  if V.enters then
    let s := { s with verified := false }
    if V.prepares then
      let s := ownGraphNodePipeline V { s with numLeafNodes := V.numLeafNodes }
      if V.connects then
        let R := ownGraphAllocAndEnqueueObjDescForPipeline V s
        if R.1 && V.finishes then { R.2 with verified := true } else R.2
      else s
    else s
  else s

/-- The loop of `ownGraphScheduleGraph`, with how often it is not reached for want of a descriptor. -/
def submitGraph : Nat → GraphIds → Nat × GraphIds
  | 0, s => (0, s)
  | n + 1, s =>
    match ownGraphDequeueFreeObjDesc s with
    | (none, s) => (n + 1, s)
    | (some D, s) =>
      submitGraph n { s with
        submittedCount := (s.submittedCount + 1) % 2 ^ 32
        inFlight := D.pipelineId :: s.inFlight }

/-- `ownGraphScheduleGraph`. -/
def ownGraphScheduleGraph (numSchedule : Nat) (s : GraphIds) : GraphIds :=
  let R := submitGraph ((numSchedule + s.schedulePendingCount) % 2 ^ 32) s
  if s.queueing || s.isStreamingEnabled then { R.2 with schedulePendingCount := R.1 } else R.2

/-- `ownCheckGraphCompleted`.  The pending runs it takes are scheduled afterwards, without the lock. -/
def ownCheckGraphCompleted (pipelineId : Nat) (s : GraphIds) : GraphIds :=
  match ownGraphGetObjDesc s pipelineId with
  | none => s
  | some D =>
    if D.completeLeafNodes + 1 = s.numLeafNodes then
      ownGraphEnqueueFreeObjDesc { s with
        objDesc := Function.update s.objDesc pipelineId (some { D with completeLeafNodes := 0 })
        submittedCount := (s.submittedCount + 2 ^ 32 - 1) % 2 ^ 32
        schedulePendingCount := 0
        inFlight := s.inFlight.erase pipelineId } D
    else
      { s with objDesc := Function.update s.objDesc pipelineId (some { D with completeLeafNodes := D.completeLeafNodes + 1 }) }

/-- **One step of a graph.** -/
def idStep (s : GraphIds) : IdAct → Option GraphIds
  | .setGraphAttribute d => some (if d < graphMaxPipelineDepth then { s with pipelineDepth := d } else s)
  | .setGraphPipelineDepth d =>
    some (if s.verified = false ∧ d < graphMaxPipelineDepth then { s with pipelineDepth := d, isPipelineDepthSet := true }
      else s)
  | .setGraphScheduleConfig queueing =>
    some (if s.verified then s
      else if queueing then { s with queueing := true, isPipeliningEnabled := true }
      else { s with queueing := false })
  | .enableGraphStreaming => some { s with isStreamingEnabled := true, isPipeliningEnabled := true }
  | .edit => some { s with verified := false }
  | .verifyGraph V => some (verifyIds V s)
  | .scheduleGraph n => some (ownGraphScheduleGraph n s)
  | .leafNodeCompleted id => if id ∈ s.inFlight then some (ownCheckGraphCompleted id s) else none

/-- **What is promised of a verified graph**: each id below the pipeline depth is free or in flight, once, no other is,
and each has a descriptor. -/
structure IdsOnce (s : GraphIds) : Prop where
  once : (s.freeQ ++ s.inFlight).Perm (List.range s.pipelineDepth)
  objDesc : ∀ id < s.pipelineDepth, s.objDesc id ≠ none

/-- The condition on a step: the depth of a verified graph is not changed, and the graph descriptors are allocated only
while no id is free or in flight. -/
def KeepsIds (s : GraphIds) : IdAct → Prop
  | .setGraphAttribute d => s.verified = true → d < graphMaxPipelineDepth → d = s.pipelineDepth
  | .verifyGraph V => V.enters = true → V.prepares = true → V.connects = true → s.freeQ = [] ∧ s.inFlight = []
  | _ => True

instance (s : GraphIds) : (a : IdAct) → Decidable (KeepsIds s a)
  | .setGraphAttribute _ | .verifyGraph _ => inferInstanceAs (Decidable (_ → _))
  | .setGraphPipelineDepth _ | .setGraphScheduleConfig _ | .enableGraphStreaming | .edit | .scheduleGraph _
  | .leafNodeCompleted _ => .isTrue trivial

/-- The ids of a verified graph, and that its descriptors are the right ones. -/
structure IdsKept (s : GraphIds) : Prop extends IdsOnce s where
  depth : s.pipelineDepth < graphMaxPipelineDepth
  pipelineId : ∀ id D, s.objDesc id = some D → D.pipelineId = id

section Steps

variable {s s' : GraphIds}

theorem IdsKept.lt (h : IdsKept s) {id : Nat} (hid : id ∈ s.freeQ ++ s.inFlight) : id < s.pipelineDepth :=
  List.mem_range.1 (h.once.mem_iff.1 hid)

theorem IdsKept.length (h : IdsKept s) : s.freeQ.length + s.inFlight.length = s.pipelineDepth := by
  have hl := h.once.length_eq
  rw [List.length_append, List.length_range] at hl
  exact hl

/-- The ids of a graph that is verified for the first time are enqueued in order. -/
theorem enqueueFree_range (hq : s.freeQ = []) (hd : s.pipelineDepth ≤ graphMaxPipelineDepth) :
    ∀ n ≤ s.pipelineDepth, (List.range n).foldl (fun s i => ownGraphEnqueueFreeObjDesc s { pipelineId := i }) s =
      { s with freeQ := List.range n } := by
  intro n
  induction n with
  | zero =>
    intro _
    rw [List.range_zero, List.foldl_nil, ← hq]
  | succ n ih =>
    intro hn
    have hlt : n < s.pipelineDepth := hn
    rw [List.range_succ, List.foldl_append, ih (Nat.le_of_lt hlt)]
    have hroom : (List.range n).length < graphMaxPipelineDepth := by
      rw [List.length_range]
      exact Nat.lt_of_lt_of_le hlt hd
    simp only [List.foldl_cons, List.foldl_nil, ownGraphEnqueueFreeObjDesc, if_pos hlt, tivxQueuePut, if_pos hroom]

/-- **The graph descriptors**: where all are allocated, with no id free or in flight, each id is there once. -/
theorem ownGraphAllocAndEnqueue_idsKept {V : IdVerification} (hq : s.freeQ = []) (hf : s.inFlight = [])
    (h : (ownGraphAllocAndEnqueueObjDescForPipeline V s).1 = true) :
    IdsKept (ownGraphAllocAndEnqueueObjDescForPipeline V s).2 := by
  unfold ownGraphAllocAndEnqueueObjDescForPipeline at h ⊢
  split at h
  · cases h
  rename_i hd
  have hd := Nat.not_le.1 hd
  split at h
  · rename_i halloc
    rw [if_neg (Nat.not_le.2 hd), if_pos halloc]
    -- the queue is filled after the descriptors are allocated
    have hfill := enqueueFree_range (s := { s with
      objDesc := fun i => if i < s.pipelineDepth then some { pipelineId := i } else none }) hq (Nat.le_of_lt hd)
      s.pipelineDepth (Nat.le_refl _)
    simp only at hfill ⊢
    rw [hfill]
    refine ⟨⟨?_, fun id hid => ?_⟩, hd, fun id D hD => ?_⟩
    · simp only [hf, List.append_nil]
      exact List.Perm.refl _
    · simp only at hid ⊢
      rw [if_pos hid]
      exact Option.some_ne_none _
    · simp only at hD
      split at hD
      · cases hD
        rfl
      · cases hD
  · cases h

/-- An id that is taken from the free queue has a descriptor. -/
theorem IdsKept.dequeue (h : IdsKept s) :
    (s.freeQ = [] ∧ ownGraphDequeueFreeObjDesc s = (none, s)) ∨
    (∃ id q D, s.freeQ = id :: q ∧ D.pipelineId = id ∧ ownGraphDequeueFreeObjDesc s = (some D, { s with freeQ := q })) := by
  unfold ownGraphDequeueFreeObjDesc
  cases hq : s.freeQ with
  | nil => exact .inl ⟨rfl, rfl⟩
  | cons id q =>
    have hlt : id < s.pipelineDepth := h.lt (by rw [hq]; exact List.mem_cons_self)
    obtain ⟨D, hD⟩ := Option.ne_none_iff_exists'.1 (h.objDesc id hlt)
    refine .inr ⟨id, q, D, rfl, h.pipelineId id D hD, ?_⟩
    simp only [if_pos hlt, hD]

/-- **Submitting runs** moves ids from the free queue into flight. -/
theorem IdsKept.submit : ∀ (n : Nat) {s : GraphIds}, IdsKept s → IdsKept (submitGraph n s).2
  | 0, _, h => h
  | n + 1, s, h => by
    unfold submitGraph
    rcases h.dequeue with ⟨-, hd⟩ | ⟨id, q, D, hq, hD, hd⟩
    · rw [hd]
      exact h
    · rw [hd]
      have hmove : (q ++ id :: s.inFlight).Perm (s.freeQ ++ s.inFlight) := by
        rw [hq]
        exact List.perm_middle
      apply IdsKept.submit n
      refine ⟨⟨?_, h.objDesc⟩, h.depth, h.pipelineId⟩
      simp only [hD]
      exact hmove.trans h.once

theorem submitGraph_verified : ∀ (n : Nat) (s : GraphIds), (submitGraph n s).2.verified = s.verified
  | 0, _ => rfl
  | n + 1, s => by
    have hd : (ownGraphDequeueFreeObjDesc s).2.verified = s.verified := by
      unfold ownGraphDequeueFreeObjDesc
      split <;> rfl
    unfold submitGraph
    split
    · rename_i s' h
      rw [h] at hd
      exact hd
    · rename_i s' h
      rw [h] at hd
      rw [submitGraph_verified n]
      exact hd

/-- A schedule keeps the ids. -/
theorem IdsKept.schedule (h : IdsKept s) (n : Nat) : IdsKept (ownGraphScheduleGraph n s) := by
  have h' := h.submit ((n + s.schedulePendingCount) % 2 ^ 32)
  unfold ownGraphScheduleGraph
  simp only
  split
  · exact ⟨⟨h'.once, h'.objDesc⟩, h'.depth, h'.pipelineId⟩
  · exact h'

theorem ownGraphScheduleGraph_verified (n : Nat) (s : GraphIds) :
    (ownGraphScheduleGraph n s).verified = s.verified := by
  unfold ownGraphScheduleGraph
  simp only
  split <;> exact submitGraph_verified _ s

/-- The descriptors of a graph after one of them is written. -/
theorem IdsKept.update (h : IdsKept s) {id : Nat} {D : GraphObjDesc} (hD : D.pipelineId = id) :
    (∀ i < s.pipelineDepth, Function.update s.objDesc id (some D) i ≠ none) ∧
      ∀ i E, Function.update s.objDesc id (some D) i = some E → E.pipelineId = i := by
  constructor
  · intro i hi
    rw [Function.update_apply]
    split
    · exact Option.some_ne_none _
    · exact h.objDesc i hi
  · intro i E hE
    rw [Function.update_apply] at hE
    split at hE
    · rename_i hid
      cases hE
      rw [hD, hid]
    · exact h.pipelineId i E hE

/-- **The completion of a leaf node** puts the id of a completed run back. -/
theorem IdsKept.completed (h : IdsKept s) {id : Nat} (hid : id ∈ s.inFlight) : IdsKept (ownCheckGraphCompleted id s) := by
  have hlt : id < s.pipelineDepth := h.lt (List.mem_append_right _ hid)
  obtain ⟨D, hD⟩ := Option.ne_none_iff_exists'.1 (h.objDesc id hlt)
  have hDid := h.pipelineId id D hD
  have hget : ownGraphGetObjDesc s id = some D := by
    unfold ownGraphGetObjDesc
    rw [if_pos hlt, hD]
  unfold ownCheckGraphCompleted
  rw [hget]
  simp only
  split
  · -- a run in flight leaves room in the queue
    have hroom : s.freeQ.length < graphMaxPipelineDepth := by
      have hpos : 0 < s.inFlight.length := List.length_pos_of_mem hid
      have hlen := h.length
      have hdepth := h.depth
      omega
    have hmove : (s.freeQ ++ [id] ++ s.inFlight.erase id).Perm (s.freeQ ++ s.inFlight) := by
      rw [List.append_assoc]
      exact (List.perm_cons_erase hid).symm.append_left s.freeQ
    obtain ⟨hnn, hpid⟩ := h.update (D := { D with completeLeafNodes := 0 }) hDid
    have hlt' : D.pipelineId < s.pipelineDepth := by
      rw [hDid]
      exact hlt
    simp only [ownGraphEnqueueFreeObjDesc, if_pos hlt', tivxQueuePut, if_pos hroom]
    refine ⟨⟨?_, hnn⟩, h.depth, hpid⟩
    simp only [hDid]
    exact hmove.trans h.once
  · obtain ⟨hnn, hpid⟩ := h.update (D := { D with completeLeafNodes := D.completeLeafNodes + 1 }) hDid
    exact ⟨⟨h.once, hnn⟩, h.depth, hpid⟩

theorem ownCheckGraphCompleted_verified (id : Nat) (s : GraphIds) :
    (ownCheckGraphCompleted id s).verified = s.verified := by
  unfold ownCheckGraphCompleted
  split
  · rfl
  · split
    · unfold ownGraphEnqueueFreeObjDesc
      split <;> rfl
    · rfl

theorem ownGraphAllocAndEnqueue_verified {V : IdVerification}
    (h : (ownGraphAllocAndEnqueueObjDescForPipeline V s).1 = false) :
    (ownGraphAllocAndEnqueueObjDescForPipeline V s).2.verified = s.verified := by
  unfold ownGraphAllocAndEnqueueObjDescForPipeline at h ⊢
  split at h
  · rename_i hd
    rw [if_pos hd]
  · rename_i hd
    rw [if_neg hd]
    split at h
    · cases h
    · rename_i halloc
      rw [if_neg halloc]

/-- **A verification** that allocates the graph descriptors while no id is free or in flight. -/
theorem verifyIds_idsKept {V : IdVerification} (h : s.verified = true → IdsKept s)
    (hc : V.enters = true → V.prepares = true → V.connects = true → s.freeQ = [] ∧ s.inFlight = [])
    (hv : (verifyIds V s).verified = true) : IdsKept (verifyIds V s) := by
  unfold verifyIds at hv ⊢
  split at hv
  · rename_i he
    rw [if_pos he]
    simp only at hv ⊢
    split at hv
    · rename_i hp
      rw [if_pos hp]
      split at hv
      · rename_i hcn
        rw [if_pos hcn]
        obtain ⟨hq, hf⟩ := hc he hp hcn
        have halloc := ownGraphAllocAndEnqueue_idsKept (V := V)
          (s := ownGraphNodePipeline V { s with verified := false, numLeafNodes := V.numLeafNodes }) hq hf
        have hfail := ownGraphAllocAndEnqueue_verified (V := V)
          (s := ownGraphNodePipeline V { s with verified := false, numLeafNodes := V.numLeafNodes })
        split at hv
        · rename_i hR
          rw [if_pos hR]
          rw [Bool.and_eq_true] at hR
          have hk := halloc hR.1
          exact ⟨⟨hk.once, hk.objDesc⟩, hk.depth, hk.pipelineId⟩
        · rename_i hR
          rw [if_neg hR]
          apply halloc
          rw [← Bool.not_eq_false]
          intro hR1
          rw [hfail hR1] at hv
          cases hv
      · cases hv
    · cases hv
  · rename_i he
    rw [if_neg he]
    exact h hv

theorem idsKept_of_step {a : IdAct} (h : s.verified = true → IdsKept s) (hc : KeepsIds s a)
    (hs : idStep s a = some s') (hv : s'.verified = true) : IdsKept s' := by
  cases a with
  | setGraphAttribute d =>
    cases hs
    split at hv
    · rename_i hd
      rw [if_pos hd]
      -- the depth stays as it is
      have hsame : d = s.pipelineDepth := hc hv hd
      rw [hsame]
      exact h hv
    · rename_i hd
      rw [if_neg hd]
      exact h hv
  | setGraphPipelineDepth d =>
    cases hs
    split at hv
    · rename_i hd
      rw [show s.verified = true from hv] at hd
      cases hd.1
    · rename_i hd
      rw [if_neg hd]
      exact h hv
  | setGraphScheduleConfig queueing =>
    cases hs
    split at hv
    · rename_i hver
      rw [if_pos hver]
      exact h hv
    · rename_i hver
      split at hv <;> exact absurd hv hver
  | enableGraphStreaming =>
    cases hs
    have hk := h hv
    exact ⟨⟨hk.once, hk.objDesc⟩, hk.depth, hk.pipelineId⟩
  | edit =>
    cases hs
    cases hv
  | verifyGraph V =>
    cases hs
    exact verifyIds_idsKept h hc hv
  | scheduleGraph n =>
    cases hs
    rw [ownGraphScheduleGraph_verified] at hv
    exact (h hv).schedule n
  | leafNodeCompleted id =>
    simp only [idStep] at hs
    split at hs
    · rename_i hid
      cases hs
      rw [ownCheckGraphCompleted_verified] at hv
      exact (h hv).completed hid
    · cases hs

/-- **The ids of a verified graph are there once**, in every run whose steps meet the condition. -/
theorem idsOnce_of_keepsIds (h : Reach idStep KeepsIds {} s) (hv : s.verified = true) : IdsOnce s := by
  have hinv := h.inv (I := fun s => s.verified = true → IdsKept s) (fun hv => by cases hv)
    (fun _ _ _ h hc hs => idsKept_of_step h hc hs)
  exact (hinv hv).toIdsOnce

/-- A graph that is verified a second time has its id twice in the free queue. -/
theorem verified_twice_not_once : ∃ s, Reach idStep (fun s a => anyStep s a = true) {} s ∧ s.verified = true ∧
    ¬ IdsOnce s := by
  have hexec : (exec idStep anyStep {} [.verifyGraph {}, .verifyGraph {}]).map
      (fun s => (s.verified, s.freeQ, s.inFlight, s.pipelineDepth)) = some (true, [0, 0], [], 1) := by decide
  obtain ⟨s, hr, hs⟩ := exists_reach_of_exec hexec
  simp only [Prod.mk.injEq] at hs
  obtain ⟨hv, hq, hf, hd⟩ := hs
  refine ⟨s, hr, hv, fun h => ?_⟩
  have honce := h.once.length_eq
  rw [hq, hf, hd] at honce
  exact absurd honce (by decide)

/-- A pipelined graph is verified and scheduled twice, and its first run completes. -/
theorem idsOnce_pipelined : ∃ s, Reach idStep KeepsIds {} s ∧ s.verified = true ∧
    s.freeQ = [2, 0] ∧ s.inFlight = [1] ∧ IdsOnce s := by
  have hexec : (exec idStep (fun s a => decide (KeepsIds s a)) {}
      [.setGraphScheduleConfig true, .setGraphPipelineDepth 3, .verifyGraph {}, .scheduleGraph 2, .leafNodeCompleted 0]).map
      (fun s => (s.verified, s.freeQ, s.inFlight)) = some (true, [2, 0], [1]) := by decide
  obtain ⟨s, hr, hs⟩ := exists_reach_of_exec hexec
  simp only [Prod.mk.injEq] at hs
  obtain ⟨hv, hq, hf⟩ := hs
  have hr := hr.mono (fun s a h => of_decide_eq_true h)
  exact ⟨s, hr, hv, hq, hf, idsOnce_of_keepsIds hr hv⟩

end Steps

end Tiovx
