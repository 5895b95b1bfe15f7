import Mathlib.Tactic
import Mathlib.Data.List.TakeWhile
import Tiovx.FreeQueue
import Tiovx.CmdObjects
/-!
# ScheduleStatus — what the status of a schedule says (`vx_graph.c`, `vx_graph_pipeline.c`)

`vxScheduleGraph` verifies the graph where that is due, looks at its state and its schedule mode, and submits runs or leaves
them pending; in the automatic mode an enqueue at graph parameter 0 does the last of these.  The status is set in each branch
apart.
-/
namespace Tiovx

open StepSystem

/-- `VX_ERROR_NOT_SUPPORTED`, `VX_ERROR_NO_RESOURCES` and `VX_ERROR_INVALID_REFERENCE`. -/
def vxErrorNotSupported : Int := -3
def vxErrorNoResources : Int := -7
def vxErrorInvalidReference : Int := -12

theorem vxErrorNotSupported_ne : vxErrorNotSupported ≠ vxSuccess := by decide

theorem vxErrorNoResources_ne : vxErrorNoResources ≠ vxSuccess := by decide

theorem vxErrorInvalidReference_ne : vxErrorInvalidReference ≠ vxSuccess := by decide

/-- The graph descriptors that are taken from the free queue, one after the other, until one is not there. -/
def GraphIds.freeDescsOf (s : GraphIds) : List Nat → List GraphObjDesc
  | [] => []
  | id :: q =>
    match if id < s.pipelineDepth then s.objDesc id else none with
    | some D => D :: s.freeDescsOf q
    | none => []

def GraphIds.freeDescs (s : GraphIds) : List GraphObjDesc := s.freeDescsOf s.freeQ

/-- A graph with its state and its schedule mode: `isManual` is read where `queueing` is set.  `readyCounts` are the entries of
the ready queues of the graph parameters that have one, `pipeupBufIdx` is kept for each node and `prmNode` is the node of a
parameter.  `owed` are the pending runs that a completion has taken and is about to schedule. -/
structure SchedGraph extends GraphIds where
  isManual : Bool := false
  state : VxGraphState := .unverified
  queueEnable : List Bool := []
  readyCounts : List (Option Nat) := []
  prmNode : Nat → Nat := id
  pipeupBufIdx : Nat → Nat := fun _ => 1
  owed : List Nat := []

namespace SchedGraph

/-- `ownGraphGetNumSchedule`. -/
def ownGraphGetNumSchedule (s : SchedGraph) : Nat :=
  if s.queueing && s.isManual then
    let minCount := s.readyCounts.foldl (fun m c =>
      match c with
      | some count => if count < m then count else m
      | none => m) (2 ^ 32 - 1)
    if minCount = 2 ^ 32 - 1 then 0 else minCount
  else 0

/-- Every head node of every run that is submitted reaches its target; `sends` says so for the run of each pipeline id. -/
def sentAll (sends : Nat → Bool) : Nat → GraphIds → Bool
  | 0, _ => true
  | n + 1, s =>
    match ownGraphDequeueFreeObjDesc s with
    | (none, _) => true
    | (some D, s) => sends D.pipelineId && sentAll sends n s

/-- `ownGraphScheduleGraph`, with its status and the state of the graph. -/
def ownGraphScheduleGraph (s : SchedGraph) (numSchedule : Nat) (sends : Nat → Bool) : SchedGraph × Int :=
  let total := (numSchedule + s.schedulePendingCount) % 2 ^ 32
  let left := (submitGraph total s.toGraphIds).1
  let status := if sentAll sends total s.toGraphIds then vxSuccess else vxFailure
  ({ s with
      toGraphIds := Tiovx.ownGraphScheduleGraph numSchedule s.toGraphIds
      state := if left < total then .running else s.state },
    if s.queueing || s.isStreamingEnabled then status else if left = 0 then status else vxErrorNoResources)

/-- `vxVerifyGraph`; the data reference queues are new ones. -/
def vxVerifyGraph (s : SchedGraph) (V : IdVerification) : SchedGraph × Int :=
  let ids := verifyIds V s.toGraphIds
  let ok := V.enters && ids.verified
  ({ s with
      toGraphIds := ids
      state := if ok then .verified else s.state
      readyCounts := if V.enters && V.prepares && V.connects then s.queueEnable.map (fun e => if e then some 0 else none)
        else s.readyCounts },
    if ok then vxSuccess else vxFailure)

/-- The states in which `ownGraphScheduleGraphWrapper` schedules. -/
def schedulable (s : SchedGraph) : Bool :=
  match s.state with
  | .verified | .completed | .abandoned => true
  | .unverified | .running => false

/-- The verification of a graph that is not verified. -/
def ensureVerified (s : SchedGraph) (V : IdVerification) : SchedGraph × Int :=
  if s.verified then (s, vxSuccess) else s.vxVerifyGraph V

/-- `ownGraphScheduleGraphWrapper`. -/
def ownGraphScheduleGraphWrapper (s : SchedGraph) (V : IdVerification) (sends : Nat → Bool) : SchedGraph × Int :=
  let (s, status) := s.ensureVerified V
  if status = vxSuccess ∧ s.schedulable = true then
    if s.queueing = false then s.ownGraphScheduleGraph 1 sends
    else if s.isManual && !s.isStreamingEnabled then
      let numSchedule := s.ownGraphGetNumSchedule
      if 0 < numSchedule then ((s.ownGraphScheduleGraph numSchedule sends).1, status) else (s, status)
    else if s.isManual then (s, vxErrorInvalidParameters)
    else (s, status)
  else (s, status)

/-- `vxScheduleGraph`. -/
def vxScheduleGraph (s : SchedGraph) (V : IdVerification) (sends : Nat → Bool) : SchedGraph × Int :=
  if s.isStreamingEnabled then (s, vxErrorInvalidReference)
  else if s.queueing && !s.isManual then (s, vxErrorNotSupported)
  else s.ownGraphScheduleGraphWrapper V sends

/-- `ownGraphDoScheduleGraphAfterEnqueue`. -/
def ownGraphDoScheduleGraphAfterEnqueue (s : SchedGraph) (g : Nat) : Bool := s.queueing && !s.isManual && g == 0

/-- The references of an enqueue all go into the ready queue, and the graph is scheduled. -/
def schedulesAfter (s : SchedGraph) (g : Nat) (refs : List Bool) : Bool :=
  (s.readyCounts[g]?.join).isSome && refs.all id && decide (0 < refs.length) && decide (s.pipeupBufIdx (s.prmNode g) ≤ 1) &&
    s.ownGraphDoScheduleGraphAfterEnqueue g

/-- `ownGraphParameterEnqueueReadyRef` at graph parameter `g`; `refs` says of each reference whether the ready queue takes
it, and the first that it does not ends the call. -/
def ownGraphParameterEnqueueReadyRef (s : SchedGraph) (g : Nat) (refs : List Bool) (sends : Nat → Bool) : SchedGraph × Int :=
  match s.readyCounts[g]?.join with
  | none => (s, vxErrorInvalidParameters)
  | some count =>
    let numEnqueue := (refs.takeWhile id).length
    let t := { s with readyCounts := s.readyCounts.set g (some (count + numEnqueue)) }
    if refs.all id ∧ 0 < numEnqueue then
      if 1 < s.pipeupBufIdx (s.prmNode g) then
        ({ t with pipeupBufIdx := Function.update s.pipeupBufIdx (s.prmNode g) (s.pipeupBufIdx (s.prmNode g) - 1) },
          vxSuccess)
      else if t.ownGraphDoScheduleGraphAfterEnqueue g then t.ownGraphScheduleGraph numEnqueue sends
      else (t, vxSuccess)
    else (t, if refs.all id then vxSuccess else vxFailure)

/-- `ownCheckGraphCompleted`, without the schedule at its end; `abandoned` is that the descriptor of the run was marked so. -/
def ownCheckGraphCompleted (s : SchedGraph) (pipelineId : Nat) (abandoned : Bool) : SchedGraph :=
  let ids := Tiovx.ownCheckGraphCompleted pipelineId s.toGraphIds
  let ends := match ownGraphGetObjDesc s.toGraphIds pipelineId with
    | some D => decide (D.completeLeafNodes + 1 = s.numLeafNodes)
    | none => false
  { s with
    toGraphIds := ids
    state := if ends && decide (ids.submittedCount = 0) then (if abandoned then .abandoned else .completed) else s.state
    owed := if ends && decide (0 < s.schedulePendingCount) then s.schedulePendingCount :: s.owed else s.owed }

end SchedGraph

/-- A call that requests runs. -/
inductive ScheduleCall
  | schedule (V : IdVerification) (sends : Nat → Bool)
  | enqueue (g : Nat) (refs : List Bool) (sends : Nat → Bool)

namespace ScheduleCall

def run (s : SchedGraph) : ScheduleCall → SchedGraph × Int
  | .schedule V sends => s.vxScheduleGraph V sends
  | .enqueue g refs sends => s.ownGraphParameterEnqueueReadyRef g refs sends

/-- The runs a call requests: one in the normal mode, as many as references are ready in the manual one, and as many as
references were enqueued where that schedules. -/
def requested (s : SchedGraph) : ScheduleCall → Nat
  | .schedule V _ => if s.queueing then (s.ensureVerified V).1.ownGraphGetNumSchedule else 1
  | .enqueue g refs _ => if s.schedulesAfter g refs then refs.length else 0

/-- **What the status of a call promises**, for the graph before it and what it leaves and returns: with success, the runs
submitted and pending have grown by those requested; with an error, the graph is in the state it was in, and so are the
counts. -/
def Promise (s : SchedGraph) (R : SchedGraph × Int) (requested : Nat) : Prop :=
  if R.2 = vxSuccess then
    R.1.submittedCount + R.1.schedulePendingCount = s.submittedCount + s.schedulePendingCount + requested
  else
    R.1.state = s.state ∧ R.1.verified = s.verified ∧ R.1.submittedCount = s.submittedCount ∧
      R.1.schedulePendingCount = s.schedulePendingCount

def Kept (s : SchedGraph) (c : ScheduleCall) : Prop := Promise s (c.run s) (c.requested s)

end ScheduleCall

/-! ## When the promise is kept -/

namespace SchedGraph

/-- The runs a schedule is for, those asked for and those pending. -/
def total (s : SchedGraph) (n : Nat) : Nat := (n + s.schedulePendingCount) % 2 ^ 32

/-- The counts have room for `n` more runs. -/
def Fits (s : SchedGraph) (n : Nat) : Prop :=
  n + s.schedulePendingCount < 2 ^ 32 ∧ s.submittedCount + min (n + s.schedulePendingCount) s.freeDescs.length < 2 ^ 32

/-- Of `n` runs, those that get a descriptor can be sent. -/
def CanSend (s : SchedGraph) (n : Nat) (sends : Nat → Bool) : Prop := ∀ D ∈ s.freeDescs.take n, sends D.pipelineId = true

/-- In the normal mode: no run is pending and the only one gets a descriptor and can be sent; or there is no descriptor, and
the graph did not have to be verified, so that nothing is done. -/
def NormalExact (s : SchedGraph) (wasVerified : Bool) (sends : Nat → Bool) : Prop :=
  (s.schedulePendingCount = 0 ∧ s.submittedCount + 1 < 2 ^ 32 ∧ s.freeDescs ≠ [] ∧ s.CanSend 1 sends) ∨
    (s.freeDescs = [] ∧ s.schedulePendingCount + 1 < 2 ^ 32 ∧ wasVerified = true)

/-- **The condition**: where the call gets as far as the state of the graph, that is one to schedule in, or no run is
requested; and then the counts have room, and in the normal mode and at an enqueue the run can be sent. -/
def Exact (s : SchedGraph) : ScheduleCall → Prop
  | .schedule V sends =>
    let t := (s.ensureVerified V).1
    s.isStreamingEnabled = false → (s.queueing && !s.isManual) = false → t.verified = true →
      if t.schedulable then
        if s.queueing then t.ownGraphGetNumSchedule = 0 ∨ t.Fits t.ownGraphGetNumSchedule else t.NormalExact s.verified sends
      else s.queueing = true ∧ t.ownGraphGetNumSchedule = 0
  | .enqueue g refs sends =>
    s.schedulesAfter g refs = true → s.Fits refs.length ∧ s.CanSend (s.total refs.length) sends

end SchedGraph

/-! ## The loop of a schedule -/

theorem GraphIds.freeDescsOf_cons (s : GraphIds) (id : Nat) (q : List Nat) : s.freeDescsOf (id :: q) =
    match if id < s.pipelineDepth then s.objDesc id else none with
    | some D => D :: s.freeDescsOf q
    | none => [] := rfl

theorem GraphIds.freeDescsOf_congr {s t : GraphIds} (hd : t.pipelineDepth = s.pipelineDepth) (ho : t.objDesc = s.objDesc)
    (q : List Nat) : t.freeDescsOf q = s.freeDescsOf q := by
  induction q with
  | nil => rfl
  | cons id q ih =>
    rw [GraphIds.freeDescsOf_cons, GraphIds.freeDescsOf_cons, hd, ho, ih]

theorem GraphIds.freeDescs_congr {s t : GraphIds} (hd : t.pipelineDepth = s.pipelineDepth) (ho : t.objDesc = s.objDesc) :
    t.freeDescs = s.freeDescsOf t.freeQ := GraphIds.freeDescsOf_congr hd ho t.freeQ

/-- What is taken from the free queue is the first of the descriptors there. -/
theorem dequeueFree_cases (s : GraphIds) :
    (s.freeDescs = [] ∧ (ownGraphDequeueFreeObjDesc s).1 = none) ∨
      ∃ D q, s.freeDescs = D :: s.freeDescsOf q ∧ ownGraphDequeueFreeObjDesc s = (some D, { s with freeQ := q }) := by
  unfold GraphIds.freeDescs ownGraphDequeueFreeObjDesc
  cases s.freeQ with
  | nil => exact .inl ⟨rfl, rfl⟩
  | cons id q =>
    rw [GraphIds.freeDescsOf_cons]
    dsimp only
    cases (if id < s.pipelineDepth then s.objDesc id else none) with
    | none => exact .inl ⟨rfl, rfl⟩
    | some D => exact .inr ⟨D, q, rfl, rfl⟩

/-- What a dequeue leaves alone. -/
theorem dequeueFree_same (s : GraphIds) :
    (ownGraphDequeueFreeObjDesc s).2.submittedCount = s.submittedCount ∧
      (ownGraphDequeueFreeObjDesc s).2.schedulePendingCount = s.schedulePendingCount := by
  unfold ownGraphDequeueFreeObjDesc
  split <;> exact ⟨rfl, rfl⟩

/-- **The loop** submits a run for each descriptor there is, and leaves the rest. -/
theorem submitGraph_spec (n : Nat) (s : GraphIds) (hs : s.submittedCount < 2 ^ 32) :
    (submitGraph n s).1 = n - s.freeDescs.length ∧
      (submitGraph n s).2.submittedCount = (s.submittedCount + min n s.freeDescs.length) % 2 ^ 32 ∧
      (submitGraph n s).2.schedulePendingCount = s.schedulePendingCount := by
  induction n generalizing s with
  | zero => exact ⟨(Nat.zero_sub _).symm, by rw [Nat.zero_min]; exact (Nat.mod_eq_of_lt hs).symm, rfl⟩
  | succ n ih =>
    unfold submitGraph
    rcases dequeueFree_cases s with ⟨hf, hd⟩ | ⟨D, q, hf, hd⟩
    · obtain ⟨h1, h2⟩ := dequeueFree_same s
      cases hdq : ownGraphDequeueFreeObjDesc s with
      | mk x s' =>
        rw [hdq] at hd h1 h2
        cases hd
        rw [hf]
        refine ⟨rfl, ?_, h2⟩
        rw [List.length_nil, Nat.min_zero, Nat.add_zero]
        exact h1.trans (Nat.mod_eq_of_lt hs).symm
    · rw [hd]
      dsimp only
      have hpos : (s.submittedCount + 1) % 2 ^ 32 < 2 ^ 32 := Nat.mod_lt _ (by decide)
      obtain ⟨h1, h2, h3⟩ := ih { s with
        freeQ := q, submittedCount := (s.submittedCount + 1) % 2 ^ 32, inFlight := D.pipelineId :: s.inFlight } hpos
      have hlen := GraphIds.freeDescs_congr (s := s) (t := { s with
        freeQ := q, submittedCount := (s.submittedCount + 1) % 2 ^ 32, inFlight := D.pipelineId :: s.inFlight }) rfl rfl
      rw [hlen] at h1 h2
      dsimp only at h1 h2
      rw [hf, List.length_cons]
      refine ⟨?_, ?_, h3⟩
      · rw [h1, Nat.add_sub_add_right]
      · rw [h2, Nat.mod_add_mod, Nat.add_min_add_right]
        congr 1
        omega

namespace GraphIds

/-- The counts of the graph are within their type. -/
structure Bounded (s : GraphIds) : Prop where
  submitted : s.submittedCount < 2 ^ 32
  pending : s.schedulePendingCount < 2 ^ 32
  free : s.freeQ.length ≤ graphMaxPipelineDepth

theorem length_freeDescsOf (s : GraphIds) (q : List Nat) : (s.freeDescsOf q).length ≤ q.length := by
  induction q with
  | nil => exact Nat.le_refl _
  | cons id q ih =>
    rw [freeDescsOf_cons]
    split
    · exact Nat.succ_le_succ ih
    · exact Nat.zero_le _

theorem Bounded.freeDescs_lt {s : GraphIds} (h : s.Bounded) : s.freeDescs.length < 2 ^ 32 := by
  have h1 := length_freeDescsOf s s.freeQ
  have h2 := h.free
  have h3 : graphMaxPipelineDepth < 2 ^ 32 := by decide
  exact Nat.lt_of_le_of_lt (Nat.le_trans h1 h2) h3

end GraphIds

namespace SchedGraph

theorem sentAll_iff (sends : Nat → Bool) (n : Nat) (s : GraphIds) :
    sentAll sends n s = true ↔ ∀ D ∈ s.freeDescs.take n, sends D.pipelineId = true := by
  induction n generalizing s with
  | zero =>
    rw [List.take_zero]
    exact ⟨fun _ _ hD => (List.not_mem_nil hD).elim, fun _ => rfl⟩
  | succ n ih =>
    unfold sentAll
    rcases dequeueFree_cases s with ⟨hf, hd⟩ | ⟨D, q, hf, hd⟩
    · cases hdq : ownGraphDequeueFreeObjDesc s with
      | mk x s' =>
        rw [hdq] at hd
        cases hd
        rw [hf, List.take_nil]
        exact ⟨fun _ _ hD => (List.not_mem_nil hD).elim, fun _ => rfl⟩
    · rw [hd]
      dsimp only
      have hlen := GraphIds.freeDescs_congr (s := s) (t := { s with freeQ := q }) rfl rfl
      rw [Bool.and_eq_true, ih, hlen, hf, List.take_succ_cons, List.forall_mem_cons]

variable {s : SchedGraph}

/-- **A schedule in a queueing mode**: what gets no descriptor stays pending, and the status is whether the runs were sent. -/
theorem schedule_queueing (h : s.Bounded) (hq : s.queueing = true) (n : Nat) (sends : Nat → Bool) :
    let R := s.ownGraphScheduleGraph n sends
    R.1.submittedCount = (s.submittedCount + min (s.total n) s.freeDescs.length) % 2 ^ 32 ∧
      R.1.schedulePendingCount = s.total n - s.freeDescs.length ∧
      (R.2 = vxSuccess ↔ s.CanSend (s.total n) sends) := by
  obtain ⟨h1, h2, -⟩ := submitGraph_spec (s.total n) s.toGraphIds h.submitted
  have hR : Tiovx.ownGraphScheduleGraph n s.toGraphIds =
      { (submitGraph (s.total n) s.toGraphIds).2 with
        schedulePendingCount := (submitGraph (s.total n) s.toGraphIds).1 } := by
    unfold Tiovx.ownGraphScheduleGraph
    rw [hq]
    rfl
  refine ⟨?_, ?_, ?_⟩
  · exact (congrArg GraphIds.submittedCount hR).trans h2
  · exact (congrArg GraphIds.schedulePendingCount hR).trans h1
  · unfold ownGraphScheduleGraph
    rw [hq]
    rw [Bool.true_or]
    dsimp only
    rw [if_pos rfl]
    refine Iff.trans ?_ (sentAll_iff sends (s.total n) s.toGraphIds)
    unfold SchedGraph.total
    split
    · rename_i hs
      exact ⟨fun _ => hs, fun _ => rfl⟩
    · rename_i hs
      exact ⟨fun hx => (vxFailure_ne hx).elim, fun hx => (hs hx).elim⟩

/-- **The counts grow by what is asked for** exactly where they have room. -/
theorem grows_iff_fits (h : s.Bounded) (hq : s.queueing = true) (n : Nat) (sends : Nat → Bool) :
    (s.ownGraphScheduleGraph n sends).1.submittedCount + (s.ownGraphScheduleGraph n sends).1.schedulePendingCount =
      s.submittedCount + s.schedulePendingCount + n ↔ s.Fits n := by
  obtain ⟨h1, h2, -⟩ := schedule_queueing h hq n sends
  have hs := h.submitted
  have hp := h.pending
  have hf := h.freeDescs_lt
  rw [h1, h2]
  unfold Fits SchedGraph.total
  by_cases ho : n + s.schedulePendingCount < 2 ^ 32
  · rw [Nat.mod_eq_of_lt ho]
    omega
  · refine ⟨fun hx => ?_, fun hx => (ho hx.1).elim⟩
    omega

/-- **A schedule in the normal mode**: the counts of pending runs stay as they are. -/
theorem schedule_normal (h : s.Bounded) (hq : s.queueing = false) (hst : s.isStreamingEnabled = false) (n : Nat)
    (sends : Nat → Bool) :
    let R := s.ownGraphScheduleGraph n sends
    R.1.submittedCount = (s.submittedCount + min (s.total n) s.freeDescs.length) % 2 ^ 32 ∧
      R.1.schedulePendingCount = s.schedulePendingCount ∧
      R.1.state = (if s.total n - s.freeDescs.length < s.total n then .running else s.state) ∧
      R.1.verified = s.verified ∧
      (R.2 = vxSuccess ↔ s.total n ≤ s.freeDescs.length ∧ s.CanSend (s.total n) sends) := by
  obtain ⟨h1, h2, h3⟩ := submitGraph_spec (s.total n) s.toGraphIds h.submitted
  have hR : Tiovx.ownGraphScheduleGraph n s.toGraphIds = (submitGraph (s.total n) s.toGraphIds).2 := by
    unfold Tiovx.ownGraphScheduleGraph
    rw [hq, hst]
    rfl
  refine ⟨(congrArg GraphIds.submittedCount hR).trans h2, (congrArg GraphIds.schedulePendingCount hR).trans h3, ?_,
    (congrArg GraphIds.verified hR).trans (submitGraph_verified _ _), ?_⟩
  · unfold SchedGraph.total at h1 ⊢
    unfold ownGraphScheduleGraph
    dsimp only
    rw [h1]
  · have hsent := sentAll_iff sends (s.total n) s.toGraphIds
    unfold ownGraphScheduleGraph
    rw [hq, hst, Bool.or_false]
    dsimp only
    rw [if_neg Bool.false_ne_true]
    change (if (submitGraph (s.total n) s.toGraphIds).1 = 0 then
      if sentAll sends (s.total n) s.toGraphIds = true then vxSuccess else vxFailure else vxErrorNoResources) = vxSuccess ↔ _
    rw [h1]
    by_cases hle : s.total n ≤ s.freeDescs.length
    · rw [if_pos (Nat.sub_eq_zero_of_le hle)]
      by_cases hall : sentAll sends (s.total n) s.toGraphIds = true
      · rw [if_pos hall]
        exact ⟨fun _ => ⟨hle, hsent.1 hall⟩, fun _ => rfl⟩
      · rw [if_neg hall]
        exact ⟨fun hx => (vxFailure_ne hx).elim, fun hx => (hall (hsent.2 hx.2)).elim⟩
    · rw [if_neg (fun hx => hle (Nat.le_of_sub_eq_zero hx))]
      exact ⟨fun hx => absurd hx (by decide), fun hx => (hle hx.1).elim⟩

/-! ## The verification of a call -/

theorem tivxQueuePut_le (q : List Nat) (id : Nat) (h : q.length ≤ graphMaxPipelineDepth) :
    (tivxQueuePut q id).length ≤ graphMaxPipelineDepth := by
  unfold tivxQueuePut
  split
  · rw [List.length_append, List.length_singleton]
    assumption
  · exact h

/-- What the parts of a verification leave alone. -/
structure SameCounts (s t : GraphIds) : Prop where
  submitted : t.submittedCount = s.submittedCount
  pending : t.schedulePendingCount = s.schedulePendingCount
  queueing : t.queueing = s.queueing
  streaming : t.isStreamingEnabled = s.isStreamingEnabled
  free : s.freeQ.length ≤ graphMaxPipelineDepth → t.freeQ.length ≤ graphMaxPipelineDepth

theorem SameCounts.trans {s t u : GraphIds} (h : SameCounts s t) (g : SameCounts t u) : SameCounts s u :=
  ⟨g.submitted.trans h.submitted, g.pending.trans h.pending, g.queueing.trans h.queueing, g.streaming.trans h.streaming,
    fun hf => g.free (h.free hf)⟩

theorem sameCounts_enqueueFree (s : GraphIds) (D : GraphObjDesc) : SameCounts s (ownGraphEnqueueFreeObjDesc s D) := by
  unfold ownGraphEnqueueFreeObjDesc
  split
  · exact ⟨rfl, rfl, rfl, rfl, tivxQueuePut_le _ _⟩
  · exact ⟨rfl, rfl, rfl, rfl, id⟩

theorem sameCounts_enqueueAll (l : List Nat) (s : GraphIds) :
    SameCounts s (l.foldl (fun s i => ownGraphEnqueueFreeObjDesc s { pipelineId := i }) s) := by
  induction l generalizing s with
  | nil => exact ⟨rfl, rfl, rfl, rfl, id⟩
  | cons i l ih => exact (sameCounts_enqueueFree s { pipelineId := i }).trans (ih _)

theorem sameCounts_alloc (V : IdVerification) (s : GraphIds) :
    SameCounts s (ownGraphAllocAndEnqueueObjDescForPipeline V s).2 := by
  unfold ownGraphAllocAndEnqueueObjDescForPipeline
  split
  · exact ⟨rfl, rfl, rfl, rfl, id⟩
  · split
    · have h := sameCounts_enqueueAll (List.range s.pipelineDepth)
        { s with objDesc := fun i => if i < s.pipelineDepth then some { pipelineId := i } else none }
      exact ⟨h.submitted, h.pending, h.queueing, h.streaming, h.free⟩
    · exact ⟨rfl, rfl, rfl, rfl, id⟩

/-- **A verification** leaves the counts of the graph alone, whatever it finds. -/
theorem sameCounts_verify (V : IdVerification) (s : GraphIds) : SameCounts s (verifyIds V s) := by
  unfold verifyIds
  split
  · dsimp only
    split
    · split
      · have h := sameCounts_alloc V (ownGraphNodePipeline V { s with verified := false, numLeafNodes := V.numLeafNodes })
        split <;> exact ⟨h.submitted, h.pending, h.queueing, h.streaming, h.free⟩
      · exact ⟨rfl, rfl, rfl, rfl, id⟩
    · exact ⟨rfl, rfl, rfl, rfl, id⟩
  · exact ⟨rfl, rfl, rfl, rfl, id⟩

theorem SameCounts.bounded {s t : GraphIds} (hv : SameCounts s t) (h : s.Bounded) : t.Bounded :=
  ⟨hv.submitted.trans_lt h.submitted, hv.pending.trans_lt h.pending, hv.free h.free⟩

/-- What a verification that is due comes to: an error, with the graph as it was, or a verified graph. -/
structure Ensured (s : SchedGraph) (R : SchedGraph × Int) : Prop where
  same : SameCounts s.toGraphIds R.1.toGraphIds
  isManual : R.1.isManual = s.isManual
  status : R.2 = if R.1.verified then vxSuccess else vxFailure
  failed : R.1.verified = false → R.1.state = s.state ∧ s.verified = false
  was : s.verified = true → R.1 = s

theorem ensured (s : SchedGraph) (V : IdVerification) : Ensured s (s.ensureVerified V) := by
  unfold ensureVerified
  by_cases hver : s.verified = true
  · rw [if_pos hver]
    refine ⟨⟨rfl, rfl, rfl, rfl, id⟩, rfl, ?_, fun hf => ?_, fun _ => rfl⟩
    · exact (if_pos hver).symm
    · rw [show s.verified = true from hver] at hf
      cases hf
  · rw [if_neg hver]
    refine ⟨sameCounts_verify V _, rfl, ?_, fun hf => ?_, fun hx => (hver hx).elim⟩
    · -- a verification that does not enter leaves the graph as it was
      cases he : V.enters with
      | true => simp only [vxVerifyGraph, he, Bool.true_and]
      | false => simp only [vxVerifyGraph, he, Bool.false_and, verifyIds, Bool.false_eq_true, if_false, if_neg hver]
    · refine ⟨?_, Bool.not_eq_true _ ▸ hver⟩
      have hok : (V.enters && (verifyIds V s.toGraphIds).verified) = false := by
        rw [show (verifyIds V s.toGraphIds).verified = false from hf, Bool.and_false]
      simp only [vxVerifyGraph, hok, Bool.false_eq_true, if_false]

end SchedGraph

/-! ## The promise of each call -/

namespace ScheduleCall

open SchedGraph

variable {s t : SchedGraph} {R : SchedGraph × Int} {n : Nat} {sends : Nat → Bool}

theorem promise_success (h : R.2 = vxSuccess) : Promise s R n ↔
    R.1.submittedCount + R.1.schedulePendingCount = s.submittedCount + s.schedulePendingCount + n := by
  unfold Promise
  rw [if_pos h]

theorem promise_error (h : R.2 ≠ vxSuccess) : Promise s R n ↔
    R.1.state = s.state ∧ R.1.verified = s.verified ∧ R.1.submittedCount = s.submittedCount ∧
      R.1.schedulePendingCount = s.schedulePendingCount := by
  unfold Promise
  rw [if_neg h]

/-- A call that is refused leaves the graph as it is. -/
theorem promise_refused {st : Int} (h : st ≠ vxSuccess) : Promise s (s, st) n :=
  (promise_error h).2 ⟨rfl, rfl, rfl, rfl⟩

/-- **One run in the normal mode.** -/
theorem promise_normal (h : t.Bounded) (hsame : SameCounts s.toGraphIds t.toGraphIds) (hq : t.queueing = false)
    (hst : t.isStreamingEnabled = false) (hver : t.verified = true) (hwas : s.verified = true → t = s) :
    Promise s (t.ownGraphScheduleGraph 1 sends) 1 ↔ t.NormalExact s.verified sends := by
  obtain ⟨h1, h2, h3, h4, h5⟩ := schedule_normal h hq hst 1 sends
  have hs := h.submitted
  have hp := h.pending
  have hfl := h.freeDescs_lt
  have hT : t.total 1 = (1 + t.schedulePendingCount) % 2 ^ 32 := rfl
  unfold NormalExact
  by_cases hok : t.total 1 ≤ t.freeDescs.length ∧ t.CanSend (t.total 1) sends
  · rw [promise_success (h5.2 hok), h1, h2, hsame.submitted.symm, hsame.pending.symm, Nat.min_eq_left hok.1]
    constructor
    · intro hx
      have hp0 : t.schedulePendingCount = 0 := by omega
      have hone : t.total 1 = 1 := by omega
      rw [hone] at hok hx
      refine .inl ⟨hp0, by omega, ?_, hok.2⟩
      exact List.ne_nil_of_length_pos hok.1
    · rintro (⟨hp0, hroom, -, -⟩ | ⟨hf, hroom, -⟩)
      · have hone : t.total 1 = 1 := by omega
        rw [hone, Nat.mod_eq_of_lt hroom]
        omega
      · -- without a descriptor no run would have been submitted
        have hle := hok.1
        rw [hf, List.length_nil] at hle
        omega
  · rw [promise_error (fun hx => hok (h5.1 hx)), h1, h2, h3, h4, hver, hsame.submitted.symm, hsame.pending.symm]
    constructor
    · rintro ⟨-, hv, hsub, -⟩
      have hpos : 0 < t.total 1 := by
        refine Nat.pos_of_ne_zero fun hz => hok ?_
        rw [hz]
        exact ⟨Nat.zero_le _, fun D hD => by rw [List.take_zero] at hD; exact (List.not_mem_nil hD).elim⟩
      have hlen : t.freeDescs.length = 0 := by omega
      exact .inr ⟨List.length_eq_zero_iff.1 hlen, by omega, hv.symm⟩
    · rintro (⟨hp0, hroom, hf, hc⟩ | ⟨hf, -, hw⟩)
      · have hone : t.total 1 = 1 := by omega
        rw [hone] at hok
        exact (hok ⟨List.length_pos_of_ne_nil hf, hc⟩).elim
      · have hts := hwas hw
        rw [hf, List.length_nil, Nat.sub_zero, if_neg (Nat.lt_irrefl _), Nat.min_zero, Nat.add_zero, Nat.mod_eq_of_lt hs]
        exact ⟨congrArg state hts, hw.symm, rfl, rfl⟩

/-- **The runs of the manual mode**, whose status is that of the verification. -/
theorem promise_manual (h : t.Bounded) (hsame : SameCounts s.toGraphIds t.toGraphIds) (hq : t.queueing = true) :
    Promise s ((t.ownGraphScheduleGraph n sends).1, vxSuccess) n ↔ t.Fits n := by
  have hgrow := grows_iff_fits h hq n sends
  rw [hsame.submitted, hsame.pending] at hgrow
  exact (promise_success rfl).trans hgrow

theorem promise_unchanged (hsame : SameCounts s.toGraphIds t.toGraphIds) : Promise s (t, vxSuccess) n ↔ n = 0 := by
  rw [promise_success rfl, hsame.submitted, hsame.pending]
  exact ⟨fun hx => by omega, fun hx => by omega⟩

/-- **The runs of an enqueue.** -/
theorem promise_enqueue (h : t.Bounded) (hsame : SameCounts s.toGraphIds t.toGraphIds) (hq : t.queueing = true) :
    Promise s (t.ownGraphScheduleGraph n sends) n ↔ t.Fits n ∧ t.CanSend (t.total n) sends := by
  obtain ⟨h1, h2, h5⟩ := schedule_queueing h hq n sends
  have hs := h.submitted
  by_cases hok : t.CanSend (t.total n) sends
  · have hgrow := grows_iff_fits h hq n sends
    rw [hsame.submitted, hsame.pending] at hgrow
    rw [promise_success (h5.2 hok), hgrow]
    exact ⟨fun hf => ⟨hf, hok⟩, fun hf => hf.1⟩
  · rw [promise_error (fun hx => hok (h5.1 hx))]
    constructor
    · rintro ⟨-, -, hsub, -⟩
      -- the run that was not sent was submitted
      have hpos : 0 < min (t.total n) t.freeDescs.length := by
        unfold SchedGraph.CanSend at hok
        rw [not_forall] at hok
        obtain ⟨D, hD⟩ := hok
        rw [Classical.not_imp] at hD
        have hlen := List.length_pos_of_mem hD.1
        rwa [List.length_take] at hlen
      have hfl := h.freeDescs_lt
      rw [h1, hsame.submitted.symm] at hsub
      omega
    · exact fun hf => (hok hf.2).elim

theorem kept_schedule (h : s.Bounded) (V : IdVerification) : Kept s (.schedule V sends) ↔ s.Exact (.schedule V sends) := by
  obtain ⟨hsame, hman, hstat, hfail, hwas⟩ := ensured s V
  have hb := hsame.bounded h
  simp only [Kept, ScheduleCall.run, requested, vxScheduleGraph, Exact]
  by_cases hst : s.isStreamingEnabled = true
  · rw [if_pos hst]
    refine iff_of_true (promise_refused (by decide)) fun hx => ?_
    rw [hst] at hx
    cases hx
  rw [if_neg hst]
  have hst := Bool.eq_false_iff.2 hst
  by_cases ha : (s.queueing && !s.isManual) = true
  · rw [if_pos ha]
    refine iff_of_true (promise_refused (by decide)) fun _ hx => ?_
    rw [ha] at hx
    cases hx
  rw [if_neg ha]
  unfold ownGraphScheduleGraphWrapper
  generalize hE : s.ensureVerified V = E at hsame hman hb hstat hfail hwas ⊢
  obtain ⟨t, st⟩ := E
  dsimp only at hsame hman hb hstat hfail hwas ⊢
  cases hver : t.verified with
  | false =>
    obtain ⟨hstate, hsv⟩ := hfail hver
    have hstat : st = vxFailure := by rw [hstat, hver]; rfl
    have hne : st ≠ vxSuccess := hstat ▸ vxFailure_ne
    rw [if_neg (fun hx => hne hx.1)]
    refine iff_of_true ((promise_error hne).2 ⟨hstate, ?_, hsame.submitted, hsame.pending⟩) fun _ _ hx => ?_
    · exact hver.trans hsv.symm
    · cases hx
  | true =>
    have hstat : st = vxSuccess := by rw [hstat, hver]; rfl
    subst hstat
    rw [forall_prop_of_true hst, forall_prop_of_true (Bool.eq_false_iff.2 ha), forall_prop_of_true rfl]
    by_cases hsch : t.schedulable = true
    · rw [if_pos ⟨rfl, hsch⟩, if_pos hsch]
      cases hq : s.queueing with
      | false =>
        have hqt := hsame.queueing.trans hq
        rw [if_pos hqt, if_neg Bool.false_ne_true, if_neg Bool.false_ne_true]
        exact promise_normal hb hsame hqt (hsame.streaming.trans hst) hver hwas
      | true =>
        have hqt := hsame.queueing.trans hq
        have hm : t.isManual = true := by
          rw [hman]
          rw [hq, Bool.true_and, Bool.not_eq_true, Bool.not_eq_false'] at ha
          exact ha
        rw [if_neg (fun hx => Bool.false_ne_true (hx.symm.trans hqt)), hm, hsame.streaming, hst, if_pos rfl, if_pos rfl,
          if_pos rfl]
        by_cases hn : 0 < t.ownGraphGetNumSchedule
        · rw [if_pos hn]
          refine (promise_manual hb hsame hqt).trans ⟨.inr, fun hx => hx.resolve_left (Nat.ne_of_gt hn)⟩
        · rw [if_neg hn]
          have hz := Nat.eq_zero_of_not_pos hn
          exact iff_of_true ((promise_unchanged hsame).2 hz) (.inl hz)
    · rw [if_neg (fun hx => hsch hx.2), if_neg hsch]
      refine (promise_unchanged hsame).trans ?_
      cases hq : s.queueing with
      | false => exact ⟨fun hx => (Nat.one_ne_zero hx).elim, fun hx => (Bool.false_ne_true hx.1).elim⟩
      | true => exact ⟨fun hx => ⟨rfl, hx⟩, fun hx => hx.2⟩

theorem kept_enqueue (h : s.Bounded) (g : Nat) (refs : List Bool) :
    Kept s (.enqueue g refs sends) ↔ s.Exact (.enqueue g refs sends) := by
  simp only [Kept, ScheduleCall.run, requested, SchedGraph.ownGraphParameterEnqueueReadyRef, Exact]
  cases hc : s.readyCounts[g]?.join with
  | none =>
    have hno : s.schedulesAfter g refs = false := by simp only [schedulesAfter, hc, Option.isSome_none, Bool.false_and]
    refine iff_of_true (promise_refused (by decide)) fun hx => ?_
    rw [hno] at hx
    cases hx
  | some count =>
    by_cases hsch : s.schedulesAfter g refs = true
    · have hparts := hsch
      simp only [schedulesAfter, Bool.and_eq_true, decide_eq_true_eq] at hparts
      obtain ⟨⟨⟨⟨-, hall⟩, hlen⟩, hpip⟩, hdo⟩ := hparts
      have htake : refs.takeWhile id = refs := List.takeWhile_eq_self_iff.2 (List.all_eq_true.1 hall)
      have hq : s.queueing = true := by
        simp only [ownGraphDoScheduleGraphAfterEnqueue, Bool.and_eq_true] at hdo
        exact hdo.1.1
      dsimp only
      rw [htake, if_pos ⟨hall, hlen⟩, if_neg (Nat.not_lt.2 hpip), if_pos hsch, forall_prop_of_true hsch]
      have hdo' : ({ s with readyCounts := s.readyCounts.set g (some (count + refs.length)) } :
        SchedGraph).ownGraphDoScheduleGraphAfterEnqueue g = true := hdo
      rw [if_pos hdo']
      exact promise_enqueue (t := { s with readyCounts := s.readyCounts.set g (some (count + refs.length)) })
        h ⟨rfl, rfl, rfl, rfl, id⟩ hq
    · rw [if_neg hsch]
      refine iff_of_true ?_ fun hx => (hsch hx).elim
      dsimp only
      by_cases hall : refs.all id = true ∧ 0 < (refs.takeWhile id).length
      · have htake : refs.takeWhile id = refs := List.takeWhile_eq_self_iff.2 (List.all_eq_true.1 hall.1)
        have hlen := htake ▸ hall.2
        rw [if_pos hall]
        by_cases hpip : 1 < s.pipeupBufIdx (s.prmNode g)
        · rw [if_pos hpip]
          exact (promise_unchanged ⟨rfl, rfl, rfl, rfl, id⟩).2 rfl
        · rw [if_neg hpip, if_neg]
          · exact (promise_unchanged ⟨rfl, rfl, rfl, rfl, id⟩).2 rfl
          · intro hdo
            have hdo' : s.ownGraphDoScheduleGraphAfterEnqueue g = true := hdo
            apply hsch
            simp only [schedulesAfter, hc, Option.isSome_some, hall.1, hlen, Nat.le_of_not_lt hpip, hdo', decide_true,
              Bool.and_true]
      · rw [if_neg hall]
        by_cases hr : refs.all id = true
        · rw [if_pos hr]
          exact (promise_unchanged ⟨rfl, rfl, rfl, rfl, id⟩).2 rfl
        · rw [if_neg hr]
          exact (promise_error vxFailure_ne).2 ⟨rfl, rfl, rfl, rfl⟩

/-- **What a call promises is kept exactly under the condition**, whatever the graph. -/
theorem kept_iff (h : s.Bounded) : ∀ c : ScheduleCall, Kept s c ↔ s.Exact c
  | .schedule V _ => kept_schedule h V
  | .enqueue g refs _ => kept_enqueue h g refs

end ScheduleCall

/-! ## The runs of a graph -/

/-- What happens to a graph: what the application sets and edits, a verification and the calls that request runs, the
schedules of the streaming task and of a completion, a target that takes a ready reference, and a leaf node that ends. -/
inductive SchedAct
  | setGraphAttribute (pipelineDepth : Nat)
  | setGraphPipelineDepth (pipelineDepth : Nat)
  | setGraphScheduleConfig (queueing isManual : Bool) (queueEnable : List Bool)
  | enableGraphStreaming
  | edit
  | verifyGraph (V : IdVerification)
  | call (c : ScheduleCall)
  | streamingTask (V : IdVerification) (sends : Nat → Bool)
  | acquireRef (g : Nat)
  | leafNodeCompleted (pipelineId : Nat) (abandoned : Bool)
  | scheduleOwed (numSchedule : Nat) (sends : Nat → Bool)

/-- **One step of a graph.** -/
def schedStep (s : SchedGraph) : SchedAct → Option SchedGraph
  | .setGraphAttribute d => (idStep s.toGraphIds (.setGraphAttribute d)).map fun ids => { s with toGraphIds := ids }
  | .setGraphPipelineDepth d => (idStep s.toGraphIds (.setGraphPipelineDepth d)).map fun ids => { s with toGraphIds := ids }
  | .setGraphScheduleConfig queueing isManual queueEnable =>
    (idStep s.toGraphIds (.setGraphScheduleConfig queueing)).map fun ids =>
      { s with
        toGraphIds := ids
        isManual := if s.verified then s.isManual else isManual
        queueEnable := if queueing && !s.verified then queueEnable else s.queueEnable }
  | .enableGraphStreaming => (idStep s.toGraphIds .enableGraphStreaming).map fun ids => { s with toGraphIds := ids }
  | .edit => (idStep s.toGraphIds .edit).map fun ids => { s with toGraphIds := ids, state := .unverified }
  | .verifyGraph V => some (s.vxVerifyGraph V).1
  | .call c => some (c.run s).1
  | .streamingTask V sends => if s.isStreamingEnabled then some (s.ownGraphScheduleGraphWrapper V sends).1 else none
  | .acquireRef g => some { s with readyCounts := s.readyCounts.modify g (Option.map fun count => count - 1) }
  | .leafNodeCompleted id abandoned => if id ∈ s.inFlight then some (s.ownCheckGraphCompleted id abandoned) else none
  | .scheduleOwed n sends =>
    if n ∈ s.owed then some ({ s with owed := s.owed.erase n }.ownGraphScheduleGraph n sends).1 else none

namespace SchedGraph

variable {s s' : SchedGraph}

theorem submitGraph_free (n : Nat) (s : GraphIds) : (submitGraph n s).2.freeQ.length ≤ s.freeQ.length := by
  induction n generalizing s with
  | zero => exact Nat.le_refl _
  | succ n ih =>
    have hd : (ownGraphDequeueFreeObjDesc s).2.freeQ.length ≤ s.freeQ.length := by
      unfold ownGraphDequeueFreeObjDesc
      split
      · exact Nat.le_refl _
      · rename_i hq
        rw [hq]
        exact Nat.le_succ _
    unfold submitGraph
    split
    · rename_i hdq
      rw [hdq] at hd
      exact hd
    · rename_i hdq
      rw [hdq] at hd
      exact Nat.le_trans (ih _) hd

/-- A schedule keeps the counts within their type. -/
theorem bounded_schedule (h : s.Bounded) (n : Nat) (sends : Nat → Bool) : (s.ownGraphScheduleGraph n sends).1.Bounded := by
  obtain ⟨h1, h2, h3⟩ := submitGraph_spec ((n + s.schedulePendingCount) % 2 ^ 32) s.toGraphIds h.submitted
  have hf := submitGraph_free ((n + s.schedulePendingCount) % 2 ^ 32) s.toGraphIds
  have hlt : (n + s.schedulePendingCount) % 2 ^ 32 < 2 ^ 32 := Nat.mod_lt _ (by decide)
  have hsub : (submitGraph ((n + s.schedulePendingCount) % 2 ^ 32) s.toGraphIds).2.submittedCount < 2 ^ 32 := by
    rw [h2]
    exact Nat.mod_lt _ (by decide)
  change (Tiovx.ownGraphScheduleGraph n s.toGraphIds).Bounded
  unfold Tiovx.ownGraphScheduleGraph
  dsimp only
  split
  · refine ⟨hsub, ?_, Nat.le_trans hf h.free⟩
    dsimp only
    rw [h1]
    exact Nat.lt_of_le_of_lt (Nat.sub_le _ _) hlt
  · exact ⟨hsub, h3.trans_lt h.pending, Nat.le_trans hf h.free⟩

theorem bounded_wrapper (h : s.Bounded) (V : IdVerification) (sends : Nat → Bool) :
    (s.ownGraphScheduleGraphWrapper V sends).1.Bounded := by
  have ht := (ensured s V).same.bounded h
  unfold ownGraphScheduleGraphWrapper
  dsimp only
  split
  · split
    · exact bounded_schedule ht _ sends
    · split
      · split
        · exact bounded_schedule ht _ sends
        · exact ht
      · split <;> exact ht
  · exact ht

theorem bounded_call (h : s.Bounded) : ∀ c : ScheduleCall, (c.run s).1.Bounded
  | .schedule V sends => by
    change (s.vxScheduleGraph V sends).1.Bounded
    unfold vxScheduleGraph
    split
    · exact h
    · split
      · exact h
      · exact bounded_wrapper h V sends
  | .enqueue g refs sends => by
    change (s.ownGraphParameterEnqueueReadyRef g refs sends).1.Bounded
    unfold ownGraphParameterEnqueueReadyRef
    split
    · exact h
    · dsimp only
      split
      · split
        · exact h
        · split
          · exact bounded_schedule (s := { s with readyCounts := _ }) h _ sends
          · exact h
      · exact h

theorem bounded_completed (h : s.Bounded) (id : Nat) (abandoned : Bool) : (s.ownCheckGraphCompleted id abandoned).Bounded := by
  change (Tiovx.ownCheckGraphCompleted id s.toGraphIds).Bounded
  unfold Tiovx.ownCheckGraphCompleted
  split
  · exact h
  · split
    · exact (sameCounts_enqueueFree _ _).bounded ⟨Nat.mod_lt _ (by decide), (by decide : 0 < 2 ^ 32), h.free⟩
    · exact ⟨h.submitted, h.pending, h.free⟩

theorem bounded_config {ids : GraphIds} {queueing : Bool} (h : s.Bounded)
    (hs : idStep s.toGraphIds (.setGraphScheduleConfig queueing) = some ids) : ids.Bounded := by
  cases hs
  split
  · exact h
  · split <;> exact ⟨h.submitted, h.pending, h.free⟩

theorem bounded_of_step {a : SchedAct} (h : s.Bounded) (hs : schedStep s a = some s') : s'.Bounded := by
  cases a with
  | setGraphAttribute d | setGraphPipelineDepth d =>
    cases hs
    dsimp only
    split
    · exact ⟨h.submitted, h.pending, h.free⟩
    · exact h
  | setGraphScheduleConfig queueing isManual enable =>
    simp only [schedStep, Option.map_eq_some_iff] at hs
    obtain ⟨ids, hids, rfl⟩ := hs
    exact bounded_config h hids
  | enableGraphStreaming | edit =>
    cases hs
    exact ⟨h.submitted, h.pending, h.free⟩
  | verifyGraph V =>
    cases hs
    exact (sameCounts_verify V s.toGraphIds).bounded h
  | call c =>
    cases hs
    exact bounded_call h c
  | streamingTask V sends =>
    simp only [schedStep] at hs
    split at hs
    · cases hs
      exact bounded_wrapper h V sends
    · cases hs
  | acquireRef g =>
    cases hs
    exact h
  | leafNodeCompleted id abandoned =>
    simp only [schedStep] at hs
    split at hs
    · cases hs
      exact bounded_completed h id abandoned
    · cases hs
  | scheduleOwed n sends =>
    simp only [schedStep] at hs
    split at hs
    · cases hs
      exact bounded_schedule (s := { s with owed := _ }) h n sends
    · cases hs

/-- A graph as it is created, with nodes of these kernels. -/
def created (prmNode pipeupBufIdx : Nat → Nat) : SchedGraph := { prmNode, pipeupBufIdx }

theorem bounded_of_reach {prmNode pipeupBufIdx : Nat → Nat}
    (h : Reach schedStep (fun s a => anyStep s a = true) (created prmNode pipeupBufIdx) s) : s.Bounded :=
  h.inv (I := fun s => s.Bounded)
    ⟨(by decide : 0 < 2 ^ 32), (by decide : 0 < 2 ^ 32), Nat.zero_le _⟩ (fun _ _ _ hi _ hs => bounded_of_step hi hs)

/-- **In every state of a graph a call that requests runs keeps what its status promises** exactly where the graph is in a
state to be scheduled, or no run is requested, and what is then submitted fits and is sent. -/
theorem kept_of_reach {prmNode pipeupBufIdx : Nat → Nat}
    (h : Reach schedStep (fun s a => anyStep s a = true) (created prmNode pipeupBufIdx) s) (c : ScheduleCall) :
    c.Kept s ↔ s.Exact c := ScheduleCall.kept_iff (bounded_of_reach h) c

/-- A graph that runs is scheduled again: the status is `VX_SUCCESS`, and no run is submitted. -/
theorem running_not_kept : ∃ s, Reach schedStep (fun s a => anyStep s a = true) (created id fun _ => 1) s ∧
    ((ScheduleCall.schedule {} fun _ => true).run s).2 = vxSuccess ∧ ¬ (ScheduleCall.schedule {} fun _ => true).Kept s := by
  have hexec : (exec schedStep anyStep (created id fun _ => 1) [.call (.schedule {} fun _ => true)]).map
      (fun s => (s.verified, s.state, s.isStreamingEnabled, s.queueing)) = some (true, .running, false, false) := by decide
  obtain ⟨s, hr, hs⟩ := exists_reach_of_exec hexec
  simp only [Prod.mk.injEq] at hs
  obtain ⟨hver, hstate, hst, hq⟩ := hs
  have hrun : (ScheduleCall.schedule {} fun _ => true).run s = (s, vxSuccess) := by
    simp only [ScheduleCall.run, vxScheduleGraph, hst, hq, ownGraphScheduleGraphWrapper, ensureVerified, hver, schedulable,
      hstate, Bool.false_and, if_true, Bool.false_eq_true, if_false, and_false]
  refine ⟨s, hr, by rw [hrun], fun hk => ?_⟩
  unfold ScheduleCall.Kept at hk
  rw [hrun, ScheduleCall.promise_unchanged ⟨rfl, rfl, rfl, rfl, id⟩] at hk
  simp only [ScheduleCall.requested, hq, Bool.false_eq_true, if_false, Nat.one_ne_zero] at hk

/-- Three references are ready at both parameters of a graph with two descriptors: three runs are requested, and two are
submitted. -/
theorem manual_kept : ∃ s, Reach schedStep (fun s a => anyStep s a = true) (created id fun _ => 1) s ∧
    s.ownGraphGetNumSchedule = 3 ∧ (ScheduleCall.schedule {} fun _ => true).Kept s := by
  have hexec : (exec schedStep anyStep (created id fun _ => 1)
      [.setGraphScheduleConfig true true [true, true], .setGraphPipelineDepth 2, .verifyGraph {},
        .call (.enqueue 0 [true, true, true] fun _ => true), .call (.enqueue 1 [true, true, true] fun _ => true)]).map
      (fun s => ((s.verified, s.state, s.queueing), s.ownGraphGetNumSchedule, s.submittedCount, s.schedulePendingCount,
        s.freeDescs.length)) = some ((true, .verified, true), 3, 0, 0, 2) := by decide
  obtain ⟨s, hr, hs⟩ := exists_reach_of_exec hexec
  simp only [Prod.mk.injEq] at hs
  obtain ⟨⟨hver, hstate, hq⟩, hn, hsub, hp, hf⟩ := hs
  refine ⟨s, hr, hn, (kept_of_reach hr _).2 fun _ _ _ => ?_⟩
  have hens : (s.ensureVerified {}).1 = s := (ensured s {}).was hver
  rw [hens]
  rw [if_pos (by simp only [schedulable, hstate]), if_pos hq]
  refine .inr ?_
  unfold Fits
  rw [hn, hsub, hp, hf]
  decide

end SchedGraph

end Tiovx
