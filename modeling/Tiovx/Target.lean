import Tiovx.AcquireParameters
/-!
# Target — the steps of the targets and of the host (`vx_target.c`, `vx_graph_pipeline.c`)

A target executes one descriptor of its job queue at a time; application threads enqueue and dequeue references and
schedule the graph.  `Pc` says where a thread stands, and one step of a thread runs it up to its next access of what
others share.  What a lock of the source protects is one step, but for `ownGraphScheduleGraph`, which holds the lock
of the graph while the targets go on.  A message to another core is in the job queue of its target once it is sent.
-/
namespace Tiovx

/-- `TIVX_TARGET_MAX_JOB_QUEUE_DEPTH`. -/
def targetMaxJobQueueDepth : Nat := 96

/-- What a job queue holds: a node to execute, or one of the two commands a target sends to the host. -/
inductive Job
  | node (n : NodeId)
  | nodeUserCallback (n : NodeId)
  | dataRefConsumed (dq : Nat)
deriving DecidableEq

/-- A graph parameter with queueing enabled. -/
structure GraphParam where
  readyQ : Nat
  doneQ : Nat
  refsList : List Nat

/-- A verified graph.  `hostOnly` are the targets of cores built with `HOST_ONLY`; `isNormal` is a graph in
`VX_GRAPH_SCHEDULE_MODE_NORMAL` that does not stream. -/
structure Graph where
  table : ObjDescTable
  hostOnly : Nat → Bool
  hostTarget : Nat
  numNodes : Nat
  pipelineDepth : Nat
  headNodes : List Nat
  numLeafNodes : Nat
  isNormal : Bool
  parameters : List GraphParam

/-- A target's task, or a thread of the application. -/
inductive Tid
  | target (id : Nat)
  | user (id : Nat)
deriving DecidableEq

/-- Where a thread stands.  `pipeup` counts the buffers of the pipe-up still to fill, `prms` is `prm_obj_desc_id` as far
as it is written, and `blocked` the `blocked_node_id` taken when the node was marked complete. -/
inductive Pc
  | idle
  | nodeExecute (n : NodeId)
  | isPrevPipeNodeBlocked (n : NodeId)
  | acquire (n : NodeId) (pipeup : Nat) (prms : List Nat)
  | kernel (n : NodeId) (pipeup : Nat) (prms : List Nat)
  | markComplete (n : NodeId) (prms : List Nat)
  | release (n : NodeId) (prms : List Nat) (prmId : Nat) (blocked : Option NodeId)
  | retrigger (n : NodeId) (prms : List Nat) (prmId : Nat) (blocked : Option NodeId) (isPrmReleased : Bool)
      (nodes : List NodeId)
  | sendComplete (n : NodeId) (blocked : Option NodeId)
  | triggerNext (n : NodeId) (i : Nat) (blocked : Option NodeId)
  | sendNext (n : NodeId) (i : Nat) (blocked : Option NodeId)
  | triggerBlocked (blocked : Option NodeId)
  | checkGraphCompleted (n : NodeId)
  | userRetrigger (nodes : List NodeId)
  | scheduleGraph (numSchedule : Nat)
  | schedule (left : Nat)
  | clearState (p left i : Nat)
  | scheduleHeads (p left i : Nat)
deriving DecidableEq

/-- What happened, for the statements about runs. -/
inductive Event
  | scheduled (p : Nat)
  | completed (p : Nat)
  | parked (n : NodeId)
  | proceeded (n : NodeId)
  | acquired (dq ref : Nat) (isPipeup : Bool)
  | recorded (q : Nat) (n : NodeId)
  | handedOut (nodes : List NodeId)
  | executed (n : NodeId) (isPipeup : Bool) (prms : List Nat)
  | markedComplete (n : NodeId)
  | released (dq : Nat) (exchanged : Option (Nat × Nat))
  | enqueued (q ref : Nat)
  | dequeued (q ref : Nat)
deriving DecidableEq

/-- The state of the targets, the application threads and the host; `trace` is newest first. -/
structure Sys where
  shm : Shm
  jobQ : Nat → List Job
  pc : Tid → Pc
  lock : Option Tid
  completeLeafNodes : Nat → Nat
  freeQ : List Nat
  submittedCount : Nat
  schedulePendingCount : Nat
  trace : List Event

/-- `ownObjDescSend`: a full job queue drops the descriptor, and no caller looks at the status. -/
def ownObjDescSend (J : Nat → List Job) (dst : Nat) (j : Job) : Nat → List Job :=
  if (J dst).length < targetMaxJobQueueDepth then Function.update J dst (J dst ++ [j]) else J

/-- `ownTargetTriggerNode`. -/
def ownTargetTriggerNode (T : ObjDescTable) (J : Nat → List Job) (n : NodeId) : Nat → List Job :=
  match T.node n with
  | none => J
  | some N => ownObjDescSend J N.targetId (.node n)

namespace Sys

def setPc (s : Sys) (t : Tid) (pc : Pc) : Sys := { s with pc := Function.update s.pc t pc }

def log (s : Sys) (e : Event) : Sys := { s with trace := e :: s.trace }

def setNode (s : Sys) (n : NodeId) (N : Node) : Sys :=
  { s with shm := { s.shm with node := Function.update s.shm.node n N } }

end Sys

/-- `ownTargetNodeDescCanNodeExecute`. -/
def ownTargetNodeDescCanNodeExecute (T : ObjDescTable) (m : Shm) (N : NodeDesc) : Bool :=
  N.inNodeId.all (fun k => (T.node k).isNone || (m.node k).isExecuted)

/-- Node `n` is blocked, and recorded at its previous instance `k`. -/
def parkOn (n k : NodeId) (m : Shm) : Shm :=
  let node := Function.update m.node n { m.node n with state := .blocked }
  { m with node := Function.update node k { node k with blockedNodeId := some n } }

/-- `ownTargetNodeDescIsPrevPipeNodeBlocked`. -/
def ownTargetNodeDescIsPrevPipeNodeBlocked (T : ObjDescTable) (n : NodeId) (N : NodeDesc) (m : Shm) : Shm × Bool :=
  match N.prevPipeNodeId with
  | none => (m, false)
  | some k =>
    if (T.node k).isNone then (m, false)
    else
      match (m.node n).state with
      | .idle =>
        if (m.node k).state = .idle then (m, false)
        else (parkOn n k m, true)
      | .blocked => ({ m with node := Function.update m.node n { m.node n with state := .idle } }, false)

/-- **What the look at the previous instance can do**: nothing, where there is none or both are idle; park the node on an
instance that is not idle; or make a blocked node idle, whatever it was blocked on. -/
theorem isPrevPipeNodeBlocked_cases (T : ObjDescTable) (n : NodeId) (N : NodeDesc) (m : Shm) :
    (ownTargetNodeDescIsPrevPipeNodeBlocked T n N m = (m, false) ∧
      ∀ k, N.prevPipeNodeId = some k → (T.node k).isSome → (m.node n).state = .idle ∧ (m.node k).state = .idle) ∨
    (∃ k, N.prevPipeNodeId = some k ∧ (T.node k).isSome ∧ (m.node n).state = .idle ∧ (m.node k).state = .blocked ∧
      ownTargetNodeDescIsPrevPipeNodeBlocked T n N m = (parkOn n k m, true)) ∨
    (∃ k, N.prevPipeNodeId = some k ∧ (T.node k).isSome ∧ (m.node n).state = .blocked ∧
      ownTargetNodeDescIsPrevPipeNodeBlocked T n N m =
        ({ m with node := Function.update m.node n { m.node n with state := .idle } }, false)) := by
  unfold ownTargetNodeDescIsPrevPipeNodeBlocked
  cases hp : N.prevPipeNodeId with
  | none => exact .inl ⟨rfl, fun k hk => by cases hk⟩
  | some k =>
    simp only [Option.some.injEq, exists_eq_left']
    cases hk : T.node k with
    | none => exact .inl ⟨rfl, fun k' hk' h => by subst hk'; simp [hk] at h⟩
    | some K =>
      simp only [Option.isNone_some, Bool.false_eq_true, if_false, Option.isSome_some, true_and]
      cases hn : (m.node n).state with
      | blocked => exact .inr (.inr ⟨rfl, rfl⟩)
      | idle =>
        cases hs : (m.node k).state with
        | idle => exact .inl ⟨by simp, fun k' hk' _ => by subst hk'; exact ⟨rfl, hs⟩⟩
        | blocked => exact .inr (.inl ⟨rfl, rfl, by simp⟩)

theorem isPrevPipeNodeBlocked_queue {T : ObjDescTable} {n : NodeId} {N : NodeDesc} {m m' : Shm} {b : Bool}
    (hm : ownTargetNodeDescIsPrevPipeNodeBlocked T n N m = (m', b)) : m'.queue = m.queue ∧ m'.dataRefQ = m.dataRefQ := by
  obtain ⟨h, -⟩ | ⟨k, -, -, -, -, h⟩ | ⟨k, -, -, -, h⟩ := isPrevPipeNodeBlocked_cases T n N m <;> rw [h] at hm <;>
    cases hm <;> exact ⟨rfl, rfl⟩

theorem isPrevPipeNodeBlocked_isExecuted {T : ObjDescTable} {n : NodeId} {N : NodeDesc} {m m' : Shm} {b : Bool}
    (hm : ownTargetNodeDescIsPrevPipeNodeBlocked T n N m = (m', b)) (k : NodeId) :
    (m'.node k).isExecuted = (m.node k).isExecuted := by
  obtain ⟨h, -⟩ | ⟨j, -, -, -, -, h⟩ | ⟨j, -, -, -, h⟩ := isPrevPipeNodeBlocked_cases T n N m <;> rw [h] at hm <;>
    cases hm
  · rfl
  · simp only [parkOn, Function.update_apply]
    split <;> (try split) <;> simp_all
  · simp only [Function.update_apply]
    split <;> simp_all

/-- The buffers `ownTargetNodeDescNodeExecute` fills before the one it executes. -/
def pipeupBufs (T : ObjDescTable) (n : NodeId) (N : NodeDesc) (m : Shm) : Nat :=
  if N.isTargetKernel then
    match T.kernelInstance N.targetKernelIndex with
    | none => 0
    | some numBufs => if m.kernelInstance N.targetKernelIndex = .pipeup then numBufs - 1 else 0
  else if (m.node n).sourceState = .pipeup then N.numPipeupBufs - 1 else 0

/-- The end of the pipe-up: the node is steady. -/
def setSteady (T : ObjDescTable) (n : NodeId) (N : NodeDesc) (m : Shm) : Shm :=
  { m with
    node := Function.update m.node n { m.node n with sourceState := .steady }
    kernelInstance := if N.isTargetKernel && (T.kernelInstance N.targetKernelIndex).isSome then
      Function.update m.kernelInstance N.targetKernelIndex .steady else m.kernelInstance }

/-- `ownTargetNodeDescNodeMarkComplete`, which also gives the `blocked_node_id` it clears. -/
def ownTargetNodeDescNodeMarkComplete (n : NodeId) (m : Shm) : Shm × Option NodeId :=
  ({ m with
    node := Function.update m.node n
      { m.node n with blockedNodeId := none, state := .idle, isExecuted := true } }, (m.node n).blockedNodeId)

/-- The ids a kernel may leave in `prm_obj_desc_id`: it changes the parameters bound to data reference queues only. -/
def kernelLeaves : List Prm → List Nat → List Nat → Bool
  | P :: l, a :: as, b :: bs => (P.isDataRefQ || a == b) && kernelLeaves l as bs
  | _, [], [] => true
  | _, _, _ => false

/-- One iteration of `ownTargetNodeDescAcquireAllParameters`, and what follows the last one. -/
def acquireStep (T : ObjDescTable) (s : Sys) (t : Tid) (n : NodeId) (N : NodeDesc) (pipeup : Nat) (prms : List Nat) :
    Sys :=
  match N.prms[prms.length]? with
  | none =>
    if N.prms.all (fun P => P.isDataRefQ && (T.dataRefQ P.dataRefQId).isNone) then
      -- all parameters are invalid: the node is blocked, on no queue
      (s.setNode n { s.shm.node n with state := .blocked }).setPc t
        (if pipeup = 0 then .idle else .kernel n pipeup prms)
    else s.setPc t (.kernel n pipeup prms)
  | some P =>
    if P.isDataRefQ then
      match T.dataRefQ P.dataRefQId with
      | none => s.setPc t (.acquire n pipeup (prms ++ [objDescInvalid]))
      | some D =>
        match ownTargetNodeDescAcquireParameter n P.dataRefQId D (decide (0 < pipeup)) s.shm with
        | (m, refObjDescId, isNodeBlocked) =>
          let s' := { s with shm := m }
          if isNodeBlocked then (s'.log (.recorded D.acquireQObjDescId n)).setPc t .idle
          else if (s.shm.dataRefQ P.dataRefQId).isRefAcquired || refObjDescId == objDescInvalid then
            s'.setPc t (.acquire n pipeup (prms ++ [refObjDescId]))
          else (s'.log (.acquired P.dataRefQId refObjDescId (decide (0 < pipeup)))).setPc t
            (.acquire n pipeup (prms ++ [refObjDescId]))
    else s.setPc t (.acquire n pipeup (prms ++ [P.dataId]))

/-- The reference a kernel keeps and the one it gives in its place, where a release changes the one the descriptor
holds. -/
def exchangedRefs (S : DataRefQ) (refObjDescId : Nat) (isPrmInput : Bool) (R : Released) : Option (Nat × Nat) :=
  if S.isRefAcquired && (!isPrmInput || R.isPrmReleased) && S.refObjDescId != refObjDescId then
    some (S.refObjDescId, refObjDescId)
  else none

/-- One iteration of `ownTargetNodeDescReleaseAllParameters`. -/
def releaseStep (G : Graph) (s : Sys) (t : Tid) (hostOnly : Bool) (n : NodeId) (N : NodeDesc) (prms : List Nat)
    (prmId : Nat) (blocked : Option NodeId) : Sys :=
  match N.prms[prmId]? with
  | none => s.setPc t (.sendComplete n blocked)
  | some P =>
    if P.isDataRefQ then
      match G.table.dataRefQ P.dataRefQId with
      | none => s.setPc t (.release n prms (prmId + 1) blocked)
      | some D =>
        let ref := prms.getD prmId objDescInvalid
        let R := ownTargetNodeDescReleaseParameter G.table hostOnly P.dataRefQId D ref (P.isInput || P.isBidi) s.shm
        let E := exchangedRefs (s.shm.dataRefQ P.dataRefQId) ref (P.isInput || P.isBidi) R
        (({ s with shm := R.shm }.log (.released P.dataRefQId E)).log (.handedOut R.blockedNodes)).setPc t
          (.retrigger n prms prmId blocked R.isPrmReleased R.blockedNodes)
    else s.setPc t (.release n prms (prmId + 1) blocked)

/-- One iteration of the loop that re-triggers, then `ownTargetObjDescSendRefConsumed`. -/
def retriggerStep (G : Graph) (s : Sys) (t : Tid) (n : NodeId) (N : NodeDesc) (prms : List Nat) (prmId : Nat)
    (blocked : Option NodeId) (isPrmReleased : Bool) : List NodeId → Sys
  | k :: nodes =>
    { s with jobQ := ownTargetTriggerNode G.table s.jobQ k }.setPc t
      (.retrigger n prms prmId blocked isPrmReleased nodes)
  | [] =>
    let dq := (N.prms[prmId]?.map Prm.dataRefQId).getD objDescInvalid
    let isEnabled := ((G.table.dataRefQ dq).map DataRefQDesc.isEnableRefConsumedEvent).getD false
    { s with
      jobQ := if isPrmReleased && isEnabled then ownObjDescSend s.jobQ G.hostTarget (.dataRefConsumed dq)
        else s.jobQ }.setPc t (.release n prms (prmId + 1) blocked)

/-- One iteration of `ownTargetNodeDescTriggerNextNodes`, up to the send. -/
def triggerNextStep (T : ObjDescTable) (s : Sys) (t : Tid) (n : NodeId) (N : NodeDesc) (i : Nat)
    (blocked : Option NodeId) : Sys :=
  match N.outNodeId[i]? with
  | none => s.setPc t (.triggerBlocked blocked)
  | some k =>
    match T.node k with
    | none => s.setPc t (.triggerNext n (i + 1) blocked)
    | some K =>
      if ownTargetNodeDescCanNodeExecute T s.shm K then s.setPc t (.sendNext n i blocked)
      else s.setPc t (.triggerNext n (i + 1) blocked)

/-- `ownCheckGraphCompleted` for a leaf node of pipeline instance `p`. -/
def checkGraphCompletedStep (G : Graph) (s : Sys) (t : Tid) (p : Nat) : Sys :=
  let cnt := s.completeLeafNodes p + 1
  if cnt = G.numLeafNodes then
    { s with
      completeLeafNodes := Function.update s.completeLeafNodes p 0
      submittedCount := s.submittedCount - 1
      freeQ := s.freeQ ++ [p]
      schedulePendingCount := 0
      trace := .completed p :: s.trace }.setPc t
        (if s.schedulePendingCount = 0 then .idle else .scheduleGraph s.schedulePendingCount)
  else { s with completeLeafNodes := Function.update s.completeLeafNodes p cnt }.setPc t .idle

/-- The end of `ownGraphScheduleGraph`, with `left` schedules not made. -/
def scheduleEnd (G : Graph) (s : Sys) (t : Tid) (left : Nat) : Sys :=
  { s with
    schedulePendingCount := if G.isNormal then s.schedulePendingCount else left
    lock := none }.setPc t .idle

/-- One iteration of `ownGraphScheduleGraph`, up to the clearing of the instance. -/
def scheduleStep (G : Graph) (s : Sys) (t : Tid) : Nat → Sys
  | 0 => scheduleEnd G s t 0
  | left + 1 =>
    match s.freeQ with
    | [] => scheduleEnd G s t (left + 1)
    | p :: freeQ => { s with freeQ := freeQ, trace := .scheduled p :: s.trace }.setPc t (.clearState p left 0)

/-- A target takes the next descriptor of its job queue. -/
def takeJob (G : Graph) (s : Sys) (id : Nat) : Option Sys :=
  match s.jobQ id with
  | [] => none
  | j :: l =>
    let s := { s with jobQ := Function.update s.jobQ id l }
    match j with
    | .node n => some (s.setPc (.target id) (.nodeExecute n))
    | .nodeUserCallback n =>
      match G.table.node n with
      | none => some (s.setPc (.target id) .idle)
      | some N => some (s.setPc (.target id) (if N.outNodeId = [] then .checkGraphCompleted n else .idle))
    | .dataRefConsumed _ => some (s.setPc (.target id) .idle)

/-- The next step of a thread about to go on with node `n`. -/
def nodeStep (G : Graph) (s : Sys) (t : Tid) (hostOnly : Bool) (n : NodeId) (N : NodeDesc) : Pc → Option Sys
  | .nodeExecute _ =>
    some (s.setPc t (if (s.shm.node n).isExecuted then .idle else .isPrevPipeNodeBlocked n))
  | .isPrevPipeNodeBlocked _ =>
    match ownTargetNodeDescIsPrevPipeNodeBlocked G.table n N s.shm with
    | (m, true) => some (({ s with shm := m }.log (.parked n)).setPc t .idle)
    | (m, false) => some (({ s with shm := m }.log (.proceeded n)).setPc t (.acquire n (pipeupBufs G.table n N m) []))
  | .acquire _ pipeup prms => some (acquireStep G.table s t n N pipeup prms)
  | .markComplete _ prms =>
    match ownTargetNodeDescNodeMarkComplete n s.shm with
    | (m, blocked) => some (({ s with shm := m }.log (.markedComplete n)).setPc t (.release n prms 0 blocked))
  | .release _ prms prmId blocked => some (releaseStep G s t hostOnly n N prms prmId blocked)
  | .retrigger _ prms prmId blocked isPrmReleased nodes =>
    some (retriggerStep G s t n N prms prmId blocked isPrmReleased nodes)
  | .sendComplete _ blocked =>
    some ({ s with
      jobQ := if N.isUserCallback || N.outNodeId.isEmpty then ownObjDescSend s.jobQ G.hostTarget (.nodeUserCallback n)
        else s.jobQ }.setPc t (.triggerNext n 0 blocked))
  | .triggerNext _ i blocked => some (triggerNextStep G.table s t n N i blocked)
  | .sendNext _ i blocked =>
    match N.outNodeId[i]? with
    | none => none
    | some k => some ({ s with jobQ := ownTargetTriggerNode G.table s.jobQ k }.setPc t (.triggerNext n (i + 1) blocked))
  | _ => none

/-- The node descriptor a target works on. -/
def Pc.nodeId : Pc → Option NodeId
  | .nodeExecute n | .isPrevPipeNodeBlocked n | .acquire n _ _ | .kernel n _ _ | .markComplete n _
  | .release n _ _ _ | .retrigger n _ _ _ _ _ | .sendComplete n _ | .triggerNext n _ _ | .sendNext n _ _ => some n
  | _ => none

/-- The next step of a thread, where it does not wait for a kernel, a lock or a job. -/
def threadStep (G : Graph) (s : Sys) (t : Tid) : Option Sys :=
  match s.pc t with
  | .idle =>
    match t with
    | .target id => takeJob G s id
    | .user _ => none
  | .triggerBlocked none => some (s.setPc t .idle)
  | .triggerBlocked (some k) => some ({ s with jobQ := ownTargetTriggerNode G.table s.jobQ k }.setPc t .idle)
  | .checkGraphCompleted n => if s.lock = none then some (checkGraphCompletedStep G s t n.pipe) else none
  | .userRetrigger [] => some (s.setPc t .idle)
  | .userRetrigger (k :: nodes) =>
    some ({ s with jobQ := ownTargetTriggerNode G.table s.jobQ k }.setPc t (.userRetrigger nodes))
  | .scheduleGraph k =>
    if s.lock = none then some ({ s with lock := some t }.setPc t (.schedule (k + s.schedulePendingCount))) else none
  | .schedule left => some (scheduleStep G s t left)
  | .clearState p left i =>
    if i < G.numNodes then
      some ((s.setNode ⟨i, p⟩ { s.shm.node ⟨i, p⟩ with isExecuted := false }).setPc t (.clearState p left (i + 1)))
    else some ({ s with submittedCount := s.submittedCount + 1 }.setPc t (.scheduleHeads p left 0))
  | .scheduleHeads p left i =>
    match G.headNodes[i]? with
    | none => some (s.setPc t (.schedule left))
    | some h =>
      some ({ s with jobQ := ownTargetTriggerNode G.table s.jobQ ⟨h, p⟩ }.setPc t (.scheduleHeads p left (i + 1)))
  | pc =>
    match pc.nodeId with
    | none => none
    | some n =>
      match G.table.node n with
      | none => some (s.setPc t .idle)
      | some N => nodeStep G s t (match t with | .target id => G.hostOnly id | .user _ => false) n N pc

/-- A kernel returns, with `prms` left in `prm_obj_desc_id`. -/
def kernelStep (G : Graph) (s : Sys) (t : Tid) (prms : List Nat) : Option Sys :=
  match s.pc t with
  | .kernel n pipeup prms₀ =>
    match G.table.node n with
    | none => none
    | some N =>
      if kernelLeaves N.prms prms₀ prms then
        match pipeup with
        | 0 => some ((s.log (.executed n false prms₀)).setPc t (.markComplete n prms))
        | 1 =>
          some (({ s with shm := setSteady G.table n N s.shm }.log (.executed n true prms₀)).setPc t (.acquire n 0 []))
        | p + 2 => some ((s.log (.executed n true prms₀)).setPc t (.acquire n (p + 1) []))
      else none
  | _ => none

/-- What moves: a thread; a kernel, returning with these ids; or a thread of the application calling
`vxGraphParameterEnqueueReadyRef`, `vxGraphParameterDequeueDoneRef` for one reference, or `vxScheduleGraph`. -/
inductive Act
  | thread (t : Tid)
  | kernel (t : Tid) (prms : List Nat)
  | enqueueReadyRef (u graphParameterIndex ref : Nat)
  | dequeueDoneRef (u graphParameterIndex : Nat)
  | scheduleGraph (u numSchedule : Nat)
deriving DecidableEq

/-- One reference of `ownGraphParameterEnqueueReadyRef`, up to the triggers.  The application may enqueue any reference
of the parameter's list: what the source refuses here only makes fewer runs. -/
def enqueueReadyRef (s : Sys) (t : Tid) (P : GraphParam) (ref : Nat) : Option Sys :=
  if ref ∈ P.refsList then
    match ownObjDescQueueEnqueue s.shm.queue P.readyQ ref with
    | none => some s
    | some Q =>
      match ownObjDescQueueExtractBlockedNodes Q P.readyQ [] with
      | (Q, nodes) =>
        some ((({ s with shm := { s.shm with queue := Q } }.log (.enqueued P.readyQ ref)).log (.handedOut nodes)).setPc t
          (.userRetrigger nodes))
  else none

/-- One reference of `vxGraphParameterDequeueDoneRef`, which waits for one. -/
def dequeueDoneRef (s : Sys) (P : GraphParam) : Option Sys :=
  match ownObjDescQueueDequeue s.shm.queue P.doneQ with
  | (ref, Q) =>
    if ref = objDescInvalid then none
    else some ({ s with shm := { s.shm with queue := Q } }.log (.dequeued P.doneQ ref))

/-- **One step of the system.** -/
def step (G : Graph) (s : Sys) : Act → Option Sys
  | .thread t => threadStep G s t
  | .kernel t prms => kernelStep G s t prms
  | .enqueueReadyRef u g ref =>
    if s.pc (.user u) = .idle then G.parameters[g]?.bind (fun P => enqueueReadyRef s (.user u) P ref) else none
  | .dequeueDoneRef u g =>
    if s.pc (.user u) = .idle then G.parameters[g]?.bind (fun P => dequeueDoneRef s P) else none
  | .scheduleGraph u k => if s.pc (.user u) = .idle then some (s.setPc (.user u) (.scheduleGraph k)) else none

end Tiovx
