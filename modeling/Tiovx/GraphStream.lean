import Tiovx.FreeQueue
/-!
# GraphStream — the streaming task of a graph and the user that starts and stops it (`vx_graph_stream.c`)

Verification gives a graph that streams a task, an event queue and two events.  The user sends START, STOP and DELETE
through the queue; the completion of the trigger node adds a STREAMING_EVENT to it.  The task schedules a run for a START and
for each STREAMING_EVENT while it is running, and it answers a STOP and a DELETE by posting an event, which a wait takes.

An event is added to the queue, and taken from it, in one step.  A second verification leaves the first task on its own
queue: queues, events and tasks are numbered by the verification that made them.
-/
namespace Tiovx

open StepSystem

/-- `TIVX_EVENT_QUEUE_MAX_SIZE`. -/
def eventQueueMaxSize : Nat := 256

/-! ## The runs -/

/-- What the runs of the graph change.  `scheduleCount` are the pending runs that a completion has taken along and has not
scheduled yet, `triggersDue` the completions of the trigger node still to come; `requested` and `completed` are counted for
the statements only. -/
structure StreamRuns where
  state : VxGraphState := .unverified
  submittedCount : Nat := 0
  schedulePendingCount : Nat := 0
  scheduleCount : Nat := 0
  allGraphCompleted : Bool := false
  triggersDue : Nat := 0
  requested : Nat := 0
  completed : Nat := 0

/-- A graph with at least one graph descriptor: verification raises the depth to the pipe-up buffers of each node. -/
structure GraphDepth where
  pipelineDepth : Nat
  pos : 0 < pipelineDepth

namespace StreamRuns

/-- `ownGraphScheduleGraph` while streaming is enabled: what finds no free descriptor stays pending. -/
def ownGraphScheduleGraph (G : GraphDepth) (R : StreamRuns) (numSchedule : Nat) : StreamRuns :=
  let total := numSchedule + R.schedulePendingCount
  let n := min total (G.pipelineDepth - R.submittedCount)
  { R with
    state := if n = 0 then R.state else .running
    allGraphCompleted := R.allGraphCompleted && n == 0
    submittedCount := R.submittedCount + n
    triggersDue := R.triggersDue + n
    schedulePendingCount := total - n }

/-- `ownCheckGraphCompleted` at the last leaf node of a run, up to the schedule of the pending runs. -/
def ownCheckGraphCompleted (R : StreamRuns) (abandoned : Bool) : StreamRuns :=
  let n := R.submittedCount - 1
  { R with
    submittedCount := n
    completed := R.completed + 1
    state := if n = 0 then (if abandoned then .abandoned else .completed) else R.state
    scheduleCount := R.schedulePendingCount
    schedulePendingCount := 0
    allGraphCompleted := R.allGraphCompleted || (n == 0 && R.schedulePendingCount == 0) }

/-- No run is submitted, pending or on its way to be scheduled. -/
def None (R : StreamRuns) : Prop := R.submittedCount = 0 ∧ R.schedulePendingCount = 0 ∧ R.scheduleCount = 0

/-- The states in which `ownGraphScheduleGraphWrapper` schedules. -/
def schedulable (R : StreamRuns) : Bool :=
  match R.state with
  | .verified | .completed | .abandoned => true
  | .unverified | .running => false

/-- The states in which `vxWaitGraph` waits. -/
def waitable (R : StreamRuns) : Bool :=
  match R.state with
  | .running | .completed | .abandoned => true
  | .unverified | .verified => false

/-- A run is requested. -/
def request (G : GraphDepth) (R : StreamRuns) : StreamRuns :=
  ownGraphScheduleGraph G { R with requested := R.requested + 1 } 1

end StreamRuns

/-! ## The task and the user -/

/-- `START`, `STOP`, `DELETE` and `STREAMING_EVENT`. -/
inductive StreamEvent
  | start
  | stop
  | delete
  | streamingEvent
deriving DecidableEq

/-- `IDLE` and `RUNNING`. -/
inductive TaskState
  | idle
  | running
deriving DecidableEq

/-- Where the streaming task stands: it waits for an event of the queue it read from the graph; it waits for the graph at a
STOP and posts `stop_done`, and is done if the graph failed; it does both after its queue timed out; it posts `delete_done`. -/
inductive TaskPc
  | waitEvent (queue : Nat)
  | stopWait
  | stopPost (done : Bool)
  | errorWait
  | errorPost
  | deletePost
  | ended
deriving DecidableEq

structure StreamTask where
  state : TaskState
  pc : TaskPc
deriving DecidableEq

/-- Where the user's thread stands.  A wait is for the event it read from the graph; `ok` is the status so far. -/
inductive UserPc
  | idle
  | startSend
  | stopCheck
  | stopSend
  | stopWait (event : Nat)
  | stopReturn (ok : Bool)
  | deleteClear
  | deleteSend
  | deleteWait (event : Nat) (ok : Bool)
  | taskDelete (ok : Bool)
  | released
deriving DecidableEq

/-- The graph, its task and its user.  `processed` are the events the task has taken, oldest first; `stopped` are the runs
requested when the last stop succeeded, until the next START is sent; `startFailed` says that the last START could not
be sent. -/
structure StreamSys where
  runs : StreamRuns := {}
  verified : Bool := false
  isStreaming : Bool := false
  isStreamingError : Bool := false
  isStreamingAlloc : Bool := false
  current : Nat := 0
  queue : Nat → Option (List StreamEvent) := fun _ => none
  stopDone : Nat → Bool := fun _ => false
  deleteDone : Nat → Bool := fun _ => false
  task : Nat → Option StreamTask := fun _ => none
  user : UserPc := .idle
  processed : List StreamEvent := []
  stopped : Option Nat := none
  startFailed : Bool := false

/-- How a verification ends: before the streaming objects are allocated, at that, after it, or well. -/
inductive StreamVerify
  | failsBefore
  | allocFails
  | failsAfter
  | succeeds
deriving DecidableEq

namespace StreamSys

/-- `ownEventQueueAddEvent`: a full queue takes no event, nor does a deleted one. -/
def addEvent (s : StreamSys) (e : StreamEvent) : Option StreamSys :=
  match s.queue s.current with
  | some l =>
    if l.length < eventQueueMaxSize then some { s with queue := Function.update s.queue s.current (some (l ++ [e])) }
    else none
  | none => none

/-- `ownGraphAllocForStreaming`, where everything is created. -/
def alloc (s : StreamSys) : StreamSys :=
  { s with
    current := s.current + 1
    queue := Function.update s.queue (s.current + 1) (some [])
    stopDone := Function.update s.stopDone (s.current + 1) false
    deleteDone := Function.update s.deleteDone (s.current + 1) false
    task := Function.update s.task (s.current + 1) (some ⟨.idle, .waitEvent (s.current + 1)⟩)
    isStreamingAlloc := true }

/-- `vxVerifyGraph`, what it does to the streaming objects. -/
def vxVerifyGraph (s : StreamSys) : StreamVerify → StreamSys
  | .failsBefore => { s with verified := false }
  | .allocFails =>
    { s with verified := false, current := s.current + 1, queue := Function.update s.queue (s.current + 1) none }
  | .failsAfter => { s.alloc with verified := false }
  | .succeeds => { s.alloc with verified := true, runs := { s.runs with state := .verified } }

/-- `ownGraphScheduleGraphWrapper` in normal mode, with the verification it makes of a graph that is not verified. -/
def ownGraphScheduleGraphWrapper (G : GraphDepth) (s : StreamSys) (V : StreamVerify) : StreamSys :=
  let s := if s.verified then s else s.vxVerifyGraph V
  if s.verified && s.runs.schedulable then { s with runs := s.runs.request G } else s

def setTask (s : StreamSys) (g : Nat) (t : StreamTask) : StreamSys := { s with task := Function.update s.task g (some t) }

/-- The task takes event `e` and goes through its loop, up to what it waits for or posts; `s` is the state after the event
was taken. -/
def handle (G : GraphDepth) (s : StreamSys) (g : Nat) (V : StreamVerify) : TaskState → StreamEvent → StreamSys
  | .idle, .start =>
    let s := s.ownGraphScheduleGraphWrapper G V
    s.setTask g ⟨.running, .waitEvent s.current⟩
  | .idle, .stop => s.setTask g ⟨.idle, .stopPost false⟩
  | .idle, .streamingEvent => s.setTask g ⟨.idle, .waitEvent s.current⟩
  | .running, .stop => s.setTask g ⟨.idle, .stopWait⟩
  | .running, .streamingEvent => { s with runs := s.runs.request G }.setTask g ⟨.running, .waitEvent s.current⟩
  | .running, .start => s.setTask g ⟨.running, .waitEvent s.current⟩
  | _, .delete => s.setTask g ⟨.idle, .deletePost⟩

/-- One step of `ownStreamingPipeliningTask`.  `timedOut` is that a wait ends without what it waits for; `V` is how a
verification by the task would end. -/
def taskStep (G : GraphDepth) (s : StreamSys) (g : Nat) (timedOut : Bool) (V : StreamVerify) : Option StreamSys :=
  match s.task g with
  | none => none
  | some t =>
    match t.pc with
    | .waitEvent q =>
      match s.queue q with
      | none => none
      | some [] => if timedOut then some ({ s with isStreamingError := true }.setTask g ⟨t.state, .errorWait⟩) else none
      | some (e :: l) =>
        some ({ s with queue := Function.update s.queue q (some l), processed := s.processed ++ [e] }.handle G g V t.state e)
    | .stopWait =>
      if s.runs.waitable && !s.runs.allGraphCompleted && !timedOut then none
      else if s.runs.waitable && s.runs.allGraphCompleted then
        if s.runs.state = .abandoned then
          some ({ s with runs := { s.runs with allGraphCompleted := false }, isStreamingError := true }.setTask g
            ⟨.idle, .stopPost true⟩)
        else some ({ s with runs := { s.runs with allGraphCompleted := false } }.setTask g ⟨.idle, .stopPost false⟩)
      else some ({ s with isStreamingError := true }.setTask g ⟨.idle, .stopPost true⟩)
    | .stopPost done =>
      some ({ s with stopDone := Function.update s.stopDone s.current true }.setTask g
        ⟨t.state, if done then .deletePost else .waitEvent s.current⟩)
    | .errorWait =>
      if s.runs.waitable && !s.runs.allGraphCompleted && !timedOut then none
      else if s.runs.waitable && s.runs.allGraphCompleted then
        some ({ s with runs := { s.runs with allGraphCompleted := false } }.setTask g ⟨t.state, .errorPost⟩)
      else some (s.setTask g ⟨t.state, .errorPost⟩)
    | .errorPost =>
      some ({ s with stopDone := Function.update s.stopDone s.current true }.setTask g ⟨t.state, .deletePost⟩)
    | .deletePost =>
      some ({ s with deleteDone := Function.update s.deleteDone s.current true }.setTask g ⟨t.state, .ended⟩)
    | .ended => none

/-- One step of the user's thread within a call of `vxStartGraphStreaming`, `vxStopGraphStreaming` or
`ownGraphFreeStreaming`. -/
def userStep (s : StreamSys) (timedOut : Bool) : Option StreamSys :=
  match s.user with
  | .idle | .released => none
  | .startSend =>
    match s.addEvent .start with
    | some s => some { s with user := .idle, stopped := none, startFailed := false }
    | none => some { s with user := .idle, startFailed := true }
  | .stopCheck => some { s with user := if s.isStreamingError then .stopWait s.current else .stopSend }
  | .stopSend =>
    match s.addEvent .stop with
    | some s => some { s with user := .stopWait s.current }
    | none => some { s with user := .idle }
  | .stopWait g =>
    if s.stopDone g then
      some { s with stopDone := Function.update s.stopDone g false, isStreaming := false, user := .stopReturn true }
    else if timedOut then some { s with isStreaming := false, user := .stopReturn false } else none
  | .stopReturn ok =>
    some { s with user := .idle, stopped := if ok && !s.isStreamingError then some s.runs.requested else s.stopped }
  | .deleteClear => some { s with deleteDone := Function.update s.deleteDone s.current false, user := .deleteSend }
  | .deleteSend =>
    match s.addEvent .delete with
    | some s => some { s with user := .deleteWait s.current true }
    | none => some { s with user := .deleteWait s.current false }
  | .deleteWait g ok =>
    if s.deleteDone g then some { s with deleteDone := Function.update s.deleteDone g false, user := .taskDelete ok }
    else if timedOut then some { s with user := .taskDelete false } else none
  | .taskDelete ok =>
    some { s with
      task := Function.update s.task s.current none
      queue := Function.update s.queue s.current none
      isStreamingAlloc := !ok
      user := .released }

/-- The calls of the user, the steps of a task and of the call under way, the completion of the trigger node and of a run. -/
inductive Act
  | verify (V : StreamVerify)
  | start
  | stop
  | release
  | user (timedOut : Bool)
  | task (g : Nat) (timedOut : Bool) (V : StreamVerify)
  | trigger
  | completed (abandoned : Bool)
  | schedulePending

def step (G : GraphDepth) (s : StreamSys) : Act → Option StreamSys
  | .verify V => if s.user = .idle then some (s.vxVerifyGraph V) else none
  | .start =>
    if s.user = .idle then
      if s.isStreamingAlloc && !s.isStreaming then some { s with isStreaming := true, user := .startSend } else some s
    else none
  | .stop =>
    if s.user = .idle then
      if s.isStreaming then
        some { s with stopDone := Function.update s.stopDone s.current false, user := .stopCheck }
      else some s
    else none
  | .release =>
    if s.user = .idle then
      some { s with user :=
        if s.isStreamingAlloc then (if s.isStreamingError then .taskDelete true else .deleteClear) else .released }
    else none
  | .user timedOut => s.userStep timedOut
  | .task g timedOut V => s.taskStep G g timedOut V
  | .trigger =>
    if 0 < s.runs.triggersDue then
      let s' := { s with runs := { s.runs with triggersDue := s.runs.triggersDue - 1 } }
      some ((s'.addEvent .streamingEvent).getD s')
    else none
  | .completed abandoned =>
    if 0 < s.runs.submittedCount ∧ s.runs.scheduleCount = 0 then
      some { s with runs := s.runs.ownCheckGraphCompleted abandoned }
    else none
  | .schedulePending =>
    if 0 < s.runs.scheduleCount then
      some { s with runs := { s.runs with scheduleCount := 0 }.ownGraphScheduleGraph G s.runs.scheduleCount }
    else none

/-! ## What is promised -/

/-- Whether a START was processed after the last STOP or DELETE, and the runs due so far, after another event. -/
def afterEvent (x : Bool × Nat) : StreamEvent → Bool × Nat
  | .start => (true, if x.1 then x.2 else x.2 + 1)
  | .streamingEvent => (x.1, if x.1 then x.2 + 1 else x.2)
  | .stop | .delete => (false, x.2)

/-- The runs due for the events processed: one for a START, and one for each STREAMING_EVENT until the next STOP or DELETE. -/
def runsDue (processed : List StreamEvent) : Bool × Nat := processed.foldl afterEvent (false, 0)

/-- The task has given its last post of `stop_done`. -/
def stopPosted (s : StreamSys) (g : Nat) : Prop :=
  ∃ t, s.task g = some t ∧ (t.pc = .deletePost ∨ t.pc = .ended)

/-- The task has given its last post of `delete_done`. -/
def deletePosted (s : StreamSys) (g : Nat) : Prop := ∃ t, s.task g = some t ∧ t.pc = .ended

/-- **What is promised of streaming**: one run for each START and one for each STREAMING_EVENT processed until the next STOP
or DELETE; none in flight, and none requested, from the success of a stop to the next START; no wait for a post that was
given and cleared; a start that failed can be made again; and one task at most. -/
structure Streams (s : StreamSys) : Prop where
  requested : s.runs.requested = (runsDue s.processed).2
  counted : s.runs.completed + s.runs.submittedCount + s.runs.schedulePendingCount + s.runs.scheduleCount = s.runs.requested
  stopped : ∀ n, s.stopped = some n → s.runs.None ∧ s.runs.requested = n
  stopWait : ∀ g, s.user = .stopWait g → s.stopPosted g → s.stopDone g = true
  deleteWait : ∀ g ok, s.user = .deleteWait g ok → s.deletePosted g → s.deleteDone g = true
  startFailed : s.startFailed = true → s.isStreaming = false
  oneTask : ∀ g g', (s.task g).isSome → (s.task g').isSome → g = g'

end StreamSys

end Tiovx
