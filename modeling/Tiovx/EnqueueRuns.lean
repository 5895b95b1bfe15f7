import Tiovx.EnqueueCounts
import Tiovx.ScheduleStatus
/-!
# EnqueueRuns — the runs an enqueue requests (`vx_graph_pipeline.c`)

A call of `vxGraphParameterEnqueueReadyRef` enqueues its references one by one until one is rejected.  When none is, and the call
is for graph parameter 0 of a graph that is scheduled by itself, it requests a run for each of them, unless the node of the
parameter is still to get buffers for its pipe-up.
-/
namespace Tiovx

/-- The marks and queues of the references of a context, and a graph of it; `prm` numbers the graph parameters of the graph among
all. -/
structure QueuedGraph where
  marks : Enqueues
  sched : SchedGraph
  prm : Nat → Nat

variable (G : QueuePrms)

/-- The loop over the references, some of which may be `NULL`: what it leaves, the status, and `num_enqueue`. -/
def enqueueRefs (p : Nat) : List (Option Nat) → Enqueues → Enqueues × Int × Nat
  | [], s => (s, vxSuccess, 0)
  | none :: _, s => (s, vxFailure, 0)
  | some r :: rs, s =>
    let (t, status) := s.ownGraphParameterEnqueueReadyRef G p r
    if status = vxSuccess then
      let (u, status, n) := enqueueRefs p rs t
      (u, status, n + 1)
    else (t, status, 0)

namespace QueuedGraph

/-- The node of the graph parameter is still to get buffers before it starts. -/
def fillsPipe (s : QueuedGraph) (g : Nat) : Bool := decide (1 < s.sched.pipeupBufIdx (s.sched.prmNode g))

/-- `ownGraphParameterEnqueueReadyRef` of graph parameter `g`, with its status and the number of runs that it asks
`ownGraphScheduleGraph` for. -/
def ownGraphParameterEnqueueReadyRef (s : QueuedGraph) (g : Nat) (refs : List (Option Nat)) (sends : Nat → Bool) :
    QueuedGraph × Int × Nat :=
  match s.sched.readyCounts[g]?.join with
  | none => (s, vxErrorInvalidParameters, 0)
  | some count =>
    let (marks, status, numEnqueue) := enqueueRefs G (s.prm g) refs s.marks
    let sched := { s.sched with readyCounts := s.sched.readyCounts.set g (some (count + numEnqueue)) }
    if status = vxSuccess ∧ 0 < numEnqueue then
      if s.fillsPipe g then
        let node := sched.prmNode g
        ({ s with marks, sched := { sched with
            pipeupBufIdx := Function.update sched.pipeupBufIdx node (sched.pipeupBufIdx node - 1) } }, status, 0)
      else if sched.ownGraphDoScheduleGraphAfterEnqueue g then
        let (sched, status) := sched.ownGraphScheduleGraph numEnqueue sends
        ({ s with marks, sched }, status, numEnqueue)
      else ({ s with marks, sched }, status, 0)
    else ({ s with marks, sched }, status, 0)

/-- The references that a call puts into the ready queue: those that come after what was there. -/
def enqueued (s t : QueuedGraph) (g : Nat) : List Nat := (t.marks.readyQ (s.prm g)).drop (s.marks.readyQ (s.prm g)).length

variable {G} {s t : Enqueues} {p r g : Nat} {refs : List (Option Nat)} {sends : Nat → Bool} {Q : QueuedGraph}

end QueuedGraph

end Tiovx
