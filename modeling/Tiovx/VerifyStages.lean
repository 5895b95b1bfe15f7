import Tiovx.CopyMoveNodes
import Tiovx.TopologicalSort
import Tiovx.DataRefQueues
/-!
# VerifyStages — `vxVerifyGraph` on the graph and on what all graphs share (`vx_graph_verify.c`)

The stages in their order.  Two of them touch what is not the graph's own: the sort works in the context's area, and
`ownGraphDetectSourceSink` raises a number kept in the kernels, which the queues read afterwards.
-/
namespace Tiovx

/-- What the graphs of a context share: the `connected_sink_bufs` of the kernels, and the area of the sort. -/
structure SharedState where
  connectedSinkBufs : Nat → Nat := fun _ => 1
  sort : SortContext := {}

/-- How those parts of a verification end that call the kernels' and references' callbacks or that allocate.  `deinits` is
that the kernels of an earlier verification are de-initialised. -/
structure VerifyOutcome where
  enters : Bool := true
  deinits : Bool := true
  copies : Nat → Nat → Bool := fun _ _ => false
  validates : Bool := true
  allocatesData : Bool := true
  allocatesDescs : Nat → Bool := fun _ => true
  createsRefs : Nat → Nat → Bool := fun _ _ => true
  createsCommands : Bool := true
  createsQueues : Bool := true
  initsKernels : Bool := true
  finishes : Bool := true

namespace GraphState

/-- The loop over the out-nodes of a source in `ownGraphDetectSourceSink`. -/
def detectSink (K : Nat → VxKernel) (s : GraphState) (n : Nat) (c : Nat → Nat) (m : Nat) : Nat → Nat :=
  let bufs := (K (s.node m).kernel).numSinkBufs
  if 1 < bufs ∧ c (s.node n).kernel < bufs then Function.update c (s.node n).kernel bufs else c

/-- The loop over the nodes. -/
def detectSource (K : Nat → VxKernel) (s : GraphState) (c : Nat → Nat) (n : Nat) : Nat → Nat :=
  if 1 < (K (s.node n).kernel).numPipeupBufs then (s.links.outNodes n).foldl (s.detectSink K n) c else c

/-- `ownGraphDetectSourceSink`. -/
def ownGraphDetectSourceSink (K : Nat → VxKernel) (s : GraphState) (c : Nat → Nat) : Nat → Nat :=
  s.nodes.foldl (s.detectSource K) c

/-- A part that only succeeds or fails. -/
def check (b : Bool) : Stage := fun s => if b then .ok s else .error s

/-- The edges, without the copy and move nodes that can be spared. -/
def prepare (o : VerifyOutcome) : Stage := fun s => do
  let s ← s.withLinks (ownGraphCalcInAndOutNodes s.toGraphNodes s.links)
  ownGraphProcessCopyMoveNodes o.copies s

/-- What comes between the sort and the data reference queues. -/
def collect (K : Nat → VxKernel) (o : VerifyOutcome) : Stage := fun s => do
  let s ← check o.validates s
  let s ← ownGraphValidateParameters s
  let s ← ownGraphLinkParameters s
  let s ← ownGraphValidatePipelineParameters s
  let s ← ownGraphCalcHeadAndLeafNodes s
  let s ← ownGraphFindAndAddDataReferences s
  let s ← check o.allocatesData s.ownGraphDetectAndSetNumBuf
  pipelineNodes K o.allocatesDescs s

/-- What comes after the list of data reference queues is made. -/
def complete (o : VerifyOutcome) : Stage := fun s => do
  let s ← check o.createsCommands s
  let s ← check o.createsQueues s.ownGraphLinkArrayElements
  let s ← ownGraphCreateAndLinkDataReferenceQueues s
  let s ← check o.initsKernels s
  let s ← check (decide (s.pipelineDepth < graphMaxPipelineDepth) && o.finishes) s
  .ok { s with verified := true }

/-- The stages after `ownGraphDetectSourceSink`. -/
def finish (K : Nat → VxKernel) (sinkBufs : Nat → Nat) (o : VerifyOutcome) : Stage := fun s => do
  let s ← collect K o s
  let s ← addDataRefQs K sinkBufs o.createsRefs s
  complete o s

/-- The graph as a stage leaves it. -/
def left : Except GraphState GraphState → GraphState
  | .ok s => s
  | .error s => s

/-- The verification up to the sort: the graph it leaves, and whether it goes on. -/
def sortStage (o : VerifyOutcome) (S : SharedState) (s : GraphState) : SharedState × GraphState × Bool :=
  if o.enters then
    let s := { s with verified := false }
    if o.deinits then
      match prepare o s with
      | .ok s =>
        let R := ownGraphTopologicalSort S.sort s
        ({ S with sort := R.1 }, R.2.1, !R.2.2)
      | .error s => (S, s, false)
    else (S, s, false)
  else (S, s, false)

/-- `vxVerifyGraph`. -/
def vxVerifyGraph (K : Nat → VxKernel) (o : VerifyOutcome) (S : SharedState) (s : GraphState) : SharedState × GraphState :=
  let R := sortStage o S s
  if R.2.2 then
    let c := R.2.1.ownGraphDetectSourceSink K R.1.connectedSinkBufs
    ({ R.1 with connectedSinkBufs := c }, left (finish K c o R.2.1))
  else (R.1, R.2.1)

end GraphState

end Tiovx
