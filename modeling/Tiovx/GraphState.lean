import Tiovx.InAndOutNodes
/-!
# GraphState — what the verification of a graph reads and writes (`vx_graph.h`, `vx_node.h`, `vx_kernel.h`)

All that belongs to one graph: its nodes with their descriptors and edges, its parameters, its references and delays, and
the lists a verification makes.  The kernels are the context's: what graphs share of them is not here.
-/
namespace Tiovx

/-- What verification reads of a kernel and never writes. -/
structure VxKernel where
  numPipeupBufs : Nat := 1
  numSinkBufs : Nat := 1

/-- A graph parameter; `refsList` are the references that may be enqueued. -/
structure GraphParameter where
  node : Nat
  index : Nat
  queueEnable : Bool := false
  numBuf : Nat := 0
  refsList : List Nat := []

/-- An entry of `data_ref`, with its `data_ref_num_in_nodes`. -/
structure DataRef where
  ref : Nat
  numInNodes : Nat

/-- `tivx_data_ref_queue_create_params_t`, as far as a verification computes it. -/
structure DataRefQueueParams where
  pipelineDepth : Nat
  enableUserQueueing : Bool
  numInNodes : Nat

/-- An entry of `data_ref_q_list`.  `ref` is the first of its references: the other `numBuf - 1` are made from it. -/
structure DataRefQEntry where
  node : Nat
  index : Nat
  ref : Nat
  numBuf : Nat := 1
  queue : Option DataRefQueueParams := none

/-- An entry of `delay_data_ref_q_list`, for a slot of a delay that no entry of another list is for. -/
structure DelayDataRefQEntry where
  prm : Option (Nat × Nat)
  delay : Nat
  slot : Nat
  queue : DataRefQueueParams

/-- A delay: the references of its slots, and the node parameters that use them. -/
structure VxDelay where
  refs : List Nat := []
  set : Nat → Option (Nat × Nat) := fun _ => none

/-- A data reference queue: that of a graph parameter, or of an entry of one of the two lists. -/
inductive QueueId
  | parameter (i : Nat)
  | dataRef (i : Nat)
  | delayDataRef (i : Nat)
deriving DecidableEq

/-- A descriptor of a node for one of its pipelines.  An entry of the lists is a node and the pipeline of its descriptor,
and none where that node has no such descriptor.  The lists of the first descriptor are kept in `Links`. -/
structure PipeDesc where
  numInNodes : Nat := 0
  numOutNodes : Nat := 0
  inNodeId : Nat → Option (Nat × Nat) := fun _ => none
  outNodeId : Nat → Option (Nat × Nat) := fun _ => none
  prevPipe : Option Nat := none
  prmQueue : Nat → Option (Option QueueId) := fun _ => none
  isArrayElement : Nat → Bool := fun _ => false

/-- A graph.  `known` are its node objects: a node that was removed is one until the last reference to it is released.
`leafNodes` is the array: the entries from `numLeafNodes` on are left over. -/
structure GraphState extends GraphNodes where
  known : List Nat := []
  links : Links := {}
  incounter : Nat → Nat := fun _ => 0
  nodeDepth : Nat → Nat := fun _ => 1
  nodePipelineDepth : Nat → Nat := fun _ => 1
  desc : Nat → Nat → PipeDesc := fun _ _ => {}
  delay : Nat → VxDelay := fun _ => {}
  parameters : List GraphParameter := []
  parameterQueue : Nat → Option DataRefQueueParams := fun _ => none
  queueMode : Bool := false
  isPipeliningEnabled : Bool := false
  isPipelineDepthSet : Bool := false
  pipelineDepth : Nat := 1
  headNodes : List Nat := []
  leafNodes : Nat → Option Nat := fun _ => none
  numLeafNodes : Nat := 0
  dataRefs : List DataRef := []
  dataRefQs : List DataRefQEntry := []
  delayDataRefQs : List DelayDataRefQEntry := []
  verified : Bool := false

/-- A part of a verification: the graph it leaves, whether it succeeds or not. -/
abbrev Stage := GraphState → Except GraphState GraphState

namespace GraphState

/-- The lists of the first descriptors as a stage leaves them. -/
def withLinks (s : GraphState) : Except Links Links → Except GraphState GraphState
  | .ok L => .ok { s with links := L }
  | .error L => .error { s with links := L }

/-- `ownNodeGetParameterRef`. -/
def prmRef (s : GraphState) (n i : Nat) : Option Nat := ((s.node n).prms[i]?).bind NodePrm.ref

/-- `ownNodeGetParameterDir`. -/
def prmDir (s : GraphState) (n i : Nat) : Option Dir := ((s.node n).prms[i]?).map NodePrm.dir

/-- The parameters of a node, with their indices. -/
def prmsOf (s : GraphState) (n : Nat) : List (Nat × NodePrm) := (s.node n).prms.zipIdx.map (fun x => (x.2, x.1))

/-- The parameters of the nodes, in the order of the loops over them. -/
def allPrms (s : GraphState) : List (Nat × Nat) :=
  s.nodes.flatMap (fun n => (List.range (s.node n).prms.length).map (fun i => (n, i)))

/-- Parameter `i` of node `n` changed. -/
def updatePrm (s : GraphState) (n i : Nat) (f : NodePrm → NodePrm) : GraphState :=
  { s with node := Function.update s.node n { s.node n with prms := (s.node n).prms.modify i f } }

/-- Descriptor `p` of node `n` changed. -/
def updateDesc (s : GraphState) (n p : Nat) (f : PipeDesc → PipeDesc) : GraphState :=
  { s with desc := Function.update s.desc n (Function.update (s.desc n) p (f (s.desc n p))) }

end GraphState

end Tiovx
