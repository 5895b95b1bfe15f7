import Tiovx.DataReferences
/-!
# DataRefQueues — pipelined descriptors and the queues of data references (`vx_graph_verify.c`, `vx_node.c`)

The pipeline depth and, for each node, a descriptor for each pipeline; then a queue for each reference that one node hands to
others, with as many buffers as its writer asks for; then the queues themselves, those of the slots of delays among them,
filled and linked to the parameters that use them.  How many buffers a writer has depends on its kernel, and on the largest
number that a sink connected to the kernel wants: `sinkBufs` is `connected_sink_bufs`.
-/
namespace Tiovx

/-- `TIVX_GRAPH_MAX_DATA_REF_QUEUE`. -/
def graphMaxDataRefQueue : Nat := 96

namespace GraphState

/-- The depth a graph gets: that set or, for a pipelined graph, that of its leaf nodes, and what the kernels need. -/
def calcPipelineDepth (K : Nat → VxKernel) (s : GraphState) : Nat :=
  s.nodes.foldl (fun d n => if d ≤ (K (s.node n).kernel).numPipeupBufs then (K (s.node n).kernel).numPipeupBufs else d)
    (if s.isPipeliningEnabled = true ∧ s.isPipelineDepthSet = false then s.ownGraphGetPipeDepth else s.pipelineDepth)

/-- `ownNodeAllocObjDescForPipeline`: only a node that has one descriptor gets others, copies of the first. -/
def ownNodeAllocObjDescForPipeline (allocates : Nat → Bool) (depth : Nat) (s : GraphState) (n : Nat) :
    Except GraphState GraphState :=
  if s.nodePipelineDepth n = 1 ∧ 1 < depth then
    let D : PipeDesc :=
      { numInNodes := (s.links.inNodes n).length
        numOutNodes := (s.links.outNodes n).length
        inNodeId := fun i => (s.links.inNodes n)[i]?.map (fun m => (m, 0))
        outNodeId := fun i => (s.links.outNodes n)[i]?.map (fun m => (m, 0)) }
    let descs := fun p => if 0 < p ∧ p < depth then D else s.desc n p
    let s := { s with nodePipelineDepth := Function.update s.nodePipelineDepth n depth }
    if allocates n then
      .ok { s with
        desc := Function.update s.desc n (fun p =>
          if p < depth then { descs p with prevPipe := some ((p + depth - 1) % depth) } else descs p) }
    else .error { s with desc := Function.update s.desc n descs }
  else .ok s

/-- `ownNodeGetObjDescId`, of node `m` for pipeline `p`. -/
def ownNodeGetObjDescId (s : GraphState) (p m : Nat) : Option (Nat × Nat) :=
  if p < s.nodePipelineDepth m then some (m, p) else none

/-- Entries of an array overwritten by what the first descriptor lists. -/
def overwrite (f : Nat → Option (Nat × Nat)) (l : List Nat) (a : Nat → Option (Nat × Nat)) : Nat → Option (Nat × Nat) :=
  fun i => match l[i]? with
    | some m => f m
    | none => a i

/-- `ownNodeLinkObjDescForPipeline`. -/
def ownNodeLinkObjDescForPipeline (s : GraphState) (n : Nat) : GraphState :=
  { s with desc := Function.update s.desc n (fun p =>
      if 0 < p ∧ p < s.nodePipelineDepth n then
        { s.desc n p with
          inNodeId := overwrite (s.ownNodeGetObjDescId p) (s.links.inNodes n) (s.desc n p).inNodeId
          outNodeId := overwrite (s.ownNodeGetObjDescId p) (s.links.outNodes n) (s.desc n p).outNodeId }
      else s.desc n p) }

/-- The first part of `ownGraphNodePipeline`, up to the data reference queues. -/
def pipelineNodes (K : Nat → VxKernel) (allocates : Nat → Bool) : Stage := fun s => do
  let depth := s.calcPipelineDepth K
  let s ← s.nodes.foldlM (ownNodeAllocObjDescForPipeline allocates depth) { s with pipelineDepth := depth }
  .ok (s.nodes.foldl ownNodeLinkObjDescForPipeline s)

/-- `ownNodeGetParameterNumBuf`. -/
def ownNodeGetParameterNumBuf (K : Nat → VxKernel) (sinkBufs : Nat → Nat) (s : GraphState) (n i : Nat) : Nat :=
  match (s.node n).prms[i]? with
  | some P =>
    if P.dir = .input then 0
    else
      let numPipeupBufs := (K (s.node n).kernel).numPipeupBufs + (sinkBufs (s.node n).kernel - 1)
      if P.numBuf < numPipeupBufs then numPipeupBufs else P.numBuf
  | none => 0

/-- A parameter that gets no queue here: an input, one without a reference, one that no node reads and no delay ages, and one
whose reference is enqueued at a graph parameter. -/
def skipDataRefQ (s : GraphState) (n i : Nat) : Bool :=
  match s.prmRef n i with
  | none => true
  | some r =>
    s.prmDir n i = some .input ∨ (s.ownGraphGetNumInNodes n i = 0 ∧ (s.ref r).delay = none) ∨
      s.parameters.any (fun P => s.prmRef P.node P.index = some r ∧ P.queueEnable = true)

/-- `ownGraphAddDataRefQ`; `creates` says for which parameters the further references are created. -/
def ownGraphAddDataRefQ (K : Nat → VxKernel) (sinkBufs : Nat → Nat) (creates : Nat → Nat → Bool) (s : GraphState)
    (x : Nat × Nat) : Except GraphState GraphState :=
  if s.skipDataRefQ x.1 x.2 then .ok s
  else
    match s.prmRef x.1 x.2 with
    | none => .ok s
    | some r =>
      let numBuf := s.ownNodeGetParameterNumBuf K sinkBufs x.1 x.2
      if s.dataRefQs.length < graphMaxDataRefQueue ∧ (numBuf ≤ 1 ∨ creates x.1 x.2 = true) then
        .ok { s with
          dataRefQs := s.dataRefQs ++
            [{ node := x.1, index := x.2, ref := r, numBuf := if 0 < numBuf then numBuf else 1 }] }
      else .error s

/-- The second part of `ownGraphNodePipeline`: the list of queues is made where the graph is enqueued to or pipelined. -/
def addDataRefQs (K : Nat → VxKernel) (sinkBufs : Nat → Nat) (creates : Nat → Nat → Bool) : Stage := fun s =>
  if s.queueMode = true ∨ 1 < s.pipelineDepth then s.allPrms.foldlM (ownGraphAddDataRefQ K sinkBufs creates) s else .ok s

/-- `ownGraphLinkArrayElements`. -/
def ownGraphLinkArrayElements (s : GraphState) : GraphState :=
  { s with desc := fun n p =>
      if n ∈ s.nodes ∧ p < s.nodePipelineDepth n then
        { s.desc n p with isArrayElement := fun i =>
            (s.desc n p).isArrayElement i || (s.prmRef n i).any (fun r => (s.ref r).isArrayElement) }
      else s.desc n p }

/-- A slot of delay `d` gets a queue, unless it is the slot of the parameter the queues are made for. -/
def createDelaySlotQueue (n i d : Nat) (s : GraphState) (slot : Nat) : Except GraphState GraphState :=
  let prm := (s.delay d).set slot
  if prm = some (n, i) then .ok s
  else if s.delayDataRefQs.length < graphMaxDataRefQueue then
    .ok { s with delayDataRefQs := s.delayDataRefQs ++
        [{ prm := prm
           delay := d
           slot := slot
           queue := ⟨s.pipelineDepth, false, prm.elim 0 (fun x => s.ownGraphGetNumInNodes x.1 x.2)⟩ }] }
  else .error s

/-- `ownGraphCheckAndCreateDelayDataReferenceQueues`. -/
def ownGraphCheckAndCreateDelayDataReferenceQueues (n i : Nat) : Stage := fun s =>
  match s.prmRef n i with
  | none => .error s
  | some r =>
    match (s.ref r).delay with
    | some d => (List.range (s.delay d).refs.length).foldlM (createDelaySlotQueue n i d) s
    | none => .ok s

/-- The queue of graph parameter `x.1`. -/
def createGraphParameterQueue (s : GraphState) (x : Nat × GraphParameter) : Except GraphState GraphState :=
  if x.2.queueEnable then
    ownGraphCheckAndCreateDelayDataReferenceQueues x.2.node x.2.index
      { s with
        parameterQueue := Function.update s.parameterQueue x.1
          (some ⟨s.pipelineDepth, true, s.ownGraphGetNumInNodes x.2.node x.2.index⟩) }
  else .ok s

/-- `ownGraphCreateGraphParameterDataReferenceQueues`. -/
def ownGraphCreateGraphParameterDataReferenceQueues : Stage := fun s =>
  (s.parameters.zipIdx.map (fun x => (x.2, x.1))).foldlM createGraphParameterQueue s

/-- The queue of entry `k` of the list. -/
def createIntermediateQueue (s : GraphState) (k : Nat) : Except GraphState GraphState :=
  match s.dataRefQs[k]? with
  | some Q =>
    ownGraphCheckAndCreateDelayDataReferenceQueues Q.node Q.index
      { s with
        dataRefQs := s.dataRefQs.set k
          { Q with queue := some ⟨s.pipelineDepth, false, s.ownGraphGetNumInNodes Q.node Q.index⟩ } }
  | none => .ok s

/-- `ownGraphCreateIntermediateDataReferenceQueues`. -/
def ownGraphCreateIntermediateDataReferenceQueues : Stage := fun s =>
  (List.range s.dataRefQs.length).foldlM createIntermediateQueue s

/-- `ownGraphPrimeDataReferenceQueues`: each queue takes its references while it has room.  A failure ends the loop over the
references of one queue only, so that the last queue decides. -/
def ownGraphPrimeDataReferenceQueues : Stage := fun s =>
  if s.delayDataRefQs = [] then
    match s.dataRefQs.getLast? with
    | some Q => if Q.numBuf ≤ objDescQueueMaxDepth then .ok s else .error s
    | none => .ok s
  else .ok s

/-- `ownNodeLinkDataRefQueue`, for the descriptors of a node that there are; a queue has a descriptor for each pipeline of the
graph. -/
def ownNodeLinkDataRefQueue (q : QueueId) (s : GraphState) (n i : Nat) : GraphState :=
  { s with desc := Function.update s.desc n (fun p =>
      if p < s.nodePipelineDepth n then
        { s.desc n p with
          prmQueue := Function.update (s.desc n p).prmQueue i (some (if p < s.pipelineDepth then some q else none)) }
      else s.desc n p) }

/-- `ownGraphLinkDataReferenceQueuesToNodeIndex`: the parameters with the reference of parameter `i` of node `n`, with an
element of it, or with its container. -/
def ownGraphLinkDataReferenceQueuesToNodeIndex (s : GraphState) (q : QueueId) (n i : Nat) : GraphState :=
  match s.prmRef n i with
  | some ρ =>
    (s.allPrms.filter (fun x => (s.prmRef x.1 x.2).any (fun r =>
      r = ρ ∨ (s.ref r).scope = some ρ ∨ (s.ref ρ).scope = some r))).foldl
        (fun s x => ownNodeLinkDataRefQueue q s x.1 x.2) s
  | none => s

/-- `ownGraphLinkDataReferenceQueues`. -/
def ownGraphLinkDataReferenceQueues (s : GraphState) : GraphState :=
  let s := s.parameters.zipIdx.foldl (fun s x =>
    if x.1.queueEnable then s.ownGraphLinkDataReferenceQueuesToNodeIndex (.parameter x.2) x.1.node x.1.index else s) s
  let s := s.dataRefQs.zipIdx.foldl (fun s x =>
    s.ownGraphLinkDataReferenceQueuesToNodeIndex (.dataRef x.2) x.1.node x.1.index) s
  s.delayDataRefQs.zipIdx.foldl (fun s x =>
    match x.1.prm with
    | some y => s.ownGraphLinkDataReferenceQueuesToNodeIndex (.delayDataRef x.2) y.1 y.2
    | none => s) s

/-- `ownGraphCreateAndLinkDataReferenceQueues`. -/
def ownGraphCreateAndLinkDataReferenceQueues : Stage := fun s => do
  let s ← ownGraphCreateGraphParameterDataReferenceQueues s
  let s ← ownGraphCreateIntermediateDataReferenceQueues s
  let s ← ownGraphPrimeDataReferenceQueues s
  .ok (ownGraphLinkDataReferenceQueues s)

end GraphState

end Tiovx
