import Mathlib.Order.Bounds.Basic
import Mathlib.Data.List.Forall2
import Mathlib.Logic.Function.Basic
import Tiovx.Lib.Run
import Tiovx.ObjDesc
/-!
# PipelineArrays — the arrays with an entry for each pipeline (`vx_graph_verify.c`, `vx_graph_pipeline.c`, `vx_node.c`,
`vx_data_ref_queue.c`)

Nodes, the graph and the queues of data references have arrays of `TIVX_GRAPH_MAX_PIPELINE_DEPTH` descriptors, of which a
verification fills as many as the depth says.  The depth is set by the application in two ways or computed, and raised to what
the kernels ask for.  The arrays of a node are filled once, when its depth is first above one; those of a queue when it is
created, and no verification releases the queues of an earlier one.
-/
namespace Tiovx

/-- The per-pipeline arrays of a node, and the `pipeline_depth` they were filled for. -/
structure PipeNode where
  kernel : Nat
  pipelineDepth : Nat := 1
  objDesc : Nat → Bool := fun p => p == 0
  objDescCmd : Nat → Bool := fun _ => false

/-- The per-pipeline arrays of a data reference queue. -/
structure PipeQueue where
  pipelineDepth : Nat
  enableUserQueueing : Bool
  objDesc : Nat → Bool
  objDescCmd : Nat → Bool

/-- What the depth of a graph depends on, and its arrays.  `numPipeupBufs` is what the kernels say; `queues` are all the data
reference queues that were created for the graph. -/
structure PipelinedGraph where
  numPipeupBufs : Nat → Nat := fun _ => 1
  nodes : List PipeNode := []
  queues : List PipeQueue := []
  objDesc : Nat → Bool := fun _ => false
  verified : Bool := false
  isPipeliningEnabled : Bool := false
  isPipelineDepthSet : Bool := false
  pipelineDepth : Nat := 1

/-- A call of `tivxDataRefQueueCreate`, and which of its allocations succeed. -/
structure QueueCreation where
  enableUserQueueing : Bool := false
  alloc : Nat → Bool := fun _ => true
  allocCmd : Nat → Bool := fun _ => true
  rest : Bool := true

/-- What one `vxVerifyGraph` finds and how its parts end.  The nodes are told by their index: their depths after the sort,
which of them are leaves, and the allocations. -/
structure PipeVerification where
  prepares : Bool := true
  nodeDepth : Nat → Nat := fun _ => 1
  isLeaf : Nat → Bool := fun _ => true
  nodeAlloc : Nat → Nat → Bool := fun _ _ => true
  lists : Bool := true
  cmdAlloc : Nat → Nat → Bool := fun _ _ => true
  queues : List QueueCreation := []
  connects : Bool := true
  objDescAlloc : Nat → Bool := fun _ => true
  finishes : Bool := true

/-- What happens to a graph and to the kernels of its nodes. -/
inductive PipeAct
  | addNode (kernel : Nat)
  | removeNode (i : Nat)
  | setKernelAttribute (kernel numPipeupBufs : Nat)
  | setGraphAttribute (pipelineDepth : Nat)
  | setGraphPipelineDepth (pipelineDepth : Nat)
  | setGraphScheduleConfig (queueing : Bool)
  | enableGraphStreaming
  | edit
  | verifyGraph (V : PipeVerification)

/-- A part of a verification: `none` is a null pointer read or a write behind an array. -/
abbrev PipeStage := PipelinedGraph → Option (Except PipelinedGraph PipelinedGraph)

namespace PipeStage

/-- `g` after `f`, where `f` succeeds. -/
def andThen (f g : PipeStage) : PipeStage := fun s =>
  match f s with
  | none => none
  | some (.error t) => some (.error t)
  | some (.ok t) => g t

/-- A part that only succeeds or fails. -/
def check (b : Bool) : PipeStage := fun s => some (if b then .ok s else .error s)

/-- The graph as a part leaves it. -/
def left : Except PipelinedGraph PipelinedGraph → PipelinedGraph
  | .ok s => s
  | .error s => s

theorem andThen_ok {f g : PipeStage} {s t : PipelinedGraph} (h : f.andThen g s = some (.ok t)) :
    ∃ u, f s = some (.ok u) ∧ g u = some (.ok t) := by
  unfold andThen at h
  split at h
  · cases h
  · cases h
  · rename_i u hu
    exact ⟨u, hu, h⟩

theorem check_ok {b : Bool} {s t : PipelinedGraph} (h : check b s = some (.ok t)) : b = true ∧ t = s := by
  cases b with
  | false => cases h
  | true =>
    cases h
    exact ⟨rfl, rfl⟩

/-- What a part keeps, whether it succeeds or not. -/
def Keeps (I : PipelinedGraph → Prop) (f : PipeStage) : Prop := ∀ s r, I s → f s = some r → I (left r)

theorem Keeps.andThen {I : PipelinedGraph → Prop} {f g : PipeStage} (hf : Keeps I f) (hg : Keeps I g) :
    Keeps I (f.andThen g) := by
  intro s r hs h
  unfold PipeStage.andThen at h
  split at h
  · cases h
  · rename_i t ht
    cases h
    exact hf s _ hs ht
  · rename_i t ht
    exact hg t r (hf s _ hs ht) h

theorem keeps_check {I : PipelinedGraph → Prop} (b : Bool) : Keeps I (check b) := by
  intro s r hs h
  cases h
  cases b <;> exact hs

end PipeStage

namespace PipelinedGraph

/-- `ownGraphGetPipeDepth`. -/
def ownGraphGetPipeDepth (V : PipeVerification) (s : PipelinedGraph) : Nat :=
  let pipeDepth := (List.range s.nodes.length).foldl
    (fun p i => if V.isLeaf i = true ∧ p ≤ V.nodeDepth i then V.nodeDepth i else p) 1
  if graphMaxPipelineDepth ≤ pipeDepth ∧ s.isPipelineDepthSet = false then graphMaxPipelineDepth - 1 else pipeDepth

/-- The depth that `ownGraphNodePipeline` begins with: that computed, or that set. -/
def givenDepth (V : PipeVerification) (s : PipelinedGraph) : Nat :=
  if s.isPipeliningEnabled = true ∧ s.isPipelineDepthSet = false then ownGraphGetPipeDepth V s else s.pipelineDepth

/-- What `ownGraphNodePipeline` does to the pipeline depth. -/
def setPipelineDepth (V : PipeVerification) : PipeStage := fun s =>
  some (.ok { s with
    pipelineDepth := s.nodes.foldl
      (fun d N => if d ≤ s.numPipeupBufs N.kernel then s.numPipeupBufs N.kernel else d) (givenDepth V s) })

/-- `ownNodeAllocObjDescForPipeline`: whether all descriptors are allocated, and the node. -/
def ownNodeAllocObjDescForPipeline (alloc : Nat → Bool) (depth : Nat) (N : PipeNode) : Option (Bool × PipeNode) :=
  if N.pipelineDepth = 1 ∧ 1 < depth then
    if depth ≤ graphMaxPipelineDepth then
      some ((List.range depth).all (fun p => p == 0 || alloc p),
        { N with pipelineDepth := depth, objDesc := fun p => if 0 < p ∧ p < depth then alloc p else N.objDesc p })
    else none
  else some (true, N)

/-- `ownNodeCreateUserCallbackCommand`: the command refers to the descriptor of the pipeline. -/
def ownNodeCreateUserCallbackCommand (alloc : Bool) (p : Nat) (N : PipeNode) : Option (Bool × PipeNode) :=
  if p < graphMaxPipelineDepth ∧ N.objDescCmd p = false then
    if alloc then
      if N.objDesc p then some (true, { N with objDescCmd := Function.update N.objDescCmd p true }) else none
    else some (false, N)
  else some (true, N)

/-- The commands of a node, up to the first that fails. -/
def createCommands (alloc : Nat → Bool) : List Nat → PipeNode → Option (Bool × PipeNode)
  | [], N => some (true, N)
  | p :: l, N =>
    match ownNodeCreateUserCallbackCommand (alloc p) p N with
    | none => none
    | some (false, N) => some (false, N)
    | some (true, N) => createCommands alloc l N

/-- A loop over the nodes, up to the first that fails. -/
def forNodes (f : Nat → PipeNode → Option (Bool × PipeNode)) : Nat → List PipeNode → Option (Bool × List PipeNode)
  | _, [] => some (true, [])
  | i, N :: l =>
    match f i N with
    | none => none
    | some (false, N) => some (false, N :: l)
    | some (true, N) => (forNodes f (i + 1) l).map (fun R => (R.1, N :: R.2))

/-- The loop over the nodes as a part of the verification. -/
def nodesStage (f : PipelinedGraph → Nat → PipeNode → Option (Bool × PipeNode)) : PipeStage := fun s =>
  (forNodes (f s) 0 s.nodes).map (fun R =>
    if R.1 then .ok { s with nodes := R.2 } else .error { s with nodes := R.2 })

/-- `tivxDataRefQueueCreate`: what it created is released where a part of it fails. -/
def tivxDataRefQueueCreate (C : QueueCreation) : PipeStage := fun s =>
  if s.pipelineDepth ≤ graphMaxPipelineDepth then
    if (List.range s.pipelineDepth).all C.alloc = true ∧
        (C.enableUserQueueing = true → (List.range s.pipelineDepth).all C.allocCmd = true) ∧ C.rest = true then
      some (.ok { s with
        queues := s.queues ++
          [{ pipelineDepth := s.pipelineDepth
             enableUserQueueing := C.enableUserQueueing
             objDesc := fun p => decide (p < s.pipelineDepth)
             objDescCmd := fun p => C.enableUserQueueing && decide (p < s.pipelineDepth) }] })
    else some (.error s)
  else none

/-- The queues of the graph parameters, of the data references and of the slots of delays. -/
def createQueues : List QueueCreation → PipeStage
  | [] => PipeStage.check true
  | C :: l => (tivxDataRefQueueCreate C).andThen (createQueues l)

/-- `ownGraphAllocAndEnqueueObjDescForPipeline`, what it does to the graph descriptors. -/
def ownGraphAllocAndEnqueueObjDescForPipeline (alloc : Nat → Bool) : PipeStage := fun s =>
  if graphMaxPipelineDepth ≤ s.pipelineDepth then some (.error { s with objDesc := fun _ => false })
  else if (List.range s.pipelineDepth).all alloc then
    some (.ok { s with objDesc := fun p => decide (p < s.pipelineDepth) })
  else
    some (.error { s with objDesc := fun p => decide (p < s.pipelineDepth) && (List.range (p + 1)).all alloc })

/-- `vxVerifyGraph`, what it does to the depth and the arrays. -/
def vxVerifyGraph (V : PipeVerification) : PipeStage := fun s =>
  (PipeStage.check V.prepares |>.andThen (setPipelineDepth V)
    |>.andThen (nodesStage (fun s i => ownNodeAllocObjDescForPipeline (V.nodeAlloc i) s.pipelineDepth))
    |>.andThen (PipeStage.check V.lists)
    |>.andThen (nodesStage (fun s i => createCommands (V.cmdAlloc i) (List.range s.pipelineDepth)))
    |>.andThen (createQueues V.queues) |>.andThen (PipeStage.check V.connects)
    |>.andThen (ownGraphAllocAndEnqueueObjDescForPipeline V.objDescAlloc)
    |>.andThen (PipeStage.check V.finishes)
    |>.andThen (fun s => some (.ok { s with verified := true }))) { s with verified := false }

/-- `ownGraphRemoveNode`: the last node takes the place. -/
def ownGraphRemoveNode (i : Nat) (s : PipelinedGraph) : PipelinedGraph :=
  match s.nodes.getLast? with
  | some N => { s with nodes := (s.nodes.set i N).dropLast, verified := false }
  | none => s

/-- **One step of a graph.** -/
def pipeStep (s : PipelinedGraph) : PipeAct → Option PipelinedGraph
  | .addNode kernel => some { s with nodes := s.nodes ++ [{ kernel }], verified := false }
  | .removeNode i => some (if i < s.nodes.length then ownGraphRemoveNode i s else s)
  | .setKernelAttribute kernel numPipeupBufs =>
    some { s with numPipeupBufs := Function.update s.numPipeupBufs kernel numPipeupBufs }
  | .setGraphAttribute d => some (if d < graphMaxPipelineDepth then { s with pipelineDepth := d } else s)
  | .setGraphPipelineDepth d =>
    some (if s.verified = false ∧ d < graphMaxPipelineDepth then { s with pipelineDepth := d, isPipelineDepthSet := true }
      else s)
  | .setGraphScheduleConfig queueing =>
    some (if s.verified = false ∧ queueing = true then { s with isPipeliningEnabled := true } else s)
  | .enableGraphStreaming => some { s with isPipeliningEnabled := true }
  | .edit => some { s with verified := false }
  | .verifyGraph V => (vxVerifyGraph V s).map PipeStage.left

end PipelinedGraph

end Tiovx
