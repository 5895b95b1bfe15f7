import Mathlib.Data.List.Range
import Tiovx.Lib.FoldExcept
import Tiovx.GraphState
import Tiovx.ObjDesc
/-!
# DataReferences — head and leaf nodes, the data references of a graph, and numbers of buffers (`vx_graph_verify.c`,
`vx_graph_pipeline.c`)

What a verification collects once the edges are known.  The numbers of head nodes, leaf nodes and data references start
again at zero; the array of the leaf nodes is not cleared.
-/
namespace Tiovx

/-- `TIVX_GRAPH_MAX_HEAD_NODES`. -/
def graphMaxHeadNodes : Nat := 8

/-- `TIVX_GRAPH_MAX_LEAF_NODES`. -/
def graphMaxLeafNodes : Nat := 16

/-- `TIVX_GRAPH_MAX_DATA_REF`. -/
def graphMaxDataRef : Nat := 512

/-- `TIVX_GRAPH_MAX_PARAM_REFS`. -/
def graphMaxParamRefs : Nat := 8

namespace GraphState

/-- `ownGraphValidateParameters`: no two graph parameters are attached to the same reference. -/
def ownGraphValidateParameters : Stage := fun s =>
  if (s.parameters.map (fun P => s.prmRef P.node P.index)).Nodup then .ok s else .error s

/-- The other parameters with the reference of graph parameter `P`. -/
def others (s : GraphState) (P : GraphParameter) : List (Nat × Nat) :=
  s.allPrms.filter (fun x => x ≠ (P.node, P.index) ∧ s.prmRef x.1 x.2 = s.prmRef P.node P.index)

/-- `ownGraphLinkParameters`. -/
def ownGraphLinkParameters : Stage := fun s =>
  if s.parameters.all (fun P => (s.others P).length ≤ graphMaxParamRefs) then .ok s else .error s

/-- The number of buffers set for a node parameter. -/
def prmNumBuf (s : GraphState) (n i : Nat) : Nat := ((s.node n).prms[i]?).elim 0 NodePrm.numBuf

/-- `ownGraphValidatePipelineParameters`: buffers are set at the graph parameter or at the node, not at both. -/
def ownGraphValidatePipelineParameters : Stage := fun s =>
  if s.isPipeliningEnabled = true ∧ s.parameters.any (fun P => P.numBuf ≠ 0 ∧ s.prmNumBuf P.node P.index ≠ 0) = true then
    .error s
  else .ok s

/-- A node without in-nodes is a head node. -/
def addHeadNode (s : GraphState) (n : Nat) : Except GraphState GraphState :=
  if s.links.inNodes n = [] then
    if graphMaxHeadNodes ≤ s.headNodes.length then .error s else .ok { s with headNodes := s.headNodes ++ [n] }
  else .ok s

/-- A node without out-nodes is a leaf node. -/
def addLeafNode (s : GraphState) (n : Nat) : Except GraphState GraphState :=
  if s.links.outNodes n = [] then
    if graphMaxLeafNodes ≤ s.numLeafNodes then .error s
    else .ok { s with
      leafNodes := Function.update s.leafNodes s.numLeafNodes (some n)
      numLeafNodes := s.numLeafNodes + 1 }
  else .ok s

/-- `ownGraphCalcHeadAndLeafNodes`. -/
def ownGraphCalcHeadAndLeafNodes : Stage := fun s =>
  s.nodes.foldlM (fun s n => (addHeadNode s n).bind (fun s => addLeafNode s n)) { s with headNodes := [], numLeafNodes := 0 }

/-- `isLeafNode`: the first `TIVX_GRAPH_MAX_HEAD_NODES` places of the array are searched, in use or not. -/
def isLeafNode (s : GraphState) (n : Nat) : Bool := (List.range graphMaxHeadNodes).any (fun i => s.leafNodes i = some n)

/-- `ownGraphAddSingleDataReference`: the list it leaves, and whether it succeeds. -/
def ownGraphAddSingleDataReference (s : GraphState) (r : Nat) (dir : Dir) (check : Bool) (l : List DataRef) :
    Bool × List DataRef :=
  let reads := if dir = .output then 0 else 1
  match if check then l.findIdx? (fun d => s.checkIsRefMatch d.ref r) else none with
  | some i => (true, l.modify i (fun d => { d with numInNodes := d.numInNodes + reads }))
  | none => if l.length < graphMaxDataRef then (true, l ++ [⟨r, reads⟩]) else (false, l)

/-- `ownGraphAddDataReference`: a pyramid or an object array that contains the reference is added as well. -/
def ownGraphAddDataReference (s : GraphState) (r : Nat) (dir : Dir) (l : List DataRef) : Bool × List DataRef :=
  let y := s.ownGraphAddSingleDataReference r dir true l
  if y.1 then
    match (s.ref r).scope with
    | some c =>
      if (s.ref c).type = .pyramid ∨ (s.ref c).type = .objectArray then s.ownGraphAddSingleDataReference c dir false y.2
      else y
    | none => y
  else y

/-- The references of the parameters of a node; the loop over them ends at a failure, that over the nodes goes on. -/
def addDataReferences (s : GraphState) : Bool × List DataRef → List NodePrm → Bool × List DataRef
  | x, [] => x
  | x, P :: l =>
    match P.ref with
    | none => addDataReferences s x l
    | some r =>
      let y := s.ownGraphAddDataReference r P.dir x.2
      if y.1 then addDataReferences s y l else y

/-- `ownGraphFindAndAddDataReferences`. -/
def ownGraphFindAndAddDataReferences : Stage := fun s =>
  let y := s.nodes.foldl (fun x n => s.addDataReferences x (s.node n).prms) (true, [])
  if y.1 then .ok { s with dataRefs := y.2 } else .error { s with dataRefs := y.2 }

/-- The entry of the data references that a reference counts for. -/
def dataRefOf (s : GraphState) (r : Nat) : Option DataRef := s.dataRefs.find? (fun d => s.checkIsRefMatch d.ref r)

/-- `ownGraphGetNumInNodes`. -/
def ownGraphGetNumInNodes (s : GraphState) (n i : Nat) : Nat :=
  ((s.prmRef n i).bind s.dataRefOf).elim 0 DataRef.numInNodes

/-- `ownGraphGetOptimalNumBuf`. -/
def ownGraphGetOptimalNumBuf (s : GraphState) (r : Nat) : Nat :=
  let numBufs := 1 + (s.dataRefOf r).elim 0 DataRef.numInNodes
  if objDescQueueMaxDepth ≤ numBufs then objDescQueueMaxDepth - 1 else numBufs

/-- The number of buffers of a parameter of a node that is no leaf node, set where the user set none. -/
def detectNumBuf (s : GraphState) (P : NodePrm) : NodePrm :=
  match P.ref with
  | some r =>
    if P.dir ≠ .input ∧ s.parameters.all (fun Q => Q.refsList.head? ≠ some r) ∧ P.numBuf = 0 then
      { P with numBuf := s.ownGraphGetOptimalNumBuf r }
    else P
  | none => P

/-- `ownGraphDetectAndSetNumBuf`. -/
def ownGraphDetectAndSetNumBuf (s : GraphState) : GraphState :=
  if s.isPipeliningEnabled then
    { s with node := fun n =>
        if n ∈ s.nodes ∧ s.isLeafNode n = false then { s.node n with prms := (s.node n).prms.map s.detectNumBuf }
        else s.node n }
  else s

/-- `ownGraphGetPipeDepth`. -/
def ownGraphGetPipeDepth (s : GraphState) : Nat :=
  let depth := s.nodes.foldl (fun d n => if s.isLeafNode n = true ∧ d ≤ s.nodeDepth n then s.nodeDepth n else d) 1
  if graphMaxPipelineDepth ≤ depth ∧ s.isPipelineDepthSet = false then graphMaxPipelineDepth - 1 else depth

end GraphState

end Tiovx
