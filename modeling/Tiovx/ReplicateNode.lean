import Mathlib.Tactic
import Tiovx.GraphState
import Tiovx.ObjDesc
/-!
# ReplicateNode — replicated nodes and what is bound to them (`vx_node.c`, `vx_parameter.c`, `vx_graph.c`,
`vx_graph_pipeline.c`, `vx_target.c`)

`vxReplicateNode` fixes how often a node runs its kernel; the containers behind its parameters are replaced later by
`vxSetParameterByIndex`, by `vxSetGraphParameterByIndex`, and by the references enqueued at a graph parameter.  A call is a
function that says whether it succeeds, and what it leaves.
-/
namespace Tiovx

/-- `TIVX_NODE_MAX_REPLICATE`. -/
def nodeMaxReplicate : Nat := 64

/-- `TIVX_DELAY_MAX_PRM_OBJECT`. -/
def delayMaxPrmObject : Nat := 16

/-- What a descriptor of a node says of replicas; `dataId` are the references bound to the parameters. -/
structure ReplicaDesc where
  isReplicated : Bool := false
  isPrmReplicated : Nat → Bool := fun _ => false
  numOfReplicas : Nat := 0
  dataId : Nat → Option Nat := fun _ => none

/-- The node parameters a delay ages: for each slot the first one, and those in the list after it. -/
structure DelayPrms where
  index : Nat := 0
  count : Nat := 1
  head : Nat → Option (Nat × Nat) := fun _ => none
  next : Nat → List (Nat × Nat) := fun _ => []

/-- A graph parameter, with the other node parameters it sets and the references enqueued at it. -/
structure ReplicaParameter extends GraphParameter where
  others : List (Nat × Nat) := []
  readyQ : Option (List Nat) := none

/-- A graph.  A node has its first descriptor in `desc` and those for further pipelines in `pipeDescs`. -/
structure ReplicaGraph where
  nodes : List Nat := []
  prms : Nat → List NodePrm := fun _ => []
  desc : Nat → ReplicaDesc := fun _ => {}
  pipeDescs : Nat → List ReplicaDesc := fun _ => []
  delay : Nat → DelayPrms := fun _ => {}
  parameters : List ReplicaParameter := []
  queueMode : Bool := false
  isPipeliningEnabled : Bool := false
  verified : Bool := false
  numEnqueues : Nat → Nat := fun _ => 0
  isEnqueued : Nat → Bool := fun _ => false

/-- `ownAddAssociationToDelay`. -/
def ownAddAssociationToDelay (D : DelayPrms) (slot : Nat) (x : Nat × Nat) : Option DelayPrms :=
  let idx := (D.index + slot) % D.count
  if D.head idx = none then some { D with head := Function.update D.head idx (some x) }
  else if ((List.range D.count).map (fun j => (D.next j).length)).sum < delayMaxPrmObject then
    some { D with next := Function.update D.next idx (D.next idx ++ [x]) }
  else none

/-- `ownRemoveAssociationToDelay`. -/
def ownRemoveAssociationToDelay (D : DelayPrms) (slot : Nat) (x : Nat × Nat) : Option DelayPrms :=
  if D.head slot = some x then some { D with head := Function.update D.head slot none }
  else if x ∈ D.next slot then some { D with next := Function.update D.next slot ((D.next slot).erase x) }
  else none

section Calls

variable (R : Nat → VxRef)

/-- The pyramid or object array a reference is an element of. -/
def containerOf (r : Nat) : Option Nat :=
  (R r).scope.filter (fun c => (R c).type = .pyramid ∨ (R c).type = .objectArray)

/-- A reference is the first element of its container. -/
def isFirstElement (r : Nat) : Bool := (containerOf R r).any (fun c => (R c).elements.head? = some r)

/-- What `vxReplicateNode` makes of a parameter: the number of replicas, or that the call fails. -/
def countReplicas (num : Nat) (x : NodePrm × Bool) : Option Nat :=
  match x.1.ref with
  | none => if x.1.optional = true ∨ (x.2 = false ∧ x.1.dir = .input) then some num else none
  | some r =>
    if x.2 then
      match containerOf R r with
      | some c =>
        let items := (R c).elements.length
        let num := if num = 0 then items else num
        if (num ≠ 0 ∧ items ≠ num) ∨ nodeMaxReplicate < num then none else some num
      | none => none
    else if x.1.dir = .input then some num else none

/-- `vxReplicateNode`. -/
def vxReplicateNode (S : ReplicaGraph) (n : Nat) (replicate : List Bool) : Bool × ReplicaGraph :=
  if (S.prms n).length = replicate.length then
    match ((S.prms n).zip replicate).foldlM (countReplicas R) 0 with
    | some num =>
      (true, { S with
        desc := Function.update S.desc n
          { S.desc n with
            isReplicated := true
            isPrmReplicated := fun i => replicate[i]? = some true
            numOfReplicas := num }
        prms := Function.update S.prms n
          (List.zipWith (fun P b => { P with isReplicated := b }) (S.prms n) replicate) })
    | none => (false, S)
  else (false, S)

/-- The parameter is taken off the delay of the reference bound to it. -/
def removeBound (S : ReplicaGraph) (n i : Nat) : Option (Nat → DelayPrms) :=
  match ((S.prms n)[i]?).bind NodePrm.ref with
  | some r =>
    match (R r).delay with
    | some d => (ownRemoveAssociationToDelay (S.delay d) (R r).delaySlot (n, i)).map (Function.update S.delay d)
    | none => some S.delay
  | none => some S.delay

/-- The parameter is put on the delay of the reference that is to be bound to it. -/
def addValue (delay : Nat → DelayPrms) (n i r : Nat) : Option (Nat → DelayPrms) :=
  match (R r).delay with
  | some d => (ownAddAssociationToDelay (delay d) (R r).delaySlot (n, i)).map (Function.update delay d)
  | none => some delay

/-- `ownNodeSetParameter`. -/
def ownNodeSetParameter (S : ReplicaGraph) (n i r : Nat) : ReplicaGraph :=
  { S with
    prms := Function.update S.prms n ((S.prms n).modify i (fun P => { P with ref := some r }))
    desc := Function.update S.desc n { S.desc n with dataId := Function.update (S.desc n).dataId i (some r) } }

variable (fits : Nat → Nat → Nat → Bool)

/-- `vxSetParameterByIndex`; `fits` is the check of the type.  A null reference leaves an optional parameter as it is. -/
def vxSetParameterByIndex (S : ReplicaGraph) (n i : Nat) (value : Option Nat) : Bool × ReplicaGraph :=
  match (S.prms n)[i]? with
  | none => (false, S)
  | some P =>
    match value with
    | none => (P.optional, S)
    | some r =>
      if fits n i r then
        match removeBound R S n i with
        | none => (false, S)
        | some delay =>
          match addValue R delay n i r with
          | none => (false, { S with delay := delay })
          | some delay =>
            if P.isReplicated = true ∧ isFirstElement R r = false then (false, { S with delay := delay })
            else (true, ownNodeSetParameter { S with delay := delay } n i r)
      else (false, S)

/-- `vxSetGraphParameterByIndex`, with a reference; the others are set even where the parameter itself is not.  `allocates` is
how the allocation of the memory ends. -/
def vxSetGraphParameterByIndex (S : ReplicaGraph) (k r : Nat) (allocates : Bool) : Bool × ReplicaGraph :=
  match S.parameters[k]? with
  | none => (false, S)
  | some P =>
    let x := vxSetParameterByIndex R fits S P.node P.index (some r)
    if P.others = [] then (x.1 && allocates, x.2)
    else (allocates, P.others.foldl (fun S y => ownNodeSetParameter S y.1 y.2 r) x.2)

variable (sameMeta : List Nat → Bool)

/-- The entry of one graph parameter in `vxSetGraphScheduleConfig`; `sameMeta` is `ownGraphPipelineValidateRefsList`. -/
def configureParameter (S : ReplicaGraph) (x : Nat × Option (List Nat)) : Bool × ReplicaGraph :=
  match x.2, S.parameters[x.1]? with
  | some refs, some P =>
    if refs.length < objDescQueueMaxDepth ∧ P.queueEnable = false then
      let Q := { P with queueEnable := true, numBuf := refs.length }
      if sameMeta refs then (true, { S with parameters := S.parameters.set x.1 { Q with refsList := refs } })
      else (false, { S with parameters := S.parameters.set x.1 Q })
    else (false, S)
  | _, _ => (false, S)

/-- The loop over the entries, which ends at the first that fails. -/
def configureParameters : ReplicaGraph → List (Nat × Option (List Nat)) → Bool × ReplicaGraph
  | S, [] => (true, S)
  | S, x :: l =>
    let y := configureParameter sameMeta S x
    if y.1 then configureParameters y.2 l else y

/-- `vxSetGraphScheduleConfig`; `queueMode` is that the mode is not `VX_GRAPH_SCHEDULE_MODE_NORMAL`. -/
def vxSetGraphScheduleConfig (S : ReplicaGraph) (queueMode : Bool) (l : List (Nat × Option (List Nat))) :
    Bool × ReplicaGraph :=
  if S.verified then (false, S)
  else if queueMode then
    if l.length ≤ S.parameters.length then
      configureParameters sameMeta { S with queueMode := true, isPipeliningEnabled := true } l
    else (false, S)
  else (true, { S with queueMode := false })

/-- The descriptors an enqueue looks at and marks: that of the reference and those of its elements or, at a replicated
parameter, that of the container and those of as many elements as there are replicas. -/
def enqueuedWith (S : ReplicaGraph) (P : ReplicaParameter) (r : Nat) : Option (Nat × List Nat) :=
  if (S.desc P.node).isPrmReplicated P.index then
    (containerOf R r).map (fun c => (c, (R c).elements.take (S.desc P.node).numOfReplicas))
  else some (r, (R r).elements)

/-- One reference of `ownGraphParameterEnqueueReadyRef`. -/
def enqueueOneReadyRef (S : ReplicaGraph) (k r : Nat) : Option ReplicaGraph :=
  match S.parameters[k]? with
  | some P =>
    match P.readyQ, enqueuedWith R S P r with
    | some q, some (o, l) =>
      let isInput := ((S.prms P.node)[P.index]?).any (fun P => P.dir = .input)
      if r ∈ P.refsList.take P.numBuf ∧ (∀ x ∈ o :: l, S.isEnqueued x = false ∧ (isInput = true ∨ S.numEnqueues x = 0)) ∧
          q.length < objDescQueueMaxDepth then
        some { S with
          numEnqueues := fun x => S.numEnqueues x + (o :: l).count x
          isEnqueued := fun x => S.isEnqueued x || (!isInput && decide (x ∈ o :: l))
          parameters := S.parameters.set k { P with readyQ := some (q ++ [r]) } }
      else none
    | _, _ => none
  | none => none

/-- The loop over the references, which ends at the first that cannot be enqueued. -/
def enqueueReadyRefs (k : Nat) : ReplicaGraph → List (Option Nat) → Bool × ReplicaGraph
  | S, [] => (true, S)
  | S, none :: _ => (false, S)
  | S, some r :: l =>
    match enqueueOneReadyRef R S k r with
    | some T => enqueueReadyRefs k T l
    | none => (false, S)

/-- `ownGraphParameterEnqueueReadyRef`; `schedules` is how the scheduling ends that may follow. -/
def ownGraphParameterEnqueueReadyRef (S : ReplicaGraph) (k : Nat) (refs : List (Option Nat)) (schedules : Bool) :
    Bool × ReplicaGraph :=
  match (S.parameters[k]?).bind ReplicaParameter.readyQ with
  | some _ =>
    let x := enqueueReadyRefs R k S refs
    (x.1 && (decide (refs = []) || schedules), x.2)
  | none => (false, S)

/-- The other parameters of the nodes that have the reference of a graph parameter (`ownGraphLinkParameters`). -/
def linkParameter (S : ReplicaGraph) (P : ReplicaParameter) : ReplicaParameter :=
  { P with
    others := (S.nodes.flatMap (fun n => (List.range (S.prms n).length).map (fun i => (n, i)))).filter (fun x =>
      x ≠ (P.node, P.index) ∧
        ((S.prms x.1)[x.2]?).bind NodePrm.ref = ((S.prms P.node)[P.index]?).bind NodePrm.ref)
    readyQ := if P.queueEnable then some [] else P.readyQ }

/-- A verification that succeeds: the other parameters are linked, the queues made, and a node that has one descriptor gets
copies of it for the other pipelines. -/
def verifyReplicas (S : ReplicaGraph) (depth : Nat) : ReplicaGraph :=
  { S with
    verified := true
    parameters := S.parameters.map (linkParameter S)
    pipeDescs := fun n =>
      if n ∈ S.nodes ∧ S.pipeDescs n = [] then List.replicate (depth - 1) (S.desc n) else S.pipeDescs n }

/-- A node takes the reference that was enqueued first. -/
def acquireReadyRef (S : ReplicaGraph) (k : Nat) : Option ReplicaGraph :=
  match S.parameters[k]? with
  | some P =>
    match P.readyQ with
    | some (_ :: q) => some { S with parameters := S.parameters.set k { P with readyQ := some q } }
    | _ => none
  | none => none

/-- How often a node runs its kernel (`loop_max`). -/
def loopMax (D : ReplicaDesc) : Nat := if D.isReplicated then D.numOfReplicas else 1

/-- The element that run `cnt` of the kernel gets of a replicated parameter with reference `r`. -/
def elementAt (r cnt : Nat) : Option Nat := (R ((R r).scope.getD r)).elements[cnt]?

end Calls

end Tiovx
