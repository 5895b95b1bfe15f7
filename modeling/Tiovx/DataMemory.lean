import Mathlib.Data.List.Basic
import Mathlib.Logic.Function.Basic
import Tiovx.Lib.FoldExcept
import Tiovx.ReplicateNode
/-!
# DataMemory — the memory of data objects (`vx_graph_verify.c`, `vx_delay.c`, `vx_image.c`, `vx_pyramid.c`, `vx_objarray.c`,
`vx_reference.c`, `vx_graph_pipeline.c`, `vx_target.c`)

A verification allocates memory for the reference of each node parameter and for the references that may be enqueued: for
the whole container at a replicated parameter, else for the whole delay of a reference that is in one, else for the
reference.  Later runs bind other references, by aging, from a queue or out of a container, and allocate nothing.
-/
namespace Tiovx

/-- How a data object that contains no others gets its memory: its `mem_alloc_callback` allocates it; it is given with the
object, as that of an image made from a handle or from a part of another image; or there is none. -/
inductive MemoryKind
  | allocated
  | given
  | without
deriving DecidableEq

/-- The data objects, and the delays.  Containers are made of objects that were there before, and know their elements. -/
structure DataObjects where
  ref : Nat → VxRef := fun _ => {}
  kind : Nat → MemoryKind := fun _ => .allocated
  elementIdx : Nat → Nat := fun _ => 0
  nesting : Nat → Nat := fun _ => 0
  delayRefs : Nat → List Nat := fun _ => []
  delayItems : Nat → List Nat := fun _ => []
  containers : ∀ r, (ref r).elements ≠ [] → (ref r).type = .pyramid ∨ (ref r).type = .objectArray
  nests : ∀ r, ∀ e ∈ (ref r).elements, nesting e < nesting r
  mem_container : ∀ r c, containerOf ref r = some c → r ∈ (ref c).elements
  mem_delay : ∀ r d, (ref r).delay = some d → r ∈ delayRefs d

/-- An entry of `data_ref_q_list`. -/
structure DataRefQueue where
  node : Nat
  index : Nat
  refs : List Nat

/-- An entry of `delay_data_ref_q_list`: the queue of a slot of a delay, made for the queue `base`.  `primed` is the reference
that is enqueued first. -/
structure DelaySlotQueue where
  prm : Option (Nat × Nat)
  delay : Nat
  slot : Nat
  base : QueueId
  primed : Option Nat := none

/-- A graph.  `queueAt` is the queue a node parameter acquires from: that of a graph parameter or of an entry of the list, with
the queues of the other slots of its delay. -/
structure BufferGraph where
  nodes : List Nat := []
  prms : Nat → List NodePrm := fun _ => []
  delay : Nat → DelayPrms := fun _ => {}
  parameters : List GraphParameter := []
  dataRefQs : List DataRefQueue := []
  delayQs : List DelaySlotQueue := []
  queueAt : Nat → Nat → Option QueueId := fun _ _ => none
  isArrayElement : Nat → Nat → Bool := fun _ _ => false
  memory : Nat → Bool := fun _ => false
  verified : Bool := false

/-- What a verification meets: which allocations succeed, which parameters get a queue, the references that are made for it
besides the one bound, and how the rest ends. -/
structure MemoryOutcome where
  allocates : Nat → Bool := fun _ => true
  queued : Nat → Nat → Bool := fun _ _ => false
  further : Nat → Nat → List Nat := fun _ _ => []
  finishes : Bool := true

namespace BufferGraph

/-- `ownNodeGetParameterRef`. -/
def prmRef (S : BufferGraph) (n i : Nat) : Option Nat := ((S.prms n)[i]?).bind NodePrm.ref

/-- `ownNodeIsPrmReplicated`. -/
def ownNodeIsPrmReplicated (S : BufferGraph) (n i : Nat) : Bool := ((S.prms n)[i]?).any NodePrm.isReplicated

/-- The parameters of the nodes, in the order of the loops over them. -/
def allPrms (S : BufferGraph) : List (Nat × Nat) :=
  S.nodes.flatMap (fun n => (List.range (S.prms n).length).map (fun i => (n, i)))

end BufferGraph

section Memory

variable (D : DataObjects)

/-- A pyramid or an object array. -/
def DataObjects.isContainer (r : Nat) : Bool := (D.ref r).type = .pyramid ∨ (D.ref r).type = .objectArray

/-- The `mem_alloc_callback` of an object that contains no others. -/
def allocBuffer (allocates : Nat → Bool) (r : Nat) (M : Nat → Bool) : Except (Nat → Bool) (Nat → Bool) :=
  match D.kind r with
  | .allocated => if M r then .ok M else if allocates r then .ok (Function.update M r true) else .error M
  | .given => .ok M
  | .without => .ok M

/-- The `mem_alloc_callback` of a reference in which containers are nested less than `k` deep: a container calls those of its
elements. -/
def memAllocCallback (allocates : Nat → Bool) : Nat → Nat → (Nat → Bool) → Except (Nat → Bool) (Nat → Bool)
  | 0, _, M => .ok M
  | k + 1, r, M =>
    if D.isContainer r then (D.ref r).elements.foldlM (fun M e => memAllocCallback allocates k e M) M
    else allocBuffer D allocates r M

/-- `ownReferenceAllocMem`. -/
def ownReferenceAllocMem (allocates : Nat → Bool) (M : Nat → Bool) (r : Nat) : Except (Nat → Bool) (Nat → Bool) :=
  memAllocCallback D allocates (D.nesting r + 1) r M

/-- The references whose callbacks `ownGraphAllocateDataObject` calls. -/
def allocRoots (S : BufferGraph) (n i r : Nat) : List Nat :=
  if S.ownNodeIsPrmReplicated n i then (D.ref r).scope.toList
  else
    match (D.ref r).delay with
    | some d => D.delayRefs d
    | none => [r]

/-- `ownGraphAllocateDataObject`. -/
def ownGraphAllocateDataObject (allocates : Nat → Bool) (S : BufferGraph) (M : Nat → Bool) (x : Nat × Nat × Nat) :
    Except (Nat → Bool) (Nat → Bool) :=
  (allocRoots D S x.1 x.2.1 x.2.2).foldlM (ownReferenceAllocMem D allocates) M

/-- A loop over node parameters with references, each allocated. -/
def allocate (allocates : Nat → Bool) (S : BufferGraph) (l : List (Nat × Nat × Nat)) : Except BufferGraph BufferGraph :=
  match l.foldlM (ownGraphAllocateDataObject D allocates S) S.memory with
  | .ok M => .ok { S with memory := M }
  | .error M => .error { S with memory := M }

/-- The references of the node parameters (`ownGraphAllocateDataObjects`). -/
def boundRefs (S : BufferGraph) : List (Nat × Nat × Nat) :=
  S.allPrms.filterMap (fun x => (S.prmRef x.1 x.2).map (fun r => (x.1, x.2, r)))

/-- The references that can be enqueued at the graph parameters and in the queues of the list. -/
def queueRefs (S : BufferGraph) : List (Nat × Nat × Nat) :=
  (S.parameters.filter GraphParameter.queueEnable).flatMap (fun P =>
      (P.refsList.take P.numBuf).map (fun r => (P.node, P.index, r))) ++
    S.dataRefQs.flatMap (fun Q => Q.refs.map (fun r => (Q.node, Q.index, r)))

/-- The entries `ownGraphAddDataRefQ` adds. -/
def withDataRefQs (o : MemoryOutcome) (S : BufferGraph) : BufferGraph :=
  { S with
    dataRefQs := S.dataRefQs ++ (S.allPrms.filter (fun x => o.queued x.1 x.2)).filterMap (fun x =>
      (S.prmRef x.1 x.2).map (fun r => ⟨x.1, x.2, r :: o.further x.1 x.2⟩)) }

/-- The queues of the graph parameters and of the list, with the node parameters they are made for. -/
def baseQueues (S : BufferGraph) : List (QueueId × Nat × Nat) :=
  (S.parameters.zipIdx.filter (fun x => x.1.queueEnable)).map (fun x => (.parameter x.2, x.1.node, x.1.index)) ++
    S.dataRefQs.zipIdx.map (fun x => (.dataRef x.2, x.1.node, x.1.index))

/-- A queue made for parameter `y` is linked to parameter `x`: it has the same reference, an element of it, or its container. -/
def linksTo (S : BufferGraph) (y x : Nat × Nat) : Bool :=
  match S.prmRef y.1 y.2, S.prmRef x.1 x.2 with
  | some ρ, some r => r = ρ ∨ (D.ref r).scope = some ρ ∨ (D.ref ρ).scope = some r
  | _, _ => false

/-- All queues in the order in which `ownGraphLinkDataReferenceQueues` links them. -/
def linkedQueues (S : BufferGraph) : List (QueueId × Nat × Nat) :=
  baseQueues S ++ S.delayQs.filterMap (fun Q => Q.prm.map (fun y => (Q.base, y)))

/-- `ownGraphLinkDataReferenceQueues`: the last queue linked to a parameter stays. -/
def BufferGraph.ownGraphLinkDataReferenceQueues (S : BufferGraph) : BufferGraph :=
  { S with queueAt := fun n i =>
      if n ∈ S.nodes then
        ((((linkedQueues S).filter (fun x => linksTo D S x.2 (n, i))).getLast?).map Prod.fst).or (S.queueAt n i)
      else S.queueAt n i }

end Memory

section Later

variable (D : DataObjects)

/-- `ownNodeSetParameter`. -/
def setNodeRef (r : Nat) (S : BufferGraph) (x : Nat × Nat) : BufferGraph :=
  { S with prms := Function.update S.prms x.1 ((S.prms x.1).modify x.2 (fun P => { P with ref := some r })) }

/-- The node parameters of a slot of a delay. -/
def DelayPrms.slotPrms (A : DelayPrms) (slot : Nat) : List (Nat × Nat) := (A.head slot).toList ++ A.next slot

/-- The loop over the slots in `ownAgeDelay`. -/
def ageDelaySlot (d : Nat) (S : BufferGraph) (slot : Nat) : BufferGraph :=
  match (D.delayRefs d)[((S.delay d).index + slot) % (S.delay d).count]? with
  | some r => ((S.delay d).slotPrms slot).foldl (setNodeRef r) S
  | none => S

/-- `ownAgeDelay`. -/
def ownAgeDelay (S : BufferGraph) (d : Nat) : BufferGraph :=
  (List.range (S.delay d).count).foldl (ageDelaySlot D d)
    { S with delay := Function.update S.delay d { S.delay d with index := ((S.delay d).index + 1) % (S.delay d).count } }

/-- `vxAgeDelay`: the delays of the levels of its pyramids or of the items of its object arrays age with it. -/
def vxAgeDelay (S : BufferGraph) (d : Nat) : BufferGraph := (D.delayItems d).foldl (ownAgeDelay D) (ownAgeDelay D S d)

/-- The loop over the new references in `vxAddReferencesToGraphParameterList`; `sameMeta` is
`ownGraphPipelineValidateRefsList`, and `ok` how the last one ended. -/
def addReferences (sameMeta : Nat → Bool) (k : Nat) : BufferGraph → Bool → List Nat → Bool × BufferGraph
  | S, ok, [] => (ok, S)
  | S, _, r :: l =>
    match S.parameters[k]? with
    | some P =>
      if sameMeta r then
        if P.numBuf < objDescQueueMaxDepth then
          addReferences sameMeta k
            { S with
              parameters := S.parameters.set k { P with refsList := P.refsList.take P.numBuf ++ [r], numBuf := P.numBuf + 1 } }
            true l
        else (false, S)
      else addReferences sameMeta k S false l
    | none => (false, S)

/-- `vxAddReferencesToGraphParameterList`. -/
def vxAddReferencesToGraphParameterList (sameMeta : Nat → Bool) (S : BufferGraph) (k : Nat) (l : List Nat) :
    Bool × BufferGraph :=
  if S.verified = true ∧ k < S.parameters.length then addReferences sameMeta k S true l else (false, S)

/-- The references that were put into a queue, or may be. -/
def ownRefs (S : BufferGraph) : QueueId → List Nat
  | .parameter k => (S.parameters[k]?).elim [] (fun P => P.refsList.take P.numBuf)
  | .dataRef k => (S.dataRefQs[k]?).elim [] DataRefQueue.refs
  | .delayDataRef _ => []

/-- The references that may be acquired from a queue: the queues of the slots of a delay hand theirs on. -/
def queueContent (S : BufferGraph) (q : QueueId) : List Nat :=
  ownRefs S q ++ (S.delayQs.filter (fun Q => Q.base = q)).filterMap DelaySlotQueue.primed

/-- The objects a kernel gets (`ownTargetNodeDescNodeExecuteTargetKernel`) for a parameter to which `b` is bound, when `r` was
acquired for it or is bound itself: the elements of the container at a replicated parameter; where the reference comes from a
queue, an element of it if `b` is an array element, and its container if `b` is one. -/
def kernelObjects (isReplicated queued isElement : Bool) (b r : Nat) : List Nat :=
  if isReplicated then (D.ref ((containerOf D.ref r).getD r)).elements
  else if queued then
    if isElement then
      if D.isContainer r then ((D.ref r).elements[D.elementIdx b]?).toList else [r]
    else
      match containerOf D.ref r with
      | some c => if (D.ref b).type = (D.ref c).type then [c] else [r]
      | none => [r]
  else [r]

end Later

end Tiovx
