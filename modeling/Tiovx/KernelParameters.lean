import Tiovx.DataRefQueues
import Tiovx.EnqueueCounts
import Tiovx.ReplicateNode
/-!
# KernelParameters — what a target hands to a kernel, and what it takes back (`vx_target.c`,
`vx_target_acquire_parameters.c`)

A node that runs has acquired an id for each parameter that has a queue.  The kernel is called once for each replica, with
objects that are found from these ids and the masks of the descriptor; what the last call leaves in its array becomes the
ids that are released.  A queue is linked to all the parameters that have its reference, an element of it or its container.
-/
namespace Tiovx

/-- A graph with what its targets read besides: the flag and the number of replicas of the nodes, and `element_idx`.  A
reference is at one place of one container, and containers do not contain each other in circles. -/
structure ExecGraph extends GraphState where
  isReplicated : Nat → Bool := fun _ => false
  numOfReplicas : Nat → Nat := fun _ => 0
  elementIdx : Nat → Nat := fun _ => 0
  item_iff : ∀ c j y, (ref c).isContainer = true →
    ((ref c).elements[j]? = some y ↔ (ref y).scope = some c ∧ elementIdx y = j)
  acyclic : ∃ rank : Nat → Nat, ∀ x c, (ref x).scope = some c → rank x < rank c

/-- What a queue is for: the reference it was made for, whether that is bound to a replicated parameter, and the type the
queue's references have. -/
structure QueueUse where
  ref : Nat
  isReplicated : Bool
  type : RefType
deriving DecidableEq

namespace ExecGraph

variable (G : ExecGraph)

/-- `is_prm_replicated`. -/
def isPrmReplicated (n i : Nat) : Bool := ((G.node n).prms[i]?).any NodePrm.isReplicated

/-- The queue of parameter `i` of node `n`, for the reference of parameter `x`. -/
def useOf (x : Nat × Nat) (type : Nat → RefType) : Option QueueUse :=
  (G.prmRef x.1 x.2).map (fun r => ⟨r, G.isPrmReplicated x.1 x.2, type r⟩)

/-- A queue's use.  The type of a graph parameter is that of the first reference of its list. -/
def queueUse : QueueId → Option QueueUse
  | .parameter k => (G.parameters[k]?).bind (fun P =>
      G.useOf (P.node, P.index) (fun r => (G.ref (P.refsList.head?.getD r)).type))
  | .dataRef k => (G.dataRefQs[k]?).bind (fun Q => G.useOf (Q.node, Q.index) (fun r => (G.ref r).type))
  | .delayDataRef k => (G.delayDataRefQs[k]?).bind (fun Q => Q.prm.bind (fun x => G.useOf x (fun r => (G.ref r).type)))

/-- What `vxGraphParameterDequeueDoneRef` returns for an id of a queue. -/
def returned (u : QueueUse) (r : Nat) : Option Nat :=
  let Q : QueuePrms :=
    { ref := G.ref, prm := fun _ => { isInput := true, isReplicated := u.isReplicated, type := u.type } }
  (Q.dequeued 0 r).bind (fun b => (Q.givenBack 0 b vxSuccess).2)

/-- The pyramid or object array an object is in, as `scope_obj_desc_id` has it. -/
def container (r : Nat) : Option Nat := containerOf G.ref r

/-- An entry of `obj_desc_id`. -/
def item (c j : Nat) : Option Nat := (G.ref c).items[j]?

/-- A parameter of one call in `ownTargetNodeDescNodeExecuteTargetKernel`, with the bit of `is_prm_array_element` that is left.
`b` is the object of `data_id`, and `r` the acquired one. -/
def kernelPrm (isPrmReplicated isPrmArrayElement isPrmDataRefQ : Bool) (b r : Option Nat) (cnt : Nat) : Option Nat × Bool :=
  if isPrmReplicated then (r.bind (fun r => G.item ((G.container r).getD r) cnt), isPrmArrayElement)
  else if isPrmArrayElement then
    if isPrmDataRefQ then
      match r with
      | none => (none, true)
      | some r => if (G.ref r).isContainer then (b.bind (fun b => G.item r (G.elementIdx b)), true) else (some r, false)
    else (b, true)
  else if isPrmDataRefQ then
    match r with
    | none => (none, false)
    | some r =>
      match G.container r, b with
      | some c, some b => (some (if (G.ref c).type = (G.ref b).type then c else r), false)
      | _, _ => (some r, false)
  else (r, false)

/-- The id that is written back for a parameter the last call left as `y`. -/
def writtenBack (isPrmReplicated isPrmArrayElement isPrmDataRefQ : Bool) (r y : Option Nat) : Option Nat :=
  if isPrmDataRefQ = true ∧ isPrmReplicated = false then
    match y with
    | none => none
    | some y => if isPrmArrayElement then G.container y else some y
  else r

/-- The variables of the loop over the replicas; `calls` is a record of the arrays the kernel was given. -/
structure ExecLoop where
  params : Nat → Option Nat := fun _ => none
  isPrmArrayElement : Nat → Bool
  calls : List (Nat → Option Nat) := []

variable (n p : Nat)

/-- The number of parameters of a node. -/
def numParams : Nat := (G.node n).prms.length

/-- `loop_max`. -/
def loopMax : Nat := if G.isReplicated n then G.numOfReplicas n else 1

/-- `is_prm_data_ref_q`. -/
def isPrmDataRefQ (i : Nat) : Bool := ((G.desc n p).prmQueue i).isSome

/-- `ownTargetNodeDescAcquireAllParameters` of a node that is not blocked: `got` are the ids that the queues give. -/
def acquired (got : Nat → Option Nat) (i : Nat) : Option Nat :=
  if G.isPrmDataRefQ n p i then got i else G.prmRef n i

variable (kernel : Nat → (Nat → Option Nat) → Nat → Option Nat) (r : Nat → Option Nat)

/-- One call of the kernel. -/
def callKernel (s : ExecLoop) (cnt : Nat) : ExecLoop :=
  let given := fun i => G.kernelPrm (G.isPrmReplicated n i) (s.isPrmArrayElement i) (G.isPrmDataRefQ n p i) (G.prmRef n i)
    (r i) cnt
  let params := fun i => if i < G.numParams n then (given i).1 else none
  { params := kernel cnt params
    isPrmArrayElement := fun i => if i < G.numParams n then (given i).2 else s.isPrmArrayElement i
    calls := s.calls ++ [params] }

/-- The loop over the replicas. -/
def callKernels (k : Nat) : ExecLoop :=
  (List.range k).foldl (G.callKernel n p kernel r) { isPrmArrayElement := (G.desc n p).isArrayElement }

/-- `ownTargetNodeDescNodeExecuteTargetKernel`: the arrays of the calls, and the ids after them. -/
def ownTargetNodeDescNodeExecuteTargetKernel : List (Nat → Option Nat) × (Nat → Option Nat) :=
  let s := G.callKernels n p kernel r (G.loopMax n)
  (s.calls, fun i =>
    if i < G.numParams n then
      G.writtenBack (G.isPrmReplicated n i) (s.isPrmArrayElement i) (G.isPrmDataRefQ n p i) (r i) (s.params i)
    else r i)

/-- What a parameter to which `b` is bound stands for once `U` has taken the place of the reference of its queue. -/
def rebound (u : QueueUse) (U b : Nat) : Option Nat :=
  if b = u.ref then some U
  else if (G.ref b).scope = some u.ref then G.item U (G.elementIdx b)
  else if (G.ref u.ref).scope = some b then (G.ref U).scope
  else some b

/-- The object of replica `k`: that element of the container of `X`, or `X` itself. -/
def forReplica (isPrmReplicated : Bool) (X k : Nat) : Option Nat :=
  if isPrmReplicated then (G.container X).bind (fun c => G.item c k) else some X

/-- The use of the queue of parameter `i`. -/
def useAt (i : Nat) : Option QueueUse := (((G.desc n p).prmQueue i).bind id).bind G.queueUse

/-- Parameter `i`, to which `b` was bound when the graph was verified, has acquired `r` from its queue: a dequeue would return
`U` for it, and it is the id of `U` or of the container of `U`. -/
structure Takes (got : Nat → Option Nat) (i b : Nat) (u : QueueUse) (r U : Nat) : Prop where
  bound : G.prmRef n i = some b
  use : G.useAt n p i = some u
  got : got i = some r
  returned : G.returned u r = some U
  holds : r = U ∨ (G.ref U).scope = some r

/-- What the user bound to parameter `i` for replica `k`, in terms of the references that were acquired. -/
def boundTo (got : Nat → Option Nat) (i k : Nat) : Option Nat :=
  (G.prmRef n i).bind (fun b =>
    if G.isPrmDataRefQ n p i then
      (G.useAt n p i).bind (fun u => ((got i).bind (G.returned u)).bind (fun U =>
        (G.rebound u U b).bind (fun X => G.forReplica (G.isPrmReplicated n i) X k)))
    else G.forReplica (G.isPrmReplicated n i) b k)

/-- The id `w` is what a parameter is written back as when the kernel has put `y` in place of `x`: the id of `y` or, where `x` is
an element of the container that was acquired, that of a container with `y` in the same place. -/
def Replaces (r b : Nat) (x y w : Option Nat) : Prop :=
  if x.bind (fun x => (G.ref x).scope) = some r then w.bind (fun c => G.item c (G.elementIdx b)) = y else w = y

/-- A run of the kernel with the ids that were acquired. -/
def run (got : Nat → Option Nat) : List (Nat → Option Nat) × (Nat → Option Nat) :=
  G.ownTargetNodeDescNodeExecuteTargetKernel n p kernel (G.acquired n p got)

/-- **What a node's kernel gets and gives back**: each call has for each parameter what the user bound for that replica; and
the id left for a parameter with a queue is one for which the acquired reference is returned, if no call changed the parameter,
and that of the replacement, if one did. -/
structure ParametersOk (got : Nat → Option Nat) : Prop where
  received : ∀ k < G.loopMax n, ∃ a, (G.run n p kernel got).1[k]? = some a ∧
    ∀ i < G.numParams n, a i = G.boundTo n p got i k ∧ ((G.prmRef n i).isSome = true → (a i).isSome = true)
  unchanged : ∀ i < G.numParams n, ∀ b u r U, G.Takes n p got i b u r U →
    (∀ k a, (G.run n p kernel got).1[k]? = some a → kernel k a i = a i) →
      ((G.run n p kernel got).2 i).bind (G.returned u) = some U
  replaced : ∀ i < G.numParams n, G.isPrmReplicated n i = false → ∀ b u r U, G.Takes n p got i b u r U →
    ∀ k a, (G.run n p kernel got).1[k]? = some a → kernel k a i ≠ a i →
      G.Replaces r b (a i) (kernel k a i) ((G.run n p kernel got).2 i)

end ExecGraph

end Tiovx
