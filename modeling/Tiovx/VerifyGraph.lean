import Mathlib.Logic.Function.Basic
import Tiovx.Lib.Run
import Tiovx.NodeKernel
/-!
# VerifyGraph — a graph edited and verified over and over (`vx_graph.c`, `vx_graph_verify.c`)

The nodes of a graph and its two flags, `verified` and `reverify`.  An edit makes the graph unverified and keeps in
`reverify` that kernels may be live; `vxVerifyGraph` looks at both flags to know whether it has to de-initialise the
kernels first.  What `vxVerifyGraph` does between the kernels' de-initialisation and their initialisation is in
`Verification` only as whether it succeeds.
-/
namespace Tiovx

/-- A graph and its node objects.  `nodes` is `graph->nodes`; a node that was removed keeps its object until the last
reference to it is released. -/
structure GraphObject where
  verified : Bool := false
  reverify : Bool := false
  nodes : List Nat := []
  known : List Nat := []
  destructed : List Nat := []
  kernel : Nat → KernelState := fun _ => {}

/-- How the parts of one `vxVerifyGraph` end.  `enters` is that the meta formats and the lock are obtained, `optimised`
are the nodes `ownGraphProcessCopyMoveNodes` takes out of the graph. -/
structure Verification where
  enters : Bool := true
  deinit : Nat → Outcomes := fun _ => {}
  optimised : List Nat := []
  prepares : Bool := true
  kernelName : Nat → Bool := fun _ => true
  init : Nat → Outcomes := fun _ => {}
  kernelNameDeinit : Nat → Bool := fun _ => true
  finishes : Bool := true
  cleanup : Nat → Outcomes := fun _ => {}

/-- What the application does to a graph: it creates a node, a super node of nodes of the graph, removes a node, releases
the last reference to a removed node, verifies the graph and executes it. -/
inductive GraphAct
  | addNode (n : Nat)
  | addSuperNode
  | removeNode (n : Nat)
  | destructNode (n : Nat) (o : Outcomes)
  | verifyGraph (V : Verification)
  | execute

/-- `ownGraphSetReverify`. -/
def ownGraphSetReverify (s : GraphObject) : GraphObject := { s with reverify := s.verified, verified := false }

/-- The last entry of a list takes the place of one that is removed. -/
def swapRemove (n : Nat) (l : List Nat) : List Nat :=
  match l.getLast? with
  | none => []
  | some m => if m = n then l.dropLast else (l.dropLast).map (fun k => if k = n then m else k)

/-- `ownGraphAddNode`, for a node just created. -/
def ownGraphAddNode (s : GraphObject) (n : Nat) : GraphObject :=
  ownGraphSetReverify { s with nodes := s.nodes ++ [n], known := n :: s.known }

/-- `ownGraphRemoveNode`. -/
def ownGraphRemoveNode (s : GraphObject) (n : Nat) : GraphObject :=
  if n ∈ s.nodes then ownGraphSetReverify { s with nodes := swapRemove n s.nodes } else s

section Kernels

variable (K : Nat → NodeKernel)

/-- A loop over the nodes of a graph that breaks at the first error. -/
def forNodes (f : Nat → KernelState → VxStatus × KernelState) :
    List Nat → (Nat → KernelState) → VxStatus × (Nat → KernelState)
  | [], k => (.success, k)
  | n :: l, k =>
    if (f n (k n)).1 = .success then forNodes f l (Function.update k n (f n (k n)).2)
    else ((f n (k n)).1, Function.update k n (f n (k n)).2)

/-- `ownGraphNodeKernelDeinit`. -/
def ownGraphNodeKernelDeinit (o : Nat → Outcomes) (nodes : List Nat) (k : Nat → KernelState) :
    VxStatus × (Nat → KernelState) :=
  forNodes (fun n S => ownNodeKernelDeinit (K n) (o n) S) nodes k

/-- `ownGraphNodeKernelInit`. -/
def ownGraphNodeKernelInit (V : Verification) (nodes : List Nat) (k : Nat → KernelState) :
    VxStatus × (Nat → KernelState) :=
  if nodes.all V.kernelName then
    let R := forNodes (fun n S => ownNodeKernelInit (K n) (V.init n) S) nodes k
    (if nodes.all V.kernelNameDeinit then R.1 else .failure, R.2)
  else (.failure, k)

/-- What `vxVerifyGraph` does up to the kernels' initialisation, and that. -/
def verifyKernels (V : Verification) (nodes : List Nat) (k : Nat → KernelState) : VxStatus × (Nat → KernelState) :=
  if V.prepares then ownGraphNodeKernelInit K V nodes k else (.failure, k)

/-- The nodes left by `ownGraphProcessCopyMoveNodes`. -/
def Verification.nodesOf (V : Verification) (nodes : List Nat) : List Nat :=
  V.optimised.foldl (fun l n => swapRemove n l) nodes

/-- `vxVerifyGraph` once the kernels are de-initialised. -/
def verifyNodes (V : Verification) (s : GraphObject) : GraphObject :=
  let nodes := V.nodesOf s.nodes
  let R := verifyKernels K V nodes s.kernel
  if R.1 = .success ∧ V.finishes = true then { s with nodes := nodes, kernel := R.2, verified := true, reverify := false }
  else { s with nodes := nodes, kernel := (ownGraphNodeKernelDeinit K V.cleanup nodes R.2).2 }

/-- `vxVerifyGraph`. -/
def vxVerifyGraph (V : Verification) (s : GraphObject) : GraphObject :=
  if V.enters then
    if s.verified || s.reverify then
      let R := ownGraphNodeKernelDeinit K V.deinit s.nodes s.kernel
      if R.1 = .success then verifyNodes K V { s with verified := false, kernel := R.2 }
      else { s with verified := false, kernel := R.2 }
    else verifyNodes K V { s with verified := false }
  else s

/-- `ownDestructNode`. -/
def ownDestructNode (s : GraphObject) (n : Nat) (o : Outcomes) : GraphObject :=
  let S := (ownNodeKernelDeinit (K n) o (s.kernel n)).2
  { s with
    destructed := n :: s.destructed
    kernel := Function.update s.kernel n { S with log := .destruct :: S.log } }

/-- The kernels of a verified graph are executed. -/
def executeNodes (s : GraphObject) : GraphObject :=
  { s with kernel := fun n =>
      if n ∈ s.nodes then { s.kernel n with log := .execute :: (s.kernel n).log } else s.kernel n }

/-- **One step of a graph.** -/
def graphStep (s : GraphObject) : GraphAct → Option GraphObject
  | .addNode n => if n ∈ s.known then none else some (ownGraphAddNode s n)
  | .addSuperNode => some (ownGraphSetReverify s)
  | .removeNode n => if n ∈ s.nodes then some (ownGraphRemoveNode s n) else none
  | .destructNode n o =>
    if n ∈ s.known ∧ n ∉ s.nodes ∧ n ∉ s.destructed then some (ownDestructNode K s n o) else none
  | .verifyGraph V => some (vxVerifyGraph K V s)
  | .execute => if s.verified then some (executeNodes s) else none

end Kernels

end Tiovx
