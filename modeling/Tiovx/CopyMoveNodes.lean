import Tiovx.GraphState
/-!
# CopyMoveNodes — copy and move nodes taken out of a graph (`vx_copy_swap.c`)

A copy or move node whose reference on one side can stand for the one on the other is removed: its users get the other
reference, and its in-nodes and out-nodes each other's edges.  Three passes look for such a node over and over, for an
output that is not virtual, for an input that is not, and for both virtual.  `copies` is what the copy callback of a
reference says of another.
-/
namespace Tiovx

/-- The first entry `n` of an array is overwritten by the last one, and the array is shortened. -/
def removeEntry (n : Nat) (l : List Nat) : List Nat :=
  match l.getLast? with
  | none => []
  | some m => (l.replace n m).dropLast

section Splice

variable (old : Nat)

/-- `k` gets `m` as one more in-node, and this time a list is not searched first. -/
def pushInNode (k : Nat) (L : Links) (m : Nat) : Except Links Links :=
  if (L.inNodes k).length < nodeMaxInNodes then
    .ok { L with inNodes := Function.update L.inNodes k (L.inNodes k ++ [m]) }
  else .error L

/-- `k` gets `m` as one more out-node. -/
def pushOutNode (k : Nat) (L : Links) (m : Nat) : Except Links Links :=
  if (L.outNodes k).length < nodeMaxOutNodes then
    .ok { L with outNodes := Function.update L.outNodes k (L.outNodes k ++ [m]) }
  else .error L

/-- Out-node `k` of the old node gets the in-nodes of the old node in place of it. -/
def spliceInNodes (L : Links) (k : Nat) : Except Links Links :=
  (L.inNodes old).foldlM (pushInNode k)
    { L with inNodes := Function.update L.inNodes k (removeEntry old (L.inNodes k)) }

/-- In-node `k` of the old node gets the out-nodes of the old node in place of it. -/
def spliceOutNodes (L : Links) (k : Nat) : Except Links Links :=
  (L.outNodes old).foldlM (pushOutNode k)
    { L with outNodes := Function.update L.outNodes k (removeEntry old (L.outNodes k)) }

/-- The edges of the old node are handed over. -/
def spliceNode (L : Links) : Except Links Links := do
  let L ← (L.outNodes old).foldlM (spliceInNodes old) L
  (L.inNodes old).foldlM (spliceOutNodes old) L

end Splice

/-- The parameters bound to `old` are bound to `new`. -/
def rebind (old new : Nat) (N : VxNode) : VxNode :=
  { N with prms := N.prms.map (fun P => if P.ref = some old then { P with ref := some new } else P) }

/-- `ownCopyMoveRemoveNode`, for node `n` of the graph. -/
def ownCopyMoveRemoveNode (s : GraphState) (n old new : Nat) : Except GraphState GraphState := do
  let node := fun m => if m ∈ s.nodes ∧ m ≠ n then rebind old new (s.node m) else s.node m
  let s ← { s with node := node }.withLinks (spliceNode n s.links)
  .ok { s with nodes := removeEntry n s.nodes }

/-- `ownReassignGraphParameter`. -/
def ownReassignGraphParameter (s : GraphState) (n index ref : Nat) (dir : Dir) : GraphState :=
  let found := s.allPrms.find? (fun x => s.prmRef x.1 x.2 = some ref ∧ s.prmDir x.1 x.2 = some dir)
  { s with
    parameters := s.parameters.map (fun P =>
      if P.node = n ∧ P.index = index then
        match found with
        | some (m, i) => { P with node := m, index := i }
        | none => P
      else P) }

/-- Both references are the first element of a container of type `t`. -/
def GraphState.firstOf (s : GraphState) (t : RefType) (r : Nat) : Bool :=
  match (s.ref r).scope with
  | some c => (s.ref c).type = t ∧ (s.ref c).elements.head? = some r
  | none => false

/-- The type of the container of a reference. -/
def GraphState.scopeType (s : GraphState) (r : Nat) : Option RefType := (s.ref r).scope.map (fun c => (s.ref c).type)

/-- `ownCopyMoveReplaceOutputCompatible`. -/
def ownCopyMoveReplaceOutputCompatible (copies : Nat → Nat → Bool) (s : GraphState) (new old : Nat) : Bool :=
  copies new old &&
    (if s.scopeType old = some .objectArray then s.firstOf .objectArray old && s.firstOf .objectArray new
    else if s.scopeType old = some .pyramid then s.firstOf .pyramid old && s.firstOf .pyramid new
    else !(s.ref old).isView)

/-- `ownCopyMoveReplaceInputCompatible`. -/
def ownCopyMoveReplaceInputCompatible (copies : Nat → Nat → Bool) (s : GraphState) (old new : Nat) : Bool :=
  ownCopyMoveReplaceOutputCompatible copies s new old

/-- `makeCopyMoveNodeList`. -/
def makeCopyMoveNodeList (s : GraphState) : List Nat := s.nodes.filter (fun n => (s.node n).enumeration ≠ .other)

/-- Another node than `n` has `r` as a parameter of direction `d`. -/
def GraphState.usedElsewhere (s : GraphState) (n r : Nat) (d : Dir) : Bool :=
  s.nodes.any (fun m => m ≠ n ∧ (s.node m).prms.any (fun P => P.ref = some r ∧ P.dir = d))

/-- The first parameter of another copy or move node is `first`. -/
def GraphState.copiedElsewhere (s : GraphState) (n first : Nat) : Bool :=
  (makeCopyMoveNodeList s).any (fun m => m ≠ n ∧ s.prmRef m 0 = some first)

/-- A node to remove, the reference that goes and the one that takes its place. -/
structure Removal where
  node : Nat
  old : Nat
  new : Nat

section Passes

variable (copies : Nat → Nat → Bool)

/-- The first pass: the output is not virtual, and takes the place of the input. -/
def removableOutput (s : GraphState) (n first second : Nat) : Option Removal :=
  if (s.ref second).isVirtual = false ∧ (s.ref first).isVirtual = true ∧
      ¬ ((s.node n).enumeration = .copy ∧ s.copiedElsewhere n first = true) ∧
      ownCopyMoveReplaceInputCompatible copies s first second = true then some ⟨n, first, second⟩
  else none

/-- The second pass: the input is not virtual, and takes the place of the output. -/
def removableInput (s : GraphState) (n first second : Nat) : Option Removal :=
  if (s.ref first).isVirtual = false ∧ (s.ref second).isVirtual = true ∧
      ¬ ((s.node n).enumeration = .copy ∧ s.usedElsewhere n second .bidirectional = true) ∧
      ownCopyMoveReplaceOutputCompatible copies s first second = true then some ⟨n, second, first⟩
  else none

/-- The third pass: both are virtual, and a copy node has no siblings where its output is changed in place. -/
def removableBoth (s : GraphState) (n first second : Nat) : Option Removal :=
  if (s.ref second).isVirtual = true ∧ (s.ref first).isVirtual = true ∧
      ¬ ((s.node n).enumeration = .copy ∧
        (s.copiedElsewhere n first = true ∨
          (∃ m ∈ s.links.inNodes n, 1 < (s.links.outNodes m).length) ∧ s.usedElsewhere n second .bidirectional = true)) ∧
      ownCopyMoveReplaceOutputCompatible copies s first second = true then some ⟨n, second, first⟩
  else none

/-- One pass: the first node that `removable` finds is removed and the search starts again, until none is found.  Each round
takes a node out of the graph, so that `s.nodes.length` rounds are enough. -/
def removalPass (removable : GraphState → Nat → Nat → Nat → Option Removal) (reassign : GraphState → Removal → GraphState) :
    Nat → Stage
  | 0, s => .ok s
  | k + 1, s =>
    match (makeCopyMoveNodeList s).findSome? (fun n =>
      match s.prmRef n 0, s.prmRef n 1 with
      | some first, some second => removable s n first second
      | _, _ => none) with
    | none => .ok s
    | some R => do
      let s ← ownCopyMoveRemoveNode s R.node R.old R.new
      removalPass removable reassign k (reassign s R)

/-- The first parameter of a move node is no input of another node. -/
def moveNodesValid (s : GraphState) : Bool :=
  s.nodes.all (fun n => (s.node n).enumeration ≠ .move ||
    (s.prmRef n 0).all (fun first => !s.usedElsewhere n first .input))

/-- `ownGraphProcessCopyMoveNodes`. -/
def ownGraphProcessCopyMoveNodes : Stage := fun s =>
  if moveNodesValid s then do
    let s ← removalPass (removableOutput copies)
      (fun s R => ownReassignGraphParameter s R.node 1 R.new .output) s.nodes.length s
    let s ← removalPass (removableInput copies)
      (fun s R => ownReassignGraphParameter s R.node 0 R.new .input) s.nodes.length s
    removalPass (removableBoth copies) (fun s _ => s) s.nodes.length s
  else .error s

end Passes

end Tiovx
