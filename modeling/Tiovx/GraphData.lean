import Mathlib.Data.List.Nodup
import Mathlib.Data.List.Flatten
/-!
# GraphData — a graph as the verification reads it (`vx_graph.h`, `vx_node.h`, `vx_reference.h`)

References and nodes are numbered.  A slot is a parameter of a node with a reference bound to it: the loops over the
nodes of a graph and their parameters skip the others.
-/
namespace Tiovx

/-- Direction of a kernel parameter: `VX_INPUT`, `VX_OUTPUT`, `VX_BIDIRECTIONAL`. -/
inductive Dir
  | input
  | output
  | bidirectional
deriving DecidableEq

/-- The types of a reference that verification tells apart. -/
inductive RefType
  | image
  | tensor
  | pyramid
  | objectArray
  | other
deriving DecidableEq

/-- What verification reads of a data reference.  `scope` is the container a reference was made in, and none where the
scope is a graph or the context; `parent` is the image a sub-image was made from; `elements` are what a pyramid or an
object array contains; a view is a region or a channel of an image, or a region of a tensor. -/
structure VxRef where
  type : RefType := .other
  isUniform : Bool := false
  isVirtual : Bool := false
  isView : Bool := false
  isArrayElement : Bool := false
  scope : Option Nat := none
  parent : Option Nat := none
  delay : Option Nat := none
  delaySlot : Nat := 0
  elements : List Nat := []

/-- `VX_KERNEL_COPY`, `VX_KERNEL_MOVE`, and the others. -/
inductive KernelEnum
  | copy
  | move
  | other
deriving DecidableEq

/-- A parameter of a node: the direction its kernel gives it and whether it is optional, and the reference bound to it.
`isReplicated` is its flag of `replicated_flags`, `numBuf` its `parameter_index_num_buf`. -/
structure NodePrm where
  dir : Dir
  optional : Bool := false
  ref : Option Nat
  isReplicated : Bool := false
  numBuf : Nat := 0

/-- A node, of a kernel that has a number among those of the context. -/
structure VxNode where
  kernel : Nat := 0
  enumeration : KernelEnum := .other
  prms : List NodePrm := []

/-- The nodes of a graph, with the references and the nodes of its context. -/
structure GraphNodes where
  ref : Nat → VxRef := fun _ => {}
  node : Nat → VxNode := fun _ => {}
  nodes : List Nat := []

/-- A graph in which no node is entered twice. -/
structure VxGraph extends GraphNodes where
  nodup : nodes.Nodup

instance : Coe VxGraph GraphNodes := ⟨VxGraph.toGraphNodes⟩

/-- A parameter of a node of a graph that has a reference. -/
structure Slot where
  node : Nat
  index : Nat
  dir : Dir
  ref : Nat
deriving DecidableEq

/-- The slots of node `n` from parameter `i` on. -/
def slotsFrom (n : Nat) : Nat → List NodePrm → List Slot
  | _, [] => []
  | i, P :: l =>
    match P.ref with
    | none => slotsFrom n (i + 1) l
    | some r => ⟨n, i, P.dir, r⟩ :: slotsFrom n (i + 1) l

/-- The slots of the graph, in the order of the loops of the source. -/
def GraphNodes.slots (G : GraphNodes) : List Slot := G.nodes.flatMap (fun n => slotsFrom n 0 (G.node n).prms)

/-- `ownGraphIsRefMatch`; a slot's reference is never the graph itself. -/
def GraphNodes.isRefMatch (G : GraphNodes) : Option Nat → Option Nat → Bool
  | some r₁, some r₂ =>
    if r₁ = r₂ then true
    else if (G.ref r₂).scope = some r₁ then true
    else if (G.ref r₁).type = .image ∧ (G.ref r₂).type = .image then
      decide ((G.ref r₁).parent = some r₂) || decide ((G.ref r₂).parent = some r₁)
    else false
  | _, _ => false

/-- The container of an array element. -/
def GraphNodes.parentOf (G : GraphNodes) (r : Nat) : Option Nat := if (G.ref r).isArrayElement then (G.ref r).scope else none

/-- `ownGraphCheckIsRefMatch`. -/
def GraphNodes.checkIsRefMatch (G : GraphNodes) (r₁ r₂ : Nat) : Bool :=
  G.isRefMatch (some r₁) (some r₂) || G.isRefMatch (some r₁) (G.parentOf r₂) || G.isRefMatch (G.parentOf r₁) (some r₂)

theorem mem_slotsFrom {n i : Nat} {l : List NodePrm} {a : Slot} (h : a ∈ slotsFrom n i l) : a.node = n ∧ i ≤ a.index := by
  induction l generalizing i with
  | nil => cases h
  | cons P l ih =>
    unfold slotsFrom at h
    split at h
    · obtain ⟨hn, hi⟩ := ih h
      exact ⟨hn, Nat.le_of_succ_le hi⟩
    · rcases List.mem_cons.1 h with rfl | h
      · exact ⟨rfl, Nat.le_refl _⟩
      · obtain ⟨hn, hi⟩ := ih h
        exact ⟨hn, Nat.le_of_succ_le hi⟩

theorem nodup_slotsFrom (n i : Nat) (l : List NodePrm) : (slotsFrom n i l).Nodup := by
  induction l generalizing i with
  | nil => exact List.nodup_nil
  | cons P l ih =>
    unfold slotsFrom
    split
    · exact ih (i + 1)
    · refine List.nodup_cons.2 ⟨fun h => ?_, ih (i + 1)⟩
      have := (mem_slotsFrom h).2
      simp only at this
      omega

/-- No slot is met twice. -/
theorem VxGraph.nodup_slots (G : VxGraph) : G.slots.Nodup := by
  unfold GraphNodes.slots
  rw [List.nodup_flatMap]
  refine ⟨fun n _ => nodup_slotsFrom n 0 _, G.nodup.imp (fun hne => ?_)⟩
  intro a ha hb
  exact hne ((mem_slotsFrom ha).1.symm.trans (mem_slotsFrom hb).1)

end Tiovx
