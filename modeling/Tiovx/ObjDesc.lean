import Mathlib.Data.List.Basic
import Mathlib.Logic.Function.Basic
import Tiovx.Lib.RingQueue
/-!
# ObjDesc — the object descriptors the targets work on

Host and targets share a table of object descriptors.  What `vxVerifyGraph` writes and a run only reads is kept in
`ObjDescTable`; what a run changes is `Shm`.  A graph has one node descriptor for each node and pipeline instance, so a
node descriptor's id is the pair of them; queues, data reference queues and data references keep their numbers.
-/
namespace Tiovx

/-- Pairs of indices are found in a list by their equality. -/
instance lawfulBEqPair : LawfulBEq (Nat × Nat) := inferInstance

/-- `TIVX_OBJ_DESC_INVALID`. -/
def objDescInvalid : Nat := 0xFFFF

/-- `TIVX_OBJ_DESC_QUEUE_MAX_BLOCKED_NODES`. -/
def objDescQueueMaxBlockedNodes : Nat := 8

/-- `TIVX_OBJ_DESC_QUEUE_MAX_DEPTH`. -/
def objDescQueueMaxDepth : Nat := 32

/-- `TIVX_GRAPH_MAX_PIPELINE_DEPTH`. -/
def graphMaxPipelineDepth : Nat := 16

/-- The descriptor of a node at one pipeline instance. -/
structure NodeId where
  node : Nat
  pipe : Nat
deriving DecidableEq, Repr

/-- `tivx_obj_desc_queue_t`: a ring of ids and the nodes blocked on it. -/
structure ObjDescQueue where
  ring : RingQueue Nat objDescQueueMaxDepth
  blockedNodes : List NodeId
  blockedNodes_le : blockedNodes.length ≤ objDescQueueMaxBlockedNodes

/-- The queue descriptors by id. -/
abbrev Queues : Type := Nat → Option ObjDescQueue

/-- The fields of `tivx_obj_desc_data_ref_q_t` a run only reads. -/
structure DataRefQDesc where
  acquireQObjDescId : Nat
  releaseQObjDescId : Nat
  numInNodes : Nat
  isEnableRefConsumedEvent : Bool := false
  isInDelay : Bool := false
  delaySlotAutoAge : Bool := false
  nextObjDescIdInDelay : Nat := objDescInvalid
  delaySlots : Nat := 0

/-- The fields of `tivx_obj_desc_data_ref_q_t` a run writes. -/
structure DataRefQ where
  isRefAcquired : Bool := false
  refObjDescId : Nat := objDescInvalid
  inNodeDoneCnt : Nat := 0
deriving DecidableEq

/-- One parameter of a node descriptor: its bits in `is_prm_data_ref_q`, `is_prm_input` and `is_prm_bidi` and its
entries of `data_id` and `data_ref_q_id`. -/
structure Prm where
  isDataRefQ : Bool
  isInput : Bool
  isBidi : Bool := false
  dataId : Nat := objDescInvalid
  dataRefQId : Nat := objDescInvalid
deriving DecidableEq

/-- `VX_NODE_STATE_STEADY` and `VX_NODE_STATE_PIPEUP`. -/
inductive SourceState
  | steady
  | pipeup
deriving DecidableEq

/-- `TIVX_NODE_OBJ_DESC_STATE_IDLE` and `TIVX_NODE_OBJ_DESC_STATE_BLOCKED`. -/
inductive NodeObjDescState
  | idle
  | blocked
deriving DecidableEq

/-- The fields of `tivx_obj_desc_node_t` a run only reads.  `targetKernelIndex` is the entry at 0, and `none` of
`numPipeupBufsOf` for it is a kernel instance that is not found. -/
structure NodeDesc where
  targetId : Nat
  prms : List Prm
  inNodeId : List NodeId
  outNodeId : List NodeId
  prevPipeNodeId : Option NodeId
  isUserCallback : Bool := false
  isTargetKernel : Bool := true
  targetKernelIndex : Nat := 0
  numPipeupBufs : Nat := 1

/-- The fields of `tivx_obj_desc_node_t` a run writes. -/
structure Node where
  isExecuted : Bool := false
  state : NodeObjDescState := .idle
  blockedNodeId : Option NodeId := none
  sourceState : SourceState := .steady
deriving DecidableEq

/-- The descriptors as the verified graph leaves them: `num_entries` of the table, the data reference queue and node
descriptors in it, and `num_pipeup_bufs` of the target kernel instances. -/
structure ObjDescTable where
  numEntries : Nat
  dataRefQ : Nat → Option DataRefQDesc
  node : NodeId → Option NodeDesc
  kernelInstance : Nat → Option Nat := fun _ => none

/-- `ownObjDescGet` finds a descriptor. -/
def ObjDescTable.ownObjDescGet (T : ObjDescTable) (id : Nat) : Bool := decide (id < T.numEntries)

/-- What a run changes in the descriptors and the target kernel instances. -/
structure Shm where
  queue : Queues
  dataRefQ : Nat → DataRefQ
  node : NodeId → Node
  kernelInstance : Nat → SourceState

end Tiovx
