import Mathlib.Data.List.Basic
/-!
# NodeKernel — a node's kernel on its target (`vx_node.c`)

`ownNodeKernelInit` and `ownNodeKernelDeinit` call the callbacks of a kernel, send the commands that create and delete
it on its target, and keep four flags of the node on what was done.  `Outcomes` says how each call and each command
ends; the log of a node holds what was called and sent, newest first.
-/
namespace Tiovx

/-- What a callback, a command or an allocation ends with: `VX_SUCCESS`, `VX_ERROR_TIMEOUT` or another error. -/
inductive VxStatus
  | success
  | timeout
  | failure
deriving DecidableEq

/-- `tivxCheckStatus`. -/
def VxStatus.check (st new : VxStatus) : VxStatus := if new = .success then st else new

/-- What is fixed of a node: its kernel, its replicas and its place in a super node.  `revalidates` are the nodes with a
validate callback and a replicated parameter from an object array made of a list; `sendsCommands` are those outside of a
super node, and the super nodes. -/
structure NodeKernel where
  isTargetKernel : Bool
  localDataSize : Nat := 0
  hasInitialize : Bool := true
  hasDeinitialize : Bool := true
  isReplicated : Bool := false
  numOfReplicas : Nat := 0
  revalidates : Bool := false
  sendsCommands : Bool := true

/-- The replicas with a callback of their own. -/
def NodeKernel.replicas (K : NodeKernel) : List Nat :=
  if K.isTargetKernel && K.isReplicated then List.range K.numOfReplicas else [0]

/-- What was called or sent.  A replica of a target kernel without an initialize callback counts as initialised. -/
inductive KernelEvent
  | initialized (n : Nat) (st : VxStatus)
  | deinitialized (n : Nat) (st : VxStatus)
  | create (st : VxStatus)
  | delete (st : VxStatus)
  | alloc (block : Nat)
  | free (block : Nat)
  | execute
  | destruct
deriving DecidableEq

/-- The fields of a node about its kernel. -/
structure KernelState where
  isInitialized : Bool := false
  isKernelCreated : Bool := false
  isTimedOut : Bool := false
  localDataSize : Nat := 0
  localDataPtr : Option Nat := none
  localDataPtrIsAlloc : Bool := false
  log : List KernelEvent := []

/-- How the calls and commands for one node end. -/
structure Outcomes where
  memAlloc : Bool := true
  validate : Nat → VxStatus := fun _ => .success
  initStatus : Nat → VxStatus := fun _ => .success
  releaseMetaFormat : VxStatus := .success
  create : VxStatus := .success
  deinitStatus : Nat → VxStatus := fun _ => .success
  memFree : VxStatus := .success
  delete : VxStatus := .success

/-- The initialize callbacks of these replicas; after an error no other replica is initialised. -/
def callInitializeAll (K : NodeKernel) (o : Outcomes) : List Nat → VxStatus → List KernelEvent → VxStatus × List KernelEvent
  | [], st, log => (st, log)
  | n :: l, st, log =>
    if st = .success ∧ (K.revalidates = true → o.validate n = .success) then
      if K.hasInitialize then callInitializeAll K o l (o.initStatus n) (.initialized n (o.initStatus n) :: log)
      else callInitializeAll K o l .success (.initialized n .success :: log)
    else callInitializeAll K o l (if st = .success then o.validate n else st) log

/-- The deinitialize callbacks of these replicas, all of them. -/
def callDeinitializeAll (o : Outcomes) : List Nat → VxStatus → List KernelEvent → VxStatus × List KernelEvent
  | [], st, log => (st, log)
  | n :: l, st, log => callDeinitializeAll o l (st.check (o.deinitStatus n)) (.deinitialized n (o.deinitStatus n) :: log)

/-- The local data of a user kernel. -/
def allocLocalData (K : NodeKernel) (o : Outcomes) (S : KernelState) : VxStatus × KernelState :=
  if K.localDataSize = 0 then (.success, { S with localDataSize := 0, localDataPtr := none })
  else if o.memAlloc then
    (.success, { S with
      localDataSize := K.localDataSize
      localDataPtr := some S.log.length
      localDataPtrIsAlloc := true
      log := .alloc S.log.length :: S.log })
  else (.failure, { S with localDataSize := K.localDataSize, localDataPtr := none })

/-- The initialize callback of a user kernel. -/
def initUserKernel (K : NodeKernel) (o : Outcomes) (st : VxStatus) (S : KernelState) : VxStatus × KernelState :=
  if S.isInitialized = false ∧ K.hasInitialize = true ∧ st = .success then
    (o.initStatus 0, { S with
      isInitialized := decide (o.initStatus 0 = .success)
      log := .initialized 0 (o.initStatus 0) :: S.log })
  else (st, S)

/-- The initialize callbacks of a target kernel. -/
def initTargetKernel (K : NodeKernel) (o : Outcomes) (S : KernelState) : VxStatus × KernelState :=
  if S.isInitialized then (.success, S)
  else
    let R := callInitializeAll K o K.replicas .success S.log
    let st := if K.revalidates then R.1.check o.releaseMetaFormat else R.1
    (st, { S with isInitialized := decide (st = .success), log := R.2 })

/-- `TIVX_CMD_NODE_CREATE`. -/
def createKernel (K : NodeKernel) (o : Outcomes) (st : VxStatus) (S : KernelState) : VxStatus × KernelState :=
  if S.isKernelCreated = false ∧ st = .success ∧ K.sendsCommands = true then
    (o.create, { S with
      isTimedOut := match o.create with
        | .success => false
        | .timeout => true
        | .failure => S.isTimedOut
      log := .create o.create :: S.log })
  else (st, S)

/-- `ownNodeKernelInit`. -/
def ownNodeKernelInit (K : NodeKernel) (o : Outcomes) (S : KernelState) : VxStatus × KernelState :=
  let R :=
    if K.isTargetKernel then createKernel K o (initTargetKernel K o S).1 (initTargetKernel K o S).2
    else initUserKernel K o (allocLocalData K o S).1 (allocLocalData K o S).2
  (R.1, if R.1 = .success then { R.2 with isKernelCreated := true } else R.2)

/-- The deinitialize callback of a kernel without replicas. -/
def callDeinitializeOnce (K : NodeKernel) (o : Outcomes) (S : KernelState) : VxStatus × KernelState :=
  if S.isInitialized && K.hasDeinitialize then
    (o.deinitStatus 0, { S with
      isInitialized := !decide (o.deinitStatus 0 = .success)
      log := .deinitialized 0 (o.deinitStatus 0) :: S.log })
  else (.success, S)

/-- The local data of a user kernel is freed. -/
def freeLocalData (o : Outcomes) (st : VxStatus) (S : KernelState) : VxStatus × KernelState :=
  match S.localDataPtr with
  | none => (st, S)
  | some block =>
    if S.localDataPtrIsAlloc ∧ S.localDataSize ≠ 0 then
      (o.memFree, { S with
        localDataSize := 0
        localDataPtr := none
        localDataPtrIsAlloc := false
        log := .free block :: S.log })
    else (st, S)

/-- The deinitialize callbacks of a target kernel.  A replicated one keeps `is_initialized`. -/
def deinitTargetKernel (K : NodeKernel) (o : Outcomes) (S : KernelState) : VxStatus × KernelState :=
  if K.isReplicated then
    if S.isInitialized && K.hasDeinitialize then
      let R := callDeinitializeAll o K.replicas .success S.log
      (R.1, { S with log := R.2 })
    else (.success, S)
  else callDeinitializeOnce K o S

/-- `TIVX_CMD_NODE_DELETE`. -/
def deleteKernel (K : NodeKernel) (o : Outcomes) (st : VxStatus) (S : KernelState) : VxStatus × KernelState :=
  if (S.isKernelCreated || S.isTimedOut) && K.sendsCommands then
    let st := if st = .success then o.delete else st
    (st, { S with isTimedOut := S.isTimedOut || decide (st = .timeout), log := .delete o.delete :: S.log })
  else (st, S)

/-- `ownNodeKernelDeinit`. -/
def ownNodeKernelDeinit (K : NodeKernel) (o : Outcomes) (S : KernelState) : VxStatus × KernelState :=
  let R :=
    if K.isTargetKernel then deleteKernel K o (deinitTargetKernel K o S).1 (deinitTargetKernel K o S).2
    else freeLocalData o (callDeinitializeOnce K o S).1 (callDeinitializeOnce K o S).2
  (R.1, if R.1 = .success ∨ R.2.isTimedOut = true then { R.2 with isKernelCreated := false } else R.2)

end Tiovx
