import Tiovx.EventQueue
/-!
# CmdObjects — commands to a target and their acknowledgements (`vx_context.c`, `vx_target.c`)

A context has a few command objects, each an object descriptor with an event.  A call takes one from the free queue, writes
its command there, sends it and waits for the event; the target that has processed the command sends the descriptor back, and
the host's target posts the event.  A call that times out leaves its object in the pending queue, which a flush empties into
the free queue.
-/
namespace Tiovx

open StepSystem SlotPool

/-- `cmd_id`: the commands a target answers, and any other. -/
inductive CmdId
  | nodeCreate
  | nodeDelete
  | nodeControl
  | other (cmdId : Nat)
deriving DecidableEq

def CmdId.isNodeCmd : CmdId → Bool
  | .other _ => false
  | _ => true

/-- What only `ownContextSendControlCmd` writes into the descriptor. -/
structure ControlArgs where
  replicatedNodeIdx : Nat
  nodeCmdId : Nat
  cmdParamsDescId : List Nat
deriving DecidableEq

/-- `tivx_obj_desc_cmd_t`; `call` is the call that wrote it. -/
structure CmdObjDesc where
  cmdId : CmdId := .other 0
  dstTargetId : Nat := 0
  srcTargetId : Nat := 0
  objDescId : List Nat := []
  control : ControlArgs := ⟨0, 0, []⟩
  isSendAck : Bool := false
  isAck : Bool := false
  ackEventHandle : Option Nat := none
  cmdStatus : Int := 0
  call : Nat := 0

/-- `VX_SUCCESS`, `VX_FAILURE`, `VX_ERROR_INVALID_PARAMETERS` and `VX_ERROR_TIMEOUT`. -/
def vxSuccess : Int := 0
def vxFailure : Int := -1
def vxErrorInvalidParameters : Int := -10
def vxErrorTimeout : Int := -25

theorem vxFailure_ne : vxFailure ≠ vxSuccess := by decide

theorem vxErrorInvalidParameters_ne : vxErrorInvalidParameters ≠ vxSuccess := by decide

theorem vxErrorTimeout_ne : vxErrorTimeout ≠ vxSuccess := by decide

/-- `TIVX_CMD_MAX_OBJ_DESCS`. -/
def cmdMaxObjDescs : Nat := 16

/-- The arguments of a call. -/
structure SendCall where
  validContext : Bool
  targetId : Nat
  cmdId : CmdId
  objDescId : List Nat
  control : Option ControlArgs
  numObjDesc : Nat
  timeout : Timeout

def ownContextSendCmd (validContext : Bool) (targetId : Nat) (cmd : CmdId) (objDescId : List Nat) (timeout : Timeout) :
    SendCall :=
  { validContext, targetId, cmdId := cmd, objDescId, control := none, numObjDesc := objDescId.length, timeout }

def ownContextSendControlCmd (validContext : Bool) (nodeObjDesc targetId replicatedNodeIdx nodeCmdId : Nat)
    (objDescId : List Nat) (timeout : Timeout) : SendCall :=
  { validContext, targetId, cmdId := .nodeControl, objDescId := [nodeObjDesc]
    control := some ⟨replicatedNodeIdx, nodeCmdId, objDescId⟩, numObjDesc := objDescId.length, timeout }

/-- What the call `k` writes into the descriptor of command object `idx`, on the host whose target is `host`. -/
def CmdObjDesc.write (o : CmdObjDesc) (host k idx : Nat) (c : SendCall) : CmdObjDesc where
  cmdId := c.cmdId
  dstTargetId := c.targetId
  srcTargetId := host
  objDescId := c.objDescId
  control := c.control.getD o.control
  isSendAck := true
  isAck := false
  ackEventHandle := some idx
  cmdStatus := o.cmdStatus
  call := k

/-- A command a target has processed. -/
structure Processed where
  target : Nat
  call : Nat
  cmdId : CmdId
  objDescId : List Nat
  control : ControlArgs
  status : Int

/-- Where a message stands: on the way to its target, or in `ownTargetCmdDescHandler` of it before one of its steps: reading
the flag, processing the command, setting the flag, writing the status and sending the descriptor back, or clearing the flag
and posting the event. -/
inductive MsgPc
  | queued
  | received
  | executing
  | marking (status : Int)
  | writing (status : Int)
  | replying
  | clearing
  | posting
deriving DecidableEq

/-- A message: the id of a command object's descriptor. -/
structure Msg where
  target : Nat
  idx : Nat
  pc : MsgPc
deriving DecidableEq

/-- What a step of the handler does: where the message goes on, if it does, the acknowledgement it sends, the descriptor, the
event it posts and the command it has processed. -/
structure Effect where
  msg : Option Msg
  ack : Option Msg := none
  obj : CmdObjDesc
  post : Option Nat := none
  processed : Option Processed := none

/-- `ownTargetCmdDescHandler`, with `ownTargetCmdDescSendAck` and `ownTargetCmdDescHandleAck`, one step.  `outcome` is the
status of the command, and `isSent` that the acknowledgement could be sent. -/
def ownTargetCmdDescHandler (m : Msg) (o : CmdObjDesc) (outcome : Int) (isSent : Bool) : Effect :=
  let goOn (pc : MsgPc) (o : CmdObjDesc) : Effect := { msg := some { m with pc := pc }, obj := o }
  match m.pc with
  | .queued => goOn .received o
  | .received =>
    if o.cmdId.isNodeCmd then goOn (if o.isAck then .clearing else .executing) o else { msg := none, obj := o }
  | .executing =>
    { goOn (.marking outcome) o with processed := some ⟨m.target, o.call, o.cmdId, o.objDescId, o.control, outcome⟩ }
  | .marking status =>
    if o.isSendAck then goOn (.writing status) { o with isAck := true } else { msg := none, obj := o }
  | .writing status => goOn .replying { o with cmdStatus := status }
  | .replying =>
    { msg := none, obj := o, ack := if isSent then some ⟨o.srcTargetId, m.idx, .queued⟩ else none }
  | .clearing => if o.isAck then goOn .posting { o with isAck := false } else { msg := none, obj := o }
  | .posting => { msg := none, obj := o, post := o.ackEventHandle }

/-- Where a call stands: before it takes a command object, writes it, sends it, waits for its event, reads its status and
puts it into the free or the pending queue; or in `ownContextFlushCmdPendQueue`. -/
inductive CallPc
  | idle
  | getFree
  | write (idx : Nat)
  | send (idx : Nat)
  | wait (idx : Nat)
  | readStatus (idx : Nat)
  | putFree (idx : Nat) (status : Int)
  | putPend (idx : Nat)
  | returned (isAcked : Bool) (status : Int)
  | isEmpty
  | getPend
  | flushPut (idx : Nat)
  | flushed (status : Int)
deriving DecidableEq

/-- The command object a call holds. -/
def CallPc.slot : CallPc → Option Nat
  | .write idx | .send idx | .wait idx | .readStatus idx | .putFree idx _ | .putPend idx | .flushPut idx => some idx
  | _ => none

/-- A context with `n` command objects, the messages that carry them, and the commands processed.  The call `k` has the
arguments `calls k`, unless `k` flushes. -/
structure CmdSys (n : Nat) where
  host : Nat
  calls : Nat → SendCall
  freeQueue : RingQueue Nat n
  pendQueue : RingQueue Nat n
  objDesc : Nat → CmdObjDesc := fun _ => {}
  eventSet : Nat → Bool := fun _ => false
  messages : List Msg := []
  pc : Nat → CallPc := fun _ => .idle
  processed : List Processed := []

/-- What happens: a call or a flush begins and goes on, a wait times out or fails, the send of a command fails, or the `j`th
message moves on. -/
inductive CmdAct
  | call (k : Nat)
  | flush (k : Nat)
  | step (k : Nat)
  | timeOut (k : Nat)
  | waitFails (k : Nat)
  | sendFails (k : Nat) (status : Int)
  | message (j : Nat) (outcome : Int) (isSent : Bool)

namespace CmdSys

variable {n : Nat}

/-- The next step of a call, where none of its operations fails but for the state of a queue or of an event. -/
def callStep (s : CmdSys n) (k : Nat) : Option (CmdSys n) :=
  let c := s.calls k
  let goOn (s : CmdSys n) (pc : CallPc) : Option (CmdSys n) := some { s with pc := Function.update s.pc k pc }
  match s.pc k with
  | .idle | .returned _ _ | .flushed _ => none
  | .getFree =>
    match s.freeQueue.pop with
    | none => if c.timeout = .noWait then goOn s (.returned false vxFailure) else none
    | some (idx, q) => goOn { s with freeQueue := q } (if idx < n then .write idx else .returned false vxFailure)
  | .write idx =>
    goOn { s with objDesc := Function.update s.objDesc idx ((s.objDesc idx).write s.host k idx c) } (.send idx)
  | .send idx => goOn { s with messages := s.messages ++ [⟨c.targetId, idx, .queued⟩] } (.wait idx)
  | .wait idx =>
    if s.eventSet idx then goOn { s with eventSet := Function.update s.eventSet idx false } (.readStatus idx)
    else if c.timeout = .noWait then goOn s (.putPend idx)
    else none
  | .readStatus idx => goOn s (.putFree idx (if (s.objDesc idx).cmdStatus = vxSuccess then vxSuccess else vxFailure))
  | .putFree idx status =>
    match s.freeQueue.push idx with
    | none => goOn s (.returned true vxFailure)
    | some q => goOn { s with freeQueue := q } (.returned true status)
  | .putPend idx =>
    match s.pendQueue.push idx with
    | none => goOn s (.returned false (if c.control.isSome then vxFailure else vxErrorTimeout))
    | some q => goOn { s with pendQueue := q } (.returned false vxErrorTimeout)
  | .isEmpty => goOn s (if s.pendQueue.count = 0 then .flushed vxSuccess else .getPend)
  | .getPend =>
    match s.pendQueue.pop with
    | none => goOn s (.flushed vxFailure)
    | some (idx, q) => goOn { s with pendQueue := q } (.flushPut idx)
  | .flushPut idx =>
    match s.freeQueue.push idx with
    | none => goOn s (.flushed vxFailure)
    | some q => goOn { s with freeQueue := q } .getPend

/-- A message moves on as `e` says, the `j`th of those there are. -/
def carryOut (s : CmdSys n) (j idx : Nat) (e : Effect) : CmdSys n :=
  { s with
    messages := (match e.msg with
      | some m => s.messages.set j m
      | none => s.messages.eraseIdx j) ++ e.ack.toList
    objDesc := Function.update s.objDesc idx e.obj
    eventSet := match e.post with
      | some i => Function.update s.eventSet i true
      | none => s.eventSet
    processed := e.processed.toList ++ s.processed }

/-- **One step of a context, its calls and the targets.**  A target takes a message while it handles no other. -/
def step (s : CmdSys n) : CmdAct → Option (CmdSys n)
  | .call k =>
    let c := s.calls k
    let pc : CallPc :=
      if c.validContext = true ∧ c.numObjDesc < cmdMaxObjDescs then .getFree
      else .returned false vxErrorInvalidParameters
    if s.pc k = .idle then some { s with pc := Function.update s.pc k pc } else none
  | .flush k => if s.pc k = .idle then some { s with pc := Function.update s.pc k .isEmpty } else none
  | .step k => s.callStep k
  | .timeOut k =>
    if (s.calls k).timeout = .finite then
      match s.pc k with
      | .getFree => some { s with pc := Function.update s.pc k (.returned false vxErrorTimeout) }
      | .wait idx => some { s with pc := Function.update s.pc k (.putPend idx) }
      | _ => none
    else none
  | .waitFails k =>
    match s.pc k with
    | .wait _ =>
      if (s.calls k).timeout = .noWait then none
      else some { s with pc := Function.update s.pc k (.returned false vxFailure) }
    | _ => none
  | .sendFails k status =>
    match s.pc k with
    | .send idx =>
      let pc := CallPc.returned false (if (s.objDesc idx).cmdStatus = vxSuccess then status else vxFailure)
      if status = vxSuccess then none else some { s with pc := Function.update s.pc k pc }
    | _ => none
  | .message j outcome isSent =>
    match s.messages[j]? with
    | none => none
    | some m =>
      if m.pc = .queued ∧ ∃ m' ∈ s.messages, m'.target = m.target ∧ m'.pc ≠ .queued then none
      else some (s.carryOut j m.idx (ownTargetCmdDescHandler m (s.objDesc m.idx) outcome isSent))

/-- Every command object is in one of the two queues or held by one call. -/
def Slots (s : CmdSys n) : Prop :=
  Partitioned n (s.freeQueue.toList ++ s.pendQueue.toList) (fun k => (s.pc k).slot)

/-- What concerns one command object: the messages that carry it, its descriptor and its event. -/
structure View where
  messages : List Msg
  obj : CmdObjDesc
  eventSet : Bool

def view (s : CmdSys n) (idx : Nat) : View where
  messages := s.messages.filter (fun m => m.idx = idx)
  obj := s.objDesc idx
  eventSet := s.eventSet idx

/-- No message carries the command object, and its event is not set. -/
def View.Quiet (v : View) : Prop := v.messages = [] ∧ v.eventSet = false

instance (v : View) : Decidable v.Quiet := inferInstanceAs (Decidable (_ ∧ _))

/-- The target of the call `k` has processed its command, with the status `status`. -/
def Done (c : SendCall) (k : Nat) (log : List Processed) (status : Int) : Prop :=
  ∃ p ∈ log, p.call = k ∧ p.target = c.targetId ∧ p.cmdId = c.cmdId ∧ p.objDescId = c.objDescId ∧
    (∀ a ∈ c.control, p.control = a) ∧ p.status = status

/-- The command of the call `k` is written. -/
structure Written (c : SendCall) (k idx : Nat) (o : CmdObjDesc) : Prop where
  call : o.call = k
  cmdId : o.cmdId = c.cmdId
  objDescId : o.objDescId = c.objDescId
  control : ∀ a ∈ c.control, o.control = a
  ackEventHandle : o.ackEventHandle = some idx

/-- How far the command of a call that waits has come: one message carries it, to the target and back, before the event is
set; or none, where the event is set or no acknowledgement is on its way. -/
def Stage (c : SendCall) (k : Nat) (v : View) (log : List Processed) : Prop :=
  match v.messages with
  | [] => v.eventSet = true → Done c k log v.obj.cmdStatus
  | [m] => v.eventSet = false ∧
    match m.pc with
    | .queued | .received => if v.obj.isAck then Done c k log v.obj.cmdStatus else m.target = c.targetId
    | .executing => m.target = c.targetId
    | .marking status => Done c k log status
    | .writing status => v.obj.isAck = true ∧ Done c k log status
    | .replying => v.obj.isAck = true ∧ Done c k log v.obj.cmdStatus
    | .clearing | .posting => Done c k log v.obj.cmdStatus
  | _ => False

/-- What holds of a call, where it stands. -/
def CallOk (s : CmdSys n) (k : Nat) : CallPc → Prop
  | .write idx => (s.view idx).Quiet
  | .send idx => (s.view idx).Quiet ∧ Written (s.calls k) k idx (s.objDesc idx) ∧ (s.objDesc idx).isAck = false
  | .wait idx => Written (s.calls k) k idx (s.objDesc idx) ∧ Stage (s.calls k) k (s.view idx) s.processed
  | .readStatus idx => (s.view idx).Quiet ∧ Done (s.calls k) k s.processed (s.objDesc idx).cmdStatus
  | .putFree _ status | .returned true status => ∃ cmdStatus, Done (s.calls k) k s.processed cmdStatus ∧
      status = if cmdStatus = vxSuccess then vxSuccess else vxFailure
  | .returned false status => status ≠ vxSuccess
  | _ => True

/-- The invariant: the command objects are apart, a message's event is its object's, and every call is where it may be. -/
structure Inv (s : CmdSys n) : Prop where
  slots : s.Slots
  handles : ∀ m ∈ s.messages, (s.objDesc m.idx).ackEventHandle = some m.idx
  calls : ∀ k, s.CallOk k (s.pc k)

/-- **A command object is taken only when it is quiet**, no send of a command fails, and no wait fails but by a time-out. -/
def AnswersOwn (s : CmdSys n) : CmdAct → Prop
  | .sendFails _ _ | .waitFails _ => False
  | .step k => s.pc k = .getFree → ∀ x ∈ s.freeQueue.pop, (s.view x.1).Quiet
  | _ => True

instance (s : CmdSys n) : (a : CmdAct) → Decidable (s.AnswersOwn a)
  | .sendFails _ _ | .waitFails _ => isFalse id
  | .step k => inferInstanceAs (Decidable (s.pc k = .getFree → ∀ x ∈ s.freeQueue.pop, (s.view x.1).Quiet))
  | .call _ | .flush _ | .timeOut _ | .message _ _ _ => isTrue trivial

theorem Done.append {c : SendCall} {k : Nat} {log : List Processed} {status : Int} (h : Done c k log status)
    (l : List Processed) : Done c k (l ++ log) status := by
  obtain ⟨p, hp, hd⟩ := h
  exact ⟨p, List.mem_append_right l hp, hd⟩

theorem Stage.append {c : SendCall} {k : Nat} {v : View} {log : List Processed} (h : Stage c k v log)
    (l : List Processed) : Stage c k v (l ++ log) := by
  unfold Stage at h ⊢
  split at h
  · exact fun he => (h he).append l
  · obtain ⟨he, h⟩ := h
    refine ⟨he, ?_⟩
    split at h
    · split at h
      · rw [if_pos ‹_›]
        exact h.append l
      · rw [if_neg ‹_›]
        exact h
    · split at h
      · rw [if_pos ‹_›]
        exact h.append l
      · rw [if_neg ‹_›]
        exact h
    · exact h
    · exact h.append l
    · exact ⟨h.1, h.2.append l⟩
    · exact ⟨h.1, h.2.append l⟩
    · exact h.append l
    · exact h.append l
  · exact h

/-- A quiet command object that is sent. -/
theorem Stage.sent {c : SendCall} {k idx : Nat} {v : View} {log : List Processed} (h : v.Quiet)
    (ha : v.obj.isAck = false) : Stage c k { v with messages := [⟨c.targetId, idx, .queued⟩] } log := by
  refine ⟨h.2, ?_⟩
  simp only [ha]
  simp

/-- Once the event is set, the command was processed and no message is left. -/
theorem Stage.done {c : SendCall} {k : Nat} {v : View} {log : List Processed} (h : Stage c k v log)
    (he : v.eventSet = true) : v.messages = [] ∧ Done c k log v.obj.cmdStatus := by
  unfold Stage at h
  split at h
  · exact ⟨‹_›, h he⟩
  · rw [he] at h
    cases h.1
  · exact h.elim

/-- **The handler carries the command of a call that waits one step further.** -/
theorem Stage.handle {c : SendCall} {k idx : Nat} {v : View} {log : List Processed} {m : Msg} (h : Stage c k v log)
    (hw : Written c k idx v.obj) (hv : v.messages = [m]) (outcome : Int) (isSent : Bool) :
    let e := ownTargetCmdDescHandler m v.obj outcome isSent
    Written c k idx e.obj ∧
    Stage c k ⟨e.msg.toList ++ e.ack.toList, e.obj, v.eventSet || e.post.isSome⟩ (e.processed.toList ++ log) := by
  unfold Stage at h
  rw [hv] at h
  obtain ⟨he, h⟩ := h
  have he' : (v.eventSet || (none : Option Nat).isSome) = false := by
    rw [he]
    rfl
  -- no acknowledgement is on its way: the event stays as it is
  have lost : (v.eventSet || (none : Option Nat).isSome) = true → Done c k log v.obj.cmdStatus := by
    intro hs
    rw [he'] at hs
    cases hs
  unfold ownTargetCmdDescHandler
  cases hpc : m.pc with
  | queued =>
    simp only [hpc] at h
    exact ⟨hw, he', h⟩
  | received =>
    simp only [hpc] at h
    by_cases hn : v.obj.cmdId.isNodeCmd
    · by_cases ha : v.obj.isAck
      · simp only [hn, ha, if_true] at h ⊢
        exact ⟨hw, he', h⟩
      · simp only [hn, ha, if_true] at h ⊢
        exact ⟨hw, he', h⟩
    · simp only [hn]
      exact ⟨hw, lost⟩
  | executing =>
    simp only [hpc] at h
    refine ⟨hw, he', ?_⟩
    exact ⟨_, List.mem_cons_self, hw.call, h, hw.cmdId, hw.objDescId, hw.control, rfl⟩
  | marking status =>
    simp only [hpc] at h
    by_cases hs : v.obj.isSendAck
    · simp only [hs, if_true]
      exact ⟨⟨hw.call, hw.cmdId, hw.objDescId, hw.control, hw.ackEventHandle⟩, he', rfl, h⟩
    · simp only [hs]
      exact ⟨hw, lost⟩
  | writing status =>
    simp only [hpc] at h
    exact ⟨⟨hw.call, hw.cmdId, hw.objDescId, hw.control, hw.ackEventHandle⟩, he', h.1, h.2⟩
  | replying =>
    simp only [hpc] at h
    cases isSent with
    | true =>
      refine ⟨hw, he', ?_⟩
      simp only [h.1, if_true]
      exact h.2
    | false =>
      exact ⟨hw, lost⟩
  | clearing =>
    simp only [hpc] at h
    by_cases ha : v.obj.isAck
    · simp only [ha, if_true]
      exact ⟨⟨hw.call, hw.cmdId, hw.objDescId, hw.control, hw.ackEventHandle⟩, he', h⟩
    · simp only [ha]
      exact ⟨hw, lost⟩
  | posting =>
    simp only [hpc] at h
    exact ⟨hw, fun _ => h⟩

theorem handler_idx (m : Msg) (o : CmdObjDesc) (outcome : Int) (isSent : Bool) :
    (∀ m' ∈ (ownTargetCmdDescHandler m o outcome isSent).msg, m'.idx = m.idx) ∧
    ∀ m' ∈ (ownTargetCmdDescHandler m o outcome isSent).ack, m'.idx = m.idx := by
  unfold ownTargetCmdDescHandler
  cases m.pc <;> simp only [] <;> (try split) <;> simp

theorem handler_post (m : Msg) (o : CmdObjDesc) (outcome : Int) (isSent : Bool) :
    ∀ i ∈ (ownTargetCmdDescHandler m o outcome isSent).post, o.ackEventHandle = some i := by
  unfold ownTargetCmdDescHandler
  cases m.pc <;> simp only [] <;> (try split) <;> simp

theorem handler_ackEventHandle (m : Msg) (o : CmdObjDesc) (outcome : Int) (isSent : Bool) :
    (ownTargetCmdDescHandler m o outcome isSent).obj.ackEventHandle = o.ackEventHandle := by
  unfold ownTargetCmdDescHandler
  cases m.pc <;> simp only [] <;> (try split) <;> rfl

/-- The messages after the one between `l` and `l'` has moved on. -/
theorem messages_carryOut {s : CmdSys n} {l l' : List Msg} {m : Msg} (h : s.messages = l ++ m :: l') (idx : Nat)
    (e : Effect) : (s.carryOut l.length idx e).messages = l ++ (e.msg.toList ++ l') ++ e.ack.toList := by
  unfold carryOut
  rw [h]
  cases e.msg with
  | none => simp [List.eraseIdx_append_of_length_le]
  | some m' => simp [List.set_append_right]

theorem exists_split_of_getElem? {l : List Msg} {j : Nat} {m : Msg} (h : l[j]? = some m) :
    ∃ l₁ l₂, l = l₁ ++ m :: l₂ ∧ l₁.length = j := by
  obtain ⟨hj, hm⟩ := List.getElem?_eq_some_iff.1 h
  refine ⟨l.take j, l.drop (j + 1), ?_, List.length_take_of_le (Nat.le_of_lt hj)⟩
  rw [← hm, List.getElem_cons_drop, List.take_append_drop]

theorem filter_idx_of_ne {i : Nat} {m : Option Msg} (h : ∀ m' ∈ m, m'.idx ≠ i) :
    m.toList.filter (fun m => m.idx = i) = [] := by
  cases m with
  | none => rfl
  | some m =>
    have hm := h m rfl
    simp [hm]

theorem filter_idx_of_eq {i : Nat} {m : Option Msg} (h : ∀ m' ∈ m, m'.idx = i) :
    m.toList.filter (fun m => m.idx = i) = m.toList := by
  cases m with
  | none => rfl
  | some m =>
    have hm := h m rfl
    simp [hm]

theorem filter_append_singleton {l : List Msg} {i : Nat} {m : Msg} (h : l.filter (fun m => m.idx = i) = [])
    (hm : m.idx = i) : (l ++ [m]).filter (fun m => m.idx = i) = [m] := by
  rw [List.filter_append, h, List.nil_append]
  exact filter_idx_of_eq (m := some m) (fun m' hm' => by cases hm'; exact hm)

/-- A message that moves on concerns its own command object only. -/
theorem view_carryOut_of_ne {s : CmdSys n} {j i : Nat} {m : Msg} (hh : (s.objDesc m.idx).ackEventHandle = some m.idx)
    (hj : s.messages[j]? = some m) (hi : i ≠ m.idx) (outcome : Int) (isSent : Bool) :
    (s.carryOut j m.idx (ownTargetCmdDescHandler m (s.objDesc m.idx) outcome isSent)).view i = s.view i := by
  obtain ⟨l, l', hl, rfl⟩ := exists_split_of_getElem? hj
  have hidx := handler_idx m (s.objDesc m.idx) outcome isSent
  have hpost := handler_post m (s.objDesc m.idx) outcome isSent
  generalize ownTargetCmdDescHandler m (s.objDesc m.idx) outcome isSent = e at hidx hpost ⊢
  have hmsg := filter_idx_of_ne (fun m' hm' => by rw [hidx.1 m' hm']; exact hi.symm) (m := e.msg)
  have hack := filter_idx_of_ne (fun m' hm' => by rw [hidx.2 m' hm']; exact hi.symm) (m := e.ack)
  have hmessages : (s.carryOut l.length m.idx e).messages.filter (fun m => m.idx = i) =
      s.messages.filter (fun m => m.idx = i) := by
    rw [messages_carryOut hl, hl]
    simp [List.filter_append, hmsg, hack, hi.symm]
  have hevent : (s.carryOut l.length m.idx e).eventSet i = s.eventSet i := by
    unfold carryOut
    cases hp : e.post with
    | none => rfl
    | some i' =>
      have hi' : i' = m.idx := by
        have := hpost i' hp
        rw [hh] at this
        cases this
        rfl
      subst hi'
      exact Function.update_of_ne hi _ _
  unfold view
  rw [hmessages, hevent]
  simp only [carryOut, Function.update_of_ne hi]

/-- The only message of a command object moves on. -/
theorem view_carryOut_self {s : CmdSys n} {j : Nat} {m : Msg} (hh : (s.objDesc m.idx).ackEventHandle = some m.idx)
    (hj : s.messages[j]? = some m) (hm : (s.view m.idx).messages = [m]) (outcome : Int) (isSent : Bool) :
    let e := ownTargetCmdDescHandler m (s.objDesc m.idx) outcome isSent
    (s.carryOut j m.idx e).view m.idx =
      ⟨e.msg.toList ++ e.ack.toList, e.obj, (s.view m.idx).eventSet || e.post.isSome⟩ := by
  obtain ⟨l, l', hl, rfl⟩ := exists_split_of_getElem? hj
  have hidx := handler_idx m (s.objDesc m.idx) outcome isSent
  have hpost := handler_post m (s.objDesc m.idx) outcome isSent
  intro e
  change ∀ m' ∈ e.post, _ at hpost
  have hmsg := filter_idx_of_eq hidx.1
  have hack := filter_idx_of_eq hidx.2
  have hempty : l.filter (fun m' => m'.idx = m.idx) = [] ∧ l'.filter (fun m' => m'.idx = m.idx) = [] := by
    unfold view at hm
    simp only [hl, List.filter_append, List.filter_cons, decide_true, if_true] at hm
    have hlen := congrArg List.length hm
    simp only [List.length_append, List.length_cons, List.length_nil] at hlen
    exact ⟨List.length_eq_zero_iff.1 (by omega), List.length_eq_zero_iff.1 (by omega)⟩
  have hmessages : (s.carryOut l.length m.idx e).messages.filter (fun m' => m'.idx = m.idx) =
      e.msg.toList ++ e.ack.toList := by
    rw [messages_carryOut hl, List.filter_append, List.filter_append, List.filter_append, hempty.1, hempty.2, hmsg, hack,
      List.nil_append, List.append_nil]
  have hevent : (s.carryOut l.length m.idx e).eventSet m.idx = (s.eventSet m.idx || e.post.isSome) := by
    unfold carryOut
    cases hp : e.post with
    | none => simp
    | some i' =>
      have := hpost i' hp
      rw [hh] at this
      cases this
      simp
  unfold view
  rw [hmessages, hevent]
  simp [carryOut]

theorem CallOk.frame {s s' : CmdSys n} {k : Nat} {p : CallPc} (h : s.CallOk k p) (hc : s'.calls = s.calls)
    (hv : ∀ i, p.slot = some i → s'.view i = s.view i) {l : List Processed} (hl : s'.processed = l ++ s.processed) :
    s'.CallOk k p := by
  have ho : ∀ i, p.slot = some i → s'.objDesc i = s.objDesc i := fun i hi => congrArg View.obj (hv i hi)
  cases p with
  | write idx =>
    simp only [CallOk] at h ⊢
    rw [hv idx rfl]
    exact h
  | send idx =>
    simp only [CallOk] at h ⊢
    rw [hv idx rfl, hc, ho idx rfl]
    exact h
  | wait idx =>
    simp only [CallOk] at h ⊢
    rw [hv idx rfl, hc, ho idx rfl, hl]
    exact ⟨h.1, h.2.append l⟩
  | readStatus idx =>
    simp only [CallOk] at h ⊢
    rw [hv idx rfl, hc, ho idx rfl, hl]
    exact ⟨h.1, h.2.append l⟩
  | putFree idx status =>
    obtain ⟨cmdStatus, hd, hs⟩ := h
    refine ⟨cmdStatus, ?_, hs⟩
    rw [hc, hl]
    exact hd.append l
  | returned isAcked status =>
    cases isAcked with
    | true =>
      obtain ⟨cmdStatus, hd, hs⟩ := h
      refine ⟨cmdStatus, ?_, hs⟩
      rw [hc, hl]
      exact hd.append l
    | false => exact h
  | _ => trivial

theorem mem_carryOut {s : CmdSys n} {j idx : Nat} {e : Effect} {m' : Msg}
    (h : m' ∈ (s.carryOut j idx e).messages) : m' ∈ s.messages ∨ m' ∈ e.msg ∨ m' ∈ e.ack := by
  rcases List.mem_append.1 h with h | h
  · cases he : e.msg with
    | none =>
      rw [he] at h
      exact .inl (List.mem_of_mem_eraseIdx h)
    | some m =>
      rw [he] at h
      rcases List.mem_or_eq_of_mem_set h with h | h
      · exact .inl h
      · exact .inr (.inl (by rw [h]; rfl))
  · exact .inr (.inr (Option.mem_toList.1 h))

theorem mem_view {s : CmdSys n} {m : Msg} (h : m ∈ s.messages) : m ∈ (s.view m.idx).messages :=
  List.mem_filter.2 ⟨h, by simp⟩

theorem not_quiet {s : CmdSys n} {m : Msg} (h : m ∈ s.messages) : ¬ (s.view m.idx).Quiet := by
  intro hq
  have hm := mem_view h
  rw [hq.1] at hm
  cases hm

theorem Stage.eq_singleton {c : SendCall} {k : Nat} {v : View} {log : List Processed} {m : Msg} (h : Stage c k v log)
    (hm : m ∈ v.messages) : v.messages = [m] := by
  unfold Stage at h
  split at h
  · rename_i hv
    rw [hv] at hm
    cases hm
  · rename_i m' hv
    rw [hv] at hm
    rw [hv, List.mem_singleton.1 hm]
  · exact h.elim

/-- A message moves on. -/
theorem Inv.message {s : CmdSys n} (h : s.Inv) {j : Nat} {m : Msg} (hj : s.messages[j]? = some m) (outcome : Int)
    (isSent : Bool) : (s.carryOut j m.idx (ownTargetCmdDescHandler m (s.objDesc m.idx) outcome isSent)).Inv := by
  have hm := List.mem_of_getElem? hj
  have hh := h.handles m hm
  have hidx := handler_idx m (s.objDesc m.idx) outcome isSent
  refine ⟨h.slots, fun m' hm' => ?_, fun k => ?_⟩
  · have hold : m'.idx = m.idx ∨ m' ∈ s.messages := by
      rcases mem_carryOut hm' with hm' | hm' | hm'
      · exact .inr hm'
      · exact .inl (hidx.1 m' hm')
      · exact .inl (hidx.2 m' hm')
    by_cases hi : m'.idx = m.idx
    · simp only [carryOut, hi, Function.update_self, handler_ackEventHandle]
      exact hh
    · simp only [carryOut, Function.update_of_ne hi]
      exact h.handles m' (hold.resolve_left hi)
  · have hk := h.calls k
    change CmdSys.CallOk _ k (s.pc k)
    by_cases hs : (s.pc k).slot = some m.idx
    · cases hp : s.pc k with
      | wait idx =>
        rw [hp] at hs hk
        cases hs
        obtain ⟨hw, hst⟩ := hk
        have hv := hst.eq_singleton (mem_view hm)
        have hhandle := hst.handle hw hv outcome isSent
        have hself := view_carryOut_self hh hj hv outcome isSent
        simp only [CallOk]
        rw [hself]
        refine ⟨?_, hhandle.2⟩
        simp only [carryOut, Function.update_self]
        exact hhandle.1
      | write idx =>
        rw [hp] at hs hk
        cases hs
        exact absurd hk (not_quiet hm)
      | send idx =>
        rw [hp] at hs hk
        cases hs
        exact absurd hk.1 (not_quiet hm)
      | readStatus idx =>
        rw [hp] at hs hk
        cases hs
        exact absurd hk.1 (not_quiet hm)
      | putFree idx status =>
        rw [hp] at hk
        obtain ⟨cmdStatus, hd, hst⟩ := hk
        exact ⟨cmdStatus, hd.append _, hst⟩
      | putPend idx => trivial
      | flushPut idx => trivial
      | _ =>
        rw [hp] at hs
        cases hs
    · have hv : ∀ i, (s.pc k).slot = some i → (s.carryOut j m.idx
          (ownTargetCmdDescHandler m (s.objDesc m.idx) outcome isSent)).view i = s.view i := by
        intro i hi
        apply view_carryOut_of_ne hh hj
        intro hne
        rw [hi, hne] at hs
        exact hs rfl
      exact CallOk.frame hk rfl hv rfl

/-- A call moves on and leaves what concerns the command objects of the others. -/
theorem Inv.move {s s' : CmdSys n} (h : s.Inv) {k : Nat} {p : CallPc} (hpc : s'.pc = Function.update s.pc k p)
    (hc : s'.calls = s.calls) (hl : s'.processed = s.processed)
    (hv : ∀ u ≠ k, ∀ i, (s.pc u).slot = some i → s'.view i = s.view i) (hs : s'.Slots)
    (hh : ∀ m ∈ s'.messages, (s'.objDesc m.idx).ackEventHandle = some m.idx) (hk : s'.CallOk k p) : s'.Inv := by
  refine ⟨hs, hh, fun u => ?_⟩
  rw [hpc]
  by_cases hu : u = k
  · subst hu
    rw [Function.update_self]
    exact hk
  · rw [Function.update_of_ne hu]
    exact (h.calls u).frame hc (hv u hu) (l := []) hl

theorem slot_update (pc : Nat → CallPc) (k : Nat) (p : CallPc) :
    (fun u => (Function.update pc k p u).slot) = Function.update (fun u => (pc u).slot) k p.slot :=
  Function.comp_update CallPc.slot pc k p

/-- The slots, where a call keeps its command object, if it has one. -/
theorem Slots.keep {s : CmdSys n} (h : s.Slots) {k : Nat} {p : CallPc} (hp : p.slot = (s.pc k).slot) :
    Partitioned n (s.freeQueue.toList ++ s.pendQueue.toList) (fun u => (Function.update s.pc k p u).slot) := by
  rw [slot_update, hp, Function.update_eq_self]
  exact h

/-- The slots, where a call takes a command object from the free queue. -/
theorem Slots.takeFree {s : CmdSys n} (h : s.Slots) {k idx : Nat} {p : CallPc} {q : RingQueue Nat n}
    (hk : (s.pc k).slot = none) (hq : s.freeQueue.pop = some (idx, q)) (hp : p.slot = some idx) :
    Partitioned n (q.toList ++ s.pendQueue.toList) (fun u => (Function.update s.pc k p u).slot) := by
  unfold Slots at h
  rw [RingQueue.toList_pop _ _ _ hq] at h
  rw [slot_update, hp]
  exact h.take hk

theorem Slots.takePend {s : CmdSys n} (h : s.Slots) {k idx : Nat} {p : CallPc} {q : RingQueue Nat n}
    (hk : (s.pc k).slot = none) (hq : s.pendQueue.pop = some (idx, q)) (hp : p.slot = some idx) :
    Partitioned n (s.freeQueue.toList ++ q.toList) (fun u => (Function.update s.pc k p u).slot) := by
  unfold Slots at h
  rw [RingQueue.toList_pop _ _ _ hq] at h
  rw [slot_update, hp]
  exact (h.perm List.perm_middle).take hk

/-- The slots, where a call gives its command object to the free queue, which has room for it. -/
theorem Slots.giveFree {s : CmdSys n} (h : s.Slots) {k idx : Nat} {p : CallPc} (hk : (s.pc k).slot = some idx)
    (hp : p.slot = none) : ∃ q, s.freeQueue.push idx = some q ∧
      Partitioned n (q.toList ++ s.pendQueue.toList) (fun u => (Function.update s.pc k p u).slot) := by
  have hroom := h.room (List.sublist_append_left _ _) hk
  obtain ⟨q, hq, -⟩ := s.freeQueue.push_of_lt idx (by rw [← RingQueue.length_toList]; exact hroom)
  refine ⟨q, hq, ?_⟩
  rw [slot_update, hp, RingQueue.toList_push _ _ _ hq, List.append_assoc]
  exact (h.give hk).perm List.perm_middle.symm

theorem Slots.givePend {s : CmdSys n} (h : s.Slots) {k idx : Nat} {p : CallPc} (hk : (s.pc k).slot = some idx)
    (hp : p.slot = none) : ∃ q, s.pendQueue.push idx = some q ∧
      Partitioned n (s.freeQueue.toList ++ q.toList) (fun u => (Function.update s.pc k p u).slot) := by
  have hroom := h.room (List.sublist_append_right _ _) hk
  obtain ⟨q, hq, -⟩ := s.pendQueue.push_of_lt idx (by rw [← RingQueue.length_toList]; exact hroom)
  refine ⟨q, hq, ?_⟩
  rw [slot_update, hp, RingQueue.toList_push _ _ _ hq, ← List.append_assoc]
  exact (h.give hk).perm (List.perm_append_singleton idx _).symm

/-- What two calls hold is apart. -/
theorem Slots.ne {s : CmdSys n} (h : s.Slots) {k u i j : Nat} (hk : (s.pc k).slot = some i)
    (hu : (s.pc u).slot = some j) (huk : u ≠ k) : j ≠ i := by
  intro hij
  subst hij
  exact huk (h.unique u k j hu hk)

/-- A call moves on, and only the queues and where it stands change. -/
theorem Inv.goOn {s : CmdSys n} (h : s.Inv) {k : Nat} {p : CallPc} {f q : RingQueue Nat n}
    (hs : Partitioned n (f.toList ++ q.toList) (fun u => (Function.update s.pc k p u).slot))
    (hk : s.CallOk k p) :
    Inv { s with freeQueue := f, pendQueue := q, pc := Function.update s.pc k p } := by
  have hok : CallOk { s with freeQueue := f, pendQueue := q, pc := Function.update s.pc k p } k p :=
    CallOk.frame hk rfl (fun _ _ => rfl) (l := []) rfl
  exact Inv.move h rfl rfl rfl (fun _ _ _ _ => rfl) hs h.handles hok

/-- A call writes its command into a quiet command object. -/
theorem Inv.write {s : CmdSys n} (h : s.Inv) {k idx : Nat} (hp : s.pc k = .write idx) :
    Inv { s with
      objDesc := Function.update s.objDesc idx ((s.objDesc idx).write s.host k idx (s.calls k))
      pc := Function.update s.pc k (.send idx) } := by
  have hslot : (s.pc k).slot = some idx := congrArg CallPc.slot hp
  have hquiet := h.calls k
  rw [hp] at hquiet
  have hnone : ∀ m ∈ s.messages, m.idx ≠ idx := by
    intro m hm hi
    subst hi
    exact not_quiet hm hquiet
  refine Inv.move h rfl rfl rfl (fun u hu i hi => ?_) (h.slots.keep (p := .send idx) hslot.symm) (fun m hm => ?_) ?_
  · have hne := h.slots.ne hslot hi hu
    simp only [view, Function.update_of_ne hne]
  · simp only [Function.update_of_ne (hnone m hm)]
    exact h.handles m hm
  · simp only [CallOk, view, Function.update_self]
    refine ⟨hquiet, ⟨rfl, rfl, rfl, fun a ha => ?_, rfl⟩, rfl⟩
    simp only [CmdObjDesc.write, Option.mem_def.1 ha, Option.getD_some]

/-- A call sends its command. -/
theorem Inv.send {s : CmdSys n} (h : s.Inv) {k idx : Nat} (hp : s.pc k = .send idx) :
    Inv { s with
      messages := s.messages ++ [⟨(s.calls k).targetId, idx, .queued⟩]
      pc := Function.update s.pc k (.wait idx) } := by
  have hslot : (s.pc k).slot = some idx := congrArg CallPc.slot hp
  have hok := h.calls k
  rw [hp] at hok
  obtain ⟨hquiet, hw, ha⟩ := hok
  refine Inv.move h rfl rfl rfl (fun u hu i hi => ?_) (h.slots.keep (p := .wait idx) hslot.symm) (fun m hm => ?_) ?_
  · have hne := h.slots.ne hslot hi hu
    simp [view, List.filter_append, hne.symm]
  · rcases List.mem_append.1 hm with hm | hm
    · exact h.handles m hm
    · rw [List.mem_singleton.1 hm]
      exact hw.ackEventHandle
  · have hs : Stage (s.calls k) k ⟨[⟨(s.calls k).targetId, idx, .queued⟩], _, _⟩ s.processed := Stage.sent hquiet ha
    refine ⟨hw, ?_⟩
    have hv := filter_append_singleton (m := ⟨(s.calls k).targetId, idx, .queued⟩) hquiet.1 rfl
    simp only [view, hv]
    exact hs

/-- A call sees the event of its command object. -/
theorem Inv.seeEvent {s : CmdSys n} (h : s.Inv) {k idx : Nat} (hp : s.pc k = .wait idx) (he : s.eventSet idx = true) :
    Inv { s with
      eventSet := Function.update s.eventSet idx false
      pc := Function.update s.pc k (.readStatus idx) } := by
  have hslot : (s.pc k).slot = some idx := congrArg CallPc.slot hp
  have hok := h.calls k
  rw [hp] at hok
  obtain ⟨hm, hd⟩ := hok.2.done he
  refine Inv.move h rfl rfl rfl (fun u hu i hi => ?_) (h.slots.keep (p := .readStatus idx) hslot.symm) h.handles ?_
  · have hne := h.slots.ne hslot hi hu
    simp only [view, Function.update_of_ne hne]
  · simp only [CallOk, view, Function.update_self]
    exact ⟨⟨hm, rfl⟩, hd⟩

theorem Inv.callStep {s s' : CmdSys n} (h : s.Inv) {k : Nat} (ha : s.AnswersOwn (.step k))
    (hs : s.callStep k = some s') : s'.Inv := by
  have hok := h.calls k
  unfold CmdSys.callStep at hs
  cases hp : s.pc k with
  | idle => simp only [hp] at hs; cases hs
  | returned isAcked status => simp only [hp] at hs; cases hs
  | flushed status => simp only [hp] at hs; cases hs
  | getFree =>
    have hslot : (s.pc k).slot = none := congrArg CallPc.slot hp
    simp only [hp] at hs
    cases hq : s.freeQueue.pop with
    | none =>
      simp only [hq] at hs
      split at hs
      · cases hs
        exact h.goOn (h.slots.keep hslot.symm) vxFailure_ne
      · cases hs
    | some x =>
      obtain ⟨idx, q⟩ := x
      have hidx : idx < n := h.slots.lt idx (by rw [RingQueue.toList_pop _ _ _ hq]; exact List.mem_cons_self)
      simp only [hq, if_pos hidx] at hs
      cases hs
      exact h.goOn (h.slots.takeFree hslot hq rfl) (ha hp (idx, q) hq)
  | write idx =>
    simp only [hp] at hs
    cases hs
    exact h.write hp
  | send idx =>
    simp only [hp] at hs
    cases hs
    exact h.send hp
  | wait idx =>
    simp only [hp] at hs
    split at hs
    · cases hs
      exact h.seeEvent hp ‹_›
    · split at hs
      · cases hs
        exact h.goOn (h.slots.keep (congrArg CallPc.slot hp).symm) trivial
      · cases hs
  | readStatus idx =>
    simp only [hp] at hs
    cases hs
    rw [hp] at hok
    exact h.goOn (h.slots.keep (congrArg CallPc.slot hp).symm) ⟨_, hok.2, rfl⟩
  | putFree idx status =>
    simp only [hp] at hs
    rw [hp] at hok
    obtain ⟨q, hq, hslots⟩ := h.slots.giveFree (p := .returned true status) (congrArg CallPc.slot hp) rfl
    simp only [hq] at hs
    cases hs
    exact h.goOn hslots hok
  | putPend idx =>
    simp only [hp] at hs
    obtain ⟨q, hq, hslots⟩ := h.slots.givePend (p := .returned false vxErrorTimeout) (congrArg CallPc.slot hp) rfl
    simp only [hq] at hs
    cases hs
    exact h.goOn hslots vxErrorTimeout_ne
  | isEmpty =>
    simp only [hp] at hs
    cases hs
    split
    · exact h.goOn (h.slots.keep (congrArg CallPc.slot hp).symm) trivial
    · exact h.goOn (h.slots.keep (congrArg CallPc.slot hp).symm) trivial
  | getPend =>
    have hslot : (s.pc k).slot = none := congrArg CallPc.slot hp
    simp only [hp] at hs
    cases hq : s.pendQueue.pop with
    | none =>
      simp only [hq] at hs
      cases hs
      exact h.goOn (h.slots.keep hslot.symm) trivial
    | some x =>
      simp only [hq] at hs
      cases hs
      exact h.goOn (h.slots.takePend hslot hq rfl) trivial
  | flushPut idx =>
    simp only [hp] at hs
    obtain ⟨q, hq, hslots⟩ := h.slots.giveFree (p := .getPend) (congrArg CallPc.slot hp) rfl
    simp only [hq] at hs
    cases hs
    exact h.goOn hslots trivial

theorem Inv.step {s s' : CmdSys n} (h : s.Inv) {a : CmdAct} (ha : s.AnswersOwn a) (hs : s.step a = some s') :
    s'.Inv := by
  cases a with
  | call k =>
    simp only [CmdSys.step] at hs
    split at hs
    · rename_i hp
      cases hs
      split
      · exact h.goOn (h.slots.keep (congrArg CallPc.slot hp).symm) trivial
      · exact h.goOn (h.slots.keep (congrArg CallPc.slot hp).symm) vxErrorInvalidParameters_ne
    · cases hs
  | flush k =>
    simp only [CmdSys.step] at hs
    split at hs
    · rename_i hp
      cases hs
      exact h.goOn (h.slots.keep (congrArg CallPc.slot hp).symm) trivial
    · cases hs
  | step k => exact h.callStep ha hs
  | timeOut k =>
    simp only [CmdSys.step] at hs
    split at hs
    · split at hs
      · rename_i hp
        cases hs
        exact h.goOn (h.slots.keep (congrArg CallPc.slot hp).symm) vxErrorTimeout_ne
      · rename_i hp
        cases hs
        exact h.goOn (h.slots.keep (congrArg CallPc.slot hp).symm) trivial
      · cases hs
    · cases hs
  | waitFails k => exact ha.elim
  | sendFails k status => exact ha.elim
  | message j outcome isSent =>
    simp only [CmdSys.step] at hs
    split at hs
    · cases hs
    · rename_i hj
      split at hs
      · cases hs
      · cases hs
        exact h.message hj outcome isSent

/-- A context after `ownContextCreateCmdObj`, over any memory. -/
def start (h : 0 < n) (freeQueueMemory pendQueueMemory : Vector Nat n) (objDesc : Nat → CmdObjDesc) (host : Nat)
    (calls : Nat → SendCall) : CmdSys n where
  host := host
  calls := calls
  freeQueue := putAll (List.range n) (.empty freeQueueMemory h)
  pendQueue := .empty pendQueueMemory h
  objDesc := objDesc

theorem inv_start (h : 0 < n) (freeQueueMemory pendQueueMemory : Vector Nat n) (objDesc : Nat → CmdObjDesc) (host : Nat)
    (calls : Nat → SendCall) : (start h freeQueueMemory pendQueueMemory objDesc host calls).Inv where
  slots := by
    have hf : (putAll (List.range n) (.empty freeQueueMemory h)).toList = List.range n := by
      rw [toList_putAll _ _ (by rw [RingQueue.toList_empty, List.length_range]; simp), RingQueue.toList_empty]
      rfl
    unfold Slots start
    rw [hf, RingQueue.toList_empty, List.append_nil]
    exact Partitioned.start
  handles m hm := by cases hm
  calls k := trivial

/-- Every command object is in one queue or held by one call; a call that was answered has the status its target processed
its command with; and it returns `VX_SUCCESS` only so. -/
structure AnswersCalls (s : CmdSys n) : Prop where
  slots : s.Slots
  answered : ∀ k status, s.pc k = .returned true status → ∃ cmdStatus, Done (s.calls k) k s.processed cmdStatus ∧
    status = if cmdStatus = vxSuccess then vxSuccess else vxFailure
  success : ∀ k isAcked, s.pc k = .returned isAcked vxSuccess → Done (s.calls k) k s.processed vxSuccess

theorem Inv.answersCalls {s : CmdSys n} (h : s.Inv) : s.AnswersCalls := by
  have hanswered : ∀ k status, s.pc k = .returned true status → ∃ cmdStatus,
      Done (s.calls k) k s.processed cmdStatus ∧ status = if cmdStatus = vxSuccess then vxSuccess else vxFailure := by
    intro k status hp
    have hk := h.calls k
    rw [hp] at hk
    exact hk
  refine ⟨h.slots, hanswered, fun k isAcked hp => ?_⟩
  cases isAcked with
  | false =>
    have hk := h.calls k
    rw [hp] at hk
    exact absurd rfl hk
  | true =>
    obtain ⟨cmdStatus, hd, hs⟩ := hanswered k _ hp
    by_cases hc : cmdStatus = vxSuccess
    · subst hc
      exact hd
    · rw [if_neg hc] at hs
      exact absurd hs.symm vxFailure_ne

/-- **Calls are answered by their own command.**  In every run where a command object is taken only when no message carries
it and its event is not set, no send fails and no wait fails but by a time-out, a call returns `VX_SUCCESS` only when its
target has processed its command, with that status, and no command object is lost or shared. -/
theorem answersCalls_of_reach (h : 0 < n) (freeQueueMemory pendQueueMemory : Vector Nat n) (objDesc : Nat → CmdObjDesc)
    (host : Nat) (calls : Nat → SendCall) (s : CmdSys n)
    (hr : Reach step (fun s a => s.AnswersOwn a) (start h freeQueueMemory pendQueueMemory objDesc host calls) s) :
    s.AnswersCalls :=
  (hr.inv (inv_start _ _ _ _ _ _) (fun _ _ _ hi ha hs => hi.step ha hs)).answersCalls

/-- Four command objects; every call creates a node on target `1`, and waits for a finite time. -/
def fourObjects : CmdSys 4 :=
  start (by decide) (.replicate 4 0) (.replicate 4 0) (fun _ => {}) 0
    (fun _ => ownContextSendCmd true 1 .nodeCreate [7] .finite)

/-- A call is answered. -/
def answeredCall : List CmdAct :=
  [.call 0, .step 0, .step 0, .step 0, .message 0 0 true, .message 0 0 true, .message 0 0 true, .message 0 0 true,
    .message 0 0 true, .message 0 0 true, .message 0 0 true, .message 0 0 true, .message 0 0 true, .message 0 0 true,
    .step 0, .step 0, .step 0]

theorem answersCalls_answered : ∃ s : CmdSys 4, s.pc 0 = .returned true vxSuccess ∧ s.AnswersCalls := by
  have hexec : (exec step (fun s a => decide (s.AnswersOwn a)) fourObjects answeredCall).map (fun s => s.pc 0) =
      some (.returned true vxSuccess) := by
    decide
  obtain ⟨s, hr, hp⟩ := exists_reach_of_exec hexec
  exact ⟨s, hp, answersCalls_of_reach _ _ _ _ _ _ s (hr.mono (fun _ _ h => of_decide_eq_true h))⟩

/-- The call `0` times out, its acknowledgement comes and a flush frees its command object; the calls `1`, `2` and `3` take
the others, and the call `4` takes this one. -/
def lateAck : List CmdAct :=
  [.call 0, .step 0, .step 0, .step 0, .message 0 0 true, .message 0 0 true, .timeOut 0, .step 0, .message 0 0 true,
    .message 0 0 true, .message 0 0 true, .message 0 0 true, .message 0 0 true, .message 0 0 true, .message 0 0 true,
    .message 0 0 true, .flush 5, .step 5, .step 5, .step 5, .step 5, .call 1, .step 1, .call 2, .step 2, .call 3, .step 3,
    .call 4, .step 4, .step 4, .step 4, .step 4, .step 4, .step 4]

/-- **A late acknowledgement answers another call.** -/
theorem lateAck_not_answersCalls : ∃ s : CmdSys 4, Reach step (fun s a => anyStep s a = true) fourObjects s ∧
    s.pc 4 = .returned true vxSuccess ∧ ¬ s.AnswersCalls := by
  have hexec : (exec step anyStep fourObjects lateAck).map (fun s => (s.pc 4, s.processed.map (·.call))) =
      some (.returned true vxSuccess, [0]) := by
    decide
  obtain ⟨s, hr, hs⟩ := exists_reach_of_exec hexec
  simp only [Prod.mk.injEq] at hs
  obtain ⟨hp, hlog⟩ := hs
  refine ⟨s, hr, hp, fun h => ?_⟩
  obtain ⟨p, hmem, hcall, -⟩ := h.success 4 true hp
  have h4 : (4 : Nat) ∈ s.processed.map (·.call) := List.mem_map.2 ⟨p, hmem, hcall⟩
  rw [hlog] at h4
  exact absurd h4 (by decide)

/-- A call that ends without giving its command object to a queue loses it. -/
theorem not_slots_of_drop {s s' : CmdSys n} (h : s.Slots) {k idx : Nat} {p : CallPc}
    (hf : s'.freeQueue = s.freeQueue) (hq : s'.pendQueue = s.pendQueue) (hpc : s'.pc = Function.update s.pc k p)
    (hk : (s.pc k).slot = some idx) (hp : p.slot = none) : ¬ s'.Slots := by
  intro hs
  unfold Slots at hs
  rw [hf, hq, hpc, slot_update, hp] at hs
  rcases hs.covered idx (h.apart k idx hk).1 with hm | ⟨u, hu⟩
  · exact (h.apart k idx hk).2 hm
  · by_cases huk : u = k
    · rw [huk, Function.update_self] at hu
      cases hu
    · rw [Function.update_of_ne huk] at hu
      exact huk (h.unique u k idx hu hk)

/-- **A send that fails, and a wait that fails otherwise than by a time-out, lose the command object.** -/
theorem not_slots_of_fails {s s' : CmdSys n} (h : s.Slots) {k : Nat} {a : CmdAct}
    (ha : a = .waitFails k ∨ ∃ status, a = .sendFails k status) (hs : s.step a = some s') : ¬ s'.Slots := by
  rcases ha with rfl | ⟨status, rfl⟩
  · simp only [CmdSys.step] at hs
    split at hs
    · rename_i hp
      split at hs
      · cases hs
      · cases hs
        exact not_slots_of_drop h rfl rfl rfl (congrArg CallPc.slot hp) rfl
    · cases hs
  · simp only [CmdSys.step] at hs
    split at hs
    · rename_i hp
      split at hs
      · cases hs
      · cases hs
        exact not_slots_of_drop h rfl rfl rfl (congrArg CallPc.slot hp) rfl
    · cases hs

end CmdSys

end Tiovx
