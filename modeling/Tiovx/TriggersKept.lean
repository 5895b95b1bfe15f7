import Tiovx.OncePerRun
import Tiovx.WakeUps
/-!
# TriggersKept — a ready node keeps a trigger

A node that is ready in a running instance has a trigger in flight, or a thread still has the node before it: among the
out-nodes of a node it has completed, or among the head nodes of an instance it schedules.  A trigger is lost only in a
full job queue, so where every send finds room a node keeps its trigger until it is executed.
-/
namespace Tiovx

open StepSystem

/-- What verification promises of a graph beside its edges: the nodes without in-nodes are head nodes, two nodes have no
previous instance in common, each node has a parameter with data, and there is a node. -/
structure Graph.Startable (G : Graph) : Prop where
  head : ∀ n N, G.table.node n = some N → N.inNodeId = [] → n.node ∈ G.headNodes
  prev : ∀ n N m M k, G.table.node n = some N → G.table.node m = some M → N.prevPipeNodeId = some k →
    M.prevPipeNodeId = some k → n = m
  prms : ∀ n N, G.table.node n = some N →
    N.prms.all (fun P => P.isDataRefQ && (G.table.dataRefQ P.dataRefQId).isNone) = false
  numNodes : 0 < G.numNodes

/-- The job queue that a trigger of node `n` goes to has room. -/
def hasRoom (G : Graph) (s : Sys) (n : NodeId) : Bool :=
  (G.table.node n).all fun N => decide ((s.jobQ N.targetId).length < targetMaxJobQueueDepth)

/-- The condition on a step: no job queue it sends a node to is full, and a release hands out no more nodes than its list
has room for. -/
def triggersFit (G : Graph) (s : Sys) : Act → Bool
  | .thread t =>
    match s.pc t with
    | .release n _ prmId _ => (G.prmQueue n prmId).all fun q => decide
        (numBlocked s.shm.queue (refilledQueues G.table (G.isHostOnly t) s.shm.queue q.2) ≤ objDescQueueMaxBlockedNodes)
    | .retrigger _ _ _ _ _ (k :: _) | .triggerBlocked (some k) | .userRetrigger (k :: _) => hasRoom G s k
    | .sendComplete _ _ => decide ((s.jobQ G.hostTarget).length < targetMaxJobQueueDepth)
    | .sendNext m i _ => ((G.table.node m).bind fun M => M.outNodeId[i]?).all (hasRoom G s)
    | .scheduleHeads p _ i => G.headNodes[i]?.all fun h => hasRoom G s ⟨h, p⟩
    | _ => true
  | _ => true

/-- **The condition on a step**: the flags are cleared in time, and no trigger is dropped. -/
structure KeepsTriggers (G : Graph) (s : Sys) (a : Act) : Prop where
  clears : ClearsInTime G s a
  fits : triggersFit G s a = true

/-- The node a thread has completed, and the first of its out-nodes that the thread has not looked at. -/
def Pc.ahead : Pc → Option (NodeId × Nat)
  | .release n _ _ _ | .retrigger n _ _ _ _ _ | .sendComplete n _ => some (n, 0)
  | .triggerNext n i _ => some (n, i)
  | .sendNext n i _ => some (n, i + 1)
  | _ => none

/-- **A thread has node `n` before it**, on its way through the out-nodes of a node or through the head nodes. -/
inductive Owed (G : Graph) (s : Sys) (n : NodeId) : Prop
  | next {t m i j M} (hpc : (s.pc t).ahead = some (m, i)) (hM : G.table.node m = some M) (hij : i ≤ j)
      (ho : M.outNodeId[j]? = some n)
  | head {t left i j} (hpc : s.pc t = .scheduleHeads n.pipe left i) (hij : i ≤ j) (hh : G.headNodes[j]? = some n.node)

section Sends

variable {T : ObjDescTable} {J : Nat → List Job} {n : NodeId} {N : NodeDesc} {j : Job} {id dst : Nat}

theorem mem_ownObjDescSend_of_mem (h : j ∈ J id) (k : Job) : j ∈ ownObjDescSend J dst k id := by
  unfold ownObjDescSend
  split
  · rw [Function.update_apply]
    split
    · rename_i hid
      exact List.mem_append_left _ (hid ▸ h)
    · exact h
  · exact h

theorem mem_ownObjDescSend_self (h : (J dst).length < targetMaxJobQueueDepth) : j ∈ ownObjDescSend J dst j dst := by
  unfold ownObjDescSend
  rw [if_pos h, Function.update_self]
  exact List.mem_append_right _ List.mem_cons_self

theorem mem_ownTargetTriggerNode_of_mem (h : j ∈ J id) (k : NodeId) : j ∈ ownTargetTriggerNode T J k id := by
  unfold ownTargetTriggerNode
  cases T.node k with
  | none => exact h
  | some K => exact mem_ownObjDescSend_of_mem h _

theorem mem_ownTargetTriggerNode_self (hN : T.node n = some N) (h : (J N.targetId).length < targetMaxJobQueueDepth) :
    .node n ∈ ownTargetTriggerNode T J n N.targetId := by
  unfold ownTargetTriggerNode
  rw [hN]
  exact mem_ownObjDescSend_self h

theorem mem_update_tail_or {x : Job} {l : List Job} {k : Nat} (hq : J id = j :: l) (h : x ∈ J k) :
    x ∈ Function.update J id l k ∨ x = j ∧ k = id := by
  rw [Function.update_apply]
  split
  · rename_i hk
    rw [hk, hq] at h
    rcases List.mem_cons.1 h with h | h
    · exact .inr ⟨h, hk⟩
    · exact .inl h
  · exact .inl h

end Sends

variable {G : Graph} {s s' : Sys} {a : Act} {n : NodeId} {N : NodeDesc}

theorem length_of_hasRoom (hN : G.table.node n = some N) (h : hasRoom G s n = true) :
    (s.jobQ N.targetId).length < targetMaxJobQueueDepth := by
  simpa [hasRoom, hN] using h

/-- Triggering a node puts a trigger in flight, where there is room. -/
theorem InFlight.of_trigger (hN : G.table.node n = some N) (h : hasRoom G s n = true)
    (hj : s'.jobQ = ownTargetTriggerNode G.table s.jobQ n) : InFlight G s' n :=
  .job (by rw [hj]; exact mem_ownTargetTriggerNode_self hN (length_of_hasRoom hN h))

/-- A node that is blocked by an acquire is recorded on the queue. -/
theorem acquireParameter_blocked {dq : Nat} {D : DataRefQDesc} {isPipeup : Bool} {m : Shm}
    (h : (ownTargetNodeDescAcquireParameter n dq D isPipeup m).2.2 = true) :
    ∃ Q, Q.blockedOn = Function.update m.queue.blockedOn D.acquireQObjDescId
        (m.queue.blockedOn D.acquireQObjDescId ++ [n]) ∧
      (ownTargetNodeDescAcquireParameter n dq D isPipeup m).1 =
        { m with queue := Q, node := Function.update m.node n { m.node n with state := .blocked } } := by
  unfold ownTargetNodeDescAcquireParameter at h ⊢
  split at h
  · cases h
  rename_i ha
  rw [if_neg ha]
  have hd : (ownObjDescQueueDequeue m.queue D.acquireQObjDescId).2.blockedOn = m.queue.blockedOn := by
    obtain ⟨-, hd⟩ | ⟨x, l, Q, -, hd, -, hb, -⟩ := dequeue_cases m.queue D.acquireQObjDescId <;> rw [hd]
    exact hb
  simp only at h ⊢
  split at h
  · rename_i hi
    rw [if_pos hi]
    split at h
    · cases h
    · rename_i hp
      rw [if_neg hp]
      split at h
      · cases h
      · rename_i Q hQ
        exact ⟨Q, by rw [(addBlockedNode_eq_some hQ).2.2.1, hd], rfl⟩
  · split at h <;> cases h

/-- An acquire that blocks no node records none. -/
theorem acquireParameter_notBlocked {dq : Nat} {D : DataRefQDesc} {isPipeup : Bool} {m : Shm}
    (h : (ownTargetNodeDescAcquireParameter n dq D isPipeup m).2.2 = false) :
    (ownTargetNodeDescAcquireParameter n dq D isPipeup m).1.queue.blockedOn = m.queue.blockedOn := by
  unfold ownTargetNodeDescAcquireParameter at h ⊢
  split
  · rfl
  have hd : (ownObjDescQueueDequeue m.queue D.acquireQObjDescId).2.blockedOn = m.queue.blockedOn := by
    obtain ⟨-, hd⟩ | ⟨x, l, Q, -, hd, -, hb, -⟩ := dequeue_cases m.queue D.acquireQObjDescId <;> rw [hd]
    exact hb
  rw [if_neg ‹_›] at h
  simp only at h ⊢
  split
  · rename_i hi
    rw [if_pos hi] at h
    split
    · exact hd
    · rename_i hp
      rw [if_neg hp] at h
      split at h
      · exact hd
      · cases h
  · split <;> exact hd

/-- An acquire leaves recorded what was recorded. -/
theorem acquireParameter_keepsRecords (m : NodeId) (dq : Nat) (D : DataRefQDesc) (isPipeup : Bool) {S : Shm} {q : Nat}
    (h : n ∈ S.queue.blockedOn q) :
    n ∈ (ownTargetNodeDescAcquireParameter m dq D isPipeup S).1.queue.blockedOn q := by
  cases hb : (ownTargetNodeDescAcquireParameter m dq D isPipeup S).2.2 with
  | true =>
    obtain ⟨Q, hQ, he⟩ := acquireParameter_blocked hb
    rw [he]
    simp only [hQ, Function.update_apply]
    split
    · rename_i hq
      exact List.mem_append_left _ (hq ▸ h)
    · exact h
  | false => rwa [acquireParameter_notBlocked hb]

/-- A job is taken by its target, and by nobody else. -/
theorem job_kept (hs : Step G s a s') {id : Nat} (h : .node n ∈ s.jobQ id) :
    .node n ∈ s'.jobQ id ∨ s'.pc a.tid = .nodeExecute n := by
  cases hs with
  | takeNode hpc hq =>
    rcases mem_update_tail_or hq h with h | ⟨h, -⟩
    · exact .inl h
    · cases h
      exact .inr (Function.update_self _ _ _)
  | takeCallback pc hpc hq hc => exact .inl ((mem_update_tail_or hq h).resolve_right (fun h => by cases h.1))
  | takeConsumed hpc hq => exact .inl ((mem_update_tail_or hq h).resolve_right (fun h => by cases h.1))
  | retrigger => exact .inl (mem_ownTargetTriggerNode_of_mem h _)
  | sendNext => exact .inl (mem_ownTargetTriggerNode_of_mem h _)
  | triggerBlocked => exact .inl (mem_ownTargetTriggerNode_of_mem h _)
  | userRetrigger => exact .inl (mem_ownTargetTriggerNode_of_mem h _)
  | scheduleHead => exact .inl (mem_ownTargetTriggerNode_of_mem h _)
  | refConsumed dq send hpc hN =>
    left
    simp only [Sys.setPc]
    split
    · exact mem_ownObjDescSend_of_mem h _
    · exact h
  | sendComplete hpc hN =>
    left
    simp only [Sys.setPc]
    split
    · exact mem_ownObjDescSend_of_mem h _
    · exact h
  | acquirePrm hpc hN hP hq hD =>
    left
    unfold afterAcquire
    split
    · exact h
    · split <;> exact h
  | _ => exact .inl h

/-- A thread that works on a node goes on with it, leaves it recorded or parked, or marks it complete. -/
theorem working_kept (hG : G.Startable) (hs : Step G s a s') (hN : G.table.node n = some N)
    (hx : (s.shm.node n).isExecuted = false) (hx' : (s'.shm.node n).isExecuted = false)
    (h : (s.pc a.tid).works = some n) : InFlight G s' n := by
  cases hs with
  | isExecuted hpc hM hxm =>
    rw [Act.tid, hpc] at h
    cases h
    rw [hx] at hxm
    cases hxm
  | @parked t m M m' hpc hM hm =>
    rw [Act.tid, hpc] at h
    cases h
    rcases isPrevPipeNodeBlocked_cases G.table n M s.shm with ⟨he, -⟩ | ⟨k, -, -, -, -, he⟩ | ⟨k, -, -, -, he⟩ <;>
      rw [he] at hm <;> cases hm
    exact .parked (k := k) (by simp [Sys.setPc, Sys.log, parkOn])
  | @acquirePrm t m M pipeup prms P D hpc hM hP hq hD =>
    rw [Act.tid, hpc] at h
    cases h
    unfold afterAcquire
    split
    · rename_i hb
      obtain ⟨Q, hQ, he⟩ := acquireParameter_blocked hb
      refine .recorded (q := D.acquireQObjDescId) ?_
      simp [Sys.setPc, Sys.log, he, hQ]
    · split <;> exact .working (t := t) (by simp [Sys.setPc, Sys.log, Pc.works])
  | acquireInvalid hpc hM hP hall =>
    rw [Act.tid, hpc] at h
    cases h
    rw [hG.prms n _ hM] at hall
    cases hall
  | markComplete hpc hM =>
    rw [Act.tid, hpc] at h
    cases h
    simp [Sys.setPc, Sys.log, ownTargetNodeDescNodeMarkComplete] at hx'
  | noNode hpc hM =>
    rw [Act.tid] at h
    rw [Pc.nodeId_of_works h] at hpc
    cases hpc
    rw [hN] at hM
    cases hM
  | @notExecuted t => exact .working (t := t) (by rw [Act.tid, ‹s.pc t = _›] at h; simpa [Sys.setPc, Pc.works] using h)
  | @proceeded t => exact .working (t := t) (by rw [Act.tid, ‹s.pc t = _›] at h; simpa [Sys.setPc, Sys.log, Pc.works] using h)
  | @acquireData t => exact .working (t := t) (by rw [Act.tid, ‹s.pc t = _›] at h; simpa [Sys.setPc, Pc.works] using h)
  | @acquireEnd t => exact .working (t := t) (by rw [Act.tid, ‹s.pc t = _›] at h; simpa [Sys.setPc, Pc.works] using h)
  | @kernel t => exact .working (t := t) (by rw [Act.tid, ‹s.pc t = _›] at h; simpa [Sys.setPc, Sys.log, Pc.works] using h)
  | @kernelSteady t => exact .working (t := t) (by rw [Act.tid, ‹s.pc t = _›] at h; simpa [Sys.setPc, Sys.log, Pc.works] using h)
  | @kernelPipeup t => exact .working (t := t) (by rw [Act.tid, ‹s.pc t = _›] at h; simpa [Sys.setPc, Sys.log, Pc.works] using h)
  | _ =>
    rw [Act.tid, ‹s.pc _ = _›] at h
    cases h

/-- What a thread has in hand it keeps, until it triggers it. -/
theorem inHand_kept (hs : Step G s a s') (hf : triggersFit G s a = true) (hN : G.table.node n = some N)
    (hK : ∀ t m, (s.pc t).nodeId = some m → (G.table.node m).isSome = true) (h : n ∈ (s.pc a.tid).hands) :
    InFlight G s' n := by
  cases hs with
  | noNode hpc hM =>
    have := hK _ _ hpc
    rw [hM] at this
    cases this
  | @releasePrm t m M prms prmId blocked =>
    refine .inHand (t := t) ?_
    rw [Act.tid, ‹s.pc t = _›] at h
    simp only [Sys.setPc, Sys.log, Function.update_self, Pc.hands]
    exact List.mem_append_right _ h
  | @retrigger t m M prms prmId blocked isPrmReleased k nodes hpc hM =>
    rw [Act.tid, hpc] at h
    simp only [triggersFit, hpc] at hf
    rcases List.mem_cons.1 h with rfl | h
    · exact .of_trigger hN hf rfl
    · exact .inHand (t := t) (by simpa [Sys.setPc, Pc.hands] using h)
  | @triggerBlocked t k hpc =>
    rw [Act.tid, hpc] at h
    simp only [triggersFit, hpc] at hf
    simp only [Pc.hands, Option.toList_some, List.mem_singleton] at h
    subst h
    exact .of_trigger hN hf rfl
  | @userRetrigger t k nodes hpc =>
    rw [Act.tid, hpc] at h
    simp only [triggersFit, hpc] at hf
    rcases List.mem_cons.1 h with rfl | h
    · exact .of_trigger hN hf rfl
    · exact .inHand (t := t) (by simpa [Sys.setPc, Pc.hands] using h)
  | @releaseData t => exact .inHand (t := t) (by rw [Act.tid, ‹s.pc t = _›] at h; simpa [Sys.setPc, Pc.hands] using h)
  | @releaseEnd t => exact .inHand (t := t) (by rw [Act.tid, ‹s.pc t = _›] at h; simpa [Sys.setPc, Pc.hands] using h)
  | @refConsumed t => exact .inHand (t := t) (by rw [Act.tid, ‹s.pc t = _›] at h; simpa [Sys.setPc, Pc.hands] using h)
  | @sendComplete t => exact .inHand (t := t) (by rw [Act.tid, ‹s.pc t = _›] at h; simpa [Sys.setPc, Pc.hands] using h)
  | @triggerNextEnd t => exact .inHand (t := t) (by rw [Act.tid, ‹s.pc t = _›] at h; simpa [Sys.setPc, Pc.hands] using h)
  | @canNotExecute t => exact .inHand (t := t) (by rw [Act.tid, ‹s.pc t = _›] at h; simpa [Sys.setPc, Pc.hands] using h)
  | @canExecute t => exact .inHand (t := t) (by rw [Act.tid, ‹s.pc t = _›] at h; simpa [Sys.setPc, Pc.hands] using h)
  | @sendNext t => exact .inHand (t := t) (by rw [Act.tid, ‹s.pc t = _›] at h; simpa [Sys.setPc, Pc.hands] using h)
  | _ =>
    rw [Act.tid, ‹s.pc _ = _›] at h
    cases h

/-- A thread that is to send a trigger sends it. -/
theorem next_kept (hs : Step G s a s') (hf : triggersFit G s a = true) (hN : G.table.node n = some N) {m : NodeId}
    {M : NodeDesc} {i : Nat} {b : Option NodeId} (hpc : s.pc a.tid = .sendNext m i b) (hM : G.table.node m = some M)
    (ho : M.outNodeId[i]? = some n) : InFlight G s' n := by
  cases hs with
  | noNode hn hM' =>
    rw [Act.tid] at hpc
    rw [hpc] at hn
    cases hn
    rw [hM] at hM'
    cases hM'
  | sendNext hpc' hM' hk =>
    rw [Act.tid, hpc'] at hpc
    cases hpc
    rw [hM] at hM'
    cases hM'
    rw [ho] at hk
    cases hk
    simp only [triggersFit, hpc', hM, Option.bind_some, ho, Option.all_some] at hf
    exact .of_trigger hN hf rfl
  | _ => simp only [Act.tid, *, reduceCtorEq] at hpc

/-- A release hands out the recorded nodes that it does not leave recorded. -/
theorem releaseToQueue_handsOut {T : ObjDescTable} {hostOnly : Bool} {D : DataRefQDesc} {x : Nat} {Q : Queues} {q : Nat}
    (h : n ∈ Q.blockedOn q) : n ∈ (releaseToQueue T hostOnly D x Q).1.blockedOn q ∨
      n ∈ (releaseToQueue T hostOnly D x Q).2 := by
  have hgive : ∀ (Q : Queues) (k y : Nat) (out : List NodeId), n ∈ Q.blockedOn q ∨ n ∈ out →
      n ∈ (enqueueAndExtract Q k y out).1.blockedOn q ∨ n ∈ (enqueueAndExtract Q k y out).2 := by
    intro Q k y out h
    obtain ⟨-, he⟩ | ⟨ho, -, hb, -⟩ := enqueueAndExtract_cases Q k y out
    · rwa [he]
    · rw [ho, hb, List.mem_append, Function.update_apply]
      split
      · rename_i hk
        exact .inr (hk ▸ h.symm)
      · exact h.imp_right .inl
  refine releaseToQueue_rule (I := fun Q out => n ∈ Q.blockedOn q ∨ n ∈ out) (hgive Q _ _ [] (.inl h))
    (fun _ K Q out _ _ hI => ?_)
  unfold ageSlot
  obtain ⟨-, hd⟩ | ⟨y, l, Q', -, hd, -, hb, -⟩ := dequeue_cases Q K.acquireQObjDescId <;> rw [hd] <;> simp only
  · simpa using hI
  · split
    · rwa [hb]
    · exact hgive Q' _ _ out (by rwa [hb])

/-- A recorded node stays recorded until it is handed out. -/
theorem recorded_kept (hs : Step G s a s') {q : Nat} (h : n ∈ s.shm.queue.blockedOn q) : InFlight G s' n := by
  cases hs with
  | parked hpc hN hm =>
    refine .recorded (q := q) ?_
    simpa only [Sys.setPc, Sys.log, (isPrevPipeNodeBlocked_queue hm).1] using h
  | proceeded hpc hN hm =>
    refine .recorded (q := q) ?_
    simpa only [Sys.setPc, Sys.log, (isPrevPipeNodeBlocked_queue hm).1] using h
  | @acquirePrm t m N pipeup prms P D hpc hN hP hq hD =>
    refine .recorded (q := q) ?_
    have := acquireParameter_keepsRecords m P.dataRefQId D (decide (0 < pipeup)) h
    unfold afterAcquire
    split
    · exact this
    · split <;> exact this
  | @releasePrm t m N prms prmId blocked P D R E hpc hN hP hq hD hR hE =>
    have hb : n ∈ R.shm.queue.blockedOn q ∨ n ∈ R.blockedNodes := by
      rw [hR, releaseParameter_queue, releaseParameter_blockedNodes]
      split
      · exact releaseToQueue_handsOut h
      · exact .inl h
    rcases hb with hb | hb
    · exact .recorded (q := q) hb
    · exact .inHand (t := t) (by simp [Sys.setPc, Sys.log, Pc.hands, hb])
  | @enqueued u g ref P Q hpc hP hr hE =>
    obtain ⟨hh, -, hb, -⟩ := extractBlockedNodes_spec Q P.readyQ []
    rw [(enqueue_eq_some hE).2.1] at hh hb
    by_cases hq : q = P.readyQ
    · subst hq
      exact .inHand (t := .user u) (by simpa [Sys.setPc, Sys.log, Pc.hands, hh] using h)
    · exact .recorded (q := q) (by simpa [Sys.setPc, Sys.log, hb, Function.update_of_ne hq] using h)
  | @dequeued u g P ref Q hpc hP hd hr =>
    refine .recorded (q := q) ?_
    obtain ⟨-, hd'⟩ | ⟨y, l, Q', -, hd', -, hb, -⟩ := dequeue_cases s.shm.queue P.doneQ <;> rw [hd] at hd' <;> cases hd'
    · exact h
    · simpa only [Sys.log, hb] using h
  | _ => exact .recorded (q := q) h

/-- A parked node stays parked until its previous instance completes. -/
theorem parked_kept (hG : G.Startable) (hs : Step G s a s') (hN : G.table.node n = some N) {k : NodeId}
    (hp : N.prevPipeNodeId = some k) (h : (s.shm.node k).blockedNodeId = some n) : InFlight G s' n := by
  rcases blockedNodeId_of_step hs k with he | ⟨m, M, -, hM, hk, -, -, -, he⟩ | ⟨prms, -, hpc, -⟩
  · exact .parked (by rw [he, h])
  · have hmn : m = n := hG.prev m M n N k hM hN hk hp
    exact .parked (by rw [he, hmn])
  · exact .inHand (t := a.tid) (by rw [hpc, h]; exact List.mem_cons_self)

/-- **A trigger stays in flight** until its node is executed. -/
theorem InFlight.kept (hG : G.Startable) (hs : Step G s a s') (hf : triggersFit G s a = true)
    (hK : ∀ t m, (s.pc t).nodeId = some m → (G.table.node m).isSome = true)
    (hP : ∀ k m, (s.shm.node k).blockedNodeId = some m → ∃ M, G.table.node m = some M ∧ M.prevPipeNodeId = some k)
    (hN : G.table.node n = some N) (hx : (s.shm.node n).isExecuted = false) (hx' : (s'.shm.node n).isExecuted = false)
    (h : InFlight G s n) : InFlight G s' n := by
  cases h with
  | job h =>
    rcases job_kept hs h with h | h
    · exact .job h
    · exact .working (t := a.tid) (by rw [h]; rfl)
  | @working t h =>
    by_cases ht : t = a.tid
    · exact working_kept hG hs hN hx hx' (ht ▸ h)
    · exact .working (t := t) (by rw [pc_of_step_ne hs ht]; exact h)
  | @inHand t h =>
    by_cases ht : t = a.tid
    · exact inHand_kept hs hf hN hK (ht ▸ h)
    · exact .inHand (t := t) (by rw [pc_of_step_ne hs ht]; exact h)
  | @next t m i b M hpc hM ho =>
    by_cases ht : t = a.tid
    · exact next_kept hs hf hN (ht ▸ hpc) hM ho
    · exact .next (t := t) (by rw [pc_of_step_ne hs ht]; exact hpc) hM ho
  | recorded h => exact recorded_kept hs h
  | @parked k h =>
    obtain ⟨M, hM, hk⟩ := hP k n h
    exact parked_kept hG hs hM hk h

/-- A thread goes through the out-nodes of a node one by one, and passes a ready one by sending it. -/
theorem ahead_kept (hW : G.Wired) (hs : Step G s a s') (hN : G.table.node n = some N)
    (hr : ∀ k ∈ N.inNodeId, (s.shm.node k).isExecuted = true) {m : NodeId} {M : NodeDesc} {i j : Nat}
    (hpc : (s.pc a.tid).ahead = some (m, i)) (hM : G.table.node m = some M) (hij : i ≤ j)
    (ho : M.outNodeId[j]? = some n) : InFlight G s' n ∨ Owed G s' n := by
  have hcan := (canNodeExecute_iff hW hN).2 hr
  cases hs with
  | noNode hn hM' =>
    exfalso
    rw [Act.tid] at hpc
    generalize s.pc _ = pc at hn hpc
    cases pc <;> cases hpc <;> cases hn <;> rw [hM] at hM' <;> cases hM'
  | @triggerNextEnd t m' M' i' b hp hM' hk =>
    rw [Act.tid, hp] at hpc
    cases hpc
    rw [hM] at hM'
    cases hM'
    rw [List.getElem?_eq_none_iff] at hk
    rw [List.getElem?_eq_none_iff.2 (by omega)] at ho
    cases ho
  | @canNotExecute t m' M' i' b k hp hM' hk hno =>
    rw [Act.tid, hp] at hpc
    cases hpc
    rw [hM] at hM'
    cases hM'
    rcases Nat.eq_or_lt_of_le hij with rfl | hlt
    · rw [ho] at hk
      cases hk
      rw [hno N hN] at hcan
      cases hcan
    · exact .inr (.next (t := t) (i := i + 1) (by simp [Sys.setPc, Pc.ahead]) hM hlt ho)
  | @canExecute t m' M' i' b k K hp hM' hk =>
    rw [Act.tid, hp] at hpc
    cases hpc
    rw [hM] at hM'
    cases hM'
    rcases Nat.eq_or_lt_of_le hij with rfl | hlt
    · exact .inl (.next (t := t) (i := i) (b := b) (by simp [Sys.setPc]) hM ho)
    · exact .inr (.next (t := t) (i := i + 1) (by simp [Sys.setPc, Pc.ahead]) hM hlt ho)
  | @sendNext t m' M' i' b k hp =>
    rw [Act.tid, hp] at hpc
    cases hpc
    exact .inr (.next (t := t) (i := i' + 1) (by simp [Sys.setPc, Pc.ahead]) hM hij ho)
  | @releaseData t m' M' prms prmId b P hp =>
    rw [Act.tid, hp] at hpc
    cases hpc
    exact .inr (.next (t := t) (i := 0) (by simp [Sys.setPc, Pc.ahead]) hM hij ho)
  | @releasePrm t m' M' prms prmId b P D R E hp =>
    rw [Act.tid, hp] at hpc
    cases hpc
    exact .inr (.next (t := t) (i := 0) (by simp [Sys.setPc, Sys.log, Pc.ahead]) hM hij ho)
  | @releaseEnd t m' M' prms prmId b hp =>
    rw [Act.tid, hp] at hpc
    cases hpc
    exact .inr (.next (t := t) (i := 0) (by simp [Sys.setPc, Pc.ahead]) hM hij ho)
  | @retrigger t m' M' prms prmId b r k nodes hp =>
    rw [Act.tid, hp] at hpc
    cases hpc
    exact .inr (.next (t := t) (i := 0) (by simp [Sys.setPc, Pc.ahead]) hM hij ho)
  | @refConsumed t m' M' prms prmId b r dq send hp =>
    rw [Act.tid, hp] at hpc
    cases hpc
    exact .inr (.next (t := t) (i := 0) (by simp [Sys.setPc, Pc.ahead]) hM hij ho)
  | @sendComplete t m' M' b hp =>
    rw [Act.tid, hp] at hpc
    cases hpc
    exact .inr (.next (t := t) (i := 0) (by simp [Sys.setPc, Pc.ahead]) hM hij ho)
  | _ => simp only [Act.tid, *, Pc.ahead, reduceCtorEq] at hpc

/-- The host goes through the head nodes one by one, and passes one by triggering it. -/
theorem heads_kept (hs : Step G s a s') (hf : triggersFit G s a = true) (hN : G.table.node n = some N)
    {left i j : Nat} (hpc : s.pc a.tid = .scheduleHeads n.pipe left i) (hij : i ≤ j)
    (hh : G.headNodes[j]? = some n.node) : InFlight G s' n ∨ Owed G s' n := by
  cases hs with
  | noNode hn hM' =>
    rw [Act.tid] at hpc
    rw [hpc] at hn
    cases hn
  | headsEnd hp hk =>
    rw [Act.tid, hp] at hpc
    cases hpc
    rw [List.getElem?_eq_none_iff] at hk
    rw [List.getElem?_eq_none_iff.2 (by omega)] at hh
    cases hh
  | @scheduleHead t p left' i' h hp hk =>
    rw [Act.tid, hp] at hpc
    cases hpc
    rcases Nat.eq_or_lt_of_le hij with rfl | hlt
    · rw [hh] at hk
      cases hk
      simp only [triggersFit, hp, hh, Option.all_some] at hf
      exact .inl (.of_trigger hN hf rfl)
    · have hnext : Function.update s.pc t (.scheduleHeads n.pipe left (i + 1)) t = .scheduleHeads n.pipe left (i + 1) :=
        Function.update_self _ _ _
      exact .inr (.head (t := t) hnext hlt hh)
  | _ => simp only [Act.tid, *, reduceCtorEq] at hpc

/-- **A ready node stays owed** until it has its trigger. -/
theorem Owed.kept (hW : G.Wired) (hs : Step G s a s') (hf : triggersFit G s a = true) (hN : G.table.node n = some N)
    (hr : ∀ k ∈ N.inNodeId, (s.shm.node k).isExecuted = true) (h : Owed G s n) : InFlight G s' n ∨ Owed G s' n := by
  cases h with
  | @next t m i j M hpc hM hij ho =>
    by_cases ht : t = a.tid
    · exact ahead_kept hW hs hN hr (ht ▸ hpc) hM hij ho
    · exact .inr (.next (t := t) (by rw [pc_of_step_ne hs ht]; exact hpc) hM hij ho)
  | @head t left i j hpc hij hh =>
    by_cases ht : t = a.tid
    · exact heads_kept hs hf hN (ht ▸ hpc) hij hh
    · exact .inr (.head (t := t) (by rw [pc_of_step_ne hs ht]; exact hpc) hij hh)

end Tiovx
