import Tiovx.AcquireAll
/-!
# Triggers — where the trigger of a node can be

A trigger is sent when a node's predecessors are done, when the queue it waits for is refilled and when its previous
instance completes.  `InFlight` lists the places it passes on the way to the execution of its node.  A step brings a new
trigger into flight only where a target finds an out-node ready, or the host triggers a head node.
-/
namespace Tiovx

open StepSystem

/-- The node a thread works on, up to its completion. -/
def Pc.works : Pc → Option NodeId
  | .nodeExecute n | .isPrevPipeNodeBlocked n | .acquire n _ _ | .kernel n _ _ | .markComplete n _ => some n
  | _ => none

/-- The nodes a thread is going to trigger again. -/
def Pc.hands : Pc → List NodeId
  | .release _ _ _ b | .sendComplete _ b | .triggerNext _ _ b | .sendNext _ _ b | .triggerBlocked b => b.toList
  | .retrigger _ _ _ b _ nodes => nodes ++ b.toList
  | .userRetrigger nodes => nodes
  | _ => []

/-- **The places of a trigger** of node `n`: a job queue, a thread that works on `n`, a thread that is to trigger it, a
queue it is recorded on, a previous instance it is parked at. -/
inductive InFlight (G : Graph) (s : Sys) (n : NodeId) : Prop
  | job {id} (h : .node n ∈ s.jobQ id)
  | working {t} (h : (s.pc t).works = some n)
  | inHand {t} (h : n ∈ (s.pc t).hands)
  | next {t m i b M} (hpc : s.pc t = .sendNext m i b) (hM : G.table.node m = some M) (h : M.outNodeId[i]? = some n)
  | recorded {q} (h : n ∈ s.shm.queue.blockedOn q)
  | parked {k} (h : (s.shm.node k).blockedNodeId = some n)

/-- What follows from a trigger after a step of one thread. -/
theorem InFlight.setPc {G : Graph} {s s' : Sys} {t : Tid} {pc : Pc} {n : NodeId} {R : Prop} (h : InFlight G s' n)
    (hp : s'.pc = Function.update s.pc t pc) (hj : ∀ id, .node n ∈ s'.jobQ id → R)
    (hb : ∀ q, n ∈ s'.shm.queue.blockedOn q → R) (hk : ∀ k, (s'.shm.node k).blockedNodeId = some n → R)
    (hw : pc.works = some n → R) (hh : n ∈ pc.hands → R)
    (hn : ∀ m i b M, pc = .sendNext m i b → G.table.node m = some M → M.outNodeId[i]? = some n → R)
    (hold : InFlight G s n → R) : R := by
  cases h with
  | job h => exact hj _ h
  | recorded h => exact hb _ h
  | parked h => exact hk _ h
  | @working u h =>
    rw [hp] at h
    by_cases hu : u = t
    · subst hu
      rw [Function.update_self] at h
      exact hw h
    · rw [Function.update_of_ne hu] at h
      exact hold (.working h)
  | @inHand u h =>
    rw [hp] at h
    by_cases hu : u = t
    · subst hu
      rw [Function.update_self] at h
      exact hh h
    · rw [Function.update_of_ne hu] at h
      exact hold (.inHand h)
  | @next u m i b M hpc hM h =>
    rw [hp] at hpc
    by_cases hu : u = t
    · subst hu
      rw [Function.update_self] at hpc
      exact hn m i b M hpc hM h
    · rw [Function.update_of_ne hu] at hpc
      exact hold (.next hpc hM h)

/-- The nodes a release hands out were recorded. -/
theorem releaseParameter_handsOut {T : ObjDescTable} {hostOnly : Bool} {dq : Nat} {D : DataRefQDesc} {ref : Nat}
    {isInput : Bool} {m : Shm} {n : NodeId}
    (h : n ∈ (ownTargetNodeDescReleaseParameter T hostOnly dq D ref isInput m).blockedNodes) :
    ∃ q, n ∈ m.queue.blockedOn q := by
  rw [releaseParameter_blockedNodes] at h
  split at h
  · have hgive : ∀ (Q : Queues) (q x : Nat) (out : List NodeId), (∀ k n, n ∈ Q.blockedOn k → n ∈ m.queue.blockedOn k) →
        (∀ n ∈ out, ∃ k, n ∈ m.queue.blockedOn k) →
        ∀ n ∈ (enqueueAndExtract Q q x out).2, ∃ k, n ∈ m.queue.blockedOn k := by
      intro Q q x out hQ ho n hn
      obtain ⟨-, he⟩ | ⟨he, -⟩ := enqueueAndExtract_cases Q q x out
      · rw [he] at hn
        exact ho n hn
      · rw [he, List.mem_append] at hn
        exact hn.elim (ho n) (fun hn => ⟨q, hQ q n hn⟩)
    refine (releaseToQueue_rule (T := T) (I := fun Q out => (∀ k n, n ∈ Q.blockedOn k → n ∈ m.queue.blockedOn k) ∧
      ∀ n ∈ out, ∃ k, n ∈ m.queue.blockedOn k) ⟨fun k n hn => enqueueAndExtract_subset _ _ _ _ k n hn, ?_⟩
      (fun _ N Q out _ _ hI => ⟨fun k n hn => hI.1 k n (ageSlot_subset N Q out k n hn), ?_⟩)).2 n h
    · exact hgive m.queue _ _ [] (fun _ _ h => h) (fun _ h => by cases h)
    · unfold ageSlot
      obtain ⟨-, hd⟩ | ⟨x, l, Q', -, hd, -, hb, -⟩ := dequeue_cases Q N.acquireQObjDescId <;> rw [hd] <;> simp only
      · simpa using hI.2
      · split
        · exact hI.2
        · exact hgive Q' _ _ out (fun k n hn => hI.1 k n (by rwa [hb] at hn)) hI.2
  · cases h

/-- A target finds out-node `n` ready. -/
def FindsReady (G : Graph) (s : Sys) (a : Act) (n : NodeId) : Prop :=
  ∃ t m i b M N, a = .thread t ∧ s.pc t = .triggerNext m i b ∧ G.table.node m = some M ∧ M.outNodeId[i]? = some n ∧
    G.table.node n = some N ∧ ownTargetNodeDescCanNodeExecute G.table s.shm N = true

/-- The host triggers head node `n`. -/
def TriggersHead (G : Graph) (s : Sys) (a : Act) (n : NodeId) : Prop :=
  ∃ t p left i h, a = .thread t ∧ s.pc t = .scheduleHeads p left i ∧ G.headNodes[i]? = some h ∧ n = ⟨h, p⟩

theorem blockedNodeId_parkOn {n j k : NodeId} {m : Shm} {x : NodeId}
    (h : ((parkOn n j m).node k).blockedNodeId = some x) : x = n ∨ (m.node k).blockedNodeId = some x := by
  simp only [parkOn, Function.update_apply] at h
  split at h
  · exact .inl (Option.some.inj h).symm
  · split at h
    · rename_i hk
      rw [hk]
      exact .inr h
    · exact .inr h

theorem blockedNodeId_isPrevPipeNodeBlocked {T : ObjDescTable} {n : NodeId} {N : NodeDesc} {m m' : Shm} {b : Bool}
    (hm : ownTargetNodeDescIsPrevPipeNodeBlocked T n N m = (m', b)) {k x : NodeId}
    (h : (m'.node k).blockedNodeId = some x) : x = n ∨ (m.node k).blockedNodeId = some x := by
  obtain ⟨h', -⟩ | ⟨j, -, -, -, -, h'⟩ | ⟨j, -, -, -, h'⟩ := isPrevPipeNodeBlocked_cases T n N m <;> rw [h'] at hm <;>
    cases hm
  · exact .inr h
  · exact blockedNodeId_parkOn h
  · simp only [Function.update_apply] at h
    split at h
    · rename_i hk
      rw [hk]
      exact .inr h
    · exact .inr h

/-- An acquire records no other node. -/
theorem acquireParameter_recorded {n k : NodeId} {dq q : Nat} {D : DataRefQDesc} {isPipeup : Bool} {m : Shm}
    (h : k ∈ (ownTargetNodeDescAcquireParameter n dq D isPipeup m).1.queue.blockedOn q) :
    k ∈ m.queue.blockedOn q ∨ k = n := by
  unfold ownTargetNodeDescAcquireParameter at h
  split at h
  · exact .inl h
  have hd : (ownObjDescQueueDequeue m.queue D.acquireQObjDescId).2.blockedOn = m.queue.blockedOn := by
    obtain ⟨-, hd⟩ | ⟨x, l, Q, -, hd, -, hb, -⟩ := dequeue_cases m.queue D.acquireQObjDescId <;> rw [hd]
    exact hb
  simp only at h
  split at h
  · split at h
    · exact .inl (by rwa [← hd])
    · split at h
      · exact .inl (by rwa [← hd])
      · rename_i Q hQ
        simp only [(addBlockedNode_eq_some hQ).2.2.1, hd, Function.update_apply] at h
        split at h
        · rename_i hk
          rw [List.mem_append, List.mem_singleton, ← hk] at h
          exact h
        · exact .inl h
  · split at h <;> exact .inl (by rwa [← hd])

/-- An acquire leaves the nodes, but for the state of its own. -/
theorem acquireParameter_node (n : NodeId) (dq : Nat) (D : DataRefQDesc) (isPipeup : Bool) (m : Shm) :
    (ownTargetNodeDescAcquireParameter n dq D isPipeup m).1.node = m.node ∨
      (ownTargetNodeDescAcquireParameter n dq D isPipeup m).1.node =
        Function.update m.node n { m.node n with state := .blocked } := by
  unfold ownTargetNodeDescAcquireParameter
  split
  · exact .inl rfl
  simp only
  split
  · split
    · exact .inl rfl
    · split
      · exact .inl rfl
      · exact .inr rfl
  · split <;> exact .inl rfl

theorem acquireParameter_blockedNodeId {n k : NodeId} {dq : Nat} {D : DataRefQDesc} {isPipeup : Bool} {m : Shm} :
    ((ownTargetNodeDescAcquireParameter n dq D isPipeup m).1.node k).blockedNodeId = (m.node k).blockedNodeId := by
  rcases acquireParameter_node n dq D isPipeup m with h | h <;> rw [h]
  simp only [Function.update_apply]
  split
  · rename_i hk
    rw [hk]
  · rfl

theorem acquireParameter_isExecuted {n k : NodeId} {dq : Nat} {D : DataRefQDesc} {isPipeup : Bool} {m : Shm} :
    ((ownTargetNodeDescAcquireParameter n dq D isPipeup m).1.node k).isExecuted = (m.node k).isExecuted := by
  rcases acquireParameter_node n dq D isPipeup m with h | h <;> rw [h]
  simp only [Function.update_apply]
  split
  · rename_i hk
    rw [hk]
  · rfl

/-- What follows from a trigger after a step that sends none and leaves the queues. -/
theorem InFlight.move {G : Graph} {s s' : Sys} {t : Tid} {pc : Pc} {n : NodeId} (h : InFlight G s' n)
    (hp : s'.pc = Function.update s.pc t pc) (hj : ∀ id, .node n ∈ s'.jobQ id → .node n ∈ s.jobQ id)
    (hb : ∀ q, n ∈ s'.shm.queue.blockedOn q → n ∈ s.shm.queue.blockedOn q)
    (hk : ∀ k, (s'.shm.node k).blockedNodeId = some n → (s.shm.node k).blockedNodeId = some n)
    (hw : pc.works = some n → InFlight G s n) (hh : n ∈ pc.hands → InFlight G s n)
    (hn : ∀ m i b, pc ≠ .sendNext m i b) : InFlight G s n :=
  h.setPc hp (fun id hm => .job (hj id hm)) (fun q hm => .recorded (hb q hm)) (fun k hm => .parked (hk k hm)) hw hh
    (fun m i b _ hpc => absurd hpc (hn m i b)) id

/-- What follows from a trigger after node `k` was triggered. -/
theorem InFlight.send {G : Graph} {s s' : Sys} {t : Tid} {pc : Pc} {n k : NodeId} {R : Prop} (h : InFlight G s' n)
    (hp : s'.pc = Function.update s.pc t pc) (hj : s'.jobQ = ownTargetTriggerNode G.table s.jobQ k)
    (hm : s'.shm = s.shm) (hw : pc.works = none) (hh : n ∈ pc.hands → InFlight G s n)
    (hn : ∀ m i b, pc ≠ .sendNext m i b) (hold : InFlight G s n → R) (hk : n = k → R) : R := by
  refine h.setPc hp (fun id hm => ?_) (fun q hq => hold (.recorded (by rwa [hm] at hq)))
    (fun j hj => hold (.parked (by rwa [hm] at hj))) (fun h => by rw [hw] at h; cases h) (fun h => hold (hh h))
    (fun m i b _ hpc => absurd hpc (hn m i b)) hold
  rw [hj] at hm
  obtain hm | ⟨hm, -⟩ := mem_ownTargetTriggerNode hm
  · exact hold (.job hm)
  · cases hm
    exact hk rfl

/-- **A new trigger** comes from a target that finds an out-node ready, or from the host. -/
theorem InFlight.of_step {G : Graph} {s s' : Sys} {a : Act} {n : NodeId} (hs : Step G s a s') (h : InFlight G s' n) :
    InFlight G s n ∨ FindsReady G s a n ∨ TriggersHead G s a n := by
  cases hs with
  | @takeNode id m l hpc hq =>
    refine .inl (h.move (s := s) rfl (fun _ hm => mem_of_update_tail hq hm) (fun _ h => h) (fun _ h => h) (fun hw => ?_)
      (fun hh => by cases hh) (fun _ _ _ hp => by cases hp))
    cases hw
    exact .job (by rw [hq]; exact List.mem_cons_self)
  | takeCallback pc hpc hq hc =>
    refine .inl (h.move (s := s) rfl (fun _ hm => mem_of_update_tail hq hm) (fun _ h => h) (fun _ h => h) ?_ ?_ ?_) <;>
      obtain ⟨rfl, -⟩ | ⟨rfl, -⟩ := hc
    · exact fun hw => by cases hw
    · exact fun hw => by cases hw
    · exact fun hh => by cases hh
    · exact fun hh => by cases hh
    · exact fun _ _ _ hp => by cases hp
    · exact fun _ _ _ hp => by cases hp
  | takeConsumed hpc hq =>
    exact .inl (h.move (s := s) rfl (fun _ hm => mem_of_update_tail hq hm) (fun _ h => h) (fun _ h => h) (fun hw => by cases hw)
      (fun hh => by cases hh) (fun _ _ _ hp => by cases hp))
  | parked hpc hN hm =>
    refine .inl (h.setPc (s := s) rfl (fun _ hm => .job hm) (fun q hq => .recorded (q := q) ?_) (fun k hk => ?_)
      (fun hw => by cases hw)
      (fun hh => by cases hh) (fun _ _ _ _ hp => by cases hp) id)
    · simp only [Sys.setPc, Sys.log, (isPrevPipeNodeBlocked_queue hm).1] at hq
      exact hq
    · rcases blockedNodeId_isPrevPipeNodeBlocked hm hk with rfl | hk
      · exact .working (by rw [hpc]; rfl)
      · exact .parked hk
  | proceeded hpc hN hm =>
    refine .inl (h.setPc (s := s) rfl (fun _ hm => .job hm) (fun q hq => .recorded (q := q) ?_) (fun k hk => ?_)
      (fun hw => .working (by rw [hpc]; exact hw)) (fun hh => by cases hh) (fun _ _ _ _ hp => by cases hp) id)
    · simp only [Sys.setPc, Sys.log, (isPrevPipeNodeBlocked_queue hm).1] at hq
      exact hq
    · rcases blockedNodeId_isPrevPipeNodeBlocked hm hk with rfl | hk
      · exact .working (by rw [hpc]; rfl)
      · exact .parked hk
  | @acquirePrm t m N pipeup prms P D hpc hN hP hq hD =>
    have hwork : InFlight G s m := .working (by rw [hpc]; rfl)
    have hrec : ∀ q, n ∈ (ownTargetNodeDescAcquireParameter m P.dataRefQId D (decide (0 < pipeup)) s.shm).1.queue.blockedOn
        q → InFlight G s n := by
      intro q hn
      rcases acquireParameter_recorded hn with hn | rfl
      · exact .recorded hn
      · exact hwork
    have hpark : ∀ k, ((ownTargetNodeDescAcquireParameter m P.dataRefQId D (decide (0 < pipeup)) s.shm).1.node
        k).blockedNodeId = some n → InFlight G s n :=
      fun k hk => .parked (k := k) (by rw [← acquireParameter_blockedNodeId]; exact hk)
    refine .inl ?_
    unfold afterAcquire at h
    split at h
    · exact h.setPc (s := s) rfl (fun _ hm => .job hm) hrec hpark (fun hw => by cases hw) (fun hh => by cases hh)
        (fun _ _ _ _ hp => by cases hp) id
    · split at h <;> exact h.setPc (s := s) rfl (fun _ hm => .job hm) hrec hpark
        (fun hw => .working (by rw [hpc]; exact hw)) (fun hh => by cases hh) (fun _ _ _ _ hp => by cases hp) id
  | acquireInvalid hpc hN hP hall =>
    refine .inl (h.setPc (s := s) rfl (fun _ hm => .job hm) (fun q hq => .recorded hq) (fun k hk => .parked (k := k) ?_)
      (fun hw => ?_)
      (fun hh => ?_) (fun _ _ _ _ hp => ?_) id)
    · simp only [Sys.setPc, Sys.setNode, Function.update_apply] at hk
      split at hk
      · rename_i hkn
        rw [hkn]
        exact hk
      · exact hk
    · split at hw
      · cases hw
      · exact .working (by rw [hpc]; exact hw)
    · split at hh <;> cases hh
    · split at hp <;> cases hp
  | @markComplete t m N prms hpc hN =>
    refine .inl (h.setPc (s := s) rfl (fun _ hm => .job hm) (fun q hq => .recorded hq) (fun k hk => ?_) (fun hw => by cases hw)
      (fun hh => .parked (k := m) ?_) (fun _ _ _ _ hp => by cases hp) id)
    · simp only [Sys.setPc, Sys.log, ownTargetNodeDescNodeMarkComplete, Function.update_apply] at hk
      split at hk
      · cases hk
      · exact .parked hk
    · simpa [Pc.hands, Option.mem_toList] using hh
  | @releasePrm t m N prms prmId blocked P D R E hpc hN hP hq hD hR hE =>
    refine .inl (h.setPc (s := s) rfl (fun _ hm => .job hm) (fun q hq => .recorded (q := q) ?_) (fun k hk => .parked (k := k) ?_)
      (fun hw => by cases hw) (fun hh => ?_) (fun _ _ _ _ hp => by cases hp) id)
    · rw [hR] at hq
      exact releaseParameter_subset q n hq
    · rw [hR] at hk
      exact hk
    · rw [Pc.hands, List.mem_append, hR] at hh
      rcases hh with hh | hh
      · obtain ⟨q, hq⟩ := releaseParameter_handsOut hh
        exact .recorded hq
      · exact .inHand (t := t) (by rw [hpc]; exact hh)
  | @retrigger t m N prms prmId blocked isPrmReleased k nodes hpc hN =>
    have hhand : n ∈ k :: nodes ++ blocked.toList → InFlight G s n := fun hh => .inHand (t := t) (by rw [hpc]; exact hh)
    refine .inl (h.send (s := s) rfl rfl rfl rfl (fun hh => hhand (List.mem_cons_of_mem k hh)) (fun _ _ _ hp => by cases hp)
      id (fun hk => hhand (hk ▸ List.mem_cons_self)))
  | refConsumed dq send hpc hN =>
    refine .inl (h.move (s := s) rfl (fun id hm => ?_) (fun _ h => h) (fun _ h => h) (fun hw => by cases hw)
      (fun hh => .inHand (by rw [hpc]; exact hh)) (fun _ _ _ hp => by cases hp))
    simp only [Sys.setPc] at hm
    split at hm
    · exact (mem_ownObjDescSend hm).resolve_right (fun h => by cases h.1)
    · exact hm
  | sendComplete hpc hN =>
    refine .inl (h.move (s := s) rfl (fun id hm => ?_) (fun _ h => h) (fun _ h => h) (fun hw => by cases hw)
      (fun hh => .inHand (by rw [hpc]; exact hh)) (fun _ _ _ hp => by cases hp))
    simp only [Sys.setPc] at hm
    split at hm
    · exact (mem_ownObjDescSend hm).resolve_right (fun h => by cases h.1)
    · exact hm
  | @canExecute t m M i b k K hpc hN hk hK hc =>
    refine h.setPc (s := s) rfl (fun _ hm => .inl (.job hm)) (fun _ hq => .inl (.recorded hq))
      (fun _ hk => .inl (.parked hk)) (fun hw => by cases hw) (fun hh => .inl (.inHand (by rw [hpc]; exact hh)))
      (fun m' i' b' M' hp hM' hn => ?_) .inl
    cases hp
    rw [hN] at hM'
    cases hM'
    rw [hk] at hn
    cases hn
    exact .inr (.inl ⟨t, m, i, b, M, K, rfl, hpc, hN, hk, hK, hc⟩)
  | @sendNext t m M i b k hpc hN hk =>
    exact .inl (h.send (s := s) rfl rfl rfl rfl (fun hh => .inHand (by rw [hpc]; exact hh)) (fun _ _ _ hp => by cases hp)
      id (fun hn => .next hpc hN (hn ▸ hk)))
  | triggerBlocked hpc =>
    exact .inl (h.send (s := s) rfl rfl rfl rfl (fun hh => by cases hh) (fun _ _ _ hp => by cases hp) id
      (fun hn => .inHand (by rw [hpc, hn]; exact List.mem_cons_self)))
  | @userRetrigger t k nodes hpc =>
    have hhand : n ∈ k :: nodes → InFlight G s n := fun hh => .inHand (t := t) (by rw [hpc]; exact hh)
    exact .inl (h.send (s := s) rfl rfl rfl rfl (fun hh => hhand (List.mem_cons_of_mem k hh)) (fun _ _ _ hp => by cases hp)
      id (fun hn => hhand (hn ▸ List.mem_cons_self)))
  | @scheduleHead t p left i k hpc hh =>
    exact h.send (s := s) rfl rfl rfl rfl (fun hh => by cases hh) (fun _ _ _ hp => by cases hp) .inl
      (fun hn => .inr (.inr ⟨t, p, left, i, k, rfl, hpc, hh, hn⟩))
  | completed hpc hl hc =>
    refine .inl (h.move (s := s) rfl (fun _ h => h) (fun _ h => h) (fun _ h => h) (fun hw => ?_) (fun hh => ?_)
      (fun _ _ _ hp => ?_))
    · split at hw <;> cases hw
    · split at hh <;> cases hh
    · split at hp <;> cases hp
  | clearState hpc hi =>
    refine .inl (h.move (s := s) rfl (fun _ h => h) (fun _ h => h) (fun k hk => ?_) (fun hw => by cases hw)
      (fun hh => by cases hh) (fun _ _ _ hp => by cases hp))
    simp only [Sys.setPc, Sys.setNode, Function.update_apply] at hk
    split at hk
    · rename_i hkn
      rw [hkn]
      exact hk
    · exact hk
  | kernelSteady hpc hN hk =>
    refine .inl (h.move (s := s) rfl (fun _ h => h) (fun _ h => h) (fun k hk => ?_)
      (fun hw => .working (by rw [hpc]; exact hw)) (fun hh => by cases hh) (fun _ _ _ hp => by cases hp))
    simp only [Sys.setPc, Sys.log, setSteady, Function.update_apply] at hk
    split at hk
    · rename_i hkn
      rw [hkn]
      exact hk
    · exact hk
  | enqueueFailed => exact .inl h
  | @enqueued u g ref P Q hpc hP hr hE =>
    obtain ⟨hh, -, hb, -⟩ := extractBlockedNodes_spec Q P.readyQ []
    rw [(enqueue_eq_some hE).2.1] at hh hb
    refine .inl (h.setPc (s := s) rfl (fun _ hm => .job hm) (fun q hq => .recorded (q := q) ?_) (fun k hk => .parked hk)
      (fun hw => by cases hw) (fun hn => .recorded (q := P.readyQ) ?_) (fun _ _ _ _ hp => by cases hp) id)
    · simp only [Sys.setPc, Sys.log, hb, Function.update_apply] at hq
      split at hq
      · cases hq
      · exact hq
    · rw [Pc.hands, hh] at hn
      exact hn
  | @dequeued u g P ref Q hpc hP hd hr =>
    -- the thread of the application stays where it is
    have hpc' : s.pc = Function.update s.pc (.user u) (s.pc (.user u)) := (Function.update_eq_self _ _).symm
    refine .inl (h.setPc (s := s) hpc' (fun _ hm => .job hm)
      (fun q hq => .recorded (q := q) ?_) (fun k hk => .parked hk) (fun hw => .working hw) (fun hh => .inHand hh)
      (fun _ _ _ _ hp hM ho => .next hp hM ho) id)
    obtain ⟨-, hd'⟩ | ⟨y, l, Q', -, hd', -, hb, -⟩ := dequeue_cases s.shm.queue P.doneQ <;> rw [hd] at hd' <;> cases hd'
    · exact hq
    · simp only [Sys.log, hb] at hq
      exact hq
  | _ =>
    refine .inl (h.move (s := s) rfl (fun _ h => h) (fun _ h => h) (fun _ h => h) (fun hw => ?_) (fun hh => ?_)
      (fun _ _ _ hp => by cases hp))
    · first | exact .working (by rw [‹s.pc _ = _›]; exact hw) | cases hw
    · first | exact .inHand (by rw [‹s.pc _ = _›]; exact hh) | cases hh

/-- The thread that moves. -/
def Act.tid : Act → Tid
  | .thread t | .kernel t _ => t
  | .enqueueReadyRef u _ _ | .dequeueDoneRef u _ | .scheduleGraph u _ => .user u

/-- A step moves one thread. -/
theorem pc_of_step_ne {G : Graph} {s s' : Sys} {a : Act} (hs : Step G s a s') {t : Tid} (ht : t ≠ a.tid) :
    s'.pc t = s.pc t := by
  cases hs with
  | enqueueFailed => rfl
  | dequeued => rfl
  | acquirePrm =>
    unfold afterAcquire
    split
    · exact Function.update_of_ne ht _ _
    · split <;> exact Function.update_of_ne ht _ _
  | _ => exact Function.update_of_ne ht _ _

/-- **The flags of the nodes** are set by the completion of a node and cleared by the host, one at a time. -/
theorem isExecuted_of_step {G : Graph} {s s' : Sys} {a : Act} (hs : Step G s a s') (n : NodeId) :
    (s'.shm.node n).isExecuted = (s.shm.node n).isExecuted ∨
    (∃ prms b, s.pc a.tid = .markComplete n prms ∧ s'.pc a.tid = .release n prms 0 b ∧
      (s'.shm.node n).isExecuted = true) ∨
    (∃ left, s.pc a.tid = .clearState n.pipe left n.node ∧ n.node < G.numNodes ∧
      (s'.shm.node n).isExecuted = false) := by
  cases hs with
  | parked hpc hN hm => exact .inl (isPrevPipeNodeBlocked_isExecuted hm n)
  | proceeded hpc hN hm => exact .inl (isPrevPipeNodeBlocked_isExecuted hm n)
  | @acquirePrm t m N pipeup prms P D hpc hN hP hq hD =>
    refine .inl ?_
    have hx : ((ownTargetNodeDescAcquireParameter m P.dataRefQId D (decide (0 < pipeup)) s.shm).1.node n).isExecuted =
        (s.shm.node n).isExecuted := acquireParameter_isExecuted
    unfold afterAcquire
    split
    · exact hx
    · split <;> exact hx
  | @acquireInvalid t m N pipeup prms hpc hN hP hall =>
    refine .inl ?_
    simp only [Sys.setPc, Sys.setNode, Function.update_apply]
    split
    · rename_i hn
      rw [hn]
    · rfl
  | @markComplete t m N prms hpc hN =>
    simp only [Sys.setPc, Sys.log, ownTargetNodeDescNodeMarkComplete, Function.update_apply]
    split
    · rename_i hn
      exact .inr (.inl ⟨prms, _, by rw [Act.tid, hpc, hn], by rw [hn]; exact Function.update_self _ _ _, rfl⟩)
    · exact .inl rfl
  | @releasePrm t m N prms prmId blocked P D R E hpc hN hP hq hD hR hE =>
    refine .inl ?_
    rw [hR]
    rfl
  | @clearState t p left i hpc hi =>
    simp only [Sys.setPc, Sys.setNode, Function.update_apply]
    split
    · rename_i hn
      exact .inr (.inr ⟨left, by rw [Act.tid, hpc, hn], by rw [hn]; exact hi, rfl⟩)
    · exact .inl rfl
  | @kernelSteady t m N prms₀ prms hpc hN hk =>
    refine .inl ?_
    simp only [Sys.setPc, Sys.log, setSteady, Function.update_apply]
    split
    · rename_i hn
      rw [hn]
    · rfl
  | _ => exact .inl rfl

/-- **The nodes parked at an instance** are recorded by a look at their previous instance, where it is blocked, and taken
over by the thread that marks the instance complete. -/
theorem blockedNodeId_of_step {G : Graph} {s s' : Sys} {a : Act} (hs : Step G s a s') (k : NodeId) :
    (s'.shm.node k).blockedNodeId = (s.shm.node k).blockedNodeId ∨
    (∃ n N, s.pc a.tid = .isPrevPipeNodeBlocked n ∧ G.table.node n = some N ∧ N.prevPipeNodeId = some k ∧
      (G.table.node k).isSome = true ∧ (s.shm.node n).state = .idle ∧ (s.shm.node k).state = .blocked ∧
      (s'.shm.node k).blockedNodeId = some n) ∨
    (∃ prms, s.pc a.tid = .markComplete k prms ∧ s'.pc a.tid = .release k prms 0 (s.shm.node k).blockedNodeId ∧
      (s'.shm.node k).blockedNodeId = none) := by
  have hupdate : ∀ (n : NodeId) (N : Node), N.blockedNodeId = (s.shm.node n).blockedNodeId →
      (Function.update s.shm.node n N k).blockedNodeId = (s.shm.node k).blockedNodeId := by
    intro n N hN
    rw [Function.update_apply]
    split
    · rename_i hk
      rw [hN, hk]
    · rfl
  have hprev : ∀ n N m b, s.pc a.tid = .isPrevPipeNodeBlocked n → G.table.node n = some N →
      ownTargetNodeDescIsPrevPipeNodeBlocked G.table n N s.shm = (m, b) →
      (m.node k).blockedNodeId = (s.shm.node k).blockedNodeId ∨
      ∃ n N, s.pc a.tid = .isPrevPipeNodeBlocked n ∧ G.table.node n = some N ∧ N.prevPipeNodeId = some k ∧
        (G.table.node k).isSome = true ∧ (s.shm.node n).state = .idle ∧ (s.shm.node k).state = .blocked ∧
        (m.node k).blockedNodeId = some n := by
    intro n N m b hpc hN hm
    rcases isPrevPipeNodeBlocked_cases G.table n N s.shm with ⟨h, -⟩ | ⟨j, hj, hjs, hn, hjb, h⟩ | ⟨j, -, -, -, h⟩ <;>
      rw [h] at hm <;> cases hm
    · exact .inl rfl
    · by_cases hk : k = j
      · subst hk
        exact .inr ⟨n, N, hpc, hN, hj, hjs, hn, hjb, by simp [parkOn]⟩
      · left
        simp only [parkOn, Function.update_of_ne hk]
        exact hupdate n _ rfl
    · exact .inl (hupdate n _ rfl)
  cases hs with
  | parked hpc hN hm =>
    rcases hprev _ _ _ _ hpc hN hm with h | h
    · exact .inl h
    · exact .inr (.inl h)
  | proceeded hpc hN hm =>
    rcases hprev _ _ _ _ hpc hN hm with h | h
    · exact .inl h
    · exact .inr (.inl h)
  | @acquirePrm t m N pipeup prms P D hpc hN hP hq hD =>
    left
    have hx : ((ownTargetNodeDescAcquireParameter m P.dataRefQId D (decide (0 < pipeup)) s.shm).1.node k).blockedNodeId =
        (s.shm.node k).blockedNodeId := acquireParameter_blockedNodeId
    unfold afterAcquire
    split
    · exact hx
    · split <;> exact hx
  | acquireInvalid hpc hN hP hall => exact .inl (hupdate _ _ rfl)
  | @markComplete t m N prms hpc hN =>
    by_cases hk : k = m
    · subst hk
      exact .inr (.inr ⟨prms, hpc, Function.update_self _ _ _, by
        simp [Sys.setPc, Sys.log, ownTargetNodeDescNodeMarkComplete]⟩)
    · left
      simp only [Sys.setPc, Sys.log, ownTargetNodeDescNodeMarkComplete, Function.update_of_ne hk]
  | releasePrm hpc hN hP hq hD hR hE =>
    left
    rw [hR]
    rfl
  | clearState hpc hi => exact .inl (hupdate _ _ rfl)
  | kernelSteady hpc hN hk => exact .inl (hupdate _ _ rfl)
  | _ => exact .inl rfl

end Tiovx
