import Tiovx.Steps
import Tiovx.Lib.Run
/-!
# Runs — where runs start, and what holds in every state

`Graph.Verified` is what `vxVerifyGraph` leaves for the targets, `Starts` the state it leaves.  Every state reached
from there keeps each node to its own target, the ids of the queues to descriptors, and the kernels' parameters to
what they were handed.
-/
namespace Tiovx

open StepSystem

/-- What a verified graph promises the targets about its descriptors. -/
structure Graph.Verified (G : Graph) : Prop where
  numEntries_le : G.table.numEntries ≤ objDescInvalid
  refsList_lt : ∀ P ∈ G.parameters, ∀ x ∈ P.refsList, x < G.table.numEntries

/-- The state a verified graph is left in: nothing runs, nothing is acquired, and only the queues hold references. -/
structure Starts (G : Graph) (s : Sys) : Prop where
  pc : ∀ t, s.pc t = .idle
  jobQ : ∀ id, s.jobQ id = []
  lock : s.lock = none
  completeLeafNodes : ∀ p, s.completeLeafNodes p = 0
  freeQ : s.freeQ = List.range G.pipelineDepth
  isExecuted : ∀ n, (s.shm.node n).isExecuted = false
  state : ∀ n, (s.shm.node n).state = .idle
  blockedNodeId : ∀ n, (s.shm.node n).blockedNodeId = none
  isRefAcquired : ∀ dq, (s.shm.dataRefQ dq).isRefAcquired = false
  acquireQ : ∀ dq D, G.table.dataRefQ dq = some D → (s.shm.queue D.acquireQObjDescId).isSome
  releaseQ : ∀ dq D, G.table.dataRefQ dq = some D → (s.shm.queue D.releaseQObjDescId).isSome
  refs_lt : ∀ q, ∀ x ∈ s.shm.queue.refs q, x < G.table.numEntries
  blockedOn : ∀ q, s.shm.queue.blockedOn q = []
  trace : s.trace = []

/-- The state `vxVerifyGraph` leaves, with these queues. -/
def Sys.start (G : Graph) (Q : Queues) : Sys where
  shm := { queue := Q, dataRefQ := fun _ => {}, node := fun _ => {}, kernelInstance := fun _ => .steady }
  jobQ := fun _ => []
  pc := fun _ => .idle
  lock := none
  completeLeafNodes := fun _ => 0
  freeQ := List.range G.pipelineDepth
  submittedCount := 0
  schedulePendingCount := 0
  trace := []

theorem starts_start {G : Graph} {Q : Queues}
    (hq : ∀ dq D, G.table.dataRefQ dq = some D → (Q D.acquireQObjDescId).isSome ∧ (Q D.releaseQObjDescId).isSome)
    (hr : ∀ q, ∀ x ∈ Q.refs q, x < G.table.numEntries) (hb : ∀ q, Q.blockedOn q = []) : Starts G (Sys.start G Q) where
  pc _ := rfl
  jobQ _ := rfl
  lock := rfl
  completeLeafNodes _ := rfl
  freeQ := rfl
  isExecuted _ := rfl
  state _ := rfl
  blockedNodeId _ := rfl
  isRefAcquired _ := rfl
  acquireQ dq D h := (hq dq D h).1
  releaseQ dq D h := (hq dq D h).2
  refs_lt := hr
  blockedOn := hb
  trace := rfl

/-- A start with references enqueued in queues just created. -/
theorem starts_primed {G : Graph} {k : Nat} {l : List (Nat × Nat)} (hl : ∀ x ∈ l.map Prod.snd, x < G.table.numEntries)
    (hq : ∀ dq D, G.table.dataRefQ dq = some D → D.acquireQObjDescId < k ∧ D.releaseQObjDescId < k) :
    Starts G (Sys.start G (enqueueAll l (createQueues k))) := by
  obtain ⟨hb, hs, hr⟩ := enqueueAll_spec l (createQueues k)
  refine starts_start (fun dq D hD => ?_) (fun q x hx => ?_) (fun q => by rw [hb, Queues.blockedOn_createQueues])
  · rw [hs, hs, createQueues, createQueues, if_pos (hq dq D hD).1, if_pos (hq dq D hD).2]
    exact ⟨rfl, rfl⟩
  · obtain hx | hx := hr q x hx
    · rw [Queues.refs_createQueues] at hx
      cases hx
    · exact hl x hx

theorem mem_ownObjDescSend {J : Nat → List Job} {dst id : Nat} {j k : Job} (h : k ∈ ownObjDescSend J dst j id) :
    k ∈ J id ∨ k = j ∧ id = dst := by
  unfold ownObjDescSend at h
  by_cases hl : (J dst).length < targetMaxJobQueueDepth
  · rw [if_pos hl] at h
    by_cases hid : id = dst
    · subst hid
      rw [Function.update_self, List.mem_append, List.mem_singleton] at h
      exact h.imp_right (fun h => ⟨h, rfl⟩)
    · rw [Function.update_of_ne hid] at h
      exact .inl h
  · rw [if_neg hl] at h
    exact .inl h

theorem mem_ownTargetTriggerNode {T : ObjDescTable} {J : Nat → List Job} {id : Nat} {n : NodeId} {k : Job}
    (h : k ∈ ownTargetTriggerNode T J n id) : k ∈ J id ∨ k = .node n ∧ ∃ N, T.node n = some N ∧ id = N.targetId := by
  unfold ownTargetTriggerNode at h
  cases hN : T.node n with
  | none =>
    rw [hN] at h
    exact .inl h
  | some N =>
    rw [hN] at h
    exact (mem_ownObjDescSend h).imp_right (fun h => ⟨h.1, N, rfl, h.2⟩)

theorem mem_of_update_tail {J : Nat → List Job} {id k : Nat} {j x : Job} {l : List Job} (hq : J id = j :: l)
    (h : x ∈ Function.update J id l k) : x ∈ J k := by
  by_cases hk : k = id
  · subst hk
    rw [Function.update_self] at h
    rw [hq]
    exact List.mem_cons_of_mem _ h
  · rwa [Function.update_of_ne hk] at h

/-- Triggers of a node are in the job queue of its target, and only its target works on it. -/
structure OnTarget (G : Graph) (s : Sys) : Prop where
  job : ∀ {id n N}, Job.node n ∈ s.jobQ id → G.table.node n = some N → id = N.targetId
  pc : ∀ {t n N}, (s.pc t).nodeId = some n → G.table.node n = some N → t = .target N.targetId

/-- A step that sends no trigger and brings no thread to another node. -/
theorem OnTarget.setPc {G : Graph} {s s' : Sys} {t : Tid} {pc : Pc} (h : OnTarget G s)
    (hj : ∀ id n, Job.node n ∈ s'.jobQ id → Job.node n ∈ s.jobQ id) (hp : s'.pc = Function.update s.pc t pc)
    (hn : ∀ n N, pc.nodeId = some n → G.table.node n = some N → t = .target N.targetId) : OnTarget G s' := by
  refine ⟨fun {id n N} hm hN => h.job (hj id n hm) hN, fun {t' n N} hm hN => ?_⟩
  rw [hp] at hm
  by_cases ht : t' = t
  · subst ht
    rw [Function.update_self] at hm
    exact hn n N hm hN
  · rw [Function.update_of_ne ht] at hm
    exact h.pc hm hN

theorem OnTarget.trigger {G : Graph} {s s' : Sys} {t : Tid} {pc : Pc} (k : NodeId) (h : OnTarget G s)
    (hj : s'.jobQ = ownTargetTriggerNode G.table s.jobQ k) (hp : s'.pc = Function.update s.pc t pc)
    (hn : ∀ n N, pc.nodeId = some n → G.table.node n = some N → t = .target N.targetId) : OnTarget G s' := by
  have hpc : OnTarget G { s with pc := s'.pc } := h.setPc (fun _ _ h => h) hp hn
  refine ⟨fun {id n N} hm hN => ?_, hpc.pc⟩
  rw [hj] at hm
  obtain hm | ⟨hm, K, hK, hid⟩ := mem_ownTargetTriggerNode hm
  · exact h.job hm hN
  · cases hm
    rw [hN] at hK
    cases hK
    exact hid

theorem OnTarget.kept {G : Graph} {s s' : Sys} {a : Act} (h : OnTarget G s) (hs : Step G s a s') : OnTarget G s' := by
  cases hs with
  | @takeNode id n l hpc hq =>
    refine h.setPc (fun _ _ hm => mem_of_update_tail hq hm) rfl (fun n N hn hN => ?_)
    cases hn
    have hj : .node n ∈ s.jobQ id := by rw [hq]; exact List.mem_cons_self
    rw [h.job hj hN]
  | takeCallback pc hpc hq hc =>
    refine h.setPc (fun _ _ hm => mem_of_update_tail hq hm) rfl (fun n N hn _ => ?_)
    obtain ⟨rfl, -⟩ | ⟨rfl, -⟩ := hc <;> cases hn
  | takeConsumed hpc hq => exact h.setPc (fun _ _ hm => mem_of_update_tail hq hm) rfl (fun _ _ hn _ => by cases hn)
  | enqueueFailed => exact h
  | dequeued => exact ⟨h.job, h.pc⟩
  | sendComplete hpc hN =>
    refine h.setPc (fun id n hm => ?_) rfl (fun _ _ hn hN => h.pc (by rw [hpc]; exact hn) hN)
    simp only [Sys.setPc] at hm
    split at hm
    · exact (mem_ownObjDescSend hm).resolve_right (fun h => by cases h.1)
    · exact hm
  | refConsumed dq send hpc hN =>
    refine h.setPc (fun id n hm => ?_) rfl (fun _ _ hn hN => h.pc (by rw [hpc]; exact hn) hN)
    simp only [Sys.setPc] at hm
    split at hm
    · exact (mem_ownObjDescSend hm).resolve_right (fun h => by cases h.1)
    · exact hm
  | acquirePrm hpc hN hP hq hD =>
    unfold afterAcquire
    split
    · exact h.setPc (fun _ _ h => h) rfl (fun _ _ hn _ => by cases hn)
    · split <;> exact h.setPc (fun _ _ h => h) rfl (fun _ _ hn hN => h.pc (by rw [hpc]; exact hn) hN)
  | retrigger hpc hN => exact h.trigger _ rfl rfl (fun _ _ hn hN => h.pc (by rw [hpc]; exact hn) hN)
  | sendNext hpc hN hk => exact h.trigger _ rfl rfl (fun _ _ hn hN => h.pc (by rw [hpc]; exact hn) hN)
  | triggerBlocked hpc => exact h.trigger _ rfl rfl (fun _ _ hn _ => by cases hn)
  | userRetrigger hpc => exact h.trigger _ rfl rfl (fun _ _ hn _ => by cases hn)
  | scheduleHead hpc hh => exact h.trigger _ rfl rfl (fun _ _ hn _ => by cases hn)
  | acquireInvalid hpc hN hP hall =>
    refine h.setPc (fun _ _ h => h) rfl (fun n N hn hN => ?_)
    split at hn
    · cases hn
    · exact h.pc (by rw [hpc]; exact hn) hN
  | completed hpc hl hc =>
    refine h.setPc (fun _ _ h => h) rfl (fun n N hn hN => ?_)
    split at hn <;> cases hn
  | _ =>
    refine h.setPc (fun _ _ h => h) rfl (fun _ _ hn hN => ?_)
    simp only [Pc.nodeId, Option.some.injEq, reduceCtorEq] at hn <;>
      exact h.pc (by rw [‹s.pc _ = _›, ← hn]; rfl) hN

theorem OnTarget.of_reach {G : Graph} {C : Sys → Act → Prop} {s₀ s : Sys} (h0 : Starts G s₀)
    (h : Reach (step G) C s₀ s) : OnTarget G s := by
  refine h.inv ⟨fun {id n N} hm => ?_, fun {t n N} hn => ?_⟩ (fun s a t hI _ hs => hI.kept (step_cases hs))
  · rw [h0.jobQ] at hm; cases hm
  · rw [h0.pc] at hn; cases hn

/-- An acquire keeps the queues sound. -/
theorem acquireParameter_sound {T : ObjDescTable} {n : NodeId} {dq : Nat} {D : DataRefQDesc} {isPipeup : Bool} {m : Shm}
    (hT : T.numEntries ≤ objDescInvalid) (h : m.queue.Sound T) :
    (ownTargetNodeDescAcquireParameter n dq D isPipeup m).1.queue.Sound T := by
  have hd := h.dequeue D.acquireQObjDescId
  obtain ⟨-, he⟩ | ⟨x, l, Q, -, hr, -, hrefs, hb, -, he⟩ | ⟨Q, -, hr, -, hQ, he⟩ | ⟨-, -, -, he⟩ :=
    acquireParameter_cases n dq D isPipeup m (h.invalid_not_mem hT _) <;> rw [he]
  · exact h
  · refine ⟨fun q y hy => ?_, fun q hq => ?_⟩
    · simp only at hy
      rw [hrefs, Function.update_apply] at hy
      split at hy
      · exact h.lt_numEntries D.acquireQObjDescId y (by rw [hr]; exact List.mem_cons_of_mem _ hy)
      · exact h.lt_numEntries q y hy
    · simp only at hq ⊢
      rw [hb]
      refine h.blockedOn_eq_nil q (fun hq' => hq ?_)
      rw [hrefs, Function.update_apply]
      split
      · rename_i hk
        rw [hk, hr] at hq'
        cases hq'
      · exact hq'
  · exact h.addBlockedNode hr hQ
  · exact h

theorem releaseParameter_sound {T : ObjDescTable} {hostOnly : Bool} {dq : Nat} {D : DataRefQDesc} {ref : Nat}
    {isInput : Bool} {m : Shm} (h : m.queue.Sound T) :
    (ownTargetNodeDescReleaseParameter T hostOnly dq D ref isInput m).shm.queue.Sound T := by
  rw [releaseParameter_queue]
  split
  · rename_i hr
    exact h.releaseToQueue D (releaseParameter_isPrmReleased.1 hr).1
  · exact h

theorem sound_kept {G : Graph} {s s' : Sys} {a : Act} (hG : G.Verified) (h : s.shm.queue.Sound G.table)
    (hs : Step G s a s') : s'.shm.queue.Sound G.table := by
  cases hs with
  | parked hpc hN hm => exact (isPrevPipeNodeBlocked_queue hm).1 ▸ h
  | proceeded hpc hN hm => exact (isPrevPipeNodeBlocked_queue hm).1 ▸ h
  | acquirePrm hpc hN hP hq hD =>
    unfold afterAcquire
    split
    · exact acquireParameter_sound hG.numEntries_le h
    · split <;> exact acquireParameter_sound hG.numEntries_le h
  | releasePrm hpc hN hP hq hD hR =>
    rw [hR]
    exact releaseParameter_sound h
  | @enqueued u g ref P Q hpc hP hr hQ =>
    have he : (ownObjDescQueueExtractBlockedNodes Q P.readyQ []).1 = (enqueueAndExtract s.shm.queue P.readyQ ref []).1 := by
      simp only [enqueueAndExtract, hQ]
    have := h.enqueueAndExtract P.readyQ (hG.refsList_lt P (List.mem_of_getElem? hP) ref hr) []
    rw [← he] at this
    exact this
  | @dequeued u g P ref Q hpc hP hQ hr =>
    have := (h.dequeue P.doneQ).1
    rw [hQ] at this
    exact this
  | _ => exact h

/-- **The queues are sound in every state reached.** -/
theorem sound_of_reach {G : Graph} {C : Sys → Act → Prop} {s₀ s : Sys} (hG : G.Verified) (h0 : Starts G s₀)
    (h : Reach (step G) C s₀ s) : s.shm.queue.Sound G.table :=
  h.inv (I := fun s => s.shm.queue.Sound G.table) ⟨h0.refs_lt, fun q _ => h0.blockedOn q⟩
    (fun _ _ _ hI _ hs => sound_kept hG hI (step_cases hs))

theorem ageSlot_isSome (D : DataRefQDesc) (Q : Queues) (out : List NodeId) (k : Nat) :
    ((ageSlot D Q out).1 k).isSome = (Q k).isSome := by
  unfold ageSlot
  obtain ⟨-, hd⟩ | ⟨x, l, Q', -, hd, -, -, hs⟩ := dequeue_cases Q D.acquireQObjDescId
  · rw [hd]; simp
  · rw [hd]
    simp only
    split
    · exact hs k
    · obtain ⟨-, he⟩ | ⟨-, -, -, he⟩ := enqueueAndExtract_cases Q' D.releaseQObjDescId x out
      · rw [he]; exact hs k
      · rw [he k, hs k]

theorem releaseParameter_isSome {T : ObjDescTable} {hostOnly : Bool} {dq : Nat} {D : DataRefQDesc} {ref : Nat}
    {isInput : Bool} {m : Shm} (k : Nat) :
    ((ownTargetNodeDescReleaseParameter T hostOnly dq D ref isInput m).shm.queue k).isSome = (m.queue k).isSome := by
  rw [releaseParameter_queue]
  split
  · refine releaseToQueue_rule (I := fun Q _ => (Q k).isSome = (m.queue k).isSome) ?_
      (fun _ N Q out _ _ h => by rw [ageSlot_isSome, h])
    obtain ⟨-, he⟩ | ⟨-, -, -, he⟩ := enqueueAndExtract_cases m.queue D.releaseQObjDescId ref []
    · rw [he]
    · rw [he k]
  · rfl

theorem acquireParameter_isSome {n : NodeId} {dq : Nat} {D : DataRefQDesc} {isPipeup : Bool} {m : Shm}
    (hv : objDescInvalid ∉ m.queue.refs D.acquireQObjDescId) (k : Nat) :
    ((ownTargetNodeDescAcquireParameter n dq D isPipeup m).1.queue k).isSome = (m.queue k).isSome := by
  obtain ⟨-, he⟩ | ⟨x, l, Q, -, -, -, -, -, hs, he⟩ | ⟨Q, -, -, -, hQ, he⟩ | ⟨-, -, -, he⟩ :=
    acquireParameter_cases n dq D isPipeup m hv <;> rw [he]
  · exact hs k
  · exact (addBlockedNode_eq_some hQ).2.2.2 k

/-- No step makes or removes a queue. -/
theorem queue_isSome_kept {G : Graph} {s s' : Sys} {a : Act} (hG : G.Verified) (h : s.shm.queue.Sound G.table)
    (hs : Step G s a s') (k : Nat) : (s'.shm.queue k).isSome = (s.shm.queue k).isSome := by
  cases hs with
  | parked hpc hN hm => exact (isPrevPipeNodeBlocked_queue hm).1 ▸ rfl
  | proceeded hpc hN hm => exact (isPrevPipeNodeBlocked_queue hm).1 ▸ rfl
  | acquirePrm hpc hN hP hq hD =>
    have hv := h.invalid_not_mem hG.numEntries_le
    unfold afterAcquire
    split
    · exact acquireParameter_isSome (hv _) k
    · split <;> exact acquireParameter_isSome (hv _) k
  | releasePrm hpc hN hP hq hD hR =>
    rw [hR]
    exact releaseParameter_isSome k
  | @enqueued u g ref P Q hpc hP hr hQ =>
    exact ((extractBlockedNodes_spec Q P.readyQ []).2.2.2 k).trans ((enqueue_eq_some hQ).2.2 k)
  | @dequeued u g P ref Q hpc hP hQ hr =>
    obtain ⟨-, hd⟩ | ⟨x, l, Q', -, hd, -, -, hk⟩ := dequeue_cases s.shm.queue P.doneQ <;> rw [hd] at hQ <;> cases hQ
    · rfl
    · exact hk k
  | _ => rfl

/-- **The queues the descriptors name exist in every state reached.** -/
theorem acquireQ_isSome_of_reach {G : Graph} {C : Sys → Act → Prop} {s₀ s : Sys} (hG : G.Verified) (h0 : Starts G s₀)
    (h : Reach (step G) C s₀ s) {dq : Nat} {D : DataRefQDesc} (hD : G.table.dataRefQ dq = some D) :
    (s.shm.queue D.acquireQObjDescId).isSome ∧ (s.shm.queue D.releaseQObjDescId).isSome := by
  refine h.inv_of (J := fun s => s.shm.queue.Sound G.table)
    (I := fun s => (s.shm.queue D.acquireQObjDescId).isSome ∧ (s.shm.queue D.releaseQObjDescId).isSome)
    (fun _ hr => sound_of_reach hG h0 hr) ⟨h0.acquireQ dq D hD, h0.releaseQ dq D hD⟩ (fun s a t hJ hI _ hs => ?_)
  rw [queue_isSome_kept hG hJ (step_cases hs), queue_isSome_kept hG hJ (step_cases hs)]
  exact hI

/-- **What trying a parameter leaves**, in a state with sound queues. -/
theorem afterAcquire_cases {T : ObjDescTable} {s : Sys} (hT : T.numEntries ≤ objDescInvalid)
    (hv : s.shm.queue.Sound T) (t : Tid) (n : NodeId) (pipeup : Nat) (prms : List Nat) (dq : Nat) (D : DataRefQDesc) {s' : Sys}
    (hs' : s' = afterAcquire s t n pipeup prms dq D
      (ownTargetNodeDescAcquireParameter n dq D (decide (0 < pipeup)) s.shm)) :
    ((s.shm.dataRefQ dq).isRefAcquired = true ∧
      s' = s.setPc t (.acquire n pipeup (prms ++ [(s.shm.dataRefQ dq).refObjDescId]))) ∨
    (∃ x l Q, (s.shm.dataRefQ dq).isRefAcquired = false ∧ s.shm.queue.refs D.acquireQObjDescId = x :: l ∧
      x ≠ objDescInvalid ∧ Q.refs = Function.update s.shm.queue.refs D.acquireQObjDescId l ∧
      Q.blockedOn = s.shm.queue.blockedOn ∧
      s' = ({ s with
        shm := { s.shm with
          queue := Q
          dataRefQ := if 0 < pipeup then s.shm.dataRefQ else Function.update s.shm.dataRefQ dq ⟨true, x, 0⟩ } }.log
        (.acquired dq x (decide (0 < pipeup)))).setPc t (.acquire n pipeup (prms ++ [x]))) ∨
    (∃ Q, (s.shm.dataRefQ dq).isRefAcquired = false ∧ s.shm.queue.refs D.acquireQObjDescId = [] ∧ pipeup = 0 ∧
      ownObjDescQueueAddBlockedNode s.shm.queue D.acquireQObjDescId n = some Q ∧
      s' = ({ s with
        shm := { s.shm with
          queue := Q
          node := Function.update s.shm.node n { s.shm.node n with state := .blocked } } }.log
        (.recorded D.acquireQObjDescId n)).setPc t .idle) ∨
    ((s.shm.dataRefQ dq).isRefAcquired = false ∧ s.shm.queue.refs D.acquireQObjDescId = [] ∧
      (pipeup = 0 → ownObjDescQueueAddBlockedNode s.shm.queue D.acquireQObjDescId n = none) ∧
      s' = s.setPc t (.acquire n pipeup (prms ++ [objDescInvalid]))) := by
  unfold afterAcquire at hs'
  obtain ⟨ha, he⟩ | ⟨x, l, Q, ha, hr, hx, hrefs, hb, -, he⟩ | ⟨Q, ha, hr, hp, hQ, he⟩ | ⟨ha, hr, hp, he⟩ :=
    acquireParameter_cases n dq D (decide (0 < pipeup)) s.shm (hv.invalid_not_mem hT _) <;>
    simp only [he, ha, Bool.false_eq_true, if_false, if_true, Bool.true_or, Bool.false_or, beq_iff_eq] at hs'
  · exact .inl ⟨ha, hs'⟩
  · rw [if_neg hx] at hs'
    refine .inr (.inl ⟨x, l, Q, ha, hr, hx, hrefs, hb, ?_⟩)
    simpa using hs'
  · exact .inr (.inr (.inl ⟨Q, ha, hr, by simpa using hp, hQ, hs'⟩))
  · exact .inr (.inr (.inr ⟨ha, hr, fun h => hp (by simp [h]), hs'⟩))

end Tiovx
