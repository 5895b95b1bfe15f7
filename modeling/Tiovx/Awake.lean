import Tiovx.TriggersKept
/-!
# Awake — what is known of the triggers of a graph

Where every send finds room no trigger is lost, so a node that is ready is on its way to its target, parked or recorded,
or a thread has it before it.  The nodes parked at one another are in an order, and the completions of the leaf nodes
are all on the way to the host or counted.
-/
namespace Tiovx

open StepSystem

variable {G : Graph} {s s' : Sys} {a : Act} {n : NodeId} {N : NodeDesc}

/-- The node a thread acquires the parameters of, executes or marks complete. -/
def Pc.beyond : Pc → Option NodeId
  | .acquire n _ _ | .kernel n _ _ | .markComplete n _ => some n
  | _ => none

theorem Pc.passed_of_beyond {pc : Pc} (h : pc.beyond = some n) : pc.passed = some n := by
  cases pc <;> simp only [beyond, reduceCtorEq] at h <;> exact h

/-- A thread has acquired no more parameters than there are, and looks at an out-node there is. -/
def Pc.fits (G : Graph) : Pc → Prop
  | .acquire n _ prms => ∀ N, G.table.node n = some N → prms.length ≤ N.prms.length
  | .kernel n _ prms => ∀ N, G.table.node n = some N → prms.length = N.prms.length
  | .sendNext m i _ => ∀ M, G.table.node m = some M → (M.outNodeId[i]?).isSome = true
  | _ => True

/-- What is sent goes to the host, or it is a node of the graph and goes to its target. -/
def Job.Sent (G : Graph) (id : Nat) (j : Job) : Prop :=
  (id = G.hostTarget ∧ ∀ n, j ≠ .node n) ∨ ∃ n N, j = .node n ∧ G.table.node n = some N ∧ id = N.targetId

/-- **Where the threads stand**: on nodes of the graph, inside the lists they go through, and with the lock only in
`ownGraphScheduleGraph`. -/
structure Placed (G : Graph) (s : Sys) : Prop where
  node : ∀ t n, (s.pc t).nodeId = some n → (G.table.node n).isSome = true
  job : ∀ id, ∀ j ∈ s.jobQ id, j.Sent G id
  fits : ∀ t, (s.pc t).fits G
  lock : ∀ t, s.lock = some t → (s.pc t).schedules = true

theorem job_of_trigger {J : Nat → List Job} {k : NodeId} {id : Nat} {j : Job}
    (h : j ∈ ownTargetTriggerNode G.table J k id) : j ∈ J id ∨ j.Sent G id := by
  rcases mem_ownTargetTriggerNode h with h | ⟨h, K, hK, hid⟩
  · exact .inl h
  · exact .inr (.inr ⟨k, K, h, hK, hid⟩)

theorem job_of_send {J : Nat → List Job} {id : Nat} {j k : Job} (hk : ∀ n, k ≠ .node n)
    (h : j ∈ ownObjDescSend J G.hostTarget k id) : j ∈ J id ∨ j.Sent G id := by
  rcases mem_ownObjDescSend h with h | ⟨h, hid⟩
  · exact .inl h
  · exact .inr (.inl ⟨hid, by rw [h]; exact hk⟩)

/-- Only nodes of the graph are sent, to their targets, and commands to the host. -/
theorem job_of_step (hs : Step G s a s') {id : Nat} {j : Job} (h : j ∈ s'.jobQ id) : j ∈ s.jobQ id ∨ j.Sent G id := by
  cases hs with
  | takeNode hpc hq => exact .inl (mem_of_update_tail hq h)
  | takeCallback pc hpc hq hc => exact .inl (mem_of_update_tail hq h)
  | takeConsumed hpc hq => exact .inl (mem_of_update_tail hq h)
  | retrigger => exact job_of_trigger h
  | sendNext => exact job_of_trigger h
  | triggerBlocked => exact job_of_trigger h
  | userRetrigger => exact job_of_trigger h
  | scheduleHead => exact job_of_trigger h
  | refConsumed dq send hpc hN =>
    simp only [Sys.setPc] at h
    split at h
    · exact job_of_send (fun n h => by cases h) h
    · exact .inl h
  | sendComplete hpc hN =>
    simp only [Sys.setPc] at h
    split at h
    · exact job_of_send (fun n h => by cases h) h
    · exact .inl h
  | acquirePrm hpc hN hP hq hD =>
    unfold afterAcquire at h
    split at h
    · exact .inl h
    · split at h <;> exact .inl h
  | _ => exact .inl h

theorem fits_append {m : NodeId} {M : NodeDesc} {prms : List Nat} {P : Prm} (ref : Nat) (hM : G.table.node m = some M)
    (hP : M.prms[prms.length]? = some P) :
    ∀ N, G.table.node m = some N → (prms ++ [ref]).length ≤ N.prms.length := by
  intro N hN
  rw [hM] at hN
  cases hN
  obtain ⟨hlt, -⟩ := List.getElem?_eq_some_iff.1 hP
  rw [List.length_append]
  exact hlt

theorem fits_of_step (hs : Step G s a s') (h : (s.pc a.tid).fits G) : (s'.pc a.tid).fits G := by
  cases hs with
  | enqueueFailed => exact h
  | dequeued => exact h
  | takeCallback pc hpc hq hc =>
    simp only [Act.tid, Sys.setPc, Function.update_self]
    obtain ⟨rfl, -⟩ | ⟨rfl, -⟩ := hc <;> trivial
  | acquireData ref hpc hN hP =>
    simp only [Act.tid, Sys.setPc, Function.update_self]
    exact fits_append ref hN hP
  | acquirePrm hpc hN hP hq hD =>
    unfold afterAcquire
    split
    · simp only [Act.tid, Sys.setPc, Function.update_self]
      trivial
    · split <;> simp only [Act.tid, Sys.setPc, Function.update_self] <;> exact fits_append _ hN hP
  | @acquireInvalid t m M pipeup prms hpc hN hP hall =>
    rw [Act.tid, hpc] at h
    simp only [Act.tid, Sys.setPc, Function.update_self]
    split
    · trivial
    · exact fun N' hN' => Nat.le_antisymm (h N' hN') (by
        rw [hN] at hN'
        cases hN'
        exact List.getElem?_eq_none_iff.1 hP)
  | @acquireEnd t m M pipeup prms hpc hN hP hall =>
    rw [Act.tid, hpc] at h
    simp only [Act.tid, Sys.setPc, Function.update_self]
    exact fun N' hN' => Nat.le_antisymm (h N' hN') (by
      rw [hN] at hN'
      cases hN'
      exact List.getElem?_eq_none_iff.1 hP)
  | @canExecute t m M i b k K hpc hM hk =>
    simp only [Act.tid, Sys.setPc, Function.update_self]
    intro M' hM'
    rw [hM] at hM'
    cases hM'
    rw [hk]
    rfl
  | completed hpc hl hc =>
    simp only [Act.tid, Sys.setPc, Function.update_self]
    split <;> trivial
  | _ => simp [Act.tid, Sys.setPc, Sys.log, scheduleEnd, Pc.fits]

/-- The thread with the lock goes on in `ownGraphScheduleGraph`. -/
theorem lock_of_step (hs : Step G s a s') (h : ∀ t, s.lock = some t → (s.pc t).schedules = true) :
    ∀ t, s'.lock = some t → (s'.pc t).schedules = true := by
  intro t ht
  by_cases hta : t = a.tid
  · subst hta
    cases hs with
    | enqueueFailed => exact h _ ht
    | dequeued => exact h _ ht
    | lock => simp [Act.tid, Sys.setPc, Pc.schedules]
    | scheduled => simp [Act.tid, Sys.setPc, Pc.schedules]
    | clearState => simp [Act.tid, Sys.setPc, Pc.schedules]
    | cleared => simp [Act.tid, Sys.setPc, Pc.schedules]
    | headsEnd => simp [Act.tid, Sys.setPc, Pc.schedules]
    | scheduleHead => simp [Act.tid, Sys.setPc, Pc.schedules]
    | unlock => cases ht
    | noNode hpc =>
      have := h _ ht
      rw [Act.tid] at this
      generalize s.pc _ = pc at hpc this
      cases pc <;> cases hpc <;> cases this
    | completed hpc hl =>
      have : s.lock = _ := ht
      rw [hl] at this
      cases this
    | @acquirePrm t m M pipeup prms P D hpc hN hP hq hD =>
      have hl : s.lock = some t := by
        unfold afterAcquire at ht
        split at ht
        · exact ht
        · split at ht <;> exact ht
      have := h t hl
      rw [hpc] at this
      cases this
    | _ =>
      have := h _ ht
      simp only [Act.tid, *, Pc.schedules, reduceCtorEq] at this
  · rw [pc_of_step_ne hs hta]
    rcases pcStep_of_step hs with ⟨-, -, hl⟩ | hp
    · exact h t (by rw [← hl, ht])
    · generalize s'.pc a.tid = pc' at hp
      generalize s.pc a.tid = pc at hp
      cases hp with
      | unlock hl => rw [hl] at ht; cases ht
      | lock hl hl' => rw [hl'] at ht; exact absurd (Option.some.inj ht).symm hta
      | _ => exact h t (by rw [← ‹s'.lock = s.lock›, ht])

theorem Placed.kept (h : Placed G s) (hs : Step G s a s') : Placed G s' where
  node t n hn := by
    rcases nodeId_of_step hs hn with hn | ⟨id, -, hj⟩
    · exact h.node t n hn
    · rcases h.job id _ hj with ⟨-, hno⟩ | ⟨m, M, hm, hM, -⟩
      · exact absurd rfl (hno n)
      · cases hm
        rw [hM]
        rfl
  job id j hj := by
    rcases job_of_step hs hj with hj | hj
    · exact h.job id j hj
    · exact hj
  fits t := by
    by_cases ht : t = a.tid
    · rw [ht]
      exact fits_of_step hs (h.fits a.tid)
    · rw [pc_of_step_ne hs ht]
      exact h.fits t
  lock := lock_of_step hs h.lock

/-- **What the completion of a node leaves.** -/
theorem markComplete_spec (hs : Step G s a s') {prms : List Nat} (h : s.pc a.tid = .markComplete n prms)
    (hN : G.table.node n = some N) : (s'.shm.node n).state = .idle ∧ (s'.shm.node n).blockedNodeId = none := by
  cases hs with
  | markComplete hpc =>
    rw [Act.tid, hpc] at h
    cases h
    simp [Sys.setPc, Sys.log, ownTargetNodeDescNodeMarkComplete]
  | noNode hpc hN' =>
    rw [Act.tid] at h
    rw [h] at hpc
    cases hpc
    rw [hN] at hN'
    cases hN'
  | _ => simp only [Act.tid, *, reduceCtorEq] at h

/-- **The state of a node** is made blocked by the thread that works on it, and idle when that thread goes past the look
at the previous instance or completes the node. -/
theorem state_of_step (hs : Step G s a s') (k : NodeId) :
    (s'.shm.node k).state = (s.shm.node k).state ∨
    ((s'.shm.node k).state = .blocked ∧ (G.table.node k).isSome = true ∧
      (s.pc a.tid = .isPrevPipeNodeBlocked k ∨ ∃ pipeup prms, s.pc a.tid = .acquire k pipeup prms)) ∨
    ((s'.shm.node k).state = .idle ∧ (s.pc a.tid = .isPrevPipeNodeBlocked k ∧ (s'.pc a.tid).beyond = some k ∨
      ∃ prms, s.pc a.tid = .markComplete k prms ∧ (G.table.node k).isSome = true)) := by
  have hupdate : ∀ (n : NodeId) (N : Node), N.state = (s.shm.node n).state →
      (Function.update s.shm.node n N k).state = (s.shm.node k).state := by
    intro n N hN
    rw [Function.update_apply]
    split
    · rename_i hk
      rw [hN, hk]
    · rfl
  cases hs with
  | @parked t m M m' hpc hM hm =>
    obtain ⟨h, -⟩ | ⟨j, -, -, hi, -, h⟩ | ⟨j, -, -, -, h⟩ := isPrevPipeNodeBlocked_cases G.table m M s.shm <;>
      rw [h] at hm <;> cases hm
    by_cases hk : k = m
    · subst hk
      refine .inr (.inl ⟨?_, by rw [hM]; rfl, .inl hpc⟩)
      simp only [Sys.setPc, Sys.log, parkOn, Function.update_apply]
      split
      · rename_i hj
        simp [hj]
      · simp
    · left
      simp only [Sys.setPc, Sys.log, parkOn, Function.update_apply]
      split
      · rename_i hj
        rw [← hj, if_neg hk]
      · rfl
  | @proceeded t m M m' hpc hM hm =>
    obtain ⟨h, -⟩ | ⟨j, -, -, hi, -, h⟩ | ⟨j, -, -, -, h⟩ := isPrevPipeNodeBlocked_cases G.table m M s.shm <;>
      rw [h] at hm <;> cases hm
    · exact .inl rfl
    · by_cases hk : k = m
      · subst hk
        exact .inr (.inr ⟨by simp [Sys.setPc, Sys.log], .inl ⟨hpc, by simp [Act.tid, Sys.setPc, Pc.beyond]⟩⟩)
      · left
        simp only [Sys.setPc, Sys.log, Function.update_of_ne hk]
  | @acquirePrm t m M pipeup prms P D hpc hM hP hq hD =>
    have hx : ((afterAcquire s t m pipeup prms P.dataRefQId D (ownTargetNodeDescAcquireParameter m P.dataRefQId D
        (decide (0 < pipeup)) s.shm)).shm.node k).state = ((ownTargetNodeDescAcquireParameter m P.dataRefQId D
        (decide (0 < pipeup)) s.shm).1.node k).state := by
      unfold afterAcquire
      split
      · rfl
      · split <;> rfl
    rw [hx]
    by_cases hk : k = m
    · subst hk
      unfold ownTargetNodeDescAcquireParameter
      split
      · exact .inl rfl
      · simp only
        split
        · split
          · exact .inl rfl
          · split
            · exact .inl rfl
            · exact .inr (.inl ⟨by simp, by rw [hM]; rfl, .inr ⟨pipeup, prms, hpc⟩⟩)
        · split <;> exact .inl rfl
    · left
      unfold ownTargetNodeDescAcquireParameter
      split
      · rfl
      · simp only
        split
        · split
          · rfl
          · split
            · rfl
            · simp only [Function.update_of_ne hk]
        · split <;> rfl
  | @acquireInvalid t m M pipeup prms hpc hM hP hall =>
    by_cases hk : k = m
    · subst hk
      exact .inr (.inl ⟨by simp [Sys.setPc, Sys.setNode], by rw [hM]; rfl, .inr ⟨pipeup, prms, hpc⟩⟩)
    · left
      simp only [Sys.setPc, Sys.setNode, Function.update_of_ne hk]
  | @markComplete t m M prms hpc hM =>
    by_cases hk : k = m
    · subst hk
      exact .inr (.inr ⟨by simp [Sys.setPc, Sys.log, ownTargetNodeDescNodeMarkComplete], .inr ⟨prms, hpc, by rw [hM]; rfl⟩⟩)
    · left
      simp only [Sys.setPc, Sys.log, ownTargetNodeDescNodeMarkComplete, Function.update_of_ne hk]
  | releasePrm hpc hN hP hq hD hR hE =>
    left
    rw [hR]
    rfl
  | clearState hpc hi => exact .inl (hupdate _ _ rfl)
  | kernelSteady hpc hN hk => exact .inl (hupdate _ _ rfl)
  | _ => exact .inl rfl

/-- A thread past the look at the previous instance goes on with the node, blocks it or completes it. -/
theorem beyond_of_step (hs : Step G s a s') (hN : (G.table.node n).isSome = true) (h : (s.pc a.tid).beyond = some n) :
    (s'.pc a.tid).beyond = some n ∨ (s'.shm.node n).state = .blocked ∨ ∃ prms, s.pc a.tid = .markComplete n prms := by
  cases hs with
  | noNode hpc hN' =>
    rw [Act.tid] at h
    have := Pc.nodeId_of_works (Pc.works_of_passed (Pc.passed_of_beyond h))
    rw [hpc] at this
    cases this
    rw [hN'] at hN
    cases hN
  | @markComplete t m M prms hpc hM =>
    rw [Act.tid, hpc] at h
    cases h
    exact .inr (.inr ⟨prms, hpc⟩)
  | @acquirePrm t m M pipeup prms P D hpc hM hP hq hD =>
    rw [Act.tid, hpc] at h
    cases h
    unfold afterAcquire
    split
    · rename_i hb
      obtain ⟨Q, hQ, he⟩ := acquireParameter_blocked hb
      refine .inr (.inl ?_)
      simp [Sys.setPc, Sys.log, he]
    · split <;> exact .inl (by simp [Act.tid, Sys.setPc, Sys.log, Pc.beyond])
  | @acquireInvalid t m M pipeup prms hpc hM hP hall =>
    rw [Act.tid, hpc] at h
    cases h
    exact .inr (.inl (by simp [Sys.setPc, Sys.setNode]))
  | acquireData ref hpc =>
    rw [Act.tid, hpc] at h
    cases h
    exact .inl (by simp [Act.tid, Sys.setPc, Pc.beyond])
  | acquireEnd hpc =>
    rw [Act.tid, hpc] at h
    cases h
    exact .inl (by simp [Act.tid, Sys.setPc, Pc.beyond])
  | kernel hpc =>
    rw [Act.tid, hpc] at h
    cases h
    exact .inl (by simp [Act.tid, Sys.setPc, Pc.beyond])
  | kernelSteady hpc =>
    rw [Act.tid, hpc] at h
    cases h
    exact .inl (by simp [Act.tid, Sys.setPc, Pc.beyond])
  | kernelPipeup hpc =>
    rw [Act.tid, hpc] at h
    cases h
    exact .inl (by simp [Act.tid, Sys.setPc, Pc.beyond])
  | _ => simp only [Act.tid, *, Pc.beyond, reduceCtorEq] at h

/-- **The nodes that wait**: those parked at an instance that is blocked or worked on, one after the other; those that
are blocked, with a trigger in flight; and those recorded on a queue of one of their parameters. -/
structure Waits (G : Graph) (s : Sys) : Prop where
  parked : ∀ k n, (s.shm.node k).blockedNodeId = some n →
    ∃ N, G.table.node n = some N ∧ N.prevPipeNodeId = some k
  previous : ∀ k n, (s.shm.node k).blockedNodeId = some n → (G.table.node k).isSome = true ∧
    ((s.shm.node k).state = .blocked ∨ ∃ t, (s.pc t).beyond = some k)
  blocked : ∀ k, (s.shm.node k).state = .blocked →
    (G.table.node k).isSome = true ∧ (s.shm.node k).isExecuted = false ∧ InFlight G s k
  order : ∃ rank : NodeId → Nat, ∀ k n, (s.shm.node k).blockedNodeId = some n → rank k < rank n
  recorded : ∀ q n, n ∈ s.shm.queue.blockedOn q → (G.table.node n).isSome = true ∧
    ∃ i dq D, G.prmQueue n i = some (dq, D) ∧ D.acquireQObjDescId = q

/-- A step other than the completion of a node leaves its flag as it is, or clears it. -/
theorem not_executed_kept (hs : Step G s a s') (hx : (s.shm.node n).isExecuted = false)
    (h : ∀ prms, s.pc a.tid ≠ .markComplete n prms) : (s'.shm.node n).isExecuted = false := by
  rcases isExecuted_of_step hs n with he | ⟨prms, b, hpc, -⟩ | ⟨left, -, -, he⟩
  · rw [he, hx]
  · exact absurd hpc (h prms)
  · exact he

section Waits

variable (hG : G.Startable) (hF : Flags G s) (hP : Placed G s) (hQ : Waits G s) (hf : triggersFit G s a = true)
  (hs : Step G s a s')

include hQ hs in
theorem parked_stays (k n : NodeId) (h : (s'.shm.node k).blockedNodeId = some n) :
    ∃ N, G.table.node n = some N ∧ N.prevPipeNodeId = some k := by
  rcases blockedNodeId_of_step hs k with he | ⟨m, M, -, hM, hk, -, -, -, he⟩ | ⟨prms, -, -, he⟩
  · exact hQ.parked k n (by rw [← he, h])
  · rw [he] at h
    cases h
    exact ⟨M, hM, hk⟩
  · rw [he] at h
    cases h

include hQ hs in
theorem previous_stays (k n : NodeId) (h : (s'.shm.node k).blockedNodeId = some n) :
    (G.table.node k).isSome = true ∧ ((s'.shm.node k).state = .blocked ∨ ∃ t, (s'.pc t).beyond = some k) := by
  have hdone : ∀ prms, (G.table.node k).isSome = true → s.pc a.tid ≠ .markComplete k prms := by
    intro prms hk hpc
    obtain ⟨K, hK⟩ := Option.isSome_iff_exists.1 hk
    rw [(markComplete_spec hs hpc hK).2] at h
    cases h
  have hblocked : (G.table.node k).isSome = true → (s.shm.node k).state = .blocked →
      (s'.shm.node k).state = .blocked ∨ ∃ t, (s'.pc t).beyond = some k := by
    intro hk hb
    rcases state_of_step hs k with he | ⟨he, -⟩ | ⟨-, ⟨-, he⟩ | ⟨prms, hpc, -⟩⟩
    · exact .inl (by rw [he, hb])
    · exact .inl he
    · exact .inr ⟨a.tid, he⟩
    · exact absurd hpc (hdone prms hk)
  rcases blockedNodeId_of_step hs k with he | ⟨m, M, -, -, -, hk, -, hb, -⟩ | ⟨prms, -, -, he⟩
  · obtain ⟨hk, hb | ⟨t, ht⟩⟩ := hQ.previous k n (by rw [← he, h])
    · exact ⟨hk, hblocked hk hb⟩
    · refine ⟨hk, ?_⟩
      by_cases hta : t = a.tid
      · subst hta
        rcases beyond_of_step hs hk ht with ht | hb | ⟨prms, hpc⟩
        · exact .inr ⟨_, ht⟩
        · exact .inl hb
        · exact absurd hpc (hdone prms hk)
      · exact .inr ⟨t, by rw [pc_of_step_ne hs hta, ht]⟩
  · exact ⟨hk, hblocked hk hb⟩
  · rw [he] at h
    cases h

include hG hF hP hQ hf hs in
theorem blocked_stays (k : NodeId) (h : (s'.shm.node k).state = .blocked) :
    (G.table.node k).isSome = true ∧ (s'.shm.node k).isExecuted = false ∧ InFlight G s' k := by
  have hdone : ∀ prms, (G.table.node k).isSome = true → s.pc a.tid ≠ .markComplete k prms := by
    intro prms hk hpc
    obtain ⟨K, hK⟩ := Option.isSome_iff_exists.1 hk
    rw [(markComplete_spec hs hpc hK).1] at h
    cases h
  have hkept : (G.table.node k).isSome = true → (s.shm.node k).isExecuted = false → InFlight G s k →
      (s'.shm.node k).isExecuted = false ∧ InFlight G s' k := by
    intro hk hx hin
    obtain ⟨K, hK⟩ := Option.isSome_iff_exists.1 hk
    have hx' := not_executed_kept hs hx (fun prms => hdone prms hk)
    exact ⟨hx', hin.kept hG hs hf hP.node hQ.parked hK hx hx'⟩
  rcases state_of_step hs k with he | ⟨-, hk, hpc⟩ | ⟨he, -⟩
  · obtain ⟨hk, hx, hin⟩ := hQ.blocked k (by rw [← he, h])
    exact ⟨hk, hkept hk hx hin⟩
  · have hpass : (s.pc a.tid).passed = some k := by
      obtain hpc | ⟨pipeup, prms, hpc⟩ := hpc <;> rw [hpc] <;> rfl
    exact ⟨hk, hkept hk (hF.active _ k hpass hk) (.working (Pc.works_of_passed hpass))⟩
  · rw [he] at h
    cases h

include hQ hs in
/-- A node is parked where no other is parked at it, so the parked nodes stay in order. -/
theorem order_stays (hO : OnTarget G s) :
    ∃ rank : NodeId → Nat, ∀ k n, (s'.shm.node k).blockedNodeId = some n → rank k < rank n := by
  obtain ⟨rank, hrank⟩ := hQ.order
  by_cases hpark : ∃ n N k, s.pc a.tid = .isPrevPipeNodeBlocked n ∧ G.table.node n = some N ∧
      N.prevPipeNodeId = some k ∧ (s.shm.node n).state = .idle ∧ (s.shm.node k).state = .blocked
  · obtain ⟨n, N, k, hpc, hN, hk, hi, hb⟩ := hpark
    have hkn : k ≠ n := by
      rintro rfl
      rw [hi] at hb
      cases hb
    have hnone : ∀ m, (s.shm.node n).blockedNodeId ≠ some m := by
      intro m hm
      obtain ⟨-, hb' | ⟨t, ht⟩⟩ := hQ.previous n m hm
      · rw [hi] at hb'
        cases hb'
      · -- only the target of node `n` works on it, and it stands before the look
        have h₁ := hO.pc (Pc.nodeId_of_works (Pc.works_of_passed (Pc.passed_of_beyond ht))) hN
        have h₂ := hO.pc (t := a.tid) (n := n) (by rw [hpc]; rfl) hN
        rw [h₁, ← h₂, hpc] at ht
        cases ht
    have hold : ∀ j m, (s'.shm.node j).blockedNodeId = some m → (s.shm.node j).blockedNodeId = some m ∨ m = n ∧ j = k := by
      intro j m hm
      rcases blockedNodeId_of_step hs j with he | ⟨m', M, hpc', hM, hj, -, -, -, he⟩ | ⟨prms, -, -, he⟩
      · exact .inl (by rw [← he, hm])
      · rw [hpc] at hpc'
        cases hpc'
        rw [hN] at hM
        cases hM
        rw [hk] at hj
        rw [he] at hm
        exact .inr ⟨(Option.some.inj hm).symm, (Option.some.inj hj).symm⟩
      · rw [he] at hm
        cases hm
    refine ⟨Function.update rank n (rank k + 1), fun j m hm => ?_⟩
    rcases hold j m hm with h | ⟨rfl, rfl⟩
    · have hjn : j ≠ n := by
        rintro rfl
        exact hnone m h
      rw [Function.update_of_ne hjn, Function.update_apply]
      split
      · rename_i hmn
        subst hmn
        obtain ⟨M, hM, hj⟩ := hQ.parked j m h
        rw [hN] at hM
        cases hM
        rw [hk] at hj
        cases hj
        exact Nat.lt_succ_self _
      · exact hrank j m h
    · rw [Function.update_of_ne hkn, Function.update_self]
      exact Nat.lt_succ_self _
  · refine ⟨rank, fun j m hm => ?_⟩
    rcases blockedNodeId_of_step hs j with he | ⟨m', M, hpc, hM, hj, -, hi, hb, -⟩ | ⟨prms, -, -, he⟩
    · exact hrank j m (by rw [← he, hm])
    · exact absurd ⟨m', M, j, hpc, hM, hj, hi, hb⟩ hpark
    · rw [he] at hm
      cases hm

include hQ hs in
theorem recorded_stays (q : Nat) (n : NodeId) (h : n ∈ s'.shm.queue.blockedOn q) : (G.table.node n).isSome = true ∧
    ∃ i dq D, G.prmQueue n i = some (dq, D) ∧ D.acquireQObjDescId = q := by
  cases hs with
  | parked hpc hN hm =>
    simp only [Sys.setPc, Sys.log, (isPrevPipeNodeBlocked_queue hm).1] at h
    exact hQ.recorded q n h
  | proceeded hpc hN hm =>
    simp only [Sys.setPc, Sys.log, (isPrevPipeNodeBlocked_queue hm).1] at h
    exact hQ.recorded q n h
  | @acquirePrm t m M pipeup prms P D hpc hM hP hq hD =>
    have hx : ((afterAcquire s t m pipeup prms P.dataRefQId D (ownTargetNodeDescAcquireParameter m P.dataRefQId D
        (decide (0 < pipeup)) s.shm)).shm) = (ownTargetNodeDescAcquireParameter m P.dataRefQId D
        (decide (0 < pipeup)) s.shm).1 := by
      unfold afterAcquire
      split
      · rfl
      · split <;> rfl
    rw [hx] at h
    by_cases hb : (ownTargetNodeDescAcquireParameter m P.dataRefQId D (decide (0 < pipeup)) s.shm).2.2 = true
    · obtain ⟨Q, hQb, he⟩ := acquireParameter_blocked hb
      rw [he] at h
      simp only [hQb, Function.update_apply] at h
      split at h
      · rename_i hqa
        rw [List.mem_append, List.mem_singleton] at h
        rcases h with h | rfl
        · exact hQ.recorded q n (by rw [hqa]; exact h)
        · exact ⟨by rw [hM]; rfl, prms.length, P.dataRefQId, D, prmQueue_eq hM hP hq hD, hqa.symm⟩
      · exact hQ.recorded q n h
    · rw [acquireParameter_notBlocked (by simpa using hb)] at h
      exact hQ.recorded q n h
  | releasePrm hpc hN hP hq hD hR hE =>
    simp only [Sys.setPc, Sys.log, hR] at h
    exact hQ.recorded q n (releaseParameter_subset q n h)
  | @enqueued u g ref P Q hpc hP hr hE =>
    obtain ⟨-, -, hb, -⟩ := extractBlockedNodes_spec Q P.readyQ []
    rw [(enqueue_eq_some hE).2.1] at hb
    simp only [Sys.setPc, Sys.log, hb, Function.update_apply] at h
    split at h
    · cases h
    · exact hQ.recorded q n h
  | @dequeued u g P ref Q hpc hP hd hr =>
    obtain ⟨-, hd'⟩ | ⟨y, l, Q', -, hd', -, hb, -⟩ := dequeue_cases s.shm.queue P.doneQ <;> rw [hd] at hd' <;> cases hd'
    · exact hQ.recorded q n h
    · simp only [Sys.log, hb] at h
      exact hQ.recorded q n h
  | _ => exact hQ.recorded q n h

end Waits

/-- **A ready node is on its way**: in a run, a node whose in-nodes are executed has a trigger in flight, or a thread has
it before it. -/
def Triggered (G : Graph) (s : Sys) : Prop :=
  ∀ n N, G.table.node n = some N → Running s n.pipe → (s.shm.node n).isExecuted = false →
    (∀ k ∈ N.inNodeId, (s.shm.node k).isExecuted = true) → InFlight G s n ∨ Owed G s n

/-- A run is on from the end of the clearing, with all its flags cleared. -/
theorem running_begins (hW : G.Wired) (hF : Flags G s) (hs : Step G s a s') {p : Nat} (h' : Running s' p)
    (h : ¬ Running s p) : (∃ left, s'.pc a.tid = .scheduleHeads p left 0) ∧
      ∀ n, n.pipe = p → (G.table.node n).isSome = true → (s'.shm.node n).isExecuted = false := by
  cases hl : live p s.trace with
  | false =>
    exfalso
    have hl' := h'.1
    rcases runs_of_step hs with ⟨hr, -⟩ | ⟨q, ⟨left, -, hpc⟩, -, ht⟩ | ⟨n, hn⟩ | ⟨n, b, ⟨pipeup, prms₀, -, ht⟩, -, -, -⟩
    · rw [hr.live, hl] at hl'
      cases hl'
    · rw [ht] at hl'
      by_cases hq : q = p
      · exact h'.2 0 ⟨a.tid, left, by rw [hpc, hq]⟩
      · simp [live, hq, hl] at hl'
    · rw [hn.trace] at hl'
      simp [live, hl] at hl'
    · rw [ht] at hl'
      simp [live, hl] at hl'
  | true =>
    have hc : ∃ i, Clearing s p i := by
      by_contra hc
      exact h ⟨hl, fun i hi => hc ⟨i, hi⟩⟩
    obtain ⟨i, hi⟩ := hc
    obtain ⟨left, hpc, hlast⟩ := clearing_ends hs hi h'.2
    refine ⟨⟨left, ((clearState_of_step hs hpc).resolve_left (fun h => hlast h.1)).2⟩, fun n hp hn => ?_⟩
    have hlt := ((hW.node_isSome n).1 hn).1
    have hx := (hF.cleared p i hi n hp hn (by omega)).1
    exact not_executed_kept hs hx (fun prms hm => by rw [hpc] at hm; cases hm)

theorem Triggered.kept (hW : G.Wired) (hG : G.Startable) (hF : Flags G s) (hP : Placed G s) (hQ : Waits G s)
    (hT : Triggered G s) (hf : triggersFit G s a = true) (hs : Step G s a s') : Triggered G s' := by
  intro n N hN hrun hx' hin
  have hn : (G.table.node n).isSome = true := by rw [hN]; rfl
  by_cases hold : Running s n.pipe
  · have hclear : ∀ k : NodeId, k.pipe = n.pipe → ∀ left, s.pc a.tid ≠ .clearState k.pipe left k.node :=
      fun k hk left hpc => hold.2 k.node ⟨_, left, by rw [← hk, hpc]⟩
    have hx : (s.shm.node n).isExecuted = false := by
      cases hx : (s.shm.node n).isExecuted with
      | false => rfl
      | true =>
        rw [isExecuted_kept hs hx (hclear n rfl)] at hx'
        cases hx'
    by_cases hready : ∀ k ∈ N.inNodeId, (s.shm.node k).isExecuted = true
    · rcases hT n N hN hold hx hready with h | h
      · exact .inl (h.kept hG hs hf hP.node hQ.parked hN hx hx')
      · exact h.kept hW hs hf hN hready
    · -- the last of the in-nodes is completed by this step
      push Not at hready
      obtain ⟨k, hk, hkx⟩ := hready
      obtain ⟨hkp, K, hK, hout⟩ := hW.inNode n N k hN hk
      rcases isExecuted_of_step hs k with he | ⟨prms, b, -, hpc, -⟩ | ⟨left, hpc, -, -⟩
      · rw [hin k hk] at he
        exact absurd he.symm hkx
      · obtain ⟨j, hj⟩ := List.getElem?_of_mem hout
        exact .inr (.next (t := a.tid) (m := k) (i := 0) (by rw [hpc]; rfl) hK (Nat.zero_le j) hj)
      · exact absurd hpc (hclear k hkp left)
  · obtain ⟨⟨left, hpc⟩, hall⟩ := running_begins hW hF hs hrun hold
    have hnil : N.inNodeId = [] := by
      cases hl : N.inNodeId with
      | nil => rfl
      | cons k l =>
        have hk : k ∈ N.inNodeId := by rw [hl]; exact List.mem_cons_self
        obtain ⟨hkp, K, hK, -⟩ := hW.inNode n N k hN hk
        have := hall k hkp (by rw [hK]; rfl)
        rw [hin k hk] at this
        cases this
    obtain ⟨j, hj⟩ := List.getElem?_of_mem (hG.head n N hN hnil)
    exact .inr (.head (t := a.tid) (i := 0) hpc (Nat.zero_le j) hj)

/-- The node a thread has completed and not yet told the host. -/
def Pc.untold : Pc → Option NodeId
  | .release n _ _ _ | .retrigger n _ _ _ _ _ | .sendComplete n _ => some n
  | _ => none

/-- A completion on the way is in the queue of the host, with the host, or with the target of the node. -/
theorem tokens_ne_zero : tokens G s n N ≠ 0 ↔ .nodeUserCallback n ∈ s.jobQ G.hostTarget ∨
    s.pc (.target G.hostTarget) = .checkGraphCompleted n ∨ (s.pc (.target N.targetId)).untold = some n := by
  have hc : (s.pc (.target G.hostTarget)).checks n ≠ 0 ↔ s.pc (.target G.hostTarget) = .checkGraphCompleted n := by
    cases s.pc (.target G.hostTarget) <;> simp [Pc.checks]
  have hr : (s.pc (.target N.targetId)).sends n ≠ 0 ↔ (s.pc (.target N.targetId)).untold = some n := by
    cases s.pc (.target N.targetId) <;> simp [Pc.sends, Pc.untold]
  rw [← hc, ← hr, ← List.count_pos_iff]
  unfold tokens
  omega

/-- A completion stays on the way until the host counts it. -/
theorem tokens_kept (hf : triggersFit G s a = true) (hs : Step G s a s')
    (hN : G.table.node n = some N) (ho : N.outNodeId = []) (hc : s.pc a.tid ≠ .checkGraphCompleted n)
    (h : tokens G s n N ≠ 0) : tokens G s' n N ≠ 0 := by
  rw [tokens_ne_zero] at h ⊢
  rcases h with h | h | h
  · -- the host takes the completion, and goes on to count it
    have hsend : ∀ k, .nodeUserCallback n ∈ ownTargetTriggerNode G.table s.jobQ k G.hostTarget :=
      fun k => mem_ownTargetTriggerNode_of_mem h k
    cases hs with
    | takeNode hpc hq => exact .inl ((mem_update_tail_or hq h).resolve_right (fun h => by cases h.1))
    | takeConsumed hpc hq => exact .inl ((mem_update_tail_or hq h).resolve_right (fun h => by cases h.1))
    | takeCallback pc hpc hq hcb =>
      rcases mem_update_tail_or hq h with h | ⟨h, hid⟩
      · exact .inl h
      · cases h
        obtain ⟨rfl, -⟩ | ⟨rfl, hno⟩ := hcb
        · exact .inr (.inl (by rw [hid]; exact Function.update_self _ _ _))
        · exact absurd ho (hno N hN)
    | retrigger => exact .inl (hsend _)
    | sendNext => exact .inl (hsend _)
    | triggerBlocked => exact .inl (hsend _)
    | userRetrigger => exact .inl (hsend _)
    | scheduleHead => exact .inl (hsend _)
    | refConsumed dq send hpc hN =>
      left
      simp only [Sys.setPc]
      split
      · exact mem_ownObjDescSend_of_mem h _
      · exact h
    | sendComplete hpc hN =>
      left
      simp only [Sys.setPc]
      split
      · exact mem_ownObjDescSend_of_mem h _
      · exact h
    | acquirePrm hpc hN hP hq hD =>
      left
      unfold afterAcquire
      split
      · exact h
      · split <;> exact h
    | _ => exact .inl h
  · by_cases ht : Tid.target G.hostTarget = a.tid
    · rw [ht] at h
      exact absurd h hc
    · exact .inr (.inl (by rw [pc_of_step_ne hs ht, h]))
  · by_cases ht : Tid.target N.targetId = a.tid
    · rw [ht] at h ⊢
      cases hs with
      | noNode hpc hN' =>
        exfalso
        rw [Act.tid] at h
        generalize s.pc _ = pc at h hpc
        cases pc <;> cases h <;> cases hpc <;> rw [hN] at hN' <;> cases hN'
      | @sendComplete t m M b hpc hM =>
        rw [Act.tid, hpc] at h
        cases h
        rw [hN] at hM
        cases hM
        simp only [triggersFit, hpc, decide_eq_true_eq] at hf
        refine .inl ?_
        simp only [Sys.setPc, ho, List.isEmpty_nil, Bool.or_true, if_true]
        exact mem_ownObjDescSend_self hf
      | releaseData hpc =>
        rw [Act.tid, hpc] at h
        cases h
        exact .inr (.inr (by simp [Act.tid, Sys.setPc, Pc.untold]))
      | releasePrm hpc =>
        rw [Act.tid, hpc] at h
        cases h
        exact .inr (.inr (by simp [Act.tid, Sys.setPc, Pc.untold]))
      | releaseEnd hpc =>
        rw [Act.tid, hpc] at h
        cases h
        exact .inr (.inr (by simp [Act.tid, Sys.setPc, Pc.untold]))
      | retrigger hpc =>
        rw [Act.tid, hpc] at h
        cases h
        exact .inr (.inr (by simp [Act.tid, Sys.setPc, Pc.untold]))
      | refConsumed dq send hpc =>
        rw [Act.tid, hpc] at h
        cases h
        exact .inr (.inr (by simp [Act.tid, Sys.setPc, Pc.untold]))
      | _ => simp only [Act.tid, *, Pc.untold, reduceCtorEq] at h
    · exact .inr (.inr (by rw [pc_of_step_ne hs ht, h]))

/-- **The leaf nodes are counted**: in a run, those that are executed and have no completion on the way, and not all. -/
structure CountsFlags (G : Graph) (s : Sys) : Prop where
  done : ∀ p < G.pipelineDepth, Running s p → ∃ S : Finset Nat, S.card ≤ s.completeLeafNodes p ∧
    ∀ i N, G.table.node ⟨i, p⟩ = some N → N.outNodeId = [] → (s.shm.node ⟨i, p⟩).isExecuted = true →
      tokens G s ⟨i, p⟩ N = 0 → i ∈ S
  lt : ∀ p < G.pipelineDepth, s.completeLeafNodes p < G.numLeafNodes

theorem CountsFlags.kept (hW : G.Wired) (hO : OnTarget G s) (hF : Flags G s) (hC : CountsFlags G s)
    (hf : triggersFit G s a = true) (hs : Step G s a s') : CountsFlags G s' := by
  refine ⟨fun p hp hrun => ?_, fun p hp => ?_⟩
  · by_cases hold : Running s p
    · obtain ⟨S, hS, hmem⟩ := hC.done p hp hold
      -- a leaf node that has no completion on the way had none, unless the host counts it
      have hstays : ∀ i N, G.table.node ⟨i, p⟩ = some N → N.outNodeId = [] →
          (s'.shm.node ⟨i, p⟩).isExecuted = true → tokens G s' ⟨i, p⟩ N = 0 →
          s.pc a.tid ≠ .checkGraphCompleted ⟨i, p⟩ → i ∈ S := by
        intro i N hN ho hx h0 hc
        have h0' : tokens G s ⟨i, p⟩ N = 0 := by
          by_contra hne
          exact tokens_kept hf hs hN ho hc hne h0
        refine hmem i N hN ho ?_ h0'
        rcases isExecuted_of_step hs ⟨i, p⟩ with he | ⟨prms, b, hpc, hpc', -⟩ | ⟨left, -, -, he⟩
        · rw [← he, hx]
        · have ht := hO.pc (t := a.tid) (n := ⟨i, p⟩) (by rw [hpc]; rfl) hN
          rw [ht] at hpc'
          exact absurd h0 (tokens_ne_zero.2 (.inr (.inr (by rw [hpc']; rfl))))
        · rw [hx] at he
          cases he
      rcases completeLeafNodes_of_step hs with ⟨hc, hno⟩ | ⟨n, hpc, hc, -⟩ | ⟨n, hn, hc⟩
      · exact ⟨S, by rw [hc]; exact hS, fun i N hN ho hx h0 => hstays i N hN ho hx h0 (hno _)⟩
      · by_cases hnp : n.pipe = p
        · subst hnp
          refine ⟨insert n.node S, ?_, fun i N hN ho hx h0 => ?_⟩
          · rw [hc, Function.update_self]
            exact (Finset.card_insert_le _ _).trans (Nat.succ_le_succ hS)
          · by_cases hi : i = n.node
            · rw [hi]
              exact Finset.mem_insert_self _ _
            · refine Finset.mem_insert_of_mem (hstays i N hN ho hx h0 (fun h => hi ?_))
              rw [hpc] at h
              exact (congrArg NodeId.node (Pc.checkGraphCompleted.inj h)).symm
        · refine ⟨S, by rw [hc, Function.update_of_ne (Ne.symm hnp)]; exact hS, fun i N hN ho hx h0 => ?_⟩
          refine hstays i N hN ho hx h0 (fun h => hnp ?_)
          rw [hpc] at h
          cases h
          rfl
      · by_cases hnp : n.pipe = p
        · exfalso
          have := hrun.1
          rw [hn.trace] at this
          simp [live, hnp] at this
        · refine ⟨S, by rw [hc, Function.update_of_ne (Ne.symm hnp)]; exact hS, fun i N hN ho hx h0 => ?_⟩
          refine hstays i N hN ho hx h0 (fun h => hnp ?_)
          rw [hn.move] at h
          cases h
          rfl
    · obtain ⟨-, hall⟩ := running_begins hW hF hs hrun hold
      refine ⟨∅, Nat.zero_le _, fun i N hN ho hx h0 => ?_⟩
      have := hall ⟨i, p⟩ rfl (by rw [hN]; rfl)
      rw [hx] at this
      cases this
  · have hlt := hC.lt p hp
    cases hs with
    | @notCompleted t n hpc hl hc =>
      simp only [Sys.setPc, Function.update_apply]
      split
      · rename_i hnp
        subst hnp
        omega
      · exact hlt
    | @completed t n hpc hl hc =>
      simp only [Sys.setPc, Function.update_apply]
      split
      · omega
      · exact hlt
    | acquirePrm hpc hN hP hq hD =>
      unfold afterAcquire
      split
      · exact hlt
      · split <;> exact hlt
    | _ => exact hlt

/-- **What is known of the triggers** of a graph. -/
structure Awake (G : Graph) (s : Sys) : Prop where
  placed : Placed G s
  waits : Waits G s
  triggered : Triggered G s
  counted : CountsFlags G s
  lt : ∀ p, live p s.trace = true → p < G.pipelineDepth

theorem lt_kept (hS : Scheduling G s) (h : ∀ p, live p s.trace = true → p < G.pipelineDepth) (hs : Step G s a s') (p : Nat)
    (hp : live p s'.trace = true) : p < G.pipelineDepth := by
  rcases runs_of_step hs with ⟨hr, -⟩ | ⟨q, -, hf, ht⟩ | ⟨n, hn⟩ | ⟨n, b, ⟨pipeup, prms₀, -, ht⟩, -, -, -⟩
  · exact h p (by rw [← hr.live, hp])
  · rw [ht] at hp
    simp only [live, Bool.or_eq_true, decide_eq_true_eq] at hp
    rcases hp with rfl | hp
    · exact hS.lt q (by rw [hf]; exact List.mem_cons_self)
    · exact h p hp
  · rw [hn.trace] at hp
    simp only [live, Bool.and_eq_true] at hp
    exact h p hp.2
  · rw [ht] at hp
    exact h p hp

theorem Awake.kept (hW : G.Wired) (hG : G.Startable) (hT : Tracked G s) (hA : Awake G s) (hc : KeepsTriggers G s a)
    (hs : Step G s a s') : Awake G s' where
  placed := hA.placed.kept hs
  waits :=
    { parked := parked_stays hA.waits hs
      previous := previous_stays hA.waits hs
      blocked := blocked_stays hG hT.flags hA.placed hA.waits hc.fits hs
      order := order_stays hA.waits hs hT.onTarget
      recorded := recorded_stays hA.waits hs }
  triggered := hA.triggered.kept hW hG hT.flags hA.placed hA.waits hc.fits hs
  counted := hA.counted.kept hW hT.onTarget hT.flags hc.fits hs
  lt := lt_kept hT.scheduling hA.lt hs

/-- A graph with a node has a leaf node. -/
theorem numLeafNodes_pos (hW : G.Wired) (hG : G.Startable) {p : Nat} (hp : p < G.pipelineDepth) : 0 < G.numLeafNodes := by
  obtain ⟨rank, hrank⟩ := hW.acyclic
  obtain ⟨i, hi, hmax⟩ := Finset.exists_max_image (Finset.range G.numNodes) rank ⟨0, Finset.mem_range.2 hG.numNodes⟩
  rw [← hW.numLeafNodes p hp, Finset.card_pos]
  refine ⟨i, Finset.mem_filter.2 ⟨hi, isLeaf_iff.2 ?_⟩⟩
  obtain ⟨N, hN⟩ := Option.isSome_iff_exists.1 ((hW.node_isSome ⟨i, p⟩).2 ⟨Finset.mem_range.1 hi, hp⟩)
  refine ⟨N, hN, ?_⟩
  cases ho : N.outNodeId with
  | nil => rfl
  | cons k l =>
    obtain ⟨-, K, hK, hin⟩ := hW.outNode _ N k hN (by rw [ho]; exact List.mem_cons_self)
    have h₁ := hrank k K _ hK hin
    have h₂ := hmax k.node (Finset.mem_range.2 ((hW.node_isSome k).1 (by rw [hK]; rfl)).1)
    exact absurd h₁ (Nat.not_lt.2 h₂)

theorem Starts.awake (hW : G.Wired) (hG : G.Startable) (h : Starts G s) : Awake G s := by
  have hlive : ∀ p, live p s.trace = false := fun p => by rw [h.trace]; rfl
  refine ⟨⟨fun t n hn => ?_, fun id j hj => ?_, fun t => ?_, fun t ht => ?_⟩, ⟨fun k n hk => ?_, fun k n hk => ?_,
    fun k hk => ?_, ⟨fun _ => 0, fun k n hk => ?_⟩, fun q n hn => ?_⟩, fun n N _ hrun => ?_, ⟨fun p _ hrun => ?_, fun p hp => ?_⟩,
    fun p hp => ?_⟩
  · rw [h.pc] at hn; cases hn
  · rw [h.jobQ] at hj; cases hj
  · rw [h.pc]; trivial
  · rw [h.lock] at ht; cases ht
  · rw [h.blockedNodeId] at hk; cases hk
  · rw [h.blockedNodeId] at hk; cases hk
  · rw [h.state] at hk; cases hk
  · rw [h.blockedNodeId] at hk; cases hk
  · rw [h.blockedOn] at hn; cases hn
  · have := hrun.1
    rw [hlive] at this
    cases this
  · have := hrun.1
    rw [hlive] at this
    cases this
  · rw [h.completeLeafNodes]
    exact numLeafNodes_pos hW hG hp
  · rw [hlive] at hp; cases hp

end Tiovx
