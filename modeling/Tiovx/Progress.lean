import Tiovx.Awake
/-!
# Progress — a graph that stands still waits for a reference

When no thread can move while an instance runs, a node that is not executed is ready; it is recorded, or parked at an
instance that is blocked itself, and so on to one that is recorded on a queue without a reference.
-/
namespace Tiovx

open StepSystem

variable {G : Graph} {s : Sys}

/-- No thread can move, and no kernel is on. -/
structure Halted (G : Graph) (s : Sys) : Prop where
  thread : ∀ t, threadStep G s t = none
  kernel : ∀ t prms, kernelStep G s t prms = none

theorem kernelLeaves_self : ∀ {l : List Prm} {prms : List Nat}, prms.length = l.length → kernelLeaves l prms prms = true
  | [], [], _ => rfl
  | P :: l, x :: prms, h => by
    simp only [kernelLeaves, BEq.rfl, Bool.or_true, Bool.true_and]
    exact kernelLeaves_self (Nat.succ.inj h)

/-- **Where no thread can move** all threads are idle, and nothing is to be done. -/
theorem Halted.idle (hP : Placed G s) (h : Halted G s) : (∀ t, s.pc t = .idle) ∧ ∀ id, s.jobQ id = [] := by
  have hlock : s.lock = none := by
    cases hl : s.lock with
    | none => rfl
    | some t =>
      have hsch := hP.lock t hl
      have hno := h.thread t
      unfold threadStep at hno
      cases hpc : s.pc t <;> rw [hpc] at hsch hno <;> cases hsch <;> simp only [reduceCtorEq] at hno
      · split at hno <;> cases hno
      · split at hno <;> cases hno
  have hidle : ∀ t, s.pc t = .idle := by
    intro t
    have hno := h.thread t
    have hker := h.kernel t
    have hfit := hP.fits t
    unfold threadStep at hno
    unfold kernelStep at hker
    cases hpc : s.pc t <;> rw [hpc] at hno hker hfit <;> simp only [hlock, if_true, Pc.nodeId, reduceCtorEq] at hno
    case kernel n pipeup prms =>
      exfalso
      cases hN : G.table.node n with
      | none => simp [hN] at hno
      | some N =>
        have := hker prms
        simp only [hN, kernelLeaves_self (hfit N hN), if_true] at this
        split at this <;> cases this
    case sendNext n i b =>
      exfalso
      cases hN : G.table.node n with
      | none => simp [hN] at hno
      | some N =>
        obtain ⟨k, hk⟩ := Option.isSome_iff_exists.1 (hfit N hN)
        simp [hN, nodeStep, hk] at hno
    case isPrevPipeNodeBlocked n =>
      exfalso
      cases hN : G.table.node n with
      | none => simp [hN] at hno
      | some N =>
        simp only [hN, nodeStep] at hno
        split at hno <;> cases hno
    case triggerBlocked b => cases b <;> cases hno
    case userRetrigger l => cases l <;> cases hno
    case clearState p left i => split at hno <;> cases hno
    case scheduleHeads p left i => split at hno <;> cases hno
    all_goals
      simp only [nodeStep] at hno
      split at hno <;> cases hno
  refine ⟨hidle, fun id => ?_⟩
  have hno := h.thread (.target id)
  unfold threadStep at hno
  rw [hidle] at hno
  simp only [takeJob] at hno
  cases hq : s.jobQ id with
  | nil => rfl
  | cons j l =>
    rw [hq] at hno
    cases j with
    | node n => cases hno
    | dataRefConsumed dq => cases hno
    | nodeUserCallback n =>
      simp only at hno
      split at hno <;> cases hno

/-- A node that waits leads, from instance to previous instance, to one that is recorded. -/
theorem Halted.recorded (hA : Awake G s) (h : Halted G s) {k : NodeId} (hk : (G.table.node k).isSome = true)
    (hx : (s.shm.node k).isExecuted = false) (hin : InFlight G s k) :
    ∃ n q, (G.table.node n).isSome = true ∧ (s.shm.node n).isExecuted = false ∧ n ∈ s.shm.queue.blockedOn q := by
  obtain ⟨hidle, hjobs⟩ := h.idle hA.placed
  obtain ⟨rank, hrank⟩ := hA.waits.order
  -- by induction on the rank of the node: it is parked at an instance of a lower rank
  generalize hr : rank k = r
  induction r using Nat.strong_induction_on generalizing k with
  | _ r ih =>
    cases hin with
    | job h => rw [hjobs] at h; cases h
    | working h => rw [hidle] at h; cases h
    | inHand h => rw [hidle] at h; cases h
    | next hpc => rw [hidle] at hpc; cases hpc
    | @recorded q h => exact ⟨k, q, hk, hx, h⟩
    | @parked j h =>
      obtain ⟨-, hb | ⟨t, ht⟩⟩ := hA.waits.previous j k h
      · obtain ⟨hj, hjx, hjin⟩ := hA.waits.blocked j hb
        exact ih (rank j) (hr ▸ hrank j k h) hj hjx hjin rfl
      · rw [hidle] at ht
        cases ht

/-- A run in which nothing moves has a node that is not executed. -/
theorem Halted.not_allExecuted (hW : G.Wired) (hA : Awake G s) (h : Halted G s) {p : Nat} (hp : p < G.pipelineDepth)
    (hrun : Running s p) : ¬ AllExecuted G s p 0 := by
  intro hall
  obtain ⟨hidle, hjobs⟩ := h.idle hA.placed
  obtain ⟨S, hS, hmem⟩ := hA.counted.done p hp hrun
  have hsub : (Finset.range G.numNodes).filter (fun i => G.isLeaf ⟨i, p⟩ = true) ⊆ S := by
    intro i hi
    obtain ⟨N, hN, ho⟩ := isLeaf_iff.1 (Finset.mem_filter.1 hi).2
    refine hmem i N hN ho (hall ⟨i, p⟩ rfl (by rw [hN]; rfl) (Nat.zero_le _)) ?_
    unfold tokens
    rw [hjobs, hidle, hidle]
    rfl
  have hle := Finset.card_le_card hsub
  rw [hW.numLeafNodes p hp] at hle
  have := hA.counted.lt p hp
  omega

theorem awake_of_reach {s₀ : Sys} (hW : G.Wired) (hG : G.Startable) (h0 : Starts G s₀)
    (h : Reach (step G) (KeepsTriggers G) s₀ s) : Tracked G s ∧ Awake G s := by
  refine h.inv (I := fun s => Tracked G s ∧ Awake G s) ⟨h0.tracked, h0.awake hW hG⟩ ?_
  rintro s a t ⟨hT, hA⟩ hc hs
  exact ⟨hT.kept hW hc.clears (step_cases hs), hA.kept hW hG hT hc (step_cases hs)⟩

/-- **A graph that stands still waits for a reference**: in every run in which the flags are cleared in time and no
trigger is dropped, where no thread can move and an instance runs, a node that is not executed is recorded on the queue
of one of its parameters, and that queue is empty. -/
theorem waits_for_reference {s₀ : Sys} (hV : G.Verified) (hW : G.Wired) (hG : G.Startable) (h0 : Starts G s₀)
    (h : Reach (step G) (KeepsTriggers G) s₀ s) (hh : Halted G s) {p : Nat} (hp : live p s.trace = true) :
    ∃ n i dq D, live n.pipe s.trace = true ∧ executedIn n s.trace = false ∧ G.prmQueue n i = some (dq, D) ∧
      n ∈ s.shm.queue.blockedOn D.acquireQObjDescId ∧ s.shm.queue.refs D.acquireQObjDescId = [] := by
  obtain ⟨hT, hA⟩ := awake_of_reach hW hG h0 h
  obtain ⟨hidle, -⟩ := hh.idle hA.placed
  have hdepth := hA.lt p hp
  have hrun : Running s p := ⟨hp, fun i ⟨t, left, hpc⟩ => by rw [hidle] at hpc; cases hpc⟩
  -- the first node in the order of the graph that is not executed
  obtain ⟨rank, hrank⟩ := hW.acyclic
  have hex : ∃ k : NodeId, k.pipe = p ∧ (G.table.node k).isSome = true ∧ (s.shm.node k).isExecuted = false := by
    by_contra hno
    refine hh.not_allExecuted hW hA hdepth hrun (fun k hk hks _ => ?_)
    by_contra hkx
    exact hno ⟨k, hk, hks, by simpa using hkx⟩
  have hready : ∃ k N, k.pipe = p ∧ G.table.node k = some N ∧ (s.shm.node k).isExecuted = false ∧
      ∀ j ∈ N.inNodeId, (s.shm.node j).isExecuted = true := by
    obtain ⟨k, hk⟩ := hex
    generalize hr : rank k.node = r
    induction r using Nat.strong_induction_on generalizing k with
    | _ r ih =>
      obtain ⟨hkp, hks, hkx⟩ := hk
      obtain ⟨N, hN⟩ := Option.isSome_iff_exists.1 hks
      by_cases hall : ∀ j ∈ N.inNodeId, (s.shm.node j).isExecuted = true
      · exact ⟨k, N, hkp, hN, hkx, hall⟩
      · push Not at hall
        obtain ⟨j, hj, hjx⟩ := hall
        obtain ⟨hjp, K, hK, -⟩ := hW.inNode k N j hN hj
        exact ih (rank j.node) (hr ▸ hrank k N j hN hj) j ⟨by rw [hjp, hkp], by rw [hK]; rfl, by simpa using hjx⟩ rfl
  obtain ⟨k, N, hkp, hN, hkx, hall⟩ := hready
  have hin : InFlight G s k := by
    rcases hA.triggered k N hN (hkp ▸ hrun) hkx hall with hin | ho
    · exact hin
    · cases ho with
      | next hpc => rw [hidle] at hpc; cases hpc
      | head hpc => rw [hidle] at hpc; cases hpc
  obtain ⟨n, q, hn, hx, hq⟩ := hh.recorded hA (by rw [hN]; rfl) hkx hin
  obtain ⟨-, i, dq, D, hD, rfl⟩ := hA.waits.recorded q n hq
  have hlive := (running_of_inFlight hW hT.scheduling hT.flags hn (.recorded hq) hx).1
  refine ⟨n, i, dq, D, hlive, ?_, hD, hq, ?_⟩
  · by_contra hex
    rcases hT.executions.marked n hn (by simpa using hex) with hm | ⟨t, prms, hpc⟩
    · rw [hx] at hm
      cases hm
    · rw [hidle] at hpc
      cases hpc
  · by_contra hne
    rw [(sound_of_reach hV h0 h).blockedOn_eq_nil _ hne] at hq
    cases hq

section Waiting

variable {L : List Tid} {K : Nat}

/-- A run that is looked at in every step keeps the triggers. -/
theorem reach_keepsTriggers {s₀ : Sys} (hV : G.Verified) (hW : G.Wired) (h0 : Starts G s₀)
    (hQ : ∀ q, K ≤ q → s₀.shm.queue q = none)
    (h : Reach (step G) (fun s a => (clearsInTime G L K s a && triggersFit G s a) = true) s₀ s) :
    Reach (step G) (KeepsTriggers G) s₀ s ∧ Confined G L K s := by
  have hcond : ∀ s a, Confined G L K s ∧ Tracked G s → (clearsInTime G L K s a && triggersFit G s a) = true →
      KeepsTriggers G s a := by
    rintro s a ⟨hC, hT⟩ h
    rw [Bool.and_eq_true] at h
    exact ⟨hC.clearsInTime hW (fun t p left i hpc => (hT.scheduling.pipe t p (by rw [hpc]; rfl)).1) h.1, h.2⟩
  have hstep : ∀ s a t, Confined G L K s ∧ Tracked G s → (clearsInTime G L K s a && triggersFit G s a) = true →
      step G s a = some t → Confined G L K t ∧ Tracked G t := by
    rintro s a t ⟨hC, hT⟩ hc hs
    have ha : a.tid ∈ L := by
      simp only [Bool.and_eq_true, clearsInTime, List.contains_iff_mem] at hc
      exact hc.1.1
    exact ⟨hC.kept hV hW ha (step_cases hs), hT.kept hW (hcond s a ⟨hC, hT⟩ hc).clears (step_cases hs)⟩
  exact ⟨h.mono_of ⟨h0.confined hQ, h0.tracked⟩ hstep hcond, (h.inv ⟨h0.confined hQ, h0.tracked⟩ hstep).1⟩

/-- The threads of `L` are idle, and nothing is to be done. -/
def standsStill (L : List Tid) (s : Sys) : Bool :=
  L.all fun t => decide (s.pc t = .idle) && match t with
    | .target id => (s.jobQ id).isEmpty
    | .user _ => true

theorem halted_of_standsStill (hC : Confined G L K s) (hP : Placed G s) (hhost : .target G.hostTarget ∈ L)
    (hL : ∀ n N, G.table.node n = some N → .target N.targetId ∈ L) (h : standsStill L s = true) : Halted G s := by
  simp only [standsStill, List.all_eq_true, Bool.and_eq_true, decide_eq_true_eq] at h
  have hidle : ∀ t, s.pc t = .idle := by
    intro t
    by_cases ht : t ∈ L
    · exact (h t ht).1
    · exact hC.idle t ht
  have hjobs : ∀ id, s.jobQ id = [] := by
    intro id
    by_cases ht : .target id ∈ L
    · simpa using (h _ ht).2
    · rw [List.eq_nil_iff_forall_not_mem]
      intro j hj
      rcases hP.job id j hj with ⟨hid, -⟩ | ⟨n, N, -, hN, hid⟩
      · exact ht (hid ▸ hhost)
      · exact ht (hid ▸ hL n N hN)
  refine ⟨fun t => ?_, fun t prms => ?_⟩
  · unfold threadStep
    rw [hidle]
    cases t with
    | user u => rfl
    | target id => simp [takeJob, hjobs]
  · unfold kernelStep
    rw [hidle]

/-- One node in a pipeline of two, which reads graph parameter 0. -/
def waiting : Graph where
  table :=
    { numEntries := 20
      dataRefQ := fun dq =>
        if dq = 10 ∨ dq = 11 then some { acquireQObjDescId := 0, releaseQObjDescId := 1, numInNodes := 1 } else none
      node := fun n =>
        if n.node = 0 ∧ n.pipe < 2 then
          some
            { targetId := 1
              prms := [{ isDataRefQ := true, isInput := true, dataRefQId := 10 + n.pipe }]
              inNodeId := []
              outNodeId := []
              prevPipeNodeId := some ⟨0, 1 - n.pipe⟩ }
        else none }
  hostOnly := fun _ => false
  hostTarget := 0
  numNodes := 1
  pipelineDepth := 2
  headNodes := [0]
  numLeafNodes := 1
  isNormal := false
  parameters := [⟨0, 1, [5]⟩]

theorem waiting_node {n : NodeId} {N : NodeDesc} (h : waiting.table.node n = some N) :
    n.node = 0 ∧ n.pipe < 2 ∧ N.targetId = 1 ∧ N.inNodeId = [] ∧ N.outNodeId = [] ∧
      N.prms = [{ isDataRefQ := true, isInput := true, dataRefQId := 10 + n.pipe }] ∧
      N.prevPipeNodeId = some ⟨0, 1 - n.pipe⟩ := by
  simp only [waiting] at h
  split at h
  · rename_i hn
    cases h
    exact ⟨hn.1, hn.2, rfl, rfl, rfl, rfl, rfl⟩
  · cases h

theorem waiting_wired : waiting.Wired where
  node_isSome n := by simp [waiting]
  inNode n N k hN hk := by
    obtain ⟨-, -, -, hi, -⟩ := waiting_node hN
    rw [hi] at hk
    cases hk
  outNode n N k hN hk := by
    obtain ⟨-, -, -, -, ho, -⟩ := waiting_node hN
    rw [ho] at hk
    cases hk
  headNode h _ p N hN := (waiting_node hN).2.2.2.1
  numLeafNodes p hp := by
    match p, hp with
    | 0, _ => decide
    | 1, _ => decide
  acyclic := by
    refine ⟨id, fun n N k hN hk => ?_⟩
    obtain ⟨-, -, -, hi, -⟩ := waiting_node hN
    rw [hi] at hk
    cases hk

theorem waiting_startable : waiting.Startable where
  head n N hN _ := by
    rw [(waiting_node hN).1]
    exact List.mem_cons_self
  prev n N m M k hN hM hn hm := by
    obtain ⟨hn0, hn2, -, -, -, -, hnp⟩ := waiting_node hN
    obtain ⟨hm0, hm2, -, -, -, -, hmp⟩ := waiting_node hM
    rw [hnp, ← hm, hmp] at hn
    have hp : 1 - n.pipe = 1 - m.pipe := congrArg NodeId.pipe (Option.some.inj hn)
    have hpipe : n.pipe = m.pipe := by omega
    cases n
    cases m
    simp only at hn0 hm0 hpipe
    rw [hn0, hm0, hpipe]
  prms n N hN := by
    obtain ⟨-, hp, -, -, -, hprms, -⟩ := waiting_node hN
    rw [hprms]
    have h : n.pipe = 0 ∨ n.pipe = 1 := by omega
    rcases h with h | h <;> rw [h] <;> rfl
  numNodes := Nat.one_pos

theorem waiting_verified : waiting.Verified := ⟨by decide, by decide⟩

/-- The ready and done queues of the graph parameter, empty. -/
def waitingStart : Sys := Sys.start waiting (createQueues 2)

theorem waiting_starts : Starts waiting waitingStart := by
  refine starts_primed (l := []) (by simp) (fun dq D h => ?_)
  simp only [waiting] at h
  split at h <;> cases h
  decide

/-- The application schedules the graph twice; the first instance waits for a reference and the second for the first. -/
def waitingRun : List Act :=
  .scheduleGraph 0 2 :: List.replicate 12 (.thread (.user 0)) ++ List.replicate 7 (.thread (.target 1))

/-- Both instances run, the first recorded on the queue of the graph parameter and the second parked at the first. -/
theorem waits_for_reference_waiting : ∃ s, Reach (step waiting) (KeepsTriggers waiting) waitingStart s ∧
    (s.shm.node ⟨0, 0⟩).blockedNodeId = some ⟨0, 1⟩ ∧ ∃ n i dq D, live n.pipe s.trace = true ∧
      executedIn n s.trace = false ∧ waiting.prmQueue n i = some (dq, D) ∧
      n ∈ s.shm.queue.blockedOn D.acquireQObjDescId ∧ s.shm.queue.refs D.acquireQObjDescId = [] := by
  obtain ⟨s, hr, hs⟩ := exists_reach_of_exec (l := waitingRun)
    (f := fun s : Sys => (standsStill [.user 0, .target 0, .target 1] s, live 1 s.trace, (s.shm.node ⟨0, 0⟩).blockedNodeId))
    (x := (true, true, some ⟨0, 1⟩)) (by decide +kernel :
      (exec (step waiting) (fun s a => clearsInTime waiting [.user 0, .target 0, .target 1] 2 s a && triggersFit waiting s a)
        waitingStart waitingRun).map (fun s => (standsStill [.user 0, .target 0, .target 1] s, live 1 s.trace,
          (s.shm.node ⟨0, 0⟩).blockedNodeId)) = some (true, true, some ⟨0, 1⟩))
  simp only [Prod.mk.injEq] at hs
  obtain ⟨hstill, hlive, hpark⟩ := hs
  obtain ⟨hk, hC⟩ := reach_keepsTriggers waiting_verified waiting_wired waiting_starts
    (fun q hq => if_neg (Nat.not_lt.2 hq)) hr
  have hP := (awake_of_reach waiting_wired waiting_startable waiting_starts hk).2.placed
  have hh := halted_of_standsStill hC hP (by decide) (fun n N hN => by rw [(waiting_node hN).2.2.1]; decide) hstill
  exact ⟨s, hk, hpark, waits_for_reference waiting_verified waiting_wired waiting_startable waiting_starts hk hh hlive⟩

end Waiting

end Tiovx
