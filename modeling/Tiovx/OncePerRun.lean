import Tiovx.Completion
/-!
# OncePerRun — the runs whose flags are cleared in time

The invariants of the scheduling host, the flags, the events and the leaf nodes hold together, from a verified graph on,
as long as every step meets `ClearsInTime`.  `clearsInTime` decides the condition where only some threads and queues have
a part in the run.
-/
namespace Tiovx

open StepSystem

section Scheduling

variable {G : Graph} {s s' : Sys} {a : Act}

/-- A thread that schedules an instance took it from the free queue. -/
theorem schedulesPipe_of_step (hs : Step G s a s') {t : Tid} {p : Nat} (h : (s'.pc t).schedulesPipe = some p) :
    (s.pc t).schedulesPipe = some p ∨ Starting s a s' p := by
  by_cases hta : t = a.tid
  · subst hta
    rcases pcStep_of_step hs with ⟨-, hp, -⟩ | hp
    · rw [hp] at h
      cases h
    · generalize hpc' : s'.pc a.tid = pc' at hp h
      generalize hpc : s.pc a.tid = pc at hp
      cases hp with
      | rest h' => cases pc' <;> cases h' <;> cases h
      | work _ h' => cases pc' <;> cases h' <;> cases h
      | after _ h' => cases pc' <;> cases h' <;> cases h
      | start hf ht =>
        cases h
        exact .inr ⟨⟨_, hpc, hpc'⟩, hf, ht⟩
      | clear | cleared | head => exact .inl h
      | _ => cases h
  · rw [pc_of_step_ne hs hta] at h
    exact .inl h

theorem Scheduling.kept (hS : Scheduling G s) (hs : Step G s a s')
    (hend : ∀ n, Ending G s a s' n → live n.pipe s.trace = true ∧ n.pipe < G.pipelineDepth) : Scheduling G s' := by
  have hlock := lock_kept hS.lock hs
  -- an instance the host schedules is not ended
  have hpipe : ∀ t p, (s.pc t).schedulesPipe = some p → p < G.pipelineDepth ∧ live p s'.trace = true := by
    intro t p ht
    obtain ⟨hd, hl⟩ := hS.pipe t p ht
    refine ⟨hd, ?_⟩
    rcases runs_of_step hs with ⟨hr, -⟩ | ⟨q, hq⟩ | ⟨n, hn⟩ | ⟨n, b, ⟨pipeup, prms₀, -, he⟩, -, -, -⟩
    · rw [hr.live, hl]
    · rw [hq.trace]
      simp [live, hl]
    · have := hS.lock t (Pc.schedules_of_pipe ht)
      rw [hn.lock] at this
      cases this
    · rw [he]
      exact hl
  have hnew : ∀ t p, (s'.pc t).schedulesPipe = some p → p < G.pipelineDepth ∧ live p s'.trace = true := by
    intro t p ht
    rcases schedulesPipe_of_step hs ht with ht | hp
    · exact hpipe t p ht
    · refine ⟨hS.lt p (by rw [hp.freeQ]; exact List.mem_cons_self), ?_⟩
      rw [hp.trace]
      simp [live]
  rcases runs_of_step hs with ⟨hr, hq⟩ | ⟨p, hp⟩ | ⟨n, hn⟩ | ⟨n, b, ⟨pipeup, prms₀, -, he⟩, -, -, hq⟩
  · refine ⟨hlock, by rw [hq]; exact hS.nodup, by rw [hq]; exact hS.lt, fun q hd => ?_, hnew⟩
    rw [hq, hr.live]
    exact hS.free_iff q hd
  · have hnd : (p :: s'.freeQ).Nodup := hp.freeQ ▸ hS.nodup
    rw [List.nodup_cons] at hnd
    refine ⟨hlock, hnd.2, fun q hm => hS.lt q (by rw [hp.freeQ]; exact List.mem_cons_of_mem p hm), fun q hd => ?_, hnew⟩
    have hold := hS.free_iff q hd
    rw [hp.freeQ, List.mem_cons] at hold
    rw [hp.trace]
    by_cases hqp : p = q
    · subst hqp
      simp [live, hnd.1]
    · simp only [live, hqp, decide_false, Bool.false_or]
      rw [← hold]
      simp [Ne.symm hqp]
  · obtain ⟨hl, hd⟩ := hend n hn
    have hnot : n.pipe ∉ s.freeQ := by
      intro hm
      have := (hS.free_iff n.pipe hd).1 hm
      rw [hl] at this
      cases this
    refine ⟨hlock, ?_, fun q hm => ?_, fun q hq => ?_, hnew⟩
    · rw [hn.freeQ]
      refine hS.nodup.append (List.nodup_singleton _) ?_
      simpa using hnot
    · rw [hn.freeQ, List.mem_append, List.mem_singleton] at hm
      rcases hm with hm | rfl
      · exact hS.lt q hm
      · exact hd
    · rw [hn.freeQ, hn.trace, List.mem_append, List.mem_singleton]
      by_cases hqn : n.pipe = q
      · subst hqn
        simp [live]
      · simp only [live, hqn, decide_false, Bool.not_false, Bool.true_and]
        rw [← hS.free_iff q hq]
        simp [Ne.symm hqn]
  · refine ⟨hlock, by rw [hq]; exact hS.nodup, by rw [hq]; exact hS.lt, fun q hd => ?_, hnew⟩
    rw [hq, he]
    exact hS.free_iff q hd

/-- **What is known of the runs** of a graph. -/
structure Tracked (G : Graph) (s : Sys) : Prop where
  scheduling : Scheduling G s
  onTarget : OnTarget G s
  flags : Flags G s
  executions : Executions G s
  leaves : Leaves G s

theorem Tracked.kept (hW : G.Wired) (hT : Tracked G s) (hc : ClearsInTime G s a) (hs : Step G s a s') :
    Tracked G s' := by
  obtain ⟨hS, hO, hF, hE, hL⟩ := hT
  have hend : ∀ n, Ending G s a s' n → live n.pipe s.trace = true ∧ (∀ i, ¬ Clearing s n.pipe i) ∧
      n.pipe < G.pipelineDepth ∧ AllExecuted G s n.pipe 0 := fun n hn => ending_allExecuted hW hE hL hn
  refine ⟨hS.kept hs (fun n hn => ?_), hO.kept hs, hF.kept hW hS hO hc hs (fun n hn => (hend n hn).2.2.2),
    hE.kept hW hS hF hO hs hend, hL.kept hW hS hO hF hs⟩
  obtain ⟨hl, -, hd, -⟩ := hend n hn
  exact ⟨hl, hd⟩

end Scheduling

section Start

variable {G : Graph} {s : Sys}

theorem Starts.not_inFlight (h : Starts G s) (n : NodeId) : ¬ InFlight G s n := by
  intro hf
  cases hf with
  | job hm => rw [h.jobQ] at hm; cases hm
  | working hw => rw [h.pc] at hw; cases hw
  | inHand hh => rw [h.pc] at hh; cases hh
  | next hpc => rw [h.pc] at hpc; cases hpc
  | recorded hq => rw [h.blockedOn] at hq; cases hq
  | parked hk => rw [h.blockedNodeId] at hk; cases hk

theorem Starts.not_clearing (h : Starts G s) (p i : Nat) : ¬ Clearing s p i := by
  rintro ⟨t, left, hpc⟩
  rw [h.pc] at hpc
  cases hpc

theorem Starts.tokens_eq (h : Starts G s) (n : NodeId) (N : NodeDesc) : tokens G s n N = 0 := by
  unfold tokens
  rw [h.jobQ, h.pc, h.pc]
  rfl

theorem Starts.tracked (h : Starts G s) : Tracked G s := by
  have hlive : ∀ p, live p s.trace = false := fun p => by rw [h.trace]; rfl
  have hexec : ∀ n, executedIn n s.trace = false := fun n => by rw [h.trace]; rfl
  refine ⟨⟨fun t ht => ?_, ?_, fun p hp => ?_, fun p hp => ?_, fun t p ht => ?_⟩, ⟨fun {id n N} hm => ?_, fun {t n N} hn => ?_⟩,
    ⟨fun t n hp => ?_, fun n N _ hf => absurd hf (h.not_inFlight n), fun p _ => .inl ?_,
      fun p i hc => absurd hc (h.not_clearing p i), fun p i hc => absurd hc (h.not_clearing p i)⟩,
    ⟨fun n _ hl => ?_, fun n _ he => ?_, fun t n prms hpc => ?_, fun p i hc => absurd hc (h.not_clearing p i),
      fun n N _ hl => ?_, ?_⟩,
    ⟨fun id n hm => ?_, fun t n hpc => ?_, fun n N _ _ => by rw [h.tokens_eq]; exact Nat.zero_le _,
      fun n N _ _ hne => absurd (h.tokens_eq n N) hne, fun p _ => ⟨∅, ?_, ?_, ?_⟩⟩⟩
  · rw [h.pc] at ht; cases ht
  · rw [h.freeQ]; exact List.nodup_range
  · rw [h.freeQ] at hp; exact List.mem_range.1 hp
  · rw [h.freeQ, List.mem_range, hlive]; simp [hp]
  · rw [h.pc] at ht; cases ht
  · rw [h.jobQ] at hm; cases hm
  · rw [h.pc] at hn; cases hn
  · rw [h.pc] at hp; cases hp
  · exact fun n _ _ => ⟨h.not_inFlight n, fun t ht => by rw [h.pc] at ht; cases ht⟩
  · rw [hlive] at hl; cases hl
  · rw [hexec] at he; cases he
  · rw [h.pc] at hpc; cases hpc
  · rw [hlive] at hl; cases hl
  · rw [h.trace]; trivial
  · rw [h.jobQ] at hm; cases hm
  · rw [h.pc] at hpc; cases hpc
  · rw [h.completeLeafNodes]; rfl
  · exact fun i hi => absurd hi (Finset.notMem_empty i)
  · rintro ⟨i, hi⟩
    exact absurd hi (Finset.notMem_empty i)

end Start

theorem tracked_of_reach {G : Graph} {s₀ s : Sys} (hW : G.Wired) (h0 : Starts G s₀)
    (h : Reach (step G) (ClearsInTime G) s₀ s) : Tracked G s :=
  h.inv h0.tracked (fun _ _ _ hT hc hs => hT.kept hW hc (step_cases hs))

/-- **Each node executes once in a run, after its in-nodes**, in every run whose steps all clear the flags in time. -/
theorem runsOnce_of_clearsInTime {G : Graph} {s₀ s : Sys} (hW : G.Wired) (h0 : Starts G s₀)
    (h : Reach (step G) (ClearsInTime G) s₀ s) : runsOnce G s.trace :=
  (tracked_of_reach hW h0 h).executions.once

section Check

variable {G : Graph} {L : List Tid} {K : Nat}

/-- Only the threads of `L` move, only queues below `K` exist, and nodes are parked at nodes of the graph. -/
structure Confined (G : Graph) (L : List Tid) (K : Nat) (s : Sys) : Prop where
  idle : ∀ t, t ∉ L → s.pc t = .idle
  queue : ∀ q, K ≤ q → s.shm.queue q = none
  parked : ∀ k n, (s.shm.node k).blockedNodeId = some n → k.node < G.numNodes ∧ k.pipe < G.pipelineDepth
  sound : s.shm.queue.Sound G.table
  onTarget : OnTarget G s

/-- A thread has a trigger of node `n`. -/
def Pc.triggers (G : Graph) (n : NodeId) : Pc → Bool
  | .sendNext m i b => ((G.table.node m).bind (fun M => M.outNodeId[i]?) == some n) || b == some n
  | pc => pc.works == some n || pc.hands.contains n

/-- Whether a trigger of node `n` is in flight. -/
def inFlight (G : Graph) (L : List Tid) (K : Nat) (s : Sys) (n : NodeId) : Bool :=
  (G.table.node n).any (fun N => (s.jobQ N.targetId).contains (.node n)) || L.any (fun t => (s.pc t).triggers G n) ||
    (List.range K).any (fun q => (s.shm.queue.blockedOn q).contains n) ||
    (List.range G.numNodes).any (fun i => (List.range G.pipelineDepth).any
      (fun p => (s.shm.node ⟨i, p⟩).blockedNodeId == some n))

/-- The host has not come past node `n`, where a thread clears the flags of its instance. -/
def Pc.clearsUpTo (n : NodeId) : Pc → Bool
  | .clearState p _ i => !(p == n.pipe) || decide (i ≤ n.node)
  | _ => true

/-- `ClearsInTime`, looked at in the threads of `L` and the queues below `K`. -/
def clearsInTime (G : Graph) (L : List Tid) (K : Nat) (s : Sys) (a : Act) : Bool :=
  L.contains a.tid &&
    match s.pc a.tid with
    | .clearState p _ i => !decide (i < G.numNodes) || !inFlight G L K s ⟨i, p⟩
    | .triggerNext m i _ =>
      ((G.table.node m).bind (fun M => M.outNodeId[i]?)).all (fun n =>
        (G.table.node n).all (fun N => !ownTargetNodeDescCanNodeExecute G.table s.shm N) ||
          L.all (fun t => (s.pc t).clearsUpTo n))
    | _ => true

theorem Pc.triggers_of_works {pc : Pc} {n : NodeId} (h : pc.works = some n) : pc.triggers G n = true := by
  cases pc <;> simp only [works, reduceCtorEq] at h <;> simp [triggers, works, h]

theorem Pc.triggers_of_hands {pc : Pc} {n : NodeId} (h : n ∈ pc.hands) : pc.triggers G n = true := by
  cases pc <;> simp only [hands, Option.mem_toList, List.mem_append, List.not_mem_nil] at h <;>
    simp [triggers, hands, h]

/-- No trigger is in flight where none is found. -/
theorem Confined.not_inFlight {s : Sys} (hC : Confined G L K s) {n : NodeId} (hn : (G.table.node n).isSome = true)
    (h : inFlight G L K s n = false) : ¬ InFlight G s n := by
  obtain ⟨N, hN⟩ := Option.isSome_iff_exists.1 hn
  simp only [inFlight, Bool.or_eq_false_iff] at h
  obtain ⟨⟨⟨hjob, hpc⟩, hrec⟩, hpark⟩ := h
  have hthread : ∀ t, (s.pc t).triggers G n = true → False := by
    intro t ht
    by_cases hm : t ∈ L
    · have := List.any_eq_false.1 hpc t hm
      exact this ht
    · rw [hC.idle t hm] at ht
      cases ht
  intro hf
  cases hf with
  | @job id hm =>
    rw [hC.onTarget.job hm hN] at hm
    rw [hN] at hjob
    simp [hm] at hjob
  | working hw => exact hthread _ (Pc.triggers_of_works hw)
  | inHand hh => exact hthread _ (Pc.triggers_of_hands hh)
  | @next t m i b M hpc' hM ho => exact hthread t (by rw [hpc']; simp [Pc.triggers, hM, ho])
  | @recorded q hq =>
    rcases Nat.lt_or_ge q K with hlt | hge
    · have := List.any_eq_false.1 hrec q (List.mem_range.2 hlt)
      exact this (by simpa using hq)
    · rw [Queues.blockedOn, hC.queue q hge] at hq
      cases hq
  | @parked k hk =>
    obtain ⟨hi, hp⟩ := hC.parked k n hk
    have := List.any_eq_false.1 hpark k.node (List.mem_range.2 hi)
    rw [Bool.not_eq_true] at this
    have := List.any_eq_false.1 this k.pipe (List.mem_range.2 hp)
    exact this (by simp [hk])

/-- **What the look finds holds.** -/
theorem Confined.clearsInTime {s : Sys} {a : Act} (hW : G.Wired) (hC : Confined G L K s)
    (hT : ∀ t p left i, s.pc t = .clearState p left i → p < G.pipelineDepth) (h : clearsInTime G L K s a = true) :
    ClearsInTime G s a := by
  simp only [Tiovx.clearsInTime, Bool.and_eq_true] at h
  obtain ⟨-, h⟩ := h
  constructor
  · intro p left i hpc hi
    rw [hpc] at h
    simp only [hi, decide_true, Bool.not_true, Bool.false_or, Bool.not_eq_true'] at h
    exact hC.not_inFlight ((hW.node_isSome _).2 ⟨hi, hT a.tid p left i hpc⟩) h
  · rintro n ⟨t, m, i, b, M, N, rfl, hpc, hM, ho, hN, hcan⟩ j ⟨u, left, hu⟩
    simp only [Act.tid, hpc, hM, ho, hN, hcan, Option.bind_some, Option.all_some, Bool.not_true, Bool.false_or,
      List.all_eq_true] at h
    by_cases hm : u ∈ L
    · have := h u hm
      rw [hu] at this
      simpa [Pc.clearsUpTo] using this
    · rw [hC.idle u hm] at hu
      cases hu

theorem Confined.kept {s s' : Sys} {a : Act} (hG : G.Verified) (hW : G.Wired) (hC : Confined G L K s) (ha : a.tid ∈ L)
    (hs : Step G s a s') : Confined G L K s' where
  idle t ht := by
    rw [pc_of_step_ne hs (fun h => ht (by rw [h]; exact ha))]
    exact hC.idle t ht
  queue q hq := by
    have := queue_isSome_kept hG hC.sound hs q
    rw [hC.queue q hq] at this
    simpa using this
  parked k n hk := by
    rcases blockedNodeId_of_step hs k with he | ⟨m, M, -, -, -, hs, -⟩ | ⟨prms, -, -, he⟩
    · rw [he] at hk
      exact hC.parked k n hk
    · exact (hW.node_isSome k).1 hs
    · rw [he] at hk
      cases hk
  sound := sound_kept hG hC.sound hs
  onTarget := hC.onTarget.kept hs

theorem Starts.confined {s : Sys} (hQ : ∀ q, K ≤ q → s.shm.queue q = none) (h : Starts G s) : Confined G L K s where
  idle t _ := h.pc t
  queue := hQ
  parked k n hk := by rw [h.blockedNodeId] at hk; cases hk
  sound := ⟨h.refs_lt, fun q _ => h.blockedOn q⟩
  onTarget := h.tracked.onTarget

/-- **A run that is looked at in every step** clears the flags in time. -/
theorem reach_clearsInTime {s₀ s : Sys} (hG : G.Verified) (hW : G.Wired) (h0 : Starts G s₀)
    (hQ : ∀ q, K ≤ q → s₀.shm.queue q = none)
    (h : Reach (step G) (fun s a => clearsInTime G L K s a = true) s₀ s) : Reach (step G) (ClearsInTime G) s₀ s := by
  have hcond : ∀ s a, Confined G L K s ∧ Tracked G s → clearsInTime G L K s a = true → ClearsInTime G s a := by
    rintro s a ⟨hC, hT⟩ h
    refine hC.clearsInTime hW (fun t p left i hpc => ?_) h
    exact (hT.scheduling.pipe t p (by rw [hpc]; rfl)).1
  refine h.mono_of (I := fun s => Confined G L K s ∧ Tracked G s) ⟨h0.confined hQ, h0.tracked⟩ ?_ hcond
  rintro s a t ⟨hC, hT⟩ hc hs
  have ha : a.tid ∈ L := by
    simp only [clearsInTime, Bool.and_eq_true, List.contains_iff_mem] at hc
    exact hc.1
  exact ⟨hC.kept hG hW ha (step_cases hs), hT.kept hW (hcond s a ⟨hC, hT⟩ hc) (step_cases hs)⟩

end Check

section Join

/-- Two head nodes on targets 1 and 2, and a node on target 3 that reads what both write. -/
def join : Graph where
  table :=
    { numEntries := 8
      dataRefQ := fun _ => none
      node := fun n =>
        if n.pipe = 0 then
          match n.node with
          | 0 => some { targetId := 1, prms := [{ isDataRefQ := false, isInput := false, dataId := 7 }], inNodeId := [],
                        outNodeId := [⟨2, 0⟩], prevPipeNodeId := none }
          | 1 => some { targetId := 2, prms := [{ isDataRefQ := false, isInput := false, dataId := 6 }], inNodeId := [],
                        outNodeId := [⟨2, 0⟩], prevPipeNodeId := none }
          | 2 => some { targetId := 3, prms := [{ isDataRefQ := false, isInput := true, dataId := 7 },
                          { isDataRefQ := false, isInput := true, dataId := 6 }], inNodeId := [⟨0, 0⟩, ⟨1, 0⟩],
                        outNodeId := [], prevPipeNodeId := none }
          | _ => none
        else none }
  hostOnly := fun _ => false
  hostTarget := 0
  numNodes := 3
  pipelineDepth := 1
  headNodes := [0, 1]
  numLeafNodes := 1
  isNormal := true
  parameters := []

theorem join_node {n : NodeId} {N : NodeDesc} (h : join.table.node n = some N) :
    n = ⟨0, 0⟩ ∨ n = ⟨1, 0⟩ ∨ n = ⟨2, 0⟩ := by
  obtain ⟨i, p⟩ := n
  match i, p with
  | 0, 0 => exact .inl rfl
  | 1, 0 => exact .inr (.inl rfl)
  | 2, 0 => exact .inr (.inr rfl)
  | i + 3, 0 => cases h
  | i, p + 1 => cases h

theorem join_wired : join.Wired where
  node_isSome n := by
    constructor
    · intro h
      obtain ⟨N, hN⟩ := Option.isSome_iff_exists.1 h
      rcases join_node hN with rfl | rfl | rfl <;> decide
    · obtain ⟨i, p⟩ := n
      rintro ⟨hi, hp⟩
      have hp : p = 0 := Nat.lt_one_iff.1 hp
      subst hp
      match i with
      | 0 | 1 | 2 => rfl
      | i + 3 => exact absurd hi (by simp [join])
  inNode n N k hN hk := by
    rcases join_node hN with rfl | rfl | rfl <;> cases hN <;> simp only [List.not_mem_nil, List.mem_cons, or_false] at hk
    rcases hk with rfl | rfl <;> exact ⟨rfl, _, rfl, by decide⟩
  outNode n N k hN hk := by
    rcases join_node hN with rfl | rfl | rfl <;> cases hN <;> simp only [List.not_mem_nil, List.mem_cons, or_false] at hk <;>
      subst hk <;> exact ⟨rfl, _, rfl, by decide⟩
  headNode h hh p N hN := by
    rcases join_node hN with hn | hn | hn <;> cases hn <;> cases hN
    · rfl
    · rfl
    · exact absurd hh (by decide)
  numLeafNodes p hp := by
    have hp : p = 0 := Nat.lt_one_iff.1 hp
    subst hp
    decide
  acyclic := by
    refine ⟨id, fun n N k hN hk => ?_⟩
    rcases join_node hN with rfl | rfl | rfl <;> cases hN <;> simp only [List.not_mem_nil, List.mem_cons, or_false] at hk
    rcases hk with rfl | rfl <;> decide

theorem join_verified : join.Verified := ⟨by decide, by decide⟩

def joinStart : Sys := Sys.start join (createQueues 0)

theorem join_starts : Starts join joinStart :=
  starts_start (fun dq D h => by cases h) (fun q x hx => by rw [Queues.refs_createQueues] at hx; cases hx)
    (fun q => Queues.blockedOn_createQueues 0 q)

/-- The application schedules the graph. -/
def joinSchedule : List Act := .scheduleGraph 0 1 :: List.replicate 10 (.thread (.user 0))

/-- A target executes its next node, with these parameters, and comes to the look at the next nodes. -/
def executeNext (id : Nat) (prms : List Nat) : List Act :=
  List.replicate (4 + prms.length) (.thread (.target id)) ++ .kernel (.target id) prms ::
    List.replicate (3 + prms.length) (.thread (.target id))

/-- Both targets find node 2 ready before either sends its trigger; the second trigger is taken up in the next run. -/
def joinTwice : List Act :=
  joinSchedule ++ executeNext 1 [7] ++ executeNext 2 [6] ++
    [.thread (.target 1), .thread (.target 2), .thread (.target 1), .thread (.target 2)] ++ executeNext 3 [7, 6] ++
    [.thread (.target 3), .thread (.target 3), .thread (.target 0), .thread (.target 0)] ++ joinSchedule ++
    (executeNext 3 [7, 6]).take 7

/-- Target 2 looks at node 2 when target 1 has sent its trigger, and node 2 is executed. -/
def joinOnce : List Act :=
  joinSchedule ++ executeNext 1 [7] ++ [.thread (.target 1), .thread (.target 1), .thread (.target 1)] ++
    executeNext 2 [6] ++ List.replicate 4 (.thread (.target 2)) ++ executeNext 3 [7, 6] ++
    [.thread (.target 3), .thread (.target 3), .thread (.target 0), .thread (.target 0)]

/-- In the second run node 2 is executed before both its in-nodes. -/
theorem join_executes_early : join.Wired ∧ Starts join joinStart ∧
    ∃ s, Reach (step join) (fun s a => anyStep s a = true) joinStart s ∧ ¬ runsOnce join s.trace := by
  refine ⟨join_wired, join_starts, ?_⟩
  have hexec : (exec (step join) anyStep joinStart joinTwice).map
      (fun s => (s.trace.head?, executedIn ⟨0, 0⟩ s.trace.tail)) = some (some (.executed ⟨2, 0⟩ false [7, 6]), false) := by
    decide +kernel
  obtain ⟨s, hr, hs⟩ := exists_reach_of_exec hexec
  refine ⟨s, hr, fun h => ?_⟩
  simp only [Prod.mk.injEq] at hs
  obtain ⟨hhead, hexec⟩ := hs
  cases ht : s.trace with
  | nil => rw [ht] at hhead; cases hhead
  | cons e l =>
    rw [ht] at hhead hexec h
    cases hhead
    -- node 0 is an in-node of node 2
    have hin := h.1.2.2 _ rfl ⟨0, 0⟩ List.mem_cons_self
    rw [List.tail_cons] at hexec
    rw [hexec] at hin
    cases hin

/-- Two runs of the graph in which the second trigger is not sent. -/
theorem runsOnce_join : ∃ s, Reach (step join) (ClearsInTime join) joinStart s ∧
    s.trace.count (.completed 0) = 2 ∧ runsOnce join s.trace := by
  have hexec : (exec (step join) (clearsInTime join [.user 0, .target 0, .target 1, .target 2, .target 3] 0) joinStart
      (joinOnce ++ joinOnce)).map (fun s => s.trace.count (.completed 0)) = some 2 := by decide +kernel
  obtain ⟨s, hr, hs⟩ := exists_reach_of_exec hexec
  have hQ : ∀ q, 0 ≤ q → joinStart.shm.queue q = none := fun q _ => rfl
  have hc := reach_clearsInTime join_verified join_wired join_starts hQ hr
  exact ⟨s, hc, hs, runsOnce_of_clearsInTime join_wired join_starts hc⟩

end Join

end Tiovx
