import Tiovx.Schedules
/-!
# RunsOnce — each node executes once in a run, after its in-nodes

Two targets may both find a node ready, and the second trigger can outlive the run: it is dropped only as long as the
node's flag is set.  While no trigger of a node is in flight when the host clears the node's flag, a node with a trigger
in flight is either executed or ready, and the flags of a running instance tell what was executed in its run.
-/
namespace Tiovx

open StepSystem

/-- The condition on a step: the host clears a node's flag when no trigger of the node is in flight, and no target finds
a node ready whose flag is cleared before the host is done. -/
structure ClearsInTime (G : Graph) (s : Sys) (a : Act) : Prop where
  clear : ∀ p left i, s.pc a.tid = .clearState p left i → i < G.numNodes → ¬ InFlight G s ⟨i, p⟩
  ready : ∀ n, FindsReady G s a n → ∀ i, Clearing s n.pipe i → i ≤ n.node

/-- Nothing happens at the nodes of instance `p`. -/
def Quiet (G : Graph) (s : Sys) (p : Nat) : Prop :=
  ∀ n, n.pipe = p → (G.table.node n).isSome = true → ¬ InFlight G s n ∧ ∀ t, (s.pc t).nodeId ≠ some n

/-- All nodes of instance `p` from node `i` on are executed. -/
def AllExecuted (G : Graph) (s : Sys) (p i : Nat) : Prop :=
  ∀ n, n.pipe = p → (G.table.node n).isSome = true → i ≤ n.node → (s.shm.node n).isExecuted = true

/-- **The flags and the triggers**: a node with a trigger in flight is executed or ready; a free instance, and the nodes
the host has still to clear, are all executed or untouched; a cleared node has no trigger in flight. -/
structure Flags (G : Graph) (s : Sys) : Prop where
  active : ∀ t n, (s.pc t).passed = some n → (G.table.node n).isSome = true → (s.shm.node n).isExecuted = false
  ready : ∀ n N, G.table.node n = some N → InFlight G s n →
    (s.shm.node n).isExecuted = true ∨ ∀ k ∈ N.inNodeId, (s.shm.node k).isExecuted = true
  free : ∀ p ∈ s.freeQ, Quiet G s p ∨ AllExecuted G s p 0
  cleared : ∀ p i, Clearing s p i → ∀ n, n.pipe = p → (G.table.node n).isSome = true → n.node < i →
    (s.shm.node n).isExecuted = false ∧ ¬ InFlight G s n
  uncleared : ∀ p i, Clearing s p i → Quiet G s p ∨ AllExecuted G s p i

/-- **The flags and the events**: the flags of a running instance say what was executed in its run. -/
structure Executions (G : Graph) (s : Sys) : Prop where
  executed : ∀ n, (G.table.node n).isSome = true → live n.pipe s.trace = true → (∀ i, ¬ Clearing s n.pipe i) →
    (s.shm.node n).isExecuted = true → executedIn n s.trace = true
  marked : ∀ n, (G.table.node n).isSome = true → executedIn n s.trace = true →
    (s.shm.node n).isExecuted = true ∨ ∃ t prms, s.pc t = .markComplete n prms
  completing : ∀ t n prms, s.pc t = .markComplete n prms → (G.table.node n).isSome = true → executedIn n s.trace = true
  fresh : ∀ p i, Clearing s p i → ∀ n, n.pipe = p → executedIn n s.trace = false
  closed : ∀ n N, G.table.node n = some N → live n.pipe s.trace = true → (∀ i, ¬ Clearing s n.pipe i) →
    (s.shm.node n).isExecuted = true → ∀ k ∈ N.inNodeId, (s.shm.node k).isExecuted = true
  once : runsOnce G s.trace

section Flags

variable {G : Graph} {s s' : Sys} {a : Act}

theorem canNodeExecute_iff {m : Shm} {n : NodeId} {N : NodeDesc} (hW : G.Wired) (hN : G.table.node n = some N) :
    ownTargetNodeDescCanNodeExecute G.table m N = true ↔ ∀ k ∈ N.inNodeId, (m.node k).isExecuted = true := by
  unfold ownTargetNodeDescCanNodeExecute
  rw [List.all_eq_true]
  constructor
  · intro h k hk
    obtain ⟨-, K, hK, -⟩ := hW.inNode n N k hN hk
    simpa [hK] using h k hk
  · intro h k hk
    simp [h k hk]

/-- Only one thread is in `ownGraphScheduleGraph`. -/
theorem Scheduling.eq_tid (hS : Scheduling G s) {t u : Tid} (ht : (s.pc t).schedules = true)
    (hu : (s.pc u).schedules = true) : t = u := by
  have h := hS.lock t ht
  rw [hS.lock u hu] at h
  exact (Option.some.inj h).symm

/-- A flag stays set unless the host clears it. -/
theorem isExecuted_kept (hs : Step G s a s') {n : NodeId} (hx : (s.shm.node n).isExecuted = true)
    (h : ∀ left, s.pc a.tid ≠ .clearState n.pipe left n.node) : (s'.shm.node n).isExecuted = true := by
  rcases isExecuted_of_step hs n with he | ⟨-, -, -, -, he⟩ | ⟨left, hpc, -⟩
  · rw [he, hx]
  · exact he
  · exact absurd hpc (h left)

/-- Nothing begins at an instance whose head nodes the host does not trigger. -/
theorem Quiet.kept {p : Nat} (hW : G.Wired) (hs : Step G s a s') (h : Quiet G s p)
    (hh : ∀ t left i, s.pc t ≠ .scheduleHeads p left i) : Quiet G s' p := by
  intro n hp hn
  obtain ⟨hf, hid⟩ := h n hp hn
  constructor
  · intro hf'
    rcases hf'.of_step hs with hf' | ⟨t, m, i, b, M, N, -, hpc, hM, ho, -⟩ | ⟨t, q, left, i, k, -, hpc, -, rfl⟩
    · exact hf hf'
    · obtain ⟨hmp, -⟩ := hW.outNode m M n hM (List.mem_of_getElem? ho)
      exact (h m (by rw [← hmp, hp]) (by rw [hM]; rfl)).2 t (by rw [hpc]; rfl)
    · exact hh t left i (by rw [hpc, ← hp])
  · intro t ht
    rcases nodeId_of_step hs ht with ht | ⟨id, -, hj⟩
    · exact hid t ht
    · exact hf (.job hj)

/-- An unexecuted node with a trigger in flight is in a running instance. -/
theorem running_of_inFlight (hW : G.Wired) (hS : Scheduling G s) (hF : Flags G s) {n : NodeId}
    (hn : (G.table.node n).isSome = true) (hf : InFlight G s n) (hx : (s.shm.node n).isExecuted = false) :
    live n.pipe s.trace = true ∧ ∀ i, ¬ Clearing s n.pipe i := by
  have hall : ∀ i, i ≤ n.node → Quiet G s n.pipe ∨ AllExecuted G s n.pipe i → False := by
    intro i hi h
    rcases h with h | h
    · exact (h n rfl hn).1 hf
    · have := h n rfl hn hi
      rw [hx] at this
      cases this
  constructor
  · cases hl : live n.pipe s.trace with
    | true => rfl
    | false =>
      have hfree := (hS.free_iff n.pipe ((hW.node_isSome n).1 hn).2).2 hl
      exact (hall 0 (Nat.zero_le _) (hF.free n.pipe hfree)).elim
  · intro i hc
    rcases Nat.lt_or_ge n.node i with hi | hi
    · exact (hF.cleared n.pipe i hc n rfl hn hi).2 hf
    · exact hall i hi (hF.uncleared n.pipe i hc)

/-- The step of the clearing host clears no other flag. -/
theorem not_clearState_of_free (hS : Scheduling G s) {p left i : Nat} (hp : p ∈ s.freeQ) : s.pc a.tid ≠ .clearState p left i := by
  intro hpc
  have h := (hS.pipe a.tid p (by rw [hpc]; rfl)).2
  rw [(hS.free_iff p (hS.lt p hp)).1 hp] at h
  cases h

/-- The heads of a free instance are not triggered. -/
theorem not_scheduleHeads_of_free (hS : Scheduling G s) {p : Nat} (hp : p ∈ s.freeQ) (t : Tid) (left i : Nat) :
    s.pc t ≠ .scheduleHeads p left i := by
  intro hpc
  have h := (hS.pipe t p (by rw [hpc]; rfl)).2
  rw [(hS.free_iff p (hS.lt p hp)).1 hp] at h
  cases h

/-- The heads of an instance that is being cleared are not triggered. -/
theorem not_scheduleHeads_of_clearing (hS : Scheduling G s) {p i : Nat} (hc : Clearing s p i) (t : Tid)
    (left j : Nat) : s.pc t ≠ .scheduleHeads p left j := by
  obtain ⟨u, left', hu⟩ := hc
  intro hpc
  have htu : t = u := hS.eq_tid (by rw [hpc]; rfl) (by rw [hu]; rfl)
  rw [htu, hu] at hpc
  cases hpc

theorem active_kept (hact : ∀ t n, (s.pc t).passed = some n → (G.table.node n).isSome = true →
    (s.shm.node n).isExecuted = false) (hO : OnTarget G s) (hs : Step G s a s') (t : Tid) (n : NodeId)
    (h : (s'.pc t).passed = some n) (hn : (G.table.node n).isSome = true) : (s'.shm.node n).isExecuted = false := by
  obtain ⟨N, hN⟩ := Option.isSome_iff_exists.1 hn
  rcases passed_of_step hs h with ⟨h, hm⟩ | ⟨hpc, hx⟩
  · rcases isExecuted_of_step hs n with he | ⟨prms, b, hpc, -, -⟩ | ⟨-, -, -, he⟩
    · rw [he]
      exact hact t n h hn
    · have ht : t = a.tid := by
        rw [hO.pc (Pc.nodeId_of_works (Pc.works_of_passed h)) hN, hO.pc (t := a.tid) (by rw [hpc]; rfl) hN]
      exact absurd ht (hm prms (by rw [ht, hpc]))
    · exact he
  · rcases isExecuted_of_step hs n with he | ⟨prms, b, hpc', -, -⟩ | ⟨-, -, -, he⟩
    · rw [he]
      exact hx
    · have ht : t = a.tid := by
        rw [hO.pc (t := t) (by rw [hpc]; rfl) hN, hO.pc (t := a.tid) (by rw [hpc']; rfl) hN]
      rw [ht, hpc'] at hpc
      cases hpc
    · exact he

theorem ready_kept (hW : G.Wired) (hF : Flags G s) (hc : ClearsInTime G s a) (hs : Step G s a s')
    (n : NodeId) (N : NodeDesc) (hN : G.table.node n = some N) (hf : InFlight G s' n) :
    (s'.shm.node n).isExecuted = true ∨ ∀ k ∈ N.inNodeId, (s'.shm.node k).isExecuted = true := by
  have hn : (G.table.node n).isSome = true := by rw [hN]; rfl
  rcases hf.of_step hs with hf | ⟨t, m, i, b, M, N', rfl, hpc, -, -, hN', hcan⟩ | ⟨t, q, left, i, k, -, -, hh, rfl⟩
  · have hnot : ∀ left, s.pc a.tid = .clearState n.pipe left n.node → n.node < G.numNodes → False :=
      fun left hpc hi => hc.clear n.pipe left n.node hpc hi hf
    have hlt := ((hW.node_isSome n).1 hn).1
    cases hx : (s.shm.node n).isExecuted with
    | true => exact .inl (isExecuted_kept hs hx (fun left hpc => hnot left hpc hlt))
    | false =>
      right
      intro k hk
      have hxk := ((hF.ready n N hN hf).resolve_left (by rw [hx]; exact Bool.false_ne_true)) k hk
      apply isExecuted_kept hs hxk
      -- clearing the flag of an in-node would find the trigger of the node in flight
      intro left hpc
      rw [(hW.inNode n N k hN hk).1] at hpc
      have hcl : Clearing s n.pipe k.node := ⟨_, left, hpc⟩
      rcases Nat.lt_or_ge n.node k.node with hi | hi
      · exact (hF.cleared n.pipe _ hcl n rfl hn hi).2 hf
      · rcases hF.uncleared n.pipe _ hcl with h | h
        · exact (h n rfl hn).1 hf
        · have := h n rfl hn hi
          rw [hx] at this
          cases this
  · rw [hN] at hN'
    cases hN'
    right
    intro k hk
    apply isExecuted_kept hs ((canNodeExecute_iff hW hN).1 hcan k hk)
    intro left hpc'
    rw [Act.tid, hpc] at hpc'
    cases hpc'
  · right
    intro j hj
    rw [hW.headNode k (List.mem_of_getElem? hh) q N hN] at hj
    cases hj

theorem free_kept (hW : G.Wired) (hS : Scheduling G s) (hF : Flags G s) (hs : Step G s a s')
    (hend : ∀ n, Ending G s a s' n → AllExecuted G s n.pipe 0) (p : Nat) (hp : p ∈ s'.freeQ) :
    Quiet G s' p ∨ AllExecuted G s' p 0 := by
  have hold : p ∈ s.freeQ → Quiet G s' p ∨ AllExecuted G s' p 0 := by
    intro hp
    rcases hF.free p hp with h | h
    · exact .inl (h.kept hW hs (not_scheduleHeads_of_free hS hp))
    · exact .inr (fun n hnp hn hi => isExecuted_kept hs (h n hnp hn hi)
        (fun left => by rw [hnp]; exact not_clearState_of_free hS hp))
  rcases runs_of_step hs with ⟨-, hq⟩ | ⟨q, hq⟩ | ⟨n, hq⟩ | ⟨n, b, hq⟩
  · exact hold (by rwa [← hq])
  · exact hold (by rw [hq.freeQ]; exact List.mem_cons_of_mem q hp)
  · rw [hq.freeQ, List.mem_append, List.mem_singleton] at hp
    rcases hp with hp | rfl
    · exact hold hp
    · refine .inr (fun m hmp hm hi => isExecuted_kept hs (hend n hq m hmp hm hi) (fun left hpc => ?_))
      rw [hq.move] at hpc
      cases hpc
  · exact hold (by rwa [← hq.freeQ])

/-- No trigger of a cleared node comes into flight. -/
theorem not_inFlight_kept (hS : Scheduling G s) (hc : ClearsInTime G s a) (hs : Step G s a s') {n : NodeId} {i : Nat}
    (hcl : Clearing s n.pipe i) (hi : n.node < i) (hf : ¬ InFlight G s n) : ¬ InFlight G s' n := by
  intro hf'
  rcases hf'.of_step hs with hf' | hr | ⟨t, q, left, j, k, -, hpc, -, rfl⟩
  · exact hf hf'
  · exact absurd (hc.ready n hr i hcl) (by omega)
  · exact not_scheduleHeads_of_clearing hS hcl t left j hpc

theorem cleared_kept (hS : Scheduling G s) (hF : Flags G s) (hc : ClearsInTime G s a) (hs : Step G s a s')
    (p i : Nat) (hcl : Clearing s' p i) (n : NodeId) (hp : n.pipe = p) (hn : (G.table.node n).isSome = true)
    (hi : n.node < i) : (s'.shm.node n).isExecuted = false ∧ ¬ InFlight G s' n := by
  subst hp
  have hold : ∀ j, Clearing s n.pipe j → n.node < j → (s'.shm.node n).isExecuted = false ∧ ¬ InFlight G s' n := by
    intro j hcl hj
    obtain ⟨hx, hf⟩ := hF.cleared n.pipe j hcl n rfl hn hj
    refine ⟨?_, not_inFlight_kept hS hc hs hcl hj hf⟩
    rcases isExecuted_of_step hs n with he | ⟨prms, b, hpc, -, -⟩ | ⟨-, -, -, he⟩
    · rw [he, hx]
    · exact absurd (.working (t := a.tid) (by rw [hpc]; rfl)) hf
    · exact he
  rcases clearing_of_step hs hcl with ⟨t, left, -, hpc⟩ | ⟨rfl, -, -⟩ | ⟨left, j, hpc, hj, rfl, hx⟩
  · exact hold i ⟨t, left, hpc⟩ hi
  · exact absurd hi (Nat.not_lt_zero _)
  · have hcl' : Clearing s n.pipe j := ⟨_, left, hpc⟩
    rcases Nat.lt_or_ge n.node j with hlt | hge
    · exact hold j hcl' hlt
    · have hnode : n.node = j := by omega
      have hnj : n = ⟨j, n.pipe⟩ := by rw [← hnode]
      refine ⟨by rw [hnj]; exact hx, fun hf' => ?_⟩
      have hf := hc.clear n.pipe left j hpc hj
      rw [← hnj] at hf
      rcases hf'.of_step hs with hf' | ⟨t, m, k, b, M, N, rfl, hpc', -⟩ | ⟨t, q, left', k, h, rfl, hpc', -⟩
      · exact hf hf'
      · rw [Act.tid, hpc'] at hpc
        cases hpc
      · rw [Act.tid, hpc'] at hpc
        cases hpc

theorem uncleared_kept (hW : G.Wired) (hS : Scheduling G s) (hF : Flags G s) (hs : Step G s a s') (p i : Nat)
    (hcl : Clearing s' p i) : Quiet G s' p ∨ AllExecuted G s' p i := by
  rcases clearing_of_step hs hcl with ⟨t, left, hta, hpc⟩ | ⟨rfl, hf, -⟩ | ⟨left, j, hpc, hj, rfl, -⟩
  · have hcl' : Clearing s p i := ⟨t, left, hpc⟩
    rcases hF.uncleared p i hcl' with h | h
    · exact .inl (h.kept hW hs (not_scheduleHeads_of_clearing hS hcl'))
    · refine .inr (fun n hnp hn hi => isExecuted_kept hs (h n hnp hn hi) (fun left' hpc' => hta ?_))
      exact hS.eq_tid (by rw [hpc]; rfl) (by rw [hpc']; rfl)
  · have hp : p ∈ s.freeQ := by rw [hf]; exact List.mem_cons_self
    rcases hF.free p hp with h | h
    · exact .inl (h.kept hW hs (not_scheduleHeads_of_free hS hp))
    · exact .inr (fun n hnp hn hi => isExecuted_kept hs (h n hnp hn hi)
        (fun left => by rw [hnp]; exact not_clearState_of_free hS hp))
  · have hcl' : Clearing s p j := ⟨_, left, hpc⟩
    rcases hF.uncleared p j hcl' with h | h
    · exact .inl (h.kept hW hs (not_scheduleHeads_of_clearing hS hcl'))
    · refine .inr (fun n hnp hn hi => isExecuted_kept hs (h n hnp hn (by omega)) (fun left' hpc' => ?_))
      rw [hpc] at hpc'
      cases hpc'
      omega

theorem Flags.kept (hW : G.Wired) (hS : Scheduling G s) (hO : OnTarget G s) (hF : Flags G s)
    (hc : ClearsInTime G s a) (hs : Step G s a s') (hend : ∀ n, Ending G s a s' n → AllExecuted G s n.pipe 0) :
    Flags G s' where
  active := active_kept hF.active hO hs
  ready := ready_kept hW hF hc hs
  free := free_kept hW hS hF hs hend
  cleared := cleared_kept hS hF hc hs
  uncleared := uncleared_kept hW hS hF hs

end Flags

section Executions

variable {G : Graph} {s s' : Sys} {a : Act}

/-- After a step that leaves instance `p` running, it was running before, or the step takes it from the free queue. -/
theorem not_clearing_before (hF : Flags G s) (hs : Step G s a s') {n : NodeId} (hn : (G.table.node n).isSome = true)
    (hlt : n.node < G.numNodes) (hcl : ∀ i, ¬ Clearing s' n.pipe i) (hx : (s'.shm.node n).isExecuted = true) :
    ∀ i, ¬ Clearing s n.pipe i := by
  intro i hc
  -- the step is the last of the clearing, which leaves the flag clear
  obtain ⟨left, hpc, hi⟩ := clearing_ends hs hc hcl
  have hxn := (hF.cleared n.pipe i hc n rfl hn (by omega)).1
  rcases isExecuted_of_step hs n with he | ⟨prms, b, hpc', -⟩ | ⟨left', hpc', hlt', -⟩
  · rw [he, hxn] at hx
    cases hx
  · rw [hpc] at hpc'
    cases hpc'
  · rw [hpc] at hpc'
    cases hpc'
    exact hi hlt'

/-- What a step leaves of the run that was on. -/
theorem run_kept (hs : Step G s a s') {n : NodeId} (hstart : ∀ p, Starting s a s' p → p ≠ n.pipe) :
    (live n.pipe s'.trace = true → live n.pipe s.trace = true) ∧
      (executedIn n s.trace = true → executedIn n s'.trace = true) := by
  rcases runs_of_step hs with ⟨hr, -⟩ | ⟨p, hp⟩ | ⟨m, hm⟩ | ⟨m, b, ⟨pipeup, prms₀, -, ht⟩, -, -, -⟩
  · rw [hr.live, hr.executedIn]
    exact ⟨id, id⟩
  · have hne := hstart p hp
    rw [hp.trace]
    simp [live, executedIn, hne]
  · rw [hm.trace]
    constructor
    · intro h
      simp only [live, Bool.and_eq_true] at h
      exact h.2
    · exact id
  · rw [ht]
    refine ⟨id, fun h => ?_⟩
    cases b with
    | false => simp [executedIn, h]
    | true => exact h

/-- A run starts by clearing. -/
theorem starting_ne {p : Nat} (hcl : ∀ i, ¬ Clearing s' p i) (q : Nat) (hq : Starting s a s' q) : q ≠ p := by
  obtain ⟨left, -, hpc⟩ := hq.move
  rintro rfl
  exact hcl 0 ⟨_, left, hpc⟩

theorem executed_kept (hW : G.Wired) (hF : Flags G s) (hE : Executions G s) (hs : Step G s a s') (n : NodeId)
    (hn : (G.table.node n).isSome = true) (hl : live n.pipe s'.trace = true) (hcl : ∀ i, ¬ Clearing s' n.pipe i)
    (hx : (s'.shm.node n).isExecuted = true) : executedIn n s'.trace = true := by
  obtain ⟨hlive, hexec⟩ := run_kept hs (n := n) (starting_ne hcl)
  have hcl' := not_clearing_before hF hs hn ((hW.node_isSome n).1 hn).1 hcl hx
  apply hexec
  rcases isExecuted_of_step hs n with he | ⟨prms, b, hpc, -, -⟩ | ⟨-, -, -, he⟩
  · exact hE.executed n hn (hlive hl) hcl' (by rw [← he, hx])
  · exact hE.completing _ n prms hpc hn
  · rw [hx] at he
    cases he

theorem closed_kept (hW : G.Wired) (hF : Flags G s) (hE : Executions G s) (hs : Step G s a s')
    (n : NodeId) (N : NodeDesc) (hN : G.table.node n = some N) (hl : live n.pipe s'.trace = true)
    (hcl : ∀ i, ¬ Clearing s' n.pipe i) (hx : (s'.shm.node n).isExecuted = true) (k : NodeId) (hk : k ∈ N.inNodeId) :
    (s'.shm.node k).isExecuted = true := by
  have hn : (G.table.node n).isSome = true := by rw [hN]; rfl
  have hcl' := not_clearing_before hF hs hn ((hW.node_isSome n).1 hn).1 hcl hx
  have hkp := (hW.inNode n N k hN hk).1
  have hkept : (s.shm.node k).isExecuted = true → (s'.shm.node k).isExecuted = true :=
    fun h => isExecuted_kept hs h (fun left hpc => hcl' k.node ⟨_, left, by rw [hpc, hkp]⟩)
  rcases isExecuted_of_step hs n with he | ⟨prms, b, hpc, -, -⟩ | ⟨-, -, -, he⟩
  · exact hkept (hE.closed n N hN ((run_kept hs (n := n) (starting_ne hcl)).1 hl) hcl' (by rw [← he, hx]) k hk)
  · have hxn := hF.active a.tid n (by rw [hpc]; rfl) hn
    rcases hF.ready n N hN (.working (t := a.tid) (by rw [hpc]; rfl)) with h | h
    · rw [hxn] at h
      cases h
    · exact hkept (h k hk)
  · rw [hx] at he
    cases he

theorem fresh_kept (hW : G.Wired) (hS : Scheduling G s) (hF : Flags G s) (hE : Executions G s) (hs : Step G s a s')
    (p i : Nat) (hcl : Clearing s' p i) (n : NodeId) (hp : n.pipe = p) : executedIn n s'.trace = false := by
  subst hp
  have hold : ∀ i, Clearing s n.pipe i → executedIn n s'.trace = false := by
    intro i hc
    have hfalse := hE.fresh n.pipe i hc n rfl
    rcases runs_of_step hs with ⟨hr, -⟩ | ⟨q, hq⟩ | ⟨m, hm⟩ | ⟨m, b, ⟨pipeup, prms₀, hpc, ht⟩, -, ⟨N, hN⟩, -⟩
    · rw [hr.executedIn, hfalse]
    · rw [hq.trace]
      simp [executedIn, hfalse]
    · rw [hm.trace]
      exact hfalse
    · rw [ht]
      cases b with
      | true => exact hfalse
      | false =>
        simp only [executedIn, hfalse, Bool.or_false, decide_eq_false_iff_not]
        rintro rfl
        -- the node whose kernel runs is in a running instance
        have hn : (G.table.node m).isSome = true := by rw [hN]; rfl
        have hx := hF.active a.tid m (by rw [hpc]; rfl) hn
        exact (running_of_inFlight hW hS hF hn (.working (t := a.tid) (by rw [hpc]; rfl)) hx).2 i hc
  rcases clearing_of_step hs hcl with ⟨t, left, -, hpc⟩ | ⟨rfl, -, ht⟩ | ⟨left, j, hpc, -⟩
  · exact hold i ⟨t, left, hpc⟩
  · rw [ht]
    simp [executedIn]
  · exact hold j ⟨_, left, hpc⟩

/-- A run does not start while a thread is at one of its unexecuted nodes. -/
theorem starting_ne_of_passed (hW : G.Wired) (hS : Scheduling G s) (hF : Flags G s) {t : Tid} {n : NodeId}
    (h : (s.pc t).passed = some n) (hn : (G.table.node n).isSome = true) (p : Nat) (hp : Starting s a s' p) :
    p ≠ n.pipe := by
  rintro rfl
  have hl := (running_of_inFlight hW hS hF hn (.working (Pc.works_of_passed h)) (hF.active t n h hn)).1
  have hfree : n.pipe ∈ s.freeQ := by rw [hp.freeQ]; exact List.mem_cons_self
  rw [(hS.free_iff n.pipe ((hW.node_isSome n).1 hn).2).1 hfree] at hl
  cases hl

theorem completing_kept (hW : G.Wired) (hS : Scheduling G s) (hF : Flags G s) (hE : Executions G s)
    (hs : Step G s a s') (t : Tid) (n : NodeId) (prms : List Nat) (hpc : s'.pc t = .markComplete n prms)
    (hn : (G.table.node n).isSome = true) : executedIn n s'.trace = true := by
  rcases markComplete_of_step hs hpc with ⟨hpc, -⟩ | ⟨prms₀, ht⟩
  · have hp : (s.pc t).passed = some n := by rw [hpc]; rfl
    exact (run_kept hs (starting_ne_of_passed hW hS hF hp hn)).2 (hE.completing t n prms hpc hn)
  · rw [ht]
    simp [executedIn]

theorem marked_kept (hE : Executions G s) (hs : Step G s a s') (n : NodeId)
    (hn : (G.table.node n).isSome = true) (h : executedIn n s'.trace = true) :
    (s'.shm.node n).isExecuted = true ∨ ∃ t prms, s'.pc t = .markComplete n prms := by
  obtain ⟨N, hN⟩ := Option.isSome_iff_exists.1 hn
  have hold : executedIn n s.trace = true →
      (s'.shm.node n).isExecuted = true ∨ ∃ t prms, s'.pc t = .markComplete n prms := by
    intro h
    rcases hE.marked n hn h with hx | ⟨t, prms, hpc⟩
    · refine .inl (isExecuted_kept hs hx (fun left hpc => ?_))
      rw [hE.fresh n.pipe n.node ⟨_, left, hpc⟩ n rfl] at h
      cases h
    · by_cases hta : t = a.tid
      · exact .inl (isExecuted_of_markComplete hs (by rw [← hta, hpc]) hN)
      · exact .inr ⟨t, prms, by rw [pc_of_step_ne hs hta, hpc]⟩
  rcases runs_of_step hs with ⟨hr, -⟩ | ⟨p, hp⟩ | ⟨m, hm⟩ | ⟨m, b, ⟨pipeup, prms₀, -, ht⟩, hmark, -, -⟩
  · exact hold (by rw [← hr.executedIn, h])
  · rw [hp.trace, executedIn, Bool.and_eq_true] at h
    exact hold h.2
  · rw [hm.trace] at h
    exact hold h
  · rw [ht] at h
    cases b with
    | true => exact hold h
    | false =>
      simp only [executedIn, Bool.or_eq_true, decide_eq_true_eq] at h
      rcases h with rfl | h
      · obtain ⟨prms, hpc⟩ := hmark rfl
        exact .inr ⟨_, prms, hpc⟩
      · exact hold h

theorem once_kept (hW : G.Wired) (hS : Scheduling G s) (hF : Flags G s) (hE : Executions G s) (hO : OnTarget G s)
    (hs : Step G s a s') (hend : ∀ n, Ending G s a s' n → live n.pipe s.trace = true ∧ (∀ i, ¬ Clearing s n.pipe i) ∧
      n.pipe < G.pipelineDepth ∧ AllExecuted G s n.pipe 0) : runsOnce G s'.trace := by
  rcases runs_of_step hs with ⟨hr, -⟩ | ⟨p, hp⟩ | ⟨n, hn⟩ | ⟨n, b, ⟨pipeup, prms₀, hpc, ht⟩, -, ⟨N, hN⟩, -⟩
  · exact hr.once hE.once
  · rw [hp.trace]
    have hfree : p ∈ s.freeQ := by rw [hp.freeQ]; exact List.mem_cons_self
    exact ⟨(hS.free_iff p (hS.lt p hfree)).1 hfree, hE.once⟩
  · rw [hn.trace]
    obtain ⟨hl, hcl, hd, hall⟩ := hend n hn
    refine ⟨⟨hl, fun i hi => ?_⟩, hE.once⟩
    have hsome : (G.table.node ⟨i, n.pipe⟩).isSome = true := (hW.node_isSome _).2 ⟨hi, hd⟩
    exact hE.executed ⟨i, n.pipe⟩ hsome hl hcl (hall _ rfl hsome (Nat.zero_le _))
  · have hn : (G.table.node n).isSome = true := by rw [hN]; rfl
    have hfl : InFlight G s n := .working (t := a.tid) (by rw [hpc]; rfl)
    have hx := hF.active a.tid n (by rw [hpc]; rfl) hn
    obtain ⟨hl, hcl⟩ := running_of_inFlight hW hS hF hn hfl hx
    rw [ht]
    refine ⟨⟨hl, ?_, fun N' hN' k hk => ?_⟩, hE.once⟩
    · cases he : executedIn n s.trace with
      | false => rfl
      | true =>
        rcases hE.marked n hn he with h | ⟨t, prms, hpc'⟩
        · rw [hx] at h
          cases h
        · -- the thread about to mark the node complete would be the one whose kernel runs
          have htid : t = a.tid := by
            rw [hO.pc (t := t) (by rw [hpc']; rfl) hN, hO.pc (t := a.tid) (by rw [hpc]; rfl) hN]
          rw [htid, hpc] at hpc'
          cases hpc'
    · rw [hN] at hN'
      cases hN'
      obtain ⟨hkp, K, hK, -⟩ := hW.inNode n N k hN hk
      have hxk := ((hF.ready n N hN hfl).resolve_left (by rw [hx]; exact Bool.false_ne_true)) k hk
      exact hE.executed k (by rw [hK]; rfl) (by rw [hkp]; exact hl) (by rw [hkp]; exact hcl) hxk

theorem Executions.kept (hW : G.Wired) (hS : Scheduling G s) (hF : Flags G s) (hE : Executions G s) (hO : OnTarget G s)
    (hs : Step G s a s') (hend : ∀ n, Ending G s a s' n → live n.pipe s.trace = true ∧ (∀ i, ¬ Clearing s n.pipe i) ∧
      n.pipe < G.pipelineDepth ∧ AllExecuted G s n.pipe 0) : Executions G s' where
  executed := executed_kept hW hF hE hs
  marked := marked_kept hE hs
  completing := completing_kept hW hS hF hE hs
  fresh := fresh_kept hW hS hF hE hs
  closed := closed_kept hW hF hE hs
  once := once_kept hW hS hF hE hO hs hend

end Executions

end Tiovx
