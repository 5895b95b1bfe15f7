import Tiovx.Conservation
import Tiovx.FreeQueue
import Tiovx.RunCounts
/-!
# GraphAbandon — what a wait reports of the runs (`vx_target_on_host_cpu.c`, `vx_graph_pipeline.c`, `vx_graph.c`)

A callback that returns `VX_ACTION_ABANDON` marks the graph descriptor of its node's instance, and the run that leaves no
other submitted gives the state of its descriptor to the graph, where `vxWaitGraph` reads it.  The callback of a leaf node
marks only after the completion was counted: the run may be over then, and the descriptor with the next one.  The status of
a kernel goes into an event of its node, and into no state.
-/
namespace Tiovx

open StepSystem

/-- A wait that has returned: the runs that had completed since the one before it, and whether its status was
`VX_ERROR_GRAPH_ABANDONED`. -/
structure WaitReport where
  runs : List Nat
  isAbandoned : Bool
deriving DecidableEq

/-- A graph with the states of its descriptors, the host that is about to set one, and the users in `vxWaitGraph`, before or
after the event.  What follows `waits` is a record the code does not keep: runs are numbered when they are submitted, and
`sent` has for each node the runs of the callbacks that are on the way to the host. -/
structure AbandonSys where
  sys : Sys
  objDescState : Nat → VxGraphState := fun _ => .verified
  state : VxGraphState := .verified
  allGraphCompleted : Bool := false
  abandons : Option Nat := none
  waits : Nat → Option Bool := fun _ => none
  numRuns : Nat := 0
  current : Nat → Option Nat := fun _ => none
  ranIn : NodeId → Option Nat := fun _ => none
  sent : NodeId → List (Option Nat) := fun _ => []
  unreported : List Nat := []
  faulty : List Nat := []
  reports : List WaitReport := []

/-- What moves: the threads as before, with callbacks that return `VX_ACTION_CONTINUE`; the host, with one that returns
`VX_ACTION_ABANDON`, and when it then sets the state; a kernel that returns an error; and a user in `vxWaitGraph`. -/
inductive AbandonAct
  | step (a : Act)
  | callbackAbandons
  | setGraphStateAbandon
  | kernelError (t : Tid) (prms : List Nat)
  | vxWaitGraph (u : Nat)
  | eventWait (u : Nat)
  | timeout (u : Nat)
  | readState (u : Nat)

/-- The end of the clearing in `ownGraphScheduleGraph`. -/
def AbandonSys.submit (s : AbandonSys) (p : Nat) : AbandonSys :=
  { s with
    objDescState := Function.update s.objDescState p .running
    state := .running
    allGraphCompleted := false
    numRuns := s.numRuns + 1
    current := Function.update s.current p (some s.numRuns) }

/-- The leaf node is the last one of its run. -/
def AbandonSys.completes (G : Graph) (s : AbandonSys) (n : NodeId) : Bool :=
  decide (s.sys.completeLeafNodes n.pipe + 1 = G.numLeafNodes)

/-- No other run is submitted. -/
def AbandonSys.isLast (s : AbandonSys) : Bool := decide (s.sys.submittedCount - 1 = 0)

/-- The state of a descriptor whose run completes. -/
def VxGraphState.complete : VxGraphState → VxGraphState
  | .running => .completed
  | st => st

/-- What `ownCheckGraphCompleted` does to the states where the run completes. -/
def AbandonSys.complete (s : AbandonSys) (p : Nat) : AbandonSys :=
  { s with
    objDescState := Function.update s.objDescState p (s.objDescState p).complete
    state := if s.isLast then (s.objDescState p).complete else s.state
    allGraphCompleted := s.allGraphCompleted || s.isLast && decide (s.sys.schedulePendingCount = 0)
    current := Function.update s.current p none
    unreported := (s.current p).toList ++ s.unreported }

/-- The node's completion is sent to the host. -/
def AbandonSys.sendsCallback (G : Graph) (s : AbandonSys) (n : NodeId) : Bool :=
  (G.table.node n).any (fun N => N.isUserCallback || N.outNodeId.isEmpty) &&
    decide ((s.sys.jobQ G.hostTarget).length < targetMaxJobQueueDepth)

/-- What a step of the threads does beside what it does to the targets and the queues. -/
def AbandonSys.record (G : Graph) (s : AbandonSys) : Act → AbandonSys
  | .thread t =>
    match s.sys.pc t with
    | .idle =>
      match t with
      | .target id =>
        match s.sys.jobQ id with
        | .nodeUserCallback n :: _ => { s with sent := Function.update s.sent n (s.sent n).tail }
        | _ => s
      | .user _ => s
    | .sendComplete n _ =>
      if s.sendsCallback G n then { s with sent := Function.update s.sent n (s.sent n ++ [s.ranIn n]) } else s
    | .clearState p _ i => if i < G.numNodes then s else s.submit p
    | .checkGraphCompleted n => if s.completes G n then s.complete n.pipe else s
    | _ => s
  | .kernel t _ =>
    match s.sys.pc t with
    | .kernel n 0 _ => { s with ranIn := Function.update s.ranIn n (s.current n.pipe) }
    | _ => s
  | _ => s

def AbandonSys.run (G : Graph) (s : AbandonSys) (a : Act) : Option AbandonSys :=
  (step G s.sys a).map fun t => { s.record G a with sys := t }

/-- The host first sets the state a callback left to set, and a user in `vxWaitGraph` does nothing else. -/
def AbandonSys.isFree (G : Graph) (s : AbandonSys) : Tid → Bool
  | .target id => !(decide (id = G.hostTarget ∧ s.sys.pc (.target id) = .idle) && s.abandons.isSome)
  | .user u => (s.waits u).isNone

/-- The run a thread executes a kernel in. -/
def AbandonSys.kernelRun (s : AbandonSys) (t : Tid) : Option Nat :=
  match s.sys.pc t with
  | .kernel n _ _ => s.current n.pipe
  | _ => none

/-- **One step.** -/
def abandonStep (G : Graph) (s : AbandonSys) : AbandonAct → Option AbandonSys
  | .step a => if s.isFree G a.tid then s.run G a else none
  | .callbackAbandons =>
    match s.sys.jobQ G.hostTarget with
    | .nodeUserCallback n :: _ =>
      if s.isFree G (.target G.hostTarget) ∧ s.sys.pc (.target G.hostTarget) = .idle ∧ (G.table.node n).isSome then
        (s.run G (.thread (.target G.hostTarget))).map fun t =>
          { t with abandons := some n.pipe, faulty := (s.sent n).head?.join.toList ++ s.faulty }
      else none
    | _ => none
  | .setGraphStateAbandon =>
    match s.abandons with
    | none => none
    | some p =>
      if s.sys.pc (.target G.hostTarget) = .idle then
        some { s with
          objDescState := if p < G.pipelineDepth then Function.update s.objDescState p .abandoned else s.objDescState
          abandons := none }
      else none
  | .kernelError t prms =>
    if s.isFree G t then
      (s.run G (.kernel t prms)).map fun s' => { s' with faulty := (s.kernelRun t).toList ++ s.faulty }
    else none
  | .vxWaitGraph u =>
    if s.sys.pc (.user u) = .idle ∧ (s.waits u).isNone then
      some (if s.state = .running ∨ s.state = .completed ∨ s.state = .abandoned then
        { s with waits := Function.update s.waits u (some false) } else s)
    else none
  | .eventWait u =>
    if s.waits u = some false ∧ s.allGraphCompleted then
      some { s with allGraphCompleted := false, waits := Function.update s.waits u (some true) }
    else none
  | .timeout u => if s.waits u = some false then some { s with waits := Function.update s.waits u none } else none
  | .readState u =>
    if s.waits u = some true then
      some { s with
        waits := Function.update s.waits u none
        unreported := []
        reports := ⟨s.unreported, decide (s.state = .abandoned)⟩ :: s.reports }
    else none

/-- **What is promised of the waits**: one that returns after runs have completed says `VX_ERROR_GRAPH_ABANDONED` exactly
where in one of them a callback abandoned or a kernel failed. -/
def ReportsRight (s : AbandonSys) : Prop :=
  ∀ w ∈ s.reports, w.runs ≠ [] → (w.isAbandoned = true ↔ ∃ r ∈ w.runs, r ∈ s.faulty)

/-- A run completes after the callback that abandoned it has set the state, and as the only one that is submitted; and no
run is submitted before one that was abandoned is reported. -/
def completesMarked (G : Graph) (s : AbandonSys) : Act → Bool
  | .thread t =>
    match s.sys.pc t with
    | .clearState _ _ i => decide (i < G.numNodes) || decide (s.state ≠ .abandoned) || s.unreported.isEmpty
    | .checkGraphCompleted n => !s.completes G n ||
        decide (s.abandons ≠ some n.pipe ∧ (s.objDescState n.pipe = .abandoned → s.isLast = true))
    | _ => true
  | _ => true

/-- **The condition**: a run completes after the callback that abandoned it has set the state, and so on; a callback that
abandons is handled while its run is on; and a kernel fails only in a run that is abandoned. -/
def marksInTime (G : Graph) (s : AbandonSys) : AbandonAct → Bool
  | .step a => completesMarked G s a
  | .callbackAbandons =>
    match s.sys.jobQ G.hostTarget with
    | .nodeUserCallback n :: _ => (s.current n.pipe).isSome && decide ((s.sent n).head? = some (s.current n.pipe))
    | _ => true
  | .kernelError t _ =>
    match s.sys.pc t with
    | .kernel n _ _ => (s.current n.pipe).isNone || decide (s.objDescState n.pipe = .abandoned) ||
        decide (s.abandons = some n.pipe)
    | _ => true
  | _ => true

section Step

variable {G : Graph} {s : AbandonSys} {a : Act} {t : Sys}

/-- **What a step of the threads records**: no more than who ran and was sent, or that a run is submitted, or completes. -/
inductive Recorded (G : Graph) (s : AbandonSys) (a : Act) (t : Sys) : Prop
  | rest (ranIn : NodeId → Option Nat) (sent : NodeId → List (Option Nat))
      (h : s.record G a = { s with ranIn := ranIn, sent := sent }) (hc : t.submittedCount = s.sys.submittedCount)
      (hn : ∀ n, ¬ Ending G s.sys a t n) (hi : ∀ p left i, s.sys.pc a.tid = .clearState p left i → i < G.numNodes)
  | submit {p left i} (ha : a = .thread a.tid) (hpc : s.sys.pc a.tid = .clearState p left i) (hi : ¬ i < G.numNodes)
      (h : s.record G a = s.submit p) (hc : t.submittedCount = s.sys.submittedCount + 1)
  | complete {n} (ha : a = .thread a.tid) (hn : Ending G s.sys a t n) (h : s.record G a = s.complete n.pipe)
      (hc : t.submittedCount = s.sys.submittedCount - 1)

/-- A thread that neither clears flags nor counts completions. -/
theorem Recorded.of_rest (ranIn : NodeId → Option Nat) (sent : NodeId → List (Option Nat)) {pc : Pc}
    (hpc : s.sys.pc a.tid = pc) (hk : ∀ n, pc ≠ .checkGraphCompleted n) (hl : ∀ p left i, pc ≠ .clearState p left i)
    (hc : t.submittedCount = s.sys.submittedCount) (h : s.record G a = { s with ranIn := ranIn, sent := sent }) :
    Recorded G s a t :=
  .rest ranIn sent h hc (fun n hE => hk n (hpc.symm.trans hE.move)) (fun p left i h => (hl p left i (hpc.symm.trans h)).elim)

theorem recorded_of_step (hs : Step G s.sys a t) : Recorded G s a t := by
  cases hs with
  | cleared hpc hi => exact .submit rfl hpc hi (by simp only [AbandonSys.record, hpc, if_neg hi]) rfl
  | clearState hpc hi =>
    refine .rest s.ranIn s.sent (by simp only [AbandonSys.record, hpc, if_pos hi]) rfl (fun n hE => ?_)
      (fun p left i h => ?_)
    · have hmove := hE.move
      rw [Act.tid, hpc] at hmove
      cases hmove
    · rw [Act.tid, hpc] at h
      cases h
      exact hi
  | completed hpc hl hc =>
    refine .complete rfl ⟨hpc, hl, hc, rfl, rfl⟩ ?_ rfl
    simp only [AbandonSys.record, hpc, AbandonSys.completes, decide_eq_true hc, if_true]
  | notCompleted hpc hl hc =>
    refine .rest s.ranIn s.sent ?_ rfl (fun n hE => ?_) (fun p left i h => ?_)
    · simp only [AbandonSys.record, hpc, AbandonSys.completes, decide_eq_false hc, Bool.false_eq_true, if_false]
    · have hmove := hE.move
      rw [Act.tid, hpc] at hmove
      cases hmove
      exact hc hE.last
    · rw [Act.tid, hpc] at h
      cases h
  | @noNode u n hpc hN =>
    refine .of_rest s.ranIn s.sent rfl (fun m h => ?_) (fun p left i h => ?_) rfl ?_
    · rw [Act.tid] at h
      rw [h] at hpc
      cases hpc
    · rw [Act.tid] at h
      rw [h] at hpc
      cases hpc
    · cases hpc' : s.sys.pc u with
      | sendComplete m blocked =>
        rw [hpc'] at hpc
        cases hpc
        simp only [AbandonSys.record, hpc', AbandonSys.sendsCallback, hN, Option.any_none, Bool.false_and,
          Bool.false_eq_true, if_false]
      | idle | clearState | checkGraphCompleted =>
        rw [hpc'] at hpc
        cases hpc
      | _ => simp only [AbandonSys.record, hpc']
  | @takeCallback id n l pc hpc hq h =>
    refine .of_rest s.ranIn (Function.update s.sent n (s.sent n).tail) hpc (by rintro _ ⟨⟩) (by rintro _ _ _ ⟨⟩) rfl ?_
    simp only [AbandonSys.record, hpc, hq]
  | @sendComplete u n N blocked hpc hN =>
    by_cases hsend : s.sendsCallback G n = true
    · refine .of_rest s.ranIn (Function.update s.sent n (s.sent n ++ [s.ranIn n])) hpc (by rintro _ ⟨⟩) (by rintro _ _ _ ⟨⟩)
        rfl ?_
      simp only [AbandonSys.record, hpc, hsend, if_true]
    · refine .of_rest s.ranIn s.sent hpc (by rintro _ ⟨⟩) (by rintro _ _ _ ⟨⟩) rfl ?_
      simp only [AbandonSys.record, hpc, hsend, if_false, Bool.false_eq_true]
  | @kernel u n N prms₀ prms hpc hN hk =>
    refine .of_rest (Function.update s.ranIn n (s.current n.pipe)) s.sent hpc (by rintro _ ⟨⟩) (by rintro _ _ _ ⟨⟩) rfl ?_
    simp only [AbandonSys.record, hpc]
  | acquirePrm hpc hN hP hq hD =>
    refine .of_rest s.ranIn s.sent hpc (by rintro _ ⟨⟩) (by rintro _ _ _ ⟨⟩) ?_ (by simp only [AbandonSys.record, hpc])
    unfold afterAcquire
    split
    · rfl
    · split <;> rfl
  | _ =>
    exact .of_rest s.ranIn s.sent ‹s.sys.pc _ = _› (by rintro _ ⟨⟩) (by rintro _ _ _ ⟨⟩) rfl
      (by simp only [AbandonSys.record, *])

end Step

section Runs

variable {G : Graph} {s s' : AbandonSys}

/-- The runs that are on are those of the descriptors that are not free, from the end of the clearing. -/
structure RunsOn (G : Graph) (s : AbandonSys) : Prop where
  balanced : Balanced G s.sys
  lt : ∀ p, (s.current p).isSome → p < G.pipelineDepth
  live : ∀ p, (s.current p).isSome → live p s.sys.trace = true
  cleared : ∀ p, (s.current p).isSome → ∀ i, ¬ Clearing s.sys p i
  covered : ∀ p, Tiovx.live p s.sys.trace = true → (s.current p).isSome ∨ ∃ i, Clearing s.sys p i
  count : s.sys.submittedCount = ∑ p ∈ Finset.range G.pipelineDepth, (s.current p).toList.length

section Live

variable {s s' : Sys} {a : Act} {p : Nat}

/-- A run is on until its completion. -/
theorem live_of_not_ending (hs : Step G s a s') (hn : ∀ n, Ending G s a s' n → n.pipe ≠ p) (h : live p s.trace = true) :
    live p s'.trace = true := by
  obtain ⟨hsame, -⟩ | ⟨q, hst⟩ | ⟨n, hE⟩ | ⟨n, b, hx⟩ := runs_of_step hs
  · rw [hsame.live]
    exact h
  · rw [hst.trace, live, h]
    exact Bool.or_true _
  · rw [hE.trace, live, h, decide_eq_false (hn n hE)]
    rfl
  · obtain ⟨pipeup, prms₀, -, htr⟩ := hx.move
    rw [htr]
    exact h

/-- A run that is on was on before, or its descriptor is now cleared. -/
theorem live_or_clearing (hs : Step G s a s') (h : live p s'.trace = true) :
    live p s.trace = true ∨ ∃ i, Clearing s' p i := by
  obtain ⟨hsame, -⟩ | ⟨q, hst⟩ | ⟨n, hE⟩ | ⟨n, b, hx⟩ := runs_of_step hs
  · rw [hsame.live] at h
    exact .inl h
  · rw [hst.trace, live, Bool.or_eq_true, decide_eq_true_eq] at h
    obtain ⟨left, -, hpc⟩ := hst.move
    rcases h with rfl | h
    · exact .inr ⟨0, a.tid, left, hpc⟩
    · exact .inl h
  · rw [hE.trace, live, Bool.and_eq_true] at h
    exact .inl h.2
  · obtain ⟨pipeup, prms₀, -, htr⟩ := hx.move
    rw [htr] at h
    exact .inl h

/-- A descriptor that is not free is not cleared again. -/
theorem not_clearing_of_live (hB : Balanced G s) (hs : Step G s a s') (hp : p < G.pipelineDepth) (hl : live p s.trace = true)
    (hc : ∀ i, ¬ Clearing s p i) (i : Nat) : ¬ Clearing s' p i := by
  intro h
  obtain ⟨t, left, -, hpc⟩ | ⟨-, hf, -⟩ | ⟨left, j, hpc, -⟩ := clearing_of_step hs h
  · exact hc i ⟨t, left, hpc⟩
  · have hmem : p ∈ s.freeQ := by rw [hf]; exact List.mem_cons_self
    rw [hB.scheduling.free_iff p hp, hl] at hmem
    cases hmem
  · exact hc j ⟨a.tid, left, hpc⟩

/-- Where a run completes no descriptor is being cleared. -/
theorem not_clearing_of_unlocked (hB : Balanced G s) (hl : s.lock = none) (i : Nat) : ¬ Clearing s p i := by
  rintro ⟨t, left, hpc⟩
  have hlock := hB.scheduling.lock t (by rw [hpc]; rfl)
  rw [hl] at hlock
  cases hlock

end Live

/-- How many runs are on, one more or one less. -/
theorem sum_current_update (current : Nat → Option Nat) {p n : Nat} (hp : p < n) (x : Option Nat) :
    ∑ q ∈ Finset.range n, (Function.update current p x q).toList.length + (current p).toList.length =
      ∑ q ∈ Finset.range n, (current q).toList.length + x.toList.length := by
  have hsum := sum_update_add (Finset.range n) (fun o : Option Nat => o.toList.length) current p x
  rw [if_pos (Finset.mem_range.2 hp), if_pos (Finset.mem_range.2 hp)] at hsum
  exact hsum

/-- A run that is on is counted, unless its descriptor is just cleared. -/
theorem RunsOn.covered_kept (h : RunsOn G s) {a : Act} {t : Sys} (hs : Step G s.sys a t) {p : Nat}
    (hi : ∀ left i, s.sys.pc a.tid = .clearState p left i → i < G.numNodes) (hp : Tiovx.live p t.trace = true) :
    (s.current p).isSome ∨ ∃ i, Clearing t p i := by
  obtain hl | hcl := live_or_clearing hs hp
  · obtain hcur | ⟨i, hcl⟩ := h.covered p hl
    · exact .inl hcur
    · by_contra hnot
      rw [not_or] at hnot
      obtain ⟨left, hpc, hlast⟩ := clearing_ends hs hcl (fun j hj => hnot.2 ⟨j, hj⟩)
      exact hlast (hi left i hpc)
  · exact .inr hcl

theorem RunsOn.kept (hW : G.Wired) (h : RunsOn G s) {a : Act} {t : Sys} (hs : Step G s.sys a t) :
    RunsOn G { s.record G a with sys := t } := by
  have hB := h.balanced.kept hW hs
  have hcl : ∀ p, (s.current p).isSome → ∀ i, ¬ Clearing t p i := fun p hp =>
    not_clearing_of_live h.balanced hs (h.lt p hp) (h.live p hp) (h.cleared p hp)
  cases recorded_of_step hs with
  | rest ranIn sent hrec hc hn hi =>
    rw [hrec]
    refine ⟨hB, h.lt, fun p hp => live_of_not_ending hs (fun n hE => (hn n hE).elim) (h.live p hp), hcl,
      fun p hp => h.covered_kept hs (hi p) hp, ?_⟩
    dsimp only
    rw [hc]
    exact h.count
  | @submit p₀ left i ha hpc hi hrec hc =>
    have hnone : s.current p₀ = none := by
      cases hcur : s.current p₀ with
      | none => rfl
      | some r => exact (h.cleared p₀ (by rw [hcur]; rfl) i ⟨a.tid, left, hpc⟩).elim
    obtain ⟨hp₀, hl₀⟩ := h.balanced.scheduling.pipe a.tid p₀ (by rw [hpc]; rfl)
    have hn : ∀ n, ¬ Ending G s.sys a t n := fun n hE => by
      have hmove := hE.move
      rw [hpc] at hmove
      cases hmove
    rw [hrec]
    refine ⟨hB, fun p hp => ?_, fun p hp => ?_, fun p hp => ?_, fun p hp => ?_, ?_⟩ <;> dsimp only [AbandonSys.submit] at *
    · by_cases hpp : p = p₀
      · rw [hpp]
        exact hp₀
      · rw [Function.update_of_ne hpp] at hp
        exact h.lt p hp
    · refine live_of_not_ending hs (fun n hE => (hn n hE).elim) ?_
      by_cases hpp : p = p₀
      · rw [hpp]
        exact hl₀
      · rw [Function.update_of_ne hpp] at hp
        exact h.live p hp
    · by_cases hpp : p = p₀
      · subst hpp
        obtain ⟨hlt, -⟩ | ⟨-, hpc'⟩ := clearState_of_step hs hpc
        · exact (hi hlt).elim
        · exact fun j hj => not_scheduleHeads_of_clearing hB.scheduling hj a.tid left 0 hpc'
      · rw [Function.update_of_ne hpp] at hp
        exact hcl p hp
    · by_cases hpp : p = p₀
      · rw [hpp, Function.update_self]
        exact .inl rfl
      · rw [Function.update_of_ne hpp]
        refine h.covered_kept hs (fun left' j hpc' => ?_) hp
        rw [hpc] at hpc'
        cases hpc'
        exact (hpp rfl).elim
    · have hsum := sum_current_update s.current hp₀ (some s.numRuns)
      have hcount := h.count
      rw [hnone] at hsum
      simp only [Option.toList_none, Option.toList_some, List.length_nil, List.length_singleton] at hsum
      omega
  | @complete n ha hE hrec hc =>
    obtain ⟨hl, hlt⟩ := h.balanced.ending hW hE
    have hfree : ∀ p i, ¬ Clearing s.sys p i := fun p i => not_clearing_of_unlocked h.balanced hE.lock i
    have hcur : (s.current n.pipe).isSome := (h.covered n.pipe hl).resolve_right (fun hc => hc.elim (hfree _))
    have hlive : ∀ p, Tiovx.live p t.trace = (!decide (n.pipe = p) && Tiovx.live p s.sys.trace) := fun p => by
      rw [hE.trace, Tiovx.live]
    rw [hrec]
    refine ⟨hB, fun p hp => ?_, fun p hp => ?_, fun p hp => ?_, fun p hp => ?_, ?_⟩ <;> dsimp only [AbandonSys.complete] at *
    · by_cases hpp : p = n.pipe
      · rw [hpp]
        exact hlt
      · rw [Function.update_of_ne hpp] at hp
        exact h.lt p hp
    · by_cases hpp : p = n.pipe
      · rw [hpp, Function.update_self] at hp
        cases hp
      · rw [Function.update_of_ne hpp] at hp
        rw [hlive, h.live p hp, decide_eq_false (fun he => hpp he.symm)]
        rfl
    · by_cases hpp : p = n.pipe
      · rw [hpp, Function.update_self] at hp
        cases hp
      · rw [Function.update_of_ne hpp] at hp
        exact hcl p hp
    · rw [hlive, Bool.and_eq_true, Bool.not_eq_true', decide_eq_false_iff_not] at hp
      rw [Function.update_of_ne (fun he => hp.1 he.symm)]
      exact .inl ((h.covered p hp.2).resolve_right (fun hc => hc.elim (hfree _)))
    · obtain ⟨r, hr⟩ := Option.isSome_iff_exists.1 hcur
      have hsum := sum_current_update s.current hlt none
      have hcount := h.count
      rw [hr] at hsum
      simp only [Option.toList_none, Option.toList_some, List.length_nil, List.length_singleton] at hsum
      omega

/-- What the waits have reported and will report. -/
structure Attributed (s : AbandonSys) : Prop where
  inj : ∀ p q r, s.current p = some r → s.current q = some r → p = q
  fresh : ∀ p r, s.current p = some r → r < s.numRuns ∧ r ∉ s.unreported ∧ ∀ w ∈ s.reports, r ∉ w.runs
  unreported_lt : ∀ r ∈ s.unreported, r < s.numRuns
  reports_lt : ∀ w ∈ s.reports, ∀ r ∈ w.runs, r < s.numRuns
  faulty_lt : ∀ r ∈ s.faulty, r < s.numRuns
  marked : ∀ p r, s.current p = some r → (r ∈ s.faulty ↔ s.objDescState p = .abandoned ∨ s.abandons = some p)
  state : ∀ p, (s.current p).isSome → s.objDescState p = .running ∨ s.objDescState p = .abandoned
  abandons : ∀ p, s.abandons = some p → (s.current p).isSome
  running : ∀ p, (s.current p).isSome → s.state ≠ .abandoned
  lost : ∀ r ∈ s.unreported, r ∈ s.faulty → s.state = .abandoned
  kept : s.state = .abandoned → s.unreported = [] ∨ ∃ r ∈ s.unreported, r ∈ s.faulty
  right : ReportsRight s

/-- **A run is submitted** where no abandoned one is to be reported. -/
theorem Attributed.submit (h : Attributed s) {p₀ : Nat} (hnone : s.current p₀ = none)
    (hc : s.state = .abandoned → s.unreported = []) : Attributed (s.submit p₀) := by
  have hcur : ∀ {p r}, (s.submit p₀).current p = some r → (p = p₀ ∧ r = s.numRuns) ∨ p ≠ p₀ ∧ s.current p = some r := by
    intro p r hp
    dsimp only [AbandonSys.submit] at hp
    by_cases hpp : p = p₀
    · rw [hpp, Function.update_self] at hp
      exact .inl ⟨hpp, (Option.some.inj hp).symm⟩
    · rw [Function.update_of_ne hpp] at hp
      exact .inr ⟨hpp, hp⟩
  refine ⟨fun p q r hp hq => ?_, fun p r hp => ?_, fun r hr => Nat.lt_succ_of_lt (h.unreported_lt r hr),
    fun w hw r hr => Nat.lt_succ_of_lt (h.reports_lt w hw r hr), fun r hr => Nat.lt_succ_of_lt (h.faulty_lt r hr),
    fun p r hp => ?_, fun p hp => ?_, fun p hp => ?_, fun p _ => nofun, fun r hr hf => ?_, nofun,
    h.right⟩
  · obtain ⟨hp, hr⟩ | ⟨-, hp⟩ := hcur hp <;> obtain ⟨hq, hr'⟩ | ⟨-, hq⟩ := hcur hq
    · rw [hp, hq]
    · exact absurd (hr ▸ (h.fresh q r hq).1) (Nat.lt_irrefl _)
    · exact absurd (hr' ▸ (h.fresh p r hp).1) (Nat.lt_irrefl _)
    · exact h.inj p q r hp hq
  · obtain ⟨-, rfl⟩ | ⟨-, hp⟩ := hcur hp
    · exact ⟨Nat.lt_succ_self _, fun hr => Nat.lt_irrefl _ (h.unreported_lt _ hr),
        fun w hw hr => Nat.lt_irrefl _ (h.reports_lt w hw _ hr)⟩
    · obtain ⟨hlt, hun, hrep⟩ := h.fresh p r hp
      exact ⟨Nat.lt_succ_of_lt hlt, hun, hrep⟩
  · dsimp only [AbandonSys.submit]
    obtain ⟨rfl, rfl⟩ | ⟨hpp, hp⟩ := hcur hp
    · rw [Function.update_self]
      refine iff_of_false (fun hr => Nat.lt_irrefl _ (h.faulty_lt _ hr)) ?_
      rintro (hst | hab)
      · cases hst
      · have hsome := h.abandons p hab
        rw [hnone] at hsome
        cases hsome
    · rw [Function.update_of_ne hpp]
      exact h.marked p r hp
  · obtain ⟨r, hr⟩ := Option.isSome_iff_exists.1 hp
    dsimp only [AbandonSys.submit]
    obtain ⟨rfl, -⟩ | ⟨hpp, hp⟩ := hcur hr
    · rw [Function.update_self]
      exact .inl rfl
    · rw [Function.update_of_ne hpp]
      exact h.state p (by rw [hp]; rfl)
  · have hsome := h.abandons p hp
    dsimp only [AbandonSys.submit]
    by_cases hpp : p = p₀
    · rw [hpp, Function.update_self]
      rfl
    · rw [Function.update_of_ne hpp]
      exact hsome
  · have hnil := hc (h.lost r hr hf)
    dsimp only [AbandonSys.submit] at hr
    rw [hnil] at hr
    cases hr

/-- **A run completes** after its mark is set, and an abandoned one as the only one that is submitted. -/
theorem Attributed.complete (h : Attributed s) {p r : Nat} (hr : s.current p = some r) (hm : s.abandons ≠ some p)
    (hc : s.objDescState p = .abandoned → s.isLast = true)
    (hlast : s.isLast = true → ∀ q, q ≠ p → s.current q = none) : Attributed (s.complete p) := by
  have hcur : ∀ {q x}, (s.complete p).current q = some x → q ≠ p ∧ s.current q = some x := by
    intro q x hq
    dsimp only [AbandonSys.complete] at hq
    by_cases hqp : q = p
    · rw [hqp, Function.update_self] at hq
      cases hq
    · rw [Function.update_of_ne hqp] at hq
      exact ⟨hqp, hq⟩
  have hsome : (s.current p).isSome := by rw [hr]; rfl
  have hfaulty : r ∈ s.faulty ↔ s.objDescState p = .abandoned := (h.marked p r hr).trans (or_iff_left hm)
  have hun : (s.complete p).unreported = r :: s.unreported := by
    dsimp only [AbandonSys.complete]
    rw [hr]
    rfl
  have hstate : (s.complete p).state = .abandoned ↔ s.objDescState p = .abandoned := by
    dsimp only [AbandonSys.complete]
    split
    · cases s.objDescState p <;> simp [VxGraphState.complete]
    · rename_i hnot
      exact iff_of_false (h.running p hsome) (fun hab => hnot (hc hab))
  refine ⟨fun q q' x hq hq' => h.inj q q' x (hcur hq).2 (hcur hq').2, fun q x hq => ?_, fun x hx => ?_, h.reports_lt,
    h.faulty_lt, fun q x hq => ?_, fun q hq => ?_, fun q hq => ?_, fun q hq => ?_, fun x hx hf => ?_, fun hst => ?_, h.right⟩
  · obtain ⟨hqp, hq⟩ := hcur hq
    obtain ⟨hlt, hnot, hrep⟩ := h.fresh q x hq
    refine ⟨hlt, ?_, hrep⟩
    rw [hun, List.mem_cons, not_or]
    refine ⟨?_, hnot⟩
    rintro rfl
    exact hqp (h.inj q p x hq hr)
  · rw [hun] at hx
    rcases List.mem_cons.1 hx with rfl | hx
    · exact (h.fresh p x hr).1
    · exact h.unreported_lt x hx
  · obtain ⟨hqp, hq⟩ := hcur hq
    dsimp only [AbandonSys.complete]
    rw [Function.update_of_ne hqp]
    exact h.marked q x hq
  · obtain ⟨x, hx⟩ := Option.isSome_iff_exists.1 hq
    obtain ⟨hqp, hq⟩ := hcur hx
    dsimp only [AbandonSys.complete]
    rw [Function.update_of_ne hqp]
    exact h.state q (by rw [hq]; rfl)
  · have hqp : q ≠ p := by
      rintro rfl
      exact hm hq
    dsimp only [AbandonSys.complete]
    rw [Function.update_of_ne hqp]
    exact h.abandons q hq
  · -- another run is on: this one is not abandoned
    obtain ⟨x, hx⟩ := Option.isSome_iff_exists.1 hq
    obtain ⟨hqp, hq⟩ := hcur hx
    rw [Ne, hstate]
    intro hab
    rw [hlast (hc hab) q hqp] at hq
    cases hq
  · rw [hstate]
    rw [hun] at hx
    rcases List.mem_cons.1 hx with rfl | hx
    · exact hfaulty.1 hf
    · exact (h.running p hsome (h.lost x hx hf)).elim
  · rw [hun]
    exact .inr ⟨r, List.mem_cons_self, hfaulty.2 (hstate.1 hst)⟩

/-- The invariant of the runs whose steps all meet the condition. -/
structure AbandonInv (G : Graph) (s : AbandonSys) : Prop where
  runsOn : RunsOn G s
  attributed : Attributed s

/-- Where a run completes as the last one that is submitted, no other is on. -/
theorem RunsOn.isLast (h : RunsOn G s) {p : Nat} (hp : (s.current p).isSome) (hl : s.isLast = true) (q : Nat) (hq : q ≠ p) :
    s.current q = none := by
  cases hcur : s.current q with
  | none => rfl
  | some r =>
    have hqs : (s.current q).isSome := by rw [hcur]; rfl
    obtain ⟨x, hx⟩ := Option.isSome_iff_exists.1 hp
    have hle : ∑ k ∈ {q, p}, (s.current k).toList.length ≤
        ∑ k ∈ Finset.range G.pipelineDepth, (s.current k).toList.length := by
      refine Finset.sum_le_sum_of_subset (fun k hk => Finset.mem_range.2 ?_)
      rcases Finset.mem_insert.1 hk with rfl | hk
      · exact h.lt k hqs
      · rw [Finset.mem_singleton.1 hk]
        exact h.lt p hp
    rw [Finset.sum_pair hq, hcur, hx, ← h.count] at hle
    have hone : s.sys.submittedCount - 1 = 0 := of_decide_eq_true hl
    simp only [Option.toList_some, List.length_singleton] at hle
    omega

/-- **A step of the threads** keeps what the waits report. -/
theorem AbandonInv.run (hW : G.Wired) (h : AbandonInv G s) {a : Act} (hc : completesMarked G s a = true)
    (hs : s.run G a = some s') : AbandonInv G s' ∧ s'.faulty = s.faulty ∧ s'.abandons = s.abandons ∧
      ((∀ p left i, s.sys.pc a.tid ≠ .clearState p left i) → (∀ n, s.sys.pc a.tid ≠ .checkGraphCompleted n) →
        s'.current = s.current ∧ s'.objDescState = s.objDescState) := by
  obtain ⟨t, hst, rfl⟩ := Option.map_eq_some_iff.1 hs
  have hstep := step_cases hst
  have hruns := h.runsOn.kept hW hstep
  cases recorded_of_step hstep with
  | rest ranIn sent hrec =>
    rw [hrec] at hruns ⊢
    exact ⟨⟨hruns, { h.attributed with }⟩, rfl, rfl, fun _ _ => ⟨rfl, rfl⟩⟩
  | @submit p left i ha hpc hi hrec =>
    rw [hrec] at hruns ⊢
    refine ⟨⟨hruns, ?_⟩, rfl, rfl, fun hcl => (hcl p left i hpc).elim⟩
    have hnone : s.current p = none := by
      cases hcur : s.current p with
      | none => rfl
      | some r => exact (h.runsOn.cleared p (by rw [hcur]; rfl) i ⟨a.tid, left, hpc⟩).elim
    rw [ha] at hc
    simp only [completesMarked, hpc, Bool.or_eq_true, decide_eq_true_eq, List.isEmpty_iff] at hc
    have hrep : s.state = .abandoned → s.unreported = [] := fun hab =>
      hc.resolve_left (fun hc => hc.elim hi (fun hne => hne hab))
    exact { h.attributed.submit hnone hrep with }
  | @complete n ha hE hrec =>
    rw [hrec] at hruns ⊢
    refine ⟨⟨hruns, ?_⟩, rfl, rfl, fun _ hck => (hck n hE.move).elim⟩
    obtain ⟨hl, -⟩ := h.runsOn.balanced.ending hW hE
    have hcur : (s.current n.pipe).isSome := (h.runsOn.covered n.pipe hl).resolve_right
      (fun ⟨i, hi⟩ => not_clearing_of_unlocked h.runsOn.balanced hE.lock i hi)
    obtain ⟨r, hr⟩ := Option.isSome_iff_exists.1 hcur
    have hcompletes : s.completes G n = true := decide_eq_true hE.last
    rw [ha] at hc
    simp only [completesMarked, hE.move, hcompletes, Bool.not_true, Bool.false_or, decide_eq_true_eq] at hc
    exact { h.attributed.complete hr hc.1 hc.2 (h.runsOn.isLast hcur) with }

/-- **A callback abandons a run** that is on, and the host has its mark to set. -/
theorem Attributed.abandon (h : Attributed s) {p r : Nat} (hr : s.current p = some r) (hn : s.abandons = none) :
    Attributed { s with abandons := some p, faulty := r :: s.faulty } := by
  have hold : ∀ x, x ≠ r → (x ∈ r :: s.faulty ↔ x ∈ s.faulty) := fun x hx => by
    rw [List.mem_cons, or_iff_right hx]
  obtain ⟨hlt, hun, hrep⟩ := h.fresh p r hr
  refine { h with
    faulty_lt := fun x hx => ?_, marked := fun q x hq => ?_, abandons := fun q hq => ?_, lost := fun x hx hf => ?_,
    kept := fun hst => ?_, right := fun w hw hne => ?_ }
  · rcases List.mem_cons.1 hx with rfl | hx
    · exact hlt
    · exact h.faulty_lt x hx
  · by_cases hqp : q = p
    · subst hqp
      rw [hr] at hq
      cases hq
      exact iff_of_true List.mem_cons_self (.inr rfl)
    · have hxr : x ≠ r := by
        rintro rfl
        exact hqp (h.inj q p x hq hr)
      rw [hold x hxr, h.marked q x hq, hn]
      exact or_congr_right (iff_of_false (fun he => by cases he) fun he => hqp (Option.some.inj he).symm)
  · cases hq
    rw [hr]
    rfl
  · have hxr : x ≠ r := by
      rintro rfl
      exact hun hx
    exact h.lost x hx ((hold x hxr).1 hf)
  · obtain hnil | ⟨x, hx, hf⟩ := h.kept hst
    · exact .inl hnil
    · exact .inr ⟨x, hx, List.mem_cons_of_mem r hf⟩
  · rw [h.right w hw hne]
    refine exists_congr fun x => and_congr_right fun hx => (hold x ?_).symm
    rintro rfl
    exact hrep w hw hx

/-- A run that is abandoned can fail once more. -/
theorem Attributed.again (h : Attributed s) {l : List Nat} (hl : ∀ r ∈ l, r ∈ s.faulty) :
    Attributed { s with faulty := l ++ s.faulty } := by
  have hmem : ∀ x, x ∈ l ++ s.faulty ↔ x ∈ s.faulty := fun x => by
    rw [List.mem_append]
    exact or_iff_right_of_imp (hl x)
  exact { h with
    faulty_lt := fun x hx => h.faulty_lt x ((hmem x).1 hx)
    marked := fun q x hq => (hmem x).trans (h.marked q x hq)
    lost := fun x hx hf => h.lost x hx ((hmem x).1 hf)
    kept := fun hst => (h.kept hst).imp_right fun ⟨x, hx, hf⟩ => ⟨x, hx, (hmem x).2 hf⟩
    right := fun w hw hne => (h.right w hw hne).trans (exists_congr fun x => and_congr_right fun _ => (hmem x).symm) }

/-- **The host sets the state** of the descriptor whose run was abandoned. -/
theorem Attributed.setAbandon (h : Attributed s) {p : Nat} (hp : s.abandons = some p) :
    Attributed { s with objDescState := Function.update s.objDescState p .abandoned, abandons := none } := by
  refine { h with marked := fun q r hq => ?_, state := fun q hq => ?_, abandons := fun _ he => (by cases he) }
  · dsimp only
    by_cases hqp : q = p
    · subst hqp
      rw [Function.update_self, h.marked q r hq]
      exact iff_of_true (.inr hp) (.inl rfl)
    · rw [Function.update_of_ne hqp, h.marked q r hq, hp]
      exact or_congr_right (iff_of_false (fun he => hqp (Option.some.inj he).symm) (fun he => by cases he))
  · dsimp only
    by_cases hqp : q = p
    · rw [hqp, Function.update_self]
      exact .inr rfl
    · rw [Function.update_of_ne hqp]
      exact h.state q hq

/-- **A wait reads the state** and reports the runs that completed since the one before it. -/
theorem Attributed.report (h : Attributed s) {waits : Nat → Option Bool} : Attributed { s with
    waits := waits, unreported := [], reports := ⟨s.unreported, decide (s.state = .abandoned)⟩ :: s.reports } := by
  refine { h with
    fresh := fun p r hp => ⟨(h.fresh p r hp).1, List.not_mem_nil, fun w hw => ?_⟩
    unreported_lt := nofun, reports_lt := fun w hw r hr => ?_, lost := nofun, kept := fun _ => .inl rfl
    right := fun w hw hne => ?_ }
  · obtain ⟨-, hun, hrep⟩ := h.fresh p r hp
    rcases List.mem_cons.1 hw with rfl | hw
    · exact hun
    · exact hrep w hw
  · rcases List.mem_cons.1 hw with rfl | hw
    · exact h.unreported_lt r hr
    · exact h.reports_lt w hw r hr
  · rcases List.mem_cons.1 hw with rfl | hw
    · rw [decide_eq_true_eq]
      exact ⟨fun hst => (h.kept hst).resolve_left hne, fun ⟨r, hr, hf⟩ => h.lost r hr hf⟩
    · exact h.right w hw hne

theorem abandonInv_of_step (hW : G.Wired) (h : AbandonInv G s) {a : AbandonAct} (hc : marksInTime G s a = true)
    (hs : abandonStep G s a = some s') : AbandonInv G s' := by
  cases a with
  | step a =>
    simp only [abandonStep] at hs
    split at hs
    · exact (h.run hW hc hs).1
    · cases hs
  | callbackAbandons =>
    simp only [abandonStep] at hs
    simp only [marksInTime] at hc
    split at hs
    · rename_i n l hq
      simp only [hq, Bool.and_eq_true, decide_eq_true_eq] at hc
      split at hs
      · rename_i hfree
        obtain ⟨hfree, hidle, -⟩ := hfree
        have hnone : s.abandons = none := by
          simpa [AbandonSys.isFree, hidle] using hfree
        obtain ⟨t, hrun, rfl⟩ := Option.map_eq_some_iff.1 hs
        have hmarked : completesMarked G s (.thread (.target G.hostTarget)) = true := by simp only [completesMarked, hidle]
        obtain ⟨ht, hfaulty, hab, hcur⟩ := h.run hW hmarked hrun
        obtain ⟨r, hr⟩ := Option.isSome_iff_exists.1 hc.1
        have hcur := (hcur (fun p left i hpc => by rw [Act.tid, hidle] at hpc; cases hpc)
          (fun n hpc => by rw [Act.tid, hidle] at hpc; cases hpc)).1
        rw [hc.2, hr, ← hfaulty]
        exact ⟨{ ht.runsOn with }, ht.attributed.abandon (by rw [hcur, hr]) (by rw [hab, hnone])⟩
      · cases hs
    · cases hs
  | setGraphStateAbandon =>
    simp only [abandonStep] at hs
    split at hs
    · cases hs
    · rename_i p hp
      split at hs
      · cases hs
        rw [if_pos (h.runsOn.lt p (h.attributed.abandons p hp))]
        exact ⟨{ h.runsOn with }, h.attributed.setAbandon hp⟩
      · cases hs
  | kernelError t prms =>
    simp only [abandonStep] at hs
    split at hs
    · obtain ⟨t', hrun, rfl⟩ := Option.map_eq_some_iff.1 hs
      obtain ⟨ht, hfaulty, -⟩ := h.run hW (a := .kernel t prms) rfl hrun
      rw [← hfaulty]
      refine ⟨{ ht.runsOn with }, ht.attributed.again fun r hr => ?_⟩
      rw [hfaulty]
      simp only [AbandonSys.kernelRun] at hr
      split at hr
      · rename_i n k prms₀ hpc
        have hcur := Option.mem_toList.1 hr
        simp only [marksInTime, hpc, Bool.or_eq_true, decide_eq_true_eq] at hc
        rw [h.attributed.marked n.pipe r hcur]
        rcases hc with (hnone | hab) | hab
        · rw [Option.isNone_iff_eq_none.1 hnone] at hcur
          cases hcur
        · exact .inl hab
        · exact .inr hab
      · cases hr
    · cases hs
  | vxWaitGraph u =>
    simp only [abandonStep] at hs
    split at hs
    · cases hs
      split
      · exact ⟨{ h.runsOn with }, { h.attributed with }⟩
      · exact h
    · cases hs
  | eventWait u | timeout u =>
    simp only [abandonStep] at hs
    split at hs
    · cases hs
      exact ⟨{ h.runsOn with }, { h.attributed with }⟩
    · cases hs
  | readState u =>
    simp only [abandonStep] at hs
    split at hs
    · cases hs
      exact ⟨{ h.runsOn with }, h.attributed.report⟩
    · cases hs

/-- **A wait reports the runs it waited for**, in every run of the system whose steps all meet the condition. -/
theorem reportsRight_of_reach {s₀ : Sys} (hW : G.Wired) (h0 : Starts G s₀) (hsub : s₀.submittedCount = 0)
    (h : Reach (abandonStep G) (fun s a => marksInTime G s a = true) { sys := s₀ } s) : ReportsRight s := by
  refine (h.inv (I := AbandonInv G) ⟨⟨h0.balanced, fun p hp => ?_, fun p hp => ?_, fun p hp => ?_, fun p hp => ?_, ?_⟩, ?_⟩
    (fun _ _ _ hi hc hs => abandonInv_of_step hW hi hc hs)).attributed.right
  · cases hp
  · cases hp
  · cases hp
  · rw [h0.trace] at hp
    cases hp
  · rw [hsub]
    exact (Finset.sum_const_zero).symm
  · refine ⟨nofun, nofun, nofun, nofun, nofun, nofun, nofun, nofun, nofun, nofun, fun _ => .inl rfl, nofun⟩

end Runs

section Source

/-- Two nodes on a target, one after the other, with a callback each. -/
def callbackChain : Graph where
  table := {
    numEntries := 100
    dataRefQ := fun _ => none
    node := fun
      | ⟨0, 0⟩ => some {
          targetId := 1
          prms := [{ isDataRefQ := false, isInput := true, dataId := 5 }]
          inNodeId := []
          outNodeId := [⟨1, 0⟩]
          prevPipeNodeId := none
          isUserCallback := true }
      | ⟨1, 0⟩ => some {
          targetId := 1
          prms := [{ isDataRefQ := false, isInput := true, dataId := 5 }]
          inNodeId := [⟨0, 0⟩]
          outNodeId := []
          prevPipeNodeId := none
          isUserCallback := true }
      | _ => none }
  hostOnly := fun _ => true
  hostTarget := 0
  numNodes := 2
  pipelineDepth := 1
  headNodes := [0]
  numLeafNodes := 1
  isNormal := true
  parameters := []

theorem callbackChain_node {n : NodeId} {N : NodeDesc} (h : callbackChain.table.node n = some N) :
    (n = ⟨0, 0⟩ ∧ N.inNodeId = [] ∧ N.outNodeId = [⟨1, 0⟩]) ∨ (n = ⟨1, 0⟩ ∧ N.inNodeId = [⟨0, 0⟩] ∧ N.outNodeId = []) := by
  simp only [callbackChain] at h
  split at h <;> cases h
  · exact .inl ⟨rfl, rfl, rfl⟩
  · exact .inr ⟨rfl, rfl, rfl⟩

theorem callbackChain_wired : callbackChain.Wired where
  node_isSome n := by
    constructor
    · intro h
      obtain ⟨N, hN⟩ := Option.isSome_iff_exists.1 h
      obtain ⟨rfl, -⟩ | ⟨rfl, -⟩ := callbackChain_node hN <;> decide
    · obtain ⟨i, p⟩ := n
      rintro ⟨hi, hp⟩
      obtain rfl : p = 0 := Nat.lt_one_iff.1 hp
      match i with
      | 0 | 1 => rfl
      | i + 2 => exact absurd hi (by simp [callbackChain])
  inNode n N k hN hk := by
    obtain ⟨rfl, hin, -⟩ | ⟨rfl, hin, -⟩ := callbackChain_node hN <;> rw [hin] at hk
    · cases hk
    · rw [List.mem_singleton] at hk
      subst hk
      exact ⟨rfl, _, rfl, List.mem_singleton_self _⟩
  outNode n N k hN hk := by
    obtain ⟨rfl, -, hout⟩ | ⟨rfl, -, hout⟩ := callbackChain_node hN <;> rw [hout] at hk
    · rw [List.mem_singleton] at hk
      subst hk
      exact ⟨rfl, _, rfl, List.mem_singleton_self _⟩
    · cases hk
  headNode h hh p N hN := by
    obtain ⟨hn, hin, -⟩ | ⟨hn, -, -⟩ := callbackChain_node hN
    · exact hin
    · cases hn
      exact absurd hh (by decide)
  numLeafNodes p hp := by
    obtain rfl : p = 0 := Nat.lt_one_iff.1 hp
    decide
  acyclic := ⟨id, fun n N k hN hk => by
    obtain ⟨rfl, hin, -⟩ | ⟨rfl, hin, -⟩ := callbackChain_node hN <;> rw [hin] at hk
    · cases hk
    · rw [List.mem_singleton] at hk
      subst hk
      exact Nat.zero_lt_one⟩

def callbackChainStart : Sys := Sys.start callbackChain (createQueues 0)

theorem callbackChain_starts : Starts callbackChain callbackChainStart := by
  refine starts_start (fun dq D h => by cases h) (fun q x hx => ?_) (Queues.blockedOn_createQueues 0)
  rw [Queues.refs_createQueues] at hx
  cases hx

def threadRuns (t : Tid) (n : Nat) : List AbandonAct := List.replicate n (.step (.thread t))

/-- The kernel of a node returns. -/
def kernelReturns : AbandonAct := .step (.kernel (.target 1) [5])

/-- A user schedules the graph, the nodes run one after the other, and the user waits. -/
def scheduleOnce : List AbandonAct := .step (.scheduleGraph 0 1) :: threadRuns (.user 0) 8
def runFirst (kernel : AbandonAct) : List AbandonAct := threadRuns (.target 1) 5 ++ [kernel] ++ threadRuns (.target 1) 8
def runLeaf : List AbandonAct := threadRuns (.target 1) 5 ++ [kernelReturns] ++ threadRuns (.target 1) 6
def waitOnce : List AbandonAct := [.vxWaitGraph 0, .eventWait 0, .readState 0]

/-- The callback of the leaf node abandons the first run, and the host sets the state when the second is submitted. -/
def leafAbandons : List AbandonAct :=
  scheduleOnce ++ runFirst kernelReturns ++ runLeaf ++ threadRuns (.target 0) 1 ++ [.callbackAbandons] ++
    threadRuns (.target 0) 1 ++ waitOnce ++ scheduleOnce ++ [.setGraphStateAbandon] ++ runFirst kernelReturns ++ runLeaf ++
    threadRuns (.target 0) 3 ++ waitOnce

/-- The kernel of the first node fails. -/
def kernelFails : List AbandonAct :=
  scheduleOnce ++ runFirst (.kernelError (.target 1) [5]) ++ runLeaf ++ threadRuns (.target 0) 3 ++ waitOnce

/-- The callback of the first node abandons the first run and not the second. -/
def firstAbandons : List AbandonAct :=
  scheduleOnce ++ runFirst kernelReturns ++ [.callbackAbandons, .setGraphStateAbandon] ++ runLeaf ++
    threadRuns (.target 0) 2 ++ waitOnce ++ scheduleOnce ++ runFirst kernelReturns ++ runLeaf ++ threadRuns (.target 0) 3 ++
    waitOnce

/-- **A run that is abandoned at its leaf node is reported as the next**, and a kernel that fails is not reported. -/
theorem leaf_abandon_misreported : callbackChain.Wired ∧ Starts callbackChain callbackChainStart ∧
    (∃ s, Reach (abandonStep callbackChain) (fun _ _ => True) { sys := callbackChainStart } s ∧
      s.reports = [⟨[1], true⟩, ⟨[0], false⟩] ∧ s.faulty = [0] ∧ ¬ ReportsRight s) ∧
    ∃ s, Reach (abandonStep callbackChain) (fun _ _ => True) { sys := callbackChainStart } s ∧
      s.reports = [⟨[0], false⟩] ∧ s.faulty = [0] ∧ ¬ ReportsRight s := by
  refine ⟨callbackChain_wired, callbackChain_starts, ?_, ?_⟩
  · have hexec : (exec (abandonStep callbackChain) (fun _ _ => true) { sys := callbackChainStart } leafAbandons).map
        (fun s => (s.reports, s.faulty)) = some ([⟨[1], true⟩, ⟨[0], false⟩], [0]) := by decide +kernel
    obtain ⟨s, hr, hs⟩ := exists_reach_of_exec hexec
    obtain ⟨hrep, hf⟩ := Prod.mk.inj hs
    refine ⟨s, hr.mono (fun _ _ _ => trivial), hrep, hf, fun h => ?_⟩
    have hwait := h ⟨[1], true⟩ (by rw [hrep]; exact List.mem_cons_self) (by decide)
    rw [hf] at hwait
    revert hwait
    decide
  · have hexec : (exec (abandonStep callbackChain) (fun _ _ => true) { sys := callbackChainStart } kernelFails).map
        (fun s => (s.reports, s.faulty)) = some ([⟨[0], false⟩], [0]) := by decide +kernel
    obtain ⟨s, hr, hs⟩ := exists_reach_of_exec hexec
    obtain ⟨hrep, hf⟩ := Prod.mk.inj hs
    refine ⟨s, hr.mono (fun _ _ _ => trivial), hrep, hf, fun h => ?_⟩
    have hwait := h ⟨[0], false⟩ (by rw [hrep]; exact List.mem_cons_self) (by decide)
    rw [hf] at hwait
    revert hwait
    decide

/-- The first wait reports the run that was abandoned, and the second that the other was not. -/
theorem reportsRight_firstAbandons : ∃ s, Reach (abandonStep callbackChain) (fun s a => marksInTime callbackChain s a = true)
    { sys := callbackChainStart } s ∧ s.reports = [⟨[1], false⟩, ⟨[0], true⟩] ∧ s.faulty = [0] ∧ ReportsRight s := by
  have hexec : (exec (abandonStep callbackChain) (marksInTime callbackChain) { sys := callbackChainStart } firstAbandons).map
      (fun s => (s.reports, s.faulty)) = some ([⟨[1], false⟩, ⟨[0], true⟩], [0]) := by decide +kernel
  obtain ⟨s, hr, hs⟩ := exists_reach_of_exec hexec
  obtain ⟨hrep, hf⟩ := Prod.mk.inj hs
  exact ⟨s, hr, hrep, hf, reportsRight_of_reach callbackChain_wired callbackChain_starts rfl hr⟩

end Source

end Tiovx
