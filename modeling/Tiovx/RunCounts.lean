import Mathlib.Algebra.Order.BigOperators.Group.Finset
import Mathlib.Algebra.BigOperators.Ring.Finset
import Tiovx.OncePerRun
/-!
# RunCounts — a run ends once for each time it starts

Whatever becomes of late triggers, a node is marked complete at most once for each time the host clears its flag, and a
leaf node is counted at most once for each time it is marked complete.  So no run of an instance ends that was not
started, and an id comes back to the free queue only while it is out of it.
-/
namespace Tiovx

open StepSystem

/-- How often a run of instance `p` was started. -/
def started (p : Nat) : List Event → Nat
  | .scheduled q :: l => (if q = p then 1 else 0) + started p l
  | _ :: l => started p l
  | [] => 0

/-- How often a run of instance `p` was ended. -/
def ended (p : Nat) : List Event → Nat
  | .completed q :: l => (if q = p then 1 else 0) + ended p l
  | _ :: l => ended p l
  | [] => 0

/-- How often node `n` was marked complete. -/
def marks (n : NodeId) : List Event → Nat
  | .markedComplete k :: l => (if k = n then 1 else 0) + marks n l
  | _ :: l => marks n l
  | [] => 0

/-- No head node of instance `p` was triggered yet. -/
def Untouched (s : Sys) (p : Nat) : Prop :=
  started p s.trace = 0 ∨ started p s.trace = 1 ∧ ∃ i, Clearing s p i

/-- How often node `n` was marked complete, with the time it can be next. -/
def due (s : Sys) (n : NodeId) : Nat := marks n s.trace + if (s.shm.node n).isExecuted then 0 else 1

/-- The leaf nodes of an instance. -/
def Graph.leafNodes (G : Graph) (p : Nat) : Finset Nat := (Finset.range G.numNodes).filter (fun i => G.isLeaf ⟨i, p⟩ = true)

/-- How many completions of a node are on the way to the host. -/
def tokensAt (G : Graph) (s : Sys) (n : NodeId) : Nat := ((G.table.node n).map (tokens G s n)).getD 0

/-- **The counts of a graph**: the runs that started are those that ended and the one that is on; a node was marked complete
no more often than its flag was cleared; the leaf nodes were counted no more often than they were marked complete. -/
structure Balanced (G : Graph) (s : Sys) : Prop where
  scheduling : Scheduling G s
  onTarget : OnTarget G s
  active : ∀ t n, (s.pc t).passed = some n → (G.table.node n).isSome = true → (s.shm.node n).isExecuted = false
  host : ∀ id n, .nodeUserCallback n ∈ s.jobQ id → id = G.hostTarget
  check : ∀ t n, s.pc t = .checkGraphCompleted n → t = .target G.hostTarget ∧ G.isLeaf n = true
  starts : ∀ p, started p s.trace = ended p s.trace + if live p s.trace then 1 else 0
  untouched : ∀ p, Untouched s p → Quiet G s p ∧ ∀ n, n.pipe = p → (G.table.node n).isSome = true → marks n s.trace = 0
  due_le : ∀ n, (G.table.node n).isSome = true → ¬ Untouched s n.pipe → due s n ≤ started n.pipe s.trace
  due_lt : ∀ n, (G.table.node n).isSome = true → ¬ Untouched s n.pipe → ∀ i, Clearing s n.pipe i → i ≤ n.node →
    due s n < started n.pipe s.trace
  counted : ∀ p < G.pipelineDepth, ended p s.trace * G.numLeafNodes + s.completeLeafNodes p +
    ∑ i ∈ G.leafNodes p, tokensAt G s ⟨i, p⟩ ≤ ∑ i ∈ G.leafNodes p, marks ⟨i, p⟩ s.trace

section Step

variable {G : Graph} {s s' : Sys} {a : Act}

/-- A node is marked complete. -/
structure Marking (G : Graph) (s : Sys) (a : Act) (s' : Sys) (n : NodeId) : Prop where
  move : ∃ prms, s.pc a.tid = .markComplete n prms
  node : (G.table.node n).isSome = true
  isExecuted : (s'.shm.node n).isExecuted = true
  trace : s'.trace = .markedComplete n :: s.trace

/-- A step that starts and ends no run and marks no node complete. -/
structure SameCounts (G : Graph) (s : Sys) (a : Act) (s' : Sys) : Prop where
  started : ∀ p, Tiovx.started p s'.trace = Tiovx.started p s.trace
  ended : ∀ p, Tiovx.ended p s'.trace = Tiovx.ended p s.trace
  live : ∀ p, Tiovx.live p s'.trace = Tiovx.live p s.trace
  marks : ∀ n, Tiovx.marks n s'.trace = Tiovx.marks n s.trace
  noMark : ∀ n prms, s.pc a.tid = .markComplete n prms → G.table.node n = none

/-- **What a step does to the counts.** -/
theorem counts_of_step (hs : Step G s a s') :
    SameCounts G s a s' ∨ (∃ p, Starting s a s' p) ∨ (∃ n, Ending G s a s' n) ∨ ∃ n, Marking G s a s' n := by
  cases hs with
  | @scheduled t left p l hpc hf =>
    exact .inr (.inl ⟨p, ⟨left, hpc, Function.update_self _ _ _⟩, hf, rfl⟩)
  | @completed t n hpc hl hc => exact .inr (.inr (.inl ⟨n, hpc, hl, hc, rfl, rfl⟩))
  | @markComplete t n N prms hpc hN =>
    exact .inr (.inr (.inr ⟨n, ⟨prms, hpc⟩, by rw [hN]; rfl, by simp [Sys.setPc, Sys.log, ownTargetNodeDescNodeMarkComplete],
      rfl⟩))
  | noNode hpc hN =>
    refine .inl ⟨fun _ => rfl, fun _ => rfl, fun _ => rfl, fun _ => rfl, fun n prms h => ?_⟩
    rw [Act.tid] at h
    rw [h] at hpc
    cases hpc
    exact hN
  | acquirePrm hpc hN hP hq hD =>
    unfold afterAcquire
    split
    · exact .inl ⟨fun _ => rfl, fun _ => rfl, fun _ => rfl, fun _ => rfl,
        fun n prms h => by simp only [Act.tid, *, reduceCtorEq] at h⟩
    · split <;> exact .inl ⟨fun _ => rfl, fun _ => rfl, fun _ => rfl, fun _ => rfl,
        fun n prms h => by simp only [Act.tid, *, reduceCtorEq] at h⟩
  | _ => exact .inl ⟨fun _ => rfl, fun _ => rfl, fun _ => rfl, fun _ => rfl,
      fun n prms h => by simp only [Act.tid, *, reduceCtorEq] at h⟩

theorem started_of_step (hs : Step G s a s') (p : Nat) :
    started p s'.trace = started p s.trace ∨ Starting s a s' p ∧ started p s'.trace = started p s.trace + 1 := by
  rcases counts_of_step hs with h | ⟨q, h⟩ | ⟨n, h⟩ | ⟨n, h⟩
  · exact .inl (h.started p)
  · rw [h.trace]
    by_cases hq : q = p
    · subst hq
      exact .inr ⟨h, by simp [started, Nat.add_comm]⟩
    · exact .inl (by simp [started, hq])
  · rw [h.trace]
    exact .inl rfl
  · rw [h.trace]
    exact .inl rfl

theorem ended_of_step (hs : Step G s a s') (p : Nat) :
    (ended p s'.trace = ended p s.trace ∧ ∀ n, Ending G s a s' n → n.pipe ≠ p) ∨
      (∃ n, Ending G s a s' n ∧ n.pipe = p) ∧ ended p s'.trace = ended p s.trace + 1 := by
  have hne : (∀ q, s'.trace ≠ .completed q :: s.trace) → ∀ n, Ending G s a s' n → n.pipe ≠ p :=
    fun h n hn => absurd hn.trace (h n.pipe)
  rcases counts_of_step hs with h | ⟨q, h⟩ | ⟨n, h⟩ | ⟨n, h⟩
  · refine .inl ⟨h.ended p, fun n hn hp => ?_⟩
    have he := h.ended p
    rw [hn.trace, ended, if_pos hp] at he
    omega
  · rw [h.trace]
    exact .inl ⟨rfl, hne (fun q hq => by rw [h.trace] at hq; cases hq)⟩
  · by_cases hp : n.pipe = p
    · refine .inr ⟨⟨n, h, hp⟩, ?_⟩
      rw [h.trace, ended, if_pos hp, Nat.add_comm]
    · refine .inl ⟨?_, fun m hm hmp => hp ?_⟩
      · rw [h.trace, ended, if_neg hp, Nat.zero_add]
      · have ht := hm.trace
        rw [h.trace] at ht
        rw [← hmp]
        exact Event.completed.inj (List.cons.inj ht).1
  · rw [h.trace]
    exact .inl ⟨rfl, hne (fun q hq => by rw [h.trace] at hq; cases hq)⟩

theorem marks_of_step (hs : Step G s a s') (n : NodeId) :
    marks n s'.trace = marks n s.trace ∨ Marking G s a s' n ∧ marks n s'.trace = marks n s.trace + 1 := by
  rcases counts_of_step hs with h | ⟨q, h⟩ | ⟨m, h⟩ | ⟨m, h⟩
  · exact .inl (h.marks n)
  · rw [h.trace]
    exact .inl rfl
  · rw [h.trace]
    exact .inl rfl
  · by_cases hm : m = n
    · subst hm
      exact .inr ⟨h, by rw [h.trace, marks, if_pos rfl, Nat.add_comm]⟩
    · exact .inl (by rw [h.trace, marks, if_neg hm, Nat.zero_add])

/-- A step that marks a node complete is one of those that count. -/
theorem marking_of_move (hs : Step G s a s') {n : NodeId} {prms : List Nat} (h : s.pc a.tid = .markComplete n prms)
    (hn : (G.table.node n).isSome = true) : Marking G s a s' n := by
  rcases counts_of_step hs with hc | ⟨q, hq⟩ | ⟨m, hm⟩ | ⟨m, hm⟩
  · rw [hc.noMark n prms h] at hn
    cases hn
  · obtain ⟨left, hpc, -⟩ := hq.move
    rw [h] at hpc
    cases hpc
  · have hpc := hm.move
    rw [h] at hpc
    cases hpc
  · obtain ⟨prms', hpc⟩ := hm.move
    rw [h] at hpc
    cases hpc
    exact hm

theorem untouched_of_step (hs : Step G s a s') {p : Nat} (h : Untouched s' p) : Untouched s p := by
  have hle : started p s.trace ≤ started p s'.trace := by
    rcases started_of_step hs p with he | ⟨-, he⟩ <;> omega
  rcases h with h | ⟨h, i, hc⟩
  · exact .inl (by omega)
  · rcases started_of_step hs p with he | ⟨-, he⟩
    · refine .inr ⟨by omega, ?_⟩
      rcases clearing_of_step hs hc with ⟨t, left, -, hpc⟩ | ⟨-, -, ht⟩ | ⟨left, j, hpc, -⟩
      · exact ⟨i, t, left, hpc⟩
      · rw [ht, started, if_pos rfl] at he
        omega
      · exact ⟨j, _, left, hpc⟩
    · exact .inl (by omega)

/-- The heads of an untouched instance are not triggered. -/
theorem Balanced.not_scheduleHeads (hB : Balanced G s) {p : Nat} (h : Untouched s p) (t : Tid) (left i : Nat) :
    s.pc t ≠ .scheduleHeads p left i := by
  intro hpc
  rcases h with h | ⟨-, j, hc⟩
  · have hl := (hB.scheduling.pipe t p (by rw [hpc]; rfl)).2
    have hst := hB.starts p
    rw [hl, if_pos rfl] at hst
    omega
  · exact not_scheduleHeads_of_clearing hB.scheduling hc t left i hpc

theorem untouched_kept (hW : G.Wired) (hB : Balanced G s) (hs : Step G s a s') (p : Nat) (h : Untouched s' p) :
    Quiet G s' p ∧ ∀ n, n.pipe = p → (G.table.node n).isSome = true → marks n s'.trace = 0 := by
  have hold := untouched_of_step hs h
  obtain ⟨hq, hm⟩ := hB.untouched p hold
  refine ⟨hq.kept hW hs (hB.not_scheduleHeads hold), fun n hp hn => ?_⟩
  rcases marks_of_step hs n with he | ⟨hmk, -⟩
  · rw [he]
    exact hm n hp hn
  · obtain ⟨prms, hpc⟩ := hmk.move
    exact absurd (by rw [hpc]; rfl) ((hq n hp hn).2 a.tid)

/-- The first run of an instance touches it when its flags are cleared. -/
theorem Balanced.touched (hB : Balanced G s) (hs : Step G s a s') {p : Nat} (h : Untouched s p) (h' : ¬ Untouched s' p) :
    started p s'.trace = 1 ∧ ∀ i, ¬ Clearing s' p i := by
  have hlt : 0 < started p s'.trace := Nat.pos_of_ne_zero (fun h0 => h' (.inl h0))
  have hone : started p s'.trace = 1 := by
    rcases started_of_step hs p with he | ⟨hst, he⟩
    · rcases h with h | ⟨h, -⟩ <;> omega
    · rcases h with h | ⟨-, i, t, left, hpc⟩
      · omega
      · -- an instance that is being cleared is not in the free queue
        have hfree : p ∈ s.freeQ := by rw [hst.freeQ]; exact List.mem_cons_self
        have hl := (hB.scheduling.pipe t p (by rw [hpc]; rfl)).2
        rw [(hB.scheduling.free_iff p (hB.scheduling.lt p hfree)).1 hfree] at hl
        cases hl
  exact ⟨hone, fun i hc => h' (.inr ⟨hone, i, hc⟩)⟩

/-- **The flag of a node is due once for each time it was cleared.** -/
theorem due_kept (hB : Balanced G s) (hs : Step G s a s') (n : NodeId) (hn : (G.table.node n).isSome = true)
    (h' : ¬ Untouched s' n.pipe) : due s' n ≤ started n.pipe s'.trace ∧
      ∀ i, Clearing s' n.pipe i → i ≤ n.node → due s' n < started n.pipe s'.trace := by
  by_cases h : Untouched s n.pipe
  · -- the last flag of the first run is cleared
    obtain ⟨hq, hm⟩ := hB.untouched n.pipe h
    obtain ⟨hone, hnc⟩ := hB.touched hs h h'
    refine ⟨?_, fun i hc => absurd hc (hnc i)⟩
    have hmarks : marks n s'.trace = 0 := by
      rcases marks_of_step hs n with he | ⟨hmk, -⟩
      · rw [he]
        exact hm n rfl hn
      · obtain ⟨prms, hpc⟩ := hmk.move
        exact absurd (by rw [hpc]; rfl) ((hq n rfl hn).2 a.tid)
    unfold due
    split <;> omega
  · have hle := hB.due_le n hn h
    have hlt := hB.due_lt n hn h
    have hst : started n.pipe s.trace ≤ started n.pipe s'.trace := by
      rcases started_of_step hs n.pipe with he | ⟨-, he⟩ <;> omega
    -- a flag that is not cleared in this step is due as before
    have hsame : due s' n = due s n → due s' n ≤ started n.pipe s'.trace ∧
        ∀ i, Clearing s' n.pipe i → i ≤ n.node → due s' n < started n.pipe s'.trace := by
      intro he
      rw [he]
      refine ⟨by omega, fun i hc hi => ?_⟩
      rcases clearing_of_step hs hc with ⟨t, left, -, hpc⟩ | ⟨-, -, ht⟩ | ⟨left, j, hpc, -, rfl, -⟩
      · exact Nat.lt_of_lt_of_le (hlt i ⟨t, left, hpc⟩ hi) hst
      · rw [ht, started, if_pos rfl]
        omega
      · exact Nat.lt_of_lt_of_le (hlt j ⟨_, left, hpc⟩ (by omega)) hst
    rcases marks_of_step hs n with hm | ⟨hmk, hm⟩
    · rcases isExecuted_of_step hs n with hx | ⟨prms, b, hpc, -, -⟩ | ⟨left, hpc, -, hx⟩
      · exact hsame (by unfold due; rw [hm, hx])
      · have ht := (marking_of_move hs hpc hn).trace
        rw [ht, marks, if_pos rfl] at hm
        omega
      · -- the flag is cleared, once in this run
        have hl := hlt n.node ⟨_, left, hpc⟩ (Nat.le_refl _)
        have hd : due s' n ≤ due s n + 1 := by
          unfold due
          rw [hm, hx]
          simp only [Bool.false_eq_true, if_false]
          omega
        refine ⟨by omega, fun i hc hi => ?_⟩
        rcases clearing_of_step hs hc with ⟨t, left', hta, hpc'⟩ | ⟨-, -, ht⟩ | ⟨left', j, hpc', -, rfl, -⟩
        · exact absurd (hB.scheduling.eq_tid (by rw [hpc']; rfl) (by rw [hpc]; rfl)) hta
        · rw [ht, started, if_pos rfl]
          omega
        · rw [hpc] at hpc'
          cases hpc'
          omega
    · -- the flag was clear and is set
      obtain ⟨prms, hpc⟩ := hmk.move
      have hx := hB.active a.tid n (by rw [hpc]; rfl) hn
      apply hsame
      unfold due
      rw [hm, hx, hmk.isExecuted]
      rfl

theorem marks_le_of_step (hs : Step G s a s') (n : NodeId) : marks n s.trace ≤ marks n s'.trace := by
  rcases marks_of_step hs n with h | ⟨-, h⟩ <;> omega

/-- A completion is on the way when its node was marked complete. -/
theorem tokensAt_of_step (hB : Balanced G s) (hs : Step G s a s') (n : NodeId) :
    tokensAt G s' n + marks n s.trace ≤ tokensAt G s n + marks n s'.trace := by
  have hm := marks_le_of_step hs n
  unfold tokensAt
  cases hN : G.table.node n with
  | none => simpa using hm
  | some N =>
    simp only [Option.map_some, Option.getD_some]
    rcases tokens_of_step hB.onTarget hB.host hs hN with h | ⟨⟨prms, hpc⟩, h⟩
    · omega
    · rw [(marking_of_move hs hpc (by rw [hN]; rfl)).trace, marks, if_pos rfl]
      omega

theorem sum_tokensAt_of_step (hB : Balanced G s) (hs : Step G s a s') (p : Nat) :
    ∑ i ∈ G.leafNodes p, tokensAt G s' ⟨i, p⟩ + ∑ i ∈ G.leafNodes p, marks ⟨i, p⟩ s.trace ≤
      ∑ i ∈ G.leafNodes p, tokensAt G s ⟨i, p⟩ + ∑ i ∈ G.leafNodes p, marks ⟨i, p⟩ s'.trace := by
  rw [← Finset.sum_add_distrib, ← Finset.sum_add_distrib]
  exact Finset.sum_le_sum (fun i _ => tokensAt_of_step hB hs ⟨i, p⟩)

theorem mem_leafNodes (hW : G.Wired) {n : NodeId} (h : G.isLeaf n = true) :
    n.node ∈ G.leafNodes n.pipe ∧ n.pipe < G.pipelineDepth := by
  obtain ⟨N, hN, -⟩ := isLeaf_iff.1 h
  obtain ⟨hi, hp⟩ := (hW.node_isSome n).1 (by rw [hN]; rfl)
  exact ⟨Finset.mem_filter.2 ⟨Finset.mem_range.2 hi, h⟩, hp⟩

/-- A leaf node that is counted has one completion less on the way. -/
theorem sum_tokensAt_of_check (hW : G.Wired) (hB : Balanced G s) (hs : Step G s a s') {n : NodeId}
    (h : s.pc a.tid = .checkGraphCompleted n) :
    ∑ i ∈ G.leafNodes n.pipe, tokensAt G s' ⟨i, n.pipe⟩ + 1 + ∑ i ∈ G.leafNodes n.pipe, marks ⟨i, n.pipe⟩ s.trace ≤
      ∑ i ∈ G.leafNodes n.pipe, tokensAt G s ⟨i, n.pipe⟩ + ∑ i ∈ G.leafNodes n.pipe, marks ⟨i, n.pipe⟩ s'.trace := by
  obtain ⟨ht, hleaf⟩ := hB.check _ n h
  have hlt : ∑ i ∈ G.leafNodes n.pipe, (tokensAt G s' ⟨i, n.pipe⟩ + marks ⟨i, n.pipe⟩ s.trace) <
      ∑ i ∈ G.leafNodes n.pipe, (tokensAt G s ⟨i, n.pipe⟩ + marks ⟨i, n.pipe⟩ s'.trace) := by
    refine Finset.sum_lt_sum (fun i _ => tokensAt_of_step hB hs ⟨i, n.pipe⟩) ⟨n.node, (mem_leafNodes hW hleaf).1, ?_⟩
    obtain ⟨N, hN, -⟩ := isLeaf_iff.1 hleaf
    have htok := tokens_of_check ht hs h (N := N)
    have hm := marks_le_of_step hs n
    show tokensAt G s' n + marks n s.trace < tokensAt G s n + marks n s'.trace
    simp only [tokensAt, hN, Option.map_some, Option.getD_some]
    omega
  rw [Finset.sum_add_distrib, Finset.sum_add_distrib] at hlt
  omega

theorem leafCount_kept (hW : G.Wired) (hB : Balanced G s) (hs : Step G s a s') (p : Nat) (hp : p < G.pipelineDepth) :
    ended p s'.trace * G.numLeafNodes + s'.completeLeafNodes p + ∑ i ∈ G.leafNodes p, tokensAt G s' ⟨i, p⟩ ≤
      ∑ i ∈ G.leafNodes p, marks ⟨i, p⟩ s'.trace := by
  have hold := hB.counted p hp
  have hsum := sum_tokensAt_of_step hB hs p
  rcases completeLeafNodes_of_step hs with ⟨hcnt, hno⟩ | ⟨n, hpc, hcnt, hno⟩ | ⟨n, hn, hcnt⟩
  · have hend : ended p s'.trace = ended p s.trace := by
      rcases ended_of_step hs p with ⟨h, -⟩ | ⟨⟨m, hm, -⟩, -⟩
      · exact h
      · exact absurd hm.move (hno m)
    rw [hcnt, hend]
    omega
  · have hend : ended p s'.trace = ended p s.trace := by
      rcases ended_of_step hs p with ⟨h, -⟩ | ⟨⟨m, hm, -⟩, -⟩
      · exact h
      · exact absurd hm (hno m)
    rw [hcnt, hend]
    by_cases hnp : n.pipe = p
    · subst hnp
      have hcheck := sum_tokensAt_of_check hW hB hs hpc
      rw [Function.update_self]
      omega
    · rw [Function.update_of_ne (Ne.symm hnp)]
      omega
  · rw [hcnt]
    by_cases hnp : n.pipe = p
    · subst hnp
      have hcheck := sum_tokensAt_of_check hW hB hs hn.move
      have hlast := hn.last
      have hend : ended n.pipe s'.trace = ended n.pipe s.trace + 1 := by
        rw [hn.trace, ended, if_pos rfl, Nat.add_comm]
      rw [Function.update_self, hend, Nat.add_mul]
      omega
    · have hend : ended p s'.trace = ended p s.trace := by
        rw [hn.trace, ended, if_neg hnp, Nat.zero_add]
      rw [Function.update_of_ne (Ne.symm hnp), hend]
      omega

/-- **A run that ends was started.** -/
theorem Balanced.ending (hW : G.Wired) (hB : Balanced G s) {n : NodeId} (hn : Ending G s a s' n) :
    live n.pipe s.trace = true ∧ n.pipe < G.pipelineDepth := by
  obtain ⟨ht, hleaf⟩ := hB.check _ n hn.move
  obtain ⟨hmem, hp⟩ := mem_leafNodes hW hleaf
  refine ⟨?_, hp⟩
  have hsome : ∀ i ∈ G.leafNodes n.pipe, (G.table.node ⟨i, n.pipe⟩).isSome = true := fun i hi =>
    (hW.node_isSome _).2 ⟨Finset.mem_range.1 (Finset.mem_filter.1 hi).1, hp⟩
  -- the completion that is counted is on the way
  have htok : 1 ≤ ∑ i ∈ G.leafNodes n.pipe, tokensAt G s ⟨i, n.pipe⟩ := by
    refine le_trans ?_ (Finset.single_le_sum (f := fun i => tokensAt G s ⟨i, n.pipe⟩) (fun _ _ => Nat.zero_le _) hmem)
    obtain ⟨N, hN, -⟩ := isLeaf_iff.1 hleaf
    have hc : (s.pc (.target G.hostTarget)).checks n = 1 := by
      rw [← ht, hn.move]
      exact if_pos rfl
    simp only [tokensAt, hN, Option.map_some, Option.getD_some, tokens, hc]
    omega
  have hcnt := hB.counted n.pipe hp
  have hlast := hn.last
  by_contra hl
  have hst := hB.starts n.pipe
  rw [if_neg hl] at hst
  by_cases hu : Untouched s n.pipe
  · have hzero : ∑ i ∈ G.leafNodes n.pipe, marks ⟨i, n.pipe⟩ s.trace = 0 :=
      Finset.sum_eq_zero (fun i hi => (hB.untouched n.pipe hu).2 _ rfl (hsome i hi))
    omega
  · have hle : ∑ i ∈ G.leafNodes n.pipe, marks ⟨i, n.pipe⟩ s.trace ≤ G.numLeafNodes * started n.pipe s.trace := by
      rw [← hW.numLeafNodes n.pipe hp, ← Graph.leafNodes, ← Finset.sum_const_nat (fun _ _ => rfl)]
      refine Finset.sum_le_sum (fun i hi => ?_)
      have hd := hB.due_le ⟨i, n.pipe⟩ (hsome i hi) hu
      exact le_trans (Nat.le_add_right _ _) hd
    rw [hst, Nat.add_zero, Nat.mul_comm] at hle
    omega

theorem starts_kept (hB : Balanced G s) (hs : Step G s a s') (hend : ∀ n, Ending G s a s' n → live n.pipe s.trace = true)
    (p : Nat) : started p s'.trace = ended p s'.trace + if live p s'.trace then 1 else 0 := by
  have hold := hB.starts p
  rcases counts_of_step hs with h | ⟨q, h⟩ | ⟨n, h⟩ | ⟨n, h⟩
  · rw [h.started, h.ended, h.live]
    exact hold
  · have hfree : q ∈ s.freeQ := by rw [h.freeQ]; exact List.mem_cons_self
    have hl := (hB.scheduling.free_iff q (hB.scheduling.lt q hfree)).1 hfree
    rw [h.trace]
    by_cases hq : q = p
    · subst hq
      rw [hl] at hold
      simp [started, ended, live, hold, Nat.add_comm]
    · simpa [started, ended, live, hq] using hold
  · have hl := hend n h
    rw [h.trace]
    by_cases hp : n.pipe = p
    · rw [hp] at hl
      rw [hl] at hold
      simp [started, ended, live, hp, hold, Nat.add_comm]
    · simpa [started, ended, live, hp] using hold
  · rw [h.trace]
    exact hold

/-- **The counts are kept**, whatever becomes of the triggers. -/
theorem Balanced.kept (hW : G.Wired) (hB : Balanced G s) (hs : Step G s a s') : Balanced G s' where
  scheduling := hB.scheduling.kept hs (fun _ hn => hB.ending hW hn)
  onTarget := hB.onTarget.kept hs
  active := active_kept hB.active hB.onTarget hs
  host id n h := by
    rcases nodeUserCallback_of_step hs h with h | h
    · exact hB.host id n h
    · exact h
  check t n h := by
    rcases checkGraphCompleted_of_step hs h with h | ⟨id, rfl, hj, hleaf⟩
    · exact hB.check t n h
    · exact ⟨by rw [hB.host id n hj], hleaf⟩
  starts := starts_kept hB hs (fun _ hn => (hB.ending hW hn).1)
  untouched p h := untouched_kept hW hB hs p h
  due_le n hn h := (due_kept hB hs n hn h).1
  due_lt n hn h := (due_kept hB hs n hn h).2
  counted := leafCount_kept hW hB hs

end Step

theorem Starts.balanced {G : Graph} {s : Sys} (h : Starts G s) : Balanced G s := by
  have hT := h.tracked
  have hstarted : ∀ p, started p s.trace = 0 := fun p => by rw [h.trace]; rfl
  have hmarks : ∀ n, marks n s.trace = 0 := fun n => by rw [h.trace]; rfl
  have huntouched : ∀ p, Untouched s p := fun p => .inl (hstarted p)
  refine ⟨hT.scheduling, hT.onTarget, hT.flags.active, hT.leaves.host, hT.leaves.check, fun p => ?_, fun p _ => ⟨?_, ?_⟩,
    fun n _ hu => absurd (huntouched _) hu, fun n _ hu => absurd (huntouched _) hu, fun p _ => ?_⟩
  · rw [h.trace]
    rfl
  · exact fun n _ _ => ⟨h.not_inFlight n, fun t ht => by rw [h.pc] at ht; cases ht⟩
  · exact fun n _ _ => hmarks n
  · have htok : ∀ n, tokensAt G s n = 0 := by
      intro n
      unfold tokensAt
      cases G.table.node n with
      | none => rfl
      | some N => exact h.tokens_eq n N
    rw [h.completeLeafNodes, Finset.sum_eq_zero (fun i _ => htok _), h.trace, ended, Nat.zero_mul]
    exact Nat.zero_le _

/-- **In every run the counts hold**, of a verified graph. -/
theorem balanced_of_reach {G : Graph} {s₀ s : Sys} {C : Sys → Act → Prop} (hW : G.Wired) (h0 : Starts G s₀)
    (h : Reach (step G) C s₀ s) : Balanced G s :=
  h.inv h0.balanced (fun _ _ _ hB _ hs => hB.kept hW (step_cases hs))

end Tiovx
