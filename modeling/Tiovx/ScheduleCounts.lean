import Mathlib.Algebra.BigOperators.Group.Finset.Basic
import Tiovx.RunCounts
/-!
# ScheduleCounts — no requested run is lost

A request for runs of a graph is in the hands of the thread that makes it, then a run that is submitted, or pending, then
completed.  A completion takes the pending runs along and schedules them after it has given the lock back, so that for a
while they are in neither count.  The ledger counts the requests and the completions, and keeps whether
`all_graph_completed_event` was posted since a run was last submitted.
-/
namespace Tiovx

open StepSystem

/-- What was requested and completed so far. -/
structure Ledger where
  requested : Nat := 0
  completed : Nat := 0
  posted : Bool := false
deriving DecidableEq

/-- `ownCheckGraphCompleted` posts the event when no run is submitted and no schedule was pending;
`ownGraphScheduleGraph` clears it before it counts a run as submitted. -/
def Ledger.after (G : Graph) (s : Sys) (L : Ledger) : Act → Ledger
  | .scheduleGraph _ k => { L with requested := L.requested + k }
  | .thread t =>
    match s.pc t with
    | .checkGraphCompleted n =>
      if s.completeLeafNodes n.pipe + 1 = G.numLeafNodes then
        { L with
          completed := L.completed + 1
          posted := L.posted || decide (s.submittedCount - 1 = 0 ∧ s.schedulePendingCount = 0) }
      else L
    | .clearState _ _ i => if i < G.numNodes then L else { L with posted := false }
    | _ => L
  | _ => L

/-- A step of the system, with its entry in the ledger. -/
def ledgerStep (G : Graph) (x : Sys × Ledger) (a : Act) : Option (Sys × Ledger) :=
  (step G x.1 a).map (fun s => (s, x.2.after G x.1 a))

/-- The runs a thread is to schedule, or to leave pending. -/
def Pc.runs : Pc → Nat
  | .scheduleGraph k => k
  | .schedule left => left
  | .clearState _ left _ => left + 1
  | .scheduleHeads _ left _ => left
  | _ => 0

/-- The graph descriptor a thread has taken and not yet counted as submitted. -/
def Pc.takes : Pc → Nat
  | .clearState _ _ _ => 1
  | _ => 0

@[simp] theorem Pc.runs_idle : Pc.runs .idle = 0 := rfl
@[simp] theorem Pc.runs_checkGraphCompleted (n : NodeId) : (Pc.checkGraphCompleted n).runs = 0 := rfl
@[simp] theorem Pc.runs_scheduleGraph (k : Nat) : (Pc.scheduleGraph k).runs = k := rfl
@[simp] theorem Pc.runs_schedule (left : Nat) : (Pc.schedule left).runs = left := rfl
@[simp] theorem Pc.runs_clearState (p left i : Nat) : (Pc.clearState p left i).runs = left + 1 := rfl
@[simp] theorem Pc.runs_scheduleHeads (p left i : Nat) : (Pc.scheduleHeads p left i).runs = left := rfl

@[simp] theorem Pc.takes_idle : Pc.takes .idle = 0 := rfl
@[simp] theorem Pc.takes_checkGraphCompleted (n : NodeId) : (Pc.checkGraphCompleted n).takes = 0 := rfl
@[simp] theorem Pc.takes_scheduleGraph (k : Nat) : (Pc.scheduleGraph k).takes = 0 := rfl
@[simp] theorem Pc.takes_schedule (left : Nat) : (Pc.schedule left).takes = 0 := rfl
@[simp] theorem Pc.takes_clearState (p left i : Nat) : (Pc.clearState p left i).takes = 1 := rfl
@[simp] theorem Pc.takes_scheduleHeads (p left i : Nat) : (Pc.scheduleHeads p left i).takes = 0 := rfl

/-- A thread is in the schedule path, with runs in its hands. -/
def Pc.inPath : Pc → Bool
  | .scheduleGraph _ => true
  | pc => pc.schedules

/-- The runs that are pending in the graph; the thread that holds the lock has taken them over. -/
def Sys.pendingRuns (s : Sys) : Nat := if s.lock = none then s.schedulePendingCount else 0

/-- **The accounts of a graph** in a queueing mode: every requested run is completed, submitted, pending or in the hands
of a thread, and every graph descriptor is submitted, free or taken. -/
structure Accounts (G : Graph) (s : Sys) (L : Ledger) : Prop where
  balanced : Balanced G s
  holder : ∀ t, s.lock = some t → (s.pc t).schedules = true
  threads : ∃ T : Finset Tid, (∀ t, t ∉ T → s.pc t = .idle) ∧
    L.requested = L.completed + s.submittedCount + s.pendingRuns + ∑ t ∈ T, (s.pc t).runs ∧
    s.submittedCount + s.freeQ.length + ∑ t ∈ T, (s.pc t).takes = G.pipelineDepth
  pending : s.lock = none → 0 < s.schedulePendingCount → s.freeQ = []
  posted : L.posted = true → s.submittedCount = 0 ∧ 0 < L.completed
  unposted : L.posted = false → 0 < L.completed → s.submittedCount = 0 → L.completed < L.requested
  depth : 0 < L.completed → 0 < G.pipelineDepth

section Step

variable {G : Graph} {s s' : Sys} {a : Act} {L : Ledger}

/-- **What a step does to the counts of the schedules**, from where its thread stood. -/
inductive LedgerStep (G : Graph) (s : Sys) (L : Ledger) (s' : Sys) (t : Tid) : Pc → Pc → Ledger → Prop
  | rest {pc pc'} (hr : pc'.runs = pc.runs) (ht : pc'.takes = pc.takes) (hp : pc'.schedules = pc.schedules)
      (hl : s'.lock = s.lock) (hc : s'.submittedCount = s.submittedCount)
      (hs : s'.schedulePendingCount = s.schedulePendingCount) (hf : s'.freeQ = s.freeQ) : LedgerStep G s L s' t pc pc' L
  | request {k} (hl : s'.lock = s.lock) (hc : s'.submittedCount = s.submittedCount)
      (hs : s'.schedulePendingCount = s.schedulePendingCount) (hf : s'.freeQ = s.freeQ) :
      LedgerStep G s L s' t .idle (.scheduleGraph k) { L with requested := L.requested + k }
  | lock {k} (hl : s.lock = none) (hl' : s'.lock = some t) (hc : s'.submittedCount = s.submittedCount)
      (hf : s'.freeQ = s.freeQ) :
      LedgerStep G s L s' t (.scheduleGraph k) (.schedule (k + s.schedulePendingCount)) L
  | start {p left} (hl : s'.lock = s.lock) (hc : s'.submittedCount = s.submittedCount) (hf : s.freeQ = p :: s'.freeQ) :
      LedgerStep G s L s' t (.schedule (left + 1)) (.clearState p left 0) L
  | submit {p left i} (hl : s'.lock = s.lock) (hc : s'.submittedCount = s.submittedCount + 1) (hf : s'.freeQ = s.freeQ) :
      LedgerStep G s L s' t (.clearState p left i) (.scheduleHeads p left 0) { L with posted := false }
  | unlock {left} (hl : s'.lock = none) (hc : s'.submittedCount = s.submittedCount)
      (hs : s'.schedulePendingCount = left) (hf : s'.freeQ = s.freeQ) (hn : left = 0 ∨ s.freeQ = []) :
      LedgerStep G s L s' t (.schedule left) .idle L
  | complete {n pc'} (he : Ending G s a s' n) (hl : s'.lock = none) (hc : s'.submittedCount = s.submittedCount - 1)
      (hs : s'.schedulePendingCount = 0) (hr : pc'.runs = s.schedulePendingCount) (ht : pc'.takes = 0)
      (hp : pc'.schedules = false) : LedgerStep G s L s' t (.checkGraphCompleted n) pc'
        { L with
          completed := L.completed + 1
          posted := L.posted || decide (s.submittedCount - 1 = 0 ∧ s.schedulePendingCount = 0) }

/-- Every step is one of these, in a queueing mode. -/
theorem ledgerStep_of_step (hm : G.isNormal = false) (hs : Step G s a s') :
    LedgerStep (a := a) G s L s' a.tid (s.pc a.tid) (s'.pc a.tid) (L.after G s a) := by
  cases hs with
  | userSchedule hpc =>
    simp only [Act.tid, Sys.setPc, Function.update_self, hpc]
    exact .request rfl rfl rfl rfl
  | lock hpc hl =>
    simp only [Act.tid, Sys.setPc, Function.update_self, hpc, Ledger.after]
    exact .lock hl rfl rfl rfl
  | scheduled hpc hf =>
    simp only [Act.tid, Sys.setPc, Function.update_self, hpc, Ledger.after]
    exact .start rfl rfl hf
  | cleared hpc hi =>
    simp only [Act.tid, Sys.setPc, Function.update_self, hpc, Ledger.after, if_neg hi]
    exact .submit rfl rfl rfl
  | unlock hpc hf =>
    simp only [Act.tid, scheduleEnd, Sys.setPc, Function.update_self, hpc, Ledger.after]
    exact .unlock rfl rfl (by rw [hm]; rfl) rfl hf
  | completed hpc hl hc =>
    simp only [Act.tid, Sys.setPc, Function.update_self, hpc, Ledger.after, if_pos hc]
    refine .complete ⟨hpc, hl, hc, rfl, rfl⟩ hl rfl rfl ?_ ?_ ?_ <;> split
    · exact (‹s.schedulePendingCount = 0›).symm
    all_goals rfl
  | notCompleted hpc hl hc =>
    simp only [Act.tid, Sys.setPc, Function.update_self, hpc, Ledger.after, if_neg hc]
    exact .rest rfl rfl rfl rfl rfl rfl rfl
  | clearState hpc hi =>
    simp only [Act.tid, Sys.setPc, Function.update_self, hpc, Ledger.after, if_pos hi]
    exact .rest rfl rfl rfl rfl rfl rfl rfl
  | takeCallback pc hpc hq hc =>
    simp only [Act.tid, Sys.setPc, Function.update_self, hpc, Ledger.after]
    obtain ⟨rfl, -⟩ | ⟨rfl, -⟩ := hc <;> exact .rest rfl rfl rfl rfl rfl rfl rfl
  | acquirePrm hpc hN hP hq hD =>
    unfold afterAcquire
    split
    · simp only [Act.tid, Sys.setPc, Sys.log, Function.update_self, hpc, Ledger.after]
      exact .rest rfl rfl rfl rfl rfl rfl rfl
    · split <;> simp only [Act.tid, Sys.setPc, Sys.log, Function.update_self, hpc, Ledger.after] <;>
        exact .rest rfl rfl rfl rfl rfl rfl rfl
  | acquireInvalid hpc hN hP hall =>
    simp only [Act.tid, Sys.setPc, Sys.setNode, Function.update_self, hpc, Ledger.after]
    split <;> exact .rest rfl rfl rfl rfl rfl rfl rfl
  | @noNode t n hpc hN =>
    simp only [Act.tid, Sys.setPc, Function.update_self, Ledger.after]
    cases h : s.pc t <;> rw [h] at hpc <;> first | cases hpc; done | exact .rest rfl rfl rfl rfl rfl rfl rfl
  | enqueueFailed hpc =>
    exact .rest rfl rfl rfl rfl rfl rfl rfl
  | dequeued hpc =>
    exact .rest rfl rfl rfl rfl rfl rfl rfl
  | _ =>
    simp only [Act.tid, Sys.setPc, Sys.log, Function.update_self, Ledger.after, *]
    exact .rest rfl rfl rfl rfl rfl rfl rfl

/-- A step changes what one thread adds to a sum over the threads. -/
theorem sum_pc_of_step (hs : Step G s a s') {T : Finset Tid} (hT : ∀ t, t ∉ T → s.pc t = .idle) {w : Pc → Nat}
    (hw : w .idle = 0) : ∑ t ∈ insert a.tid T, w (s'.pc t) + w (s.pc a.tid) =
      ∑ t ∈ T, w (s.pc t) + w (s'.pc a.tid) := by
  have hold : ∑ t ∈ insert a.tid T, w (s.pc t) = ∑ t ∈ T, w (s.pc t) :=
    Finset.sum_insert_of_eq_zero_if_notMem (fun h => by rw [hT _ h, hw])
  have hrest : ∑ t ∈ (insert a.tid T).erase a.tid, w (s'.pc t) = ∑ t ∈ (insert a.tid T).erase a.tid, w (s.pc t) :=
    Finset.sum_congr rfl (fun t ht => by rw [pc_of_step_ne hs (Finset.ne_of_mem_erase ht)])
  have hmem : a.tid ∈ insert a.tid T := Finset.mem_insert_self _ _
  rw [← hold, ← Finset.sum_erase_add _ _ hmem, ← Finset.sum_erase_add _ (fun t => w (s.pc t)) hmem, hrest]
  omega

theorem idle_of_step (hs : Step G s a s') {T : Finset Tid} (hT : ∀ t, t ∉ T → s.pc t = .idle) (t : Tid)
    (ht : t ∉ insert a.tid T) : s'.pc t = .idle := by
  rw [Finset.mem_insert, not_or] at ht
  rw [pc_of_step_ne hs ht.1]
  exact hT t ht.2

/-- While the lock is free no graph descriptor is taken. -/
theorem Accounts.sum_takes (hA : Accounts G s L) (hl : s.lock = none) (T : Finset Tid) :
    ∑ t ∈ T, (s.pc t).takes = 0 := by
  refine Finset.sum_eq_zero (fun t _ => ?_)
  cases h : s.pc t with
  | clearState p left i =>
    have := hA.balanced.scheduling.lock t (by rw [h]; rfl)
    rw [hl] at this
    cases this
  | _ => rfl

/-- **A run that ends was submitted.** -/
theorem Accounts.submitted_pos (hW : G.Wired) (hA : Accounts G s L) {n : NodeId} (hn : Ending G s a s' n) :
    0 < s.submittedCount := by
  obtain ⟨T, -, -, hd⟩ := hA.threads
  rw [hA.sum_takes hn.lock] at hd
  obtain ⟨hl, hp⟩ := hA.balanced.ending hW hn
  -- the instance that ends is not free
  have hsub : s.freeQ ⊆ (List.range G.pipelineDepth).erase n.pipe := by
    intro q hq
    have hne : q ≠ n.pipe := by
      rintro rfl
      rw [(hA.balanced.scheduling.free_iff _ hp).1 hq] at hl
      cases hl
    exact (List.mem_erase_of_ne hne).2 (List.mem_range.2 (hA.balanced.scheduling.lt q hq))
  have hle := (List.subperm_of_subset hA.balanced.scheduling.nodup hsub).length_le
  rw [List.length_erase_of_mem (List.mem_range.2 hp), List.length_range] at hle
  omega

theorem threads_kept (hW : G.Wired) (hm : G.isNormal = false) (hA : Accounts G s L) (hs : Step G s a s') :
    ∃ T : Finset Tid, (∀ t, t ∉ T → s'.pc t = .idle) ∧
      (L.after G s a).requested = (L.after G s a).completed + s'.submittedCount + s'.pendingRuns +
        ∑ t ∈ T, (s'.pc t).runs ∧
      s'.submittedCount + s'.freeQ.length + ∑ t ∈ T, (s'.pc t).takes = G.pipelineDepth := by
  obtain ⟨T, hT, hr, hd⟩ := hA.threads
  have hruns := sum_pc_of_step hs hT (w := Pc.runs) rfl
  have htakes := sum_pc_of_step hs hT (w := Pc.takes) rfl
  refine ⟨insert a.tid T, idle_of_step hs hT, ?_⟩
  have hholder := hA.balanced.scheduling.lock a.tid
  have hL := ledgerStep_of_step (L := L) hm hs
  generalize hpc : s.pc a.tid = pc at hL hruns htakes hholder
  generalize hpc' : s'.pc a.tid = pc' at hL hruns htakes
  generalize L.after G s a = L' at hL
  unfold Sys.pendingRuns at hr ⊢
  cases hL with
  | rest hr' ht' hp hl hc hs' hf =>
    rw [hl, hc, hs', hf]
    omega
  | request hl hc hs' hf =>
    rw [Pc.runs_idle, Pc.runs_scheduleGraph] at hruns
    rw [Pc.takes_idle, Pc.takes_scheduleGraph] at htakes
    rw [hl, hc, hs', hf]
    refine ⟨?_, by omega⟩
    simp only
    omega
  | lock hl hl' hc hf =>
    rw [Pc.runs_scheduleGraph, Pc.runs_schedule] at hruns
    rw [Pc.takes_scheduleGraph, Pc.takes_schedule] at htakes
    rw [if_pos hl] at hr
    rw [hl', hc, hf, if_neg (Option.some_ne_none _)]
    omega
  | start hl hc hf =>
    rw [Pc.runs_schedule, Pc.runs_clearState] at hruns
    rw [Pc.takes_schedule, Pc.takes_clearState] at htakes
    rw [hholder rfl, if_neg (Option.some_ne_none _)] at hr
    rw [hf, List.length_cons] at hd
    rw [hl, hholder rfl, hc, if_neg (Option.some_ne_none _)]
    omega
  | submit hl hc hf =>
    rw [Pc.runs_clearState, Pc.runs_scheduleHeads] at hruns
    rw [Pc.takes_clearState, Pc.takes_scheduleHeads] at htakes
    rw [hholder rfl, if_neg (Option.some_ne_none _)] at hr
    rw [hl, hholder rfl, hc, hf, if_neg (Option.some_ne_none _)]
    refine ⟨?_, by omega⟩
    simp only
    omega
  | unlock hl hc hs' hf hn =>
    rw [Pc.runs_schedule, Pc.runs_idle] at hruns
    rw [Pc.takes_schedule, Pc.takes_idle] at htakes
    rw [hholder rfl, if_neg (Option.some_ne_none _)] at hr
    rw [hl, hc, hs', hf, if_pos rfl]
    omega
  | complete he hl hc hs' hr' ht' hp =>
    have hpos := hA.submitted_pos hW he
    rw [Pc.runs_checkGraphCompleted] at hruns
    rw [Pc.takes_checkGraphCompleted] at htakes
    rw [if_pos he.lock] at hr
    rw [hl, hc, hs', he.freeQ, List.length_append, List.length_singleton, if_pos rfl]
    refine ⟨?_, by omega⟩
    simp only
    omega

/-- **The accounts are kept** in every step. -/
theorem Accounts.kept (hW : G.Wired) (hm : G.isNormal = false) (hA : Accounts G s L) (hs : Step G s a s') :
    Accounts G s' (L.after G s a) := by
  have hthreads := threads_kept hW hm hA hs
  have hbal := hA.balanced.kept hW hs
  have hL := ledgerStep_of_step (L := L) hm hs
  -- the lock is held by the thread that moves, or by another one that stays where it is
  have hholder : ∀ t, t ≠ a.tid → s.lock = some t → (s'.pc t).schedules = true := by
    intro t ht hl
    rw [pc_of_step_ne hs ht]
    exact hA.holder t hl
  have hlock := hA.balanced.scheduling.lock a.tid
  have hheld := hA.holder a.tid
  generalize hpc : s.pc a.tid = pc at hL hlock hheld
  generalize hpc' : s'.pc a.tid = pc' at hL
  generalize L.after G s a = L' at hL hthreads ⊢
  cases hL with
  | rest hr ht hp hl hc hs' hf =>
    refine ⟨hbal, fun t h => ?_, hthreads, ?_, ?_, ?_, hA.depth⟩
    · rw [hl] at h
      by_cases hta : t = a.tid
      · subst hta
        rw [hpc', hp]
        exact hheld h
      · exact hholder t hta h
    · rw [hl, hs', hf]
      exact hA.pending
    · rw [hc]
      exact hA.posted
    · rw [hc]
      exact hA.unposted
  | request hl hc hs' hf =>
    refine ⟨hbal, fun t h => ?_, hthreads, ?_, ?_, ?_, hA.depth⟩
    · rw [hl] at h
      by_cases hta : t = a.tid
      · subst hta
        cases hheld h
      · exact hholder t hta h
    · rw [hl, hs', hf]
      exact hA.pending
    · rw [hc]
      exact hA.posted
    · rw [hc]
      exact fun hp hpos hz => Nat.lt_of_lt_of_le (hA.unposted hp hpos hz) (Nat.le_add_right _ _)
  | lock hl hl' hc hf =>
    refine ⟨hbal, fun t h => ?_, hthreads, fun h => ?_, ?_, ?_, hA.depth⟩
    · rw [hl'] at h
      cases h
      rw [hpc']
      rfl
    · rw [hl'] at h
      cases h
    · rw [hc]
      exact hA.posted
    · rw [hc]
      exact hA.unposted
  | start hl hc hf =>
    refine ⟨hbal, fun t h => ?_, hthreads, fun h => ?_, ?_, ?_, hA.depth⟩
    · rw [hl, hlock rfl] at h
      cases h
      rw [hpc']
      rfl
    · rw [hl, hlock rfl] at h
      cases h
    · rw [hc]
      exact hA.posted
    · rw [hc]
      exact hA.unposted
  | submit hl hc hf =>
    refine ⟨hbal, fun t h => ?_, hthreads, fun h => ?_, fun h => ?_, fun _ _ h => ?_, hA.depth⟩
    · rw [hl, hlock rfl] at h
      cases h
      rw [hpc']
      rfl
    · rw [hl, hlock rfl] at h
      cases h
    · cases h
    · rw [hc] at h
      cases h
  | unlock hl hc hs' hf hn =>
    refine ⟨hbal, fun t h => ?_, hthreads, fun _ h => ?_, ?_, ?_, hA.depth⟩
    · rw [hl] at h
      cases h
    · rw [hs'] at h
      rw [hf]
      exact hn.resolve_left (Nat.ne_of_gt h)
    · rw [hc]
      exact hA.posted
    · rw [hc]
      exact hA.unposted
  | complete he hl hc hs' hr ht hp =>
    have hpos := hA.submitted_pos hW he
    refine ⟨hbal, fun t h => ?_, hthreads, fun _ h => ?_, fun h => ?_, fun h _ hz => ?_, fun _ => ?_⟩
    · rw [hl] at h
      cases h
    · rw [hs'] at h
      cases h
    · simp only [Bool.or_eq_true, decide_eq_true_eq] at h
      rcases h with h | ⟨h, -⟩
      · have := (hA.posted h).1
        omega
      · exact ⟨by rw [hc, h], Nat.succ_pos _⟩
    · -- the pending runs are in the hands of the thread
      obtain ⟨T, hT, hr', -⟩ := hthreads
      have hsched : s.schedulePendingCount ≠ 0 := by
        intro h0
        rw [hc] at hz
        simp [hz, h0] at h
      have hmem : a.tid ∈ T := by
        by_contra hn
        rw [← hpc', hT _ hn] at hr
        exact hsched hr.symm
      have hle := Finset.single_le_sum (f := fun t => (s'.pc t).runs) (fun _ _ => Nat.zero_le _) hmem
      simp only [hpc', hr] at hle
      simp only at hr' ⊢
      omega
    · exact Nat.lt_of_le_of_lt (Nat.zero_le _) (hA.balanced.ending hW he).2

end Step

section Runs

variable {G : Graph} {s₀ s : Sys} {L : Ledger} {C : Sys × Ledger → Act → Prop}

theorem Starts.accounts (h : Starts G s) (hsub : s.submittedCount = 0) (hpend : s.schedulePendingCount = 0) :
    Accounts G s {} := by
  refine ⟨h.balanced, fun t ht => ?_, ⟨∅, fun t _ => h.pc t, ?_, ?_⟩, fun _ hp => ?_, fun hp => ?_, fun _ hp => ?_, fun hp => ?_⟩
  · rw [h.lock] at ht
    cases ht
  · rw [Sys.pendingRuns, hsub, hpend, ite_self]
    rfl
  · rw [hsub, h.freeQ, List.length_range, Finset.sum_empty, Nat.zero_add, Nat.add_zero]
  · rw [hpend] at hp
    cases hp
  all_goals cases hp

theorem accounts_of_reach (hW : G.Wired) (hm : G.isNormal = false) (h0 : Starts G s₀) (hsub : s₀.submittedCount = 0)
    (hpend : s₀.schedulePendingCount = 0) (h : Reach (ledgerStep G) C (s₀, {}) (s, L)) : Accounts G s L := by
  refine h.inv (I := fun x => Accounts G x.1 x.2) (h0.accounts hsub hpend) ?_
  intro x a y hA _ hs
  obtain ⟨s', hs', rfl⟩ := Option.map_eq_some_iff.1 hs
  exact hA.kept hW hm (step_cases hs')

/-- While no thread is in the schedule path the lock is free, and no thread has runs in its hands. -/
theorem Accounts.at_rest (hA : Accounts G s L) (h : ∀ t, (s.pc t).inPath = false) :
    s.lock = none ∧ ∀ T : Finset Tid, ∑ t ∈ T, (s.pc t).runs = 0 := by
  constructor
  · cases hl : s.lock with
    | none => rfl
    | some t =>
      have hs := hA.holder t hl
      have ht := h t
      cases hpc : s.pc t <;> rw [hpc] at hs ht <;> first | cases hs; done | cases ht
  · refine fun T => Finset.sum_eq_zero (fun t _ => ?_)
    have ht := h t
    cases hpc : s.pc t <;> rw [hpc] at ht <;> first | rfl | cases ht

/-- **No requested run is lost.**  In a queueing mode every requested run is completed, submitted, pending, or in the hands
of a thread in the schedule path; no more runs are submitted than there are graph descriptors.  When no thread is in the
schedule path, runs are pending only while all graph descriptors are submitted, and the event is posted when runs were
completed and none is left. -/
theorem requested_eq (hW : G.Wired) (hm : G.isNormal = false) (h0 : Starts G s₀) (hsub : s₀.submittedCount = 0)
    (hpend : s₀.schedulePendingCount = 0) (h : Reach (ledgerStep G) C (s₀, {}) (s, L)) :
    (∃ T : Finset Tid, (∀ t, t ∉ T → s.pc t = .idle) ∧
      L.requested = L.completed + s.submittedCount + s.pendingRuns + ∑ t ∈ T, (s.pc t).runs) ∧
    s.submittedCount ≤ G.pipelineDepth ∧
    ((∀ t, (s.pc t).inPath = false) →
      L.requested = L.completed + s.submittedCount + s.schedulePendingCount ∧
      (0 < s.schedulePendingCount → s.submittedCount = G.pipelineDepth) ∧
      (L.posted = true ↔ 0 < L.completed ∧ s.submittedCount = 0 ∧ s.schedulePendingCount = 0)) := by
  have hA := accounts_of_reach hW hm h0 hsub hpend h
  obtain ⟨T, hT, hr, hd⟩ := hA.threads
  refine ⟨⟨T, hT, hr⟩, by omega, fun hrest => ?_⟩
  obtain ⟨hl, hruns⟩ := hA.at_rest hrest
  rw [hruns T, Sys.pendingRuns, if_pos hl] at hr
  rw [hA.sum_takes hl T] at hd
  have hfull : 0 < s.schedulePendingCount → s.submittedCount = G.pipelineDepth := by
    intro hp
    rw [hA.pending hl hp, List.length_nil] at hd
    exact hd
  refine ⟨by omega, hfull, fun hp => ?_, ?_⟩
  · obtain ⟨hz, hc⟩ := hA.posted hp
    have hpos := hA.depth hc
    refine ⟨hc, hz, Nat.eq_zero_of_not_pos (fun hp => ?_)⟩
    have := hfull hp
    omega
  · rintro ⟨hc, hz, hp⟩
    by_contra hnot
    have := hA.unposted (by simpa using hnot) hc hz
    omega

end Runs

section Join

/-- The join of two head nodes, in a queueing mode. -/
def autoJoin : Graph := { join with isNormal := false }

theorem autoJoin_wired : autoJoin.Wired where
  node_isSome := join_wired.node_isSome
  inNode := join_wired.inNode
  outNode := join_wired.outNode
  headNode := join_wired.headNode
  numLeafNodes := join_wired.numLeafNodes
  acyclic := join_wired.acyclic

theorem autoJoin_starts : Starts autoJoin (Sys.start autoJoin (createQueues 0)) :=
  starts_start (fun dq D h => by cases h) (fun q x hx => by rw [Queues.refs_createQueues] at hx; cases hx)
    (fun q => Queues.blockedOn_createQueues 0 q)

/-- Two runs are requested, and the first completes. -/
def autoJoinOnce : List Act := .scheduleGraph 0 2 :: joinOnce.tail

/-- The run that was pending is in neither count while the host takes it from the completion to the next schedule, and
both counts are zero without the event. -/
theorem autoJoin_in_hand : autoJoin.Wired ∧ autoJoin.isNormal = false ∧ Starts autoJoin (Sys.start autoJoin (createQueues 0)) ∧
    ∃ s L, Reach (ledgerStep autoJoin) (fun x a => anyStep x a = true) (Sys.start autoJoin (createQueues 0), {}) (s, L) ∧
      L.requested ≠ L.completed + s.submittedCount + s.schedulePendingCount ∧
      s.submittedCount = 0 ∧ s.schedulePendingCount = 0 ∧ 0 < L.completed ∧ L.posted = false := by
  refine ⟨autoJoin_wired, rfl, autoJoin_starts, ?_⟩
  have hexec : (exec (ledgerStep autoJoin) anyStep (Sys.start autoJoin (createQueues 0), {}) autoJoinOnce).map
      (fun x => (x.2, x.1.submittedCount, x.1.schedulePendingCount)) = some (⟨2, 1, false⟩, 0, 0) := by decide +kernel
  obtain ⟨⟨s, L⟩, hr, hs⟩ := exists_reach_of_exec hexec
  simp only [Prod.mk.injEq] at hs
  obtain ⟨rfl, hsub, hpend⟩ := hs
  refine ⟨s, _, hr, ?_, hsub, hpend, Nat.one_pos, rfl⟩
  rw [hsub, hpend]
  decide

/-- The accounts of the same run. -/
theorem requested_eq_autoJoin : ∃ s L,
    Reach (ledgerStep autoJoin) (fun x a => anyStep x a = true) (Sys.start autoJoin (createQueues 0), {}) (s, L) ∧
      L.requested = 2 ∧ s.submittedCount ≤ autoJoin.pipelineDepth := by
  have hexec : (exec (ledgerStep autoJoin) anyStep (Sys.start autoJoin (createQueues 0), {}) autoJoinOnce).map
      (fun x => x.2.requested) = some 2 := by decide +kernel
  obtain ⟨⟨s, L⟩, hr, hs⟩ := exists_reach_of_exec hexec
  exact ⟨s, L, hr, hs, (requested_eq autoJoin_wired rfl autoJoin_starts rfl rfl hr).2.1⟩

end Join

end Tiovx
