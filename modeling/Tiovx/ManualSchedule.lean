import Tiovx.Conservation
import Tiovx.FreeQueue
import Tiovx.ScheduleCounts
/-!
# ManualSchedule — how many runs the manual mode requests (`vx_graph.c`, `vx_graph_pipeline.c`)

In the manual mode `vxScheduleGraph` requests as many runs as references are ready at every parameter.  It looks at the state
of the graph and reads the counts of the ready queues one after the other, without the lock of the graph, while the targets
take references and complete runs.  A reference that a requested run has still to take is read as ready.
-/
namespace Tiovx

open StepSystem

/-- A user in `ownGraphGetNumSchedule`: the next parameter and the least count so far, with what was requested and what was
taken in the pipe-up when the call began. -/
structure CountReading where
  index : Nat := 0
  minCount : Nat := 2 ^ 32 - 1
  requested : Nat
  pipeups : Nat

/-- A graph in the manual mode with the users that are in `vxScheduleGraph`. -/
structure ManualSys where
  sys : Sys
  ledger : Ledger := {}
  state : VxGraphState := .verified
  reading : Nat → Option CountReading := fun _ => none

/-- What moves: the targets and the users as before, and a user that calls `vxScheduleGraph` or reads the next count. -/
inductive ManualAct
  | step (a : Act)
  | vxScheduleGraph (u : Nat)
  | readCount (u : Nat)

/-- The state of the graph, as `ownGraphScheduleGraph` and `ownCheckGraphCompleted` set it; a run that is abandoned is one
that completes. -/
def VxGraphState.after (G : Graph) (s : Sys) (st : VxGraphState) : Act → VxGraphState
  | .thread t =>
    match s.pc t with
    | .clearState _ _ i => if i < G.numNodes then st else .running
    | .checkGraphCompleted n =>
      if s.completeLeafNodes n.pipe + 1 = G.numLeafNodes ∧ s.submittedCount - 1 = 0 then .completed else st
    | _ => st
  | _ => st

/-- The states in which `ownGraphScheduleGraphWrapper` schedules. -/
def VxGraphState.isSchedulable : VxGraphState → Bool
  | .verified | .completed | .abandoned => true
  | .unverified | .running => false

/-- The entries of a ready queue. -/
def Sys.readyCount (s : Sys) (q : Nat) : Nat := (s.shm.queue.refs q).length

/-- A run takes a reference from queue `q`. -/
def isRunAcquired (G : Graph) (q : Nat) : Event → Bool
  | .acquired dq _ false => (G.table.dataRefQ dq).any (fun D => D.acquireQObjDescId = q)
  | _ => false

def isPipeupAcquired : Event → Bool
  | .acquired _ _ isPipeup => isPipeup
  | _ => false

def isEnqueuedAt (q : Nat) : Event → Bool
  | .enqueued q' _ => q' = q
  | _ => false

/-- The references that runs have taken from queue `q`, those taken in the pipe-up, and those enqueued at `q`. -/
def Sys.acquiredRuns (G : Graph) (s : Sys) (q : Nat) : Nat := s.trace.countP (isRunAcquired G q)
def Sys.pipeups (s : Sys) : Nat := s.trace.countP isPipeupAcquired
def Sys.enqueuedAt (s : Sys) (q : Nat) : Nat := s.trace.countP (isEnqueuedAt q)

/-- A thread is in no call that reads the counts. -/
def ManualSys.isFree (s : ManualSys) : Tid → Bool
  | .user u => (s.reading u).isNone
  | .target _ => true

def ManualSys.run (G : Graph) (s : ManualSys) (a : Act) : Option ManualSys :=
  (ledgerStep G (s.sys, s.ledger) a).map fun R =>
    { s with sys := R.1, ledger := R.2, state := s.state.after G s.sys a }

/-- **One step**: the user's own `ownGraphScheduleGraph` begins where all counts are read. -/
def manualStep (G : Graph) (s : ManualSys) : ManualAct → Option ManualSys
  | .step (.scheduleGraph _ _) => none
  | .step a => if s.isFree a.tid then s.run G a else none
  | .vxScheduleGraph u =>
    if s.sys.pc (.user u) = .idle ∧ s.isFree (.user u) = true then
      some (if s.state.isSchedulable then
        { s with reading := Function.update s.reading u (some { requested := s.ledger.requested, pipeups := s.sys.pipeups }) }
      else s)
    else none
  | .readCount u =>
    match s.reading u with
    | none => none
    | some R =>
      match G.parameters[R.index]? with
      | some P =>
        let count := s.sys.readyCount P.readyQ
        let R := { R with index := R.index + 1, minCount := if count < R.minCount then count else R.minCount }
        some { s with reading := Function.update s.reading u (some R) }
      | none =>
        let numSchedule := if R.minCount = 2 ^ 32 - 1 then 0 else R.minCount
        let s := { s with reading := Function.update s.reading u none }
        if 0 < numSchedule then s.run G (.scheduleGraph u numSchedule) else some s

/-- **Every requested run has its references**: at each parameter no more runs are requested than references were enqueued,
and the requested runs that have not taken theirs find it in the ready queue. -/
def RunsHaveRefs (G : Graph) (s : ManualSys) : Prop :=
  ∀ P ∈ G.parameters, s.ledger.requested ≤ s.sys.enqueuedAt P.readyQ ∧
    s.ledger.requested ≤ s.sys.acquiredRuns G P.readyQ + s.sys.readyCount P.readyQ

/-- The queue a pipe-up execution is about to take a reference from. -/
def Sys.pipeupTakes (G : Graph) (s : Sys) : Act → Option Nat
  | .thread t =>
    match s.pc t with
    | .acquire n (_ + 1) prms =>
      match G.prmQueue n prms.length with
      | some (dq, D) => if (s.shm.dataRefQ dq).isRefAcquired then none else some D.acquireQObjDescId
      | none => none
    | _ => none
  | _ => none

/-- **The condition**: the count of a parameter is read when every requested run has taken its reference there; runs are
requested when no other was since the call began, and no reference was taken in the pipe-up; and the pipe-up takes a
reference of a parameter only where one more is ready than the requested runs have still to take. -/
def CountsOwn (G : Graph) (s : ManualSys) : ManualAct → Prop
  | .step a => ∀ P ∈ G.parameters, s.sys.pipeupTakes G a = some P.readyQ → 0 < s.sys.readyCount P.readyQ →
      s.ledger.requested < s.sys.acquiredRuns G P.readyQ + s.sys.readyCount P.readyQ
  | .vxScheduleGraph _ => True
  | .readCount u => ∀ R ∈ s.reading u,
      (∀ P ∈ G.parameters[R.index]?, s.ledger.requested ≤ s.sys.acquiredRuns G P.readyQ) ∧
        (G.parameters.length ≤ R.index → R.requested = s.ledger.requested ∧ R.pipeups = s.sys.pipeups)

instance (G : Graph) (s : ManualSys) : (a : ManualAct) → Decidable (CountsOwn G s a)
  | .step a => inferInstanceAs (Decidable (∀ P ∈ G.parameters, s.sys.pipeupTakes G a = some P.readyQ →
      0 < s.sys.readyCount P.readyQ →
      s.ledger.requested < s.sys.acquiredRuns G P.readyQ + s.sys.readyCount P.readyQ))
  | .vxScheduleGraph _ => isTrue trivial
  | .readCount u => inferInstanceAs (Decidable (∀ R ∈ s.reading u,
      (∀ P ∈ G.parameters[R.index]?, s.ledger.requested ≤ s.sys.acquiredRuns G P.readyQ) ∧
        (G.parameters.length ≤ R.index → R.requested = s.ledger.requested ∧ R.pipeups = s.sys.pipeups)))

/-- What `vxVerifyGraph` promises of the ready queue of a graph parameter: it is no done queue, no descriptor releases to it
and no aged slot of a delay takes from it. -/
structure Graph.OwnReadyQs (G : Graph) : Prop where
  doneQ : ∀ P ∈ G.parameters, ∀ P' ∈ G.parameters, P'.doneQ ≠ P.readyQ
  releaseQ : ∀ P ∈ G.parameters, ∀ dq D, G.table.dataRefQ dq = some D → D.releaseQObjDescId ≠ P.readyQ
  aged : ∀ P ∈ G.parameters, ∀ dq D, G.table.dataRefQ dq = some D → D.delaySlotAutoAge = true →
    D.acquireQObjDescId ≠ P.readyQ

section Queue

variable {G : Graph} {s s' : Sys} {a : Act} {P : GraphParam}

/-- **What a step does to a ready queue**: a run takes from it or no one does, a user enqueues, or the pipe-up takes. -/
inductive ReadyStep (G : Graph) (s : Sys) (a : Act) (s' : Sys) (q : Nat) : Prop
  | rest (he : s'.enqueuedAt q = s.enqueuedAt q)
      (hr : s'.acquiredRuns G q + s'.readyCount q = s.acquiredRuns G q + s.readyCount q)
  | enqueue (he : s'.enqueuedAt q = s.enqueuedAt q + 1)
      (hr : s'.acquiredRuns G q + s'.readyCount q = s.acquiredRuns G q + s.readyCount q + 1)
  | pipeup (ht : s.pipeupTakes G a = some q) (hpos : 0 < s.readyCount q) (he : s'.enqueuedAt q = s.enqueuedAt q)
      (hr : s'.acquiredRuns G q + s'.readyCount q + 1 = s.acquiredRuns G q + s.readyCount q)
      (hp : s'.pipeups = s.pipeups + 1)

theorem readyCount_update {Q : Queues} {s : Sys} {q k : Nat} {l : List Nat} (h : Q.refs = Function.update s.shm.queue.refs k l) :
    (Q.refs q).length = if q = k then l.length else s.readyCount q := by
  rw [h, Function.update_apply, Sys.readyCount]
  exact apply_ite List.length _ _ _

/-- A reference that is given to no ready queue leaves it as it is. -/
theorem refs_enqueueAndExtract_ne {Q : Queues} {q k : Nat} (h : k ≠ q) (x : Nat) (out : List NodeId) :
    (enqueueAndExtract Q k x out).1.refs q = Q.refs q := by
  obtain ⟨-, he⟩ | ⟨-, hrefs, -, -⟩ := enqueueAndExtract_cases Q k x out
  · rw [he]
  · rw [hrefs, Function.update_of_ne h.symm]

theorem refs_ageSlot_ne {D : DataRefQDesc} {Q : Queues} {q : Nat} (ha : D.acquireQObjDescId ≠ q)
    (hr : D.releaseQObjDescId ≠ q) (out : List NodeId) : (ageSlot D Q out).1.refs q = Q.refs q := by
  unfold ageSlot
  obtain ⟨-, hd⟩ | ⟨x, l, Q', -, hd, hrefs, -, -⟩ := dequeue_cases Q D.acquireQObjDescId
  · rw [hd]
    rfl
  · have hQ' : Q'.refs q = Q.refs q := by rw [hrefs, Function.update_of_ne ha.symm]
    rw [hd]
    dsimp only
    split
    · exact hQ'
    · exact (refs_enqueueAndExtract_ne hr x out).trans hQ'

/-- A release leaves the ready queues as they are. -/
theorem refs_release (hW : G.OwnReadyQs) (hP : P ∈ G.parameters) {dq : Nat} {D : DataRefQDesc}
    (hD : G.table.dataRefQ dq = some D) {hostOnly : Bool} {ref : Nat} {isInput : Bool} {m : Shm} :
    (ownTargetNodeDescReleaseParameter G.table hostOnly dq D ref isInput m).shm.queue.refs P.readyQ =
      m.queue.refs P.readyQ := by
  rw [releaseParameter_queue]
  split
  · refine releaseToQueue_rule (I := fun Q _ => Q.refs P.readyQ = m.queue.refs P.readyQ) ?_ ?_
    · exact refs_enqueueAndExtract_ne (hW.releaseQ P hP dq D hD) ref []
    · intro k N Q out hN ha h
      exact (refs_ageSlot_ne (hW.aged P hP k N hN ha) (hW.releaseQ P hP k N hN) out).trans h
  · rfl

/-- What the acquire of a parameter does to a ready queue. -/
theorem readyStep_acquire (hG : G.Verified) (hQ : s.shm.queue.Sound G.table) {t : Tid} {n : NodeId} {N : NodeDesc}
    {pipeup : Nat} {prms : List Nat} {A : Prm} {D : DataRefQDesc} (hpc : s.pc t = .acquire n pipeup prms)
    (hN : G.table.node n = some N) (hA : N.prms[prms.length]? = some A) (hq : A.isDataRefQ = true)
    (hD : G.table.dataRefQ A.dataRefQId = some D)
    (hs : s' = afterAcquire s t n pipeup prms A.dataRefQId D
      (ownTargetNodeDescAcquireParameter n A.dataRefQId D (decide (0 < pipeup)) s.shm)) (q : Nat) :
    ReadyStep G s (.thread t) s' q := by
  obtain ⟨-, rfl⟩ | ⟨x, l, Q, ha, hr, -, hrefs, -, rfl⟩ | ⟨Q, -, -, -, hB, rfl⟩ | ⟨-, -, -, rfl⟩ :=
    afterAcquire_cases hG.numEntries_le hQ t n pipeup prms A.dataRefQId D hs
  · exact .rest rfl rfl
  · have hready : Sys.readyCount ((({ s with shm := { s.shm with
        queue := Q
        dataRefQ := if 0 < pipeup then s.shm.dataRefQ else
          Function.update s.shm.dataRefQ A.dataRefQId ⟨true, x, 0⟩ } } : Sys).log
        (.acquired A.dataRefQId x (decide (0 < pipeup)))).setPc t (.acquire n pipeup (prms ++ [x]))) q =
        if q = D.acquireQObjDescId then l.length else s.readyCount q := readyCount_update hrefs
    by_cases hqk : q = D.acquireQObjDescId
    · have hlen : s.readyCount q = l.length + 1 := by rw [Sys.readyCount, hqk, hr, List.length_cons]
      rw [if_pos hqk] at hready
      cases pipeup with
      | zero =>
        refine .rest rfl ?_
        have hacq : isRunAcquired G q (.acquired A.dataRefQId x false) = true := by
          simp only [isRunAcquired, hD, Option.any_some, hqk, decide_true]
        have hcount := List.countP_cons_of_pos (l := s.trace) hacq
        rw [hready, hlen]
        change List.countP (isRunAcquired G q) (.acquired A.dataRefQId x false :: s.trace) + _ = _
        rw [hcount, Sys.acquiredRuns]
        omega
      | succ p =>
        have hev : isPipeupAcquired (.acquired A.dataRefQId x (decide (0 < p + 1))) = true := decide_eq_true (Nat.succ_pos p)
        refine .pipeup ?_ ?_ rfl ?_ (List.countP_cons_of_pos hev)
        · have hprm : G.prmQueue n prms.length = some (A.dataRefQId, D) :=
            Graph.prmQueue_eq_some.2 ⟨N, A, hN, hA, hq, rfl, hD⟩
          simp only [Sys.pipeupTakes, hpc, hprm, ha, hqk, Bool.false_eq_true, if_false]
        · rw [hlen]
          exact Nat.succ_pos _
        · rw [hready, hlen]
          exact Nat.add_assoc _ _ _
    · rw [if_neg hqk] at hready
      refine .rest rfl ?_
      rw [hready]
      congr 1
      cases pipeup with
      | zero =>
        have hacq : ¬ isRunAcquired G q (.acquired A.dataRefQId x false) = true := by
          simp only [isRunAcquired, hD, Option.any_some, decide_eq_true_eq]
          exact fun h => hqk h.symm
        exact List.countP_cons_of_neg hacq
      | succ p => rfl
  · have hrefs := (addBlockedNode_eq_some hB).2.1
    refine .rest rfl ?_
    change s.acquiredRuns G q + (Q.refs q).length = _
    rw [hrefs]
    rfl
  · exact .rest rfl rfl

/-- **Every step is one of these** for the ready queue of a parameter. -/
theorem readyStep_of_step (hG : G.Verified) (hW : G.OwnReadyQs) (hQ : s.shm.queue.Sound G.table) (hP : P ∈ G.parameters)
    (hs : Step G s a s') : ReadyStep G s a s' P.readyQ := by
  cases hs with
  | parked hpc hN hm | proceeded hpc hN hm =>
    refine .rest rfl ?_
    simp only [Sys.readyCount, Sys.setPc, Sys.log, (isPrevPipeNodeBlocked_queue hm).1]
    rfl
  | acquirePrm hpc hN hA hq hD => exact readyStep_acquire hG hQ hpc hN hA hq hD rfl P.readyQ
  | releasePrm hpc hN hA hq hD hR =>
    subst hR
    refine .rest rfl ?_
    simp only [Sys.readyCount, Sys.setPc, Sys.log, refs_release hW hP hD]
    rfl
  | @enqueued u g ref P' Q hpc hP' hr hE =>
    have hrefs : (ownObjDescQueueExtractBlockedNodes Q P'.readyQ []).1.refs =
        Function.update s.shm.queue.refs P'.readyQ (s.shm.queue.refs P'.readyQ ++ [ref]) :=
      (extractBlockedNodes_spec Q P'.readyQ []).2.1.trans (enqueue_eq_some hE).1
    have hready := readyCount_update (q := P.readyQ) hrefs
    by_cases hq : P.readyQ = P'.readyQ
    · refine .enqueue ?_ ?_
      · have hev : isEnqueuedAt P.readyQ (.enqueued P'.readyQ ref) = true := decide_eq_true hq.symm
        exact List.countP_cons_of_pos hev
      · change s.acquiredRuns G P.readyQ + _ = _
        have hold : (s.shm.queue.refs P'.readyQ).length = s.readyCount P.readyQ := by rw [Sys.readyCount, hq]
        rw [if_pos hq, List.length_append, hold] at hready
        exact congrArg (s.acquiredRuns G P.readyQ + ·) hready
    · refine .rest ?_ ?_
      · have hev : ¬ isEnqueuedAt P.readyQ (.enqueued P'.readyQ ref) = true := fun h => hq (of_decide_eq_true h).symm
        exact List.countP_cons_of_neg hev
      · rw [if_neg hq] at hready
        exact congrArg (s.acquiredRuns G P.readyQ + ·) hready
  | @dequeued u g P' ref Q hpc hP' hd hr =>
    have hne := hW.doneQ P hP P' (List.mem_of_getElem? hP')
    refine .rest rfl ?_
    obtain ⟨-, hd'⟩ | ⟨x, l, Q', -, hd', hrefs, -, -⟩ := dequeue_cases s.shm.queue P'.doneQ <;> rw [hd] at hd' <;> cases hd'
    · rfl
    · have hready := readyCount_update (q := P.readyQ) hrefs
      rw [if_neg hne.symm] at hready
      exact congrArg (s.acquiredRuns G P.readyQ + ·) hready
  | _ => exact .rest rfl rfl

theorem pipeups_le (hs : Step G s a s') : s.pipeups ≤ s'.pipeups := by
  cases hs with
  | acquirePrm =>
    unfold afterAcquire
    split
    · exact Nat.le_refl _
    · split
      · exact Nat.le_refl _
      · exact (List.sublist_cons_self _ s.trace).countP_le
  | _ => exact Nat.le_refl _

end Queue

section Runs

variable {G : Graph} {s s' : ManualSys} {s₀ : Sys}

/-- What a user has read so far still holds, where nothing was requested and nothing taken in the pipe-up since. -/
structure ReadsOwn (G : Graph) (s : ManualSys) (R : CountReading) : Prop where
  requested : R.requested ≤ s.ledger.requested
  pipeups : R.pipeups ≤ s.sys.pipeups
  counts : R.requested = s.ledger.requested → R.pipeups = s.sys.pipeups → ∀ i P, i < R.index → G.parameters[i]? = some P →
    s.ledger.requested + R.minCount ≤ s.sys.acquiredRuns G P.readyQ + s.sys.readyCount P.readyQ

/-- The invariant: the requested runs have their references, and the users have read counts of their own. -/
structure ManualInv (G : Graph) (s : ManualSys) : Prop where
  sound : s.sys.shm.queue.Sound G.table
  enqueued : ∀ P ∈ G.parameters, s.sys.acquiredRuns G P.readyQ + s.sys.readyCount P.readyQ ≤ s.sys.enqueuedAt P.readyQ
  ready : ∀ P ∈ G.parameters, s.ledger.requested ≤ s.sys.acquiredRuns G P.readyQ + s.sys.readyCount P.readyQ
  reads : ∀ u R, s.reading u = some R → ReadsOwn G s R

theorem ManualInv.runsHaveRefs (h : ManualInv G s) : RunsHaveRefs G s :=
  fun P hP => ⟨Nat.le_trans (h.ready P hP) (h.enqueued P hP), h.ready P hP⟩

/-- A step of the targets and the users requests nothing by itself. -/
theorem ledger_requested {s : Sys} {L : Ledger} {a : Act} (ha : ∀ u k, a ≠ .scheduleGraph u k) :
    (L.after G s a).requested = L.requested := by
  cases a with
  | scheduleGraph u k => exact (ha u k rfl).elim
  | thread t =>
    unfold Ledger.after
    dsimp only
    split
    · split <;> rfl
    · split <;> rfl
    · rfl
  | kernel t prms | enqueueReadyRef u g ref | dequeueDoneRef u g => rfl

/-- **A step of the targets and the users** keeps the invariant, where the pipe-up takes what no requested run needs. -/
theorem ManualInv.run (hG : G.Verified) (hW : G.OwnReadyQs) (h : ManualInv G s) {a : Act} (ha : ∀ u k, a ≠ .scheduleGraph u k)
    (hc : ∀ P ∈ G.parameters, s.sys.pipeupTakes G a = some P.readyQ → 0 < s.sys.readyCount P.readyQ →
      s.ledger.requested < s.sys.acquiredRuns G P.readyQ + s.sys.readyCount P.readyQ)
    (hs : s.run G a = some s') : ManualInv G s' := by
  obtain ⟨⟨t, L⟩, hstep, rfl⟩ := Option.map_eq_some_iff.1 hs
  obtain ⟨t, hst, htl⟩ := Option.map_eq_some_iff.1 hstep
  cases htl
  have hstep := step_cases hst
  have hreq := ledger_requested (G := G) (s := s.sys) (L := s.ledger) ha
  refine ⟨sound_kept hG h.sound hstep, fun P hP => ?_, fun P hP => ?_, fun u R hR => ?_⟩
  · have hold := h.enqueued P hP
    cases readyStep_of_step hG hW h.sound hP hstep with
    | rest he hr | enqueue he hr | pipeup ht hpos he hr hp =>
      dsimp only
      omega
  · have hold := h.ready P hP
    dsimp only
    rw [hreq]
    cases readyStep_of_step hG hW h.sound hP hstep with
    | rest he hr | enqueue he hr => omega
    | pipeup ht hpos he hr hp =>
      have hspare := hc P hP ht hpos
      omega
  · have hold := h.reads u R hR
    refine ⟨?_, Nat.le_trans hold.pipeups (pipeups_le hstep), fun hrq hpu i P hi hP => ?_⟩
    · rw [hreq]
      exact hold.requested
    · dsimp only at hrq hpu ⊢
      rw [hreq] at hrq ⊢
      have hmono : s.sys.pipeups ≤ t.pipeups := pipeups_le hstep
      have hle := hold.pipeups
      have hsame : R.pipeups = s.sys.pipeups := by omega
      have hread := hold.counts hrq hsame i P hi hP
      cases readyStep_of_step hG hW h.sound (List.mem_of_getElem? hP) hstep with
      | rest he hr | enqueue he hr => omega
      | pipeup ht hpos he hr hp => omega

/-- What a step that changes only who reads keeps. -/
theorem ManualInv.reading (h : ManualInv G s) {u : Nat} {x : Option CountReading} (hx : ∀ R, x = some R → ReadsOwn G s R) :
    ManualInv G { s with reading := Function.update s.reading u x } := by
  refine ⟨h.sound, h.enqueued, h.ready, fun v R hR => ?_⟩
  dsimp only at hR
  have hown : ReadsOwn G s R := by
    by_cases hv : v = u
    · subst hv
      rw [Function.update_self] at hR
      exact hx R hR
    · rw [Function.update_of_ne hv] at hR
      exact h.reads v R hR
  exact ⟨hown.requested, hown.pipeups, hown.counts⟩

/-- **A request** of as many runs as were read as ready at every parameter. -/
theorem ManualInv.request (h : ManualInv G s) {u n : Nat} {R : CountReading}
    (hR : ReadsOwn G s R) (hown : R.requested = s.ledger.requested ∧ R.pipeups = s.sys.pipeups)
    (hi : G.parameters.length ≤ R.index) (hn : n = R.minCount) (hpos : 0 < n) (hs : s.run G (.scheduleGraph u n) = some s') :
    ManualInv G s' := by
  obtain ⟨⟨t, L⟩, hstep, rfl⟩ := Option.map_eq_some_iff.1 hs
  obtain ⟨t, hst, htl⟩ := Option.map_eq_some_iff.1 hstep
  cases htl
  have hstep := step_cases hst
  cases hstep with
  | userSchedule hpc =>
    refine ⟨h.sound, h.enqueued, fun P hP => ?_, fun v R' hR' => ?_⟩
    · obtain ⟨i, hlt, hget⟩ := List.mem_iff_getElem.1 hP
      have hcount := hR.counts hown.1 hown.2 i P (Nat.lt_of_lt_of_le hlt hi) (by rw [List.getElem?_eq_getElem hlt, hget])
      subst hn
      exact hcount
    · -- no other user has read all that was requested since
      have hold := h.reads v R' hR'
      refine ⟨Nat.le_trans hold.requested (Nat.le_add_right _ _), hold.pipeups, fun hrq => ?_⟩
      have hle := hold.requested
      change R'.requested = s.ledger.requested + n at hrq
      omega

theorem manualInv_of_step (hG : G.Verified) (hW : G.OwnReadyQs) (h : ManualInv G s) {a : ManualAct} (hc : CountsOwn G s a)
    (hs : manualStep G s a = some s') : ManualInv G s' := by
  cases a with
  | step a =>
    have ha : ∀ u k, a ≠ .scheduleGraph u k := by
      rintro u k rfl
      cases hs
    have hrun : s.run G a = some s' := by
      cases a with
      | scheduleGraph u k => exact (ha u k rfl).elim
      | thread t | kernel t prms | enqueueReadyRef u g ref | dequeueDoneRef u g =>
        simp only [manualStep] at hs
        split at hs
        · exact hs
        · cases hs
    exact h.run hG hW ha hc hrun
  | vxScheduleGraph u =>
    simp only [manualStep] at hs
    split at hs
    · cases hs
      split
      · refine h.reading fun R hR => ?_
        cases hR
        exact ⟨Nat.le_refl _, Nat.le_refl _, fun _ _ i P hi => (Nat.not_lt_zero i hi).elim⟩
      · exact h
    · cases hs
  | readCount u =>
    simp only [manualStep] at hs
    cases hu : s.reading u with
    | none =>
      rw [hu] at hs
      cases hs
    | some R =>
      rw [hu] at hs
      dsimp only at hs
      have hR := h.reads u R hu
      obtain ⟨hread, hend⟩ := hc R hu
      cases hP : G.parameters[R.index]? with
      | some P =>
        rw [hP] at hs hread
        cases hs
        refine h.reading fun R' hR' => ?_
        cases hR'
        refine ⟨hR.requested, hR.pipeups, fun hrq hpu i P' hi hP' => ?_⟩
        dsimp only at hrq hpu hi ⊢
        have hmin : (if s.sys.readyCount P.readyQ < R.minCount then s.sys.readyCount P.readyQ else R.minCount) =
            min (s.sys.readyCount P.readyQ) R.minCount := by
          split <;> omega
        rw [hmin]
        by_cases hlt : i < R.index
        · have hcount := hR.counts hrq hpu i P' hlt hP'
          have hle := Nat.min_le_right (s.sys.readyCount P.readyQ) R.minCount
          omega
        · -- the count just read: every requested run has taken its reference there
          have hi : i = R.index := by omega
          rw [hi, hP] at hP'
          cases hP'
          have htaken := hread P rfl
          have hle := Nat.min_le_left (s.sys.readyCount P.readyQ) R.minCount
          omega
      | none =>
        rw [hP] at hs
        have hi := List.getElem?_eq_none_iff.1 hP
        have hquit : ManualInv G { s with reading := Function.update s.reading u none } := h.reading fun R' hR' => by cases hR'
        have hR' : ReadsOwn G { s with reading := Function.update s.reading u none } R := ⟨hR.requested, hR.pipeups, hR.counts⟩
        dsimp only at hs
        by_cases hmax : R.minCount = 2 ^ 32 - 1
        · rw [if_pos hmax, if_neg (Nat.lt_irrefl 0)] at hs
          cases hs
          exact hquit
        · rw [if_neg hmax] at hs
          by_cases hpos : 0 < R.minCount
          · rw [if_pos hpos] at hs
            exact hquit.request hR' (hend hi) hi rfl hpos hs
          · rw [if_neg hpos] at hs
            cases hs
            exact hquit

/-- **Every requested run has its references**, in every run of the manual mode whose steps all meet the condition. -/
theorem runsHaveRefs_of_reach (hG : G.Verified) (hW : G.OwnReadyQs) (h0 : Starts G s₀)
    (hempty : ∀ P ∈ G.parameters, s₀.shm.queue.refs P.readyQ = [])
    (h : Reach (manualStep G) (CountsOwn G) { sys := s₀ } s) : RunsHaveRefs G s := by
  refine (h.inv (I := ManualInv G) ⟨⟨h0.refs_lt, fun q _ => h0.blockedOn q⟩, fun P hP => ?_, fun P hP => ?_, ?_⟩
    (fun _ _ _ hi hc hs => manualInv_of_step hG hW hi hc hs)).runsHaveRefs
  · simp only [Sys.acquiredRuns, Sys.readyCount, h0.trace, hempty P hP]
    exact Nat.zero_le _
  · exact Nat.zero_le _
  · intro u R hR
    cases hR

end Runs

section Source

theorem pipeupSource_ownReadyQs : pipeupSource.OwnReadyQs where
  doneQ := by decide
  releaseQ P hP dq D h := by
    simp only [pipeupSource, List.mem_singleton] at hP h
    split at h <;> cases h
    subst hP
    decide
  aged P _ dq D h ha := by
    simp only [pipeupSource] at h
    split at h <;> cases h
    cases ha

/-- The graph of one node and one graph parameter, with its kernel steady. -/
def steadyStart : ManualSys := { sys := Sys.start pipeupSource (enqueueAll [] (createQueues 2)) }

theorem steadyStart_starts : Starts pipeupSource steadyStart.sys := by
  refine starts_primed (fun x hx => by cases hx) (fun dq D h => ?_)
  simp only [pipeupSource] at h
  split at h <;> cases h
  decide

def threadSteps (t : Tid) (n : Nat) : List ManualAct := List.replicate n (.step (.thread t))
def enqueueRef (r : Nat) : List ManualAct := [.step (.enqueueReadyRef 0 0 r), .step (.thread (.user 0))]
def scheduleManual : List ManualAct := [.vxScheduleGraph 0, .readCount 0, .readCount 0]

/-- The node runs with reference `r`, and the host completes its run. -/
def runNode (r : Nat) : List ManualAct :=
  threadSteps (.target 1) 5 ++ [.step (.kernel (.target 1) [r])] ++ threadSteps (.target 1) 7 ++ threadSteps (.target 0) 2

/-- Two references are enqueued and two runs requested; the first completes, and the host is about to schedule the second. -/
def firstCompletes : List ManualAct :=
  enqueueRef 50 ++ enqueueRef 51 ++ scheduleManual ++ threadSteps (.user 0) 7 ++ runNode 50

/-- **A run is requested for the reference of another**: where the last submitted run completes with one still pending, the
graph is completed, and the next `vxScheduleGraph` requests the pending run again. -/
theorem pending_counted_twice : pipeupSource.Verified ∧ pipeupSource.OwnReadyQs ∧ Starts pipeupSource steadyStart.sys ∧
    ∃ s, Reach (manualStep pipeupSource) (fun s a => anyStep s a = true) steadyStart s ∧
      s.ledger.requested = 3 ∧ s.sys.enqueuedAt 0 = 2 ∧ ¬ RunsHaveRefs pipeupSource s := by
  refine ⟨pipeupSource_verified, pipeupSource_ownReadyQs, steadyStart_starts, ?_⟩
  have hexec : (exec (manualStep pipeupSource) anyStep steadyStart (firstCompletes ++ scheduleManual)).map
      (fun s => (s.ledger.requested, s.sys.enqueuedAt 0)) = some (3, 2) := by decide +kernel
  obtain ⟨s, hr, hs⟩ := exists_reach_of_exec hexec
  simp only [Prod.mk.injEq] at hs
  obtain ⟨hreq, henq⟩ := hs
  refine ⟨s, hr, hreq, henq, fun h => ?_⟩
  have hle := (h _ List.mem_cons_self).1
  dsimp only at hle
  rw [hreq, henq] at hle
  exact absurd hle (by decide)

/-- The second run completes, its first reference comes back and is enqueued again, and a third run is requested. -/
theorem runsHaveRefs_steady : ∃ s, Reach (manualStep pipeupSource) (CountsOwn pipeupSource) steadyStart s ∧
    s.ledger.requested = 3 ∧ RunsHaveRefs pipeupSource s := by
  have hexec : (exec (manualStep pipeupSource) (fun s a => decide (CountsOwn pipeupSource s a)) steadyStart
      (firstCompletes ++ (threadSteps (.target 0) 7 ++ runNode 51) ++ [.step (.dequeueDoneRef 0 0)] ++ enqueueRef 50 ++
        scheduleManual)).map (fun s => s.ledger.requested) = some 3 := by decide +kernel
  obtain ⟨s, hr, hreq⟩ := exists_reach_of_exec hexec
  have hr := hr.mono (fun _ _ h => of_decide_eq_true h)
  refine ⟨s, hr, hreq, runsHaveRefs_of_reach pipeupSource_verified pipeupSource_ownReadyQs steadyStart_starts ?_ hr⟩
  intro P hP
  simp only [pipeupSource, List.mem_singleton] at hP
  subst hP
  exact Queues.refs_createQueues 2 0

end Source

end Tiovx
