import Tiovx.AcquireAll
import Tiovx.Schedules
/-!
# PipeupRefs — the references of the pipe-up (`vx_target.c`, `vx_target_acquire_parameters.c`)

Before its first execution `ownTargetNodeDescNodeExecute` runs a kernel in the pipe-up as often as it has buffers to fill,
and takes its parameters anew each time.  A reference that is taken then is recorded nowhere, and a queue that has none gives
an invalid id with which the kernel runs.  Where each look finds a reference in the queue, and none comes back to it in
between, the executions have valid references and different ones.
-/
namespace Tiovx

open StepSystem

/-- What parameter `i` of node `n` is in the pipe-up execution a thread is about. -/
def Pc.pipeupRef (n : NodeId) (i : Nat) : Pc → List Nat
  | .acquire k (_ + 1) prms | .kernel k (_ + 1) prms => if k = n then prms[i]?.toList else []
  | _ => []

/-- The parameters of the pipe-up executions of node `n` since it proceeded, newest first, until it executes after them. -/
def pipeupRuns (n : NodeId) : List Event → List (List Nat)
  | [] => []
  | .executed k isPipeup prms :: l =>
    if k = n then (if isPipeup then prms :: pipeupRuns n l else []) else pipeupRuns n l
  | .proceeded k :: l => if k = n then [] else pipeupRuns n l
  | _ :: l => pipeupRuns n l

/-- The references of parameter `i` of node `n` in its pipe-up executions, with the one that is about to be made. -/
def Sys.pipeupRefs (G : Graph) (s : Sys) (n : NodeId) (i : Nat) : List Nat :=
  ((G.table.node n).map fun N => (s.pc (.target N.targetId)).pipeupRef n i).getD [] ++
    (pipeupRuns n s.trace).filterMap (fun prms => prms[i]?)

/-- **What is promised of the kernel executions**: each has a valid reference in every parameter bound to a data reference
queue, and those of the pipe-up have different ones. -/
structure PipeupRight (G : Graph) (s : Sys) : Prop where
  valid : ∀ n isPipeup prms, .executed n isPipeup prms ∈ s.trace → ∀ i dq D, G.prmQueue n i = some (dq, D) →
    ∃ ref, prms[i]? = some ref ∧ ref < G.table.numEntries
  distinct : ∀ n i dq D, G.prmQueue n i = some (dq, D) →
    ((pipeupRuns n s.trace).filterMap (fun prms => prms[i]?)).Nodup

/-- The parameters of the nodes that are bound to data reference queues. -/
def Graph.prmQueues (G : Graph) : List (NodeId × Nat × Nat × DataRefQDesc) :=
  (List.range G.numNodes).flatMap fun i => (List.range G.pipelineDepth).flatMap fun p =>
    (List.range (((G.table.node ⟨i, p⟩).map fun N => N.prms.length).getD 0)).filterMap fun j =>
      (G.prmQueue ⟨i, p⟩ j).map fun q => (⟨i, p⟩, j, q)

/-- A pipe-up execution finds a reference in the queue of the parameter, or one held that it did not take before. -/
def pipeupFinds (G : Graph) (s : Sys) : Act → Bool
  | .thread t =>
    match s.pc t with
    | .acquire n (_ + 1) prms => (G.prmQueue n prms.length).all fun q =>
        if (s.shm.dataRefQ q.1).isRefAcquired then
          decide ((s.shm.dataRefQ q.1).refObjDescId ∉ s.pipeupRefs G n prms.length)
        else !(s.shm.queue.refs q.2.acquireQObjDescId).isEmpty
    | _ => true
  | _ => true

/-- What memory `m` has in a queue is there once, not held, and not with a node that took it in its pipe-up. -/
def leavesApart (G : Graph) (s : Sys) (m : Shm) : Bool :=
  G.prmQueues.all fun x => decide ((m.queue.refs x.2.2.2.acquireQObjDescId).Nodup ∧
    ((m.dataRefQ x.2.2.1).isRefAcquired = true →
      (m.dataRefQ x.2.2.1).refObjDescId ∉ m.queue.refs x.2.2.2.acquireQObjDescId) ∧
    ∀ y ∈ s.pipeupRefs G x.1 x.2.1, y ∉ m.queue.refs x.2.2.2.acquireQObjDescId)

/-- A reference that is enqueued or released is not in the queue already, nor held, nor with a node that took it in its
pipe-up. -/
def entersApart (G : Graph) (s : Sys) : Act → Bool
  | .enqueueReadyRef _ g ref => (G.parameters[g]?).all fun P => decide (ref ∉ s.shm.queue.refs P.readyQ) &&
      G.prmQueues.all fun x => decide (x.2.2.2.acquireQObjDescId = P.readyQ →
        ((s.shm.dataRefQ x.2.2.1).isRefAcquired = true → (s.shm.dataRefQ x.2.2.1).refObjDescId ≠ ref) ∧
          ref ∉ s.pipeupRefs G x.1 x.2.1)
  | .thread t =>
    match s.pc t with
    | .release n prms prmId _ => ((G.table.node n).bind (fun N => N.prms[prmId]?)).all fun P =>
        (G.table.dataRefQ P.dataRefQId).all fun D => !P.isDataRefQ ||
          leavesApart G s (ownTargetNodeDescReleaseParameter G.table (G.isHostOnly t) P.dataRefQId D
            (prms.getD prmId objDescInvalid) (P.isInput || P.isBidi) s.shm).shm
    | _ => true
  | _ => true

/-- **The condition**: a pipe-up execution finds its references in the queues, other executions wait for theirs, and no
reference enters a queue that has it or from which the pipe-up of a node has it. -/
def pipeupSafe (G : Graph) (s : Sys) (a : Act) : Bool :=
  pipeupFinds G s a && entersApart G s a && roomForBlocked G s a && kernelLeavesRefs G s a

/-- The references in the pipe-up, those held and those in the queues are apart. -/
structure Apart (G : Graph) (s : Sys) : Prop where
  queue : ∀ n i dq D, G.prmQueue n i = some (dq, D) → (s.shm.queue.refs D.acquireQObjDescId).Nodup
  held : ∀ n i dq D, G.prmQueue n i = some (dq, D) → (s.shm.dataRefQ dq).isRefAcquired = true →
    (s.shm.dataRefQ dq).refObjDescId ∉ s.shm.queue.refs D.acquireQObjDescId
  apart : ∀ n i dq D, G.prmQueue n i = some (dq, D) → ∀ y ∈ s.pipeupRefs G n i, y ∉ s.shm.queue.refs D.acquireQObjDescId
  distinct : ∀ n i dq D, G.prmQueue n i = some (dq, D) → (s.pipeupRefs G n i).Nodup

/-- The parameters a node has acquired in the pipe-up are filled. -/
structure PipeupFilled (G : Graph) (s : Sys) : Prop where
  acquire : ∀ {t n p prms N}, s.pc t = .acquire n (p + 1) prms → G.table.node n = some N →
    prmsFilled G n prms = true ∧ prms.length ≤ N.prms.length
  kernel : ∀ {t n p prms N}, s.pc t = .kernel n (p + 1) prms → G.table.node n = some N →
    prmsFilled G n prms = true ∧ prms.length = N.prms.length

section Step

variable {G : Graph} {s s' : Sys} {a : Act}

theorem mem_prmQueues (hW : G.Wired) {n : NodeId} {i dq : Nat} {D : DataRefQDesc} (h : G.prmQueue n i = some (dq, D)) :
    (n, i, dq, D) ∈ G.prmQueues := by
  obtain ⟨N, P, hN, hP, -⟩ := Graph.prmQueue_eq_some.1 h
  obtain ⟨hn, hp⟩ := (hW.node_isSome n).1 (by rw [hN]; rfl)
  have hi : i < N.prms.length := (List.getElem?_eq_some_iff.1 hP).1
  refine List.mem_flatMap.2 ⟨n.node, List.mem_range.2 hn, List.mem_flatMap.2 ⟨n.pipe, List.mem_range.2 hp, ?_⟩⟩
  refine List.mem_filterMap.2 ⟨i, List.mem_range.2 ?_, ?_⟩
  · rw [hN]
    exact hi
  · rw [h]
    rfl

theorem pipeupFinds_acquire {t : Tid} {n : NodeId} {p : Nat} {prms : List Nat} {dq : Nat} {D : DataRefQDesc}
    (hc : pipeupFinds G s (.thread t) = true) (hpc : s.pc t = .acquire n (p + 1) prms)
    (hD : G.prmQueue n prms.length = some (dq, D)) :
    ((s.shm.dataRefQ dq).isRefAcquired = true → (s.shm.dataRefQ dq).refObjDescId ∉ s.pipeupRefs G n prms.length) ∧
      ((s.shm.dataRefQ dq).isRefAcquired = false → s.shm.queue.refs D.acquireQObjDescId ≠ []) := by
  simp only [pipeupFinds, hpc, hD, Option.all_some] at hc
  split at hc
  · rename_i ha
    refine ⟨fun _ => of_decide_eq_true hc, fun hf => ?_⟩
    rw [ha] at hf
    cases hf
  · rename_i ha
    refine ⟨fun ht => (ha ht).elim, fun _ hnil => ?_⟩
    rw [hnil] at hc
    cases hc

theorem leavesApart_iff (hW : G.Wired) {m : Shm} (hc : leavesApart G s m = true) {n : NodeId} {i dq : Nat}
    {D : DataRefQDesc} (hD : G.prmQueue n i = some (dq, D)) : (m.queue.refs D.acquireQObjDescId).Nodup ∧
      ((m.dataRefQ dq).isRefAcquired = true → (m.dataRefQ dq).refObjDescId ∉ m.queue.refs D.acquireQObjDescId) ∧
      ∀ y ∈ s.pipeupRefs G n i, y ∉ m.queue.refs D.acquireQObjDescId :=
  of_decide_eq_true (List.all_eq_true.1 hc _ (mem_prmQueues hW hD))

/-- Only a kernel that returns is executed. -/
theorem executed_of_step (hs : Step G s a s') {n : NodeId} {isPipeup : Bool} {prms : List Nat}
    (h : .executed n isPipeup prms ∈ s'.trace) :
    .executed n isPipeup prms ∈ s.trace ∨ ∃ t p, s.pc t = .kernel n p prms := by
  cases hs with
  | kernel hpc | kernelSteady hpc | kernelPipeup hpc =>
    rcases List.mem_cons.1 h with h | h
    · cases h
      exact .inr ⟨_, _, hpc⟩
    · exact .inl h
  | acquirePrm hpc hN hP hq hD =>
    unfold afterAcquire at h
    split at h
    · exact .inl (List.mem_of_ne_of_mem (by rintro ⟨⟩) h)
    · split at h
      · exact .inl h
      · exact .inl (List.mem_of_ne_of_mem (by rintro ⟨⟩) h)
  | releasePrm | enqueued =>
    exact .inl (List.mem_of_ne_of_mem (by rintro ⟨⟩) (List.mem_of_ne_of_mem (by rintro ⟨⟩) h))
  | parked | proceeded | markComplete | completed | scheduled | dequeued =>
    exact .inl (List.mem_of_ne_of_mem (by rintro ⟨⟩) h)
  | _ => exact .inl h

theorem PipeupFilled.setPc (h : PipeupFilled G s) {t : Tid} {pc : Pc} (hp : s'.pc = Function.update s.pc t pc)
    (ha : ∀ n p prms N, pc = .acquire n (p + 1) prms → G.table.node n = some N →
      prmsFilled G n prms = true ∧ prms.length ≤ N.prms.length)
    (hk : ∀ n p prms N, pc = .kernel n (p + 1) prms → G.table.node n = some N →
      prmsFilled G n prms = true ∧ prms.length = N.prms.length) : PipeupFilled G s' := by
  refine ⟨fun {t' n p prms N} hpc hN => ?_, fun {t' n p prms N} hpc hN => ?_⟩ <;> rw [hp] at hpc <;> by_cases ht : t' = t
  · subst ht
    rw [Function.update_self] at hpc
    exact ha n p prms N hpc hN
  · rw [Function.update_of_ne ht] at hpc
    exact h.acquire hpc hN
  · subst ht
    rw [Function.update_self] at hpc
    exact hk n p prms N hpc hN
  · rw [Function.update_of_ne ht] at hpc
    exact h.kernel hpc hN

/-- A thread that goes on outside the pipe-up. -/
theorem PipeupFilled.leave (h : PipeupFilled G s) {t : Tid} {pc : Pc} (hp : s'.pc = Function.update s.pc t pc)
    (hpc : (∀ n p prms, pc ≠ .acquire n (p + 1) prms) ∧ ∀ n p prms, pc ≠ .kernel n (p + 1) prms) : PipeupFilled G s' :=
  h.setPc hp (fun n p prms _ h => (hpc.1 n p prms h).elim) (fun n p prms _ h => (hpc.2 n p prms h).elim)

/-- A parameter that was acquired in the pipe-up. -/
theorem PipeupFilled.append (h : PipeupFilled G s) {t : Tid} {n : NodeId} {N : NodeDesc} {pipeup : Nat} {prms : List Nat}
    {P : Prm} {ref : Nat} (hpc : s.pc t = .acquire n pipeup prms) (hN : G.table.node n = some N)
    (hP : N.prms[prms.length]? = some P)
    (hr : 0 < pipeup → ∀ dq D, G.prmQueue n prms.length = some (dq, D) → ref < G.table.numEntries)
    (hp : s'.pc = Function.update s.pc t (.acquire n pipeup (prms ++ [ref]))) : PipeupFilled G s' := by
  refine h.setPc hp (fun k p prms' N' he hN' => ?_) (fun _ _ _ _ he => by cases he)
  cases he
  rw [hN] at hN'
  cases hN'
  have hold := (h.acquire hpc hN).1
  have hlen := (List.getElem?_eq_some_iff.1 hP).1
  refine ⟨prmsFilled_append hold (hr (Nat.succ_pos p)), ?_⟩
  rw [List.length_append, List.length_singleton]
  exact hlen

theorem PipeupFilled.kept (hG : G.Verified) (hQ : s.shm.queue.Sound G.table) (hH : HoldsRefs G s) (h : PipeupFilled G s)
    (hf : pipeupFinds G s a = true) (hs : Step G s a s') : PipeupFilled G s' := by
  cases hs with
  | enqueueFailed => exact h
  | dequeued => exact ⟨h.acquire, h.kernel⟩
  | proceeded hpc hN hm =>
    refine h.setPc rfl (fun n p prms N he _ => ?_) (fun _ _ _ _ he => by cases he)
    obtain ⟨-, -, rfl⟩ := Pc.acquire.inj he
    exact ⟨prmsFilled_nil _ _, Nat.zero_le _⟩
  | acquireData ref hpc hN hP hc =>
    refine h.append hpc hN hP (fun _ dq D hD => ?_) rfl
    rw [prmQueue_eq_none hN hP hc] at hD
    cases hD
  | @acquirePrm t n N pipeup prms P D hpc hN hP hq hD =>
    obtain ⟨ha, hs'⟩ | ⟨x, l, Q, -, hx, -, -, -, hs'⟩ | ⟨Q, -, -, -, -, hs'⟩ | ⟨ha, he, hp, hs'⟩ :=
      afterAcquire_cases hG.numEntries_le hQ t n pipeup prms P.dataRefQId D rfl <;> rw [hs']
    · exact h.append hpc hN hP (fun _ _ _ _ => hH.ref_lt _ ha) rfl
    · exact h.append hpc hN hP (fun _ _ _ _ => hQ.lt_numEntries _ x (by rw [hx]; exact List.mem_cons_self)) rfl
    · exact h.leave rfl ⟨by rintro _ _ _ ⟨⟩, by rintro _ _ _ ⟨⟩⟩
    · refine h.append hpc hN hP (fun hpos _ _ _ => ?_) rfl
      obtain ⟨p, rfl⟩ := Nat.exists_eq_succ_of_ne_zero (Nat.ne_of_gt hpos)
      exact ((pipeupFinds_acquire hf hpc (prmQueue_eq hN hP hq hD)).2 ha he).elim
  | @acquireInvalid t n N pipeup prms hpc hN hP hall | @acquireEnd t n N pipeup prms hpc hN hP hall =>
    refine h.setPc rfl (fun _ _ _ _ he => ?_) (fun k p prms' N' he hN' => ?_)
    · first | cases he | (split at he <;> cases he)
    · have he' : Pc.kernel n pipeup prms = .kernel k (p + 1) prms' := by
        first | exact he | (split at he; cases he; exact he)
      cases he'
      rw [hN] at hN'
      cases hN'
      obtain ⟨hfill, hle⟩ := h.acquire hpc hN
      exact ⟨hfill, Nat.le_antisymm hle (List.getElem?_eq_none_iff.1 hP)⟩
  | kernelPipeup hpc hN hkl =>
    refine h.setPc rfl (fun n p prms N he _ => ?_) (fun _ _ _ _ he => by cases he)
    cases he
    exact ⟨prmsFilled_nil _ _, Nat.zero_le _⟩
  | kernelSteady hpc hN hkl => exact h.leave rfl ⟨by rintro _ _ _ ⟨⟩, by rintro _ _ _ ⟨⟩⟩
  | completed hpc hl hc =>
    refine h.leave rfl ⟨?_, ?_⟩ <;> intro _ _ _ <;> split <;> rintro ⟨⟩
  | takeCallback pc hpc hq hc =>
    obtain ⟨rfl, -⟩ | ⟨rfl, -⟩ := hc <;> exact h.leave rfl ⟨by rintro _ _ _ ⟨⟩, by rintro _ _ _ ⟨⟩⟩
  | _ => exact h.leave rfl ⟨by rintro _ _ _ ⟨⟩, by rintro _ _ _ ⟨⟩⟩

/-- What is in the pipe-up of a node is there as long as no thread changes it and nothing is executed. -/
theorem pipeupRefs_eq {t : Tid} {pc : Pc} {n : NodeId} {i : Nat} (hp : s'.pc = Function.update s.pc t pc)
    (hpc : pc.pipeupRef n i = (s.pc t).pipeupRef n i) (htr : pipeupRuns n s'.trace = pipeupRuns n s.trace) :
    s'.pipeupRefs G n i = s.pipeupRefs G n i := by
  unfold Sys.pipeupRefs
  rw [htr]
  congr 1
  cases hN : G.table.node n with
  | none => rfl
  | some N =>
    change (s'.pc (.target N.targetId)).pipeupRef n i = (s.pc (.target N.targetId)).pipeupRef n i
    rw [hp]
    by_cases ht : Tid.target N.targetId = t
    · subst ht
      rw [Function.update_self, hpc]
    · rw [Function.update_of_ne ht]

/-- **The frame rule**: what is in the pipe-up and what is held stay, and the queues are given nothing. -/
theorem Apart.frame (h : Apart G s)
    (hrefs : ∀ n i dq D, G.prmQueue n i = some (dq, D) → s'.pipeupRefs G n i = s.pipeupRefs G n i)
    (hd : s'.shm.dataRefQ = s.shm.dataRefQ) (hq : ∀ q, (s'.shm.queue.refs q).Sublist (s.shm.queue.refs q)) :
    Apart G s' := by
  refine ⟨fun n i dq D hD => (h.queue n i dq D hD).sublist (hq _), fun n i dq D hD ha hmem => ?_,
    fun n i dq D hD y hy hmem => ?_, fun n i dq D hD => ?_⟩
  · rw [hd] at ha hmem
    exact h.held n i dq D hD ha ((hq _).subset hmem)
  · rw [hrefs n i dq D hD] at hy
    exact h.apart n i dq D hD y hy ((hq _).subset hmem)
  · rw [hrefs n i dq D hD]
    exact h.distinct n i dq D hD

theorem Apart.rest (h : Apart G s) {t : Tid} {pc : Pc} (hp : s'.pc = Function.update s.pc t pc)
    (hpc : ∀ n i, pc.pipeupRef n i = (s.pc t).pipeupRef n i) (htr : ∀ n, pipeupRuns n s'.trace = pipeupRuns n s.trace)
    (hd : s'.shm.dataRefQ = s.shm.dataRefQ) (hq : s'.shm.queue.refs = s.shm.queue.refs) : Apart G s' :=
  h.frame (fun n i _ _ _ => pipeupRefs_eq hp (hpc n i) (htr n)) hd (fun q => by rw [hq])

/-- Queues in which each reference still stands once, and apart from those held and in the pipe-up. -/
theorem Apart.refill (h : Apart G s) (hrefs : ∀ n i, s'.pipeupRefs G n i = s.pipeupRefs G n i)
    (hq : ∀ n i dq D, G.prmQueue n i = some (dq, D) → (s'.shm.queue.refs D.acquireQObjDescId).Nodup ∧
      ((s'.shm.dataRefQ dq).isRefAcquired = true →
        (s'.shm.dataRefQ dq).refObjDescId ∉ s'.shm.queue.refs D.acquireQObjDescId) ∧
      ∀ y ∈ s.pipeupRefs G n i, y ∉ s'.shm.queue.refs D.acquireQObjDescId) : Apart G s' := by
  refine ⟨fun n i dq D hD => (hq n i dq D hD).1, fun n i dq D hD => (hq n i dq D hD).2.1, fun n i dq D hD y hy => ?_,
    fun n i dq D hD => ?_⟩
  · rw [hrefs] at hy
    exact (hq n i dq D hD).2.2 y hy
  · rw [hrefs]
    exact h.distinct n i dq D hD

/-- The pipe-up of a node is over, or begins. -/
theorem Apart.clear (h : Apart G s) {n : NodeId} (hn : ∀ i, s'.pipeupRefs G n i = [])
    (hrefs : ∀ k i, k ≠ n → s'.pipeupRefs G k i = s.pipeupRefs G k i) (hd : s'.shm.dataRefQ = s.shm.dataRefQ)
    (hq : s'.shm.queue.refs = s.shm.queue.refs) : Apart G s' := by
  refine ⟨fun k i dq D hD => ?_, fun k i dq D hD => ?_, fun k i dq D hD y hy => ?_, fun k i dq D hD => ?_⟩
  · rw [hq]
    exact h.queue k i dq D hD
  · rw [hq, hd]
    exact h.held k i dq D hD
  · rw [hq]
    by_cases hk : k = n
    · rw [hk, hn i] at hy
      exact (List.not_mem_nil hy).elim
    · rw [hrefs k i hk] at hy
      exact h.apart k i dq D hD y hy
  · by_cases hk : k = n
    · rw [hk, hn i]
      exact List.nodup_nil
    · rw [hrefs k i hk]
      exact h.distinct k i dq D hD

/-- Without its oldest reference a queue has the others as they were. -/
theorem update_sublist {refs : Nat → List Nat} {k x : Nat} {l : List Nat} (hx : refs k = x :: l) (q : Nat) :
    (Function.update refs k l q).Sublist (refs q) := by
  by_cases hqk : q = k
  · rw [hqk, Function.update_self, hx]
    exact List.sublist_cons_self x l
  · rw [Function.update_of_ne hqk]

/-- **A pipe-up execution takes a reference** that no queue has and that it did not take before. -/
theorem Apart.take (h : Apart G s) {n : NodeId} {i dq : Nat} {D : DataRefQDesc} {x : Nat}
    (hD : G.prmQueue n i = some (dq, D)) (hq : ∀ q, (s'.shm.queue.refs q).Sublist (s.shm.queue.refs q))
    (hd : s'.shm.dataRefQ = s.shm.dataRefQ) (hx : x ∉ s'.shm.queue.refs D.acquireQObjDescId)
    (hnew : x ∉ s.pipeupRefs G n i) (hn : s'.pipeupRefs G n i = x :: s.pipeupRefs G n i)
    (hrefs : ∀ k j, ¬ (k = n ∧ j = i) → s'.pipeupRefs G k j = s.pipeupRefs G k j) : Apart G s' := by
  refine ⟨fun k j dq' D' hD' => (h.queue k j dq' D' hD').sublist (hq _), fun k j dq' D' hD' ha hmem => ?_,
    fun k j dq' D' hD' y hy hmem => ?_, fun k j dq' D' hD' => ?_⟩
  · rw [hd] at ha hmem
    exact h.held k j dq' D' hD' ha ((hq _).subset hmem)
  · by_cases hk : k = n ∧ j = i
    · obtain ⟨rfl, rfl⟩ := hk
      rw [hD] at hD'
      cases hD'
      rw [hn] at hy
      rcases List.mem_cons.1 hy with rfl | hy
      · exact hx hmem
      · exact h.apart k j dq D hD y hy ((hq _).subset hmem)
    · rw [hrefs k j hk] at hy
      exact h.apart k j dq' D' hD' y hy ((hq _).subset hmem)
  · by_cases hk : k = n ∧ j = i
    · obtain ⟨rfl, rfl⟩ := hk
      rw [hn, List.nodup_cons]
      exact ⟨hnew, h.distinct k j dq' D' hD'⟩
    · rw [hrefs k j hk]
      exact h.distinct k j dq' D' hD'

/-- **A run takes the oldest reference** of a queue, and it is held. -/
theorem Apart.hold (h : Apart G s) {dq : Nat} {D : DataRefQDesc} {x : Nat} {l : List Nat}
    (hD : G.table.dataRefQ dq = some D) (hx : s.shm.queue.refs D.acquireQObjDescId = x :: l)
    (hnd : (s.shm.queue.refs D.acquireQObjDescId).Nodup)
    (hq : s'.shm.queue.refs = Function.update s.shm.queue.refs D.acquireQObjDescId l)
    (hd : s'.shm.dataRefQ = Function.update s.shm.dataRefQ dq ⟨true, x, 0⟩)
    (hrefs : ∀ n i, s'.pipeupRefs G n i = s.pipeupRefs G n i) : Apart G s' := by
  have hsub : ∀ q, (s'.shm.queue.refs q).Sublist (s.shm.queue.refs q) := by
    intro q
    rw [hq]
    exact update_sublist hx q
  refine h.refill hrefs (fun n i dq' D' hD' => ⟨(h.queue n i dq' D' hD').sublist (hsub _), fun ha hmem => ?_,
    fun y hy hmem => h.apart n i dq' D' hD' y hy ((hsub _).subset hmem)⟩)
  by_cases hdq : dq' = dq
  · subst hdq
    obtain ⟨-, -, -, -, -, -, hD''⟩ := Graph.prmQueue_eq_some.1 hD'
    rw [hD] at hD''
    cases hD''
    rw [hd, hq, Function.update_self, Function.update_self] at hmem
    rw [hx, List.nodup_cons] at hnd
    exact hnd.1 hmem
  · rw [hd, Function.update_of_ne hdq] at ha hmem
    exact h.held n i dq' D' hD' ha ((hsub _).subset hmem)

/-- The node a thread works on is not in the pipe-up of another. -/
theorem pipeupRef_eq_nil {pc : Pc} {n k : NodeId} (hpc : pc.nodeId = some n) (hk : k ≠ n) (i : Nat) :
    pc.pipeupRef k i = [] := by
  cases pc with
  | acquire m p prms | kernel m p prms =>
    cases hpc
    cases p with
    | zero => rfl
    | succ p => exact if_neg hk.symm
  | _ => rfl

/-- A node that is about to acquire has no parameter yet. -/
theorem pipeupRef_acquire_nil (n k : NodeId) (p i : Nat) : (Pc.acquire n p []).pipeupRef k i = [] := by
  cases p with
  | zero => rfl
  | succ p => exact ite_self _

/-- A parameter that is acquired leaves the others. -/
theorem pipeupRef_append {n k : NodeId} {p i ref : Nat} {prms : List Nat} (h : ¬ (k = n ∧ i = prms.length)) :
    (Pc.acquire n p (prms ++ [ref])).pipeupRef k i = (Pc.acquire n p prms).pipeupRef k i := by
  cases p with
  | zero => rfl
  | succ p =>
    by_cases hk : n = k
    · subst hk
      have hi : i ≠ prms.length := fun hi => h ⟨rfl, hi⟩
      have hget : (prms ++ [ref])[i]? = prms[i]? := by
        rcases Nat.lt_or_gt_of_ne hi with hi | hi
        · exact List.getElem?_append_left hi
        · rw [List.getElem?_eq_none_iff.2 (Nat.le_of_lt hi), List.getElem?_eq_none_iff.2]
          rw [List.length_append, List.length_singleton]
          exact hi
      change (if n = n then (prms ++ [ref])[i]?.toList else []) = if n = n then prms[i]?.toList else []
      rw [hget]
    · change (if n = k then _ else []) = if n = k then _ else []
      rw [if_neg hk, if_neg hk]

/-- The reference a pipe-up execution takes is one of those in the pipe-up. -/
theorem pipeupRefs_append (hO : OnTarget G s) {t : Tid} {n : NodeId} {N : NodeDesc} {p x : Nat} {prms : List Nat}
    (hpc : s.pc t = .acquire n (p + 1) prms) (hN : G.table.node n = some N)
    (hp : s'.pc = Function.update s.pc t (.acquire n (p + 1) (prms ++ [x])))
    (htr : pipeupRuns n s'.trace = pipeupRuns n s.trace) :
    s'.pipeupRefs G n prms.length = x :: s.pipeupRefs G n prms.length := by
  have ht : t = .target N.targetId := hO.pc (by rw [hpc]; rfl) hN
  subst ht
  have hold : (s.pc (.target N.targetId)).pipeupRef n prms.length = [] := by
    rw [hpc]
    change (if n = n then prms[prms.length]?.toList else []) = []
    rw [if_pos rfl, List.getElem?_eq_none_iff.2 (Nat.le_refl _)]
    rfl
  have hnew : (Pc.acquire n (p + 1) (prms ++ [x])).pipeupRef n prms.length = [x] := by
    change (if n = n then (prms ++ [x])[prms.length]?.toList else []) = [x]
    rw [if_pos rfl, List.getElem?_concat_length]
    rfl
  unfold Sys.pipeupRefs
  rw [hN, htr, hp, Option.map_some, Option.map_some, Option.getD_some, Option.getD_some, Function.update_self, hnew, hold,
    List.nil_append, List.singleton_append]

/-- A pipe-up execution that returns is one of those made. -/
theorem pipeupRefs_executed (hO : OnTarget G s) {t : Tid} {n : NodeId} {N : NodeDesc} {p : Nat} {prms : List Nat} {pc : Pc}
    (hpc : s.pc t = .kernel n (p + 1) prms) (hN : G.table.node n = some N) (hp : s'.pc = Function.update s.pc t pc)
    (hnew : ∀ k i, pc.pipeupRef k i = []) (htr : s'.trace = .executed n true prms :: s.trace) (k : NodeId) (i : Nat) :
    s'.pipeupRefs G k i = s.pipeupRefs G k i := by
  by_cases hk : k = n
  · subst hk
    have ht : t = .target N.targetId := hO.pc (by rw [hpc]; rfl) hN
    subst ht
    have hold : (s.pc (.target N.targetId)).pipeupRef k i = prms[i]?.toList := by
      rw [hpc]
      exact if_pos rfl
    have hruns : pipeupRuns k s'.trace = prms :: pipeupRuns k s.trace := by
      rw [htr]
      exact if_pos rfl
    unfold Sys.pipeupRefs
    rw [hN, hruns, hp, Option.map_some, Option.map_some, Option.getD_some, Option.getD_some, Function.update_self, hnew,
      hold, List.filterMap_cons]
    cases prms[i]? <;> rfl
  · refine pipeupRefs_eq hp ?_ ?_
    · rw [hnew, hpc]
      exact (pipeupRef_eq_nil rfl hk i).symm
    · rw [htr]
      exact if_neg (fun h => hk h.symm)

/-- A node that begins, or executes after its pipe-up, has none of its references. -/
theorem pipeupRefs_reset (hO : OnTarget G s) {t : Tid} {n : NodeId} {N : NodeDesc} {pc : Pc}
    (hpc : (s.pc t).nodeId = some n) (hN : G.table.node n = some N) (hp : s'.pc = Function.update s.pc t pc)
    (hnew : ∀ i, pc.pipeupRef n i = []) (htr : pipeupRuns n s'.trace = []) (i : Nat) : s'.pipeupRefs G n i = [] := by
  have ht : t = .target N.targetId := hO.pc hpc hN
  subst ht
  unfold Sys.pipeupRefs
  rw [hN, htr, hp]
  simp only [Option.map_some, Option.getD_some, Function.update_self, hnew, List.filterMap_nil, List.append_nil]

theorem Apart.kept (hG : G.Verified) (hW : G.Wired) (hQ : s.shm.queue.Sound G.table) (hO : OnTarget G s) (h : Apart G s)
    (hf : pipeupFinds G s a = true) (he : entersApart G s a = true) (hs : Step G s a s') : Apart G s' := by
  cases hs with
  | enqueueFailed => exact h
  | @dequeued u g P ref Q hpc hP hd hr =>
    refine h.frame (fun _ _ _ _ _ => rfl) rfl (fun q => ?_)
    obtain ⟨-, hd'⟩ | ⟨x, l, Q', hx, hd', hrefs, -, -⟩ := dequeue_cases s.shm.queue P.doneQ <;> rw [hd] at hd' <;> cases hd'
    · exact List.Sublist.refl _
    · simp only [Sys.log]
      rw [hrefs]
      exact update_sublist hx q
  | parked hpc hN hm =>
    refine h.rest rfl (fun n i => by rw [hpc]; rfl) (fun n => rfl) ?_ ?_
    · simp only [Sys.setPc, Sys.log, (isPrevPipeNodeBlocked_queue hm).2]
    · simp only [Sys.setPc, Sys.log, (isPrevPipeNodeBlocked_queue hm).1]
  | @proceeded t n N m hpc hN hm =>
    refine h.clear (n := n) (pipeupRefs_reset hO (by rw [hpc]; rfl) hN rfl (pipeupRef_acquire_nil n n _) (if_pos rfl))
      (fun k i hk => ?_) ?_ ?_
    · exact pipeupRefs_eq rfl ((pipeupRef_acquire_nil n k _ i).trans (by rw [hpc]; rfl)) (if_neg hk.symm)
    · simp only [Sys.setPc, Sys.log, (isPrevPipeNodeBlocked_queue hm).2]
    · simp only [Sys.setPc, Sys.log, (isPrevPipeNodeBlocked_queue hm).1]
  | @acquireData t n N pipeup prms P ref hpc hN hP hc =>
    refine h.frame (fun k i dq D hD => pipeupRefs_eq rfl ?_ rfl) rfl (fun q => List.Sublist.refl _)
    rw [hpc]
    refine pipeupRef_append ?_
    rintro ⟨rfl, rfl⟩
    rw [prmQueue_eq_none hN hP hc] at hD
    cases hD
  | @acquirePrm t n N pipeup prms P D hpc hN hP hq hD =>
    have hprm := prmQueue_eq hN hP hq hD
    have hother : ∀ {p x}, s.pc t = .acquire n (p + 1) prms → ∀ k j, ¬ (k = n ∧ j = prms.length) →
        (Pc.acquire n (p + 1) (prms ++ [x])).pipeupRef k j = (s.pc t).pipeupRef k j := by
      intro p x hpc k j hk
      rw [hpc]
      exact pipeupRef_append hk
    obtain ⟨ha, hs'⟩ | ⟨x, l, Q, ha, hx, -, hrefs, -, hs'⟩ | ⟨Q, -, -, hp, hQb, hs'⟩ | ⟨ha, hx, -, hs'⟩ :=
      afterAcquire_cases hG.numEntries_le hQ t n pipeup prms P.dataRefQId D rfl <;> rw [hs']
    · cases pipeup with
      | zero => exact h.rest rfl (fun k i => by rw [hpc]; rfl) (fun n => rfl) rfl rfl
      | succ p =>
        exact h.take hprm (fun q => List.Sublist.refl _) rfl (h.held _ _ _ _ hprm ha)
          ((pipeupFinds_acquire hf hpc hprm).1 ha) (pipeupRefs_append hO hpc hN rfl rfl)
          (fun k j hk => pipeupRefs_eq rfl (hother hpc k j hk) rfl)
    · have hnd := h.queue _ _ _ _ hprm
      cases pipeup with
      | zero => exact h.hold hD hx hnd hrefs rfl (fun k i => pipeupRefs_eq rfl (by rw [hpc]; rfl) rfl)
      | succ p =>
        -- the queue had the reference once, and none that is in the pipe-up
        have hmem : x ∈ s.shm.queue.refs D.acquireQObjDescId := by rw [hx]; exact List.mem_cons_self
        have hleft : x ∉ Q.refs D.acquireQObjDescId := by
          rw [hx, List.nodup_cons] at hnd
          rw [hrefs, Function.update_self]
          exact hnd.1
        refine h.take hprm (fun q => ?_) rfl hleft (fun hold => h.apart _ _ _ _ hprm x hold hmem)
          (pipeupRefs_append hO hpc hN rfl rfl) (fun k j hk => pipeupRefs_eq rfl (hother hpc k j hk) rfl)
        simp only [Sys.setPc, Sys.log]
        rw [hrefs]
        exact update_sublist hx q
    · subst hp
      exact h.rest rfl (fun k i => by rw [hpc]; rfl) (fun n => rfl) rfl (addBlockedNode_eq_some hQb).2.1
    · cases pipeup with
      | zero => exact h.rest rfl (fun k i => by rw [hpc]; rfl) (fun n => rfl) rfl rfl
      | succ p => exact ((pipeupFinds_acquire hf hpc hprm).2 ha hx).elim
  | @acquireInvalid t n N pipeup prms hpc hN hP hall =>
    refine h.rest rfl (fun k i => ?_) (fun n => rfl) rfl rfl
    rw [hpc]
    cases pipeup with
    | zero => rfl
    | succ p => rfl
  | @acquireEnd t n N pipeup prms hpc hN hP hall =>
    refine h.rest rfl (fun k i => ?_) (fun n => rfl) rfl rfl
    rw [hpc]
    cases pipeup with
    | zero => rfl
    | succ p => rfl
  | @noNode t n hpc hN =>
    refine h.frame (fun k i dq D hD => pipeupRefs_eq rfl ?_ rfl) rfl (fun q => List.Sublist.refl _)
    obtain ⟨K, P, hK, -⟩ := Graph.prmQueue_eq_some.1 hD
    refine (pipeupRef_eq_nil hpc ?_ i).symm
    rintro rfl
    rw [hN] at hK
    cases hK
  | @kernel t n N prms₀ prms hpc hN hk =>
    refine h.clear (n := n) (pipeupRefs_reset hO (by rw [hpc]; rfl) hN rfl (fun _ => rfl) (if_pos rfl)) (fun k i hk => ?_)
      rfl rfl
    exact pipeupRefs_eq rfl (by rw [hpc]; rfl) (if_neg hk.symm)
  | @kernelSteady t n N prms₀ prms hpc hN hk =>
    exact h.frame (fun k i _ _ _ => pipeupRefs_executed hO hpc hN rfl (fun _ _ => rfl) rfl k i) rfl
      (fun q => List.Sublist.refl _)
  | @kernelPipeup t n N p prms₀ prms hpc hN hk =>
    exact h.frame (fun k i _ _ _ => pipeupRefs_executed hO hpc hN rfl (fun k i => pipeupRef_acquire_nil n k _ i) rfl k i) rfl
      (fun q => List.Sublist.refl _)
  | @releasePrm t n N prms prmId blocked P D R E hpc hN hP hq hD hR =>
    subst hR
    refine h.refill (fun k i => pipeupRefs_eq rfl (by rw [hpc]; rfl) rfl) (fun k i dq D' hD' => ?_)
    simp only [entersApart, hpc, hN, hP, hD, hq, Option.bind_some, Option.all_some, Bool.not_true, Bool.false_or] at he
    exact leavesApart_iff hW he hD'
  | @enqueued u g ref P Q hpc hP hr hE =>
    refine h.refill (fun k i => pipeupRefs_eq rfl (by rw [hpc]; rfl) rfl) (fun k i dq D hD => ?_)
    have hrefs : (ownObjDescQueueExtractBlockedNodes Q P.readyQ []).1.refs =
        Function.update s.shm.queue.refs P.readyQ (s.shm.queue.refs P.readyQ ++ [ref]) :=
      (extractBlockedNodes_spec Q P.readyQ []).2.1.trans (enqueue_eq_some hE).1
    simp only [entersApart, hP, Option.all_some, Bool.and_eq_true, decide_eq_true_eq] at he
    have hout := of_decide_eq_true (List.all_eq_true.1 he.2 _ (mem_prmQueues hW hD))
    simp only [Sys.setPc, Sys.log]
    rw [hrefs]
    by_cases hqk : D.acquireQObjDescId = P.readyQ
    · have hnd := h.queue k i dq D hD
      have hap := h.apart k i dq D hD
      have hheld := h.held k i dq D hD
      rw [hqk] at hnd hap hheld
      rw [hqk, Function.update_self]
      refine ⟨?_, fun ha hmem => ?_, fun y hy hmem => ?_⟩
      · rw [List.nodup_append]
        refine ⟨hnd, List.nodup_singleton _, fun x hx y hy => ?_⟩
        rw [List.mem_singleton] at hy
        subst hy
        rintro rfl
        exact he.1 hx
      · rcases List.mem_append.1 hmem with hmem | hmem
        · exact hheld ha hmem
        · exact (hout hqk).1 ha (List.mem_singleton.1 hmem)
      · rcases List.mem_append.1 hmem with hmem | hmem
        · exact hap y hy hmem
        · rw [List.mem_singleton] at hmem
          subst hmem
          exact (hout hqk).2 hy
    · rw [Function.update_of_ne hqk]
      exact ⟨h.queue k i dq D hD, h.held k i dq D hD, h.apart k i dq D hD⟩
  | completed hpc hl hc =>
    refine h.rest rfl (fun n i => ?_) (fun n => rfl) rfl rfl
    rw [hpc]
    split <;> rfl
  | takeCallback pc hpc hq hc =>
    refine h.rest rfl (fun n i => ?_) (fun n => rfl) rfl rfl
    obtain ⟨rfl, -⟩ | ⟨rfl, -⟩ := hc
    · rw [hpc]
      rfl
    · rw [hpc]
  | _ => exact h.rest rfl (fun n i => by simp only [‹s.pc _ = _›, Pc.pipeupRef]) (fun n => rfl) rfl rfl

/-- The invariant: what is held and queued are descriptors, and what the kernels ran with. -/
structure PipeupInv (G : Graph) (s : Sys) : Prop where
  sound : s.shm.queue.Sound G.table
  acquireQ : ∀ dq D, G.table.dataRefQ dq = some D → (s.shm.queue D.acquireQObjDescId).isSome
  onTarget : OnTarget G s
  holds : HoldsRefs G s
  filled : PipeupFilled G s
  apart : Apart G s
  valid : ∀ n isPipeup prms, .executed n isPipeup prms ∈ s.trace → ∀ i dq D, G.prmQueue n i = some (dq, D) →
    ∃ ref, prms[i]? = some ref ∧ ref < G.table.numEntries

theorem PipeupInv.right (h : PipeupInv G s) : PipeupRight G s := by
  refine ⟨h.valid, fun n i dq D hD => ?_⟩
  have hnd := h.apart.distinct n i dq D hD
  unfold Sys.pipeupRefs at hnd
  exact (List.nodup_append.1 hnd).2.1

/-- A parameter that is filled is the id of a descriptor. -/
theorem prm_of_filled {n : NodeId} {N : NodeDesc} {prms : List Nat} (hN : G.table.node n = some N)
    (hf : prmsFilled G n prms = true) (hl : prms.length = N.prms.length) {i dq : Nat} {D : DataRefQDesc}
    (hD : G.prmQueue n i = some (dq, D)) : ∃ ref, prms[i]? = some ref ∧ ref < G.table.numEntries := by
  obtain ⟨K, P, hK, hP, -⟩ := Graph.prmQueue_eq_some.1 hD
  rw [hN] at hK
  cases hK
  have hi : i < prms.length := hl ▸ (List.getElem?_eq_some_iff.1 hP).1
  have hget := List.getElem?_eq_getElem hi
  exact ⟨prms[i], hget, prmsFilled_iff.1 hf i dq D _ hD hget⟩

/-- A thread that is in a kernel has all parameters of its node. -/
theorem PipeupInv.kernel_prms (h : PipeupInv G s) {t : Tid} {n : NodeId} {N : NodeDesc} {p : Nat} {prms : List Nat}
    (hpc : s.pc t = .kernel n p prms) (hN : G.table.node n = some N) :
    prmsFilled G n prms = true ∧ prms.length = N.prms.length := by
  cases p with
  | zero =>
    have hall : (s.pc t).allPrms = some (n, prms) := by rw [hpc]; rfl
    exact ⟨(h.holds.filled (Pc.prms_of_allPrms hall) hN).1, h.holds.length hall hN⟩
  | succ p => exact h.filled.kernel hpc hN

theorem PipeupInv.kept (hG : G.Verified) (hW : G.Wired) (h : PipeupInv G s) (hc : pipeupSafe G s a = true)
    (hs : Step G s a s') : PipeupInv G s' := by
  simp only [pipeupSafe, Bool.and_eq_true] at hc
  obtain ⟨⟨⟨hf, he⟩, hr⟩, hk⟩ := hc
  refine ⟨sound_kept hG h.sound hs, fun dq D hD => ?_, h.onTarget.kept hs, h.holds.kept hG h.sound h.acquireQ hr hk hs,
    h.filled.kept hG h.sound h.holds hf hs, h.apart.kept hG hW h.sound h.onTarget hf he hs,
    fun n isPipeup prms hm i dq D hD => ?_⟩
  · rw [queue_isSome_kept hG h.sound hs]
    exact h.acquireQ dq D hD
  · rcases executed_of_step hs hm with hm | ⟨t, p, hpc⟩
    · exact h.valid n isPipeup prms hm i dq D hD
    · obtain ⟨N, P, hN, -⟩ := Graph.prmQueue_eq_some.1 hD
      obtain ⟨hfill, hlen⟩ := h.kernel_prms hpc hN
      exact prm_of_filled hN hfill hlen hD

end Step

/-- The invariant holds at first, where each reference is once in the queue of a parameter. -/
theorem pipeupInv_start {G : Graph} {s : Sys} (h0 : Starts G s)
    (hq : ∀ n i dq D, G.prmQueue n i = some (dq, D) → (s.shm.queue.refs D.acquireQObjDescId).Nodup) : PipeupInv G s := by
  have hnil : ∀ n i, s.pipeupRefs G n i = [] := by
    intro n i
    unfold Sys.pipeupRefs
    rw [h0.trace]
    cases G.table.node n with
    | none => rfl
    | some N =>
      rw [Option.map_some, h0.pc]
      rfl
  refine ⟨⟨h0.refs_lt, fun q _ => h0.blockedOn q⟩, h0.acquireQ, ⟨fun {id n N} hm => ?_, fun {t n N} hm => ?_⟩,
    ⟨fun dq hdq => ?_, fun {t n prms N} hm => ?_, fun {t n prms N} hm => ?_⟩,
    ⟨fun {t n p prms N} hm => ?_, fun {t n p prms N} hm => ?_⟩,
    ⟨hq, fun n i dq _ _ ha => ?_, fun n i _ _ _ y hy => ?_, fun n i _ _ _ => ?_⟩,
    fun n isPipeup prms hm => ?_⟩
  · rw [h0.jobQ] at hm; cases hm
  · rw [h0.pc] at hm; cases hm
  · rw [h0.isRefAcquired] at hdq; cases hdq
  · rw [h0.pc] at hm; cases hm
  · rw [h0.pc] at hm; cases hm
  · rw [h0.pc] at hm; cases hm
  · rw [h0.pc] at hm; cases hm
  · rw [h0.isRefAcquired] at ha; cases ha
  · rw [hnil] at hy; cases hy
  · rw [hnil]; exact List.nodup_nil
  · rw [h0.trace] at hm; cases hm

end Tiovx
