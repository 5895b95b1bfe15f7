import Tiovx.Runs
/-!
# AcquireAll — a node executes with all its references, or waits on a queue

A node that finds a queue empty is recorded as blocked on it, but the record has room for eight nodes and a ninth goes
on without its reference.  Where the record has room, `prm_obj_desc_id` is filled with ids of descriptors when a kernel
runs, and a node recorded as blocked stands before the parameter it waits for.
-/
namespace Tiovx

open StepSystem

/-- The data reference queue descriptor that parameter `i` of node `n` is bound to, with its id. -/
def Graph.prmQueue (G : Graph) (n : NodeId) (i : Nat) : Option (Nat × DataRefQDesc) :=
  (G.table.node n).bind fun N => N.prms[i]?.bind fun P =>
    if P.isDataRefQ then (G.table.dataRefQ P.dataRefQId).map (fun D => (P.dataRefQId, D)) else none

theorem Graph.prmQueue_eq_some {G : Graph} {n : NodeId} {i dq : Nat} {D : DataRefQDesc} :
    G.prmQueue n i = some (dq, D) ↔ ∃ N P, G.table.node n = some N ∧ N.prms[i]? = some P ∧ P.isDataRefQ = true ∧
      P.dataRefQId = dq ∧ G.table.dataRefQ dq = some D := by
  unfold Graph.prmQueue
  constructor
  · intro h
    obtain ⟨N, hN, h⟩ := Option.bind_eq_some_iff.1 h
    obtain ⟨P, hP, h⟩ := Option.bind_eq_some_iff.1 h
    split at h
    · rename_i hq
      obtain ⟨D', hD, h⟩ := Option.map_eq_some_iff.1 h
      cases h
      exact ⟨N, P, hN, hP, hq, rfl, hD⟩
    · cases h
  · rintro ⟨N, P, hN, hP, hq, rfl, hD⟩
    simp [hN, hP, hq, hD]

/-- No reference is held or queued for the parameter. -/
def mustWait (s : Sys) (dq : Nat) (D : DataRefQDesc) : Bool :=
  !(s.shm.dataRefQ dq).isRefAcquired && (s.shm.queue.refs D.acquireQObjDescId).isEmpty

theorem mustWait_iff {s : Sys} {dq : Nat} {D : DataRefQDesc} : mustWait s dq D = true ↔
    (s.shm.dataRefQ dq).isRefAcquired = false ∧ s.shm.queue.refs D.acquireQObjDescId = [] := by
  simp [mustWait]

/-- The queue a node has to wait for outside the pipe-up has room to record it. -/
def roomForBlocked (G : Graph) (s : Sys) : Act → Bool
  | .thread t =>
    match s.pc t with
    | .acquire n 0 prms =>
      (G.prmQueue n prms.length).all fun q => !mustWait s q.1 q.2 ||
        decide ((s.shm.queue.blockedOn q.2.acquireQObjDescId).length < objDescQueueMaxBlockedNodes)
    | _ => true
  | _ => true

/-- Each parameter of `prms` bound to a data reference queue is the id of a descriptor. -/
def prmsFilled (G : Graph) (n : NodeId) (prms : List Nat) : Bool :=
  (List.range prms.length).all fun i => (G.prmQueue n i).isNone || G.table.ownObjDescGet (prms.getD i objDescInvalid)

/-- A kernel leaves ids of descriptors in the parameters it may change. -/
def kernelLeavesRefs (G : Graph) (s : Sys) : Act → Bool
  | .kernel t prms =>
    match s.pc t with
    | .kernel n 0 _ => prmsFilled G n prms
    | _ => true
  | _ => true

/-- The condition on a step: there is room for a node that must wait, and a kernel leaves references. -/
def waitsRecorded (G : Graph) (s : Sys) (a : Act) : Bool := roomForBlocked G s a && kernelLeavesRefs G s a

theorem prmsFilled_iff {G : Graph} {n : NodeId} {prms : List Nat} : prmsFilled G n prms = true ↔
    ∀ i dq D ref, G.prmQueue n i = some (dq, D) → prms[i]? = some ref → ref < G.table.numEntries := by
  unfold prmsFilled
  rw [List.all_eq_true]
  constructor
  · intro h i dq D ref hD hr
    have hi := (List.getElem?_eq_some_iff.1 hr).1
    have := h i (List.mem_range.2 hi)
    simpa [hD, hr, ObjDescTable.ownObjDescGet] using this
  · intro h i hi
    have hi := List.mem_range.1 hi
    cases hD : G.prmQueue n i with
    | none => rfl
    | some q => simpa [ObjDescTable.ownObjDescGet, hi] using h i q.1 q.2 prms[i] hD (List.getElem?_eq_getElem hi)

theorem prmsFilled_nil (G : Graph) (n : NodeId) : prmsFilled G n [] = true := rfl

theorem prmsFilled_append {G : Graph} {n : NodeId} {prms : List Nat} {ref : Nat} (h : prmsFilled G n prms = true)
    (hr : ∀ dq D, G.prmQueue n prms.length = some (dq, D) → ref < G.table.numEntries) :
    prmsFilled G n (prms ++ [ref]) = true := by
  rw [prmsFilled_iff] at h ⊢
  intro i dq D x hD hx
  rcases Nat.lt_trichotomy i prms.length with hi | rfl | hi
  · rw [List.getElem?_append_left hi] at hx
    exact h i dq D x hD hx
  · rw [List.getElem?_append_right (Nat.le_refl _), Nat.sub_self] at hx
    cases hx
    exact hr dq D hD
  · rw [List.getElem?_eq_none (by simp; omega)] at hx
    cases hx

/-- A node that must wait, with room for it, is recorded. -/
theorem roomForBlocked_lt {G : Graph} {s : Sys} {t : Tid} {n : NodeId} {prms : List Nat} {dq : Nat} {D : DataRefQDesc}
    (h : roomForBlocked G s (.thread t) = true) (hpc : s.pc t = .acquire n 0 prms)
    (hD : G.prmQueue n prms.length = some (dq, D)) (hw : mustWait s dq D = true) :
    (s.shm.queue.blockedOn D.acquireQObjDescId).length < objDescQueueMaxBlockedNodes := by
  simp only [roomForBlocked, hpc, hD, Option.all_some, hw, Bool.not_true, Bool.false_or, decide_eq_true_eq] at h
  exact h

/-- The node and its parameters as far as they are acquired. -/
def Pc.prms : Pc → Option (NodeId × List Nat)
  | .acquire n pipeup prms | .kernel n pipeup prms => if pipeup = 0 then some (n, prms) else none
  | .markComplete n prms | .release n prms _ _ | .retrigger n prms _ _ _ _ => some (n, prms)
  | _ => none

/-- The node and its parameters once all are acquired. -/
def Pc.allPrms : Pc → Option (NodeId × List Nat)
  | .kernel n pipeup prms => if pipeup = 0 then some (n, prms) else none
  | .markComplete n prms | .release n prms _ _ | .retrigger n prms _ _ _ _ => some (n, prms)
  | _ => none

theorem Pc.nodeId_of_prms {pc : Pc} {n : NodeId} {prms : List Nat} (h : pc.prms = some (n, prms)) :
    pc.nodeId = some n := by
  cases pc <;> simp only [Pc.prms, reduceCtorEq] at h <;> (try split at h) <;> cases h <;> rfl

theorem Pc.prms_of_allPrms {pc : Pc} {x : NodeId × List Nat} (h : pc.allPrms = some x) : pc.prms = some x := by
  cases pc <;> simp only [Pc.allPrms, reduceCtorEq] at h <;> exact h

/-- The references the threads and the descriptors hold are descriptors. -/
structure HoldsRefs (G : Graph) (s : Sys) : Prop where
  ref_lt : ∀ dq, (s.shm.dataRefQ dq).isRefAcquired = true → (s.shm.dataRefQ dq).refObjDescId < G.table.numEntries
  filled : ∀ {t n prms N}, (s.pc t).prms = some (n, prms) → G.table.node n = some N →
    prmsFilled G n prms = true ∧ prms.length ≤ N.prms.length
  length : ∀ {t n prms N}, (s.pc t).allPrms = some (n, prms) → G.table.node n = some N → prms.length = N.prms.length

theorem kernelLeaves_length : ∀ {l : List Prm} {as bs : List Nat}, kernelLeaves l as bs = true → bs.length = as.length
  | _ :: l, a :: as, b :: bs, h => by
    simp only [kernelLeaves, Bool.and_eq_true] at h
    rw [List.length_cons, List.length_cons, kernelLeaves_length h.2]
  | [], [], [], _ => rfl
  | _ :: _, [], [], _ => rfl
  | [], [], _ :: _, h => by simp [kernelLeaves] at h
  | [], _ :: _, [], h => by simp [kernelLeaves] at h
  | [], _ :: _, _ :: _, h => by simp [kernelLeaves] at h
  | _ :: _, [], _ :: _, h => by simp [kernelLeaves] at h
  | _ :: _, _ :: _, [], h => by simp [kernelLeaves] at h

/-- A step that leaves the descriptors and brings its thread to parameters it had, or to ones that are filled. -/
theorem HoldsRefs.setPc {G : Graph} {s s' : Sys} {t : Tid} {pc : Pc} (h : HoldsRefs G s)
    (hd : ∀ dq, (s'.shm.dataRefQ dq).isRefAcquired = true →
      (s'.shm.dataRefQ dq).refObjDescId < G.table.numEntries)
    (hp : s'.pc = Function.update s.pc t pc)
    (hf : ∀ n prms N, pc.prms = some (n, prms) → G.table.node n = some N →
      prmsFilled G n prms = true ∧ prms.length ≤ N.prms.length)
    (hl : ∀ n prms N, pc.allPrms = some (n, prms) → G.table.node n = some N → prms.length = N.prms.length) :
    HoldsRefs G s' := by
  refine ⟨hd, fun {t' n prms N} hm hN => ?_, fun {t' n prms N} hm hN => ?_⟩ <;> rw [hp] at hm <;>
    by_cases ht : t' = t
  · subst ht
    rw [Function.update_self] at hm
    exact hf n prms N hm hN
  · rw [Function.update_of_ne ht] at hm
    exact h.filled hm hN
  · subst ht
    rw [Function.update_self] at hm
    exact hl n prms N hm hN
  · rw [Function.update_of_ne ht] at hm
    exact h.length hm hN

/-- A step that appends an id to the parameters. -/
theorem HoldsRefs.append {G : Graph} {s s' : Sys} {t : Tid} {n : NodeId} {N : NodeDesc} {pipeup ref : Nat}
    {prms : List Nat} {P : Prm} (h : HoldsRefs G s) (hpc : s.pc t = .acquire n pipeup prms)
    (hN : G.table.node n = some N) (hP : N.prms[prms.length]? = some P)
    (hr : pipeup = 0 → ∀ dq D, G.prmQueue n prms.length = some (dq, D) → ref < G.table.numEntries)
    (hd : ∀ dq, (s'.shm.dataRefQ dq).isRefAcquired = true →
      (s'.shm.dataRefQ dq).refObjDescId < G.table.numEntries)
    (hp : s'.pc = Function.update s.pc t (.acquire n pipeup (prms ++ [ref]))) : HoldsRefs G s' := by
  refine h.setPc hd hp (fun n' prms' N' hn hN' => ?_) (fun _ _ _ hn => by cases hn)
  simp only [Pc.prms] at hn
  split at hn
  · rename_i h0
    cases hn
    rw [hN] at hN'
    cases hN'
    obtain ⟨hf, -⟩ := h.filled (t := t) (by rw [hpc, Pc.prms, if_pos h0]) hN
    refine ⟨prmsFilled_append hf (hr h0), ?_⟩
    have := (List.getElem?_eq_some_iff.1 hP).1
    rw [List.length_append]
    exact this
  · cases hn

/-- A parameter that is not bound to a data reference queue descriptor. -/
theorem prmQueue_eq_none {G : Graph} {n : NodeId} {N : NodeDesc} {i : Nat} {P : Prm} {ref : Nat}
    (hN : G.table.node n = some N) (hP : N.prms[i]? = some P)
    (h : P.isDataRefQ = false ∧ ref = P.dataId ∨
      P.isDataRefQ = true ∧ G.table.dataRefQ P.dataRefQId = none ∧ ref = objDescInvalid) : G.prmQueue n i = none := by
  obtain ⟨hq, -⟩ | ⟨hq, hD, -⟩ := h <;> simp [Graph.prmQueue, *]

theorem prmQueue_eq {G : Graph} {n : NodeId} {N : NodeDesc} {i : Nat} {P : Prm} {D : DataRefQDesc}
    (hN : G.table.node n = some N) (hP : N.prms[i]? = some P) (hq : P.isDataRefQ = true)
    (hD : G.table.dataRefQ P.dataRefQId = some D) : G.prmQueue n i = some (P.dataRefQId, D) :=
  Graph.prmQueue_eq_some.2 ⟨N, P, hN, hP, hq, rfl, hD⟩

theorem HoldsRefs.kept {G : Graph} {s s' : Sys} {a : Act} (hG : G.Verified) (hQ : s.shm.queue.Sound G.table)
    (hE : ∀ dq D, G.table.dataRefQ dq = some D → (s.shm.queue D.acquireQObjDescId).isSome) (h : HoldsRefs G s)
    (hr : roomForBlocked G s a = true) (hk : kernelLeavesRefs G s a = true) (hs : Step G s a s') :
    HoldsRefs G s' := by
  cases hs with
  | enqueueFailed => exact h
  | dequeued => exact ⟨h.ref_lt, h.filled, h.length⟩
  | parked hpc hN hm =>
    refine h.setPc (fun dq => ?_) rfl (fun _ _ _ hn => by cases hn) (fun _ _ _ hn => by cases hn)
    simp only [Sys.setPc, Sys.log, (isPrevPipeNodeBlocked_queue hm).2]
    exact h.ref_lt dq
  | proceeded hpc hN hm =>
    refine h.setPc (fun dq => ?_) rfl (fun n prms N hn _ => ?_) (fun _ _ _ hn => by cases hn)
    · simp only [Sys.setPc, Sys.log, (isPrevPipeNodeBlocked_queue hm).2]
      exact h.ref_lt dq
    · simp only [Pc.prms] at hn
      split at hn <;> cases hn
      exact ⟨prmsFilled_nil _ _, Nat.zero_le _⟩
  | acquireData ref hpc hN hP hc =>
    refine h.append hpc hN hP (fun _ dq D hD => ?_) h.ref_lt rfl
    rw [prmQueue_eq_none hN hP hc] at hD
    cases hD
  | @acquirePrm t n N pipeup prms P D hpc hN hP hq hD =>
    obtain ⟨ha, hs'⟩ | ⟨x, l, Q, -, hx, -, -, -, hs'⟩ | ⟨Q, -, -, -, -, hs'⟩ | ⟨ha, he, hp, hs'⟩ :=
      afterAcquire_cases hG.numEntries_le hQ t n pipeup prms P.dataRefQId D rfl <;> rw [hs']
    · exact h.append hpc hN hP (fun _ _ _ _ => h.ref_lt _ ha) h.ref_lt rfl
    · have hlt := hQ.lt_numEntries D.acquireQObjDescId x (by rw [hx]; exact List.mem_cons_self)
      refine h.append hpc hN hP (fun _ _ _ _ => hlt) (fun dq hdq => ?_) rfl
      simp only [Sys.setPc, Sys.log] at hdq ⊢
      split at hdq
      · rename_i h0
        rw [if_pos h0]
        exact h.ref_lt dq hdq
      · rename_i h0
        rw [if_neg h0]
        by_cases hk : dq = P.dataRefQId
        · rw [hk, Function.update_self]
          exact hlt
        · rw [Function.update_of_ne hk] at hdq ⊢
          exact h.ref_lt dq hdq
    · exact h.setPc h.ref_lt rfl (fun _ _ _ hn => by cases hn) (fun _ _ _ hn => by cases hn)
    · refine h.append hpc hN hP (fun h0 _ _ _ => ?_) h.ref_lt rfl
      subst h0
      have := roomForBlocked_lt hr hpc (prmQueue_eq hN hP hq hD) (mustWait_iff.2 ⟨ha, he⟩)
      have := (addBlockedNode_eq_none (hE _ D hD)).1 (hp rfl)
      omega
  | acquireInvalid hpc hN hP hall =>
    refine h.setPc h.ref_lt rfl (fun _ _ _ hn => ?_) (fun _ _ _ hn => ?_) <;> split at hn
    · cases hn
    · rename_i hne
      simp only [Pc.prms, if_neg hne] at hn
      cases hn
    · cases hn
    · rename_i hne
      simp only [Pc.allPrms, if_neg hne] at hn
      cases hn
  | @acquireEnd t n N pipeup prms hpc hN hP hall =>
    refine h.setPc h.ref_lt rfl (fun _ _ _ hn => h.filled (t := t) (by rw [hpc]; exact hn))
      (fun n' prms' N' hn hN' => ?_)
    simp only [Pc.allPrms] at hn
    split at hn <;> cases hn
    rename_i h0
    rw [hN] at hN'
    cases hN'
    have := (h.filled (t := t) (by rw [hpc, Pc.prms, if_pos h0]) hN).2
    have := List.getElem?_eq_none_iff.1 hP
    omega
  | @releasePrm t n N prms prmId blocked P D R E hpc hN hP hq hD hR =>
    refine h.setPc (fun dq hdq => ?_) rfl (fun _ _ _ hn => h.filled (t := t) (by rw [hpc]; exact hn))
      (fun _ _ _ hn => h.length (t := t) (by rw [hpc]; exact hn))
    simp only [Sys.setPc, Sys.log, hR] at hdq ⊢
    by_cases hk : dq = P.dataRefQId
    · subst hk
      rw [releaseParameter_dataRefQ] at hdq ⊢
      split at hdq
      · rename_i hi
        rw [if_pos hi]
        simp only [Bool.and_eq_true] at hdq
        exact h.ref_lt _ hdq.1
      · rename_i hi
        rw [if_neg hi]
        split at hdq
        · cases hdq
        · rename_i h0
          rw [if_neg h0]
          have hf := (h.filled (t := t) (by rw [hpc, Pc.prms]) hN).1
          have hl := h.length (t := t) (by rw [hpc, Pc.allPrms]) hN
          have hi := (List.getElem?_eq_some_iff.1 hP).1
          rw [← hl] at hi
          exact prmsFilled_iff.1 hf prmId _ D _ (prmQueue_eq hN hP hq hD) (by simp [hi])
    · rw [releaseParameter_dataRefQ_ne hk] at hdq ⊢
      exact h.ref_lt dq hdq
  | @kernel t n N prms₀ prms hpc hN hkl =>
    have hl := h.length (t := t) (by rw [hpc]; rfl) hN
    have hlk := kernelLeaves_length hkl
    simp only [kernelLeavesRefs, hpc] at hk
    refine h.setPc h.ref_lt rfl (fun n' prms' N' hn hN' => ?_) (fun n' prms' N' hn hN' => ?_) <;> cases hn <;>
      rw [hN] at hN' <;> cases hN'
    · exact ⟨hk, by omega⟩
    · omega
  | kernelSteady hpc hN hkl =>
    refine h.setPc h.ref_lt rfl (fun _ _ _ hn _ => ?_) (fun _ _ _ hn => by cases hn)
    cases hn
    exact ⟨prmsFilled_nil _ _, Nat.zero_le _⟩
  | completed hpc hl hc =>
    refine h.setPc h.ref_lt rfl (fun _ _ _ hn => ?_) (fun _ _ _ hn => ?_) <;> split at hn <;> cases hn
  | takeCallback pc hpc hq hc =>
    obtain ⟨rfl, -⟩ | ⟨rfl, -⟩ := hc <;>
      exact h.setPc h.ref_lt rfl (fun _ _ _ hn => by cases hn) (fun _ _ _ hn => by cases hn)
  | markComplete hpc hN | retrigger hpc hN | refConsumed _ _ hpc hN | releaseData hpc hN hP hc =>
    exact h.setPc h.ref_lt rfl (fun _ _ _ hn => h.filled (by rw [hpc]; exact hn))
      (fun _ _ _ hn => h.length (by rw [hpc]; exact hn))
  | _ => exact h.setPc h.ref_lt rfl (fun _ _ _ hn => by cases hn) (fun _ _ _ hn => by cases hn)

/-- Node `n` waits for its parameter `i` on queue `q`. -/
def WaitsFor (G : Graph) (s : Sys) (n : NodeId) (q i : Nat) : Prop :=
  ∃ dq D, G.prmQueue n i = some (dq, D) ∧ D.acquireQObjDescId = q ∧ mustWait s dq D = true

/-- No thread is past parameter `i` of node `n`. -/
def StandsBefore (s : Sys) (n : NodeId) (i : Nat) : Prop :=
  ∀ t prms, (s.pc t).prms = some (n, prms) → (s.pc t).allPrms = none ∧ prms.length ≤ i

theorem StandsBefore.not_past {s : Sys} {n : NodeId} {i : Nat} (h : StandsBefore s n i) {t : Tid} {prms : List Nat}
    (hp : (s.pc t).allPrms = some (n, prms)) : False := by
  have := (h t prms (Pc.prms_of_allPrms hp)).1
  rw [hp] at this
  cases this

/-- Every node recorded as blocked on a queue waits for a parameter, and no thread is past it. -/
def RecordedWait (G : Graph) (s : Sys) : Prop :=
  ∀ q n, n ∈ s.shm.queue.blockedOn q → ∃ i, WaitsFor G s n q i ∧ StandsBefore s n i

theorem enqueueAndExtract_subset (Q : Queues) (q x : Nat) (out : List NodeId) (k : Nat) (n : NodeId)
    (h : n ∈ (enqueueAndExtract Q q x out).1.blockedOn k) : n ∈ Q.blockedOn k := by
  obtain ⟨-, he⟩ | ⟨-, -, hb, -⟩ := enqueueAndExtract_cases Q q x out
  · rwa [he] at h
  · rw [hb, Function.update_apply] at h
    split at h
    · cases h
    · exact h

theorem ageSlot_subset (D : DataRefQDesc) (Q : Queues) (out : List NodeId) (k : Nat) (n : NodeId)
    (h : n ∈ (ageSlot D Q out).1.blockedOn k) : n ∈ Q.blockedOn k := by
  unfold ageSlot at h
  obtain ⟨-, hd⟩ | ⟨x, l, Q', -, hd, -, hb, -⟩ := dequeue_cases Q D.acquireQObjDescId <;> rw [hd] at h <;>
    simp only at h
  · simpa using h
  · split at h
    · rwa [hb] at h
    · rw [← hb]
      exact enqueueAndExtract_subset Q' D.releaseQObjDescId x out k n h

/-- A release records no node. -/
theorem releaseParameter_subset {T : ObjDescTable} {hostOnly : Bool} {dq : Nat} {D : DataRefQDesc} {ref : Nat}
    {isInput : Bool} {m : Shm} (k : Nat) (n : NodeId)
    (h : n ∈ (ownTargetNodeDescReleaseParameter T hostOnly dq D ref isInput m).shm.queue.blockedOn k) :
    n ∈ m.queue.blockedOn k := by
  rw [releaseParameter_queue] at h
  split at h
  · exact releaseToQueue_rule (I := fun Q _ => ∀ n, n ∈ Q.blockedOn k → n ∈ m.queue.blockedOn k)
      (fun n => enqueueAndExtract_subset _ _ _ _ k n) (fun _ N Q out _ _ hI n hn => hI n (ageSlot_subset N Q out k n hn))
      n h
  · exact h

/-- A step that acquires nothing a recorded node waits for and brings no thread past it; a node it records waits. -/
theorem RecordedWait.record {G : Graph} {s s' : Sys} {t : Tid} {pc : Pc} (h : RecordedWait G s)
    (hQ : s'.shm.queue.Sound G.table)
    (hb : ∀ q n, n ∈ s'.shm.queue.blockedOn q →
      n ∈ s.shm.queue.blockedOn q ∨ ∃ i, WaitsFor G s n q i ∧ StandsBefore s' n i)
    (ha : ∀ dq D, G.table.dataRefQ dq = some D → mustWait s dq D = true →
      (s'.shm.dataRefQ dq).isRefAcquired = false)
    (hp : s'.pc = Function.update s.pc t pc)
    (hn : ∀ n q i prms, pc.prms = some (n, prms) → WaitsFor G s n q i → StandsBefore s n i →
      pc.allPrms = none ∧ prms.length ≤ i) : RecordedWait G s' := by
  intro q n hm
  have hwait : ∀ i, WaitsFor G s n q i → WaitsFor G s' n q i := by
    rintro i ⟨dq, D, hD, rfl, hw⟩
    obtain ⟨N, P, -, -, -, -, hdq⟩ := Graph.prmQueue_eq_some.1 hD
    refine ⟨dq, D, hD, rfl, mustWait_iff.2 ⟨ha dq D hdq hw, ?_⟩⟩
    by_contra hr
    rw [hQ.blockedOn_eq_nil D.acquireQObjDescId hr] at hm
    cases hm
  obtain hm | ⟨i, hw, hs⟩ := hb q n hm
  · obtain ⟨i, hw, hs⟩ := h q n hm
    refine ⟨i, hwait i hw, fun t' prms ht' => ?_⟩
    rw [hp] at ht' ⊢
    by_cases ht : t' = t
    · subst ht
      rw [Function.update_self] at ht' ⊢
      exact hn n q i prms ht' hw hs
    · rw [Function.update_of_ne ht] at ht' ⊢
      exact hs t' prms ht'
  · exact ⟨i, hwait i hw, hs⟩

/-- A step that records no node, acquires nothing a recorded node waits for, and brings no thread past it. -/
theorem RecordedWait.setPc {G : Graph} {s s' : Sys} {t : Tid} {pc : Pc} (h : RecordedWait G s)
    (hQ : s'.shm.queue.Sound G.table) (hb : ∀ q n, n ∈ s'.shm.queue.blockedOn q → n ∈ s.shm.queue.blockedOn q)
    (ha : ∀ dq D, G.table.dataRefQ dq = some D → mustWait s dq D = true →
      (s'.shm.dataRefQ dq).isRefAcquired = false)
    (hp : s'.pc = Function.update s.pc t pc)
    (hn : ∀ n q i prms, pc.prms = some (n, prms) → WaitsFor G s n q i → StandsBefore s n i →
      pc.allPrms = none ∧ prms.length ≤ i) : RecordedWait G s' :=
  h.record hQ (fun q n hm => .inl (hb q n hm)) ha hp hn

theorem not_acquired_of_mustWait {s : Sys} {dq : Nat} {D : DataRefQDesc} (h : mustWait s dq D = true) :
    (s.shm.dataRefQ dq).isRefAcquired = false := (mustWait_iff.1 h).1

/-- A step that appends an id to the parameters, of one that no recorded node waits for. -/
theorem RecordedWait.append {G : Graph} {s s' : Sys} {t : Tid} {n : NodeId} {pipeup ref : Nat}
    {prms : List Nat} (h : RecordedWait G s) (hpc : s.pc t = .acquire n pipeup prms) (hQ : s'.shm.queue.Sound G.table)
    (hb : ∀ q n, n ∈ s'.shm.queue.blockedOn q → n ∈ s.shm.queue.blockedOn q)
    (ha : ∀ dq D, G.table.dataRefQ dq = some D → mustWait s dq D = true →
      (s'.shm.dataRefQ dq).isRefAcquired = false)
    (hp : s'.pc = Function.update s.pc t (.acquire n pipeup (prms ++ [ref])))
    (hw : pipeup = 0 → ∀ dq D, G.prmQueue n prms.length = some (dq, D) → mustWait s dq D = false) :
    RecordedWait G s' := by
  refine h.setPc hQ hb ha hp (fun n' q i prms' hn' hwf hs => ⟨rfl, ?_⟩)
  simp only [Pc.prms] at hn'
  split at hn' <;> cases hn'
  rename_i h0
  have hle := (hs t prms (by rw [hpc, Pc.prms, if_pos h0])).2
  obtain ⟨dq, D, hD, -, hw'⟩ := hwf
  have hne : prms.length ≠ i := by
    rintro rfl
    rw [hw h0 dq D hD] at hw'
    cases hw'
  rw [List.length_append, List.length_singleton]
  omega

theorem RecordedWait.kept {G : Graph} {s s' : Sys} {a : Act} (hG : G.Verified) (hQ : s.shm.queue.Sound G.table)
    (hE : ∀ dq D, G.table.dataRefQ dq = some D → (s.shm.queue D.acquireQObjDescId).isSome) (hO : OnTarget G s)
    (h : RecordedWait G s) (hr : roomForBlocked G s a = true) (hs : Step G s a s') : RecordedWait G s' := by
  have hQ' := sound_kept hG hQ hs
  have hsame : ∀ dq D, G.table.dataRefQ dq = some D → mustWait s dq D = true →
      (s.shm.dataRefQ dq).isRefAcquired = false := fun _ _ _ hw => not_acquired_of_mustWait hw
  cases hs with
  | enqueueFailed => exact h
  | enqueued hpc hP hx hE =>
    refine h.setPc hQ' (fun q n hn => ?_) hsame rfl (fun _ _ _ _ hn => by cases hn)
    simp only [Sys.setPc, Sys.log, (extractBlockedNodes_spec _ _ _).2.2.1, (enqueue_eq_some hE).2.1,
      Function.update_apply] at hn
    split at hn
    · cases hn
    · exact hn
  | @dequeued u g P ref Q hpc hP hd hx =>
    refine h.setPc (t := .user u) hQ' (fun q n hn => ?_) hsame (Function.update_eq_self _ _).symm
      (fun _ _ _ _ hn => by simp only [Sys.log, hpc] at hn; cases hn)
    obtain ⟨-, hd'⟩ | ⟨x, l, Q', -, hd', -, hb, -⟩ := dequeue_cases s.shm.queue P.doneQ <;> rw [hd] at hd' <;> cases hd'
    · exact absurd rfl hx
    · simp only [Sys.log] at hn
      rwa [hb] at hn
  | parked hpc hN hm =>
    refine h.setPc hQ' (fun q n hn => ?_) (fun P D hD hw => ?_) rfl (fun _ _ _ _ hn => by cases hn)
    · simpa only [Sys.setPc, Sys.log, (isPrevPipeNodeBlocked_queue hm).1] using hn
    · simp only [Sys.setPc, Sys.log, (isPrevPipeNodeBlocked_queue hm).2]
      exact hsame P D hD hw
  | proceeded hpc hN hm =>
    refine h.setPc hQ' (fun q n hn => ?_) (fun P D hD hw => ?_) rfl (fun n q i prms hn _ _ => ?_)
    · simpa only [Sys.setPc, Sys.log, (isPrevPipeNodeBlocked_queue hm).1] using hn
    · simp only [Sys.setPc, Sys.log, (isPrevPipeNodeBlocked_queue hm).2]
      exact hsame P D hD hw
    · simp only [Pc.prms] at hn
      split at hn <;> cases hn
      exact ⟨rfl, Nat.zero_le _⟩
  | acquireData ref hpc hN hP hc =>
    refine h.append hpc hQ' (fun _ _ hn => hn) hsame rfl (fun _ dq D hD => ?_)
    rw [prmQueue_eq_none hN hP hc] at hD
    cases hD
  | @acquirePrm t n N pipeup prms P D hpc hN hP hq hD =>
    have hprm := prmQueue_eq hN hP hq hD
    obtain ⟨ha, hs'⟩ | ⟨x, l, Q, ha, hx, -, hrefs, hb, hs'⟩ | ⟨Q, ha, he, hp, hQb, hs'⟩ | ⟨ha, he, hp, hs'⟩ :=
      afterAcquire_cases hG.numEntries_le hQ t n pipeup prms P.dataRefQId D rfl <;> rw [hs'] at hQ' ⊢
    · refine h.append hpc hQ' (fun _ _ hn => hn) hsame rfl (fun _ dq D' hD' => ?_)
      rw [hprm] at hD'
      cases hD'
      simp [mustWait, ha]
    · refine h.append hpc hQ' (fun q n hn => ?_) (fun dq D' hD' hw => ?_) rfl (fun _ dq D' hD' => ?_)
      · simpa only [Sys.setPc, Sys.log, hb] using hn
      · simp only [Sys.setPc, Sys.log]
        split
        · exact hsame dq D' hD' hw
        · rw [Function.update_of_ne]
          · exact hsame dq D' hD' hw
          · rintro rfl
            rw [hD] at hD'
            cases hD'
            rw [(mustWait_iff.1 hw).2] at hx
            cases hx
      · rw [hprm] at hD'
        cases hD'
        simp [mustWait, hx]
    · -- the node is recorded before the parameter it tried, and its thread leaves it
      refine h.record hQ' (fun q k hk => ?_) hsame rfl (fun _ _ _ _ hn => by cases hn)
      simp only [Sys.setPc, Sys.log, (addBlockedNode_eq_some hQb).2.2.1, Function.update_apply] at hk
      split at hk
      · rename_i hqD
        subst hqD
        rw [List.mem_append, List.mem_singleton] at hk
        refine hk.imp_right (fun hk => ⟨prms.length, ?_, fun t' prms' ht' => ?_⟩)
        · rw [hk]
          exact ⟨_, D, hprm, rfl, mustWait_iff.2 ⟨ha, he⟩⟩
        · simp only [Sys.setPc, Sys.log] at ht'
          by_cases ht : t' = t
          · rw [ht, Function.update_self] at ht'
            cases ht'
          · rw [Function.update_of_ne ht] at ht'
            have h1 := hO.pc (t := t) (by rw [hpc]; rfl) hN
            have h2 := hO.pc (t := t') (Pc.nodeId_of_prms ht') (hk ▸ hN)
            exact absurd (h2.trans h1.symm) ht
      · exact .inl hk
    · refine h.append hpc hQ' (fun _ _ hn => hn) hsame rfl (fun h0 _ _ _ => ?_)
      subst h0
      have := roomForBlocked_lt hr hpc hprm (mustWait_iff.2 ⟨ha, he⟩)
      have := (addBlockedNode_eq_none (hE _ D hD)).1 (hp rfl)
      omega
  | acquireInvalid hpc hN hP hall =>
    refine h.setPc hQ' (fun _ _ hn => hn) hsame rfl (fun _ _ _ _ hn => ?_)
    split at hn
    · cases hn
    · rename_i hne
      simp only [Pc.prms, if_neg hne] at hn
      cases hn
  | @acquireEnd t n N pipeup prms hpc hN hP hall =>
    refine h.setPc hQ' (fun _ _ hn => hn) hsame rfl (fun n' q i prms' hn hw hs => ?_)
    simp only [Pc.prms] at hn
    split at hn <;> cases hn
    rename_i h0
    have hle := (hs t prms (by rw [hpc, Pc.prms, if_pos h0])).2
    obtain ⟨dq, D, hD, -⟩ := hw
    obtain ⟨N', P', hN', hP', -⟩ := Graph.prmQueue_eq_some.1 hD
    rw [hN] at hN'
    cases hN'
    have := (List.getElem?_eq_some_iff.1 hP').1
    have := List.getElem?_eq_none_iff.1 hP
    omega
  | @releasePrm t n N prms prmId blocked P D R E hpc hN hP hq hD hR =>
    refine h.setPc hQ' (fun q n hn => ?_) (fun dq D' hD' hw => ?_) rfl
      (fun _ _ _ _ hn _ hs => (hs.not_past (t := t) (by rw [hpc]; exact hn)).elim)
    · rw [hR] at hn
      exact releaseParameter_subset q n hn
    · have := hsame dq D' hD' hw
      simp only [Sys.setPc, Sys.log, hR]
      by_cases hk : dq = P.dataRefQId
      · subst hk
        rw [releaseParameter_dataRefQ]
        split
        · simp [this]
        · split <;> simp [this]
      · rwa [releaseParameter_dataRefQ_ne hk]
  | kernel hpc hN hkl =>
    exact h.setPc hQ' (fun _ _ hn => hn) hsame rfl
      (fun _ _ _ _ hn _ hs => by cases hn; exact (hs.not_past (by rw [hpc]; rfl)).elim)
  | kernelSteady hpc hN hkl =>
    exact h.setPc hQ' (fun _ _ hn => hn) hsame rfl (fun _ _ _ _ hn _ _ => by cases hn; exact ⟨rfl, Nat.zero_le _⟩)
  | takeCallback pc hpc hq hc =>
    obtain ⟨rfl, -⟩ | ⟨rfl, -⟩ := hc <;>
      exact h.setPc hQ' (fun _ _ hn => hn) hsame rfl (fun _ _ _ _ hn => by cases hn)
  | completed hpc hl hc =>
    refine h.setPc hQ' (fun _ _ hn => hn) hsame rfl (fun _ _ _ _ hn => ?_)
    split at hn <;> cases hn
  | markComplete hpc hN | retrigger hpc hN | refConsumed _ _ hpc hN | releaseData hpc hN hP hc =>
    exact h.setPc hQ' (fun _ _ hn => hn) hsame rfl
      (fun _ _ _ _ hn _ hs => (hs.not_past (by rw [hpc]; exact hn)).elim)
  | _ => exact h.setPc hQ' (fun _ _ hn => hn) hsame rfl (fun _ _ _ _ hn => by cases hn)

/-- **What a state promises about the parameters**: a kernel outside the pipe-up runs with a reference in every parameter
bound to a data reference queue, and the kernel of a node recorded as blocked is not run. -/
structure RunsWithRefs (G : Graph) (s : Sys) : Prop where
  hasRefs : ∀ t n prms, s.pc t = .kernel n 0 prms → ∀ i dq D, G.prmQueue n i = some (dq, D) →
    ∃ ref, prms[i]? = some ref ∧ ref < G.table.numEntries
  notRun : ∀ q n, n ∈ s.shm.queue.blockedOn q → ∀ t prms, s.pc t ≠ .kernel n 0 prms

/-- **What a step promises**: trying a parameter that must wait leaves its node recorded as blocked on the queue, and its
thread with other work. -/
def RecordsWaiting (G : Graph) (s : Sys) (a : Act) (s' : Sys) : Prop :=
  ∀ t n prms dq D, a = .thread t → s.pc t = .acquire n 0 prms → G.prmQueue n prms.length = some (dq, D) →
    mustWait s dq D = true → n ∈ s'.shm.queue.blockedOn D.acquireQObjDescId ∧ s'.pc t = .idle

theorem step_acquirePrm {G : Graph} {s : Sys} {t : Tid} {n : NodeId} {pipeup : Nat} {prms : List Nat} {dq : Nat}
    {D : DataRefQDesc} (hpc : s.pc t = .acquire n pipeup prms) (hD : G.prmQueue n prms.length = some (dq, D)) :
    step G s (.thread t) = some (afterAcquire s t n pipeup prms dq D
      (ownTargetNodeDescAcquireParameter n dq D (decide (0 < pipeup)) s.shm)) := by
  obtain ⟨N, P, hN, hP, hq, rfl, hdq⟩ := Graph.prmQueue_eq_some.1 hD
  simp only [step, threadStep, hpc, Pc.nodeId, hN, nodeStep, acquireStep, hP, hq, if_true, hdq]
  rfl

theorem recordsWaiting_of_room {G : Graph} {s s' : Sys} {a : Act} (hG : G.Verified) (hQ : s.shm.queue.Sound G.table)
    (hE : ∀ dq D, G.table.dataRefQ dq = some D → (s.shm.queue D.acquireQObjDescId).isSome)
    (hr : roomForBlocked G s a = true) (hs : step G s a = some s') : RecordsWaiting G s a s' := by
  rintro t n prms dq D rfl hpc hD hw
  obtain ⟨ha, he⟩ := mustWait_iff.1 hw
  obtain ⟨N, P, -, -, -, -, hdq⟩ := Graph.prmQueue_eq_some.1 hD
  rw [step_acquirePrm hpc hD, Option.some.injEq] at hs
  obtain ⟨ha', -⟩ | ⟨x, l, Q, -, hx, -⟩ | ⟨Q, -, -, -, hQb, hs'⟩ | ⟨-, -, hp, -⟩ :=
    afterAcquire_cases hG.numEntries_le hQ t n 0 prms dq D hs.symm
  · rw [ha] at ha'; cases ha'
  · rw [he] at hx; cases hx
  · rw [hs']
    refine ⟨?_, by simp [Sys.setPc, Sys.log]⟩
    simp only [Sys.setPc, Sys.log, (addBlockedNode_eq_some hQb).2.2.1, Function.update_self]
    exact List.mem_append_right _ List.mem_cons_self
  · have := roomForBlocked_lt hr hpc hD hw
    have := (addBlockedNode_eq_none (hE _ D hdq)).1 (hp rfl)
    omega

/-- **Nodes wait for their references**: in every run whose steps have room for the node that must wait, every kernel
runs with all its references and every node that must wait is recorded. -/
theorem runsWithRefs_of_room {G : Graph} {s₀ s : Sys} (hG : G.Verified) (h0 : Starts G s₀)
    (h : Reach (step G) (fun s a => waitsRecorded G s a = true) s₀ s) :
    RunsWithRefs G s ∧ ∀ a s', waitsRecorded G s a = true → step G s a = some s' → RecordsWaiting G s a s' := by
  have hE : ∀ {s}, Reach (step G) (fun s a => waitsRecorded G s a = true) s₀ s → ∀ dq D, G.table.dataRefQ dq = some D →
      (s.shm.queue D.acquireQObjDescId).isSome := fun hr dq D hD => (acquireQ_isSome_of_reach hG h0 hr hD).1
  have hH : HoldsRefs G s := by
    refine h.inv_of (J := fun s => s.shm.queue.Sound G.table ∧ ∀ dq D, G.table.dataRefQ dq = some D →
      (s.shm.queue D.acquireQObjDescId).isSome) (fun s hr => ⟨sound_of_reach hG h0 hr, hE hr⟩) ?_ ?_
    · refine ⟨fun dq hdq => ?_, fun {t n prms N} hm => ?_, fun {t n prms N} hm => ?_⟩
      · rw [h0.isRefAcquired] at hdq; cases hdq
      · rw [h0.pc] at hm; cases hm
      · rw [h0.pc] at hm; cases hm
    · rintro s a s' ⟨hQ, hE⟩ hI hc hs
      rw [waitsRecorded, Bool.and_eq_true] at hc
      exact hI.kept hG hQ hE hc.1 hc.2 (step_cases hs)
  have hW : RecordedWait G s := by
    refine h.inv_of (J := fun s => s.shm.queue.Sound G.table ∧ (∀ dq D, G.table.dataRefQ dq = some D →
      (s.shm.queue D.acquireQObjDescId).isSome) ∧ OnTarget G s)
      (fun s hr => ⟨sound_of_reach hG h0 hr, hE hr, OnTarget.of_reach h0 hr⟩) ?_ ?_
    · intro q n hm
      rw [h0.blockedOn] at hm
      cases hm
    · rintro s a s' ⟨hQ, hE, hO⟩ hI hc hs
      rw [waitsRecorded, Bool.and_eq_true] at hc
      exact hI.kept hG hQ hE hO hc.1 (step_cases hs)
  refine ⟨⟨fun t n prms hpc i dq D hD => ?_, fun q n hm t prms hpc => ?_⟩, fun a s' hc hs => ?_⟩
  · obtain ⟨N, P, hN, hP, -⟩ := Graph.prmQueue_eq_some.1 hD
    have hl := hH.length (t := t) (by rw [hpc]; rfl) hN
    have hf := (hH.filled (t := t) (by rw [hpc]; rfl) hN).1
    have hi : i < prms.length := hl ▸ (List.getElem?_eq_some_iff.1 hP).1
    exact ⟨prms[i], List.getElem?_eq_getElem hi, prmsFilled_iff.1 hf i dq D _ hD (List.getElem?_eq_getElem hi)⟩
  · obtain ⟨i, -, hs⟩ := hW q n hm
    exact hs.not_past (t := t) (by rw [hpc]; rfl)
  · rw [waitsRecorded, Bool.and_eq_true] at hc
    exact recordsWaiting_of_room hG (sound_of_reach hG h0 h) (hE h) hc.1 hs

/-- Node 0 reads graph parameter 0 for nodes 1 to 8, which also read graph parameter 1, as does node 9. -/
def nineConsumers : Graph where
  table := {
    numEntries := 100
    dataRefQ := fun
      | 10 => some { acquireQObjDescId := 0, releaseQObjDescId := 1, numInNodes := 1, isEnableRefConsumedEvent := true }
      | 11 => some { acquireQObjDescId := 2, releaseQObjDescId := 3, numInNodes := 9, isEnableRefConsumedEvent := true }
      | 12 => some { acquireQObjDescId := 4, releaseQObjDescId := 4, numInNodes := 8 }
      | _ => none
    node := fun
      | ⟨0, 0⟩ => some {
          targetId := 2
          prms := [{ isDataRefQ := true, isInput := true, dataRefQId := 10 },
            { isDataRefQ := true, isInput := false, dataRefQId := 12 }]
          inNodeId := []
          outNodeId := (List.range 8).map (fun i => ⟨i + 1, 0⟩)
          prevPipeNodeId := none }
      | ⟨9, 0⟩ => some {
          targetId := 1
          prms := [{ isDataRefQ := true, isInput := true, dataRefQId := 11 }]
          inNodeId := []
          outNodeId := []
          prevPipeNodeId := none }
      | ⟨i, 0⟩ => if i < 10 then some {
          targetId := 1
          prms := [{ isDataRefQ := true, isInput := true, dataRefQId := 12 },
            { isDataRefQ := true, isInput := true, dataRefQId := 11 }]
          inNodeId := [⟨0, 0⟩]
          outNodeId := []
          prevPipeNodeId := none } else none
      | _ => none }
  hostOnly := fun _ => true
  hostTarget := 0
  numNodes := 10
  pipelineDepth := 1
  headNodes := [0, 9]
  numLeafNodes := 9
  isNormal := false
  parameters := [⟨0, 1, [50]⟩, ⟨2, 3, [51]⟩]

theorem nineConsumers_verified : nineConsumers.Verified := ⟨by decide, by decide⟩

/-- The ready and done queues of the two graph parameters, empty, and the queue between node 0 and its readers. -/
def nineConsumersStart : Sys := Sys.start nineConsumers (enqueueAll [(4, 52)] (createQueues 5))

theorem nineConsumers_starts : Starts nineConsumers nineConsumersStart := by
  refine starts_primed (by decide) (fun dq D h => ?_)
  simp only [nineConsumers] at h
  split at h <;> cases h <;> decide

/-- Graph parameter 0 is enqueued and the graph scheduled; node 9 is tried, node 0 executes, and its readers are tried. -/
def nineConsumersRun : List Act :=
  [.enqueueReadyRef 0 0 50, .thread (.user 0), .scheduleGraph 0 1] ++ List.replicate 17 (.thread (.user 0)) ++
    List.replicate 4 (.thread (.target 1)) ++ List.replicate 6 (.thread (.target 2)) ++ [.kernel (.target 2) [50, 52]] ++
    List.replicate 25 (.thread (.target 2)) ++ List.replicate 41 (.thread (.target 1))

/-- **The ninth node runs without its reference**: graph parameter 1 was never enqueued, eight of its nodes are recorded
as blocked on its queue, and the kernel of the ninth runs with an invalid id. -/
theorem nineConsumers_runs_without_ref : nineConsumers.Verified ∧
    Starts nineConsumers nineConsumersStart ∧
    ∃ s, Reach (step nineConsumers) (fun s a => anyStep s a = true) nineConsumersStart s ∧
      ¬ RunsWithRefs nineConsumers s := by
  refine ⟨nineConsumers_verified, nineConsumers_starts, ?_⟩
  obtain ⟨s, hr, hs⟩ := exists_reach_of_exec (l := nineConsumersRun) (f := fun s : Sys => s.pc (.target 1))
    (x := Pc.kernel ⟨8, 0⟩ 0 [52, objDescInvalid]) (by decide +kernel :
      (exec (step nineConsumers) anyStep nineConsumersStart nineConsumersRun).map
        (fun s => s.pc (.target 1)) = some (.kernel ⟨8, 0⟩ 0 [52, objDescInvalid]))
  refine ⟨s, hr, fun h => ?_⟩
  obtain ⟨ref, h1, h2⟩ := h.hasRefs (.target 1) ⟨8, 0⟩ [52, objDescInvalid] hs 1 11 _ rfl
  cases h1
  exact absurd h2 (by decide)

/-- Eight of the nine nodes are recorded as blocked, by steps that all have room for them. -/
theorem runsWithRefs_nineConsumers : ∃ s, Reach (step nineConsumers) (fun s a => waitsRecorded nineConsumers s a = true)
    nineConsumersStart s ∧ (s.shm.queue.blockedOn 2).length = 8 ∧ RunsWithRefs nineConsumers s := by
  obtain ⟨s, hr, hs⟩ := exists_reach_of_exec (l := nineConsumersRun.take 91)
    (f := fun s : Sys => (s.shm.queue.blockedOn 2).length) (x := 8) (by decide +kernel :
      (exec (step nineConsumers) (waitsRecorded nineConsumers) nineConsumersStart
        (nineConsumersRun.take 91)).map (fun s => (s.shm.queue.blockedOn 2).length) = some 8)
  exact ⟨s, hr, hs, (runsWithRefs_of_room nineConsumers_verified nineConsumers_starts hr).1⟩

end Tiovx
