import Tiovx.Target
/-!
# Steps — what one step can do

`Step` lists the steps of the system by the place the moving thread stands at, each with what it found and the state it
leaves; `step_cases` says that the list is complete.  The invariants of the runs are proved over this list.
-/
namespace Tiovx

/-- Whether the core a thread runs on was built with `HOST_ONLY`. -/
def Graph.isHostOnly (G : Graph) : Tid → Bool
  | .target id => G.hostOnly id
  | .user _ => false

/-- The state after a data reference queue parameter was tried, from the result of
`ownTargetNodeDescAcquireParameter`. -/
def afterAcquire (s : Sys) (t : Tid) (n : NodeId) (pipeup : Nat) (prms : List Nat) (dq : Nat) (D : DataRefQDesc)
    (R : Shm × Nat × Bool) : Sys :=
  if R.2.2 then ({ s with shm := R.1 }.log (.recorded D.acquireQObjDescId n)).setPc t .idle
  else if (s.shm.dataRefQ dq).isRefAcquired || R.2.1 == objDescInvalid then
    { s with shm := R.1 }.setPc t (.acquire n pipeup (prms ++ [R.2.1]))
  else ({ s with shm := R.1 }.log (.acquired dq R.2.1 (decide (0 < pipeup)))).setPc t
    (.acquire n pipeup (prms ++ [R.2.1]))

/-- **The steps of the system.** -/
inductive Step (G : Graph) (s : Sys) : Act → Sys → Prop
  | takeNode {id n l} (hpc : s.pc (.target id) = .idle) (hq : s.jobQ id = .node n :: l) :
      Step G s (.thread (.target id))
        ({ s with jobQ := Function.update s.jobQ id l }.setPc (.target id) (.nodeExecute n))
  | takeCallback {id n l} (pc : Pc) (hpc : s.pc (.target id) = .idle) (hq : s.jobQ id = .nodeUserCallback n :: l)
      (h : pc = .checkGraphCompleted n ∧ (∃ N, G.table.node n = some N ∧ N.outNodeId = []) ∨
        pc = .idle ∧ ∀ N, G.table.node n = some N → N.outNodeId ≠ []) :
      Step G s (.thread (.target id)) ({ s with jobQ := Function.update s.jobQ id l }.setPc (.target id) pc)
  | takeConsumed {id dq l} (hpc : s.pc (.target id) = .idle) (hq : s.jobQ id = .dataRefConsumed dq :: l) :
      Step G s (.thread (.target id)) ({ s with jobQ := Function.update s.jobQ id l }.setPc (.target id) .idle)
  | noNode {t n} (hpc : (s.pc t).nodeId = some n) (hN : G.table.node n = none) :
      Step G s (.thread t) (s.setPc t .idle)
  | isExecuted {t n N} (hpc : s.pc t = .nodeExecute n) (hN : G.table.node n = some N)
      (hx : (s.shm.node n).isExecuted = true) :
      Step G s (.thread t) (s.setPc t .idle)
  | notExecuted {t n N} (hpc : s.pc t = .nodeExecute n) (hN : G.table.node n = some N)
      (hx : (s.shm.node n).isExecuted = false) :
      Step G s (.thread t) (s.setPc t (.isPrevPipeNodeBlocked n))
  | parked {t n N m} (hpc : s.pc t = .isPrevPipeNodeBlocked n) (hN : G.table.node n = some N)
      (hm : ownTargetNodeDescIsPrevPipeNodeBlocked G.table n N s.shm = (m, true)) :
      Step G s (.thread t) (({ s with shm := m }.log (.parked n)).setPc t .idle)
  | proceeded {t n N m} (hpc : s.pc t = .isPrevPipeNodeBlocked n) (hN : G.table.node n = some N)
      (hm : ownTargetNodeDescIsPrevPipeNodeBlocked G.table n N s.shm = (m, false)) :
      Step G s (.thread t)
        (({ s with shm := m }.log (.proceeded n)).setPc t (.acquire n (pipeupBufs G.table n N m) []))
  | acquireData {t n N pipeup prms P} (ref : Nat) (hpc : s.pc t = .acquire n pipeup prms)
      (hN : G.table.node n = some N) (hP : N.prms[prms.length]? = some P)
      (h : P.isDataRefQ = false ∧ ref = P.dataId ∨
        P.isDataRefQ = true ∧ G.table.dataRefQ P.dataRefQId = none ∧ ref = objDescInvalid) :
      Step G s (.thread t) (s.setPc t (.acquire n pipeup (prms ++ [ref])))
  | acquirePrm {t n N pipeup prms P D} (hpc : s.pc t = .acquire n pipeup prms)
      (hN : G.table.node n = some N) (hP : N.prms[prms.length]? = some P) (hq : P.isDataRefQ = true)
      (hD : G.table.dataRefQ P.dataRefQId = some D) :
      Step G s (.thread t) (afterAcquire s t n pipeup prms P.dataRefQId D
        (ownTargetNodeDescAcquireParameter n P.dataRefQId D (decide (0 < pipeup)) s.shm))
  | acquireInvalid {t n N pipeup prms} (hpc : s.pc t = .acquire n pipeup prms) (hN : G.table.node n = some N)
      (hP : N.prms[prms.length]? = none)
      (hall : N.prms.all (fun P => P.isDataRefQ && (G.table.dataRefQ P.dataRefQId).isNone) = true) :
      Step G s (.thread t) ((s.setNode n { s.shm.node n with state := .blocked }).setPc t
        (if pipeup = 0 then .idle else .kernel n pipeup prms))
  | acquireEnd {t n N pipeup prms} (hpc : s.pc t = .acquire n pipeup prms) (hN : G.table.node n = some N)
      (hP : N.prms[prms.length]? = none)
      (hall : N.prms.all (fun P => P.isDataRefQ && (G.table.dataRefQ P.dataRefQId).isNone) = false) :
      Step G s (.thread t) (s.setPc t (.kernel n pipeup prms))
  | markComplete {t n N prms} (hpc : s.pc t = .markComplete n prms) (hN : G.table.node n = some N) :
      Step G s (.thread t) (({ s with shm := (ownTargetNodeDescNodeMarkComplete n s.shm).1 }.log
        (.markedComplete n)).setPc t (.release n prms 0 (s.shm.node n).blockedNodeId))
  | releaseData {t n N prms prmId blocked P} (hpc : s.pc t = .release n prms prmId blocked)
      (hN : G.table.node n = some N) (hP : N.prms[prmId]? = some P)
      (h : P.isDataRefQ = true → G.table.dataRefQ P.dataRefQId = none) :
      Step G s (.thread t) (s.setPc t (.release n prms (prmId + 1) blocked))
  | releasePrm {t n N prms prmId blocked P D R E} (hpc : s.pc t = .release n prms prmId blocked)
      (hN : G.table.node n = some N) (hP : N.prms[prmId]? = some P) (hq : P.isDataRefQ = true)
      (hD : G.table.dataRefQ P.dataRefQId = some D)
      (hR : R = ownTargetNodeDescReleaseParameter G.table (G.isHostOnly t) P.dataRefQId D
        (prms.getD prmId objDescInvalid) (P.isInput || P.isBidi) s.shm)
      (hE : E = exchangedRefs (s.shm.dataRefQ P.dataRefQId) (prms.getD prmId objDescInvalid) (P.isInput || P.isBidi) R) :
      Step G s (.thread t) ((({ s with shm := R.shm }.log (.released P.dataRefQId E)).log
        (.handedOut R.blockedNodes)).setPc t (.retrigger n prms prmId blocked R.isPrmReleased R.blockedNodes))
  | releaseEnd {t n N prms prmId blocked} (hpc : s.pc t = .release n prms prmId blocked)
      (hN : G.table.node n = some N) (hP : N.prms[prmId]? = none) :
      Step G s (.thread t) (s.setPc t (.sendComplete n blocked))
  | retrigger {t n N prms prmId blocked isPrmReleased k nodes}
      (hpc : s.pc t = .retrigger n prms prmId blocked isPrmReleased (k :: nodes)) (hN : G.table.node n = some N) :
      Step G s (.thread t) ({ s with jobQ := ownTargetTriggerNode G.table s.jobQ k }.setPc t
        (.retrigger n prms prmId blocked isPrmReleased nodes))
  | refConsumed {t n N prms prmId blocked isPrmReleased} (dq : Nat) (send : Bool)
      (hpc : s.pc t = .retrigger n prms prmId blocked isPrmReleased []) (hN : G.table.node n = some N) :
      Step G s (.thread t) ({ s with
        jobQ := if send then ownObjDescSend s.jobQ G.hostTarget (.dataRefConsumed dq) else s.jobQ }.setPc t
          (.release n prms (prmId + 1) blocked))
  | sendComplete {t n N blocked} (hpc : s.pc t = .sendComplete n blocked) (hN : G.table.node n = some N) :
      Step G s (.thread t) ({ s with
        jobQ := if N.isUserCallback || N.outNodeId.isEmpty then ownObjDescSend s.jobQ G.hostTarget (.nodeUserCallback n)
          else s.jobQ }.setPc t (.triggerNext n 0 blocked))
  | triggerNextEnd {t n N i blocked} (hpc : s.pc t = .triggerNext n i blocked) (hN : G.table.node n = some N)
      (hk : N.outNodeId[i]? = none) :
      Step G s (.thread t) (s.setPc t (.triggerBlocked blocked))
  | canNotExecute {t n N i blocked k} (hpc : s.pc t = .triggerNext n i blocked) (hN : G.table.node n = some N)
      (hk : N.outNodeId[i]? = some k)
      (h : ∀ K, G.table.node k = some K → ownTargetNodeDescCanNodeExecute G.table s.shm K = false) :
      Step G s (.thread t) (s.setPc t (.triggerNext n (i + 1) blocked))
  | canExecute {t n N i blocked k K} (hpc : s.pc t = .triggerNext n i blocked) (hN : G.table.node n = some N)
      (hk : N.outNodeId[i]? = some k) (hK : G.table.node k = some K)
      (h : ownTargetNodeDescCanNodeExecute G.table s.shm K = true) :
      Step G s (.thread t) (s.setPc t (.sendNext n i blocked))
  | sendNext {t n N i blocked k} (hpc : s.pc t = .sendNext n i blocked) (hN : G.table.node n = some N)
      (hk : N.outNodeId[i]? = some k) :
      Step G s (.thread t) ({ s with jobQ := ownTargetTriggerNode G.table s.jobQ k }.setPc t
        (.triggerNext n (i + 1) blocked))
  | triggerNone {t} (hpc : s.pc t = .triggerBlocked none) : Step G s (.thread t) (s.setPc t .idle)
  | triggerBlocked {t k} (hpc : s.pc t = .triggerBlocked (some k)) :
      Step G s (.thread t) ({ s with jobQ := ownTargetTriggerNode G.table s.jobQ k }.setPc t .idle)
  | notCompleted {t n} (hpc : s.pc t = .checkGraphCompleted n) (hl : s.lock = none)
      (hc : s.completeLeafNodes n.pipe + 1 ≠ G.numLeafNodes) :
      Step G s (.thread t) ({ s with
        completeLeafNodes := Function.update s.completeLeafNodes n.pipe (s.completeLeafNodes n.pipe + 1) }.setPc t .idle)
  | completed {t n} (hpc : s.pc t = .checkGraphCompleted n) (hl : s.lock = none)
      (hc : s.completeLeafNodes n.pipe + 1 = G.numLeafNodes) :
      Step G s (.thread t) ({ s with
        completeLeafNodes := Function.update s.completeLeafNodes n.pipe 0
        submittedCount := s.submittedCount - 1
        freeQ := s.freeQ ++ [n.pipe]
        schedulePendingCount := 0
        trace := .completed n.pipe :: s.trace }.setPc t
          (if s.schedulePendingCount = 0 then .idle else .scheduleGraph s.schedulePendingCount))
  | userIdle {t} (hpc : s.pc t = .userRetrigger []) : Step G s (.thread t) (s.setPc t .idle)
  | userRetrigger {t k nodes} (hpc : s.pc t = .userRetrigger (k :: nodes)) :
      Step G s (.thread t) ({ s with jobQ := ownTargetTriggerNode G.table s.jobQ k }.setPc t (.userRetrigger nodes))
  | lock {t k} (hpc : s.pc t = .scheduleGraph k) (hl : s.lock = none) :
      Step G s (.thread t) ({ s with lock := some t }.setPc t (.schedule (k + s.schedulePendingCount)))
  | scheduled {t left p l} (hpc : s.pc t = .schedule (left + 1)) (hf : s.freeQ = p :: l) :
      Step G s (.thread t) ({ s with freeQ := l, trace := .scheduled p :: s.trace }.setPc t (.clearState p left 0))
  | unlock {t left} (hpc : s.pc t = .schedule left) (hf : left = 0 ∨ s.freeQ = []) :
      Step G s (.thread t) (scheduleEnd G s t left)
  | clearState {t p left i} (hpc : s.pc t = .clearState p left i) (hi : i < G.numNodes) :
      Step G s (.thread t) ((s.setNode ⟨i, p⟩ { s.shm.node ⟨i, p⟩ with isExecuted := false }).setPc t
        (.clearState p left (i + 1)))
  | cleared {t p left i} (hpc : s.pc t = .clearState p left i) (hi : ¬ i < G.numNodes) :
      Step G s (.thread t) ({ s with submittedCount := s.submittedCount + 1 }.setPc t (.scheduleHeads p left 0))
  | headsEnd {t p left i} (hpc : s.pc t = .scheduleHeads p left i) (hh : G.headNodes[i]? = none) :
      Step G s (.thread t) (s.setPc t (.schedule left))
  | scheduleHead {t p left i h} (hpc : s.pc t = .scheduleHeads p left i) (hh : G.headNodes[i]? = some h) :
      Step G s (.thread t) ({ s with jobQ := ownTargetTriggerNode G.table s.jobQ ⟨h, p⟩ }.setPc t
        (.scheduleHeads p left (i + 1)))
  | kernel {t n N prms₀ prms} (hpc : s.pc t = .kernel n 0 prms₀) (hN : G.table.node n = some N)
      (hk : kernelLeaves N.prms prms₀ prms = true) :
      Step G s (.kernel t prms) ((s.log (.executed n false prms₀)).setPc t (.markComplete n prms))
  | kernelSteady {t n N prms₀ prms} (hpc : s.pc t = .kernel n 1 prms₀) (hN : G.table.node n = some N)
      (hk : kernelLeaves N.prms prms₀ prms = true) :
      Step G s (.kernel t prms) (({ s with shm := setSteady G.table n N s.shm }.log (.executed n true prms₀)).setPc t
        (.acquire n 0 []))
  | kernelPipeup {t n N p prms₀ prms} (hpc : s.pc t = .kernel n (p + 2) prms₀) (hN : G.table.node n = some N)
      (hk : kernelLeaves N.prms prms₀ prms = true) :
      Step G s (.kernel t prms) ((s.log (.executed n true prms₀)).setPc t (.acquire n (p + 1) []))
  | enqueueFailed {u g ref P} (hpc : s.pc (.user u) = .idle) (hP : G.parameters[g]? = some P) (hr : ref ∈ P.refsList)
      (hQ : ownObjDescQueueEnqueue s.shm.queue P.readyQ ref = none) :
      Step G s (.enqueueReadyRef u g ref) s
  | enqueued {u g ref P Q} (hpc : s.pc (.user u) = .idle) (hP : G.parameters[g]? = some P) (hr : ref ∈ P.refsList)
      (hQ : ownObjDescQueueEnqueue s.shm.queue P.readyQ ref = some Q) :
      Step G s (.enqueueReadyRef u g ref)
        ((({ s with shm := { s.shm with queue := (ownObjDescQueueExtractBlockedNodes Q P.readyQ []).1 } }.log
          (.enqueued P.readyQ ref)).log (.handedOut (ownObjDescQueueExtractBlockedNodes Q P.readyQ []).2)).setPc (.user u)
          (.userRetrigger (ownObjDescQueueExtractBlockedNodes Q P.readyQ []).2))
  | dequeued {u g P ref Q} (hpc : s.pc (.user u) = .idle) (hP : G.parameters[g]? = some P)
      (hQ : ownObjDescQueueDequeue s.shm.queue P.doneQ = (ref, Q)) (hr : ref ≠ objDescInvalid) :
      Step G s (.dequeueDoneRef u g) ({ s with shm := { s.shm with queue := Q } }.log (.dequeued P.doneQ ref))
  | userSchedule {u k} (hpc : s.pc (.user u) = .idle) :
      Step G s (.scheduleGraph u k) (s.setPc (.user u) (.scheduleGraph k))

theorem acquireStep_cases {G : Graph} {s : Sys} {t : Tid} {n : NodeId} {N : NodeDesc} {pipeup : Nat} {prms : List Nat}
    (hpc : s.pc t = .acquire n pipeup prms) (hN : G.table.node n = some N) :
    Step G s (.thread t) (acquireStep G.table s t n N pipeup prms) := by
  unfold acquireStep
  split
  · rename_i hP
    split
    · rename_i hall
      exact .acquireInvalid hpc hN hP hall
    · rename_i hall
      exact .acquireEnd hpc hN hP (by simpa using hall)
  · rename_i P hP
    split
    · rename_i hq
      split
      · rename_i hD
        exact .acquireData _ hpc hN hP (.inr ⟨hq, hD, rfl⟩)
      · rename_i D hD
        exact .acquirePrm hpc hN hP hq hD
    · rename_i hq
      exact .acquireData _ hpc hN hP (.inl ⟨by simpa using hq, rfl⟩)

theorem releaseStep_cases {G : Graph} {s : Sys} {t : Tid} {n : NodeId} {N : NodeDesc} {prms : List Nat} {prmId : Nat}
    {blocked : Option NodeId} (hpc : s.pc t = .release n prms prmId blocked) (hN : G.table.node n = some N) :
    Step G s (.thread t) (releaseStep G s t (G.isHostOnly t) n N prms prmId blocked) := by
  unfold releaseStep
  split
  · rename_i hP
    exact .releaseEnd hpc hN hP
  · rename_i P hP
    split
    · rename_i hq
      split
      · rename_i hD
        exact .releaseData hpc hN hP (fun _ => hD)
      · rename_i D hD
        exact .releasePrm hpc hN hP hq hD rfl rfl
    · rename_i hq
      exact .releaseData hpc hN hP (fun h => absurd h hq)

theorem triggerNextStep_cases {G : Graph} {s : Sys} {t : Tid} {n : NodeId} {N : NodeDesc} {i : Nat}
    {blocked : Option NodeId} (hpc : s.pc t = .triggerNext n i blocked) (hN : G.table.node n = some N) :
    Step G s (.thread t) (triggerNextStep G.table s t n N i blocked) := by
  unfold triggerNextStep
  split
  · rename_i hk
    exact .triggerNextEnd hpc hN hk
  · rename_i k hk
    split
    · rename_i hK
      exact .canNotExecute hpc hN hk (fun K h => by rw [hK] at h; cases h)
    · rename_i K hK
      split
      · rename_i h
        exact .canExecute hpc hN hk hK h
      · rename_i h
        exact .canNotExecute hpc hN hk (fun K' h' => by rw [hK] at h'; cases h'; simpa using h)

theorem nodeStep_cases {G : Graph} {s s' : Sys} {t : Tid} {n : NodeId} {N : NodeDesc}
    (hn : (s.pc t).nodeId = some n) (hN : G.table.node n = some N)
    (h : nodeStep G s t (G.isHostOnly t) n N (s.pc t) = some s') : Step G s (.thread t) s' := by
  cases hpc : s.pc t <;> rw [hpc] at hn h <;> simp only [Pc.nodeId, Option.some.injEq, reduceCtorEq] at hn <;>
    (try subst hn) <;> simp only [nodeStep, Option.some.injEq, reduceCtorEq] at h
  case nodeExecute =>
    subst h
    split
    · rename_i hx
      exact .isExecuted hpc hN hx
    · rename_i hx
      exact .notExecuted hpc hN (by simpa using hx)
  case isPrevPipeNodeBlocked =>
    split at h
    · rename_i m hm
      cases h
      exact .parked hpc hN hm
    · rename_i m hm
      cases h
      exact .proceeded hpc hN hm
  case acquire => subst h; exact acquireStep_cases hpc hN
  case markComplete => subst h; exact .markComplete hpc hN
  case release => subst h; exact releaseStep_cases hpc hN
  case retrigger nodes =>
    subst h
    cases nodes with
    | nil => exact .refConsumed _ _ hpc hN
    | cons k nodes => exact .retrigger hpc hN
  case sendComplete => subst h; exact .sendComplete hpc hN
  case triggerNext => subst h; exact triggerNextStep_cases hpc hN
  case sendNext =>
    split at h
    · cases h
    · rename_i k hk
      cases h
      exact .sendNext hpc hN hk

theorem takeJob_cases {G : Graph} {s s' : Sys} {id : Nat} (hpc : s.pc (.target id) = .idle)
    (h : takeJob G s id = some s') : Step G s (.thread (.target id)) s' := by
  unfold takeJob at h
  split at h
  · cases h
  · rename_i j l hq
    cases j with
    | node n => cases h; exact .takeNode hpc hq
    | dataRefConsumed dq => cases h; exact .takeConsumed hpc hq
    | nodeUserCallback n =>
      simp only at h
      split at h
      · rename_i hN
        cases h
        exact .takeCallback _ hpc hq (.inr ⟨rfl, fun N h => by rw [hN] at h; cases h⟩)
      · rename_i N hN
        cases h
        refine .takeCallback _ hpc hq ?_
        split
        · rename_i ho
          exact .inl ⟨rfl, N, hN, ho⟩
        · rename_i ho
          exact .inr ⟨rfl, fun N' h => by rw [hN] at h; cases h; exact ho⟩

theorem scheduleStep_cases {G : Graph} {s : Sys} {t : Tid} {left : Nat} (hpc : s.pc t = .schedule left) :
    Step G s (.thread t) (scheduleStep G s t left) := by
  unfold scheduleStep
  cases left with
  | zero => exact .unlock hpc (.inl rfl)
  | succ left =>
    simp only
    split
    · rename_i hf
      exact .unlock hpc (.inr hf)
    · rename_i p l hf
      exact .scheduled hpc hf

theorem threadStep_cases {G : Graph} {s s' : Sys} {t : Tid} (h : threadStep G s t = some s') :
    Step G s (.thread t) s' := by
  unfold threadStep at h
  split at h
  · rename_i hpc
    split at h
    · exact takeJob_cases hpc h
    · cases h
  · rename_i hpc
    cases h
    exact .triggerNone hpc
  · rename_i k hpc
    cases h
    exact .triggerBlocked hpc
  · rename_i n hpc
    split at h
    · rename_i hl
      cases h
      unfold checkGraphCompletedStep
      simp only
      split
      · rename_i hc
        exact .completed hpc hl hc
      · rename_i hc
        exact .notCompleted hpc hl hc
    · cases h
  · rename_i hpc
    cases h
    exact .userIdle hpc
  · rename_i k nodes hpc
    cases h
    exact .userRetrigger hpc
  · rename_i k hpc
    split at h
    · rename_i hl
      cases h
      exact .lock hpc hl
    · cases h
  · rename_i left hpc
    cases h
    exact scheduleStep_cases hpc
  · rename_i p left i hpc
    split at h
    · rename_i hi
      cases h
      exact .clearState hpc hi
    · rename_i hi
      cases h
      exact .cleared hpc hi
  · rename_i p left i hpc
    split at h
    · rename_i hh
      cases h
      exact .headsEnd hpc hh
    · rename_i k hh
      cases h
      exact .scheduleHead hpc hh
  · split at h
    · cases h
    · rename_i n hn
      split at h
      · rename_i hN
        cases h
        exact .noNode hn hN
      · rename_i N hN
        exact nodeStep_cases hn hN (by cases t <;> exact h)

theorem kernelStep_cases {G : Graph} {s s' : Sys} {t : Tid} {prms : List Nat} (h : kernelStep G s t prms = some s') :
    Step G s (.kernel t prms) s' := by
  unfold kernelStep at h
  split at h
  · rename_i n pipeup prms₀ hpc
    split at h
    · cases h
    rename_i N hN
    split at h
    · rename_i hk
      split at h
      · cases h; exact .kernel hpc hN hk
      · cases h; exact .kernelSteady hpc hN hk
      · cases h; exact .kernelPipeup hpc hN hk
    · cases h
  · cases h

/-- **Every step of the system is in the list.** -/
theorem step_cases {G : Graph} {s s' : Sys} {a : Act} (h : step G s a = some s') : Step G s a s' := by
  cases a with
  | thread t => exact threadStep_cases h
  | kernel t prms => exact kernelStep_cases h
  | enqueueReadyRef u g ref =>
    simp only [step] at h
    split at h
    · rename_i hpc
      obtain ⟨P, hP, h⟩ := Option.bind_eq_some_iff.1 h
      unfold enqueueReadyRef at h
      split at h
      · rename_i hr
        split at h
        · rename_i hQ
          cases h
          exact .enqueueFailed hpc hP hr hQ
        · rename_i Q hQ
          cases h
          exact .enqueued hpc hP hr hQ
      · cases h
    · cases h
  | dequeueDoneRef u g =>
    simp only [step] at h
    split at h
    · rename_i hpc
      obtain ⟨P, hP, h⟩ := Option.bind_eq_some_iff.1 h
      unfold dequeueDoneRef at h
      split at h
      rename_i ref Q hQ
      split at h
      · cases h
      · rename_i hr
        cases h
        exact .dequeued hpc hP hQ hr
    · cases h
  | scheduleGraph u k =>
    simp only [step] at h
    split at h
    · rename_i hpc
      cases h
      exact .userSchedule hpc
    · cases h

end Tiovx
