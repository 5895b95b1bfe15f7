import Tiovx.PipeupRefs
import Tiovx.ManualSchedule
/-!
# PipeupEnqueues — how many runs the auto mode requests (`vx_graph_pipeline.c`)

`ownGraphParameterEnqueueReadyRef` enqueues the references of a call one after the other.  As long as `pipeup_buf_idx` of the
parameter's node is above one, the end of a call counts it down; from then on a call at graph parameter 0 requests a run for
each of its references.  It is the calls that are counted, those at any parameter of the node, and not the references.
-/
namespace Tiovx

open StepSystem

/-- A user in `ownGraphParameterEnqueueReadyRef`, with the references still to enqueue. -/
structure EnqueueCall where
  graphParameterIndex : Nat
  refs : List Nat
  numEnqueue : Nat := 0

/-- A graph in the auto mode with the users that are in an enqueue; `pipeupBufIdx` is what the first descriptor of a node
has. -/
structure AutoSys where
  sys : Sys
  ledger : Ledger := {}
  pipeupBufIdx : Nat → Nat
  call : Nat → Option EnqueueCall := fun _ => none

/-- What moves: the targets and the users as before, and a user that enqueues a list of references, one after the other;
`canBeQueued` is what the marks of the next one say. -/
inductive AutoAct
  | step (a : Act)
  | enqueueReadyRefs (u graphParameterIndex : Nat) (refs : List Nat)
  | enqueueNext (u : Nat) (canBeQueued : Bool)

/-- The buffers of the pipe-up of a node's kernel. -/
def Graph.numPipeupBufs (G : Graph) (n : NodeId) : Nat :=
  ((G.table.node n).map fun N =>
    if N.isTargetKernel then (G.table.kernelInstance N.targetKernelIndex).getD 0 else N.numPipeupBufs).getD 0

/-- The graph as `vxVerifyGraph` leaves it, in state `s`; a kernel without a pipe-up has zero, which is at most one too. -/
def AutoSys.start (G : Graph) (s : Sys) : AutoSys := { sys := s, pipeupBufIdx := fun i => G.numPipeupBufs ⟨i, 0⟩ }

def AutoSys.run (G : Graph) (s : AutoSys) (a : Act) : Option AutoSys :=
  (ledgerStep G (s.sys, s.ledger) a).map fun R => { s with sys := R.1, ledger := R.2 }

/-- The next reference of a call is put into the ready queue. -/
def AutoSys.accepts (G : Graph) (s : AutoSys) (c : EnqueueCall) (ref : Nat) (canBeQueued : Bool) : Bool :=
  canBeQueued && (G.parameters[c.graphParameterIndex]?).any fun P =>
    decide (ref ∈ P.refsList) && (ownObjDescQueueEnqueue s.sys.shm.queue P.readyQ ref).isSome

/-- The end of a call that has enqueued all its references; the count is read and changed without a lock. -/
def AutoSys.enqueued (G : Graph) (prmNode : Nat → Nat) (s : AutoSys) (u : Nat) (c : EnqueueCall) : Option AutoSys :=
  let n := prmNode c.graphParameterIndex
  let t := { s with call := Function.update s.call u none }
  if c.numEnqueue = 0 then some t
  else if 1 < s.pipeupBufIdx n then some { t with pipeupBufIdx := Function.update s.pipeupBufIdx n (s.pipeupBufIdx n - 1) }
  else if c.graphParameterIndex = 0 then t.run G (.scheduleGraph u c.numEnqueue)
  else some t

/-- **One step**; `prmNode` is the node of each graph parameter.  A reference that is not accepted ends its call, with
`VX_FAILURE` and whatever was enqueued before it. -/
def autoStep (G : Graph) (prmNode : Nat → Nat) (s : AutoSys) : AutoAct → Option AutoSys
  | .step (.scheduleGraph _ _) | .step (.enqueueReadyRef _ _ _) => none
  | .step (.dequeueDoneRef u g) => if (s.call u).isNone then s.run G (.dequeueDoneRef u g) else none
  | .step a => s.run G a
  | .enqueueReadyRefs u g refs =>
    if s.sys.pc (.user u) = .idle ∧ (s.call u).isNone then
      some { s with call := Function.update s.call u (some { graphParameterIndex := g, refs := refs }) }
    else none
  | .enqueueNext u canBeQueued =>
    match s.call u with
    | none => none
    | some c =>
      if s.sys.pc (.user u) = .idle then
        match c.refs with
        | ref :: refs =>
          if s.accepts G c ref canBeQueued then
            (s.run G (.enqueueReadyRef u c.graphParameterIndex ref)).map fun t =>
              { t with call := Function.update s.call u (some { c with refs := refs, numEnqueue := c.numEnqueue + 1 }) }
          else some { s with call := Function.update s.call u none }
        | [] => s.enqueued G prmNode u c
      else none

/-- **What is promised of the pipe-up**: the kernels have their references, and when no user is in an enqueue, as many runs
are requested as references were enqueued at graph parameter 0 less those its node takes in the pipe-up. -/
structure PipeupPromise (G : Graph) (prmNode : Nat → Nat) (s : AutoSys) : Prop where
  refs : PipeupRight G s.sys
  requested : (∀ u, s.call u = none) → ∀ P, G.parameters[0]? = some P →
    s.ledger.requested = s.sys.enqueuedAt P.readyQ - (G.numPipeupBufs ⟨prmNode 0, 0⟩ - 1)

/-- **The condition**: the references of the pipe-up are there and apart; a call at graph parameter 0 fails only where it has
enqueued none; and a call that counts `pipeup_buf_idx` of the node of graph parameter 0 down is at that parameter and has
one reference. -/
def countsPipeup (G : Graph) (prmNode : Nat → Nat) (s : AutoSys) : AutoAct → Bool
  | .step a => pipeupSafe G s.sys a
  | .enqueueReadyRefs _ _ _ => true
  | .enqueueNext u canBeQueued =>
    match s.call u with
    | none => true
    | some c =>
      match c.refs with
      | ref :: _ =>
        if s.accepts G c ref canBeQueued then pipeupSafe G s.sys (.enqueueReadyRef u c.graphParameterIndex ref)
        else decide (c.graphParameterIndex = 0 → c.numEnqueue = 0)
      | [] => decide (prmNode c.graphParameterIndex = prmNode 0 → 1 < s.pipeupBufIdx (prmNode 0) → 0 < c.numEnqueue →
          c.graphParameterIndex = 0 ∧ c.numEnqueue = 1)

/-- What `vxVerifyGraph` promises of the ready queues: each graph parameter has one of its own. -/
def Graph.DistinctReadyQs (G : Graph) : Prop :=
  ∀ (g g' : Nat) (P P' : GraphParam), G.parameters[g]? = some P → G.parameters[g']? = some P' →
    P.readyQ = P'.readyQ → g = g'

/-- What a user in a call at graph parameter 0 has enqueued. -/
def EnqueueCall.inCall : Option EnqueueCall → Nat
  | some c => if c.graphParameterIndex = 0 then c.numEnqueue else 0
  | none => 0

section Step

variable {G : Graph} {s s' : Sys} {a : Act}

/-- Only an enqueue enqueues. -/
theorem enqueuedAt_of_step (ha : ∀ u g ref, a ≠ .enqueueReadyRef u g ref) (hs : Step G s a s') (q : Nat) :
    s'.enqueuedAt q = s.enqueuedAt q := by
  cases hs with
  | enqueueFailed => rfl
  | enqueued => exact (ha _ _ _ rfl).elim
  | acquirePrm =>
    unfold afterAcquire
    split
    · rfl
    · split <;> rfl
  | _ => rfl

/-- A reference that is accepted is one more. -/
theorem enqueuedAt_of_enqueue (hG : G.DistinctReadyQs) {u g ref : Nat} {P P' : GraphParam} (hP : G.parameters[g]? = some P)
    (hP' : G.parameters[0]? = some P') (hQ : (ownObjDescQueueEnqueue s.shm.queue P.readyQ ref).isSome)
    (hs : Step G s (.enqueueReadyRef u g ref) s') :
    s'.enqueuedAt P'.readyQ = s.enqueuedAt P'.readyQ + if g = 0 then 1 else 0 := by
  cases hs with
  | enqueueFailed hpc hP'' hr hE =>
    rw [hP] at hP''
    cases hP''
    rw [hE] at hQ
    cases hQ
  | enqueued hpc hP'' hr hE =>
    rw [hP] at hP''
    cases hP''
    by_cases hg : g = 0
    · subst hg
      rw [hP] at hP'
      cases hP'
      have hev : isEnqueuedAt P.readyQ (.enqueued P.readyQ ref) = true := decide_eq_true rfl
      exact List.countP_cons_of_pos hev
    · have hev : ¬ isEnqueuedAt P'.readyQ (.enqueued P.readyQ ref) = true :=
        fun h => hg (hG g 0 P P' hP hP' (of_decide_eq_true h))
      rw [if_neg hg]
      exact List.countP_cons_of_neg hev

end Step

section Runs

variable {G : Graph} {prmNode : Nat → Nat} {s s' : AutoSys} {s₀ : Sys}

/-- The accounts of graph parameter 0: what was enqueued there was counted down, or a run was requested for it, or it is with
a user that is in a call. -/
structure Enqueued (G : Graph) (prmNode : Nat → Nat) (P : GraphParam) (s : AutoSys) : Prop where
  idx_le : s.pipeupBufIdx (prmNode 0) ≤ G.numPipeupBufs ⟨prmNode 0, 0⟩
  idx_pos : 0 < G.numPipeupBufs ⟨prmNode 0, 0⟩ → 0 < s.pipeupBufIdx (prmNode 0)
  steady : 0 < s.ledger.requested → s.pipeupBufIdx (prmNode 0) ≤ 1
  counted : ∃ T : Finset Nat, (∀ u, u ∉ T → s.call u = none) ∧
    s.sys.enqueuedAt P.readyQ + s.pipeupBufIdx (prmNode 0) =
      G.numPipeupBufs ⟨prmNode 0, 0⟩ + s.ledger.requested + ∑ u ∈ T, EnqueueCall.inCall (s.call u)

/-- The accounts where no user is in a call. -/
theorem Enqueued.requested {P : GraphParam} (h : Enqueued G prmNode P s) (hc : ∀ u, s.call u = none) :
    s.ledger.requested = s.sys.enqueuedAt P.readyQ - (G.numPipeupBufs ⟨prmNode 0, 0⟩ - 1) := by
  obtain ⟨T, -, hsum⟩ := h.counted
  have hnone : ∑ u ∈ T, EnqueueCall.inCall (s.call u) = 0 := Finset.sum_eq_zero (fun u _ => by rw [hc u]; rfl)
  have hle := h.idx_le
  have hpos := h.idx_pos
  have hsteady := h.steady
  omega

/-- A user that goes on in its call, or begins or ends one. -/
theorem sum_inCall_update {call : Nat → Option EnqueueCall} {T : Finset Nat} (hT : ∀ u, u ∉ T → call u = none) (u : Nat)
    (x : Option EnqueueCall) : (∀ v, v ∉ insert u T → Function.update call u x v = none) ∧
      ∑ v ∈ insert u T, EnqueueCall.inCall (Function.update call u x v) + EnqueueCall.inCall (call u) =
        ∑ v ∈ T, EnqueueCall.inCall (call v) + EnqueueCall.inCall x := by
  refine ⟨fun v hv => ?_, ?_⟩
  · rw [Finset.mem_insert, not_or] at hv
    rw [Function.update_of_ne hv.1]
    exact hT v hv.2
  · have hsum := sum_update_add (insert u T) EnqueueCall.inCall call u x
    rw [if_pos (Finset.mem_insert_self u T), if_pos (Finset.mem_insert_self u T)] at hsum
    have hins : ∑ v ∈ insert u T, EnqueueCall.inCall (call v) = ∑ v ∈ T, EnqueueCall.inCall (call v) := by
      by_cases hu : u ∈ T
      · rw [Finset.insert_eq_of_mem hu]
      · rw [Finset.sum_insert hu, hT u hu]
        exact Nat.zero_add _
    rw [hsum, hins]

/-- What a step of the targets and the users leaves of the accounts. -/
theorem AutoSys.run_cases {a : Act} (hs : s.run G a = some s') :
    Step G s.sys a s'.sys ∧ s'.ledger = s.ledger.after G s.sys a ∧ s'.pipeupBufIdx = s.pipeupBufIdx ∧ s'.call = s.call := by
  obtain ⟨⟨t, L⟩, hstep, rfl⟩ := Option.map_eq_some_iff.1 hs
  obtain ⟨t, hst, htl⟩ := Option.map_eq_some_iff.1 hstep
  cases htl
  exact ⟨step_cases hst, rfl, rfl, rfl⟩

/-- A step that neither enqueues nor requests. -/
theorem Enqueued.rest {P : GraphParam} (h : Enqueued G prmNode P s)
    (hi : s'.pipeupBufIdx (prmNode 0) = s.pipeupBufIdx (prmNode 0)) (hr : s'.ledger.requested = s.ledger.requested)
    (he : s'.sys.enqueuedAt P.readyQ = s.sys.enqueuedAt P.readyQ) (hc : s'.call = s.call) : Enqueued G prmNode P s' := by
  refine ⟨?_, ?_, ?_, ?_⟩
  · rw [hi]
    exact h.idx_le
  · rw [hi]
    exact h.idx_pos
  · rw [hi, hr]
    exact h.steady
  · rw [hi, hr, he, hc]
    exact h.counted

/-- A user that begins a call, or ends one that has enqueued nothing at graph parameter 0. -/
theorem Enqueued.call {P : GraphParam} (h : Enqueued G prmNode P s) {u : Nat} {x : Option EnqueueCall}
    (hx : EnqueueCall.inCall x = EnqueueCall.inCall (s.call u)) :
    Enqueued G prmNode P { s with call := Function.update s.call u x } := by
  obtain ⟨T, hT, hsum⟩ := h.counted
  obtain ⟨hT', hupd⟩ := sum_inCall_update hT u x
  refine ⟨h.idx_le, h.idx_pos, h.steady, insert u T, hT', ?_⟩
  dsimp only
  omega

/-- **The end of a call**: its references are counted down, or runs are requested for them. -/
theorem Enqueued.ended {P : GraphParam} (h : Enqueued G prmNode P s) {u : Nat} {c : EnqueueCall} (hu : s.call u = some c)
    (hc : prmNode c.graphParameterIndex = prmNode 0 → 1 < s.pipeupBufIdx (prmNode 0) → 0 < c.numEnqueue →
      c.graphParameterIndex = 0 ∧ c.numEnqueue = 1)
    (hs : s.enqueued G prmNode u c = some s') : Enqueued G prmNode P s' := by
  simp only [AutoSys.enqueued] at hs
  split at hs
  · rename_i h0
    cases hs
    refine h.call ?_
    rw [hu, EnqueueCall.inCall, EnqueueCall.inCall, h0]
    exact (ite_self 0).symm
  · rename_i h0
    have hpos := Nat.pos_of_ne_zero h0
    split at hs
    · rename_i hidx
      cases hs
      by_cases hn : prmNode c.graphParameterIndex = prmNode 0
      · rw [hn] at hidx ⊢
        obtain ⟨hg, hone⟩ := hc hn hidx hpos
        obtain ⟨T, hT, hsum⟩ := h.counted
        obtain ⟨hT', hupd⟩ := sum_inCall_update hT u none
        have hcall : EnqueueCall.inCall (s.call u) = 1 := by rw [hu, EnqueueCall.inCall, if_pos hg, hone]
        have hle := h.idx_le
        have hsteady := h.steady
        have hnone : EnqueueCall.inCall none = 0 := rfl
        refine ⟨?_, fun _ => ?_, fun hreq => ?_, insert u T, hT', ?_⟩ <;> dsimp only <;> rw [Function.update_self]
        · omega
        · omega
        · exact Nat.le_trans (Nat.sub_le _ _) (hsteady hreq)
        · omega
      · have hcall : EnqueueCall.inCall none = EnqueueCall.inCall (s.call u) := by
          rw [hu, EnqueueCall.inCall, EnqueueCall.inCall, if_neg (fun hg => hn (congrArg prmNode hg))]
        exact (h.call hcall).rest (Function.update_of_ne (fun h0 => hn h0.symm) _ _) rfl rfl rfl
    · rename_i hidx
      split at hs
      · rename_i hg
        obtain ⟨hstep, hL, hi, hcl⟩ := AutoSys.run_cases hs
        obtain ⟨T, hT, hsum⟩ := h.counted
        obtain ⟨hT', hupd⟩ := sum_inCall_update hT u none
        have hcall : EnqueueCall.inCall (s.call u) = c.numEnqueue := by rw [hu, EnqueueCall.inCall, if_pos hg]
        have hnone : EnqueueCall.inCall none = 0 := rfl
        have hreq : s'.ledger.requested = s.ledger.requested + c.numEnqueue := by rw [hL]; rfl
        have henq : s'.sys.enqueuedAt P.readyQ = s.sys.enqueuedAt P.readyQ :=
          enqueuedAt_of_step (fun _ _ _ => by rintro ⟨⟩) hstep P.readyQ
        rw [hg] at hidx
        refine ⟨?_, ?_, fun _ => ?_, insert u T, ?_, ?_⟩
        · rw [hi]
          exact h.idx_le
        · rw [hi]
          exact h.idx_pos
        · rw [hi]
          exact Nat.le_of_not_lt hidx
        · rw [hcl]
          exact hT'
        · rw [hi, hcl, hreq, henq]
          dsimp only
          omega
      · rename_i hg
        cases hs
        refine h.call ?_
        rw [hu, EnqueueCall.inCall, EnqueueCall.inCall, if_neg hg]

/-- **A reference that is accepted** is with its user until the call ends. -/
theorem Enqueued.enqueue (hG : G.DistinctReadyQs) {P P' : GraphParam} (hP : G.parameters[0]? = some P)
    (h : Enqueued G prmNode P s) {u ref : Nat} {refs : List Nat} {c : EnqueueCall} (hu : s.call u = some c)
    (hP' : G.parameters[c.graphParameterIndex]? = some P')
    (hQ : (ownObjDescQueueEnqueue s.sys.shm.queue P'.readyQ ref).isSome)
    (hs : s.run G (.enqueueReadyRef u c.graphParameterIndex ref) = some s') :
    Enqueued G prmNode P { s' with
      call := Function.update s.call u (some { c with refs := refs, numEnqueue := c.numEnqueue + 1 }) } := by
  obtain ⟨hstep, hL, hi, -⟩ := AutoSys.run_cases hs
  obtain ⟨T, hT, hsum⟩ := h.counted
  obtain ⟨hT', hupd⟩ := sum_inCall_update hT u (some { c with refs := refs, numEnqueue := c.numEnqueue + 1 })
  have henq := enqueuedAt_of_enqueue hG hP' hP hQ hstep
  have hreq : s'.ledger.requested = s.ledger.requested := by rw [hL]; rfl
  have hcall : EnqueueCall.inCall (some { c with refs := refs, numEnqueue := c.numEnqueue + 1 }) =
      EnqueueCall.inCall (s.call u) + if c.graphParameterIndex = 0 then 1 else 0 := by
    rw [hu]
    simp only [EnqueueCall.inCall]
    split <;> rfl
  refine ⟨?_, ?_, ?_, insert u T, ?_, ?_⟩ <;> dsimp only
  · rw [hi]
    exact h.idx_le
  · rw [hi]
    exact h.idx_pos
  · rw [hi, hreq]
    exact h.steady
  · exact hT'
  · rw [hi, hreq, henq]
    omega

/-- A call that ends changes nothing in the targets' memory, or requests runs. -/
theorem AutoSys.enqueued_cases {u : Nat} {c : EnqueueCall} (hs : s.enqueued G prmNode u c = some s') :
    s'.call = Function.update s.call u none ∧
      (s'.sys = s.sys ∨ Step G s.sys (.scheduleGraph u c.numEnqueue) s'.sys) := by
  simp only [AutoSys.enqueued] at hs
  split at hs
  · cases hs
    exact ⟨rfl, .inl rfl⟩
  · split at hs
    · cases hs
      exact ⟨rfl, .inl rfl⟩
    · split at hs
      · obtain ⟨hstep, -, -, hcl⟩ := AutoSys.run_cases hs
        exact ⟨hcl, .inr hstep⟩
      · cases hs
        exact ⟨rfl, .inl rfl⟩

/-- A reference is accepted at a graph parameter with room in its ready queue. -/
theorem accepts_room {c : EnqueueCall} {ref : Nat} {canBeQueued : Bool} (h : s.accepts G c ref canBeQueued = true) :
    ∃ P, G.parameters[c.graphParameterIndex]? = some P ∧
      (ownObjDescQueueEnqueue s.sys.shm.queue P.readyQ ref).isSome := by
  simp only [AutoSys.accepts, Bool.and_eq_true, Option.any_eq_true] at h
  obtain ⟨-, P, hP, -, hQ⟩ := h
  exact ⟨P, hP, hQ⟩

/-- The invariant: the references in the pipe-up and the accounts of graph parameter 0. -/
structure AutoInv (G : Graph) (prmNode : Nat → Nat) (s : AutoSys) : Prop where
  pipeup : PipeupInv G s.sys
  enqueued : ∀ P, G.parameters[0]? = some P → Enqueued G prmNode P s

theorem AutoInv.promise (h : AutoInv G prmNode s) : PipeupPromise G prmNode s :=
  ⟨h.pipeup.right, fun hc P hP => (h.enqueued P hP).requested hc⟩

/-- A step of the targets, or of a user that is in no call. -/
theorem AutoInv.run (hG : G.Verified) (hW : G.Wired) (h : AutoInv G prmNode s) {a : Act} (hc : pipeupSafe G s.sys a = true)
    (he : ∀ u g ref, a ≠ .enqueueReadyRef u g ref) (hr : ∀ u k, a ≠ .scheduleGraph u k) (hs : s.run G a = some s') :
    AutoInv G prmNode s' := by
  obtain ⟨hstep, hL, hi, hcl⟩ := AutoSys.run_cases hs
  refine ⟨h.pipeup.kept hG hW hc hstep, fun P hP => (h.enqueued P hP).rest (by rw [hi]) ?_ ?_ hcl⟩
  · rw [hL, ledger_requested hr]
  · exact enqueuedAt_of_step he hstep P.readyQ

theorem autoInv_of_step (hG : G.Verified) (hW : G.Wired) (hD : G.DistinctReadyQs) (h : AutoInv G prmNode s) {a : AutoAct}
    (hc : countsPipeup G prmNode s a = true) (hs : autoStep G prmNode s a = some s') : AutoInv G prmNode s' := by
  cases a with
  | step a =>
    cases a with
    | scheduleGraph u k | enqueueReadyRef u g ref => cases hs
    | thread t | kernel t prms => exact h.run hG hW hc (by rintro _ _ _ ⟨⟩) (by rintro _ _ ⟨⟩) hs
    | dequeueDoneRef u g =>
      simp only [autoStep] at hs
      split at hs
      · exact h.run hG hW hc (by rintro _ _ _ ⟨⟩) (by rintro _ _ ⟨⟩) hs
      · cases hs
  | enqueueReadyRefs u g refs =>
    simp only [autoStep] at hs
    split at hs
    · rename_i hu
      cases hs
      refine ⟨h.pipeup, fun P hP => (h.enqueued P hP).call ?_⟩
      rw [Option.isNone_iff_eq_none.1 hu.2]
      exact ite_self 0
    · cases hs
  | enqueueNext u canBeQueued =>
    cases hu : s.call u with
    | none =>
      simp only [autoStep, hu] at hs
      cases hs
    | some c =>
      simp only [autoStep, hu] at hs
      split at hs
      · rename_i hpc
        obtain ⟨g, refs, k⟩ := c
        cases refs with
        | nil =>
          simp only [countsPipeup, hu, decide_eq_true_eq] at hc
          refine ⟨?_, fun P hP => (h.enqueued P hP).ended hu hc hs⟩
          obtain ⟨-, hsys | hrun⟩ := AutoSys.enqueued_cases hs
          · rw [hsys]
            exact h.pipeup
          · exact h.pipeup.kept hG hW rfl hrun
        | cons ref refs =>
          simp only [countsPipeup, hu] at hc
          dsimp only at hs
          split at hs
          · rename_i hacc
            rw [if_pos hacc] at hc
            obtain ⟨t, hrun, rfl⟩ := Option.map_eq_some_iff.1 hs
            obtain ⟨P', hP', hQ⟩ := accepts_room hacc
            refine ⟨h.pipeup.kept hG hW hc (AutoSys.run_cases hrun).1, fun P hP => ?_⟩
            exact (h.enqueued P hP).enqueue hD hP hu hP' hQ hrun
          · rename_i hacc
            rw [if_neg hacc] at hc
            cases hs
            refine ⟨h.pipeup, fun P hP => (h.enqueued P hP).call ?_⟩
            rw [hu]
            simp only [EnqueueCall.inCall]
            split
            · exact (of_decide_eq_true hc ‹_›).symm
            · rfl
      · cases hs

/-- **The pipe-up has its references and takes no run**, in every run of the auto mode whose steps all meet the condition. -/
theorem pipeupPromise_of_reach (hG : G.Verified) (hW : G.Wired) (hD : G.DistinctReadyQs) (h0 : Starts G s₀)
    (hq : ∀ n i dq D, G.prmQueue n i = some (dq, D) → (s₀.shm.queue.refs D.acquireQObjDescId).Nodup)
    (h : Reach (autoStep G prmNode) (fun s a => countsPipeup G prmNode s a = true) (.start G s₀) s) :
    PipeupPromise G prmNode s := by
  refine (h.inv (I := AutoInv G prmNode) ⟨pipeupInv_start h0 hq, fun P _ => ?_⟩
    (fun _ _ _ hi hc hs => autoInv_of_step hG hW hD hi hc hs)).promise
  refine ⟨Nat.le_refl _, id, fun hr => (Nat.lt_irrefl 0 hr).elim, ∅, fun _ _ => rfl, ?_⟩
  simp only [AutoSys.start, Sys.enqueuedAt, h0.trace, List.countP_nil, Finset.sum_empty]
  exact Nat.zero_add _

end Runs

section Source

/-- The user that acts in a call. -/
def AutoAct.isOf (v : Nat) : AutoAct → Bool
  | .step _ => true
  | .enqueueReadyRefs u _ _ | .enqueueNext u _ => decide (u = v)

/-- A user is in no call where only another one makes them. -/
theorem call_of_step_ne {G : Graph} {prmNode : Nat → Nat} {s s' : AutoSys} {a : AutoAct} {u v : Nat} (hu : v ≠ u)
    (ha : a.isOf u = true) (hs : autoStep G prmNode s a = some s') : s'.call v = s.call v := by
  cases a with
  | step a =>
    cases a with
    | scheduleGraph w k | enqueueReadyRef w g ref => cases hs
    | thread t | kernel t prms => rw [(AutoSys.run_cases hs).2.2.2]
    | dequeueDoneRef w g =>
      simp only [autoStep] at hs
      split at hs
      · rw [(AutoSys.run_cases hs).2.2.2]
      · cases hs
  | enqueueReadyRefs w g refs =>
    have hw : w = u := of_decide_eq_true ha
    subst hw
    simp only [autoStep] at hs
    split at hs
    · cases hs
      exact Function.update_of_ne hu _ _
    · cases hs
  | enqueueNext w canBeQueued =>
    have hw : w = u := of_decide_eq_true ha
    subst hw
    simp only [autoStep] at hs
    split at hs
    · cases hs
    · split at hs
      · split at hs
        · split at hs
          · obtain ⟨t, -, rfl⟩ := Option.map_eq_some_iff.1 hs
            exact Function.update_of_ne hu _ _
          · cases hs
            exact Function.update_of_ne hu _ _
        · rw [(AutoSys.enqueued_cases hs).1]
          exact Function.update_of_ne hu _ _
      · cases hs

def autoThreads (t : Tid) (n : Nat) : List AutoAct := List.replicate n (.step (.thread t))

/-- A user enqueues these references at a graph parameter, in one call that no mark refuses. -/
def enqueueBatch (g : Nat) (refs : List Nat) : List AutoAct :=
  .enqueueReadyRefs 0 g refs :: refs.flatMap (fun _ => [.enqueueNext 0 true, .step (.thread (.user 0))]) ++
    [.enqueueNext 0 true]

/-- A node whose kernel takes two references at two graph parameters, one of each in its pipe-up. -/
def pipeupTwoPrms : Graph :=
  { pipeupSource with
    table := { pipeupSource.table with
      dataRefQ := fun
        | 10 => some { acquireQObjDescId := 0, releaseQObjDescId := 1, numInNodes := 0 }
        | 11 => some { acquireQObjDescId := 2, releaseQObjDescId := 3, numInNodes := 0 }
        | _ => none
      node := fun
        | ⟨0, 0⟩ => some {
            targetId := 1
            prms := [{ isDataRefQ := true, isInput := false, dataRefQId := 10 },
              { isDataRefQ := true, isInput := false, dataRefQId := 11 }]
            inNodeId := []
            outNodeId := []
            prevPipeNodeId := none }
        | _ => none }
    parameters := [⟨0, 1, [50, 51]⟩, ⟨2, 3, [60, 61]⟩] }

def pipeupTwoPrmsStart : Sys :=
  let s := Sys.start pipeupTwoPrms (enqueueAll [] (createQueues 4))
  { s with shm := { s.shm with kernelInstance := fun _ => .pipeup } }

theorem pipeupTwoPrms_verified : pipeupTwoPrms.Verified := ⟨by decide, by decide⟩

theorem pipeupTwoPrms_starts : Starts pipeupTwoPrms pipeupTwoPrmsStart := by
  have h : Starts pipeupTwoPrms (Sys.start pipeupTwoPrms (enqueueAll [] (createQueues 4))) := by
    refine starts_primed (fun x hx => by cases hx) (fun dq D h => ?_)
    simp only [pipeupTwoPrms] at h
    split at h <;> cases h <;> decide
  exact { h with }

theorem pipeupSource_node {n : NodeId} {N : NodeDesc} (h : pipeupSource.table.node n = some N) :
    n = ⟨0, 0⟩ ∧ N.inNodeId = [] ∧ N.outNodeId = [] := by
  simp only [pipeupSource] at h
  split at h <;> cases h
  exact ⟨rfl, rfl, rfl⟩

theorem pipeupSource_wired : pipeupSource.Wired where
  node_isSome n := by
    constructor
    · intro h
      obtain ⟨N, hN⟩ := Option.isSome_iff_exists.1 h
      rw [(pipeupSource_node hN).1]
      decide
    · obtain ⟨i, p⟩ := n
      rintro ⟨hi, hp⟩
      obtain rfl : i = 0 := Nat.lt_one_iff.1 hi
      obtain rfl : p = 0 := Nat.lt_one_iff.1 hp
      rfl
  inNode n N k hN hk := by
    rw [(pipeupSource_node hN).2.1] at hk
    cases hk
  outNode n N k hN hk := by
    rw [(pipeupSource_node hN).2.2] at hk
    cases hk
  headNode h _ p N hN := (pipeupSource_node hN).2.1
  numLeafNodes p hp := by
    obtain rfl : p = 0 := Nat.lt_one_iff.1 hp
    decide
  acyclic := ⟨id, fun n N k hN hk => by
    rw [(pipeupSource_node hN).2.1] at hk
    cases hk⟩

theorem pipeupSource_distinctReadyQs : pipeupSource.DistinctReadyQs := by
  intro g g' P P' hP hP' _
  have hlt := (List.getElem?_eq_some_iff.1 hP).1
  have hlt' := (List.getElem?_eq_some_iff.1 hP').1
  change g < 1 at hlt
  change g' < 1 at hlt'
  omega

/-- **A call counts once, and other parameters are not waited for**: two references in one call, of a node with two buffers,
request no run; and a run that graph parameter 0 requests takes an invalid reference from the empty queue of another. -/
theorem pipeup_batch_and_empty_queue :
    (pipeupSource.Verified ∧ pipeupSource.Wired ∧ Starts pipeupSource pipeupSourceStart ∧
      ∃ s, Reach (autoStep pipeupSource (fun _ => 0)) (fun _ _ => True) (.start pipeupSource pipeupSourceStart) s ∧
        s.ledger.requested = 0 ∧ s.sys.enqueuedAt 0 = 2 ∧ ¬ PipeupPromise pipeupSource (fun _ => 0) s) ∧
    (pipeupTwoPrms.Verified ∧ Starts pipeupTwoPrms pipeupTwoPrmsStart ∧
      ∃ s, Reach (autoStep pipeupTwoPrms (fun _ => 0)) (fun _ _ => True) (.start pipeupTwoPrms pipeupTwoPrmsStart) s ∧
        .executed ⟨0, 0⟩ true [50, objDescInvalid] ∈ s.sys.trace ∧ ¬ PipeupPromise pipeupTwoPrms (fun _ => 0) s) := by
  refine ⟨⟨pipeupSource_verified, pipeupSource_wired, pipeupSource_starts, ?_⟩, pipeupTwoPrms_verified,
    pipeupTwoPrms_starts, ?_⟩
  · have hexec : (exec (autoStep pipeupSource (fun _ => 0)) (fun _ a => a.isOf 0) (.start pipeupSource pipeupSourceStart)
        (enqueueBatch 0 [50, 51])).map
        (fun s => (s.ledger.requested, s.sys.enqueuedAt 0, (s.call 0).isNone)) = some (0, 2, true) := by decide +kernel
    obtain ⟨s, hr, hs⟩ := exists_reach_of_exec hexec
    simp only [Prod.mk.injEq] at hs
    obtain ⟨hreq, henq, hcall⟩ := hs
    have hother : ∀ u, u ≠ 0 → s.call u = none := hr.inv (I := fun s => ∀ u, u ≠ 0 → s.call u = none) (fun _ _ => rfl)
      (fun s a t hi ha hst u hu => (call_of_step_ne hu ha hst).trans (hi u hu))
    refine ⟨s, hr.mono (fun _ _ _ => trivial), hreq, henq, fun h => ?_⟩
    have hruns := h.requested (fun u => ?_) ⟨0, 1, [50, 51]⟩ rfl
    · dsimp only at hruns
      rw [hreq, henq] at hruns
      exact absurd hruns (by decide)
    · by_cases hu : u = 0
      · rw [hu]
        exact Option.isNone_iff_eq_none.1 hcall
      · exact hother u hu
  · have hexec : (exec (autoStep pipeupTwoPrms (fun _ => 0)) (fun _ a => a.isOf 0) (.start pipeupTwoPrms pipeupTwoPrmsStart)
        (enqueueBatch 0 [50] ++ enqueueBatch 0 [51] ++ autoThreads (.user 0) 7 ++ autoThreads (.target 1) 6 ++
          [.step (.kernel (.target 1) [50, objDescInvalid])])).map
        (fun s => decide (.executed ⟨0, 0⟩ true [50, objDescInvalid] ∈ s.sys.trace)) = some true := by decide +kernel
    obtain ⟨s, hr, hs⟩ := exists_reach_of_exec hexec
    have hexecuted := of_decide_eq_true hs
    refine ⟨s, hr.mono (fun _ _ _ => trivial), hexecuted, fun h => ?_⟩
    obtain ⟨ref, hget, hlt⟩ := h.refs.valid _ _ _ hexecuted 1 11
      { acquireQObjDescId := 2, releaseQObjDescId := 3, numInNodes := 0 } rfl
    cases hget
    exact absurd hlt (by decide)

/-- Two references are enqueued by a call each; the node takes the first in its pipe-up and the second in its run. -/
theorem pipeupPromise_singly : ∃ s, Reach (autoStep pipeupSource (fun _ => 0))
    (fun s a => countsPipeup pipeupSource (fun _ => 0) s a = true) (.start pipeupSource pipeupSourceStart) s ∧
    s.ledger.requested = 1 ∧ .executed ⟨0, 0⟩ true [50] ∈ s.sys.trace ∧ .executed ⟨0, 0⟩ false [51] ∈ s.sys.trace ∧
    PipeupPromise pipeupSource (fun _ => 0) s := by
  have hexec : (exec (autoStep pipeupSource (fun _ => 0)) (countsPipeup pipeupSource (fun _ => 0))
      (.start pipeupSource pipeupSourceStart) (enqueueBatch 0 [50] ++ enqueueBatch 0 [51] ++ autoThreads (.user 0) 7 ++
        autoThreads (.target 1) 5 ++ [.step (.kernel (.target 1) [50])] ++ autoThreads (.target 1) 2 ++
        [.step (.kernel (.target 1) [50])])).map
      (fun s => (s.ledger.requested, decide (.executed ⟨0, 0⟩ true [50] ∈ s.sys.trace),
        decide (.executed ⟨0, 0⟩ false [51] ∈ s.sys.trace))) = some (1, true, true) := by decide +kernel
  obtain ⟨s, hr, hs⟩ := exists_reach_of_exec hexec
  simp only [Prod.mk.injEq, decide_eq_true_eq] at hs
  obtain ⟨hreq, hpipeup, hrun⟩ := hs
  refine ⟨s, hr, hreq, hpipeup, hrun, pipeupPromise_of_reach pipeupSource_verified pipeupSource_wired
    pipeupSource_distinctReadyQs pipeupSource_starts (fun n i dq D hD => ?_) hr⟩
  have hnil : ∀ q, pipeupSourceStart.shm.queue.refs q = [] := fun q => Queues.refs_createQueues 2 q
  rw [hnil]
  exact List.nodup_nil

end Source

end Tiovx
