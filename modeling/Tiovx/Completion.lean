import Tiovx.RunsOnce
/-!
# Completion — the end of a run

A leaf node that completes sends a command to the host, which counts it.  While a node executes once in a run, each leaf
node is counted once: the last one counted ends a run in which all nodes were executed.
-/
namespace Tiovx

open StepSystem

/-- A thread has completed node `n` and not yet sent this to the host. -/
def Pc.sends (n : NodeId) : Pc → Nat
  | .release m _ _ _ | .retrigger m _ _ _ _ _ | .sendComplete m _ => if m = n then 1 else 0
  | _ => 0

/-- A thread of the host is to count leaf node `n`. -/
def Pc.checks (n : NodeId) : Pc → Nat
  | .checkGraphCompleted m => if m = n then 1 else 0
  | _ => 0

/-- How many completions of leaf node `n` are on the way to the host. -/
def tokens (G : Graph) (s : Sys) (n : NodeId) (N : NodeDesc) : Nat :=
  (s.jobQ G.hostTarget).count (.nodeUserCallback n) + (s.pc (.target G.hostTarget)).checks n +
    (s.pc (.target N.targetId)).sends n

/-- A run of instance `p` is on, and its flags are cleared. -/
def Running (s : Sys) (p : Nat) : Prop := live p s.trace = true ∧ ∀ i, ¬ Clearing s p i

/-- **The leaf nodes of an instance** are counted once each: those counted and those with a completion on the way are
executed, in a run. -/
structure Leaves (G : Graph) (s : Sys) : Prop where
  host : ∀ id n, .nodeUserCallback n ∈ s.jobQ id → id = G.hostTarget
  check : ∀ t n, s.pc t = .checkGraphCompleted n → t = .target G.hostTarget ∧ G.isLeaf n = true
  token_le : ∀ n N, G.table.node n = some N → N.outNodeId = [] → tokens G s n N ≤ 1
  token : ∀ n N, G.table.node n = some N → N.outNodeId = [] → tokens G s n N ≠ 0 →
    (s.shm.node n).isExecuted = true ∧ Running s n.pipe
  counted : ∀ p < G.pipelineDepth, ∃ S : Finset Nat, S.card = s.completeLeafNodes p ∧
    (∀ i ∈ S, ∃ N, G.table.node ⟨i, p⟩ = some N ∧ N.outNodeId = [] ∧ tokens G s ⟨i, p⟩ N = 0 ∧
      (s.shm.node ⟨i, p⟩).isExecuted = true) ∧
    (S.Nonempty → Running s p)

variable {G : Graph} {s s' : Sys} {a : Act}

theorem isLeaf_iff {n : NodeId} : G.isLeaf n = true ↔ ∃ N, G.table.node n = some N ∧ N.outNodeId = [] := by
  unfold Graph.isLeaf
  cases h : G.table.node n <;> simp

/-- Where all leaf nodes of an instance are executed, and the in-nodes of the executed nodes, all nodes are. -/
theorem allExecuted_of_leaves {p : Nat} (hW : G.Wired)
    (hclosed : ∀ n N, G.table.node n = some N → n.pipe = p → (s.shm.node n).isExecuted = true →
      ∀ k ∈ N.inNodeId, (s.shm.node k).isExecuted = true)
    (hleaf : ∀ n, n.pipe = p → G.isLeaf n = true → (s.shm.node n).isExecuted = true) : AllExecuted G s p 0 := by
  obtain ⟨rank, hrank⟩ := hW.acyclic
  have hbound : ∀ i < G.numNodes, rank i ≤ (Finset.range G.numNodes).sup rank :=
    fun i hi => Finset.le_sup (Finset.mem_range.2 hi)
  -- by induction on how far the node is below the highest rank
  have hall : ∀ d n, n.pipe = p → (G.table.node n).isSome = true → (Finset.range G.numNodes).sup rank - rank n.node ≤ d →
      (s.shm.node n).isExecuted = true := by
    intro d
    induction d with
    | zero =>
      intro n hp hn hd
      obtain ⟨N, hN⟩ := Option.isSome_iff_exists.1 hn
      cases ho : N.outNodeId with
      | nil => exact hleaf n hp (isLeaf_iff.2 ⟨N, hN, ho⟩)
      | cons k l =>
        obtain ⟨-, K, hK, hnk⟩ := hW.outNode n N k hN (by rw [ho]; exact List.mem_cons_self)
        have h₁ := hrank k K n hK hnk
        have h₂ := hbound k.node ((hW.node_isSome k).1 (by rw [hK]; rfl)).1
        omega
    | succ d ih =>
      intro n hp hn hd
      obtain ⟨N, hN⟩ := Option.isSome_iff_exists.1 hn
      cases ho : N.outNodeId with
      | nil => exact hleaf n hp (isLeaf_iff.2 ⟨N, hN, ho⟩)
      | cons k l =>
        obtain ⟨hkp, K, hK, hnk⟩ := hW.outNode n N k hN (by rw [ho]; exact List.mem_cons_self)
        have h₁ := hrank k K n hK hnk
        have hkx := ih k (by rw [hkp, hp]) (by rw [hK]; rfl) (by omega)
        exact hclosed k K hK (by rw [hkp, hp]) hkx n hnk
  intro n hp hn _
  exact hall _ n hp hn (Nat.le_refl _)

theorem update_le {w : Pc → Nat} {f : Tid → Pc} {t : Tid} {pc : Pc} (h : w pc ≤ w (f t)) (u : Tid) :
    w (Function.update f t pc u) ≤ w (f u) := by
  rw [Function.update_apply]
  split
  · rename_i hu
    rw [hu]
    exact h
  · exact Nat.le_refl _

/-- A step of one thread that brings no completion on the way. -/
theorem tokens_le {t : Tid} {pc : Pc} {n : NodeId} {N : NodeDesc} (hp : s'.pc = Function.update s.pc t pc)
    (hj : (s'.jobQ G.hostTarget).count (.nodeUserCallback n) ≤ (s.jobQ G.hostTarget).count (.nodeUserCallback n))
    (hc : pc.checks n ≤ (s.pc t).checks n) (hr : pc.sends n ≤ (s.pc t).sends n) : tokens G s' n N ≤ tokens G s n N := by
  have h₂ := update_le hc (.target G.hostTarget)
  have h₃ := update_le hr (.target N.targetId)
  unfold tokens
  rw [hp]
  omega

theorem count_ownObjDescSend_le {J : Nat → List Job} {dst id : Nat} {j k : Job} (hjk : j ≠ k) :
    (ownObjDescSend J dst j id).count k ≤ (J id).count k := by
  unfold ownObjDescSend
  split
  · rw [Function.update_apply]
    split
    · rename_i h
      rw [List.count_append, h, List.count_singleton]
      simp [hjk]
    · exact Nat.le_refl _
  · exact Nat.le_refl _

theorem count_ownTargetTriggerNode_le {T : ObjDescTable} {J : Nat → List Job} {id : Nat} {n k : NodeId} :
    (ownTargetTriggerNode T J k id).count (.nodeUserCallback n) ≤ (J id).count (.nodeUserCallback n) := by
  unfold ownTargetTriggerNode
  cases T.node k with
  | none => exact Nat.le_refl _
  | some K => exact count_ownObjDescSend_le (by simp)

theorem count_tail_le {J : Nat → List Job} {id k : Nat} {j x : Job} {l : List Job} (hq : J id = j :: l) :
    (Function.update J id l k).count x ≤ (J k).count x := by
  rw [Function.update_apply]
  split
  · rename_i h
    rw [h, hq]
    exact List.count_le_count_cons
  · exact Nat.le_refl _

/-- **Where completions come from**: a node that is marked complete brings one on the way. -/
theorem tokens_of_step (hO : OnTarget G s)
    (hH : ∀ id n, .nodeUserCallback n ∈ s.jobQ id → id = G.hostTarget) (hs : Step G s a s') {n : NodeId} {N : NodeDesc}
    (hN : G.table.node n = some N) : tokens G s' n N ≤ tokens G s n N ∨
      (∃ prms, s.pc a.tid = .markComplete n prms) ∧ tokens G s' n N ≤ tokens G s n N + 1 := by
  cases hs with
  | takeNode hpc hq => exact .inl (tokens_le (s := s) rfl (count_tail_le hq) (Nat.zero_le _) (Nat.zero_le _))
  | takeConsumed hpc hq => exact .inl (tokens_le (s := s) rfl (count_tail_le hq) (Nat.zero_le _) (Nat.zero_le _))
  | @takeCallback id m l pc hpc hq hc =>
    left
    obtain ⟨rfl, -⟩ | ⟨rfl, -⟩ := hc
    · by_cases hm : m = n
      · -- the command leaves the queue and the host goes on with it
        subst hm
        have hid := hH id m (by rw [hq]; exact List.mem_cons_self)
        subst hid
        have h₃ : (Function.update s.pc (.target G.hostTarget) (.checkGraphCompleted m) (.target N.targetId)).sends m ≤
            (s.pc (.target N.targetId)).sends m := update_le (Nat.zero_le _) _
        unfold tokens
        simp only [Sys.setPc, Function.update_self, hq, hpc, List.count_cons_self, Pc.checks, if_true] at h₃ ⊢
        omega
      · have hc : (Pc.checkGraphCompleted m).checks n = 0 := if_neg hm
        exact tokens_le (s := s) rfl (count_tail_le hq) (by rw [hc]; exact Nat.zero_le _) (Nat.zero_le _)
    · exact tokens_le (s := s) rfl (count_tail_le hq) (Nat.zero_le _) (Nat.zero_le _)
  | acquirePrm hpc hN' hP hq hD =>
    left
    unfold afterAcquire
    split
    · exact tokens_le (s := s) rfl (Nat.le_refl _) (Nat.zero_le _) (Nat.zero_le _)
    · split <;> exact tokens_le (s := s) rfl (Nat.le_refl _) (Nat.zero_le _) (Nat.zero_le _)
  | acquireInvalid hpc hN' hP hall =>
    refine .inl (tokens_le (s := s) rfl (Nat.le_refl _) ?_ ?_) <;> split <;> exact Nat.zero_le _
  | @markComplete t m M prms hpc hM =>
    by_cases hm : m = n
    · subst hm
      refine .inr ⟨⟨prms, hpc⟩, ?_⟩
      have h₂ : (Function.update s.pc t (.release m prms 0 (s.shm.node m).blockedNodeId) (.target G.hostTarget)).checks m ≤
          (s.pc (.target G.hostTarget)).checks m := update_le (Nat.zero_le _) _
      have h₃ : ∀ pc : Pc, pc.sends m ≤ 1 := by
        intro pc
        unfold Pc.sends
        split <;> first | exact Nat.zero_le _ | (split <;> decide)
      have h₃' := h₃ (Function.update s.pc t (.release m prms 0 (s.shm.node m).blockedNodeId) (.target N.targetId))
      unfold tokens
      simp only [Sys.setPc, Sys.log]
      omega
    · have hr : (Pc.release m prms 0 (s.shm.node m).blockedNodeId).sends n = 0 := if_neg hm
      exact .inl (tokens_le (s := s) rfl (Nat.le_refl _) (Nat.zero_le _) (by rw [hr]; exact Nat.zero_le _))
  | @sendComplete t m M blocked hpc hM =>
    left
    by_cases hm : m = n
    · -- the completion is in the queue of the host now, if it was not dropped
      subst hm
      have ht := hO.pc (t := t) (by rw [hpc]; rfl) hN
      have h₂ : (Function.update s.pc t (.triggerNext m 0 blocked) (.target G.hostTarget)).checks m ≤
          (s.pc (.target G.hostTarget)).checks m := update_le (Nat.zero_le _) _
      have h₁ : ((if M.isUserCallback || M.outNodeId.isEmpty then
          ownObjDescSend s.jobQ G.hostTarget (.nodeUserCallback m) else s.jobQ) G.hostTarget).count (.nodeUserCallback m) ≤
          (s.jobQ G.hostTarget).count (.nodeUserCallback m) + 1 := by
        split
        · unfold ownObjDescSend
          split
          · rw [Function.update_self, List.count_append]
            simp
          · exact Nat.le_succ _
        · exact Nat.le_succ _
      unfold tokens
      rw [ht] at h₂ hpc
      simp only [Sys.setPc, ht, Function.update_self, hpc, Pc.sends, if_true] at h₂ ⊢
      omega
    · refine tokens_le (s := s) rfl ?_ (Nat.zero_le _) (Nat.zero_le _)
      simp only [Sys.setPc]
      split
      · exact count_ownObjDescSend_le (fun h => by cases h; exact hm rfl)
      · exact Nat.le_refl _
  | refConsumed dq send hpc hN' =>
    refine .inl (tokens_le (s := s) rfl ?_ (Nat.zero_le _) (by rw [hpc]; exact Nat.le_refl _))
    simp only [Sys.setPc]
    split
    · exact count_ownObjDescSend_le (by simp)
    · exact Nat.le_refl _
  | retrigger hpc hN' =>
    exact .inl (tokens_le (s := s) rfl count_ownTargetTriggerNode_le (Nat.zero_le _) (by rw [hpc]; exact Nat.le_refl _))
  | sendNext hpc hN' hk =>
    exact .inl (tokens_le (s := s) rfl count_ownTargetTriggerNode_le (Nat.zero_le _) (Nat.zero_le _))
  | triggerBlocked hpc =>
    exact .inl (tokens_le (s := s) rfl count_ownTargetTriggerNode_le (Nat.zero_le _) (Nat.zero_le _))
  | userRetrigger hpc =>
    exact .inl (tokens_le (s := s) rfl count_ownTargetTriggerNode_le (Nat.zero_le _) (Nat.zero_le _))
  | scheduleHead hpc hh =>
    exact .inl (tokens_le (s := s) rfl count_ownTargetTriggerNode_le (Nat.zero_le _) (Nat.zero_le _))
  | completed hpc hl hc =>
    refine .inl (tokens_le (s := s) rfl (Nat.le_refl _) ?_ ?_) <;> split <;> exact Nat.zero_le _
  | enqueueFailed => exact .inl (Nat.le_refl _)
  | dequeued => exact .inl (Nat.le_refl _)
  | _ =>
    refine .inl (tokens_le (s := s) rfl (Nat.le_refl _) (Nat.zero_le _) ?_)
    first | exact Nat.zero_le _ | (rw [‹s.pc _ = _›]; exact Nat.le_refl _)

/-- The host takes a completion off the way when it counts the node. -/
theorem tokens_of_check (ht : a.tid = .target G.hostTarget) (hs : Step G s a s') {n : NodeId} {N : NodeDesc}
    (h : s.pc a.tid = .checkGraphCompleted n) : tokens G s' n N + 1 ≤ tokens G s n N := by
  have hcount : ∀ pc : Pc, s'.jobQ = s.jobQ → s'.pc = Function.update s.pc a.tid pc → pc.checks n = 0 →
      pc.sends n = 0 → tokens G s' n N + 1 ≤ tokens G s n N := by
    intro pc hj hp hc hr
    have h₃ : (Function.update s.pc a.tid pc (.target N.targetId)).sends n ≤ (s.pc (.target N.targetId)).sends n :=
      update_le (by rw [hr]; exact Nat.zero_le _) _
    have h₂ : (s.pc (.target G.hostTarget)).checks n = 1 := by
      rw [← ht, h]
      exact if_pos rfl
    unfold tokens
    rw [hj, hp, h₂, ← ht, Function.update_self, hc]
    omega
  cases hs with
  | notCompleted => exact hcount .idle rfl rfl rfl rfl
  | completed => refine hcount _ rfl rfl ?_ ?_ <;> split <;> rfl
  | noNode hpc =>
    rw [Act.tid] at h
    rw [h] at hpc
    cases hpc
  | _ => simp only [Act.tid, *, reduceCtorEq] at h

/-- A run goes on until its last leaf node is counted. -/
theorem Running.kept (hS : Scheduling G s) (hs : Step G s a s') {p : Nat} (hp : p < G.pipelineDepth) (h : Running s p)
    (hend : ∀ n, Ending G s a s' n → n.pipe ≠ p) : Running s' p := by
  constructor
  · rcases runs_of_step hs with ⟨hr, -⟩ | ⟨q, hq⟩ | ⟨n, hn⟩ | ⟨n, b, ⟨pipeup, prms₀, -, ht⟩, -, -, -⟩
    · rw [hr.live, h.1]
    · rw [hq.trace]
      simp [live, h.1]
    · rw [hn.trace]
      simp [live, h.1, hend n hn]
    · rw [ht]
      exact h.1
  · intro i hc
    rcases clearing_of_step hs hc with ⟨t, left, -, hpc⟩ | ⟨-, hf, -⟩ | ⟨left, j, hpc, -⟩
    · exact h.2 i ⟨t, left, hpc⟩
    · have hfree : p ∈ s.freeQ := by rw [hf]; exact List.mem_cons_self
      have hl := (hS.free_iff p hp).1 hfree
      rw [h.1] at hl
      cases hl
    · exact h.2 j ⟨_, left, hpc⟩

/-- **What a step does to the count of the leaf nodes.** -/
theorem completeLeafNodes_of_step (hs : Step G s a s') :
    (s'.completeLeafNodes = s.completeLeafNodes ∧ ∀ n, s.pc a.tid ≠ .checkGraphCompleted n) ∨
    (∃ n, s.pc a.tid = .checkGraphCompleted n ∧ s'.completeLeafNodes =
      Function.update s.completeLeafNodes n.pipe (s.completeLeafNodes n.pipe + 1) ∧ ∀ m, ¬ Ending G s a s' m) ∨
    (∃ n, Ending G s a s' n ∧ s'.completeLeafNodes = Function.update s.completeLeafNodes n.pipe 0) := by
  cases hs with
  | @notCompleted t n hpc hl hc =>
    refine .inr (.inl ⟨n, hpc, rfl, fun m hm => hc ?_⟩)
    have hm' := hm.move
    rw [Act.tid, hpc] at hm'
    cases hm'
    exact hm.last
  | @completed t n hpc hl hc => exact .inr (.inr ⟨n, ⟨hpc, hl, hc, rfl, rfl⟩, rfl⟩)
  | noNode hpc hN =>
    refine .inl ⟨rfl, fun n hn => ?_⟩
    rw [Act.tid] at hn
    rw [hn] at hpc
    cases hpc
  | acquirePrm hpc hN hP hq hD =>
    refine .inl ⟨?_, fun n hn => by simp only [Act.tid, *, reduceCtorEq] at hn⟩
    unfold afterAcquire
    split
    · rfl
    · split <;> rfl
  | _ => exact .inl ⟨rfl, fun n hn => by simp only [Act.tid, *, reduceCtorEq] at hn⟩

/-- Completions are sent to the host. -/
theorem nodeUserCallback_of_step (hs : Step G s a s') {id : Nat} {n : NodeId}
    (h : .nodeUserCallback n ∈ s'.jobQ id) : .nodeUserCallback n ∈ s.jobQ id ∨ id = G.hostTarget := by
  have htrigger : ∀ k, .nodeUserCallback n ∈ ownTargetTriggerNode G.table s.jobQ k id →
      .nodeUserCallback n ∈ s.jobQ id ∨ id = G.hostTarget := by
    intro k hk
    rcases mem_ownTargetTriggerNode hk with hk | ⟨hk, -⟩
    · exact .inl hk
    · cases hk
  cases hs with
  | takeNode hpc hq => exact .inl (mem_of_update_tail hq h)
  | takeCallback pc hpc hq hc => exact .inl (mem_of_update_tail hq h)
  | takeConsumed hpc hq => exact .inl (mem_of_update_tail hq h)
  | sendComplete hpc hN =>
    simp only [Sys.setPc] at h
    split at h
    · exact (mem_ownObjDescSend h).imp_right And.right
    · exact .inl h
  | refConsumed dq send hpc hN =>
    simp only [Sys.setPc] at h
    split at h
    · exact (mem_ownObjDescSend h).imp_right And.right
    · exact .inl h
  | retrigger hpc hN => exact htrigger _ h
  | sendNext hpc hN hk => exact htrigger _ h
  | triggerBlocked hpc => exact htrigger _ h
  | userRetrigger hpc => exact htrigger _ h
  | scheduleHead hpc hh => exact htrigger _ h
  | acquirePrm hpc hN hP hq hD =>
    unfold afterAcquire at h
    split at h
    · exact .inl h
    · split at h <;> exact .inl h
  | _ => exact .inl h

/-- A thread is to count a node when it has taken the node's completion. -/
theorem checkGraphCompleted_of_step (hs : Step G s a s') {t : Tid} {n : NodeId}
    (h : s'.pc t = .checkGraphCompleted n) : s.pc t = .checkGraphCompleted n ∨
      ∃ id, t = .target id ∧ .nodeUserCallback n ∈ s.jobQ id ∧ G.isLeaf n = true := by
  by_cases hta : t = a.tid
  · subst hta
    rcases pcStep_of_step hs with ⟨-, hp, -⟩ | hp
    · rw [hp] at h
      cases h
    · rw [h] at hp
      generalize hpc : s.pc a.tid = pc at hp
      cases hp with
      | rest h' => cases h'
      | collect ht hj hN ho => exact .inr ⟨_, ht, hj, isLeaf_iff.2 ⟨_, hN, ho⟩⟩
      | work _ h' => cases h'
      | after _ h' => cases h'
  · rw [pc_of_step_ne hs hta] at h
    exact .inl h

/-- A node that is to be marked complete has no completion on the way. -/
theorem tokens_of_markComplete (hF : Flags G s) (hL : Leaves G s) {t : Tid} {n : NodeId} {N : NodeDesc} {prms : List Nat}
    (hN : G.table.node n = some N) (ho : N.outNodeId = []) (hpc : s.pc t = .markComplete n prms) :
    tokens G s n N = 0 := by
  have hx := hF.active t n (by rw [hpc]; rfl) (by rw [hN]; rfl)
  by_contra h
  have := (hL.token n N hN ho h).1
  rw [hx] at this
  cases this

/-- A leaf node that was counted has no completion on the way, and stays so. -/
theorem tokens_counted (hO : OnTarget G s) (hF : Flags G s) (hL : Leaves G s) (hs : Step G s a s') {n : NodeId}
    {N : NodeDesc} (hN : G.table.node n = some N) (ht : tokens G s n N = 0)
    (hx : (s.shm.node n).isExecuted = true) : tokens G s' n N = 0 := by
  rcases tokens_of_step hO hL.host hs hN with h | ⟨⟨prms, hpc⟩, -⟩
  · omega
  · have := hF.active a.tid n (by rw [hpc]; rfl) (by rw [hN]; rfl)
    rw [hx] at this
    cases this

/-- **At the last count** every leaf node of the instance is executed, and no other has a completion on the way. -/
theorem Leaves.all (hW : G.Wired) (hL : Leaves G s) {t : Tid} {n : NodeId} (hpc : s.pc t = .checkGraphCompleted n)
    (hlast : s.completeLeafNodes n.pipe + 1 = G.numLeafNodes) {m : NodeId} {M : NodeDesc}
    (hM : G.table.node m = some M) (ho : M.outNodeId = []) (hp : m.pipe = n.pipe) :
    m = n ∨ tokens G s m M = 0 ∧ (s.shm.node m).isExecuted = true := by
  obtain ⟨ht, hleaf⟩ := hL.check t n hpc
  obtain ⟨N, hN, hno⟩ := isLeaf_iff.1 hleaf
  have hlt := (hW.node_isSome n).1 (by rw [hN]; rfl)
  have hmt := (hW.node_isSome m).1 (by rw [hM]; rfl)
  obtain ⟨S, hcard, hS, -⟩ := hL.counted n.pipe hlt.2
  have htok : 1 ≤ tokens G s n N := by
    unfold tokens
    rw [← ht, hpc, Pc.checks, if_pos rfl]
    omega
  have hn : n.node ∉ S := by
    intro hn
    obtain ⟨N', hN', -, h0, -⟩ := hS n.node hn
    rw [hN] at hN'
    cases hN'
    have h0' : tokens G s n N = 0 := h0
    omega
  -- the nodes counted and `n` are as many as the leaf nodes
  have hsub : insert n.node S ⊆ (Finset.range G.numNodes).filter (fun i => G.isLeaf ⟨i, n.pipe⟩ = true) := by
    intro i hi
    rw [Finset.mem_insert] at hi
    rw [Finset.mem_filter, Finset.mem_range]
    rcases hi with rfl | hi
    · exact ⟨hlt.1, hleaf⟩
    · obtain ⟨I, hI, hio, -⟩ := hS i hi
      exact ⟨((hW.node_isSome ⟨i, n.pipe⟩).1 (by rw [hI]; rfl)).1, isLeaf_iff.2 ⟨I, hI, hio⟩⟩
  have heq := Finset.eq_of_subset_of_card_le hsub (by
    rw [hW.numLeafNodes n.pipe hlt.2, Finset.card_insert_of_notMem hn, hcard]
    omega)
  have hm : m.node ∈ insert n.node S := by
    rw [heq, Finset.mem_filter, Finset.mem_range]
    refine ⟨hmt.1, ?_⟩
    rw [← hp]
    exact isLeaf_iff.2 ⟨M, hM, ho⟩
  rw [Finset.mem_insert] at hm
  rcases hm with hm | hm
  · left
    cases m
    cases n
    simp only at hm hp
    rw [hm, hp]
  · obtain ⟨M', hM', -, h0, hx⟩ := hS m.node hm
    have hmn : (⟨m.node, n.pipe⟩ : NodeId) = m := by rw [← hp]
    rw [hmn] at hM' h0 hx
    rw [hM] at hM'
    cases hM'
    exact .inr ⟨h0, hx⟩

/-- A run ends when its nodes are executed. -/
theorem ending_allExecuted (hW : G.Wired) (hE : Executions G s) (hL : Leaves G s) {n : NodeId}
    (hn : Ending G s a s' n) :
    live n.pipe s.trace = true ∧ (∀ i, ¬ Clearing s n.pipe i) ∧ n.pipe < G.pipelineDepth ∧
      AllExecuted G s n.pipe 0 := by
  obtain ⟨ht, hleaf⟩ := hL.check _ n hn.move
  obtain ⟨N, hN, ho⟩ := isLeaf_iff.1 hleaf
  have hne : tokens G s n N ≠ 0 := by
    unfold tokens
    rw [← ht, hn.move, Pc.checks, if_pos rfl]
    omega
  obtain ⟨hx, hl, hcl⟩ := hL.token n N hN ho hne
  refine ⟨hl, hcl, ((hW.node_isSome n).1 (by rw [hN]; rfl)).2, allExecuted_of_leaves hW ?_ ?_⟩
  · intro m M hM hp hxm
    exact hE.closed m M hM (by rw [hp, hl]) (by rw [hp]; exact hcl) hxm
  · intro m hp hm
    obtain ⟨M, hM, hmo⟩ := isLeaf_iff.1 hm
    rcases hL.all hW hn.move hn.last hM hmo hp with rfl | ⟨-, hxm⟩
    · exact hx
    · exact hxm

/-- A flag of a run that is on stays set. -/
theorem Running.isExecuted_kept (hs : Step G s a s') {n : NodeId} (h : Running s n.pipe)
    (hx : (s.shm.node n).isExecuted = true) : (s'.shm.node n).isExecuted = true :=
  Tiovx.isExecuted_kept hs hx (fun left hpc => h.2 n.node ⟨_, left, hpc⟩)

theorem token_kept (hW : G.Wired) (hS : Scheduling G s) (hO : OnTarget G s) (hF : Flags G s) (hL : Leaves G s)
    (hs : Step G s a s') (n : NodeId) (N : NodeDesc) (hN : G.table.node n = some N) (ho : N.outNodeId = []) :
    tokens G s' n N ≤ 1 ∧ (tokens G s' n N ≠ 0 → (s'.shm.node n).isExecuted = true ∧ Running s' n.pipe) := by
  have hn : (G.table.node n).isSome = true := by rw [hN]; rfl
  have hd := ((hW.node_isSome n).1 hn).2
  have hle := hL.token_le n N hN ho
  rcases tokens_of_step hO hL.host hs hN with h | ⟨⟨prms, hpc⟩, h⟩
  · refine ⟨by omega, fun hne => ?_⟩
    obtain ⟨hx, hrun⟩ := hL.token n N hN ho (by omega)
    refine ⟨Running.isExecuted_kept hs hrun hx, hrun.kept hS hs hd (fun m hm hp => ?_)⟩
    -- the last count of a run takes the last completion off the way
    rcases hL.all hW hm.move hm.last hN ho hp.symm with rfl | ⟨h0, -⟩
    · have := tokens_of_check (hL.check _ _ hm.move).1 hs (N := N) hm.move
      omega
    · omega
  · have h0 := tokens_of_markComplete hF hL hN ho hpc
    have hx := hF.active a.tid n (by rw [hpc]; rfl) hn
    have hrun : Running s n.pipe := running_of_inFlight hW hS hF hn (.working (t := a.tid) (by rw [hpc]; rfl)) hx
    refine ⟨by omega, fun _ => ⟨isExecuted_of_markComplete hs hpc hN, hrun.kept hS hs hd (fun m hm => ?_)⟩⟩
    have hm' := hm.move
    rw [hpc] at hm'
    cases hm'

theorem counted_kept (hS : Scheduling G s) (hO : OnTarget G s) (hF : Flags G s) (hL : Leaves G s)
    (hs : Step G s a s') (p : Nat) (hd : p < G.pipelineDepth) :
    ∃ S : Finset Nat, S.card = s'.completeLeafNodes p ∧
      (∀ i ∈ S, ∃ N, G.table.node ⟨i, p⟩ = some N ∧ N.outNodeId = [] ∧ tokens G s' ⟨i, p⟩ N = 0 ∧
        (s'.shm.node ⟨i, p⟩).isExecuted = true) ∧ (S.Nonempty → Running s' p) := by
  obtain ⟨S, hcard, hS', hrun⟩ := hL.counted p hd
  -- what was counted of a run that goes on
  have hkept : ∀ i ∈ S, ∃ N, G.table.node ⟨i, p⟩ = some N ∧ N.outNodeId = [] ∧ tokens G s' ⟨i, p⟩ N = 0 ∧
      (s'.shm.node ⟨i, p⟩).isExecuted = true := by
    intro i hi
    obtain ⟨N, hN, ho, h0, hx⟩ := hS' i hi
    exact ⟨N, hN, ho, tokens_counted hO hF hL hs hN h0 hx, Running.isExecuted_kept hs (hrun ⟨i, hi⟩) hx⟩
  rcases completeLeafNodes_of_step hs with ⟨hc, hpc⟩ | ⟨n, hpc, hc, hend⟩ | ⟨n, hn, hc⟩
  · exact ⟨S, by rw [hc, hcard], hkept, fun h => Running.kept hS hs hd (hrun h) (fun m hm => absurd hm.move (hpc m))⟩
  · by_cases hp : n.pipe = p
    · subst hp
      obtain ⟨ht, hleaf⟩ := hL.check _ n hpc
      obtain ⟨N, hN, ho⟩ := isLeaf_iff.1 hleaf
      have htok := tokens_of_check ht hs (N := N) hpc
      have hle := hL.token_le n N hN ho
      obtain ⟨hx, hrun⟩ := hL.token n N hN ho (by omega)
      have hmem : n.node ∉ S := by
        intro hmem
        obtain ⟨N', hN', -, h0, -⟩ := hS' n.node hmem
        rw [hN] at hN'
        cases hN'
        have h0' : tokens G s n N = 0 := h0
        omega
      have h0 : tokens G s' n N = 0 := by omega
      refine ⟨insert n.node S, ?_, ?_, fun _ => Running.kept hS hs hd hrun (fun m hm => absurd hm (hend m))⟩
      · rw [Finset.card_insert_of_notMem hmem, hc, Function.update_self, hcard]
      · intro i hi
        rw [Finset.mem_insert] at hi
        rcases hi with rfl | hi
        · exact ⟨N, hN, ho, h0, Running.isExecuted_kept hs hrun hx⟩
        · exact hkept i hi
    · refine ⟨S, by rw [hc, Function.update_of_ne (Ne.symm hp), hcard], hkept, fun h => ?_⟩
      exact Running.kept hS hs hd (hrun h) (fun m hm => absurd hm (hend m))
  · by_cases hp : n.pipe = p
    · subst hp
      refine ⟨∅, by rw [hc, Function.update_self]; rfl, fun i hi => absurd hi (Finset.notMem_empty i), ?_⟩
      rintro ⟨i, hi⟩
      exact absurd hi (Finset.notMem_empty i)
    · refine ⟨S, by rw [hc, Function.update_of_ne (Ne.symm hp), hcard], hkept, fun h => ?_⟩
      refine Running.kept hS hs hd (hrun h) (fun m hm => ?_)
      have hm' := hm.move
      rw [hn.move] at hm'
      cases hm'
      exact hp

theorem Leaves.kept (hW : G.Wired) (hS : Scheduling G s) (hO : OnTarget G s) (hF : Flags G s) (hL : Leaves G s)
    (hs : Step G s a s') : Leaves G s' where
  host id n h := by
    rcases nodeUserCallback_of_step hs h with h | h
    · exact hL.host id n h
    · exact h
  check t n h := by
    rcases checkGraphCompleted_of_step hs h with h | ⟨id, rfl, hj, hleaf⟩
    · exact hL.check t n h
    · exact ⟨by rw [hL.host id n hj], hleaf⟩
  token_le n N hN ho := (token_kept hW hS hO hF hL hs n N hN ho).1
  token n N hN ho := (token_kept hW hS hO hF hL hs n N hN ho).2
  counted := counted_kept hS hO hF hL hs

end Tiovx
