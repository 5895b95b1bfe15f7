import Mathlib.Data.Finset.Lattice.Fold
import Mathlib.Order.Interval.Finset.Nat
import Tiovx.Triggers
/-!
# Schedules — the runs of a graph descriptor

A run of pipeline instance `p` starts when the host takes `p` from the free queue, goes on while the host clears the flags
of its nodes and triggers the head nodes, and ends with the last of its leaf nodes.  `live` and `executedIn` read this
from the events.  The lemmas here say what a step does to a run.
-/
namespace Tiovx

open StepSystem

/-- A run of instance `p` has started and not ended. -/
def live (p : Nat) : List Event → Bool
  | .scheduled q :: l => decide (q = p) || live p l
  | .completed q :: l => !decide (q = p) && live p l
  | _ :: l => live p l
  | [] => false

/-- The kernel of node `n` was executed since the last start of a run of its instance. -/
def executedIn (n : NodeId) : List Event → Bool
  | .executed k false _ :: l => decide (k = n) || executedIn n l
  | .scheduled p :: l => !decide (p = n.pipe) && executedIn n l
  | _ :: l => executedIn n l
  | [] => false

/-- **What is promised of the events**: a run starts where none is on; a kernel is executed in a run, once, and after the
kernels of all its in-nodes; a run ends when all kernels were executed in it.  The buffers a pipe-up fills before the
execution are held to the same order. -/
def runsOnce (G : Graph) : List Event → Prop
  | .scheduled p :: l => live p l = false ∧ runsOnce G l
  | .executed n _ _ :: l => (live n.pipe l = true ∧ executedIn n l = false ∧
      ∀ N, G.table.node n = some N → ∀ k ∈ N.inNodeId, executedIn k l = true) ∧ runsOnce G l
  | .completed p :: l => (live p l = true ∧ ∀ i < G.numNodes, executedIn ⟨i, p⟩ l = true) ∧ runsOnce G l
  | _ :: l => runsOnce G l
  | [] => True

/-- A leaf node of the graph. -/
def Graph.isLeaf (G : Graph) (n : NodeId) : Bool := (G.table.node n).any (fun N => N.outNodeId.isEmpty)

/-- What verifying a graph promises of its edges: each instance has every node, the edges of both lists are the same and
stay in an instance, head nodes are without in-nodes, the leaf nodes are counted, and there is no cycle. -/
structure Graph.Wired (G : Graph) : Prop where
  node_isSome : ∀ n, (G.table.node n).isSome = true ↔ n.node < G.numNodes ∧ n.pipe < G.pipelineDepth
  inNode : ∀ n N k, G.table.node n = some N → k ∈ N.inNodeId →
    k.pipe = n.pipe ∧ ∃ K, G.table.node k = some K ∧ n ∈ K.outNodeId
  outNode : ∀ n N k, G.table.node n = some N → k ∈ N.outNodeId →
    k.pipe = n.pipe ∧ ∃ K, G.table.node k = some K ∧ n ∈ K.inNodeId
  headNode : ∀ h ∈ G.headNodes, ∀ p N, G.table.node ⟨h, p⟩ = some N → N.inNodeId = []
  numLeafNodes : ∀ p < G.pipelineDepth, ((Finset.range G.numNodes).filter (fun i => G.isLeaf ⟨i, p⟩ = true)).card =
    G.numLeafNodes
  acyclic : ∃ rank : Nat → Nat, ∀ n N k, G.table.node n = some N → k ∈ N.inNodeId → rank k.node < rank n.node

/-- The host clears the flags of instance `p`, and has come to node `i`. -/
def Clearing (s : Sys) (p i : Nat) : Prop := ∃ t left, s.pc t = .clearState p left i

/-- The instance a thread schedules. -/
def Pc.schedulesPipe : Pc → Option Nat
  | .clearState p _ _ | .scheduleHeads p _ _ => some p
  | _ => none

/-- A thread is in `ownGraphScheduleGraph`, with the lock. -/
def Pc.schedules : Pc → Bool
  | .schedule _ | .clearState _ _ _ | .scheduleHeads _ _ _ => true
  | _ => false

theorem Pc.schedules_of_pipe {pc : Pc} {p : Nat} (h : pc.schedulesPipe = some p) : pc.schedules = true := by
  cases pc <;> simp [schedulesPipe] at h <;> rfl

/-- The node a thread works on, once it has found that the node was not executed. -/
def Pc.passed : Pc → Option NodeId
  | .isPrevPipeNodeBlocked n | .acquire n _ _ | .kernel n _ _ | .markComplete n _ => some n
  | _ => none

theorem Pc.works_of_passed {pc : Pc} {n : NodeId} (h : pc.passed = some n) : pc.works = some n := by
  cases pc <;> simp only [passed, reduceCtorEq] at h <;> exact h

theorem Pc.nodeId_of_works {pc : Pc} {n : NodeId} (h : pc.works = some n) : pc.nodeId = some n := by
  cases pc <;> simp only [works, reduceCtorEq] at h <;> exact h

/-- These events start and end the same runs, and have executed the same nodes in them. -/
structure SameRuns (G : Graph) (l l' : List Event) : Prop where
  live : ∀ p, live p l' = live p l
  executedIn : ∀ n, executedIn n l' = executedIn n l
  once : runsOnce G l → runsOnce G l'

/-- The host takes instance `p` from the free queue. -/
structure Starting (s : Sys) (a : Act) (s' : Sys) (p : Nat) : Prop where
  move : ∃ left, s.pc a.tid = .schedule (left + 1) ∧ s'.pc a.tid = .clearState p left 0
  freeQ : s.freeQ = p :: s'.freeQ
  trace : s'.trace = .scheduled p :: s.trace

/-- Leaf node `n` ends a run. -/
structure Ending (G : Graph) (s : Sys) (a : Act) (s' : Sys) (n : NodeId) : Prop where
  move : s.pc a.tid = .checkGraphCompleted n
  lock : s.lock = none
  last : s.completeLeafNodes n.pipe + 1 = G.numLeafNodes
  freeQ : s'.freeQ = s.freeQ ++ [n.pipe]
  trace : s'.trace = .completed n.pipe :: s.trace

/-- The kernel of node `n` returns. -/
structure Executing (G : Graph) (s : Sys) (a : Act) (s' : Sys) (n : NodeId) (isPipeup : Bool) : Prop where
  move : ∃ pipeup prms₀, s.pc a.tid = .kernel n pipeup prms₀ ∧ s'.trace = .executed n isPipeup prms₀ :: s.trace
  marks : isPipeup = false → ∃ prms, s'.pc a.tid = .markComplete n prms
  node : ∃ N, G.table.node n = some N
  freeQ : s'.freeQ = s.freeQ

/-- **What a step does to the runs.** -/
theorem runs_of_step {G : Graph} {s s' : Sys} {a : Act} (hs : Step G s a s') :
    (SameRuns G s.trace s'.trace ∧ s'.freeQ = s.freeQ) ∨ (∃ p, Starting s a s' p) ∨ (∃ n, Ending G s a s' n) ∨
      ∃ n b, Executing G s a s' n b := by
  cases hs with
  | @scheduled t left p l hpc hf =>
    exact .inr (.inl ⟨p, ⟨left, hpc, Function.update_self _ _ _⟩, hf, rfl⟩)
  | @completed t n hpc hl hc => exact .inr (.inr (.inl ⟨n, hpc, hl, hc, rfl, rfl⟩))
  | @kernel t n N prms₀ prms hpc hN hk =>
    exact .inr (.inr (.inr ⟨n, false, ⟨0, prms₀, hpc, rfl⟩, fun _ => ⟨prms, Function.update_self _ _ _⟩, ⟨N, hN⟩, rfl⟩))
  | @kernelSteady t n N prms₀ prms hpc hN hk =>
    exact .inr (.inr (.inr ⟨n, true, ⟨1, prms₀, hpc, rfl⟩, (fun h => by cases h), ⟨N, hN⟩, rfl⟩))
  | @kernelPipeup t n N p prms₀ prms hpc hN hk =>
    exact .inr (.inr (.inr ⟨n, true, ⟨p + 2, prms₀, hpc, rfl⟩, (fun h => by cases h), ⟨N, hN⟩, rfl⟩))
  | acquirePrm hpc hN hP hq hD =>
    unfold afterAcquire
    split
    · exact .inl ⟨⟨fun _ => rfl, fun _ => rfl, fun h => h⟩, rfl⟩
    · split <;> exact .inl ⟨⟨fun _ => rfl, fun _ => rfl, fun h => h⟩, rfl⟩
  | _ => exact .inl ⟨⟨fun _ => rfl, fun _ => rfl, fun h => h⟩, rfl⟩

/-- The node a thread has completed, while it releases the parameters and triggers the next nodes. -/
def Pc.after : Pc → Option NodeId
  | .release n _ _ _ | .retrigger n _ _ _ _ _ | .sendComplete n _ | .triggerNext n _ _ | .sendNext n _ _ => some n
  | _ => none

/-- A thread is on no node and not in `ownGraphScheduleGraph`. -/
def Pc.rests : Pc → Bool
  | .idle | .triggerBlocked _ | .userRetrigger _ | .scheduleGraph _ => true
  | _ => false

/-- **Where a thread goes**, from where it stood. -/
inductive PcStep (G : Graph) (s s' : Sys) (t : Tid) : Pc → Pc → Prop
  | rest {pc pc'} (h : pc'.rests = true) (hl : s'.lock = s.lock) : PcStep G s s' t pc pc'
  | unlock {left} (hl : s'.lock = none) : PcStep G s s' t (.schedule left) .idle
  | take {n id} (ht : t = .target id) (hj : .node n ∈ s.jobQ id) (hl : s'.lock = s.lock) :
      PcStep G s s' t .idle (.nodeExecute n)
  | collect {n N id} (ht : t = .target id) (hj : .nodeUserCallback n ∈ s.jobQ id) (hN : G.table.node n = some N)
      (ho : N.outNodeId = []) (hl : s'.lock = s.lock) : PcStep G s s' t .idle (.checkGraphCompleted n)
  | pass {n} (hx : (s.shm.node n).isExecuted = false) (hl : s'.lock = s.lock) :
      PcStep G s s' t (.nodeExecute n) (.isPrevPipeNodeBlocked n)
  | work {pc pc' n} (h : pc.passed = some n) (h' : pc'.passed = some n) (h₀ : ∀ n prms, pc ≠ .markComplete n prms)
      (hm : ∀ n prms, pc' ≠ .markComplete n prms) (hl : s'.lock = s.lock) : PcStep G s s' t pc pc'
  | execute {n pipeup prms prms' N} (hN : G.table.node n = some N) (ht : s'.trace = .executed n false prms :: s.trace)
      (hl : s'.lock = s.lock) : PcStep G s s' t (.kernel n pipeup prms) (.markComplete n prms')
  | after {pc pc' n} (h : pc.nodeId = some n) (h' : pc'.after = some n) (hl : s'.lock = s.lock) : PcStep G s s' t pc pc'
  | lock {k k'} (hl : s.lock = none) (hl' : s'.lock = some t) : PcStep G s s' t (.scheduleGraph k) (.schedule k')
  | start {p left} (hf : s.freeQ = p :: s'.freeQ) (ht : s'.trace = .scheduled p :: s.trace) (hl : s'.lock = s.lock) :
      PcStep G s s' t (.schedule (left + 1)) (.clearState p left 0)
  | clear {p left i} (hi : i < G.numNodes) (hx : (s'.shm.node ⟨i, p⟩).isExecuted = false) (hl : s'.lock = s.lock) :
      PcStep G s s' t (.clearState p left i) (.clearState p left (i + 1))
  | cleared {p left i} (hi : ¬ i < G.numNodes) (hl : s'.lock = s.lock) :
      PcStep G s s' t (.clearState p left i) (.scheduleHeads p left 0)
  | head {p left i} (hl : s'.lock = s.lock) : PcStep G s s' t (.scheduleHeads p left i) (.scheduleHeads p left (i + 1))
  | headsEnd {p left i} (hl : s'.lock = s.lock) : PcStep G s s' t (.scheduleHeads p left i) (.schedule left)

/-- Every step moves its thread so, or leaves it where it stands. -/
theorem pcStep_of_step {G : Graph} {s s' : Sys} {a : Act} (hs : Step G s a s') :
    (s.pc a.tid = .idle ∧ s'.pc a.tid = .idle ∧ s'.lock = s.lock) ∨ PcStep G s s' a.tid (s.pc a.tid) (s'.pc a.tid) := by
  cases hs with
  | enqueueFailed hpc => exact .inl ⟨hpc, hpc, rfl⟩
  | dequeued hpc => exact .inl ⟨hpc, hpc, rfl⟩
  | takeNode hpc hq =>
    refine .inr ?_
    simp only [Act.tid, Sys.setPc, Function.update_self, hpc]
    exact .take rfl (by rw [hq]; exact List.mem_cons_self) rfl
  | takeCallback pc hpc hq hc =>
    refine .inr ?_
    simp only [Act.tid, Sys.setPc, Function.update_self, hpc]
    obtain ⟨rfl, N, hN, ho⟩ | ⟨rfl, -⟩ := hc
    · exact .collect rfl (by rw [hq]; exact List.mem_cons_self) hN ho rfl
    · exact .rest rfl rfl
  | acquirePrm hpc hN hP hq hD =>
    refine .inr ?_
    unfold afterAcquire
    split
    · simp only [Act.tid, Sys.setPc, Sys.log, Function.update_self, hpc]
      exact .rest rfl rfl
    · split <;> simp only [Act.tid, Sys.setPc, Sys.log, Function.update_self, hpc] <;>
        exact .work rfl rfl (fun _ _ h => by cases h) (fun _ _ h => by cases h) rfl
  | acquireInvalid hpc hN hP hall =>
    refine .inr ?_
    simp only [Act.tid, Sys.setPc, Sys.setNode, Function.update_self, hpc]
    split
    · exact .rest rfl rfl
    · exact .work rfl rfl (fun _ _ h => by cases h) (fun _ _ h => by cases h) rfl
  | completed hpc hl hc =>
    refine .inr ?_
    simp only [Act.tid, Sys.setPc, Function.update_self, hpc]
    split <;> exact .rest rfl rfl
  | notCompleted hpc hl hc =>
    refine .inr ?_
    simp only [Act.tid, Sys.setPc, Function.update_self, hpc]
    exact .rest rfl rfl
  | notExecuted hpc hN hx =>
    refine .inr ?_
    simp only [Act.tid, Sys.setPc, Function.update_self, hpc]
    exact .pass hx rfl
  | kernel hpc hN hk =>
    refine .inr ?_
    simp only [Act.tid, Sys.setPc, Sys.log, Function.update_self, hpc]
    exact .execute hN rfl rfl
  | lock hpc hl =>
    refine .inr ?_
    simp only [Act.tid, Sys.setPc, Function.update_self, hpc]
    exact .lock hl rfl
  | scheduled hpc hf =>
    refine .inr ?_
    simp only [Act.tid, Sys.setPc, Function.update_self, hpc]
    exact .start hf rfl rfl
  | unlock hpc hf =>
    refine .inr ?_
    simp only [Act.tid, scheduleEnd, Sys.setPc, Function.update_self, hpc]
    exact .unlock rfl
  | clearState hpc hi =>
    refine .inr ?_
    simp only [Act.tid, Sys.setPc, Function.update_self, hpc]
    exact .clear hi (by simp [Sys.setNode]) rfl
  | cleared hpc hi =>
    refine .inr ?_
    simp only [Act.tid, Sys.setPc, Function.update_self, hpc]
    exact .cleared hi rfl
  | headsEnd hpc hh =>
    refine .inr ?_
    simp only [Act.tid, Sys.setPc, Function.update_self, hpc]
    exact .headsEnd rfl
  | scheduleHead hpc hh =>
    refine .inr ?_
    simp only [Act.tid, Sys.setPc, Function.update_self, hpc]
    exact .head rfl
  | _ =>
    refine .inr ?_
    simp only [Act.tid, Sys.setPc, Sys.log, Function.update_self, *]
    first
      | exact .rest rfl rfl
      | exact .work rfl rfl (fun _ _ h => by cases h) (fun _ _ h => by cases h) rfl
      | exact .after rfl rfl rfl

/-- The host goes from node to node. -/
theorem clearing_of_step {G : Graph} {s s' : Sys} {a : Act} (hs : Step G s a s') {p i : Nat} (h : Clearing s' p i) :
    (∃ t left, t ≠ a.tid ∧ s.pc t = .clearState p left i) ∨
    (i = 0 ∧ s.freeQ = p :: s'.freeQ ∧ s'.trace = .scheduled p :: s.trace) ∨
    ∃ left j, s.pc a.tid = .clearState p left j ∧ j < G.numNodes ∧ i = j + 1 ∧
      (s'.shm.node ⟨j, p⟩).isExecuted = false := by
  obtain ⟨t, left, ht⟩ := h
  by_cases hta : t = a.tid
  · subst hta
    rcases pcStep_of_step hs with ⟨-, hp, -⟩ | hp
    · rw [hp] at ht
      cases ht
    · rw [ht] at hp
      generalize hpc : s.pc a.tid = pc at hp
      cases hp with
      | rest h => cases h
      | work h h' => cases h'
      | after h h' => cases h'
      | start hf htr => exact .inr (.inl ⟨rfl, hf, htr⟩)
      | clear hi hx => exact .inr (.inr ⟨_, _, rfl, hi, rfl, hx⟩)
  · rw [pc_of_step_ne hs hta] at ht
    exact .inl ⟨t, left, hta, ht⟩

theorem clearState_of_step {G : Graph} {s s' : Sys} {a : Act} (hs : Step G s a s') {p left i : Nat}
    (h : s.pc a.tid = .clearState p left i) :
    (i < G.numNodes ∧ s'.pc a.tid = .clearState p left (i + 1)) ∨
      (¬ i < G.numNodes ∧ s'.pc a.tid = .scheduleHeads p left 0) := by
  cases hs with
  | clearState hpc hi =>
    rw [Act.tid, hpc] at h
    cases h
    exact .inl ⟨hi, Function.update_self _ _ _⟩
  | cleared hpc hi =>
    rw [Act.tid, hpc] at h
    cases h
    exact .inr ⟨hi, Function.update_self _ _ _⟩
  | noNode hpc =>
    rw [Act.tid] at h
    rw [h] at hpc
    cases hpc
  | _ => simp only [Act.tid, *, reduceCtorEq] at h

/-- The host ends the clearing when it has come to the last node. -/
theorem clearing_ends {G : Graph} {s s' : Sys} {a : Act} (hs : Step G s a s') {p i : Nat} (h : Clearing s p i)
    (h' : ∀ i, ¬ Clearing s' p i) : ∃ left, s.pc a.tid = .clearState p left i ∧ ¬ i < G.numNodes := by
  obtain ⟨t, left, ht⟩ := h
  by_cases hta : t = a.tid
  · subst hta
    rcases clearState_of_step hs ht with ⟨-, hp⟩ | ⟨hi, -⟩
    · exact absurd ⟨_, left, hp⟩ (h' (i + 1))
    · exact ⟨left, ht, hi⟩
  · exact absurd ⟨t, left, by rw [pc_of_step_ne hs hta, ht]⟩ (h' i)

/-- A thread comes to a node from its job queue. -/
theorem nodeId_of_step {G : Graph} {s s' : Sys} {a : Act} (hs : Step G s a s') {t : Tid} {n : NodeId}
    (h : (s'.pc t).nodeId = some n) :
    (s.pc t).nodeId = some n ∨ ∃ id, t = .target id ∧ .node n ∈ s.jobQ id := by
  by_cases hta : t = a.tid
  · subst hta
    rcases pcStep_of_step hs with ⟨-, hp, -⟩ | hp
    · rw [hp] at h
      cases h
    · generalize hpc' : s'.pc a.tid = pc' at hp h
      generalize hpc : s.pc a.tid = pc at hp
      cases hp with
      | rest h' => cases pc' <;> cases h' <;> cases h
      | take ht hj => cases h; exact .inr ⟨_, ht, hj⟩
      | pass => exact .inl h
      | work h₁ h₂ =>
        have := Pc.nodeId_of_works (Pc.works_of_passed h₂)
        rw [h] at this
        cases this
        exact .inl (Pc.nodeId_of_works (Pc.works_of_passed h₁))
      | execute => exact .inl h
      | after h₁ h₂ =>
        cases pc' <;> cases h₂ <;> cases h <;> exact .inl h₁
      | _ => cases h
  · rw [pc_of_step_ne hs hta] at h
    exact .inl h

/-- A thread goes past the look at a node's flag when it is clear. -/
theorem passed_of_step {G : Graph} {s s' : Sys} {a : Act} (hs : Step G s a s') {t : Tid} {n : NodeId}
    (h : (s'.pc t).passed = some n) :
    ((s.pc t).passed = some n ∧ ∀ prms, s.pc t = .markComplete n prms → t ≠ a.tid) ∨
    (s.pc t = .nodeExecute n ∧ (s.shm.node n).isExecuted = false) := by
  by_cases hta : t = a.tid
  · subst hta
    rcases pcStep_of_step hs with ⟨-, hp, -⟩ | hp
    · rw [hp] at h
      cases h
    · generalize hpc' : s'.pc a.tid = pc' at hp h
      generalize hpc : s.pc a.tid = pc at hp
      cases hp with
      | rest h' => cases pc' <;> cases h' <;> cases h
      | pass hx => cases h; exact .inr ⟨rfl, hx⟩
      | work h₁ h₂ h₀ =>
        rw [h] at h₂
        cases h₂
        exact .inl ⟨h₁, fun prms hp => absurd hp (h₀ _ _)⟩
      | execute => exact .inl ⟨h, fun prms hp => by cases hp⟩
      | after h₁ h₂ => cases pc' <;> cases h₂ <;> cases h
      | _ => cases h
  · rw [pc_of_step_ne hs hta] at h
    exact .inl ⟨h, fun _ _ => hta⟩

/-- A node is to be marked complete when its kernel has run. -/
theorem markComplete_of_step {G : Graph} {s s' : Sys} {a : Act} (hs : Step G s a s') {t : Tid} {n : NodeId}
    {prms : List Nat} (h : s'.pc t = .markComplete n prms) :
    (s.pc t = .markComplete n prms ∧ t ≠ a.tid) ∨ ∃ prms₀, s'.trace = .executed n false prms₀ :: s.trace := by
  by_cases hta : t = a.tid
  · subst hta
    rcases pcStep_of_step hs with ⟨-, hp, -⟩ | hp
    · rw [hp] at h
      cases h
    · rw [h] at hp
      generalize hpc : s.pc a.tid = pc at hp
      cases hp with
      | rest h' => cases h'
      | work _ _ _ hm => exact absurd rfl (hm _ _)
      | execute _ ht => exact .inr ⟨_, ht⟩
      | after h₁ h₂ => cases h₂
  · rw [pc_of_step_ne hs hta] at h
    exact .inl ⟨h, hta⟩

/-- The step of a thread that is to mark a node complete does so. -/
theorem isExecuted_of_markComplete {G : Graph} {s s' : Sys} {a : Act} (hs : Step G s a s') {n : NodeId} {N : NodeDesc}
    {prms : List Nat} (h : s.pc a.tid = .markComplete n prms) (hN : G.table.node n = some N) :
    (s'.shm.node n).isExecuted = true := by
  cases hs with
  | markComplete hpc =>
    rw [Act.tid, hpc] at h
    cases h
    simp [Sys.setPc, Sys.log, ownTargetNodeDescNodeMarkComplete]
  | noNode hpc hN' =>
    rw [Act.tid] at h
    rw [h] at hpc
    cases hpc
    rw [hN] at hN'
    cases hN'
  | _ => simp only [Act.tid, *, reduceCtorEq] at h

/-- The lock is held by the thread in `ownGraphScheduleGraph`, and the free instances are those without a run. -/
structure Scheduling (G : Graph) (s : Sys) : Prop where
  lock : ∀ t, (s.pc t).schedules = true → s.lock = some t
  nodup : s.freeQ.Nodup
  lt : ∀ p ∈ s.freeQ, p < G.pipelineDepth
  free_iff : ∀ p < G.pipelineDepth, p ∈ s.freeQ ↔ live p s.trace = false
  pipe : ∀ t p, (s.pc t).schedulesPipe = some p → p < G.pipelineDepth ∧ live p s.trace = true

theorem lock_kept {G : Graph} {s s' : Sys} {a : Act} (h : ∀ t, (s.pc t).schedules = true → s.lock = some t)
    (hs : Step G s a s') : ∀ t, (s'.pc t).schedules = true → s'.lock = some t := by
  intro t ht
  by_cases hta : t = a.tid
  · subst hta
    rcases pcStep_of_step hs with ⟨-, hp, -⟩ | hp
    · rw [hp] at ht
      cases ht
    · generalize hpc' : s'.pc a.tid = pc' at hp ht
      generalize hpc : s.pc a.tid = pc at hp
      have hold : pc.schedules = true → s.lock = some a.tid := fun hs => h _ (by rw [hpc]; exact hs)
      cases hp with
      | rest h => cases pc' <;> cases h <;> cases ht
      | work h h' => cases pc' <;> cases h' <;> cases ht
      | after h h' => cases pc' <;> cases h' <;> cases ht
      | lock hl hl' => exact hl'
      | unlock | take | collect | pass | execute => cases ht
      | start hf htr hl => rw [hl]; exact hold rfl
      | clear hi hx hl => rw [hl]; exact hold rfl
      | cleared hi hl => rw [hl]; exact hold rfl
      | head hl => rw [hl]; exact hold rfl
      | headsEnd hl => rw [hl]; exact hold rfl
  · rw [pc_of_step_ne hs hta] at ht
    have hlt := h t ht
    rcases pcStep_of_step hs with ⟨-, -, hl⟩ | hp
    · rw [hl, hlt]
    · generalize hpc' : s'.pc a.tid = pc' at hp
      generalize hpc : s.pc a.tid = pc at hp
      cases hp with
      | lock hl => rw [hl] at hlt; cases hlt
      | unlock hl =>
        have := h a.tid (by rw [hpc]; rfl)
        rw [this] at hlt
        exact absurd (Option.some.inj hlt).symm hta
      | _ => rw [‹s'.lock = s.lock›, hlt]

end Tiovx
