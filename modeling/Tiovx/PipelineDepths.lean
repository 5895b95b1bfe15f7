import Tiovx.PipelineArrays
/-!
# PipelineDepths — which verifications leave every array as long as the depth says

A verification that succeeds leaves the arrays right just where the depth it comes to is positive, no node was given
descriptors for another depth before, and no queue was created for another depth.
-/
namespace Tiovx

open StepSystem

/-- The arrays of a node that was given no descriptors yet, or was; a command refers to a descriptor there is. -/
structure PipeNode.Kept (N : PipeNode) : Prop where
  first : N.pipelineDepth = 1 → ∀ p, N.objDesc p = true ↔ p = 0
  cmd : ∀ p, N.objDescCmd p = true → N.objDesc p = true

/-- The arrays of a node are filled for the depth `D`. -/
structure PipeNode.FilledFor (N : PipeNode) (D : Nat) : Prop where
  objDesc : ∀ p, N.objDesc p = true ↔ p < D
  objDescCmd : ∀ p, N.objDescCmd p = true ↔ p < D

/-- The arrays of a queue are filled for the depth `D`; a queue that the user enqueues to has commands. -/
structure PipeQueue.FilledFor (Q : PipeQueue) (D : Nat) : Prop where
  objDesc : ∀ p, Q.objDesc p = true ↔ p < D
  objDescCmd : ∀ p, Q.objDescCmd p = true ↔ Q.enableUserQueueing = true ∧ p < D

namespace PipelinedGraph

/-- What holds of the arrays in any run. -/
structure ArraysKept (s : PipelinedGraph) : Prop where
  nodes : ∀ N ∈ s.nodes, N.Kept
  queues : ∀ Q ∈ s.queues, Q.FilledFor Q.pipelineDepth

/-- **What a verification is to leave.** -/
structure PipelinesReady (s : PipelinedGraph) : Prop where
  pos : 1 ≤ s.pipelineDepth
  le_max : s.pipelineDepth ≤ graphMaxPipelineDepth
  pipeup : ∀ N ∈ s.nodes, s.numPipeupBufs N.kernel ≤ s.pipelineDepth
  nodes : ∀ N ∈ s.nodes, N.FilledFor s.pipelineDepth
  graph : ∀ p, s.objDesc p = true ↔ p < s.pipelineDepth
  queues : ∀ Q ∈ s.queues, Q.FilledFor s.pipelineDepth

/-- The depths that a verification takes the largest of: that given, and what the kernels ask for. -/
def wantedDepths (V : PipeVerification) (s : PipelinedGraph) : Set Nat :=
  {d | d = givenDepth V s ∨ ∃ N ∈ s.nodes, d = s.numPipeupBufs N.kernel}

/-- The condition on a verification: the largest of the depths, `D`, is positive, no node was given descriptors for another
one, and there is no queue for another one. -/
structure PipelinesFit (V : PipeVerification) (s : PipelinedGraph) (D : Nat) : Prop where
  greatest : IsGreatest (wantedDepths V s) D
  pos : 1 ≤ D
  nodes : ∀ N ∈ s.nodes, N.pipelineDepth = 1 ∨ ∀ p, N.objDesc p = true ↔ p < D
  queues : ∀ Q ∈ s.queues, Q.pipelineDepth = D

section Forall₂

variable {α β γ : Type} {R : α → β → Prop} {S : β → γ → Prop}

theorem forall₂_trans {l : List α} {m : List β} {n : List γ} (h : List.Forall₂ R l m) (h' : List.Forall₂ S m n) :
    List.Forall₂ (fun a c => ∃ b, R a b ∧ S b c) l n := by
  induction h generalizing n with
  | nil =>
    cases h'
    exact .nil
  | cons hab _ ih =>
    cases h' with
    | cons hbc hrest => exact .cons ⟨_, hab, hbc⟩ (ih hrest)

theorem exists_right_of_mem {l : List α} {m : List β} (h : List.Forall₂ R l m) {a : α} (ha : a ∈ l) : ∃ b ∈ m, R a b := by
  induction h with
  | nil => exact absurd ha List.not_mem_nil
  | @cons a' b l m hab _ ih =>
    rcases List.mem_cons.1 ha with rfl | ha
    · exact ⟨b, List.mem_cons_self, hab⟩
    · obtain ⟨c, hc, hac⟩ := ih ha
      exact ⟨c, List.mem_cons_of_mem b hc, hac⟩

end Forall₂

section Nodes

variable {N N' : PipeNode} {alloc : Nat → Bool} {depth p : Nat} {b : Bool}

theorem alloc_kept (h : N.Kept) (ha : ownNodeAllocObjDescForPipeline alloc depth N = some (b, N')) : N'.Kept := by
  unfold ownNodeAllocObjDescForPipeline at ha
  split at ha
  · rename_i hc
    split at ha
    · cases ha
      refine ⟨fun h1 => absurd h1 (Nat.ne_of_gt hc.2), fun p hp => ?_⟩
      obtain rfl := (h.first hc.1 p).1 (h.cmd p hp)
      show (if 0 < 0 ∧ 0 < depth then alloc 0 else N.objDesc 0) = true
      rw [if_neg (fun hlt => Nat.lt_irrefl 0 hlt.1)]
      exact h.cmd 0 hp
    · cases ha
  · cases ha
    exact h

theorem command_kept (h : N.Kept) (hc : ownNodeCreateUserCallbackCommand b p N = some (b', N')) : N'.Kept := by
  unfold ownNodeCreateUserCallbackCommand at hc
  split at hc
  · split at hc
    · split at hc
      · rename_i hdesc
        cases hc
        refine ⟨h.first, fun q hq => ?_⟩
        by_cases hqp : q = p
        · exact hqp ▸ hdesc
        · exact h.cmd q ((Function.update_of_ne hqp true N.objDescCmd).symm.trans hq)
      · cases hc
    · cases hc
      exact h
  · cases hc
    exact h

theorem commands_kept {l : List Nat} (h : N.Kept) (hc : createCommands alloc l N = some (b, N')) : N'.Kept := by
  induction l generalizing N with
  | nil =>
    cases hc
    exact h
  | cons p l ih =>
    unfold createCommands at hc
    split at hc
    · cases hc
    · rename_i N₁ h1
      cases hc
      exact command_kept h h1
    · rename_i N₁ h1
      exact ih (command_kept h h1) hc

/-- Where all commands are created the array is filled as far as the list says, and nothing else changes. -/
theorem commands_ok {l : List Nat} (hl : ∀ p ∈ l, p < graphMaxPipelineDepth)
    (hc : createCommands alloc l N = some (true, N')) :
    N'.kernel = N.kernel ∧ N'.objDesc = N.objDesc ∧ ∀ p, N'.objDescCmd p = true ↔ N.objDescCmd p = true ∨ p ∈ l := by
  induction l generalizing N with
  | nil =>
    cases hc
    exact ⟨rfl, rfl, fun p => ⟨.inl, fun h => h.resolve_right List.not_mem_nil⟩⟩
  | cons p l ih =>
    unfold createCommands at hc
    split at hc
    · cases hc
    · cases hc
    · rename_i N₁ h1
      obtain ⟨hk, hd, hcmd⟩ := ih (fun q hq => hl q (List.mem_cons_of_mem p hq)) hc
      have hstep : N₁.kernel = N.kernel ∧ N₁.objDesc = N.objDesc ∧
          ∀ q, N₁.objDescCmd q = true ↔ N.objDescCmd q = true ∨ q = p := by
        unfold ownNodeCreateUserCallbackCommand at h1
        split at h1
        · split at h1
          · split at h1
            · cases h1
              refine ⟨rfl, rfl, fun q => ?_⟩
              by_cases hqp : q = p
              · simp [hqp]
              · simp [hqp]
            · cases h1
          · cases h1
        · rename_i hno
          cases h1
          have hp : N.objDescCmd p = true := by
            by_contra hf
            exact hno ⟨hl p List.mem_cons_self, Bool.eq_false_of_not_eq_true hf⟩
          refine ⟨rfl, rfl, fun q => ⟨.inl, fun hq => ?_⟩⟩
          rcases hq with hq | rfl
          · exact hq
          · exact hp
      refine ⟨hk.trans hstep.1, hd.trans hstep.2.1, fun q => ?_⟩
      rw [hcmd q, hstep.2.2 q, List.mem_cons, or_assoc]

/-- Where all descriptors of a node are allocated, it has those of the depth, or those it had. -/
theorem alloc_ok (ha : ownNodeAllocObjDescForPipeline alloc depth N = some (true, N')) :
    N'.kernel = N.kernel ∧ N'.objDescCmd = N.objDescCmd ∧ ∀ p, N'.objDesc p = true ↔
      (N.pipelineDepth = 1 ∧ 0 < p ∧ p < depth) ∨ (¬ (N.pipelineDepth = 1 ∧ 0 < p ∧ p < depth) ∧ N.objDesc p = true) := by
  unfold ownNodeAllocObjDescForPipeline at ha
  split at ha
  · rename_i hc
    split at ha
    · simp only [Option.some.injEq, Prod.mk.injEq] at ha
      obtain ⟨hall, rfl⟩ := ha
      refine ⟨rfl, rfl, fun p => ?_⟩
      show (if 0 < p ∧ p < depth then alloc p else N.objDesc p) = true ↔ _
      by_cases hp : 0 < p ∧ p < depth
      · have hal := List.all_eq_true.1 hall p (List.mem_range.2 hp.2)
        have hne : (p == 0) = false := beq_eq_false_iff_ne.2 (Nat.ne_of_gt hp.1)
        rw [hne, Bool.false_or] at hal
        rw [if_pos hp]
        exact ⟨fun _ => .inl ⟨hc.1, hp⟩, fun _ => hal⟩
      · rw [if_neg hp]
        exact ⟨fun h => .inr ⟨fun hx => hp hx.2, h⟩, fun h => (h.resolve_left (fun hx => hp hx.2)).2⟩
    · cases ha
  · rename_i hc
    cases ha
    refine ⟨rfl, rfl, fun p => ⟨fun h => ?_, fun h => ?_⟩⟩
    · exact .inr ⟨fun hx => hc ⟨hx.1, Nat.lt_of_le_of_lt hx.2.1 hx.2.2⟩, h⟩
    · rcases h with hx | hx
      · exact absurd ⟨hx.1, Nat.lt_of_le_of_lt hx.2.1 hx.2.2⟩ hc
      · exact hx.2

/-- `N'` is the node `N` with what a verification that succeeds gives it. -/
def NodeVerified (D : Nat) (N N' : PipeNode) : Prop :=
  ∃ N₁ alloc allocCmd, ownNodeAllocObjDescForPipeline alloc D N = some (true, N₁) ∧
    createCommands allocCmd (List.range D) N₁ = some (true, N')

/-- **A node that is verified has its arrays filled just where it had no other descriptors before.** -/
theorem filledFor_iff {D : Nat} (h : N.Kept) (hpos : 1 ≤ D) (hmax : D < graphMaxPipelineDepth)
    (hv : NodeVerified D N N') :
    N'.FilledFor D ↔ N.pipelineDepth = 1 ∨ ∀ p, N.objDesc p = true ↔ p < D := by
  obtain ⟨N₁, alloc, allocCmd, ha, hc⟩ := hv
  obtain ⟨_, hcmd1, hdesc1⟩ := alloc_ok ha
  obtain ⟨_, hdesc', hcmd'⟩ := commands_ok (fun p hp => Nat.lt_trans (List.mem_range.1 hp) hmax) hc
  have hdesc : (∀ p, N'.objDesc p = true ↔ p < D) ↔ N.pipelineDepth = 1 ∨ ∀ p, N.objDesc p = true ↔ p < D := by
    rw [hdesc']
    by_cases h1 : N.pipelineDepth = 1
    · refine ⟨fun _ => .inl h1, fun _ p => ?_⟩
      rw [hdesc1 p, h.first h1 p]
      omega
    · refine ⟨fun hall => .inr (fun p => ?_), fun hall p => ?_⟩
      · rw [← hall p, hdesc1 p]
        exact ⟨fun hp => .inr ⟨fun hx => h1 hx.1, hp⟩, fun hp => (hp.resolve_left (fun hx => h1 hx.1)).2⟩
      · rw [hdesc1 p, ← hall.resolve_left h1 p]
        exact ⟨fun hp => (hp.resolve_left (fun hx => h1 hx.1)).2, fun hp => .inr ⟨fun hx => h1 hx.1, hp⟩⟩
  rw [← hdesc]
  refine ⟨fun hf => hf.objDesc, fun hall => ⟨hall, fun p => ?_⟩⟩
  rw [hcmd' p, List.mem_range]
  refine ⟨fun hp => hp.elim (fun hx => ?_) id, .inr⟩
  rw [hcmd1] at hx
  exact (hall p).1 (hdesc' ▸ (alloc_kept h ha).cmd p (hcmd1.symm ▸ hx))

end Nodes

section Stages

variable {s t : PipelinedGraph} {V : PipeVerification}

theorem forNodes_all {P : PipeNode → Prop} {f : Nat → PipeNode → Option (Bool × PipeNode)}
    (hf : ∀ i N b N', P N → f i N = some (b, N') → P N') :
    ∀ {l : List PipeNode} {i : Nat} {b : Bool} {l' : List PipeNode}, (∀ N ∈ l, P N) → forNodes f i l = some (b, l') →
      ∀ N ∈ l', P N
  | [], _, _, _, _, h => by
    cases h
    exact fun N hN => absurd hN List.not_mem_nil
  | N :: l, i, b, l', hP, h => by
    have hN := hP N List.mem_cons_self
    have hl : ∀ M ∈ l, P M := fun M hM => hP M (List.mem_cons_of_mem N hM)
    unfold forNodes at h
    split at h
    · cases h
    · rename_i N' hf1
      cases h
      exact List.forall_mem_cons.2 ⟨hf i N _ N' hN hf1, hl⟩
    · rename_i N' hf1
      obtain ⟨⟨c, m⟩, hrest, hR⟩ := Option.map_eq_some_iff.1 h
      cases hR
      exact List.forall_mem_cons.2 ⟨hf i N _ N' hN hf1, forNodes_all hf hl hrest⟩

theorem forNodes_ok {f : Nat → PipeNode → Option (Bool × PipeNode)} :
    ∀ {l : List PipeNode} {i : Nat} {l' : List PipeNode}, forNodes f i l = some (true, l') →
      List.Forall₂ (fun N N' => ∃ i, f i N = some (true, N')) l l'
  | [], _, _, h => by
    cases h
    exact .nil
  | N :: l, i, l', h => by
    unfold forNodes at h
    split at h
    · cases h
    · cases h
    · rename_i N' hf1
      obtain ⟨⟨c, m⟩, hrest, hR⟩ := Option.map_eq_some_iff.1 h
      cases hR
      exact .cons ⟨i, hf1⟩ (forNodes_ok hrest)

theorem nodesStage_ok {f : PipelinedGraph → Nat → PipeNode → Option (Bool × PipeNode)} (h : nodesStage f s = some (.ok t)) :
    ∃ l, t = { s with nodes := l } ∧ List.Forall₂ (fun N N' => ∃ i, f s i N = some (true, N')) s.nodes l := by
  obtain ⟨⟨b, l⟩, hl, hR⟩ := Option.map_eq_some_iff.1 h
  cases b with
  | false => cases hR
  | true =>
    cases hR
    exact ⟨l, rfl, forNodes_ok hl⟩

theorem createQueues_ok {l : List QueueCreation} (h : createQueues l s = some (.ok t)) :
    ∃ new, t = { s with queues := s.queues ++ new } ∧ ∀ Q ∈ new, Q.FilledFor s.pipelineDepth := by
  induction l generalizing s with
  | nil =>
    obtain rfl := (PipeStage.check_ok h).2
    refine ⟨[], ?_, fun Q hQ => absurd hQ List.not_mem_nil⟩
    rw [List.append_nil]
  | cons C l ih =>
    obtain ⟨u, hu, ht⟩ := PipeStage.andThen_ok h
    unfold tivxDataRefQueueCreate at hu
    split at hu
    · split at hu
      · cases hu
        obtain ⟨new, rfl, hnew⟩ := ih ht
        refine ⟨_ :: new, by rw [List.append_assoc]; rfl, List.forall_mem_cons.2 ⟨⟨fun p => ?_, fun p => ?_⟩, hnew⟩⟩
        · exact decide_eq_true_iff
        · show (C.enableUserQueueing && decide (p < s.pipelineDepth)) = true ↔ _
          rw [Bool.and_eq_true, decide_eq_true_iff]
      · cases hu
    · cases hu

theorem allocGraph_ok {alloc : Nat → Bool} (h : ownGraphAllocAndEnqueueObjDescForPipeline alloc s = some (.ok t)) :
    s.pipelineDepth < graphMaxPipelineDepth ∧ t = { s with objDesc := fun p => decide (p < s.pipelineDepth) } := by
  unfold ownGraphAllocAndEnqueueObjDescForPipeline at h
  split at h
  · cases h
  · rename_i hd
    split at h
    · cases h
      exact ⟨Nat.lt_of_not_le hd, rfl⟩
    · cases h

/-- The loop over the nodes takes the largest depth. -/
theorem foldl_isGreatest (f : PipeNode → Nat) (l : List PipeNode) (d : Nat) :
    IsGreatest {x | x = d ∨ ∃ N ∈ l, x = f N} (l.foldl (fun d N => if d ≤ f N then f N else d) d) := by
  induction l generalizing d with
  | nil => exact ⟨.inl rfl, fun x hx => hx.elim Nat.le_of_eq (fun ⟨_, hN, _⟩ => absurd hN List.not_mem_nil)⟩
  | cons N l ih =>
    obtain ⟨hmem, hub⟩ := ih (if d ≤ f N then f N else d)
    rw [List.foldl_cons]
    have hd : d ≤ (if d ≤ f N then f N else d) := by split <;> omega
    have hN : f N ≤ (if d ≤ f N then f N else d) := by split <;> omega
    refine ⟨?_, fun x hx => ?_⟩
    · rcases hmem with heq | ⟨M, hM, heq⟩
      · rw [heq]
        by_cases hle : d ≤ f N
        · rw [if_pos hle]
          exact .inr ⟨N, List.mem_cons_self, rfl⟩
        · rw [if_neg hle]
          exact .inl rfl
      · exact .inr ⟨M, List.mem_cons_of_mem N hM, heq⟩
    · rcases hx with rfl | ⟨M, hM, rfl⟩
      · exact Nat.le_trans hd (hub (.inl rfl))
      · rcases List.mem_cons.1 hM with rfl | hM
        · exact Nat.le_trans hN (hub (.inl rfl))
        · exact hub (.inr ⟨M, hM, rfl⟩)

/-- What a verification that succeeds did. -/
theorem verify_ok (h : vxVerifyGraph V s = some (.ok t)) :
    IsGreatest (wantedDepths V s) t.pipelineDepth ∧ t.pipelineDepth < graphMaxPipelineDepth ∧
      t.numPipeupBufs = s.numPipeupBufs ∧ t.objDesc = (fun p => decide (p < t.pipelineDepth)) ∧
      List.Forall₂ (NodeVerified t.pipelineDepth) s.nodes t.nodes ∧
      ∃ new, t.queues = s.queues ++ new ∧ ∀ Q ∈ new, Q.FilledFor t.pipelineDepth := by
  obtain ⟨u, h, hverified⟩ := PipeStage.andThen_ok h
  obtain ⟨u₉, h, hfin⟩ := PipeStage.andThen_ok h
  obtain ⟨u₈, h, hgraph⟩ := PipeStage.andThen_ok h
  obtain ⟨u₇, h, hconn⟩ := PipeStage.andThen_ok h
  obtain ⟨u₆, h, hqueues⟩ := PipeStage.andThen_ok h
  obtain ⟨u₅, h, hcmds⟩ := PipeStage.andThen_ok h
  obtain ⟨u₄, h, hlists⟩ := PipeStage.andThen_ok h
  obtain ⟨u₃, h, hnodes⟩ := PipeStage.andThen_ok h
  obtain ⟨u₂, hprep, hdepth⟩ := PipeStage.andThen_ok h
  cases hverified
  obtain rfl := (PipeStage.check_ok hprep).2
  cases hdepth
  obtain ⟨l₁, rfl, hall₁⟩ := nodesStage_ok hnodes
  obtain rfl := (PipeStage.check_ok hlists).2
  obtain ⟨l₂, rfl, hall₂⟩ := nodesStage_ok hcmds
  obtain ⟨new, rfl, hnew⟩ := createQueues_ok hqueues
  obtain rfl := (PipeStage.check_ok hconn).2
  obtain ⟨hlt, rfl⟩ := allocGraph_ok hgraph
  obtain rfl := (PipeStage.check_ok hfin).2
  refine ⟨foldl_isGreatest (fun N => s.numPipeupBufs N.kernel) s.nodes (givenDepth V s), hlt, rfl, rfl, ?_, new, rfl, hnew⟩
  exact (forall₂_trans hall₁ hall₂).imp (fun N N' ⟨N₁, ⟨i, ha⟩, ⟨j, hc⟩⟩ => ⟨N₁, V.nodeAlloc i, V.cmdAlloc j, ha, hc⟩)

end Stages

section Runs

variable {s t : PipelinedGraph} {V : PipeVerification}

theorem keeps_nodesStage {f : PipelinedGraph → Nat → PipeNode → Option (Bool × PipeNode)}
    (hf : ∀ s i N b N', N.Kept → f s i N = some (b, N') → N'.Kept) : PipeStage.Keeps ArraysKept (nodesStage f) := by
  intro s r hs h
  obtain ⟨⟨b, l⟩, hl, rfl⟩ := Option.map_eq_some_iff.1 h
  have hall := forNodes_all (hf s) hs.nodes hl
  cases b <;> exact ⟨hall, hs.queues⟩

theorem keeps_createQueues (l : List QueueCreation) : PipeStage.Keeps ArraysKept (createQueues l) := by
  induction l with
  | nil => exact PipeStage.keeps_check true
  | cons C l ih =>
    refine PipeStage.Keeps.andThen (fun s r hs h => ?_) ih
    unfold tivxDataRefQueueCreate at h
    split at h
    · split at h
      · cases h
        refine ⟨hs.nodes, fun Q hQ => ?_⟩
        rcases List.mem_append.1 hQ with hold | hnew
        · exact hs.queues Q hold
        · obtain rfl := List.mem_singleton.1 hnew
          refine ⟨fun p => decide_eq_true_iff, fun p => ?_⟩
          show (C.enableUserQueueing && decide (p < s.pipelineDepth)) = true ↔ _
          rw [Bool.and_eq_true, decide_eq_true_iff]
      · cases h
        exact hs
    · cases h

theorem keeps_allocGraph (alloc : Nat → Bool) :
    PipeStage.Keeps ArraysKept (ownGraphAllocAndEnqueueObjDescForPipeline alloc) := by
  intro s r hs h
  unfold ownGraphAllocAndEnqueueObjDescForPipeline at h
  split at h
  · cases h
    exact ⟨hs.nodes, hs.queues⟩
  · split at h <;>
    · cases h
      exact ⟨hs.nodes, hs.queues⟩

/-- A verification keeps what holds of the arrays, whether it succeeds or not. -/
theorem keeps_verify (V : PipeVerification) : PipeStage.Keeps ArraysKept (vxVerifyGraph V) := by
  intro s r hs h
  have hstart : ArraysKept { s with verified := false } := ⟨hs.nodes, hs.queues⟩
  have hset : PipeStage.Keeps ArraysKept (setPipelineDepth V) := by
    intro u r hu h
    cases h
    exact ⟨hu.nodes, hu.queues⟩
  have hlast : PipeStage.Keeps ArraysKept (fun s => some (.ok { s with verified := true })) := by
    intro u r hu h
    cases h
    exact ⟨hu.nodes, hu.queues⟩
  have halloc : PipeStage.Keeps ArraysKept
      (nodesStage (fun s i => ownNodeAllocObjDescForPipeline (V.nodeAlloc i) s.pipelineDepth)) :=
    keeps_nodesStage (fun _ _ _ _ _ hN ha => alloc_kept hN ha)
  have hcmds : PipeStage.Keeps ArraysKept
      (nodesStage (fun s i => createCommands (V.cmdAlloc i) (List.range s.pipelineDepth))) :=
    keeps_nodesStage (fun _ _ _ _ _ hN hc => commands_kept hN hc)
  have hchain := (PipeStage.keeps_check V.prepares).andThen hset |>.andThen halloc
    |>.andThen (PipeStage.keeps_check V.lists) |>.andThen hcmds
    |>.andThen (keeps_createQueues V.queues) |>.andThen (PipeStage.keeps_check V.connects)
    |>.andThen (keeps_allocGraph V.objDescAlloc) |>.andThen (PipeStage.keeps_check V.finishes) |>.andThen hlast
  exact hchain _ r hstart h

theorem arraysKept_removeNode {i : Nat} (hs : ArraysKept s) : ArraysKept (ownGraphRemoveNode i s) := by
  unfold ownGraphRemoveNode
  split
  · rename_i N hN
    refine ⟨fun M hM => ?_, hs.queues⟩
    rcases List.mem_or_eq_of_mem_set (List.dropLast_subset _ hM) with hmem | rfl
    · exact hs.nodes M hmem
    · exact hs.nodes M (List.mem_of_getLast? hN)
  · exact hs

theorem arraysKept_step {a : PipeAct} (hs : ArraysKept s) (h : pipeStep s a = some t) : ArraysKept t := by
  cases a with
  | addNode kernel =>
    cases h
    refine ⟨fun N hN => ?_, hs.queues⟩
    rcases List.mem_append.1 hN with hold | hnew
    · exact hs.nodes N hold
    · obtain rfl := List.mem_singleton.1 hnew
      exact ⟨fun _ p => beq_iff_eq, fun p hp => absurd hp Bool.false_ne_true⟩
  | removeNode i =>
    cases h
    split
    · exact arraysKept_removeNode hs
    · exact hs
  | setKernelAttribute kernel numPipeupBufs =>
    cases h
    exact ⟨hs.nodes, hs.queues⟩
  | setGraphAttribute d =>
    cases h
    split
    · exact ⟨hs.nodes, hs.queues⟩
    · exact hs
  | setGraphPipelineDepth d =>
    cases h
    split
    · exact ⟨hs.nodes, hs.queues⟩
    · exact hs
  | setGraphScheduleConfig queueing =>
    cases h
    split
    · exact ⟨hs.nodes, hs.queues⟩
    · exact hs
  | enableGraphStreaming =>
    cases h
    exact ⟨hs.nodes, hs.queues⟩
  | edit =>
    cases h
    exact ⟨hs.nodes, hs.queues⟩
  | verifyGraph V =>
    obtain ⟨r, hr, rfl⟩ := Option.map_eq_some_iff.1 h
    exact keeps_verify V s r hs hr

theorem arraysKept_of_reach (h : Reach pipeStep (fun _ _ => True) {} s) : ArraysKept s :=
  h.inv ⟨fun _ hN => absurd hN List.not_mem_nil, fun _ hQ => absurd hQ List.not_mem_nil⟩
    (fun _ _ _ hs _ ht => arraysKept_step hs ht)

/-- **In any run, a verification that succeeds leaves the depth and all arrays right just where the depth it comes to is
positive and neither a node nor a queue has descriptors for another depth.** -/
theorem pipelinesReady_iff (hr : Reach pipeStep (fun _ _ => True) {} s) (hv : vxVerifyGraph V s = some (.ok t)) :
    PipelinesReady t ↔ ∃ D, PipelinesFit V s D := by
  have hkept := arraysKept_of_reach hr
  obtain ⟨hgreatest, hlt, hbufs, hdesc, hnodes, new, hqueues, hnew⟩ := verify_ok hv
  have hkernel : ∀ N ∈ s.nodes, ∀ N', NodeVerified t.pipelineDepth N N' → N'.kernel = N.kernel := by
    rintro N _ N' ⟨N₁, alloc, allocCmd, ha, hc⟩
    exact (commands_ok (fun p hp => Nat.lt_trans (List.mem_range.1 hp) hlt) hc).1.trans (alloc_ok ha).1
  constructor
  · intro hready
    refine ⟨t.pipelineDepth, hgreatest, hready.pos, fun N hN => ?_, fun Q hQ => ?_⟩
    · obtain ⟨N', hN', hNN'⟩ := exists_right_of_mem hnodes hN
      exact (filledFor_iff (hkept.nodes N hN) hready.pos hlt hNN').1 (hready.nodes N' hN')
    · -- the array of an old queue is filled for two depths, which are the same then
      have hold := (hkept.queues Q hQ).objDesc
      have hnow := (hready.queues Q (hqueues ▸ List.mem_append_left new hQ)).objDesc
      have hle := fun p => (hold p).symm.trans (hnow p)
      have hQt := hle Q.pipelineDepth
      have htQ := hle t.pipelineDepth
      omega
  · rintro ⟨D, hfit⟩
    obtain rfl : D = t.pipelineDepth := hfit.greatest.unique hgreatest
    have hback := hnodes.flip
    refine ⟨hfit.pos, Nat.le_of_lt hlt, fun N' hN' => ?_, fun N' hN' => ?_, fun p => ?_, fun Q hQ => ?_⟩
    · obtain ⟨N, hN, hNN'⟩ := exists_right_of_mem hback hN'
      rw [hkernel N hN N' hNN', hbufs]
      exact hgreatest.2 (.inr ⟨N, hN, rfl⟩)
    · obtain ⟨N, hN, hNN'⟩ := exists_right_of_mem hback hN'
      exact (filledFor_iff (hkept.nodes N hN) hfit.pos hlt hNN').2 (hfit.nodes N hN)
    · rw [hdesc]
      exact decide_eq_true_iff
    · rw [hqueues] at hQ
      rcases List.mem_append.1 hQ with hold | hQnew
      · exact hfit.queues Q hold ▸ hkept.queues Q hold
      · exact hnew Q hQnew

/-- The graph that a verification leaves when it succeeds. -/
def verifiedGraph (V : PipeVerification) (s : PipelinedGraph) : Option PipelinedGraph :=
  match vxVerifyGraph V s with
  | some (.ok t) => some t
  | _ => none

theorem verifiedGraph_some (h : verifiedGraph V s = some t) : vxVerifyGraph V s = some (.ok t) := by
  unfold verifiedGraph at h
  split at h
  · rename_i u hu
    cases h
    exact hu
  · cases h

/-- A list of actions, carried out and followed by a verification that succeeds. -/
theorem exists_verified {β : Type} {l : List PipeAct} {f : PipelinedGraph → β} {x : β}
    (h : (exec pipeStep anyStep {} l).map (fun s => (verifiedGraph {} s).map f) = some (some x)) :
    ∃ s t, Reach pipeStep (fun _ _ => True) {} s ∧ vxVerifyGraph {} s = some (.ok t) ∧ f t = x := by
  obtain ⟨s, hs, hv⟩ := exists_reach_of_exec h
  obtain ⟨t, ht, hx⟩ := Option.map_eq_some_iff.1 hv
  exact ⟨s, t, hs.mono (fun _ _ _ => trivial), verifiedGraph_some ht, hx⟩

/-- A node that is added, and a depth that is set, once more with another depth. -/
def depthLowered : List PipeAct :=
  [.addNode 0, .setGraphPipelineDepth 3, .verifyGraph {}, .addNode 0, .setGraphPipelineDepth 2]

/-- A node whose kernel asks for no buffers, in a graph of depth zero. -/
def depthZero : List PipeAct := [.addNode 0, .setKernelAttribute 0 0, .setGraphPipelineDepth 0]

/-- A node keeps the descriptor of a pipeline there is no more, and a graph is verified with no pipeline. -/
theorem arrays_wrong :
    (∃ s t, Reach pipeStep (fun _ _ => True) {} s ∧ vxVerifyGraph {} s = some (.ok t) ∧ ¬ PipelinesReady t) ∧
      ∃ s t, Reach pipeStep (fun _ _ => True) {} s ∧ vxVerifyGraph {} s = some (.ok t) ∧ t.pipelineDepth = 0 := by
  constructor
  · have hrun : (exec pipeStep anyStep {} depthLowered).map (fun s => (verifiedGraph {} s).map
        (fun t => (t.pipelineDepth, t.nodes.map (fun N => N.objDesc 2)))) = some (some (2, [true, false])) := by decide +kernel
    obtain ⟨s, t, hs, ht, hx⟩ := exists_verified hrun
    refine ⟨s, t, hs, ht, fun hready => ?_⟩
    obtain ⟨hdepth, hlist⟩ := Prod.mk.inj hx
    have hmem : true ∈ t.nodes.map (fun N => N.objDesc 2) := hlist ▸ List.mem_cons_self
    obtain ⟨N, hN, hdesc⟩ := List.mem_map.1 hmem
    have hlt := ((hready.nodes N hN).objDesc 2).1 hdesc
    omega
  · exact exists_verified (l := depthZero) (by decide +kernel)

/-- A second node is added to a graph that was verified with the same depth. -/
def depthKept : List PipeAct := [.addNode 0, .setGraphPipelineDepth 3, .verifyGraph {}, .addNode 0]

theorem pipelinesReady_depthKept : ∃ s t, Reach pipeStep (fun _ _ => True) {} s ∧ vxVerifyGraph {} s = some (.ok t) ∧
    t.pipelineDepth = 3 ∧ (PipelinesReady t ↔ ∃ D, PipelinesFit {} s D) := by
  obtain ⟨s, t, hs, ht, hx⟩ := exists_verified (l := depthKept) (f := pipelineDepth) (x := 3) (by decide +kernel)
  exact ⟨s, t, hs, ht, hx, pipelinesReady_iff hs ht⟩

end Runs

end PipelinedGraph

end Tiovx
