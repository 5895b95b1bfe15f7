import Mathlib.Data.List.Nodup
import Tiovx.VerifyGraph
/-!
# Reverify — live kernels are marked

A graph with a live kernel is marked verified or marked for re-verification, so that the next `vxVerifyGraph` starts by
de-initialising the kernels.  The mark is lost when a graph that is already marked for re-verification is edited once
more, and when the kernels of a verified graph cannot be de-initialised.
-/
namespace Tiovx

open StepSystem

/-- The callbacks and commands of a de-initialisation all succeed. -/
structure Outcomes.Deinits (o : Outcomes) (K : NodeKernel) : Prop where
  deinitStatus : ∀ n ∈ K.replicas, o.deinitStatus n = .success
  memFree : o.memFree = .success
  delete : o.delete = .success

instance (o : Outcomes) (K : NodeKernel) : Decidable (o.Deinits K) :=
  decidable_of_iff ((∀ n ∈ K.replicas, o.deinitStatus n = .success) ∧ o.memFree = .success ∧ o.delete = .success)
    ⟨fun h => ⟨h.1, h.2.1, h.2.2⟩, fun h => ⟨h.deinitStatus, h.memFree, h.delete⟩⟩

theorem callDeinitializeAll_fst {o : Outcomes} : ∀ {l : List Nat} {st : VxStatus} {log : List KernelEvent},
    (∀ n ∈ l, o.deinitStatus n = .success) → (callDeinitializeAll o l st log).1 = st
  | [], _, _, _ => rfl
  | n :: l, st, log, h => by
    have hn := h n List.mem_cons_self
    rw [callDeinitializeAll, callDeinitializeAll_fst (fun m hm => h m (List.mem_cons_of_mem n hm)), hn]
    rfl

theorem callDeinitializeOnce_fst {K : NodeKernel} {o : Outcomes} {S : KernelState} (h : o.deinitStatus 0 = .success) :
    (callDeinitializeOnce K o S).1 = .success := by
  unfold callDeinitializeOnce
  split
  · exact h
  · rfl

theorem deinitTargetKernel_fst {K : NodeKernel} {o : Outcomes} {S : KernelState} (h : o.Deinits K) :
    (deinitTargetKernel K o S).1 = .success := by
  unfold deinitTargetKernel
  split
  · split
    · exact callDeinitializeAll_fst h.deinitStatus
    · rfl
  · rename_i hr
    refine callDeinitializeOnce_fst (h.deinitStatus 0 ?_)
    simp [NodeKernel.replicas, hr]

theorem deleteKernel_fst {K : NodeKernel} {o : Outcomes} {S : KernelState} (h : o.delete = .success) :
    (deleteKernel K o .success S).1 = .success := by
  unfold deleteKernel
  split
  · simp [h]
  · rfl

theorem freeLocalData_fst {o : Outcomes} {S : KernelState} (h : o.memFree = .success) :
    (freeLocalData o .success S).1 = .success := by
  unfold freeLocalData
  split
  · rfl
  · split
    · exact h
    · rfl

/-- A de-initialisation whose parts succeed succeeds. -/
theorem ownNodeKernelDeinit_fst {K : NodeKernel} {o : Outcomes} {S : KernelState} (h : o.Deinits K) :
    (ownNodeKernelDeinit K o S).1 = .success := by
  unfold ownNodeKernelDeinit
  cases ht : K.isTargetKernel with
  | true =>
    simp only [if_true, deinitTargetKernel_fst h]
    exact deleteKernel_fst h.delete
  | false =>
    have hc : (callDeinitializeOnce K o S).1 = .success :=
      callDeinitializeOnce_fst (h.deinitStatus 0 (by simp [NodeKernel.replicas, ht]))
    simp only [Bool.false_eq_true, if_false, hc]
    exact freeLocalData_fst h.memFree

/-- A de-initialisation that succeeds leaves no live kernel. -/
theorem isKernelCreated_ownNodeKernelDeinit {K : NodeKernel} {o : Outcomes} {S : KernelState}
    (h : (ownNodeKernelDeinit K o S).1 = .success) : (ownNodeKernelDeinit K o S).2.isKernelCreated = false := by
  unfold ownNodeKernelDeinit at h ⊢
  simp only at h ⊢
  rw [if_pos (.inl h)]

section Graph

variable {K : Nat → NodeKernel}

/-- Kernels that are not in the list are left alone. -/
theorem forNodes_of_notMem {f : Nat → KernelState → VxStatus × KernelState} :
    ∀ {l : List Nat} {k : Nat → KernelState} {n : Nat}, n ∉ l → (forNodes f l k).2 n = k n
  | [], _, _, _ => rfl
  | m :: l, k, n, h => by
    have hm : n ≠ m := fun hn => h (hn ▸ List.mem_cons_self)
    have hl : n ∉ l := fun hn => h (List.mem_cons_of_mem m hn)
    unfold forNodes
    split
    · rw [forNodes_of_notMem hl, Function.update_of_ne hm]
    · exact Function.update_of_ne hm _ _

/-- A loop without an error visits every node, in its state before the loop. -/
theorem forNodes_of_mem {f : Nat → KernelState → VxStatus × KernelState} :
    ∀ {l : List Nat} {k : Nat → KernelState}, l.Nodup → (forNodes f l k).1 = .success →
      ∀ n ∈ l, (f n (k n)).1 = .success ∧ (forNodes f l k).2 n = (f n (k n)).2
  | [], _, _, _, _, hn => by cases hn
  | m :: l, k, hl, h, n, hn => by
    rw [List.nodup_cons] at hl
    unfold forNodes at h ⊢
    split at h
    · rename_i hm
      rw [if_pos hm]
      rcases List.mem_cons.1 hn with rfl | hn
      · exact ⟨hm, by rw [forNodes_of_notMem hl.1, Function.update_self]⟩
      · have hne : n ≠ m := fun h => hl.1 (h ▸ hn)
        have ih := forNodes_of_mem hl.2 h n hn
        rw [Function.update_of_ne hne] at ih
        exact ih
    · rename_i hm
      exact absurd h hm

/-- A loop whose parts succeed succeeds. -/
theorem forNodes_fst {f : Nat → KernelState → VxStatus × KernelState} :
    ∀ {l : List Nat} {k : Nat → KernelState}, (∀ n ∈ l, ∀ S, (f n S).1 = .success) → (forNodes f l k).1 = .success
  | [], _, _ => rfl
  | m :: l, k, h => by
    unfold forNodes
    rw [if_pos (h m List.mem_cons_self _)]
    exact forNodes_fst (fun n hn => h n (List.mem_cons_of_mem m hn))

/-- **De-initialising the kernels of a graph**: where it succeeds, none is live. -/
theorem isKernelCreated_ownGraphNodeKernelDeinit {o : Nat → Outcomes} {l : List Nat} {k : Nat → KernelState}
    (hl : l.Nodup) (h : (ownGraphNodeKernelDeinit K o l k).1 = .success) {n : Nat} (hn : n ∈ l) :
    ((ownGraphNodeKernelDeinit K o l k).2 n).isKernelCreated = false := by
  obtain ⟨hs, he⟩ := forNodes_of_mem hl h n hn
  unfold ownGraphNodeKernelDeinit
  rw [he]
  exact isKernelCreated_ownNodeKernelDeinit hs

theorem ownGraphNodeKernelDeinit_fst {o : Nat → Outcomes} {l : List Nat} {k : Nat → KernelState}
    (h : ∀ n ∈ l, (o n).Deinits (K n)) : (ownGraphNodeKernelDeinit K o l k).1 = .success :=
  forNodes_fst (fun n hn _ => ownNodeKernelDeinit_fst (h n hn))

theorem mem_swapRemove {n m : Nat} {l : List Nat} (hl : l.Nodup) (hm : m ∈ swapRemove n l) : m ∈ l ∧ m ≠ n := by
  unfold swapRemove at hm
  rcases List.eq_nil_or_concat l with rfl | ⟨l, x, rfl⟩
  · cases hm
  rw [List.concat_eq_append] at hl hm ⊢
  simp only [List.getLast?_append, List.getLast?_singleton, Option.some_or, List.dropLast_concat] at hm
  rw [List.nodup_append] at hl
  obtain ⟨-, -, hx⟩ := hl
  split at hm
  · rename_i hxn
    exact ⟨List.mem_append_left _ hm, fun h => hx m hm x List.mem_cons_self (h.trans hxn.symm)⟩
  · rename_i hxn
    obtain ⟨k, hk, rfl⟩ := List.mem_map.1 hm
    split
    · exact ⟨List.mem_append_right _ List.mem_cons_self, hxn⟩
    · rename_i hkn
      exact ⟨List.mem_append_left _ hk, hkn⟩

theorem nodup_swapRemove {n : Nat} {l : List Nat} (hl : l.Nodup) : (swapRemove n l).Nodup := by
  unfold swapRemove
  rcases List.eq_nil_or_concat l with rfl | ⟨l, x, rfl⟩
  · exact List.nodup_nil
  rw [List.concat_eq_append] at hl ⊢
  simp only [List.getLast?_append, List.getLast?_singleton, Option.some_or, List.dropLast_concat]
  rw [List.nodup_append] at hl
  obtain ⟨hl, -, hx⟩ := hl
  split
  · exact hl
  · refine hl.map_on (fun a ha b hb hab => ?_)
    have hxa := hx a ha x List.mem_cons_self
    have hxb := hx b hb x List.mem_cons_self
    split at hab <;> split at hab
    · rename_i h₁ h₂
      rw [h₁, h₂]
    · exact absurd hab.symm hxb
    · exact absurd hab hxa
    · exact hab

theorem mem_nodesOf {V : Verification} : ∀ {l : List Nat}, l.Nodup → (V.nodesOf l).Nodup ∧ ∀ m ∈ V.nodesOf l, m ∈ l := by
  unfold Verification.nodesOf
  induction V.optimised with
  | nil => exact fun hl => ⟨hl, fun m hm => hm⟩
  | cons n ns ih =>
    intro l hl
    obtain ⟨hnd, hsub⟩ := ih (nodup_swapRemove (n := n) hl)
    exact ⟨hnd, fun m hm => (mem_swapRemove hl (hsub m hm)).1⟩

/-- The kernel of some node of the graph is created and initialised. -/
def GraphObject.IsLive (s : GraphObject) : Prop := ∃ n ∈ s.nodes, (s.kernel n).isKernelCreated = true

/-- The condition on a step: an edit of a graph that is not marked verified leaves no live kernel in it, and
`vxVerifyGraph` de-initialises the kernels without an error unless the graph is marked for re-verification. -/
def MarksKernels (K : Nat → NodeKernel) (s : GraphObject) : GraphAct → Prop
  | .addNode _ | .addSuperNode => s.verified = true ∨ ¬ s.IsLive
  | .removeNode n => s.verified = true ∨ ∀ m ∈ s.nodes, m ≠ n → (s.kernel m).isKernelCreated = false
  | .verifyGraph V => s.reverify = true ∨ ∀ n ∈ s.nodes, (V.deinit n).Deinits (K n) ∧ (V.cleanup n).Deinits (K n)
  | _ => True

/-- A graph is marked as long as a kernel is live. -/
structure Marked (s : GraphObject) : Prop where
  nodup : s.nodes.Nodup
  known : ∀ n ∈ s.nodes, n ∈ s.known
  fresh : ∀ n, n ∉ s.known → (s.kernel n).isKernelCreated = false
  marked : s.IsLive → s.verified = true ∨ s.reverify = true

theorem verifyKernels_of_notMem {V : Verification} {nodes : List Nat} {k : Nat → KernelState} {n : Nat} (hn : n ∉ nodes) :
    (verifyKernels K V nodes k).2 n = k n := by
  unfold verifyKernels
  split
  · unfold ownGraphNodeKernelInit
    split
    · exact forNodes_of_notMem hn
    · rfl
  · rfl

/-- What a verification with its kernels de-initialised leaves. -/
theorem verifyNodes_marked {s : GraphObject} {V : Verification} (hM : Marked s)
    (h : s.reverify = true ∨ ∀ n ∈ s.nodes, (V.cleanup n).Deinits (K n)) : Marked (verifyNodes K V s) := by
  obtain ⟨hnd, hsub⟩ := mem_nodesOf (V := V) hM.nodup
  have hknown : ∀ n ∈ V.nodesOf s.nodes, n ∈ s.known := fun n hn => hM.known n (hsub n hn)
  -- the loops leave alone what the application has not created yet
  have hnot : ∀ n, n ∉ s.known → n ∉ V.nodesOf s.nodes := fun n hn h => hn (hknown n h)
  unfold verifyNodes
  simp only
  split
  · refine ⟨hnd, hknown, fun n hn => ?_, fun _ => .inl rfl⟩
    simp only [verifyKernels_of_notMem (hnot n hn)]
    exact hM.fresh n hn
  · refine ⟨hnd, hknown, fun n hn => ?_, fun hlive => ?_⟩
    · simp only [ownGraphNodeKernelDeinit, forNodes_of_notMem (hnot n hn), verifyKernels_of_notMem (hnot n hn)]
      exact hM.fresh n hn
    · rcases h with h | h
      · exact .inr h
      · obtain ⟨n, hn, hc⟩ := hlive
        have hd := isKernelCreated_ownGraphNodeKernelDeinit hnd
          (ownGraphNodeKernelDeinit_fst (k := (verifyKernels K V (V.nodesOf s.nodes) s.kernel).2)
            (fun m hm => h m (hsub m hm))) hn
        simp only at hc
        rw [hd] at hc
        cases hc

theorem vxVerifyGraph_marked {s : GraphObject} {V : Verification} (hM : Marked s)
    (h : s.reverify = true ∨ ∀ n ∈ s.nodes, (V.deinit n).Deinits (K n) ∧ (V.cleanup n).Deinits (K n)) :
    Marked (vxVerifyGraph K V s) := by
  have hfresh : ∀ n, n ∉ s.known → ((ownGraphNodeKernelDeinit K V.deinit s.nodes s.kernel).2 n).isKernelCreated = false := by
    intro n hn
    have hn' : n ∉ s.nodes := fun h => hn (hM.known n h)
    simp only [ownGraphNodeKernelDeinit, forNodes_of_notMem hn']
    exact hM.fresh n hn
  have hcleanup : s.reverify = true ∨ ∀ n ∈ s.nodes, (V.cleanup n).Deinits (K n) :=
    h.imp_right (fun h n hn => (h n hn).2)
  unfold vxVerifyGraph
  simp only
  split
  · split
    · split
      · rename_i hs
        refine verifyNodes_marked ⟨hM.nodup, hM.known, hfresh, fun hlive => ?_⟩ hcleanup
        obtain ⟨n, hn, hc⟩ := hlive
        have hd := isKernelCreated_ownGraphNodeKernelDeinit hM.nodup hs hn
        simp only at hc
        rw [hd] at hc
        cases hc
      · rename_i hs
        refine ⟨hM.nodup, hM.known, hfresh, fun _ => ?_⟩
        rcases h with h | h
        · exact .inr h
        · exact absurd (ownGraphNodeKernelDeinit_fst (fun n hn => (h n hn).1)) hs
    · rename_i hflags
      refine verifyNodes_marked ⟨hM.nodup, hM.known, hM.fresh, fun hlive => ?_⟩ hcleanup
      have hm := hM.marked hlive
      simp only [Bool.or_eq_true] at hflags
      exact absurd hm hflags
  · exact hM

theorem Marked.kept {s s' : GraphObject} {a : GraphAct} (hM : Marked s) (hc : MarksKernels K s a)
    (hs : graphStep K s a = some s') : Marked s' := by
  cases a with
  | addNode n =>
    simp only [graphStep] at hs
    split at hs
    · cases hs
    rename_i hn
    cases hs
    have hn' : n ∉ s.nodes := fun h => hn (hM.known n h)
    refine ⟨?_, fun m hm => ?_, fun m hm => ?_, fun hlive => ?_⟩
    · exact hM.nodup.append (List.nodup_singleton n) (by simpa using hn')
    · rcases List.mem_append.1 hm with hm | hm
      · exact List.mem_cons_of_mem n (hM.known m hm)
      · rw [List.mem_singleton.1 hm]
        exact List.mem_cons_self
    · exact hM.fresh m (fun h => hm (List.mem_cons_of_mem n h))
    · refine hc.elim .inr (fun hc => absurd ?_ hc)
      obtain ⟨m, hm, hcr⟩ := hlive
      rcases List.mem_append.1 hm with hm | hm
      · exact ⟨m, hm, hcr⟩
      · have hd := hM.fresh n hn
        rw [List.mem_singleton.1 hm] at hcr
        exact absurd (hd ▸ hcr : false = true) Bool.false_ne_true
  | addSuperNode =>
    cases hs
    exact ⟨hM.nodup, hM.known, hM.fresh, fun hlive => hc.elim .inr (fun hc => absurd hlive hc)⟩
  | removeNode n =>
    simp only [graphStep] at hs
    split at hs
    · rename_i hn
      cases hs
      unfold ownGraphRemoveNode
      rw [if_pos hn]
      refine ⟨nodup_swapRemove hM.nodup, fun m hm => hM.known m (mem_swapRemove hM.nodup hm).1, hM.fresh, fun hlive => ?_⟩
      obtain ⟨m, hm, hcr⟩ := hlive
      obtain ⟨hm, hne⟩ := mem_swapRemove hM.nodup hm
      refine hc.elim .inr (fun hc => ?_)
      have hd := hc m hm hne
      exact absurd (hd ▸ hcr : false = true) Bool.false_ne_true
    · cases hs
  | destructNode n o =>
    simp only [graphStep] at hs
    split at hs
    · rename_i hn
      cases hs
      have hother : ∀ m, m ≠ n → ((ownDestructNode K s n o).kernel m) = s.kernel m :=
        fun m hm => Function.update_of_ne hm _ _
      refine ⟨hM.nodup, hM.known, fun m hm => ?_, fun hlive => ?_⟩
      · rw [hother m (fun h => hm (h ▸ hn.1))]
        exact hM.fresh m hm
      · obtain ⟨m, hm, hcr⟩ := hlive
        rw [hother m (fun h => hn.2.1 (h ▸ hm))] at hcr
        exact hM.marked ⟨m, hm, hcr⟩
    · cases hs
  | verifyGraph V =>
    cases hs
    exact vxVerifyGraph_marked hM hc
  | execute =>
    simp only [graphStep] at hs
    split at hs
    · rename_i hv
      cases hs
      refine ⟨hM.nodup, hM.known, fun n hn => ?_, fun _ => .inl hv⟩
      have hn' : n ∉ s.nodes := fun h => hn (hM.known n h)
      simp only [executeNodes, if_neg hn']
      exact hM.fresh n hn
    · cases hs

/-- **A graph with a live kernel is marked** verified or for re-verification, in every run whose steps keep the marks. -/
theorem marked_of_marksKernels {s : GraphObject} (h : Reach (graphStep K) (MarksKernels K) {} s) (hlive : s.IsLive) :
    s.verified = true ∨ s.reverify = true := by
  have h0 : Marked {} := ⟨List.nodup_nil, fun n hn => (by cases hn), fun _ _ => rfl, fun ⟨n, hn, _⟩ => by cases hn⟩
  exact (h.inv h0 (fun _ _ _ hM hc hs => hM.kept hc hs)).marked hlive

end Graph

section Edits

/-- Nodes with a target kernel. -/
def targetKernels : Nat → NodeKernel := fun _ => { isTargetKernel := true }

/-- A second edit after a verification takes the mark of the first away, with the kernel of node 0 live. -/
theorem edited_twice_unmarked : ∃ s, Reach (graphStep targetKernels) (fun s a => anyStep s a = true) {} s ∧ s.IsLive ∧
    s.verified = false ∧ s.reverify = false := by
  have hexec : (exec (graphStep targetKernels) anyStep {} [.addNode 0, .verifyGraph {}, .addNode 1, .addNode 2]).map
      (fun s => (s.nodes, (s.kernel 0).isKernelCreated, s.verified, s.reverify)) =
        some ([0, 1, 2], true, false, false) := by decide
  obtain ⟨s, hr, hs⟩ := exists_reach_of_exec hexec
  simp only [Prod.mk.injEq] at hs
  obtain ⟨hn, hk, hv, hrv⟩ := hs
  exact ⟨s, hr, ⟨0, by rw [hn]; exact List.mem_cons_self, hk⟩, hv, hrv⟩

theorem deinits_default {n : Nat} : Outcomes.Deinits {} (targetKernels n) := ⟨fun _ _ => rfl, rfl, rfl⟩

/-- One edit after a verification leaves the graph marked for re-verification. -/
theorem marked_editedOnce : ∃ s, Reach (graphStep targetKernels) (MarksKernels targetKernels) {} s ∧ s.IsLive ∧
    (s.verified = true ∨ s.reverify = true) := by
  have hnot : ¬ GraphObject.IsLive {} := fun ⟨n, hn, _⟩ => by cases hn
  have hadd : MarksKernels targetKernels {} (.addNode 0) := .inr hnot
  have hverify : MarksKernels targetKernels (ownGraphAddNode {} 0) (.verifyGraph {}) :=
    .inr (fun n _ => ⟨deinits_default, deinits_default⟩)
  have hedit : MarksKernels targetKernels (vxVerifyGraph targetKernels {} (ownGraphAddNode {} 0)) (.addNode 1) := .inl rfl
  have h₁ : Reach (graphStep targetKernels) (MarksKernels targetKernels) {} (ownGraphAddNode {} 0) := Reach.start.next hadd rfl
  have h₂ := h₁.next hverify rfl
  have h₃ := h₂.next hedit rfl
  have hlive : GraphObject.IsLive (ownGraphAddNode (vxVerifyGraph targetKernels {} (ownGraphAddNode {} 0)) 1) :=
    ⟨0, by decide, by decide⟩
  exact ⟨_, h₃, hlive, marked_of_marksKernels h₃ hlive⟩

end Edits

end Tiovx
