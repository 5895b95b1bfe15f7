import Tiovx.Reverify
/-!
# KernelPairs — what is initialised is de-initialised, once

`kernelPairs` reads from the log of a node whether the initialize and deinitialize callbacks, the create and delete
commands and the allocations pair up.  `InStep` says that the flags of the node agree with its log; de-initialising a
replicated target kernel leaves them apart, and so does a failed de-initialisation.
-/
namespace Tiovx

open StepSystem

/-- Replica `n` was initialised, and its deinitialize callback was not called since. -/
def initialized (n : Nat) : List KernelEvent → Bool
  | .initialized m st :: l => (decide (m = n) && decide (st = .success)) || initialized n l
  | .deinitialized m _ :: l => !decide (m = n) && initialized n l
  | _ :: l => initialized n l
  | [] => false

/-- The kernel was created on its target, or the create command timed out, and no delete command was sent since. -/
def created : List KernelEvent → Bool
  | .create st :: l => !decide (st = .failure) || created l
  | .delete _ :: _ => false
  | _ :: l => created l
  | [] => false

/-- The block was allocated and not freed. -/
def allocated (b : Nat) : List KernelEvent → Bool
  | .alloc c :: l => decide (c = b) || allocated b l
  | .free c :: l => !decide (c = b) && allocated b l
  | _ :: l => allocated b l
  | [] => false

/-- **What is promised of the log of a node**: a replica is initialised when it is not, and de-initialised when it is; the
kernel is created when it is not, and deleted when it is; a block is allocated once and freed once; a kernel is executed
when it is initialised and created; and a node is destructed when nothing is left of its kernel. -/
def kernelPairs (K : NodeKernel) : List KernelEvent → Prop
  | .initialized n _ :: l => initialized n l = false ∧ kernelPairs K l
  | .deinitialized n _ :: l => initialized n l = true ∧ kernelPairs K l
  | .create _ :: l => created l = false ∧ kernelPairs K l
  | .delete _ :: l => created l = true ∧ kernelPairs K l
  | .alloc b :: l => .alloc b ∉ l ∧ kernelPairs K l
  | .free b :: l => allocated b l = true ∧ kernelPairs K l
  | .execute :: l => ((K.hasInitialize = true → ∀ n ∈ K.replicas, initialized n l = true) ∧
      (K.isTargetKernel = true → K.sendsCommands = true → created l = true)) ∧ kernelPairs K l
  | .destruct :: l => ((K.hasDeinitialize = true → ∀ n, initialized n l = false) ∧ created l = false ∧
      ∀ b, allocated b l = false) ∧ kernelPairs K l
  | [] => True

/-- The flags of a node agree with its log. -/
structure InStep (K : NodeKernel) (S : KernelState) : Prop where
  pairs : kernelPairs K S.log
  isInitialized : S.isInitialized = true → ∀ n ∈ K.replicas, initialized n S.log = true
  notInitialized : S.isInitialized = false → ∀ n, initialized n S.log = false
  replica : ∀ n, initialized n S.log = true → n ∈ K.replicas
  isKernelCreated : S.isKernelCreated = true → K.isTargetKernel = true → K.sendsCommands = true → created S.log = true
  wasCreated : created S.log = true → K.isTargetKernel = true ∧ K.sendsCommands = true ∧
    (S.isKernelCreated = true ∨ S.isTimedOut = true)
  isTimedOut : S.isTimedOut = true → K.isTargetKernel = true ∧ K.sendsCommands = true
  wasAllocated : ∀ b, allocated b S.log = true ↔ S.localDataPtr = some b
  data : ∀ b, S.localDataPtr = some b → S.localDataPtrIsAlloc = true ∧ S.localDataSize ≠ 0 ∧ K.localDataSize ≠ 0 ∧
    K.isTargetKernel = false
  fresh : ∀ b, .alloc b ∈ S.log → b < S.log.length

/-- The kernels whose flag `is_initialized` outlives their de-initialisation. -/
def NodeKernel.keepsInitialized (K : NodeKernel) : Bool := K.isTargetKernel && K.isReplicated && K.hasDeinitialize

/-- The initialize callbacks of the replicas all succeed. -/
structure Outcomes.Inits (o : Outcomes) (K : NodeKernel) : Prop where
  validate : K.revalidates = true → ∀ n ∈ K.replicas, o.validate n = .success
  initStatus : ∀ n ∈ K.replicas, o.initStatus n = .success
  releaseMetaFormat : o.releaseMetaFormat = .success

/-- The initialize callbacks of the replicas all succeed, or the first of them fails. -/
def Outcomes.InitsAllOrNone (o : Outcomes) (K : NodeKernel) : Prop :=
  o.Inits K ∨ ∀ n ∈ K.replicas.head?, (K.revalidates = true ∧ o.validate n ≠ .success) ∨
    (K.hasInitialize = true ∧ o.initStatus n ≠ .success)

instance (o : Outcomes) (K : NodeKernel) : Decidable (o.Inits K) :=
  decidable_of_iff ((K.revalidates = true → ∀ n ∈ K.replicas, o.validate n = .success) ∧
    (∀ n ∈ K.replicas, o.initStatus n = .success) ∧ o.releaseMetaFormat = .success)
    ⟨fun h => ⟨h.1, h.2.1, h.2.2⟩, fun h => ⟨h.validate, h.initStatus, h.releaseMetaFormat⟩⟩

instance (o : Outcomes) (K : NodeKernel) : Decidable (o.InitsAllOrNone K) :=
  inferInstanceAs (Decidable (_ ∨ _))

section Node

variable {K : NodeKernel} {o : Outcomes} {S : KernelState}

theorem nodup_replicas (K : NodeKernel) : K.replicas.Nodup := by
  unfold NodeKernel.replicas
  split
  · exact List.nodup_range
  · exact List.nodup_singleton 0

/-- What callbacks leave alone in a log. -/
structure SameCommands (l l' : List KernelEvent) : Prop where
  created : created l' = created l
  allocated : ∀ b, allocated b l' = allocated b l
  alloc : ∀ b, .alloc b ∈ l' → .alloc b ∈ l
  length : l.length ≤ l'.length

theorem SameCommands.refl (l : List KernelEvent) : SameCommands l l := ⟨rfl, fun _ => rfl, fun _ h => h, Nat.le_refl _⟩

theorem SameCommands.initialized {l l' : List KernelEvent} (h : SameCommands l l') (n : Nat) (st : VxStatus) :
    SameCommands l (.initialized n st :: l') := by
  refine ⟨h.created, h.allocated, fun b hb => ?_, Nat.le_trans h.length (Nat.le_succ _)⟩
  rcases List.mem_cons.1 hb with hb | hb
  · cases hb
  · exact h.alloc b hb

theorem SameCommands.deinitialized {l l' : List KernelEvent} (h : SameCommands l l') (n : Nat) (st : VxStatus) :
    SameCommands l (.deinitialized n st :: l') := by
  refine ⟨h.created, h.allocated, fun b hb => ?_, Nat.le_trans h.length (Nat.le_succ _)⟩
  rcases List.mem_cons.1 hb with hb | hb
  · cases hb
  · exact h.alloc b hb

theorem SameCommands.trans {l l' l'' : List KernelEvent} (h : SameCommands l l') (h' : SameCommands l' l'') :
    SameCommands l l'' :=
  ⟨h'.created.trans h.created, fun b => (h'.allocated b).trans (h.allocated b), fun b hb => h.alloc b (h'.alloc b hb),
    Nat.le_trans h.length h'.length⟩

theorem callInitializeAll_sameCommands (l : List Nat) : ∀ {st : VxStatus} {log : List KernelEvent},
    SameCommands log (callInitializeAll K o l st log).2 := by
  induction l with
  | nil => exact fun {_ log} => SameCommands.refl log
  | cons n l ih =>
    intro st log
    unfold callInitializeAll
    split
    · split
      · exact ((SameCommands.refl log).initialized n _).trans ih
      · exact ((SameCommands.refl log).initialized n _).trans ih
    · exact ih

theorem callDeinitializeAll_sameCommands (l : List Nat) : ∀ {st : VxStatus} {log : List KernelEvent},
    SameCommands log (callDeinitializeAll o l st log).2 := by
  induction l with
  | nil => exact fun {_ log} => SameCommands.refl log
  | cons n l ih => exact fun {_ log} => ((SameCommands.refl log).deinitialized n _).trans ih

/-- An error before the first callback stops all of them. -/
theorem callInitializeAll_error {l : List Nat} {log : List KernelEvent} : ∀ {st : VxStatus}, st ≠ .success →
    callInitializeAll K o l st log = (st, log) := by
  induction l with
  | nil => exact fun _ => rfl
  | cons n l ih =>
    intro st hst
    rw [callInitializeAll, if_neg (fun h => hst h.1), if_neg hst, ih hst]

theorem callInitializeAll_cons {n : Nat} {l : List Nat} {log : List KernelEvent}
    (hv : K.revalidates = true → ∀ m ∈ n :: l, o.validate m = .success) (hi : ∀ m ∈ n :: l, o.initStatus m = .success) :
    callInitializeAll K o (n :: l) .success log = callInitializeAll K o l .success (.initialized n .success :: log) := by
  rw [callInitializeAll, if_pos ⟨rfl, fun hr => hv hr n List.mem_cons_self⟩, hi n List.mem_cons_self]
  split <;> rfl

theorem callInitializeAll_fst : ∀ {l : List Nat} {log : List KernelEvent},
    (K.revalidates = true → ∀ n ∈ l, o.validate n = .success) → (∀ n ∈ l, o.initStatus n = .success) →
    (callInitializeAll K o l .success log).1 = .success
  | [], _, _, _ => rfl
  | n :: l, log, hv, hi => by
    rw [callInitializeAll_cons hv hi]
    exact callInitializeAll_fst (fun hr m hm => hv hr m (List.mem_cons_of_mem n hm))
      (fun m hm => hi m (List.mem_cons_of_mem n hm))

/-- **The initialize callbacks** of replicas that are not initialised, where all succeed. -/
theorem callInitializeAll_spec : ∀ {l : List Nat} {log : List KernelEvent}, l.Nodup → kernelPairs K log →
    (∀ n ∈ l, initialized n log = false) → (K.revalidates = true → ∀ n ∈ l, o.validate n = .success) →
    (∀ n ∈ l, o.initStatus n = .success) →
    kernelPairs K (callInitializeAll K o l .success log).2 ∧
      ∀ n, initialized n (callInitializeAll K o l .success log).2 = (decide (n ∈ l) || initialized n log)
  | [], log, _, hp, _, _, _ => ⟨hp, fun n => by simp [callInitializeAll]⟩
  | n :: l, log, hl, hp, hn, hv, hi => by
    rw [List.nodup_cons] at hl
    have hrest : ∀ m ∈ l, initialized m (.initialized n .success :: log) = false := by
      intro m hm
      have hne : n ≠ m := fun h => hl.1 (h ▸ hm)
      simp [initialized, hne, hn m (List.mem_cons_of_mem n hm)]
    have hnext : kernelPairs K (.initialized n .success :: log) := ⟨hn n List.mem_cons_self, hp⟩
    obtain ⟨hp', hi'⟩ := callInitializeAll_spec hl.2 hnext hrest (fun hr m hm => hv hr m (List.mem_cons_of_mem n hm))
      (fun m hm => hi m (List.mem_cons_of_mem n hm))
    rw [callInitializeAll_cons hv hi]
    refine ⟨hp', fun m => ?_⟩
    rw [hi', initialized]
    by_cases hnm : n = m
    · simp [hnm]
    · have hmn : ¬ m = n := fun h => hnm h.symm
      simp [hnm, hmn]

/-- Where the first callback fails, no replica is initialised. -/
theorem callInitializeAll_none {l : List Nat} {log : List KernelEvent} (hp : kernelPairs K log)
    (hn : ∀ n ∈ l, initialized n log = false)
    (ho : ∀ n ∈ l.head?, (K.revalidates = true ∧ o.validate n ≠ .success) ∨
      (K.hasInitialize = true ∧ o.initStatus n ≠ .success)) :
    (l ≠ [] → (callInitializeAll K o l .success log).1 ≠ .success) ∧ kernelPairs K (callInitializeAll K o l .success log).2 ∧
      ∀ n, initialized n (callInitializeAll K o l .success log).2 = initialized n log := by
  cases l with
  | nil => exact ⟨fun h => absurd rfl h, hp, fun _ => rfl⟩
  | cons n l =>
    rw [callInitializeAll]
    by_cases hv : K.revalidates = true → o.validate n = .success
    · have hi := (ho n rfl).resolve_left (fun h => h.2 (hv h.1))
      rw [if_pos ⟨rfl, hv⟩, if_pos hi.1, callInitializeAll_error hi.2]
      refine ⟨fun _ => hi.2, ⟨hn n List.mem_cons_self, hp⟩, fun m => ?_⟩
      simp [initialized, hi.2]
    · have hst : o.validate n ≠ .success := fun h => hv (fun _ => h)
      rw [if_neg (fun h => hv h.2), if_pos rfl, callInitializeAll_error hst]
      exact ⟨fun _ => hst, hp, fun _ => rfl⟩

/-- **The deinitialize callbacks** of replicas that are initialised. -/
theorem callDeinitializeAll_spec : ∀ {l : List Nat} (st : VxStatus) {log : List KernelEvent}, l.Nodup →
    kernelPairs K log → (∀ n ∈ l, initialized n log = true) →
    kernelPairs K (callDeinitializeAll o l st log).2 ∧
      ∀ n, initialized n (callDeinitializeAll o l st log).2 = (!decide (n ∈ l) && initialized n log)
  | [], _, log, _, hp, _ => ⟨hp, fun n => by simp [callDeinitializeAll]⟩
  | n :: l, st, log, hl, hp, hn => by
    rw [List.nodup_cons] at hl
    have hrest : ∀ m ∈ l, initialized m (.deinitialized n (o.deinitStatus n) :: log) = true := by
      intro m hm
      have hne : n ≠ m := fun h => hl.1 (h ▸ hm)
      simp [initialized, hne, hn m (List.mem_cons_of_mem n hm)]
    have hnext : kernelPairs K (.deinitialized n (o.deinitStatus n) :: log) := ⟨hn n List.mem_cons_self, hp⟩
    obtain ⟨hp', hi'⟩ := callDeinitializeAll_spec (st.check (o.deinitStatus n)) hl.2 hnext hrest
    refine ⟨hp', fun m => ?_⟩
    rw [callDeinitializeAll, hi', initialized]
    by_cases hnm : n = m
    · simp [hnm]
    · have hmn : ¬ m = n := fun h => hnm h.symm
      simp [hnm, hmn]

/-- Callbacks change the log of a node, and its flag `is_initialized`. -/
theorem InStep.callbacks {log : List KernelEvent} {b : Bool} (h : InStep K S) (hp : kernelPairs K log)
    (hs : SameCommands S.log log) (hb : b = true → ∀ n ∈ K.replicas, initialized n log = true)
    (hb' : b = false → ∀ n, initialized n log = false) (hr : ∀ n, initialized n log = true → n ∈ K.replicas) :
    InStep K { S with isInitialized := b, log := log } := by
  refine ⟨hp, hb, hb', hr, fun hk ht hs' => ?_, fun hc => h.wasCreated ?_, h.isTimedOut, fun c => ?_, h.data, fun c hc => ?_⟩
  · rw [hs.created]
    exact h.isKernelCreated hk ht hs'
  · rw [← hs.created]
    exact hc
  · rw [hs.allocated]
    exact h.wasAllocated c
  · exact Nat.lt_of_lt_of_le (h.fresh c (hs.alloc c hc)) hs.length

/-- The initialize callbacks of a target kernel. -/
theorem InStep.initReplicas (h : InStep K S) (ho : o.InitsAllOrNone K) : InStep K (initTargetKernel K o S).2 := by
  unfold initTargetKernel
  split
  · exact h
  · rename_i hi
    have hnot : ∀ n, initialized n S.log = false := h.notInitialized (by simpa using hi)
    simp only
    rcases ho with ho | hnone
    · obtain ⟨hp, hin⟩ := callInitializeAll_spec (nodup_replicas K) h.pairs (fun n _ => hnot n) ho.validate ho.initStatus
      apply h.callbacks hp (callInitializeAll_sameCommands _)
      · intro _ n hn
        rw [hin]
        simp [hn]
      · intro hst
        rw [callInitializeAll_fst ho.validate ho.initStatus, ho.releaseMetaFormat] at hst
        split at hst <;> cases hst
      · intro n hn
        rw [hin, hnot] at hn
        simpa using hn
    · obtain ⟨hst, hp, hin⟩ := callInitializeAll_none h.pairs (fun n _ => hnot n) hnone
      apply h.callbacks hp (callInitializeAll_sameCommands _)
      · intro hb n hn
        -- with a replica the status is an error
        have hst := hst (List.ne_nil_of_mem hn)
        rw [decide_eq_true_eq] at hb
        exfalso
        split at hb
        · unfold VxStatus.check at hb
          split at hb
          · exact hst hb
          · rename_i hne
            exact hne hb
        · exact hst hb
      · intro _ n
        rw [hin, hnot]
      · intro n hn
        rw [hin, hnot] at hn
        cases hn

/-- What the initialize callbacks of a target kernel leave alone. -/
theorem initTargetKernel_frame : (initTargetKernel K o S).2.isKernelCreated = S.isKernelCreated ∧
    (initTargetKernel K o S).2.isTimedOut = S.isTimedOut ∧ created (initTargetKernel K o S).2.log = created S.log := by
  unfold initTargetKernel
  split
  · exact ⟨rfl, rfl, rfl⟩
  · exact ⟨rfl, rfl, (callInitializeAll_sameCommands _).created⟩

theorem isInitialized_initTargetKernel (h : (initTargetKernel K o S).1 = .success) :
    (initTargetKernel K o S).2.isInitialized = true := by
  unfold initTargetKernel at h ⊢
  split
  · rename_i hi
    exact hi
  · rename_i hi
    rw [if_neg hi] at h
    simpa using h

/-- A create command is sent. -/
theorem InStep.create {st : VxStatus} {k t : Bool} (h : InStep K S) (ht : K.isTargetKernel = true)
    (hsend : K.sendsCommands = true) (hc : created S.log = false) (hk : k = true → st ≠ .failure)
    (hst : st ≠ .failure → k = true ∨ t = true) :
    InStep K { S with isKernelCreated := k, isTimedOut := t, log := .create st :: S.log } := by
  refine ⟨⟨hc, h.pairs⟩, h.isInitialized, h.notInitialized, h.replica, fun hk' _ _ => ?_, fun hc' => ⟨ht, hsend, hst ?_⟩,
    fun _ => ⟨ht, hsend⟩, h.wasAllocated, h.data, fun b hb => ?_⟩
  · simp [created, hk hk']
  · simpa [created, hc] using hc'
  · rcases List.mem_cons.1 hb with hb | hb
    · cases hb
    · exact Nat.lt_succ_of_lt (h.fresh b hb)

/-- **Initialising and creating a target kernel** keeps a node in step with its log. -/
theorem InStep.initTarget (ht : K.isTargetKernel = true) (h : InStep K S) (ho : o.InitsAllOrNone K)
    (hc : created S.log = true → S.isKernelCreated = true) : InStep K (ownNodeKernelInit K o S).2 := by
  have h₁ := h.initReplicas ho
  obtain ⟨hk, hto, hsame⟩ := initTargetKernel_frame (K := K) (o := o) (S := S)
  unfold ownNodeKernelInit
  simp only [ht, if_true]
  generalize initTargetKernel K o S = R at h₁ hk hto hsame
  obtain ⟨st, S₁⟩ := R
  simp only at h₁ hk hto hsame ⊢
  unfold createKernel
  split
  · rename_i hcond
    obtain ⟨hnk, -, hsend⟩ := hcond
    have hcreated : created S₁.log = false := by
      rw [hsame, Bool.eq_false_iff]
      intro hcr
      rw [hk, hc hcr] at hnk
      cases hnk
    cases hoc : o.create with
    | success => exact h₁.create ht hsend hcreated (fun _ => by decide) (fun _ => .inl rfl)
    | timeout => exact h₁.create ht hsend hcreated (fun _ => by decide) (fun _ => .inr rfl)
    | failure =>
      refine h₁.create ht hsend hcreated (fun hk' => ?_) (fun hne => absurd rfl hne)
      rw [hnk] at hk'
      cases hk'
  · rename_i hcond
    split
    · rename_i hst
      refine { h₁ with isKernelCreated := fun _ _ hsend => ?_, wasCreated := fun hc => ⟨ht, (h₁.wasCreated hc).2.1, .inl rfl⟩ }
      -- it was created before
      have hkc : S₁.isKernelCreated = true := by
        rw [← Bool.not_eq_false]
        exact fun hkc => hcond ⟨hkc, hst, hsend⟩
      exact h₁.isKernelCreated hkc ht hsend
    · exact h₁

theorem InStep.notAllocated (h : InStep K S) (hp : S.localDataPtr = none) (b : Nat) : allocated b S.log = false := by
  rw [Bool.eq_false_iff]
  intro hb
  have hb := (h.wasAllocated b).1 hb
  rw [hp] at hb
  cases hb

/-- The local data of a user kernel is allocated where there is none. -/
theorem InStep.allocLocalData (h : InStep K S) (ht : K.isTargetKernel = false) (hp : S.localDataPtr = none) :
    InStep K (allocLocalData K o S).2 := by
  have hnone := h.notAllocated hp
  unfold Tiovx.allocLocalData
  split
  · refine { h with wasAllocated := fun b => ?_, data := fun b hb => ?_ }
    · simp [hnone]
    · cases hb
  · rename_i hsize
    split
    · refine ⟨⟨fun hb => ?_, h.pairs⟩, h.isInitialized, h.notInitialized, h.replica, h.isKernelCreated, h.wasCreated,
        h.isTimedOut, fun b => ?_, fun _ _ => ⟨rfl, hsize, hsize, ht⟩, fun b hb => ?_⟩
      · exact absurd (h.fresh _ hb) (Nat.lt_irrefl _)
      · simp [allocated, hnone]
      · rcases List.mem_cons.1 hb with hb | hb
        · cases hb
          exact Nat.lt_succ_self _
        · exact Nat.lt_succ_of_lt (h.fresh b hb)
    · refine { h with wasAllocated := fun b => ?_, data := fun b hb => ?_ }
      · simp [hnone]
      · cases hb

/-- **Initialising a user kernel** without local data keeps a node in step with its log. -/
theorem InStep.initUser (ht : K.isTargetKernel = false) (h : InStep K S) (hp : S.localDataPtr = none) :
    InStep K (ownNodeKernelInit K o S).2 := by
  have h₁ := h.allocLocalData (o := o) ht hp
  have hreplicas : K.replicas = [0] := by simp [NodeKernel.replicas, ht]
  unfold ownNodeKernelInit
  simp only [ht, Bool.false_eq_true, if_false]
  generalize Tiovx.allocLocalData K o S = R at h₁
  obtain ⟨st, S₁⟩ := R
  simp only at h₁ ⊢
  have h₂ : InStep K (initUserKernel K o st S₁).2 := by
    unfold initUserKernel
    split
    · rename_i hi
      have hnot := h₁.notInitialized hi.1
      refine h₁.callbacks ⟨hnot 0, h₁.pairs⟩ ((SameCommands.refl _).initialized 0 _) ?_ ?_ ?_
      · intro hb n hn
        rw [decide_eq_true_eq] at hb
        rw [hreplicas, List.mem_singleton] at hn
        simp [initialized, hb, hn]
      · intro hb n
        rw [decide_eq_false_iff_not] at hb
        simp [initialized, hb, hnot]
      · intro n hn
        simp only [initialized, hnot, Bool.or_false, Bool.and_eq_true, decide_eq_true_eq] at hn
        rw [hreplicas, List.mem_singleton]
        exact hn.1.symm
    · exact h₁
  split
  · have hkernel : K.isTargetKernel ≠ true := by simp [ht]
    exact { h₂ with
      isKernelCreated := fun _ ht' _ => absurd ht' hkernel
      wasCreated := fun hc => absurd (h₂.wasCreated hc).1 hkernel }
  · exact h₂

/-- An initialisation that succeeds leaves a kernel that can be executed. -/
theorem isInitialized_ownNodeKernelInit (hs : (ownNodeKernelInit K o S).1 = .success) :
    (ownNodeKernelInit K o S).2.isKernelCreated = true ∧
      (K.hasInitialize = true → (ownNodeKernelInit K o S).2.isInitialized = true) := by
  unfold ownNodeKernelInit at hs ⊢
  simp only at hs ⊢
  rw [if_pos hs]
  refine ⟨rfl, fun hinit => ?_⟩
  split at hs
  · rename_i ht
    rw [if_pos ht]
    unfold createKernel at hs ⊢
    split at hs
    · rename_i hc
      rw [if_pos hc]
      exact isInitialized_initTargetKernel hc.2.1
    · rename_i hc
      rw [if_neg hc]
      exact isInitialized_initTargetKernel hs
  · rename_i ht
    rw [if_neg ht]
    unfold initUserKernel at hs ⊢
    split at hs
    · rename_i hc
      rw [if_pos hc]
      simpa using hs
    · rename_i hc
      rw [if_neg hc]
      rw [← Bool.not_eq_false]
      exact fun hi => hc ⟨hi, hinit, hs⟩

/-- A kernel that timed out is created as far as its log says, or it timed out before. -/
theorem isTimedOut_ownNodeKernelInit (h : (ownNodeKernelInit K o S).2.isTimedOut = true) :
    S.isTimedOut = true ∨ created (ownNodeKernelInit K o S).2.log = true := by
  unfold ownNodeKernelInit at h ⊢
  simp only at h ⊢
  rw [apply_ite KernelState.isTimedOut, ite_self] at h
  rw [apply_ite KernelState.log, ite_self]
  split at h
  · rename_i ht
    rw [if_pos ht]
    obtain ⟨-, hto, -⟩ := initTargetKernel_frame (K := K) (o := o) (S := S)
    unfold createKernel at h ⊢
    split at h
    · rename_i hc
      rw [if_pos hc]
      cases hoc : o.create with
      | success =>
        rw [hoc] at h
        cases h
      | timeout => exact .inr rfl
      | failure =>
        rw [hoc] at h
        exact .inl (hto.symm.trans h)
    · exact .inl (hto.symm.trans h)
  · have hframe : (allocLocalData K o S).2.isTimedOut = S.isTimedOut := by
      unfold allocLocalData
      split
      · rfl
      · split <;> rfl
    unfold initUserKernel at h
    split at h
    · exact .inl (hframe.symm.trans h)
    · exact .inl (hframe.symm.trans h)

/-- Nothing is left of the kernel of a node, and what it is initialised for only where there is no deinitialize
callback. -/
structure Dropped (K : NodeKernel) (S S' : KernelState) : Prop where
  pairs : kernelPairs K S'.log
  notInitialized : K.hasDeinitialize = true → ∀ n, initialized n S'.log = false
  kept : K.hasDeinitialize = false → ∀ n, initialized n S'.log = initialized n S.log
  notCreated : created S'.log = false
  notAllocated : ∀ b, allocated b S'.log = false
  localDataPtr : S'.localDataPtr = none
  alloc : ∀ b, .alloc b ∈ S'.log → .alloc b ∈ S.log
  length : S.log.length ≤ S'.log.length

/-- The deinitialize callbacks of a node, and what they leave alone. -/
structure DeinitCallbacks (K : NodeKernel) (S S' : KernelState) : Prop where
  pairs : kernelPairs K S'.log
  notInitialized : K.hasDeinitialize = true → ∀ n, initialized n S'.log = false
  kept : K.hasDeinitialize = false → S'.log = S.log
  same : SameCommands S.log S'.log
  frame : S' = { S with isInitialized := S'.isInitialized, log := S'.log }

theorem InStep.callDeinitializeOnce (h : InStep K S) (hr : K.replicas = [0]) :
    DeinitCallbacks K S (callDeinitializeOnce K o S).2 := by
  unfold Tiovx.callDeinitializeOnce
  split
  · rename_i hc
    simp only [Bool.and_eq_true] at hc
    have hi : initialized 0 S.log = true := h.isInitialized hc.1 0 (by rw [hr]; exact List.mem_cons_self)
    refine ⟨⟨hi, h.pairs⟩, fun _ n => ?_, fun hd => ?_, (SameCommands.refl _).deinitialized 0 _, rfl⟩
    · by_cases hn : 0 = n
      · simp [initialized, hn]
      · have hnot : initialized n S.log = false := by
          rw [Bool.eq_false_iff]
          intro hin
          have hin := h.replica n hin
          rw [hr, List.mem_singleton] at hin
          exact hn hin.symm
        simp [initialized, hnot]
    · rw [hd] at hc
      cases hc.2
  · rename_i hc
    refine ⟨h.pairs, fun hd => h.notInitialized ?_, fun _ => rfl, SameCommands.refl _, rfl⟩
    rw [hd, Bool.and_true] at hc
    simpa using hc

theorem InStep.deinitTargetKernel (h : InStep K S) : DeinitCallbacks K S (deinitTargetKernel K o S).2 := by
  unfold Tiovx.deinitTargetKernel
  split
  · split
    · rename_i hc
      simp only [Bool.and_eq_true] at hc
      obtain ⟨hp, hin⟩ := callDeinitializeAll_spec (o := o) .success (nodup_replicas K) h.pairs (h.isInitialized hc.1)
      refine ⟨hp, fun _ n => ?_, fun hd => ?_, callDeinitializeAll_sameCommands _, rfl⟩
      · rw [hin]
        cases hn : initialized n S.log with
        | false => simp
        | true => simp [h.replica n hn]
      · rw [hd] at hc
        cases hc.2
    · rename_i hc
      refine ⟨h.pairs, fun hd => h.notInitialized ?_, fun _ => rfl, SameCommands.refl _, rfl⟩
      rw [hd, Bool.and_true] at hc
      simpa using hc
  · rename_i hr
    exact h.callDeinitializeOnce (by simp [NodeKernel.replicas, hr])

theorem DeinitCallbacks.localDataPtr {S' : KernelState} (h : DeinitCallbacks K S S') : S'.localDataPtr = S.localDataPtr := by
  rw [h.frame]

theorem InStep.deleteKernel {st : VxStatus} {S' : KernelState} (h : InStep K S) (hcb : DeinitCallbacks K S S')
    (ht : K.isTargetKernel = true)
    (hto : S.isTimedOut = true → S.isKernelCreated = true ∨ created S.log = true) :
    Dropped K S (deleteKernel K o st S').2 := by
  have hp : S.localDataPtr = none := by
    cases hp : S.localDataPtr with
    | none => rfl
    | some b =>
      have hk := (h.data b hp).2.2.2
      rw [ht] at hk
      cases hk
  have halloc : ∀ b, allocated b S'.log = false := by
    intro b
    rw [hcb.same.allocated, h.notAllocated hp]
  have hp' : S'.localDataPtr = none := hcb.localDataPtr.trans hp
  have hkept : K.hasDeinitialize = false → ∀ n, initialized n S'.log = initialized n S.log :=
    fun hd n => by rw [hcb.kept hd]
  unfold Tiovx.deleteKernel
  split
  · rename_i hc
    rw [hcb.frame] at hc
    simp only [Bool.and_eq_true, Bool.or_eq_true] at hc
    have hcreated : created S'.log = true := by
      rw [hcb.same.created]
      rcases hc.1 with hk | ht'
      · exact h.isKernelCreated hk ht hc.2
      · exact (hto ht').elim (fun hk => h.isKernelCreated hk ht hc.2) id
    refine ⟨⟨hcreated, hcb.pairs⟩, hcb.notInitialized, hkept, rfl, halloc, hp', fun b hb => ?_,
      Nat.le_succ_of_le hcb.same.length⟩
    rcases List.mem_cons.1 hb with hb | hb
    · cases hb
    · exact hcb.same.alloc b hb
  · rename_i hc
    rw [hcb.frame] at hc
    refine ⟨hcb.pairs, hcb.notInitialized, hkept, ?_, halloc, hp', hcb.same.alloc, hcb.same.length⟩
    rw [hcb.same.created, Bool.eq_false_iff]
    intro hcr
    obtain ⟨-, hsend, hflag⟩ := h.wasCreated hcr
    exact hc (by simpa [hsend] using hflag)

theorem InStep.freeLocalData {st : VxStatus} {S' : KernelState} (h : InStep K S) (hcb : DeinitCallbacks K S S')
    (ht : K.isTargetKernel = false) : Dropped K S (freeLocalData o st S').2 := by
  have hcreated : created S'.log = false := by
    rw [hcb.same.created, Bool.eq_false_iff]
    intro hcr
    have hk := (h.wasCreated hcr).1
    rw [ht] at hk
    cases hk
  have hkept : K.hasDeinitialize = false → ∀ n, initialized n S'.log = initialized n S.log :=
    fun hd n => by rw [hcb.kept hd]
  unfold Tiovx.freeLocalData
  split
  · rename_i hp'
    have hp : S.localDataPtr = none := hcb.localDataPtr.symm.trans hp'
    refine ⟨hcb.pairs, hcb.notInitialized, hkept, hcreated, fun b => ?_, hp', hcb.same.alloc, hcb.same.length⟩
    rw [hcb.same.allocated, h.notAllocated hp]
  · rename_i block hp'
    have hp : S.localDataPtr = some block := hcb.localDataPtr.symm.trans hp'
    obtain ⟨ha, hsize, -⟩ := h.data block hp
    have hcond : S'.localDataPtrIsAlloc = true ∧ S'.localDataSize ≠ 0 := by
      rw [hcb.frame]
      exact ⟨ha, hsize⟩
    rw [if_pos hcond]
    have hblock : allocated block S'.log = true := by
      rw [hcb.same.allocated]
      exact (h.wasAllocated block).2 hp
    refine ⟨⟨hblock, hcb.pairs⟩, hcb.notInitialized, hkept, hcreated, fun b => ?_, rfl, fun b hb => ?_,
      Nat.le_succ_of_le hcb.same.length⟩
    · by_cases hb : block = b
      · simp [allocated, hb]
      · have hnot : allocated b S'.log = false := by
          rw [hcb.same.allocated, Bool.eq_false_iff]
          intro hb'
          have hb' := (h.wasAllocated b).1 hb'
          rw [hp] at hb'
          exact hb (Option.some.inj hb')
        simp [allocated, hnot]
    · rcases List.mem_cons.1 hb with hb | hb
      · cases hb
      · exact hcb.same.alloc b hb

/-- The last step of a de-initialisation changes `is_kernel_created` only. -/
theorem Dropped.resetCreated {S' : KernelState} {c : Prop} [Decidable c] (h : Dropped K S S') :
    Dropped K S (if c then { S' with isKernelCreated := false } else S') := by
  split
  · exact ⟨h.pairs, h.notInitialized, h.kept, h.notCreated, h.notAllocated, h.localDataPtr, h.alloc, h.length⟩
  · exact h

/-- **De-initialising a node** in step with its log leaves nothing of its kernel, however the callbacks and commands
end. -/
theorem InStep.dropped (h : InStep K S) (hto : S.isTimedOut = true → S.isKernelCreated = true ∨ created S.log = true) :
    Dropped K S (ownNodeKernelDeinit K o S).2 := by
  unfold ownNodeKernelDeinit
  apply Dropped.resetCreated
  cases ht : K.isTargetKernel with
  | true => exact h.deleteKernel h.deinitTargetKernel ht hto
  | false => exact h.freeLocalData (h.callDeinitializeOnce (by simp [NodeKernel.replicas, ht])) ht

theorem callDeinitializeOnce_flags (ho : o.deinitStatus 0 = .success) :
    (callDeinitializeOnce K o S).2.isTimedOut = S.isTimedOut ∧
      (callDeinitializeOnce K o S).2.isInitialized = (S.isInitialized && !K.hasDeinitialize) := by
  unfold callDeinitializeOnce
  cases hi : S.isInitialized <;> cases hd : K.hasDeinitialize <;> simp [hi, ho]

theorem deinitTargetKernel_flags (ho : o.Deinits K) (ht : K.isTargetKernel = true)
    (hk : K.keepsInitialized = true → S.isInitialized = false) :
    (deinitTargetKernel K o S).2.isTimedOut = S.isTimedOut ∧
      (deinitTargetKernel K o S).2.isInitialized = (S.isInitialized && !K.hasDeinitialize) := by
  unfold deinitTargetKernel
  split
  · rename_i hr
    cases hd : K.hasDeinitialize with
    | true =>
      have hi : S.isInitialized = false := hk (by simp [NodeKernel.keepsInitialized, ht, hr, hd])
      simp [hi]
    | false => simp
  · rename_i hr
    exact callDeinitializeOnce_flags (ho.deinitStatus 0 (by simp [NodeKernel.replicas, hr]))

/-- What a de-initialisation without errors does to the flags of a node. -/
theorem ownNodeKernelDeinit_flags (ho : o.Deinits K) (hk : K.keepsInitialized = true → S.isInitialized = false) :
    (ownNodeKernelDeinit K o S).2.isTimedOut = S.isTimedOut ∧
      (ownNodeKernelDeinit K o S).2.isInitialized = (S.isInitialized && !K.hasDeinitialize) := by
  unfold ownNodeKernelDeinit
  simp only
  rw [apply_ite KernelState.isTimedOut, apply_ite KernelState.isInitialized, ite_self, ite_self]
  cases ht : K.isTargetKernel with
  | true =>
    simp only [if_true]
    obtain ⟨hto, hi⟩ := deinitTargetKernel_flags ho ht hk
    unfold deleteKernel
    split
    · rw [if_pos (deinitTargetKernel_fst ho), ho.delete]
      simp [hto, hi]
    · exact ⟨hto, hi⟩
  | false =>
    simp only [Bool.false_eq_true, if_false]
    obtain ⟨hto, hi⟩ := callDeinitializeOnce_flags (K := K) (S := S)
      (ho.deinitStatus 0 (by simp [NodeKernel.replicas, ht]))
    unfold freeLocalData
    split
    · exact ⟨hto, hi⟩
    · split
      · exact ⟨hto, hi⟩
      · exact ⟨hto, hi⟩

/-- A de-initialisation without errors keeps a node in step with its log. -/
theorem InStep.deinit (h : InStep K S) (ho : o.Deinits K) (hk : K.keepsInitialized = true → S.isInitialized = false)
    (hto : S.isTimedOut = true → S.isKernelCreated = true ∨ created S.log = true) :
    InStep K (ownNodeKernelDeinit K o S).2 := by
  have hd := h.dropped (o := o) hto
  obtain ⟨hto', hi⟩ := ownNodeKernelDeinit_flags ho hk
  have hnk := isKernelCreated_ownNodeKernelDeinit (ownNodeKernelDeinit_fst (S := S) ho)
  generalize (ownNodeKernelDeinit K o S).2 = S' at hd hto' hi hnk
  refine ⟨hd.pairs, fun hi' n hn => ?_, fun hi' n => ?_, fun n hn => ?_, fun hk' => ?_, fun hc => ?_, fun ht => ?_,
    fun b => ?_, fun b hb => ?_, fun b hb => Nat.lt_of_lt_of_le (h.fresh b (hd.alloc b hb)) hd.length⟩
  · rw [hi'] at hi
    have hi := hi.symm
    simp only [Bool.and_eq_true, Bool.not_eq_true'] at hi
    rw [hd.kept hi.2]
    exact h.isInitialized hi.1 n hn
  · cases hdi : K.hasDeinitialize with
    | true => exact hd.notInitialized hdi n
    | false =>
      rw [hi', hdi, Bool.not_false, Bool.and_true] at hi
      rw [hd.kept hdi]
      exact h.notInitialized hi.symm n
  · cases hdi : K.hasDeinitialize with
    | true =>
      rw [hd.notInitialized hdi n] at hn
      cases hn
    | false =>
      rw [hd.kept hdi] at hn
      exact h.replica n hn
  · rw [hnk] at hk'
    cases hk'
  · rw [hd.notCreated] at hc
    cases hc
  · exact h.isTimedOut (hto' ▸ ht)
  · rw [hd.notAllocated, hd.localDataPtr]
    simp
  · rw [hd.localDataPtr] at hb
    cases hb

theorem initTargetKernel_fst (ho : o.Inits K) : (initTargetKernel K o S).1 = .success := by
  unfold initTargetKernel
  split
  · rfl
  · simp only [callInitializeAll_fst ho.validate ho.initStatus, ho.releaseMetaFormat]
    split <;> rfl

/-- An initialisation whose parts succeed succeeds. -/
theorem ownNodeKernelInit_fst (ho : o.Inits K) (hm : o.memAlloc = true) (hc : o.create = .success) :
    (ownNodeKernelInit K o S).1 = .success := by
  unfold ownNodeKernelInit
  cases ht : K.isTargetKernel with
  | true =>
    simp only [if_true, initTargetKernel_fst ho]
    unfold createKernel
    split
    · exact hc
    · rfl
  | false =>
    have halloc : (Tiovx.allocLocalData K o S).1 = .success := by
      unfold allocLocalData
      rw [if_pos hm]
      split <;> rfl
    simp only [Bool.false_eq_true, if_false, halloc]
    unfold initUserKernel
    split
    · exact ho.initStatus 0 (by simp [NodeKernel.replicas, ht])
    · rfl

end Node

end Tiovx
