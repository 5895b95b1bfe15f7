import Tiovx.KernelPairs
/-!
# KernelRuns — the callbacks of a node over a whole run

Over any sequence of edits, verifications and executions the log of every node pairs up, as long as no kernel is live or
timed out where `vxVerifyGraph` and `ownDestructNode` do not know of it.  A replicated target kernel that was verified
once is such a kernel: its de-initialisation leaves `is_initialized` set, and it is de-initialised twice.
-/
namespace Tiovx

open StepSystem

/-- Nothing goes wrong in a verification. -/
structure Verification.Succeeds (V : Verification) (K : Nat → NodeKernel) (nodes : List Nat) : Prop where
  prepares : V.prepares = true
  kernelName : ∀ n ∈ nodes, V.kernelName n = true ∧ V.kernelNameDeinit n = true
  init : ∀ n ∈ nodes, (V.init n).Inits (K n) ∧ (V.init n).memAlloc = true ∧ (V.init n).create = .success
  finishes : V.finishes = true

/-- A node whose kernel cannot be de-initialised twice. -/
def IsStuck (K : NodeKernel) (S : KernelState) : Prop :=
  (K.keepsInitialized = true ∧ S.isInitialized = true) ∨ S.isTimedOut = true

/-- The condition on a verification: what de-initialises and initialises the kernels succeeds, up to the first callback of
a node; with a replicated target kernel that has a deinitialize callback nothing goes wrong, and neither its kernel nor
one that timed out is de-initialised. -/
structure Verification.KeepsPairs (V : Verification) (K : Nat → NodeKernel) (s : GraphObject) : Prop where
  deinit : s.verified = true ∨ s.reverify = true → ∀ n ∈ s.nodes, (V.deinit n).Deinits (K n)
  init : ∀ n ∈ s.nodes, (V.init n).InitsAllOrNone (K n)
  cleanup : V.Succeeds K s.nodes ∨ ∀ n ∈ s.nodes, (V.cleanup n).Deinits (K n)
  keeps : ∀ n ∈ s.nodes, (K n).keepsInitialized = true → V.prepares = false ∨ V.Succeeds K s.nodes
  stuck : ∀ n ∈ s.nodes, IsStuck (K n) (s.kernel n) → s.verified = false ∧ s.reverify = false ∧ V.Succeeds K s.nodes

/-- The condition on a step: an edit of a graph that is not marked verified leaves no local data in it, a node that is
destructed did not time out, and verifications are as above. -/
def KeepsPairs (K : Nat → NodeKernel) (s : GraphObject) : GraphAct → Prop
  | .addNode _ | .addSuperNode => s.verified = true ∨ ∀ m ∈ s.nodes, (s.kernel m).localDataPtr = none
  | .removeNode n => s.verified = true ∨ ∀ m ∈ s.nodes, m ≠ n → (s.kernel m).localDataPtr = none
  | .destructNode n _ => (s.kernel n).isTimedOut = false
  | .verifyGraph V => V.enters = true → V.KeepsPairs K s
  | .execute => True

instance (V : Verification) (K : Nat → NodeKernel) (nodes : List Nat) : Decidable (V.Succeeds K nodes) :=
  decidable_of_iff (V.prepares = true ∧ (∀ n ∈ nodes, V.kernelName n = true ∧ V.kernelNameDeinit n = true) ∧
    (∀ n ∈ nodes, (V.init n).Inits (K n) ∧ (V.init n).memAlloc = true ∧ (V.init n).create = .success) ∧
    V.finishes = true)
    ⟨fun h => ⟨h.1, h.2.1, h.2.2.1, h.2.2.2⟩, fun h => ⟨h.prepares, h.kernelName, h.init, h.finishes⟩⟩

instance (K : NodeKernel) (S : KernelState) : Decidable (IsStuck K S) := inferInstanceAs (Decidable (_ ∨ _))

instance (V : Verification) (K : Nat → NodeKernel) (s : GraphObject) : Decidable (V.KeepsPairs K s) :=
  decidable_of_iff ((s.verified = true ∨ s.reverify = true → ∀ n ∈ s.nodes, (V.deinit n).Deinits (K n)) ∧
    (∀ n ∈ s.nodes, (V.init n).InitsAllOrNone (K n)) ∧
    (V.Succeeds K s.nodes ∨ ∀ n ∈ s.nodes, (V.cleanup n).Deinits (K n)) ∧
    (∀ n ∈ s.nodes, (K n).keepsInitialized = true → V.prepares = false ∨ V.Succeeds K s.nodes) ∧
    ∀ n ∈ s.nodes, IsStuck (K n) (s.kernel n) → s.verified = false ∧ s.reverify = false ∧ V.Succeeds K s.nodes)
    ⟨fun h => ⟨h.1, h.2.1, h.2.2.1, h.2.2.2.1, h.2.2.2.2⟩, fun h => ⟨h.deinit, h.init, h.cleanup, h.keeps, h.stuck⟩⟩

instance (K : Nat → NodeKernel) (s : GraphObject) : (a : GraphAct) → Decidable (KeepsPairs K s a)
  | .addNode _ | .addSuperNode | .removeNode _ => inferInstanceAs (Decidable (_ ∨ _))
  | .destructNode _ _ => inferInstanceAs (Decidable (_ = _))
  | .verifyGraph _ => inferInstanceAs (Decidable (_ → _))
  | .execute => .isTrue trivial

/-- A node between two steps is in step with its log, and its kernel is created where its log says so. -/
structure AtRest (K : NodeKernel) (S : KernelState) : Prop extends InStep K S where
  settled : created S.log = true → S.isKernelCreated = true

/-- The nodes of a graph between two steps. -/
structure PairedKernels (K : Nat → NodeKernel) (s : GraphObject) : Prop where
  nodup : s.nodes.Nodup
  known : ∀ n ∈ s.nodes, n ∈ s.known
  destructed : ∀ n ∈ s.destructed, n ∈ s.known ∧ n ∉ s.nodes
  fresh : ∀ n, n ∉ s.known → (s.kernel n).localDataPtr = none
  atRest : ∀ n, n ∉ s.destructed → AtRest (K n) (s.kernel n)
  pairs : ∀ n ∈ s.destructed, kernelPairs (K n) (s.kernel n).log
  executable : s.verified = true → ∀ n ∈ s.nodes, (s.kernel n).isKernelCreated = true ∧
    ((K n).hasInitialize = true → (s.kernel n).isInitialized = true)
  marked : s.verified = false → s.reverify = false → ∀ n ∈ s.nodes, (s.kernel n).localDataPtr = none

section Verify

variable {K : Nat → NodeKernel} {V : Verification} {s : GraphObject}

/-- A loop leaves a node as it was or visits it once. -/
theorem forNodes_cases {f : Nat → KernelState → VxStatus × KernelState} {n : Nat} :
    ∀ {l : List Nat} {k : Nat → KernelState}, l.Nodup →
      (forNodes f l k).2 n = k n ∨ (n ∈ l ∧ (forNodes f l k).2 n = (f n (k n)).2)
  | [], _, _ => .inl rfl
  | m :: l, k, hl => by
    rw [List.nodup_cons] at hl
    by_cases hnm : n = m
    · subst hnm
      refine .inr ⟨List.mem_cons_self, ?_⟩
      unfold forNodes
      split
      · rw [forNodes_of_notMem hl.1, Function.update_self]
      · exact Function.update_self n _ _
    · unfold forNodes
      split
      · rcases forNodes_cases (f := f) (n := n) (k := Function.update k m (f m (k m)).2) hl.2 with h | ⟨hn, h⟩
        · rw [Function.update_of_ne hnm] at h
          exact .inl h
        · rw [Function.update_of_ne hnm] at h
          exact .inr ⟨List.mem_cons_of_mem m hn, h⟩
      · exact .inl (Function.update_of_ne hnm _ _)

theorem verifyKernels_cases {nodes : List Nat} {k : Nat → KernelState} (hl : nodes.Nodup) (n : Nat) :
    (verifyKernels K V nodes k).2 n = k n ∨ (V.prepares = true ∧ n ∈ nodes ∧
      (verifyKernels K V nodes k).2 n = (ownNodeKernelInit (K n) (V.init n) (k n)).2) := by
  unfold verifyKernels
  split
  · rename_i hp
    unfold ownGraphNodeKernelInit
    split
    · exact (forNodes_cases hl).imp_right (fun h => ⟨hp, h⟩)
    · exact .inl rfl
  · exact .inl rfl

theorem verifyKernels_of_mem {nodes : List Nat} {k : Nat → KernelState} (hl : nodes.Nodup)
    (h : (verifyKernels K V nodes k).1 = .success) {n : Nat} (hn : n ∈ nodes) :
    (ownNodeKernelInit (K n) (V.init n) (k n)).1 = .success ∧
      (verifyKernels K V nodes k).2 n = (ownNodeKernelInit (K n) (V.init n) (k n)).2 := by
  unfold verifyKernels ownGraphNodeKernelInit at h ⊢
  split at h
  · rename_i hp
    rw [if_pos hp]
    split at h
    · rename_i hname
      rw [if_pos hname]
      simp only at h
      split at h
      · exact forNodes_of_mem hl h n hn
      · cases h
    · cases h
  · cases h

theorem verifyKernels_fst {nodes : List Nat} {k : Nat → KernelState} (hV : V.Succeeds K nodes) :
    (verifyKernels K V nodes k).1 = .success := by
  have hname : nodes.all V.kernelName = true := List.all_eq_true.2 (fun n hn => (hV.kernelName n hn).1)
  have hname' : nodes.all V.kernelNameDeinit = true := List.all_eq_true.2 (fun n hn => (hV.kernelName n hn).2)
  unfold verifyKernels ownGraphNodeKernelInit
  rw [if_pos hV.prepares, if_pos hname]
  simp only [hname', if_true]
  refine forNodes_fst (fun n hn S => ?_)
  obtain ⟨ho, hm, hc⟩ := hV.init n hn
  exact ownNodeKernelInit_fst ho hm hc

theorem Verification.Succeeds.mono {nodes nodes' : List Nat} (hV : V.Succeeds K nodes) (h : ∀ n ∈ nodes', n ∈ nodes) :
    V.Succeeds K nodes' :=
  ⟨hV.prepares, fun n hn => hV.kernelName n (h n hn), fun n hn => hV.init n (h n hn), hV.finishes⟩

/-- An initialisation of a node at rest without local data keeps it in step. -/
theorem AtRest.init {K : NodeKernel} {S : KernelState} {o : Outcomes} (h : AtRest K S) (ho : o.InitsAllOrNone K)
    (hp : S.localDataPtr = none) : InStep K (ownNodeKernelInit K o S).2 := by
  cases ht : K.isTargetKernel with
  | true => exact h.toInStep.initTarget ht ho h.settled
  | false => exact h.toInStep.initUser ht hp

/-- A node that is de-initialised without errors comes to rest. -/
theorem InStep.atRest {K : NodeKernel} {S : KernelState} {o : Outcomes} (h : InStep K S) (ho : o.Deinits K)
    (hk : K.keepsInitialized = true → S.isInitialized = false)
    (hto : S.isTimedOut = true → S.isKernelCreated = true ∨ created S.log = true) :
    AtRest K (ownNodeKernelDeinit K o S).2 := by
  refine ⟨h.deinit ho hk hto, fun hc => ?_⟩
  rw [(h.dropped hto).notCreated] at hc
  cases hc

/-- A graph whose kernels are ready to be initialised. -/
structure ReadyToVerify (V : Verification) (K : Nat → NodeKernel) (s : GraphObject) : Prop extends PairedKernels K s where
  notVerified : s.verified = false
  noData : ∀ n ∈ s.nodes, (s.kernel n).localDataPtr = none
  init : ∀ n ∈ s.nodes, (V.init n).InitsAllOrNone (K n)
  cleanup : V.Succeeds K s.nodes ∨ ∀ n ∈ s.nodes, (V.cleanup n).Deinits (K n)
  keeps : ∀ n ∈ s.nodes, (K n).keepsInitialized = true → V.prepares = false ∨ V.Succeeds K s.nodes
  stuck : ∀ n ∈ s.nodes, IsStuck (K n) (s.kernel n) → V.Succeeds K s.nodes

/-- The kernels of a node after a verification that succeeds. -/
theorem verifyNodes_success (h : ReadyToVerify V K s)
    (hs : (verifyKernels K V (V.nodesOf s.nodes) s.kernel).1 = .success) :
    PairedKernels K { s with
      nodes := V.nodesOf s.nodes
      kernel := (verifyKernels K V (V.nodesOf s.nodes) s.kernel).2
      verified := true
      reverify := false } := by
  obtain ⟨hnd, hsub⟩ := mem_nodesOf (V := V) h.nodup
  have hmem : ∀ n ∈ V.nodesOf s.nodes, _ := fun n hn => verifyKernels_of_mem (V := V) (K := K) hnd hs hn
  have hnot : ∀ n, n ∉ V.nodesOf s.nodes → (verifyKernels K V (V.nodesOf s.nodes) s.kernel).2 n = s.kernel n :=
    fun n hn => verifyKernels_of_notMem hn
  have hrest : ∀ n, n ∉ s.destructed → AtRest (K n) ((verifyKernels K V (V.nodesOf s.nodes) s.kernel).2 n) := by
    intro n hn
    by_cases hmn : n ∈ V.nodesOf s.nodes
    · obtain ⟨hsn, he⟩ := hmem n hmn
      rw [he]
      exact ⟨(h.atRest n hn).init (h.init n (hsub n hmn)) (h.noData n (hsub n hmn)),
        fun _ => (isInitialized_ownNodeKernelInit hsn).1⟩
    · rw [hnot n hmn]
      exact h.atRest n hn
  refine ⟨hnd, fun n hn => h.known n (hsub n hn), fun n hn => ?_, fun n hn => ?_, hrest, fun n hn => ?_, fun _ n hn => ?_,
    fun hv => by cases hv⟩
  · exact ⟨(h.destructed n hn).1, fun hmn => (h.destructed n hn).2 (hsub n hmn)⟩
  · simp only
    rw [hnot n (fun hmn => hn (h.known n (hsub n hmn)))]
    exact h.fresh n hn
  · simp only
    rw [hnot n (fun hmn => (h.destructed n hn).2 (hsub n hmn))]
    exact h.pairs n hn
  · obtain ⟨hsn, he⟩ := hmem n hn
    simp only [he]
    exact isInitialized_ownNodeKernelInit hsn

/-- The kernels of a node after a verification that fails. -/
theorem verifyNodes_failure (h : ReadyToVerify V K s) (hV : ¬ V.Succeeds K s.nodes) :
    PairedKernels K { s with
      nodes := V.nodesOf s.nodes
      kernel := (ownGraphNodeKernelDeinit K V.cleanup (V.nodesOf s.nodes)
        (verifyKernels K V (V.nodesOf s.nodes) s.kernel).2).2 } := by
  obtain ⟨hnd, hsub⟩ := mem_nodesOf (V := V) h.nodup
  have hcleanup := h.cleanup.resolve_left hV
  have hcl : ∀ n ∈ V.nodesOf s.nodes, (V.cleanup n).Deinits (K n) := fun n hn => hcleanup n (hsub n hn)
  have hnot : ∀ n, n ∉ V.nodesOf s.nodes → (ownGraphNodeKernelDeinit K V.cleanup (V.nodesOf s.nodes)
      (verifyKernels K V (V.nodesOf s.nodes) s.kernel).2).2 n = s.kernel n := by
    intro n hn
    rw [ownGraphNodeKernelDeinit, forNodes_of_notMem hn, verifyKernels_of_notMem hn]
  -- a node of the graph is de-initialised whether it was initialised or not
  have hmem : ∀ n ∈ V.nodesOf s.nodes, ∃ S, (ownGraphNodeKernelDeinit K V.cleanup (V.nodesOf s.nodes)
      (verifyKernels K V (V.nodesOf s.nodes) s.kernel).2).2 n = (ownNodeKernelDeinit (K n) (V.cleanup n) S).2 ∧
      InStep (K n) S ∧ ((K n).keepsInitialized = true → S.isInitialized = false) ∧
      (S.isTimedOut = true → S.isKernelCreated = true ∨ created S.log = true) := by
    intro n hn
    have hs := h.atRest n (fun hd => (h.destructed n hd).2 (hsub n hn))
    have hstuck : ¬ IsStuck (K n) (s.kernel n) := fun hst => hV (h.stuck n (hsub n hn) hst)
    obtain ⟨-, he⟩ := forNodes_of_mem hnd (ownGraphNodeKernelDeinit_fst
      (k := (verifyKernels K V (V.nodesOf s.nodes) s.kernel).2) hcl) n hn
    refine ⟨_, he, ?_⟩
    rcases verifyKernels_cases (K := K) (V := V) (k := s.kernel) hnd n with hsame | ⟨hp, -, hinit⟩
    · rw [hsame]
      refine ⟨hs.toInStep, fun hk => ?_, fun ht => absurd (.inr ht) hstuck⟩
      rw [← Bool.not_eq_true]
      exact fun hi => hstuck (.inl ⟨hk, hi⟩)
    · rw [hinit]
      refine ⟨hs.init (h.init n (hsub n hn)) (h.noData n (hsub n hn)), fun hk => ?_, fun ht => ?_⟩
      · rcases h.keeps n (hsub n hn) hk with hnp | hsu
        · rw [hp] at hnp
          cases hnp
        · exact absurd hsu hV
      · exact (isTimedOut_ownNodeKernelInit ht).elim (fun ht => absurd (.inr ht) hstuck) .inr
  refine ⟨hnd, fun n hn => h.known n (hsub n hn), fun n hn => ?_, fun n hn => ?_, fun n hn => ?_, fun n hn => ?_,
    fun hv => ?_, fun _ _ n hn => ?_⟩
  · exact ⟨(h.destructed n hn).1, fun hmn => (h.destructed n hn).2 (hsub n hmn)⟩
  · simp only
    rw [hnot n (fun hmn => hn (h.known n (hsub n hmn)))]
    exact h.fresh n hn
  · simp only
    by_cases hmn : n ∈ V.nodesOf s.nodes
    · obtain ⟨S, he, hS, hk, hto⟩ := hmem n hmn
      rw [he]
      exact hS.atRest (hcl n hmn) hk hto
    · rw [hnot n hmn]
      exact h.atRest n hn
  · simp only
    rw [hnot n (fun hmn => (h.destructed n hn).2 (hsub n hmn))]
    exact h.pairs n hn
  · rw [h.notVerified] at hv
    cases hv
  · obtain ⟨S, he, hS, hk, hto⟩ := hmem n hn
    simp only [he]
    exact (hS.dropped hto).localDataPtr

theorem verifyNodes_paired (h : ReadyToVerify V K s) : PairedKernels K (verifyNodes K V s) := by
  unfold verifyNodes
  simp only
  split
  · rename_i hs
    exact verifyNodes_success h hs.1
  · rename_i hs
    have hsub := (mem_nodesOf (V := V) h.nodup).2
    exact verifyNodes_failure h (fun hV => hs ⟨verifyKernels_fst (hV.mono hsub), hV.finishes⟩)

/-- The kernels of a node after the prologue of a verification. -/
theorem deinit_ready (h : PairedKernels K s) (hV : V.KeepsPairs K s) (hm : s.verified = true ∨ s.reverify = true) :
    ReadyToVerify V K { s with verified := false, kernel := (ownGraphNodeKernelDeinit K V.deinit s.nodes s.kernel).2 } := by
  have hfst : (ownGraphNodeKernelDeinit K V.deinit s.nodes s.kernel).1 = .success :=
    ownGraphNodeKernelDeinit_fst (hV.deinit hm)
  have hnot : ∀ n, n ∉ s.nodes → (ownGraphNodeKernelDeinit K V.deinit s.nodes s.kernel).2 n = s.kernel n :=
    fun n hn => forNodes_of_notMem hn
  have hmem : ∀ n ∈ s.nodes, (ownGraphNodeKernelDeinit K V.deinit s.nodes s.kernel).2 n =
      (ownNodeKernelDeinit (K n) (V.deinit n) (s.kernel n)).2 := fun n hn => (forNodes_of_mem h.nodup hfst n hn).2
  have hstuck : ∀ n ∈ s.nodes, ¬ IsStuck (K n) (s.kernel n) := by
    intro n hn hst
    obtain ⟨hv, hr, -⟩ := hV.stuck n hn hst
    rcases hm with hm | hm
    · rw [hv] at hm
      cases hm
    · rw [hr] at hm
      cases hm
  have hkeeps : ∀ n ∈ s.nodes, (K n).keepsInitialized = true → (s.kernel n).isInitialized = false := by
    intro n hn hk
    rw [← Bool.not_eq_true]
    exact fun hi => hstuck n hn (.inl ⟨hk, hi⟩)
  have htimed : ∀ n ∈ s.nodes, ¬ (s.kernel n).isTimedOut = true := fun n hn ht => hstuck n hn (.inr ht)
  have hrest : ∀ n ∈ s.nodes, AtRest (K n) (ownNodeKernelDeinit (K n) (V.deinit n) (s.kernel n)).2 := by
    intro n hn
    have hs := h.atRest n (fun hd => (h.destructed n hd).2 hn)
    exact hs.toInStep.atRest (hV.deinit hm n hn) (hkeeps n hn) (fun ht => absurd ht (htimed n hn))
  have hdata : ∀ n ∈ s.nodes, (ownNodeKernelDeinit (K n) (V.deinit n) (s.kernel n)).2.localDataPtr = none := by
    intro n hn
    have hs := h.atRest n (fun hd => (h.destructed n hd).2 hn)
    exact (hs.toInStep.dropped (fun ht => absurd ht (htimed n hn))).localDataPtr
  refine ⟨⟨h.nodup, h.known, h.destructed, fun n hn => ?_, fun n hn => ?_, fun n hn => ?_, fun hv => (by cases hv),
    fun _ _ n hn => ?_⟩, rfl, fun n hn => ?_, hV.init, hV.cleanup, hV.keeps, fun n hn hst => ?_⟩
  · simp only
    rw [hnot n (fun hmn => hn (h.known n hmn))]
    exact h.fresh n hn
  · simp only
    by_cases hmn : n ∈ s.nodes
    · rw [hmem n hmn]
      exact hrest n hmn
    · rw [hnot n hmn]
      exact h.atRest n hn
  · simp only
    rw [hnot n (h.destructed n hn).2]
    exact h.pairs n hn
  · simp only
    rw [hmem n hn]
    exact hdata n hn
  · simp only
    rw [hmem n hn]
    exact hdata n hn
  · simp only at hst
    rw [hmem n hn] at hst
    obtain ⟨hto, hi⟩ := ownNodeKernelDeinit_flags (hV.deinit hm n hn) (hkeeps n hn)
    rcases hst with ⟨hk, hi'⟩ | ht
    · rw [hi, hkeeps n hn hk] at hi'
      cases hi'
    · exact absurd (hto ▸ ht) (htimed n hn)

theorem vxVerifyGraph_paired (h : PairedKernels K s) (hV : V.enters = true → V.KeepsPairs K s) :
    PairedKernels K (vxVerifyGraph K V s) := by
  unfold vxVerifyGraph
  simp only
  split
  · rename_i he
    have hV := hV he
    split
    · rename_i hm
      rw [Bool.or_eq_true] at hm
      rw [if_pos (ownGraphNodeKernelDeinit_fst (hV.deinit hm))]
      exact verifyNodes_paired (deinit_ready h hV hm)
    · rename_i hm
      simp only [Bool.or_eq_true, not_or, Bool.not_eq_true] at hm
      apply verifyNodes_paired
      refine ⟨⟨h.nodup, h.known, h.destructed, h.fresh, h.atRest, h.pairs, fun hv => (by cases hv), fun _ => h.marked hm.1⟩,
        rfl, h.marked hm.1 hm.2, hV.init, hV.cleanup, hV.keeps, fun n hn hst => (hV.stuck n hn hst).2.2⟩
  · exact h

end Verify

section Step

variable {K : Nat → NodeKernel} {s s' : GraphObject}

/-- A verified graph is executed. -/
theorem AtRest.execute {K : NodeKernel} {S : KernelState} (h : AtRest K S) (hk : S.isKernelCreated = true)
    (hi : K.hasInitialize = true → S.isInitialized = true) : AtRest K { S with log := .execute :: S.log } := by
  refine ⟨⟨⟨⟨fun hh => h.isInitialized (hi hh), h.isKernelCreated hk⟩, h.pairs⟩, h.isInitialized, h.notInitialized,
    h.replica, h.isKernelCreated, h.wasCreated, h.isTimedOut, h.wasAllocated, h.data, fun b hb => ?_⟩, h.settled⟩
  rcases List.mem_cons.1 hb with hb | hb
  · cases hb
  · exact Nat.lt_succ_of_lt (h.fresh b hb)

theorem PairedKernels.kept {a : GraphAct} (h : PairedKernels K s) (hc : KeepsPairs K s a)
    (hs : graphStep K s a = some s') : PairedKernels K s' := by
  cases a with
  | addNode n =>
    simp only [graphStep] at hs
    split at hs
    · cases hs
    rename_i hn
    cases hs
    have hn' : n ∉ s.nodes := fun hmn => hn (h.known n hmn)
    refine ⟨?_, fun m hm => ?_, fun m hm => ⟨List.mem_cons_of_mem n (h.destructed m hm).1, fun hmn => ?_⟩, fun m hm => ?_,
      h.atRest, h.pairs, fun hv => (by cases hv), fun _ hr m hm => ?_⟩
    · exact h.nodup.append (List.nodup_singleton n) (by simpa using hn')
    · rcases List.mem_append.1 hm with hm | hm
      · exact List.mem_cons_of_mem n (h.known m hm)
      · rw [List.mem_singleton.1 hm]
        exact List.mem_cons_self
    · obtain ⟨hk, hd⟩ := h.destructed m hm
      rcases List.mem_append.1 hmn with hmn | hmn
      · exact hd hmn
      · rw [List.mem_singleton.1 hmn] at hk
        exact hn hk
    · exact h.fresh m (fun hk => hm (List.mem_cons_of_mem n hk))
    · rcases hc with hv | hc
      · rw [show s.verified = false from hr] at hv
        cases hv
      · rcases List.mem_append.1 hm with hm | hm
        · exact hc m hm
        · rw [List.mem_singleton.1 hm]
          exact h.fresh n hn
  | addSuperNode =>
    cases hs
    refine ⟨h.nodup, h.known, h.destructed, h.fresh, h.atRest, h.pairs, fun hv => (by cases hv), fun _ hr m hm => ?_⟩
    rcases hc with hv | hc
    · rw [show s.verified = false from hr] at hv
      cases hv
    · exact hc m hm
  | removeNode n =>
    simp only [graphStep] at hs
    split at hs
    · rename_i hn
      cases hs
      unfold ownGraphRemoveNode
      rw [if_pos hn]
      have hsub : ∀ m ∈ swapRemove n s.nodes, m ∈ s.nodes ∧ m ≠ n := fun m hm => mem_swapRemove h.nodup hm
      refine ⟨nodup_swapRemove h.nodup, fun m hm => h.known m (hsub m hm).1,
        fun m hm => ⟨(h.destructed m hm).1, fun hmn => (h.destructed m hm).2 (hsub m hmn).1⟩, h.fresh, h.atRest, h.pairs,
        fun hv => (by cases hv), fun _ hr m hm => ?_⟩
      rcases hc with hv | hc
      · rw [show s.verified = false from hr] at hv
        cases hv
      · exact hc m (hsub m hm).1 (hsub m hm).2
    · cases hs
  | destructNode n o =>
    simp only [graphStep] at hs
    split at hs
    · rename_i hn
      obtain ⟨hk, hnn, hnd⟩ := hn
      cases hs
      have hother : ∀ m, m ≠ n → ((ownDestructNode K s n o).kernel m) = s.kernel m :=
        fun m hm => Function.update_of_ne hm _ _
      have hself : (ownDestructNode K s n o).kernel n = { (ownNodeKernelDeinit (K n) o (s.kernel n)).2 with
          log := .destruct :: (ownNodeKernelDeinit (K n) o (s.kernel n)).2.log } := Function.update_self n _ _
      have hc : (s.kernel n).isTimedOut = false := hc
      have hd := (h.atRest n hnd).toInStep.dropped (o := o) (fun ht => by rw [hc] at ht; cases ht)
      refine ⟨h.nodup, h.known, fun m hm => ?_, fun m hm => ?_, fun m hm => ?_, fun m hm => ?_, fun hv m hm => ?_,
        fun hv hr m hm => ?_⟩
      · rcases List.mem_cons.1 hm with rfl | hm
        · exact ⟨hk, hnn⟩
        · exact h.destructed m hm
      · rw [hother m (fun hmn => hm (hmn ▸ hk))]
        exact h.fresh m hm
      · rw [hother m (fun hmn => hm (hmn ▸ List.mem_cons_self))]
        exact h.atRest m (fun hmd => hm (List.mem_cons_of_mem n hmd))
      · by_cases hmn : m = n
        · rw [hmn, hself]
          exact ⟨⟨hd.notInitialized, hd.notCreated, hd.notAllocated⟩, hd.pairs⟩
        · rw [hother m hmn]
          exact h.pairs m ((List.mem_cons.1 hm).resolve_left hmn)
      · rw [hother m (fun hmn => hnn (hmn ▸ hm))]
        exact h.executable hv m hm
      · rw [hother m (fun hmn => hnn (hmn ▸ hm))]
        exact h.marked hv hr m hm
    · cases hs
  | verifyGraph V =>
    cases hs
    exact vxVerifyGraph_paired h hc
  | execute =>
    simp only [graphStep] at hs
    split at hs
    · rename_i hv
      cases hs
      have hrest : ∀ n, n ∉ s.nodes → (executeNodes s).kernel n = s.kernel n := fun n hn => if_neg hn
      have hexec : ∀ n ∈ s.nodes, (executeNodes s).kernel n = { s.kernel n with log := .execute :: (s.kernel n).log } :=
        fun n hn => if_pos hn
      refine ⟨h.nodup, h.known, h.destructed, fun n hn => ?_, fun n hn => ?_, fun n hn => ?_, fun _ n hn => ?_,
        fun hv' => ?_⟩
      · rw [hrest n (fun hmn => hn (h.known n hmn))]
        exact h.fresh n hn
      · by_cases hmn : n ∈ s.nodes
        · obtain ⟨hk, hi⟩ := h.executable hv n hmn
          rw [hexec n hmn]
          exact (h.atRest n hn).execute hk hi
        · rw [hrest n hmn]
          exact h.atRest n hn
      · rw [hrest n (h.destructed n hn).2]
        exact h.pairs n hn
      · rw [hexec n hn]
        exact h.executable hv n hn
      · rw [show s.verified = false from hv'] at hv
        cases hv
    · cases hs

/-- **The callbacks, the commands and the local data of every node pair up**, in every run whose steps meet the
condition. -/
theorem kernelPairs_of_keepsPairs (h : Reach (graphStep K) (KeepsPairs K) {} s) (n : Nat) :
    kernelPairs (K n) (s.kernel n).log := by
  have h0 : PairedKernels K {} := by
    refine ⟨List.nodup_nil, fun n hn => (by cases hn), fun n hn => (by cases hn), fun _ _ => rfl, fun n _ => ?_,
      fun n hn => (by cases hn), fun hv => (by cases hv), fun _ _ n hn => (by cases hn)⟩
    refine ⟨⟨trivial, fun hi => (by cases hi), fun _ _ => rfl, fun m hm => (by cases hm), fun hk => (by cases hk),
      fun hc => (by cases hc), fun ht => (by cases ht), fun b => ?_, fun b hb => (by cases hb), fun b hb => (by cases hb)⟩,
      fun hc => (by cases hc)⟩
    simp [allocated]
  have hp := h.inv h0 (fun _ _ _ h hc hs => h.kept hc hs)
  by_cases hn : n ∈ s.destructed
  · exact hp.pairs n hn
  · exact (hp.atRest n hn).pairs

end Step

section Callbacks

/-- Nodes with a target kernel that is replicated twice. -/
def replicatedKernels : Nat → NodeKernel := fun _ => { isTargetKernel := true, isReplicated := true, numOfReplicas := 2 }

/-- A replicated target kernel that is verified twice and then released is initialised once and de-initialised twice. -/
theorem reverified_deinitialized_twice :
    ∃ s, Reach (graphStep replicatedKernels) (fun s a => anyStep s a = true) {} s ∧
      ¬ kernelPairs (replicatedKernels 0) (s.kernel 0).log := by
  have hexec : (exec (graphStep replicatedKernels) anyStep {}
      [.addNode 0, .verifyGraph {}, .verifyGraph {}, .removeNode 0, .destructNode 0 {}]).map (fun s => (s.kernel 0).log) =
        some [.destruct, .delete .success, .deinitialized 1 .success, .deinitialized 0 .success, .create .success,
          .delete .success, .deinitialized 1 .success, .deinitialized 0 .success, .create .success,
          .initialized 1 .success, .initialized 0 .success] := by decide
  obtain ⟨s, hr, hs⟩ := exists_reach_of_exec hexec
  refine ⟨s, hr, fun hp => ?_⟩
  rw [hs] at hp
  have htwice := hp.2.2.1
  exact absurd htwice (by decide)

/-- A user kernel with local data. -/
def userKernels : Nat → NodeKernel := fun _ => { isTargetKernel := false, localDataSize := 64 }

/-- A user kernel is verified twice, executed in between and released. -/
theorem kernelPairs_userKernels : ∃ s, Reach (graphStep userKernels) (KeepsPairs userKernels) {} s ∧
    (s.kernel 0).log = [.destruct, .free 5, .deinitialized 0 .success, .initialized 0 .success, .alloc 5, .free 0,
      .deinitialized 0 .success, .execute, .initialized 0 .success, .alloc 0] ∧
    kernelPairs (userKernels 0) (s.kernel 0).log := by
  have hexec : (exec (graphStep userKernels) (fun s a => decide (KeepsPairs userKernels s a)) {}
      [.addNode 0, .verifyGraph {}, .execute, .verifyGraph {}, .removeNode 0, .destructNode 0 {}]).map
        (fun s => (s.kernel 0).log) =
        some [.destruct, .free 5, .deinitialized 0 .success, .initialized 0 .success, .alloc 5, .free 0,
          .deinitialized 0 .success, .execute, .initialized 0 .success, .alloc 0] := by decide
  obtain ⟨s, hr, hs⟩ := exists_reach_of_exec hexec
  have hr := hr.mono (fun s a h => of_decide_eq_true h)
  exact ⟨s, hr, hs, kernelPairs_of_keepsPairs hr 0⟩

end Callbacks

end Tiovx
