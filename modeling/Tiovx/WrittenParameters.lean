import Tiovx.ResolvedParameters
/-!
# WrittenParameters — a node's run: what its calls get, and the ids it leaves

The loop over the replicas keeps nothing but the bits of the elements; what the last call leaves is translated back by the bit
alone.  So a container that was found for one of its elements stays a container, which a dequeue understands at a replicated
parameter only.
-/
namespace Tiovx

namespace ExecGraph

variable {G : ExecGraph}

section Loop

variable (G) (n p : Nat) (kernel : Nat → (Nat → Option Nat) → Nat → Option Nat) (r : Nat → Option Nat)

/-- The bit of an element is cleared by the first call where no container was acquired. -/
def elementBit (i k : Nat) : Bool :=
  (G.desc n p).isArrayElement i &&
    (decide (k = 0) || G.isPrmReplicated n i || !G.isPrmDataRefQ n p i || (r i).all (fun r => (G.ref r).isContainer))

/-- The array of call `k`. -/
def args (k i : Nat) : Option Nat :=
  if i < G.numParams n then
    (G.kernelPrm (G.isPrmReplicated n i) (G.elementBit n p r i k) (G.isPrmDataRefQ n p i) (G.prmRef n i) (r i) k).1
  else none

variable {G n p r}

theorem kernelPrm_snd {isPrmReplicated isElement isQueued : Bool} {b r : Option Nat} {k : Nat} :
    (G.kernelPrm isPrmReplicated isElement isQueued b r k).2 =
      (isElement && (isPrmReplicated || !isQueued || r.all (fun r => (G.ref r).isContainer))) := by
  unfold kernelPrm
  cases isPrmReplicated
  · cases isElement
    · cases isQueued
      · simp
      · cases r with
        | none => simp
        | some r =>
          simp only [Bool.false_eq_true, if_false, if_true]
          split <;> rfl
    · cases isQueued
      · simp
      · cases r with
        | none => simp
        | some r =>
          cases hc : (G.ref r).isContainer <;> simp [hc]
  · simp

theorem elementBit_succ (i k : Nat) :
    G.elementBit n p r i (k + 1) =
      (G.kernelPrm (G.isPrmReplicated n i) (G.elementBit n p r i k) (G.isPrmDataRefQ n p i) (G.prmRef n i) (r i) k).2 := by
  rw [kernelPrm_snd]
  unfold elementBit
  cases (G.desc n p).isArrayElement i <;> cases G.isPrmReplicated n i <;> cases G.isPrmDataRefQ n p i <;>
    cases (r i).all (fun r => (G.ref r).isContainer) <;> simp

/-- What the loop has done after `k` calls. -/
theorem callKernels_spec (k : Nat) :
    (G.callKernels n p kernel r k).calls = (List.range k).map (G.args n p r) ∧
      (∀ i < G.numParams n, (G.callKernels n p kernel r k).isPrmArrayElement i = G.elementBit n p r i k) ∧
      (G.callKernels n p kernel r k).params =
        match k with
        | 0 => fun _ => none
        | k + 1 => kernel k (G.args n p r k) := by
  induction k with
  | zero => exact ⟨rfl, fun i _ => by simp [callKernels, elementBit], rfl⟩
  | succ k ih =>
    obtain ⟨hcalls, hbit, -⟩ := ih
    have hstep : G.callKernels n p kernel r (k + 1) = G.callKernel n p kernel r (G.callKernels n p kernel r k) k := by
      unfold callKernels
      rw [List.range_succ, List.foldl_append]
      rfl
    have hargs : (fun i => if i < G.numParams n then (G.kernelPrm (G.isPrmReplicated n i)
        ((G.callKernels n p kernel r k).isPrmArrayElement i) (G.isPrmDataRefQ n p i) (G.prmRef n i) (r i) k).1
        else none) = G.args n p r k := by
      funext i
      unfold args
      split
      · rename_i hi
        rw [hbit i hi]
      · rfl
    rw [hstep]
    unfold callKernel
    simp only [hargs]
    refine ⟨?_, fun i hi => ?_, trivial⟩
    · rw [hcalls, List.range_succ, List.map_append]
      rfl
    · rw [if_pos hi, hbit i hi, elementBit_succ]

/-- The calls of a run. -/
theorem calls_eq :
    (G.ownTargetNodeDescNodeExecuteTargetKernel n p kernel r).1 = (List.range (G.loopMax n)).map (G.args n p r) :=
  (callKernels_spec kernel (G.loopMax n)).1

theorem call_iff {k : Nat} {a : Nat → Option Nat} :
    (G.ownTargetNodeDescNodeExecuteTargetKernel n p kernel r).1[k]? = some a ↔ k < G.loopMax n ∧ a = G.args n p r k := by
  rw [calls_eq, List.getElem?_map]
  by_cases hk : k < G.loopMax n
  · rw [List.getElem?_range hk]
    simp [hk, eq_comm]
  · rw [List.getElem?_eq_none (by simpa using hk)]
    simp [hk]

/-- The ids a run leaves. -/
theorem written_eq {i : Nat} (hi : i < G.numParams n) :
    (G.ownTargetNodeDescNodeExecuteTargetKernel n p kernel r).2 i =
      G.writtenBack (G.isPrmReplicated n i) (G.elementBit n p r i (G.loopMax n)) (G.isPrmDataRefQ n p i) (r i)
        (match G.loopMax n with
          | 0 => none
          | k + 1 => kernel k (G.args n p r k) i) := by
  obtain ⟨-, hbit, hparams⟩ := callKernels_spec (G := G) (n := n) (p := p) (r := r) kernel (G.loopMax n)
  unfold ownTargetNodeDescNodeExecuteTargetKernel
  simp only [if_pos hi, hbit i hi, hparams]
  cases G.loopMax n <;> rfl

end Loop

section WriteBack

variable {u : QueueUse} {b r U X k : Nat} {isElement : Bool}

theorem received_cases (h : (G.kernelPrm false isElement true (some b) (some r) k).1 = some X) :
    (isElement && (G.ref r).isContainer) = true ∧ G.item r (G.elementIdx b) = some X ∨
      (isElement && (G.ref r).isContainer) = false ∧ (X = r ∨ G.container r = some X) := by
  cases isElement with
  | true =>
    rw [kernelPrm_element] at h
    split at h
    · rename_i hc
      exact .inl ⟨by simp [hc], h⟩
    · rename_i hc
      exact .inr ⟨by simpa using hc, .inl (Option.some.inj h).symm⟩
  | false =>
    refine .inr ⟨rfl, ?_⟩
    obtain hn | ⟨c, hc, ht⟩ := plain_cases (G := G) b r
    · rw [kernelPrm_plain_of_not hn] at h
      exact .inl (Option.some.inj h).symm
    · rw [kernelPrm_plain_of_container hc ht] at h
      exact .inr (hc.trans h)

/-- What a call got is an element of what was acquired where the bit is kept. -/
theorem scope_received (h : (G.kernelPrm false isElement true (some b) (some r) k).1 = some X) :
    (G.ref X).scope = some r ↔ (isElement && (G.ref r).isContainer) = true := by
  obtain ⟨hk, hX⟩ | ⟨hk, rfl | hX⟩ := received_cases h <;> rw [hk]
  · exact ⟨fun _ => rfl, fun _ => scope_of_item hX⟩
  · exact ⟨fun h => absurd rfl (scope_ne h), fun h => by cases h⟩
  · exact ⟨fun h => absurd h (scope_scope_ne (container_eq_some.1 hX).1), fun h => by cases h⟩

/-- The container of what was acquired is returned as what was acquired only at a replicated parameter of another type. -/
theorem returned_container_iff {c : Nat} (h : G.returned u r = some U) (hr : r = U ∨ (G.ref U).scope = some r)
    (hc : G.container r = some c) :
    G.returned u c = some U ↔ r = U ∧ u.isReplicated = true ∧ (G.ref c).type ≠ u.type := by
  have hsc := (container_eq_some.1 hc).1
  cases hu : u.isReplicated with
  | false =>
    rw [returned_eq_some_of_not hu]
    obtain ⟨rfl, -⟩ := (returned_eq_some_of_not hu).1 h
    simp [scope_ne hsc]
  | true =>
    rw [returned_eq_some_of_replicated hu]
    obtain ⟨ht, ⟨rfl, hitem⟩ | ⟨hne, -, hitem, -⟩⟩ := acquired_cases h hr
    · obtain ⟨c', hc'⟩ := hitem hu
      obtain rfl : c = c' := Option.some.inj (hc.symm.trans (item_eq_some.1 hc').1)
      constructor
      · rintro ⟨d, hd, hi, -⟩
        refine ⟨rfl, rfl, fun hT => ?_⟩
        obtain rfl : c = d := Option.some.inj (hc.symm.trans (item_eq_some.1 hi).1)
        rw [if_pos hT] at hd
        exact scope_ne hd rfl
      · rintro ⟨-, -, hT⟩
        exact ⟨c, by rw [if_neg hT], hc', ht⟩
    · refine ⟨?_, fun h => absurd h.1 hne⟩
      rintro ⟨d, hd, hi, -⟩
      obtain rfl : r = d := Option.some.inj ((scope_of_item hitem).symm.trans (scope_of_item hi))
      split at hd
      · exact absurd hd (scope_scope_ne hsc)
      · exact absurd hd (scope_ne hsc)

/-- **No call changed the parameter**: the acquired reference is returned, unless the kernel got its container. -/
theorem unchanged_iff (h : G.returned u r = some U) (hr : r = U ∨ (G.ref U).scope = some r)
    (hX : (G.kernelPrm false isElement true (some b) (some r) k).1 = some X) :
    (G.writtenBack false (isElement && (G.ref r).isContainer) true (some r) (some X)).bind (G.returned u) = some U ↔
      ((G.ref r).scope = some X → r = U ∧ u.isReplicated = true ∧ (G.ref X).type ≠ u.type) := by
  simp only [writtenBack, and_self, if_true]
  obtain ⟨hk, hX⟩ | ⟨hk, hX⟩ := received_cases hX <;> rw [hk]
  · rw [if_pos rfl, (item_eq_some.1 hX).1, Option.bind_some]
    exact ⟨fun _ hs => absurd hs (scope_scope_ne (scope_of_item hX)), fun _ => h⟩
  · rw [if_neg (by simp), Option.bind_some]
    obtain rfl | hX := hX
    · exact ⟨fun _ hs => absurd rfl (scope_ne hs), fun _ => h⟩
    · rw [returned_container_iff h hr hX]
      exact ⟨fun h _ => h, fun h => h (container_eq_some.1 hX).1⟩

/-- **The last call changed the parameter**: the id left is that of the replacement or, for an element, that of a container in
which it has the place of the parameter. -/
theorem replaces_last_iff {y : Option Nat} (hX : (G.kernelPrm false isElement true (some b) (some r) k).1 = some X) :
    G.Replaces r b (some X) y (G.writtenBack false (isElement && (G.ref r).isContainer) true (some r) y) ↔
      ((G.ref X).scope = some r → ∀ z, y = some z → ∃ c, G.container z = some c ∧ G.elementIdx z = G.elementIdx b) := by
  have hs := scope_received hX
  simp only [Replaces, writtenBack, and_self, if_true, Option.bind_some]
  cases hk : (isElement && (G.ref r).isContainer) with
  | false =>
    rw [hk] at hs
    rw [if_neg (fun h => by cases hs.1 h)]
    cases y <;> simp [hs]
  | true =>
    rw [hk] at hs
    rw [if_pos (hs.2 rfl)]
    cases y with
    | none => simp
    | some z =>
      simp only [if_true, hs, true_implies, Option.some.injEq, forall_eq']
      cases hc : G.container z with
      | none => simp
      | some c => simp [item_eq_some, hc]

/-- A call that changed the parameter in another way than the last does not get its replacement back. -/
theorem replaces_iff {y y' : Option Nat} (hX : (G.kernelPrm false isElement true (some b) (some r) k).1 = some X)
    (hy : y ≠ some X →
      G.Replaces r b (some X) y (G.writtenBack false (isElement && (G.ref r).isContainer) true (some r) y)) :
    G.Replaces r b (some X) y' (G.writtenBack false (isElement && (G.ref r).isContainer) true (some r) y) ↔ y' = y := by
  have hs := scope_received hX
  have hcases := received_cases hX
  simp only [Replaces, writtenBack, and_self, if_true, Option.bind_some] at hy ⊢
  cases hk : (isElement && (G.ref r).isContainer) with
  | false =>
    rw [hk] at hs
    rw [if_neg (fun h => by cases hs.1 h)]
    cases y <;> simp [eq_comm]
  | true =>
    rw [hk] at hs hy hcases
    obtain ⟨-, hitem⟩ := hcases.resolve_right (fun h => by cases h.1)
    rw [if_pos (hs.2 rfl)] at hy ⊢
    by_cases hyX : y = some X
    · subst hyX
      simp only [if_true, (item_eq_some.1 hitem).1, Option.bind_some, hitem]
      exact eq_comm
    · rw [hy hyX]
      exact eq_comm

end WriteBack

section Run

variable (G) (n p : Nat) (kernel : Nat → (Nat → Option Nat) → Nat → Option Nat) (got : Nat → Option Nat)

/-- The array of call `k` as the user bound it. -/
def boundArgs (k i : Nat) : Option Nat := if i < G.numParams n then G.boundTo n p got i k else none

/-- **The condition**: there is a call, unless all that is queued is replicated; each call fits for each parameter; the
container of what was acquired is got only where a dequeue gives its first element back; and all calls that change a
parameter leave the same in it, an element in a container at the place of the parameter where that is an element. -/
structure ParametersFit : Prop where
  called : G.loopMax n = 0 → ∀ i < G.numParams n, G.isPrmDataRefQ n p i = true → G.isPrmReplicated n i = true
  calls : ∀ i < G.numParams n, G.isPrmReplicated n i = false → ∀ b u r U, G.Takes n p got i b u r U → ∀ k < G.loopMax n,
    G.CallFits u ((G.desc n p).isArrayElement i && (decide (k = 0) || (G.ref r).isContainer)) b r U
  replicas : ∀ i < G.numParams n, G.isPrmReplicated n i = true → 0 < G.loopMax n → ∀ b, G.prmRef n i = some b →
    if G.isPrmDataRefQ n p i then ∀ u r U, G.Takes n p got i b u r U → G.ReplicasFit u (G.loopMax n) b r U
    else ∃ c, G.container b = some c ∧ G.loopMax n ≤ (G.ref c).items.length
  returns : ∀ i < G.numParams n, G.isPrmReplicated n i = false → 0 < G.loopMax n → ∀ b u r U X, G.Takes n p got i b u r U →
    G.rebound u U b = some X → (∀ k < G.loopMax n, kernel k (G.boundArgs n p got k) i = some X) →
      (G.ref r).scope = some X → r = U ∧ u.isReplicated = true ∧ (G.ref X).type ≠ u.type
  replacements : ∀ i < G.numParams n, G.isPrmReplicated n i = false → ∀ b u r U X, G.Takes n p got i b u r U →
    G.rebound u U b = some X → ∀ k < G.loopMax n, kernel k (G.boundArgs n p got k) i ≠ some X →
      kernel k (G.boundArgs n p got k) i = kernel (G.loopMax n - 1) (G.boundArgs n p got (G.loopMax n - 1)) i ∧
        ((G.ref X).scope = some r → ∀ z, kernel (G.loopMax n - 1) (G.boundArgs n p got (G.loopMax n - 1)) i = some z →
          ∃ c, G.container z = some c ∧ G.elementIdx z = G.elementIdx b)

variable {G n p kernel got} {i b r U k : Nat} {u : QueueUse}

theorem Takes.isPrmDataRefQ (h : G.Takes n p got i b u r U) : G.isPrmDataRefQ n p i = true := by
  have := h.use
  unfold useAt at this
  unfold ExecGraph.isPrmDataRefQ
  cases hq : (G.desc n p).prmQueue i with
  | none => simp [hq] at this
  | some q => rfl

/-- In a graph whose queues are linked as a first verification does, what a parameter takes is for a related reference. -/
theorem Takes.related (hlink : G.Linked) (h : G.Takes n p got i b u r U) : G.Related u.ref b := by
  obtain ⟨q, hq, hu⟩ : ∃ q, (G.desc n p).prmQueue i = some (some q) ∧ G.queueUse q = some u := by
    have := h.use
    unfold useAt at this
    cases hq : (G.desc n p).prmQueue i with
    | none => simp [hq] at this
    | some o =>
      cases o with
      | none => simp [hq] at this
      | some q => exact ⟨q, rfl, by simpa [hq] using this⟩
  obtain ⟨x, ρ, b', hx, hρ, hb', hrel⟩ := hlink n p i q hq
  obtain rfl : b = b' := Option.some.inj (h.bound.symm.trans hb')
  have huse : ∀ type, G.useOf x type = some u → u.ref = ρ := by
    intro type hu
    unfold useOf at hu
    rw [hρ] at hu
    cases hu
    rfl
  suffices u.ref = ρ by rwa [this]
  cases q with
  | parameter k =>
    obtain ⟨P, hP, rfl⟩ := Option.map_eq_some_iff.1 hx
    simp only [queueUse, hP, Option.bind_some] at hu
    exact huse _ hu
  | dataRef k =>
    obtain ⟨Q, hQ, rfl⟩ := Option.map_eq_some_iff.1 hx
    simp only [queueUse, hQ, Option.bind_some] at hu
    exact huse _ hu
  | delayDataRef k =>
    obtain ⟨Q, hQ, hprm⟩ := Option.bind_eq_some_iff.1 hx
    simp only [queueUse, hQ, Option.bind_some, hprm] at hu
    exact huse _ hu

theorem Takes.acquired (h : G.Takes n p got i b u r U) : G.acquired n p got i = some r := by
  unfold ExecGraph.acquired
  rw [if_pos h.isPrmDataRefQ, h.got]

theorem Takes.boundTo (h : G.Takes n p got i b u r U) :
    G.boundTo n p got i k = (G.rebound u U b).bind (fun X => G.forReplica (G.isPrmReplicated n i) X k) := by
  unfold ExecGraph.boundTo
  rw [h.bound, Option.bind_some, if_pos h.isPrmDataRefQ, h.use, h.got, Option.bind_some, Option.bind_some, h.returned,
    Option.bind_some]

theorem Takes.args (h : G.Takes n p got i b u r U) (hi : i < G.numParams n) :
    G.args n p (G.acquired n p got) k i =
      (G.kernelPrm (G.isPrmReplicated n i) (G.elementBit n p (G.acquired n p got) i k) true (some b) (some r) k).1 := by
  unfold ExecGraph.args
  rw [if_pos hi, h.isPrmDataRefQ, h.bound, h.acquired]

theorem Takes.elementBit (h : G.Takes n p got i b u r U) (hrep : G.isPrmReplicated n i = false) :
    G.elementBit n p (G.acquired n p got) i k =
      ((G.desc n p).isArrayElement i && (decide (k = 0) || (G.ref r).isContainer)) := by
  unfold ExecGraph.elementBit
  rw [h.isPrmDataRefQ, h.acquired, hrep]
  simp

/-- A parameter with a queue, not replicated. -/
theorem Takes.received_iff (h : G.Takes n p got i b u r U) (hi : i < G.numParams n) (hrep : G.isPrmReplicated n i = false) :
    (G.args n p (G.acquired n p got) k i = G.boundTo n p got i k ∧ (G.args n p (G.acquired n p got) k i).isSome = true) ↔
      G.CallFits u ((G.desc n p).isArrayElement i && (decide (k = 0) || (G.ref r).isContainer)) b r U := by
  rw [h.args hi, h.boundTo, hrep, h.elementBit hrep, ← callFits_iff h.returned h.holds (k := k)]
  have : (G.rebound u U b).bind (fun X => G.forReplica false X k) = G.rebound u U b := by
    cases G.rebound u U b <;> rfl
  rw [this]
  constructor
  · rintro ⟨heq, hsome⟩
    exact ⟨heq, heq ▸ hsome⟩
  · rintro ⟨heq, hsome⟩
    exact ⟨heq, heq ▸ hsome⟩

/-- A parameter with a queue, replicated. -/
theorem Takes.replicas_iff (h : G.Takes n p got i b u r U) (hi : i < G.numParams n) (hrep : G.isPrmReplicated n i = true)
    (hL : 0 < G.loopMax n) :
    (∀ k < G.loopMax n, G.args n p (G.acquired n p got) k i = G.boundTo n p got i k ∧
      (G.args n p (G.acquired n p got) k i).isSome = true) ↔ G.ReplicasFit u (G.loopMax n) b r U := by
  rw [← replicasFit_iff true hL h.returned h.holds]
  refine forall_congr' fun k => imp_congr_right fun _ => ?_
  rw [h.args hi, h.boundTo, hrep]
  have hbit : ∀ e e', (G.kernelPrm true e true (some b) (some r) k).1 = (G.kernelPrm true e' true (some b) (some r) k).1 :=
    fun _ _ => rfl
  rw [hbit _ true]
  constructor
  · rintro ⟨heq, hsome⟩
    exact ⟨heq, heq ▸ hsome⟩
  · rintro ⟨heq, hsome⟩
    exact ⟨heq, heq ▸ hsome⟩

/-- A parameter without a queue, not replicated. -/
theorem args_plain (hi : i < G.numParams n) (hq : G.isPrmDataRefQ n p i = false) (hrep : G.isPrmReplicated n i = false)
    (hb : G.prmRef n i = some b) :
    G.args n p (G.acquired n p got) k i = some b ∧ G.boundTo n p got i k = some b := by
  constructor
  · unfold args acquired kernelPrm
    rw [if_pos hi, hq, hrep, hb]
    simp only [Bool.false_eq_true, if_false]
    split <;> rfl
  · unfold boundTo
    rw [hb, Option.bind_some, hq, hrep]
    rfl

/-- A parameter without a queue, replicated. -/
theorem replicas_plain_iff (hi : i < G.numParams n) (hq : G.isPrmDataRefQ n p i = false) (hrep : G.isPrmReplicated n i = true)
    (hb : G.prmRef n i = some b) (hL : 0 < G.loopMax n) :
    (∀ k < G.loopMax n, G.args n p (G.acquired n p got) k i = G.boundTo n p got i k ∧
      (G.args n p (G.acquired n p got) k i).isSome = true) ↔
      ∃ c, G.container b = some c ∧ G.loopMax n ≤ (G.ref c).items.length := by
  have hargs : ∀ k, G.args n p (G.acquired n p got) k i = G.item ((G.container b).getD b) k := by
    intro k
    unfold args acquired kernelPrm
    rw [if_pos hi, hq, hrep, hb]
    rfl
  have hbound : ∀ k, G.boundTo n p got i k = (G.container b).bind (fun c => G.item c k) := by
    intro k
    unfold boundTo
    rw [hb, Option.bind_some, hq, hrep]
    rfl
  simp only [hargs, hbound]
  have hiff := items_eq_iff (G := G) (c := (G.container b).getD b) (o := G.container b) hL
  constructor
  · intro h
    obtain ⟨hlen, hc⟩ := hiff.1 (fun k hk => ⟨(h k hk).1, (h k hk).1 ▸ (h k hk).2⟩)
    exact ⟨_, hc, hlen⟩
  · rintro ⟨c, hc, hlen⟩ k hk
    obtain ⟨heq, hsome⟩ := hiff.2 ⟨by rwa [hc], by rw [hc]; rfl⟩ k hk
    exact ⟨heq, heq ▸ hsome⟩

/-- A parameter without a reference. -/
theorem args_none (hq : G.isPrmDataRefQ n p i = false) (hb : G.prmRef n i = none) :
    G.args n p (G.acquired n p got) k i = none ∧ G.boundTo n p got i k = none := by
  constructor
  · unfold args acquired kernelPrm
    rw [hq, hb]
    split
    · simp only [Bool.false_eq_true, if_false, Option.bind_none]
      split
      · rfl
      · split <;> rfl
    · rfl
  · unfold boundTo
    rw [hb]
    rfl

theorem run_call_iff {a : Nat → Option Nat} :
    (G.run n p kernel got).1[k]? = some a ↔ k < G.loopMax n ∧ a = G.args n p (G.acquired n p got) k :=
  call_iff kernel

/-- The calls get what the user bound. -/
def Received (G : ExecGraph) (n p : Nat) (got : Nat → Option Nat) : Prop :=
  ∀ k < G.loopMax n, ∀ i < G.numParams n, G.args n p (G.acquired n p got) k i = G.boundTo n p got i k ∧
    ((G.prmRef n i).isSome = true → (G.args n p (G.acquired n p got) k i).isSome = true)

theorem Received.args_eq (h : Received G n p got) (hk : k < G.loopMax n) :
    G.args n p (G.acquired n p got) k = G.boundArgs n p got k := by
  funext i
  unfold boundArgs
  by_cases hi : i < G.numParams n
  · rw [if_pos hi]
    exact (h k hk i hi).1
  · rw [if_neg hi]
    exact if_neg hi

/-- What a parameter with a queue gets, where the calls get what the user bound. -/
theorem Received.kernelPrm (h : Received G n p got) (ht : G.Takes n p got i b u r U) (hi : i < G.numParams n)
    (hrep : G.isPrmReplicated n i = false) (hL : 0 < G.loopMax n) :
    ∃ X, G.rebound u U b = some X ∧
      (G.kernelPrm false ((G.desc n p).isArrayElement i) true (some b) (some r) 0).1 = some X ∧
      ∀ k < G.loopMax n, G.args n p (G.acquired n p got) k i = some X := by
  have hbound : ∀ k, G.boundTo n p got i k = G.rebound u U b := by
    intro k
    rw [ht.boundTo, hrep]
    cases G.rebound u U b <;> rfl
  have hsome := (h 0 hL i hi).2 (by rw [ht.bound]; rfl)
  rw [(h 0 hL i hi).1, hbound] at hsome
  obtain ⟨X, hX⟩ := Option.isSome_iff_exists.1 hsome
  refine ⟨X, hX, ?_, fun k hk => by rw [(h k hk i hi).1, hbound, hX]⟩
  have h₀ := (h 0 hL i hi).1
  rw [ht.args hi, hrep, ht.elementBit hrep, hbound, hX] at h₀
  simpa using h₀

theorem received_iff
    (hgot : ∀ i < G.numParams n, G.isPrmDataRefQ n p i = true → ∃ b u r U, G.Takes n p got i b u r U) :
    Received G n p got ↔
      (∀ i < G.numParams n, G.isPrmReplicated n i = false → ∀ b u r U, G.Takes n p got i b u r U → ∀ k < G.loopMax n,
        G.CallFits u ((G.desc n p).isArrayElement i && (decide (k = 0) || (G.ref r).isContainer)) b r U) ∧
      (∀ i < G.numParams n, G.isPrmReplicated n i = true → 0 < G.loopMax n → ∀ b, G.prmRef n i = some b →
        if G.isPrmDataRefQ n p i then ∀ u r U, G.Takes n p got i b u r U → G.ReplicasFit u (G.loopMax n) b r U
        else ∃ c, G.container b = some c ∧ G.loopMax n ≤ (G.ref c).items.length) := by
  constructor
  · intro h
    have hb : ∀ {i b}, G.prmRef n i = some b → i < G.numParams n → ∀ k < G.loopMax n,
        G.args n p (G.acquired n p got) k i = G.boundTo n p got i k ∧
          (G.args n p (G.acquired n p got) k i).isSome = true :=
      fun hb hi k hk => ⟨(h k hk _ hi).1, (h k hk _ hi).2 (by rw [hb]; rfl)⟩
    refine ⟨fun i hi hrep b u r U ht k hk => (ht.received_iff hi hrep).1 (hb ht.bound hi k hk), fun i hi hrep hL b hbi => ?_⟩
    split
    · intro u r U ht
      exact (ht.replicas_iff hi hrep hL).1 (hb hbi hi)
    · rename_i hq
      exact (replicas_plain_iff hi (by simpa using hq) hrep hbi hL).1 (hb hbi hi)
  · rintro ⟨hcalls, hreplicas⟩ k hk i hi
    have hL : 0 < G.loopMax n := Nat.lt_of_le_of_lt (Nat.zero_le k) hk
    cases hq : G.isPrmDataRefQ n p i with
    | true =>
      obtain ⟨b, u, r, U, ht⟩ := hgot i hi hq
      cases hrep : G.isPrmReplicated n i with
      | true =>
        have hfit := hreplicas i hi hrep hL b ht.bound
        rw [if_pos hq] at hfit
        obtain ⟨heq, hsome⟩ := (ht.replicas_iff hi hrep hL).2 (hfit u r U ht) k hk
        exact ⟨heq, fun _ => hsome⟩
      | false =>
        obtain ⟨heq, hsome⟩ := (ht.received_iff hi hrep).2 (hcalls i hi hrep b u r U ht k hk)
        exact ⟨heq, fun _ => hsome⟩
    | false =>
      cases hb : G.prmRef n i with
      | none =>
        obtain ⟨ha, hbo⟩ : G.args n p (G.acquired n p got) k i = none ∧ G.boundTo n p got i k = none := args_none hq hb
        exact ⟨ha.trans hbo.symm, fun h => by cases h⟩
      | some b =>
        cases hrep : G.isPrmReplicated n i with
        | true =>
          have hfit := hreplicas i hi hrep hL b hb
          rw [if_neg (by simp [hq])] at hfit
          obtain ⟨heq, hsome⟩ := (replicas_plain_iff hi hq hrep hb hL).2 hfit k hk
          exact ⟨heq, fun _ => hsome⟩
        | false =>
          obtain ⟨ha, hbo⟩ : G.args n p (G.acquired n p got) k i = some b ∧ G.boundTo n p got i k = some b :=
            args_plain hi hq hrep hb
          exact ⟨ha.trans hbo.symm, fun _ => by rw [ha]; rfl⟩

/-- What is left for a parameter that is not replicated. -/
theorem Takes.written (h : G.Takes n p got i b u r U) (hi : i < G.numParams n) (hrep : G.isPrmReplicated n i = false)
    (hL : 0 < G.loopMax n) :
    (G.run n p kernel got).2 i =
      G.writtenBack false ((G.desc n p).isArrayElement i && (G.ref r).isContainer) true (some r)
        (kernel (G.loopMax n - 1) (G.args n p (G.acquired n p got) (G.loopMax n - 1)) i) := by
  unfold run
  rw [written_eq kernel hi, hrep, h.elementBit hrep, h.isPrmDataRefQ, h.acquired]
  obtain ⟨k, hk⟩ := Nat.exists_eq_add_one.2 hL
  rw [hk]
  simp

/-- What is left for a replicated parameter. -/
theorem Takes.written_replicated (h : G.Takes n p got i b u r U) (hi : i < G.numParams n) (hrep : G.isPrmReplicated n i = true) :
    (G.run n p kernel got).2 i = some r := by
  unfold run
  rw [written_eq kernel hi, hrep, h.acquired]
  exact if_neg (by simp)

/-- **When kernels get what was bound, and queues what they gave.** -/
theorem parametersOk_iff
    (hgot : ∀ i < G.numParams n, G.isPrmDataRefQ n p i = true → ∃ b u r U, G.Takes n p got i b u r U) :
    G.ParametersOk n p kernel got ↔ G.ParametersFit n p kernel got := by
  constructor
  · intro h
    have hrec : Received G n p got := by
      intro k hk i hi
      obtain ⟨a, ha, hprm⟩ := h.received k hk
      obtain ⟨-, rfl⟩ := run_call_iff.1 ha
      exact hprm i hi
    obtain ⟨hcalls, hreplicas⟩ := (received_iff hgot).1 hrec
    refine ⟨fun hL i hi hq => ?_, hcalls, hreplicas, fun i hi hrep hL b u r U X ht hX hkeep hs => ?_,
      fun i hi hrep b u r U X ht hX k hk hne => ?_⟩
    · obtain ⟨b, u, r, U, ht⟩ := hgot i hi hq
      by_contra hrep
      rw [Bool.not_eq_true] at hrep
      have hun := h.unchanged i hi b u r U ht (fun k a ha => by
        have := (run_call_iff.1 ha).1
        omega)
      unfold run at hun
      rw [written_eq kernel hi, hL] at hun
      simp [writtenBack, hq, hrep] at hun
    · obtain ⟨X', hX', hk₀, hargs⟩ := hrec.kernelPrm ht hi hrep hL
      obtain rfl : X = X' := Option.some.inj (hX.symm.trans hX')
      have hun := h.unchanged i hi b u r U ht (fun k a ha => by
        obtain ⟨hk, rfl⟩ := run_call_iff.1 ha
        rw [hargs k hk, hrec.args_eq hk, hkeep k hk])
      rw [ht.written hi hrep hL, hrec.args_eq (by omega), hkeep _ (by omega)] at hun
      exact (unchanged_iff ht.returned ht.holds hk₀).1 hun hs
    · have hL : 0 < G.loopMax n := Nat.lt_of_le_of_lt (Nat.zero_le k) hk
      have hlast : G.loopMax n - 1 < G.loopMax n := by omega
      obtain ⟨X', hX', hk₀, hargs⟩ := hrec.kernelPrm ht hi hrep hL
      obtain rfl : X = X' := Option.some.inj (hX.symm.trans hX')
      have hrepl : ∀ j < G.loopMax n, kernel j (G.boundArgs n p got j) i ≠ some X →
          G.Replaces r b (some X) (kernel j (G.boundArgs n p got j) i)
            (G.writtenBack false ((G.desc n p).isArrayElement i && (G.ref r).isContainer) true (some r)
              (kernel (G.loopMax n - 1) (G.boundArgs n p got (G.loopMax n - 1)) i)) := by
        intro j hj hjne
        have := h.replaced i hi hrep b u r U ht j _ (run_call_iff.2 ⟨hj, rfl⟩) (by rwa [hargs j hj, hrec.args_eq hj])
        rwa [ht.written hi hrep hL, hargs j hj, hrec.args_eq hj, hrec.args_eq hlast] at this
      have heq := (replaces_iff hk₀ (hrepl _ hlast)).1 (hrepl k hk hne)
      exact ⟨heq, (replaces_last_iff hk₀).1 (hrepl _ hlast (heq ▸ hne))⟩
  · intro h
    have hrec : Received G n p got := (received_iff hgot).2 ⟨h.calls, h.replicas⟩
    refine ⟨fun k hk => ⟨_, run_call_iff.2 ⟨hk, rfl⟩, hrec k hk⟩, fun i hi b u r U ht hkeep => ?_,
      fun i hi hrep b u r U ht k a ha hne => ?_⟩
    · cases hrep : G.isPrmReplicated n i with
      | true =>
        rw [ht.written_replicated hi hrep, Option.bind_some]
        exact ht.returned
      | false =>
        have hL : 0 < G.loopMax n := by
          by_contra hL
          have := h.called (by omega) i hi ht.isPrmDataRefQ
          rw [hrep] at this
          cases this
        obtain ⟨X, hX, hk₀, hargs⟩ := hrec.kernelPrm ht hi hrep hL
        have hsame : ∀ k < G.loopMax n, kernel k (G.args n p (G.acquired n p got) k) i = some X := by
          intro k hk
          rw [hkeep k _ (run_call_iff.2 ⟨hk, rfl⟩), hargs k hk]
        rw [ht.written hi hrep hL, hsame _ (by omega), unchanged_iff ht.returned ht.holds hk₀]
        apply h.returns i hi hrep hL b u r U X ht hX
        intro k hk
        rw [← hrec.args_eq hk, hsame k hk]
    · obtain ⟨hk, rfl⟩ := run_call_iff.1 ha
      have hL : 0 < G.loopMax n := Nat.lt_of_le_of_lt (Nat.zero_le k) hk
      have hlast : G.loopMax n - 1 < G.loopMax n := by omega
      obtain ⟨X, hX, hk₀, hargs⟩ := hrec.kernelPrm ht hi hrep hL
      rw [hargs k hk, hrec.args_eq hk] at hne
      obtain ⟨heq, hplace⟩ := h.replacements i hi hrep b u r U X ht hX k hk hne
      rw [ht.written hi hrep hL, hargs k hk, hrec.args_eq hk, hrec.args_eq hlast, heq]
      exact (replaces_last_iff hk₀).2 hplace

end Run

section Pairs

/-- Object arrays of two images: every third reference is an array, and the next two are its elements. -/
def imagePairs (r : Nat) : VxRef :=
  if r % 3 = 0 then { type := .objectArray, elements := [r + 1, r + 2] }
  else { type := .image, scope := some (r - r % 3), isArrayElement := true }

/-- Node 0 writes `out`, which is a graph parameter with the references of `l`, and node 1 reads `inp`. -/
def pairState (out inp : Nat) (l : List Nat) : GraphState :=
  GraphState.ownGraphLinkArrayElements
    { ref := imagePairs
      nodes := [0, 1]
      node := fun n => { prms := [if n = 0 then { dir := .output, ref := some out } else { dir := .input, ref := some inp }] }
      parameters := [{ node := 0, index := 0, queueEnable := true, refsList := l }] }

theorem pairState_fresh (out inp : Nat) (l : List Nat) (n p i : Nat) : ((pairState out inp l).desc n p).prmQueue i = none := by
  simp only [pairState, GraphState.ownGraphLinkArrayElements]
  split <;> rfl

theorem pairState_ref (out inp : Nat) (l : List Nat) :
    (pairState out inp l).ownGraphLinkDataReferenceQueues.ref = imagePairs := by
  rw [(GraphState.linked_of_fresh (pairState_fresh out inp l)).2]
  rfl

theorem imagePairs_item_iff (c j y : Nat) (hc : (imagePairs c).isContainer = true) :
    (imagePairs c).elements[j]? = some y ↔ (imagePairs y).scope = some c ∧ y % 3 - 1 = j := by
  have hc3 : c % 3 = 0 := by
    by_contra h
    simp [imagePairs, VxRef.isContainer, h] at hc
  simp only [imagePairs, if_pos hc3]
  by_cases hy : y % 3 = 0
  · rw [if_pos hy]
    rcases j with _ | _ | j <;> simp <;> omega
  · rw [if_neg hy]
    rcases j with _ | _ | j <;> simp <;> omega

/-- The graph as its verification leaves it. -/
def pairGraph (out inp : Nat) (l : List Nat) : ExecGraph :=
  { toGraphState := (pairState out inp l).ownGraphLinkDataReferenceQueues
    elementIdx := fun r => r % 3 - 1
    item_iff := fun c j y hc => by
      rw [pairState_ref] at hc ⊢
      exact imagePairs_item_iff c j y hc
    acyclic := by
      refine ⟨fun r => if r % 3 = 0 then 1 else 0, fun x c h => ?_⟩
      rw [pairState_ref] at h
      unfold imagePairs at h
      split at h
      · cases h
      · rename_i hx
        have : x - x % 3 = c := Option.some.inj h
        have hc : c % 3 = 0 := by omega
        simp [hx, hc] }

/-- Node 1 reads the second element of the array that node 0 writes, its kernel leaves its array as it is, and array 3 was
acquired. -/
theorem element_parametersOk :
    (pairGraph 0 2 [0, 3]).ParametersOk 1 0 (fun _ a => a) (fun _ => some 3) := by
  have hb : ∀ {b u r U}, (pairGraph 0 2 [0, 3]).Takes 1 0 (fun _ => some 3) 0 b u r U →
      b = 2 ∧ u = ⟨0, false, .objectArray⟩ ∧ r = 3 ∧ U = 3 := by
    rintro b u r U ⟨hbound, huse, ⟨⟩, hret, -⟩
    obtain rfl : 2 = b := Option.some.inj (Eq.trans (by decide) hbound)
    obtain rfl : ⟨0, false, .objectArray⟩ = u := Option.some.inj (Eq.trans (by decide) huse)
    obtain rfl : 3 = U := Option.some.inj (Eq.trans (by decide) hret)
    exact ⟨rfl, rfl, rfl, rfl⟩
  have hi : ∀ {i}, i < (pairGraph 0 2 [0, 3]).numParams 1 → i = 0 := fun h => Nat.lt_one_iff.1 h
  refine (parametersOk_iff fun i h _ => ?_).2 ⟨fun h => absurd h (by decide), fun i h _ b u r U ht k hk => ?_,
    fun i h hrep => ?_, fun i h _ _ b u r U X ht hX _ hs => ?_, fun i h _ b u r U X ht hX k hk hne => ?_⟩
  · obtain rfl := hi h
    exact ⟨2, ⟨0, false, .objectArray⟩, 3, 3, by decide, by decide, rfl, by decide, .inl rfl⟩
  · obtain rfl := hi h
    obtain ⟨rfl, rfl, rfl, rfl⟩ := hb ht
    obtain rfl : k = 0 := Nat.lt_one_iff.1 hk
    exact ⟨by decide, rfl, by decide⟩
  · obtain rfl := hi h
    exact absurd hrep (by decide)
  · obtain rfl := hi h
    obtain ⟨rfl, rfl, rfl, rfl⟩ := hb ht
    have hscope : ((pairGraph 0 2 [0, 3]).ref 3).scope = none := by decide
    rw [hscope] at hs
    cases hs
  · obtain rfl := hi h
    obtain ⟨rfl, rfl, rfl, rfl⟩ := hb ht
    obtain rfl : 5 = X := Option.some.inj (Eq.trans (by decide) hX)
    obtain rfl : k = 0 := Nat.lt_one_iff.1 hk
    exact absurd (by decide) hne

/-- Node 1 reads the array of which node 0 writes the first element, which is enqueued as a graph parameter: the array that is
given back for element 4 is not one a dequeue returns. -/
theorem container_not_parametersOk :
    ¬ (pairGraph 1 0 [1, 4]).ParametersOk 1 0 (fun _ a => a) (fun _ => some 4) := by
  intro h
  have := h.unchanged 0 (by decide) 0 ⟨1, false, .image⟩ 4 4 ⟨by decide, by decide, rfl, by decide, .inl rfl⟩
    (fun _ _ _ => rfl)
  exact absurd this (by decide)

end Pairs

end ExecGraph

end Tiovx
