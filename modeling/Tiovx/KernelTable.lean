import Mathlib.Data.List.Count
import Tiovx.InAndOutNodes
import Tiovx.Lib.Run
import Tiovx.Lib.SlotTable
/-!
# KernelTable — the kernels of a context (`vx_kernel.c`, `vx_context.c`)

A kernel is added with a name and an enumeration that no kernel of the table has, its parameters are added, and finalising it
puts it into the table.  It leaves the table when it is removed and nobody refers to it any more.  An enumeration in the range
of the allocated ids is that of an id, which is free again when a kernel with it leaves the table.
-/
namespace Tiovx

open StepSystem SlotTable

/-- `TIVX_CONTEXT_MAX_KERNELS`. -/
def contextMaxKernels : Nat := 128

/-- `TIVX_MAX_KERNEL_ID`. -/
def maxKernelId : Nat := 0xFFF

/-- `VX_MAX_KERNEL_NAME`. -/
def maxKernelName : Nat := 256

/-- `VX_KERNEL_BASE(VX_ID_USER, 0)`. -/
def userKernelBase : Int := -0x200000

/-- `vx_kernel`.  `adder` is the caller that added it, `nodeRefs` counts the nodes that refer to it, and `finalized` is that
`vxFinalizeKernel` has succeeded. -/
structure VxKernelObj where
  name : List Char
  enumeration : Int
  numParameters : Nat
  parameters : List Nat := []
  lockKernelRemove : Bool
  hasDestructor : Bool := false
  internalCount : Nat := 0
  externalCount : Nat := 1
  adder : Nat
  nodeRefs : Nat := 0
  finalized : Bool := false

/-- `tivx_context_t`, as far as kernels are concerned; `kernels` are the live ones.  `held` is which caller an id was given to,
until a kernel that this caller has added with it is removed. -/
structure KernelContext where
  kerneltable : List (Option Nat) := List.replicate contextMaxKernels none
  numUniqueKernels : UInt32 := 0
  isDynamicUserKernelIdUsed : List Bool := List.replicate maxKernelId false
  numDynamicUserKernelId : UInt32 := 0
  kernelRemoveLock : Bool := false
  kernels : Nat → Option VxKernelObj := fun _ => none
  held : Nat → Option Nat := fun _ => none

/-- The id an enumeration stands for. -/
def dynamicUserKernelIdx (enumeration : Int) : Option Nat :=
  if userKernelBase ≤ enumeration ∧ enumeration < userKernelBase + maxKernelId then
    some (enumeration - userKernelBase).toNat
  else none

namespace KernelContext

/-- `vxAllocateUserKernelId`: the place of the first id that is not used. -/
def freeKernelId (s : KernelContext) : Option Nat := s.isDynamicUserKernelIdUsed.findIdx? (fun used => !used)

/-- `vxAllocateUserKernelId` of a caller, and the id it gives. -/
def vxAllocateUserKernelId (s : KernelContext) (caller : Nat) : KernelContext × Option Int :=
  match s.freeKernelId with
  | some i =>
    ({ s with
        isDynamicUserKernelIdUsed := s.isDynamicUserKernelIdUsed.set i true
        numDynamicUserKernelId := s.numDynamicUserKernelId + 1
        held := Function.update s.held i (some caller) }, some (userKernelBase + i))
  | none => (s, none)

/-- `ownIsKernelInContext`; a name in the table is compared with the whole of `name`. -/
def ownIsKernelInContext (s : KernelContext) (enumeration : Int) (name : List Char) : Bool :=
  (entries s.kerneltable).any (fun j => (s.kernels j).any (fun J => J.name = name ∨ J.enumeration = enumeration))

/-- `ownDeallocateUserKernelId`. -/
def ownDeallocateUserKernelId (s : KernelContext) (K : VxKernelObj) : KernelContext :=
  match dynamicUserKernelIdx K.enumeration with
  | some i =>
    { s with
      isDynamicUserKernelIdUsed := s.isDynamicUserKernelIdUsed.set i false
      numDynamicUserKernelId := s.numDynamicUserKernelId - 1
      held := if s.held i = some K.adder then Function.update s.held i none else s.held }
  | none => s

/-- The table after `ownAddKernelToContext`, if it has a free slot. -/
def withKernel (s : KernelContext) (k : Nat) : Option (List (Option Nat)) :=
  if s.numUniqueKernels.toNat < contextMaxKernels then putFirst k s.kerneltable else none

/-- `ownRemoveKernelFromContext`. -/
def ownRemoveKernelFromContext (s : KernelContext) (k : Nat) (K : VxKernelObj) : KernelContext :=
  match if 0 < s.numUniqueKernels.toNat then clearFirst k s.kerneltable else none with
  | some t =>
    { s.ownDeallocateUserKernelId K with kerneltable := t, numUniqueKernels := s.numUniqueKernels - 1 }
  | none => s

/-- `ownDestructKernel`. -/
def ownDestructKernel (s : KernelContext) (k : Nat) (K : VxKernelObj) : KernelContext :=
  if s.ownIsKernelInContext K.enumeration K.name then s.ownRemoveKernelFromContext k K else s

/-- What `ownReleaseReferenceInt` does with the kernel `K` whose counts it has decremented: where both are zero, it is destructed
and freed. -/
def release (s : KernelContext) (k : Nat) (K : VxKernelObj) : KernelContext :=
  if K.internalCount + K.externalCount = 0 then
    let s := if K.hasDestructor then s.ownDestructKernel k K else s
    { s with kernels := Function.update s.kernels k none }
  else { s with kernels := Function.update s.kernels k (some K) }

/-- `vxAddUserKernel`: the kernel, if it is added.  `created` is that its reference could be made. -/
def vxAddUserKernel (s : KernelContext) (caller : Nat) (name : List Char) (enumeration : Int) (numParams : Nat)
    (created : Bool) : Option VxKernelObj :=
  if numParams ≤ kernelMaxParams ∧ s.ownIsKernelInContext enumeration name = false ∧ created = true then
    some { name := name.take (maxKernelName - 1), enumeration, numParameters := numParams, adder := caller
           lockKernelRemove := s.kernelRemoveLock }
  else none

/-- The table after `vxFinalizeKernel`, where it succeeds: every parameter was added, and the table has a free slot. -/
def finalizedTable (s : KernelContext) (k : Nat) (K : VxKernelObj) : Option (List (Option Nat)) :=
  if K.numParameters ≤ kernelMaxParams ∧ (List.range K.numParameters).all (· ∈ K.parameters) = true then s.withKernel k
  else none

/-- `vxFinalizeKernel`. -/
def vxFinalizeKernel (s : KernelContext) (k : Nat) (K : VxKernelObj) : KernelContext :=
  match s.finalizedTable k K with
  | some t =>
    { s with
      kerneltable := t
      numUniqueKernels := s.numUniqueKernels + 1
      kernels := Function.update s.kernels k (some { K with internalCount := K.internalCount + 1, finalized := true }) }
  | none => s

/-- `vxRemoveKernel`. -/
def vxRemoveKernel (s : KernelContext) (k : Nat) (K : VxKernelObj) : KernelContext :=
  if K.lockKernelRemove = true ∧ s.kernelRemoveLock = false then s
  else
    let K := if K.hasDestructor then K else { K with hasDestructor := true, internalCount := K.internalCount - 1 }
    s.release k { K with externalCount := K.externalCount - 1 }

/-- A kernel in the table. -/
def isRegistered (s : KernelContext) (k : Nat) : Bool := (s.kernels k).any VxKernelObj.finalized

end KernelContext

/-- A call about kernels.  `retain` and `release` are those of a caller, `nodeRetain` and `nodeRelease` those of a node. -/
inductive KernelAct
  | allocateUserKernelId (caller : Nat)
  | addUserKernel (k caller : Nat) (name : List Char) (enumeration : Int) (numParams : Nat) (created : Bool)
  | addParameterToKernel (k index : Nat) (valid : Bool)
  | finalizeKernel (k : Nat)
  | removeKernel (k : Nat)
  | retain (k : Nat)
  | release (k : Nat)
  | nodeRetain (k : Nat)
  | nodeRelease (k : Nat)
  | setKernelRemoveLock (locked : Bool)

open KernelContext

/-- **One call.** -/
def kernelTableStep (s : KernelContext) : KernelAct → Option KernelContext
  | .allocateUserKernelId caller => some (s.vxAllocateUserKernelId caller).1
  | .addUserKernel k caller name enumeration numParams created =>
    if (s.kernels k).isNone then
      match s.vxAddUserKernel caller name enumeration numParams created with
      | some K => some { s with kernels := Function.update s.kernels k (some K) }
      | none => some s
    else none
  | .addParameterToKernel k index valid => (s.kernels k).map (fun K =>
      if index < K.numParameters ∧ valid = true then
        { s with kernels := Function.update s.kernels k (some { K with parameters := index :: K.parameters }) }
      else s)
  | .finalizeKernel k => (s.kernels k).map (s.vxFinalizeKernel k)
  | .removeKernel k => (s.kernels k).map (s.vxRemoveKernel k)
  | .retain k => (s.kernels k).map (fun K =>
      { s with kernels := Function.update s.kernels k (some { K with externalCount := K.externalCount + 1 }) })
  | .release k => (s.kernels k).map (fun K => s.release k { K with externalCount := K.externalCount - 1 })
  | .nodeRetain k => (s.kernels k).map (fun K =>
      { s with
        kernels := Function.update s.kernels k
          (some { K with internalCount := K.internalCount + 1, nodeRefs := K.nodeRefs + 1 }) })
  | .nodeRelease k => (s.kernels k).bind (fun K =>
      if 0 < K.nodeRefs then
        some (s.release k { K with internalCount := K.internalCount - 1, nodeRefs := K.nodeRefs - 1 })
      else none)
  | .setKernelRemoveLock locked => some { s with kernelRemoveLock := locked }

/-- **The kernels of a context are as its callers expect**: each registered kernel has one slot and no other has one, no two
share an enumeration or a name, the counts are right, and the id that is given next is neither held by a caller nor the
enumeration of a registered kernel. -/
structure KernelTableOk (s : KernelContext) : Prop where
  slot : ∀ k, (entries s.kerneltable).count k = if s.isRegistered k then 1 else 0
  enumeration : ∀ k j K J, s.kernels k = some K → K.finalized = true → s.kernels j = some J → J.finalized = true →
    K.enumeration = J.enumeration → k = j
  name : ∀ k j K J, s.kernels k = some K → K.finalized = true → s.kernels j = some J → J.finalized = true →
    K.name = J.name → k = j
  numUnique : s.numUniqueKernels.toNat = (entries s.kerneltable).length
  numDynamic : s.numDynamicUserKernelId.toNat = s.isDynamicUserKernelIdUsed.count true
  notHeld : ∀ i, s.freeKernelId = some i → s.held i = none
  notUsed : ∀ caller id, (s.vxAllocateUserKernelId caller).2 = some id →
    ∀ k K, s.kernels k = some K → K.finalized = true → K.enumeration ≠ id

/-- **A kernel is finalised once and with what is its own**: it is in no slot, no kernel of the table has its name or its
enumeration, and where the enumeration is that of an id, its adder holds the id. -/
def FinalizesOwn (s : KernelContext) : KernelAct → Prop
  | .finalizeKernel k => ∀ K ∈ s.kernels k, (s.finalizedTable k K).isSome = true →
      k ∉ entries s.kerneltable ∧ s.ownIsKernelInContext K.enumeration K.name = false ∧
        ∀ i ∈ dynamicUserKernelIdx K.enumeration, s.held i = some K.adder
  | _ => True

instance (s : KernelContext) : (a : KernelAct) → Decidable (FinalizesOwn s a)
  | .finalizeKernel k => inferInstanceAs (Decidable (∀ K ∈ s.kernels k, (s.finalizedTable k K).isSome = true →
      k ∉ entries s.kerneltable ∧ s.ownIsKernelInContext K.enumeration K.name = false ∧
        ∀ i ∈ dynamicUserKernelIdx K.enumeration, s.held i = some K.adder))
  | .allocateUserKernelId _ | .addUserKernel .. | .addParameterToKernel .. | .removeKernel _ | .retain _ | .release _
  | .nodeRetain _ | .nodeRelease _ | .setKernelRemoveLock _ => isTrue trivial

/-- The invariant.  A kernel that `vxRemoveKernel` was not called for has an internal reference of the table, so it is not
destroyed while it has a slot. -/
structure KernelInv (s : KernelContext) : Prop where
  nodup : (entries s.kerneltable).Nodup
  mem : ∀ k, k ∈ entries s.kerneltable ↔ s.isRegistered k = true
  distinct : ∀ k j K J, s.kernels k = some K → K.finalized = true → s.kernels j = some J → J.finalized = true →
    K.enumeration = J.enumeration ∨ K.name = J.name → k = j
  slots : s.kerneltable.length = contextMaxKernels
  numUnique : s.numUniqueKernels.toNat = (entries s.kerneltable).length
  ids : s.isDynamicUserKernelIdUsed.length = maxKernelId
  numDynamic : s.numDynamicUserKernelId.toNat = s.isDynamicUserKernelIdUsed.count true
  used : ∀ i < maxKernelId, s.isDynamicUserKernelIdUsed[i]? = some (s.held i).isSome
  owner : ∀ k K i, s.kernels k = some K → K.finalized = true → dynamicUserKernelIdx K.enumeration = some i →
    s.held i = some K.adder
  counted : ∀ k K, s.kernels k = some K → K.hasDestructor = false →
    K.internalCount = K.nodeRefs + if K.finalized then 1 else 0

theorem dynamicUserKernelIdx_eq_some {e : Int} {i : Nat} :
    dynamicUserKernelIdx e = some i ↔ e = userKernelBase + i ∧ i < maxKernelId := by
  unfold dynamicUserKernelIdx
  split
  · rename_i h
    rw [Option.some.injEq]
    omega
  · rename_i h
    constructor
    · intro hi
      cases hi
    · intro hi
      omega

section Invariant

variable {s : KernelContext} {k : Nat} {K : VxKernelObj}

theorem isRegistered_iff : s.isRegistered k = true ↔ ∃ K, s.kernels k = some K ∧ K.finalized = true := by
  simp only [isRegistered, Option.any_eq_true]

theorem lt_of_freeKernelId {i : Nat} (h : s.freeKernelId = some i) : s.isDynamicUserKernelIdUsed[i]? = some false := by
  obtain ⟨hlt, hi, -⟩ := List.findIdx?_eq_some_iff_getElem.1 h
  rw [List.getElem?_eq_getElem hlt]
  simpa using hi

theorem KernelInv.held_eq_none (h : KernelInv s) {i : Nat} (hi : s.freeKernelId = some i) : s.held i = none := by
  have hf := lt_of_freeKernelId hi
  have hlt : i < maxKernelId := h.ids ▸ (List.getElem?_eq_some_iff.1 hf).1
  rw [h.used i hlt, Option.some.injEq] at hf
  exact Option.isSome_eq_false_iff.1 hf |> Option.isNone_iff_eq_none.1

theorem KernelInv.kernelTableOk (h : KernelInv s) : KernelTableOk s where
  slot k := by
    split
    · rename_i hk
      exact List.count_eq_one_of_mem h.nodup ((h.mem k).2 hk)
    · rename_i hk
      exact List.count_eq_zero.2 (fun hm => hk ((h.mem k).1 hm))
  enumeration k j K J hk hK hj hJ he := h.distinct k j K J hk hK hj hJ (.inl he)
  name k j K J hk hK hj hJ hn := h.distinct k j K J hk hK hj hJ (.inr hn)
  numUnique := h.numUnique
  numDynamic := h.numDynamic
  notHeld i hi := h.held_eq_none hi
  notUsed caller id hid k K hk hK he := by
    unfold vxAllocateUserKernelId at hid
    split at hid
    · rename_i i hi
      cases hid
      have hlt : i < maxKernelId := h.ids ▸ (List.getElem?_eq_some_iff.1 (lt_of_freeKernelId hi)).1
      have ho := h.owner k K i hk hK (dynamicUserKernelIdx_eq_some.2 ⟨he, hlt⟩)
      rw [h.held_eq_none hi] at ho
      cases ho
    · cases hid

/-- What is registered stays, with its name, its enumeration and its adder. -/
theorem KernelInv.setKernels (h : KernelInv s) {f : Nat → Option VxKernelObj}
    (hfrom : ∀ j J', f j = some J' → J'.finalized = true → ∃ J, s.kernels j = some J ∧ J.finalized = true ∧
      J.name = J'.name ∧ J.enumeration = J'.enumeration ∧ J.adder = J'.adder)
    (hreg : ∀ j, s.isRegistered j = true → (f j).any VxKernelObj.finalized = true)
    (hcounted : ∀ j J', f j = some J' → J'.hasDestructor = false →
      J'.internalCount = J'.nodeRefs + if J'.finalized then 1 else 0) : KernelInv { s with kernels := f } where
  nodup := h.nodup
  mem j := by
    refine (h.mem j).trans ⟨hreg j, fun hj => ?_⟩
    obtain ⟨J', hJ', hf⟩ := (Option.any_eq_true _ _).1 hj
    obtain ⟨J, hJ, hJf, -⟩ := hfrom j J' hJ' hf
    exact isRegistered_iff.2 ⟨J, hJ, hJf⟩
  distinct i j I' J' hi hI hj hJ he := by
    obtain ⟨I, hi, hIf, hIn, hIe, -⟩ := hfrom i I' hi hI
    obtain ⟨J, hj, hJf, hJn, hJe, -⟩ := hfrom j J' hj hJ
    refine h.distinct i j I J hi hIf hj hJf ?_
    rw [hIn, hIe, hJn, hJe]
    exact he
  slots := h.slots
  numUnique := h.numUnique
  ids := h.ids
  numDynamic := h.numDynamic
  used := h.used
  owner j J' i hj hJ hi := by
    obtain ⟨J, hj, hJf, -, hJe, hJa⟩ := hfrom j J' hj hJ
    rw [← hJa]
    exact h.owner j J i hj hJf (hJe ▸ hi)
  counted := hcounted

/-- A kernel that stays as it is but for its counts. -/
theorem KernelInv.setKernel (h : KernelInv s) (hk : s.kernels k = some K) {K' : VxKernelObj} (hn : K.name = K'.name)
    (he : K.enumeration = K'.enumeration) (ha : K.adder = K'.adder) (hf : K.finalized = K'.finalized)
    (hc : K'.hasDestructor = false → K'.internalCount = K'.nodeRefs + if K'.finalized then 1 else 0) :
    KernelInv { s with kernels := Function.update s.kernels k (some K') } := by
  refine h.setKernels (fun j J' hj hJ => ?_) (fun j hj => ?_) (fun j J' hj hd => ?_)
  · by_cases hjk : j = k
    · subst hjk
      rw [Function.update_self, Option.some.injEq] at hj
      subst hj
      exact ⟨K, hk, hf.trans hJ, hn, he, ha⟩
    · rw [Function.update_of_ne hjk] at hj
      exact ⟨J', hj, hJ, rfl, rfl, rfl⟩
  · by_cases hjk : j = k
    · subst hjk
      rw [isRegistered, hk, Option.any_some, hf] at hj
      rw [Function.update_self, Option.any_some]
      exact hj
    · rw [Function.update_of_ne hjk]
      exact hj
  · by_cases hjk : j = k
    · subst hjk
      rw [Function.update_self, Option.some.injEq] at hj
      subst hj
      exact hc hd
    · rw [Function.update_of_ne hjk] at hj
      exact h.counted j J' hj hd

/-- A kernel that is not registered is made, or freed. -/
theorem KernelInv.setUnregistered (h : KernelInv s) (hk : s.isRegistered k = false) {o : Option VxKernelObj}
    (ho : ∀ K ∈ o, K.finalized = false ∧ K.internalCount = K.nodeRefs) :
    KernelInv { s with kernels := Function.update s.kernels k o } := by
  refine h.setKernels (fun j J' hj hJ => ?_) (fun j hj => ?_) (fun j J' hj hd => ?_)
  · by_cases hjk : j = k
    · subst hjk
      rw [Function.update_self] at hj
      rw [(ho J' hj).1] at hJ
      cases hJ
    · rw [Function.update_of_ne hjk] at hj
      exact ⟨J', hj, hJ, rfl, rfl, rfl⟩
  · have hjk : j ≠ k := fun hjk => by rw [hjk, hk] at hj; cases hj
    rw [Function.update_of_ne hjk]
    exact hj
  · by_cases hjk : j = k
    · subst hjk
      rw [Function.update_self] at hj
      rw [(ho J' hj).1, (ho J' hj).2]
      rfl
    · rw [Function.update_of_ne hjk] at hj
      exact h.counted j J' hj hd

/-- The id of a registered kernel is given back. -/
theorem KernelInv.deallocate (h : KernelInv s) (hk : s.kernels k = some K) (hf : K.finalized = true) :
    (∀ i ∈ dynamicUserKernelIdx K.enumeration, (s.ownDeallocateUserKernelId K).held = Function.update s.held i none) ∧
    (dynamicUserKernelIdx K.enumeration = none → (s.ownDeallocateUserKernelId K).held = s.held) ∧
    (s.ownDeallocateUserKernelId K).isDynamicUserKernelIdUsed.length = maxKernelId ∧
    (s.ownDeallocateUserKernelId K).numDynamicUserKernelId.toNat =
      (s.ownDeallocateUserKernelId K).isDynamicUserKernelIdUsed.count true ∧
    ∀ i < maxKernelId, (s.ownDeallocateUserKernelId K).isDynamicUserKernelIdUsed[i]? =
      some ((s.ownDeallocateUserKernelId K).held i).isSome := by
  unfold ownDeallocateUserKernelId
  cases hi : dynamicUserKernelIdx K.enumeration with
  | none => exact ⟨fun _ hm => (nomatch hm), fun _ => rfl, h.ids, h.numDynamic, h.used⟩
  | some i =>
    have ho := h.owner k K i hk hf hi
    have hlt := (dynamicUserKernelIdx_eq_some.1 hi).2
    have hu := h.used i hlt
    rw [ho] at hu
    have hlen : i < s.isDynamicUserKernelIdUsed.length := h.ids ▸ hlt
    have hget : s.isDynamicUserKernelIdUsed[i] = true := by
      rw [List.getElem?_eq_getElem hlen, Option.some.injEq] at hu
      exact hu
    have hpos : 0 < s.isDynamicUserKernelIdUsed.count true :=
      List.count_pos_iff.2 (hget ▸ List.getElem_mem hlen)
    simp only [ho, if_true]
    refine ⟨fun j hj => ?_, fun hn => (nomatch hn), ?_, ?_, fun j hj => ?_⟩
    · cases hj
      rfl
    · rw [List.length_set, h.ids]
    · rw [toNat_sub_one (h.numDynamic ▸ hpos), List.count_set hlen, hget, h.numDynamic]
      rfl
    · by_cases hji : j = i
      · subst hji
        rw [List.getElem?_set_self hlen, Function.update_self]
        rfl
      · rw [List.getElem?_set_ne (Ne.symm hji), Function.update_of_ne hji]
        exact h.used j hj

/-- A registered kernel is destroyed. -/
theorem KernelInv.destroy (h : KernelInv s) (hk : s.kernels k = some K) (hf : K.finalized = true) :
    KernelInv { s.ownRemoveKernelFromContext k K with kernels := Function.update s.kernels k none } := by
  have hm : k ∈ entries s.kerneltable := (h.mem k).2 (isRegistered_iff.2 ⟨K, hk, hf⟩)
  have hpos : 0 < s.numUniqueKernels.toNat := h.numUnique ▸ List.length_pos_of_mem hm
  unfold ownRemoveKernelFromContext
  rw [if_pos hpos]
  cases ht : clearFirst k s.kerneltable with
  | none => exact absurd hm (clearFirst_eq_none.1 ht)
  | some t =>
    obtain ⟨hl, hp⟩ := clearFirst_spec ht
    obtain ⟨hheld, hheldNone, hids, hnum, hused⟩ := h.deallocate hk hf
    have hnd := hp.nodup_iff.1 h.nodup
    have hother : ∀ {j J}, Function.update s.kernels k none j = some J → j ≠ k ∧ s.kernels j = some J := by
      intro j J hj
      by_cases hjk : j = k
      · rw [hjk, Function.update_self] at hj
        cases hj
      · rw [Function.update_of_ne hjk] at hj
        exact ⟨hjk, hj⟩
    refine ⟨(List.nodup_cons.1 hnd).2, fun j => ?_, fun i j I J hi hI hj hJ he => ?_, hl.trans h.slots, ?_, hids, hnum, hused,
      fun j J i hj hJ hi => ?_, fun j J hj hd => h.counted j J (hother hj).2 hd⟩
    · by_cases hjk : j = k
      · subst hjk
        simp only [isRegistered, Function.update_self, Option.any_none, Bool.false_eq_true, iff_false]
        exact (List.nodup_cons.1 hnd).1
      · simp only [isRegistered, Function.update_of_ne hjk]
        rw [← isRegistered, ← h.mem j, hp.mem_iff, List.mem_cons]
        exact ⟨.inr, fun hj => hj.resolve_left hjk⟩
    · exact h.distinct i j I J (hother hi).2 hI (hother hj).2 hJ he
    · show (s.numUniqueKernels - 1).toNat = _
      rw [toNat_sub_one hpos, h.numUnique, hp.length_eq, List.length_cons]
      rfl
    · obtain ⟨hjk, hj⟩ := hother hj
      have ho := h.owner j J i hj hJ hi
      show (s.ownDeallocateUserKernelId K).held i = some J.adder
      cases hd : dynamicUserKernelIdx K.enumeration with
      | none => rw [hheldNone hd, ho]
      | some d =>
        rw [hheld d hd, Function.update_of_ne, ho]
        intro hid
        subst hid
        refine hjk (h.distinct j k J K hj hJ hk hf (.inl ?_))
        rw [(dynamicUserKernelIdx_eq_some.1 hi).1, (dynamicUserKernelIdx_eq_some.1 hd).1]

/-- A kernel that is not registered has no slot to lose. -/
theorem KernelInv.ownDestructKernel (h : KernelInv s) (hk : s.isRegistered k = false) :
    s.ownDestructKernel k K = s := by
  have hm : k ∉ entries s.kerneltable := fun hm => by rw [(h.mem k).1 hm] at hk; cases hk
  unfold KernelContext.ownDestructKernel ownRemoveKernelFromContext
  rw [clearFirst_eq_none.2 hm]
  simp

/-- A registered kernel is in the table under its name. -/
theorem KernelInv.ownIsKernelInContext (h : KernelInv s) (hk : s.kernels k = some K) (hf : K.finalized = true) :
    s.ownIsKernelInContext K.enumeration K.name = true := by
  refine List.any_eq_true.2 ⟨k, (h.mem k).2 (isRegistered_iff.2 ⟨K, hk, hf⟩), ?_⟩
  rw [hk, Option.any_some]
  exact decide_eq_true (.inl rfl)

/-- A kernel whose counts went down stays, or is destroyed with its slot. -/
theorem KernelInv.release (h : KernelInv s) (hk : s.kernels k = some K) {K' : VxKernelObj} (hn : K.name = K'.name)
    (he : K.enumeration = K'.enumeration) (ha : K.adder = K'.adder) (hf : K.finalized = K'.finalized)
    (hc : K'.hasDestructor = false → K'.internalCount = K'.nodeRefs + if K'.finalized then 1 else 0) :
    KernelInv (s.release k K') := by
  unfold KernelContext.release
  split
  · rename_i hzero
    cases hfin : K.finalized with
    | false =>
      have hreg : s.isRegistered k = false := by
        rw [isRegistered, hk, Option.any_some, hfin]
      rw [h.ownDestructKernel hreg, ite_self]
      exact h.setUnregistered hreg (fun _ hm => (nomatch hm))
    | true =>
      have hd : K'.hasDestructor = true := by
        cases hd : K'.hasDestructor with
        | true => rfl
        | false =>
          have h1 := hc hd
          rw [← hf, hfin, if_pos rfl] at h1
          omega
      have hin := h.ownIsKernelInContext hk hfin
      rw [he, hn] at hin
      have hrem : s.ownRemoveKernelFromContext k K' = s.ownRemoveKernelFromContext k K := by
        unfold ownRemoveKernelFromContext ownDeallocateUserKernelId
        rw [he, ha]
      rw [if_pos hd, KernelContext.ownDestructKernel, if_pos hin, hrem]
      have hkernels : (s.ownRemoveKernelFromContext k K).kernels = s.kernels := by
        unfold ownRemoveKernelFromContext ownDeallocateUserKernelId
        split
        · split <;> rfl
        · rfl
      simp only [hkernels]
      exact h.destroy hk hfin
  · exact h.setKernel hk hn he ha hf hc

theorem KernelInv.allocate (h : KernelInv s) (caller : Nat) : KernelInv (s.vxAllocateUserKernelId caller).1 := by
  unfold vxAllocateUserKernelId
  split
  · rename_i i hi
    have hf := lt_of_freeKernelId hi
    obtain ⟨hlen, hget⟩ := List.getElem?_eq_some_iff.1 hf
    have hcount : s.isDynamicUserKernelIdUsed.count true < s.isDynamicUserKernelIdUsed.length :=
      List.count_lt_length_iff.2 ⟨false, hget ▸ List.getElem_mem hlen, Bool.false_ne_true⟩
    refine ⟨h.nodup, h.mem, h.distinct, h.slots, h.numUnique, ?_, ?_, fun j hj => ?_, fun j J d hj hJ hd => ?_, h.counted⟩
    · rw [List.length_set, h.ids]
    · rw [List.count_set hlen, hget]
      rw [h.ids, ← h.numDynamic] at hcount
      show (s.numDynamicUserKernelId + 1).toNat = _
      rw [toNat_add_one hcount (by decide), h.numDynamic]
      rfl
    · by_cases hji : j = i
      · subst hji
        simp only [List.getElem?_set_self hlen, Function.update_self, Option.isSome_some]
      · simp only [List.getElem?_set_ne (Ne.symm hji), Function.update_of_ne hji]
        exact h.used j hj
    · have ho := h.owner j J d hj hJ hd
      show Function.update s.held i (some caller) d = some J.adder
      rw [Function.update_of_ne, ho]
      intro hdi
      rw [hdi, h.held_eq_none hi] at ho
      cases ho
  · exact h

/-- A kernel gets a slot of its own. -/
theorem KernelInv.putKernel (h : KernelInv s) (hk : s.kernels k = some K) {t : List (Option Nat)} {K' : VxKernelObj}
    (ht : putFirst k s.kerneltable = some t) (hlt : s.numUniqueKernels.toNat < contextMaxKernels)
    (hnot : k ∉ entries s.kerneltable)
    (hfresh : ∀ j J, s.kernels j = some J → J.finalized = true → K'.enumeration ≠ J.enumeration ∧ K'.name ≠ J.name)
    (hid : ∀ i ∈ dynamicUserKernelIdx K'.enumeration, s.held i = some K'.adder) (hf : K'.finalized = true)
    (hd : K'.hasDestructor = K.hasDestructor) (hc : K'.internalCount = K.internalCount + 1) (hn : K'.nodeRefs = K.nodeRefs) :
    KernelInv { s with
      kerneltable := t
      numUniqueKernels := s.numUniqueKernels + 1
      kernels := Function.update s.kernels k (some K') } := by
  obtain ⟨hl, hp⟩ := putFirst_spec ht
  have hfin : K.finalized = false := by
    cases hfin : K.finalized with
    | false => rfl
    | true => exact absurd ((h.mem k).2 (isRegistered_iff.2 ⟨K, hk, hfin⟩)) hnot
  have hcase : ∀ {j J}, Function.update s.kernels k (some K') j = some J → (j = k ∧ J = K') ∨ (j ≠ k ∧ s.kernels j = some J) := by
    intro j J hj
    by_cases hjk : j = k
    · rw [hjk, Function.update_self, Option.some.injEq] at hj
      exact .inl ⟨hjk, hj.symm⟩
    · rw [Function.update_of_ne hjk] at hj
      exact .inr ⟨hjk, hj⟩
  refine ⟨hp.nodup_iff.2 (List.nodup_cons.2 ⟨hnot, h.nodup⟩), fun j => ?_, fun i j I J hi hI hj hJ he => ?_,
    hl.trans h.slots, ?_, h.ids, h.numDynamic, h.used, fun j J i hj hJ hi => ?_, fun j J hj hJ => ?_⟩
  · rw [hp.mem_iff, List.mem_cons]
    by_cases hjk : j = k
    · subst hjk
      simp only [isRegistered, Function.update_self, Option.any_some, hf, true_or]
    · simp only [isRegistered, Function.update_of_ne hjk]
      rw [h.mem j, isRegistered]
      exact ⟨fun hj => hj.resolve_left hjk, .inr⟩
  · rcases hcase hi with ⟨rfl, rfl⟩ | ⟨hik, hi0⟩ <;> rcases hcase hj with ⟨rfl, hJK⟩ | ⟨hjk, hj0⟩
    · rfl
    · exact absurd he (not_or.2 (hfresh j J hj0 hJ))
    · subst hJK
      exact absurd he (not_or.2 ⟨(hfresh i I hi0 hI).1.symm, (hfresh i I hi0 hI).2.symm⟩)
    · exact h.distinct i j I J hi0 hI hj0 hJ he
  · show (s.numUniqueKernels + 1).toNat = _
    rw [toNat_add_one hlt (by decide), h.numUnique, hp.length_eq, List.length_cons]
  · rcases hcase hj with ⟨rfl, rfl⟩ | ⟨-, hj⟩
    · exact hid i hi
    · exact h.owner j J i hj hJ hi
  · rcases hcase hj with ⟨rfl, rfl⟩ | ⟨-, hj⟩
    · rw [hd] at hJ
      rw [hc, hn, hf, h.counted j K hk hJ, hfin]
      rfl
    · exact h.counted j J hj hJ

/-- A kernel is finalised with what is its own. -/
theorem KernelInv.finalize (h : KernelInv s) (hk : s.kernels k = some K) (hown : FinalizesOwn s (.finalizeKernel k)) :
    KernelInv (s.vxFinalizeKernel k K) := by
  unfold vxFinalizeKernel
  cases ht : s.finalizedTable k K with
  | none => exact h
  | some t =>
    obtain ⟨hnot, hin, hid⟩ := hown K hk (by rw [ht]; rfl)
    unfold finalizedTable withKernel at ht
    split at ht
    · split at ht
      · rename_i hlt
        refine h.putKernel hk ht hlt hnot (fun j J hj hJ => ?_) hid rfl rfl rfl rfl
        have hn := List.any_eq_false.1 hin j ((h.mem j).2 (isRegistered_iff.2 ⟨J, hj, hJ⟩))
        rw [hj, Option.any_some, decide_eq_true_eq, not_or] at hn
        exact ⟨fun he => hn.2 he.symm, fun he => hn.1 he.symm⟩
      · cases ht
    · cases ht

theorem KernelInv.step (h : KernelInv s) {a : KernelAct} {s' : KernelContext} (hown : FinalizesOwn s a)
    (hs : kernelTableStep s a = some s') : KernelInv s' := by
  cases a with
  | allocateUserKernelId caller =>
    cases hs
    exact h.allocate caller
  | addUserKernel k caller name enumeration numParams created =>
    simp only [kernelTableStep] at hs
    split at hs
    · rename_i hnone
      have hreg : s.isRegistered k = false := by
        rw [isRegistered, Option.isNone_iff_eq_none.1 hnone, Option.any_none]
      split at hs
      · rename_i K hK
        cases hs
        refine h.setUnregistered hreg (fun J hJ => ?_)
        cases hJ
        unfold vxAddUserKernel at hK
        split at hK
        · cases hK
          exact ⟨rfl, rfl⟩
        · cases hK
      · cases hs
        exact h
    · cases hs
  | addParameterToKernel k index valid =>
    obtain ⟨K, hk, rfl⟩ := Option.map_eq_some_iff.1 hs
    split
    · exact h.setKernel hk rfl rfl rfl rfl (h.counted k K hk)
    · exact h
  | finalizeKernel k =>
    obtain ⟨K, hk, rfl⟩ := Option.map_eq_some_iff.1 hs
    exact h.finalize hk hown
  | removeKernel k =>
    obtain ⟨K, hk, rfl⟩ := Option.map_eq_some_iff.1 hs
    unfold vxRemoveKernel
    split
    · exact h
    · cases hd : K.hasDestructor with
      | true =>
        refine h.release hk rfl rfl rfl rfl (fun hf => ?_)
        simp only [if_true] at hf
        rw [hd] at hf
        cases hf
      | false => exact h.release hk rfl rfl rfl rfl (fun hf => (nomatch hf))
  | retain k =>
    obtain ⟨K, hk, rfl⟩ := Option.map_eq_some_iff.1 hs
    exact h.setKernel hk rfl rfl rfl rfl (h.counted k K hk)
  | release k =>
    obtain ⟨K, hk, rfl⟩ := Option.map_eq_some_iff.1 hs
    exact h.release hk rfl rfl rfl rfl (h.counted k K hk)
  | nodeRetain k =>
    obtain ⟨K, hk, rfl⟩ := Option.map_eq_some_iff.1 hs
    refine h.setKernel hk rfl rfl rfl rfl (fun hd => ?_)
    have hc := h.counted k K hk hd
    simp only
    omega
  | nodeRelease k =>
    obtain ⟨K, hk, hs⟩ := Option.bind_eq_some_iff.1 hs
    split at hs
    · rename_i hpos
      cases hs
      refine h.release hk rfl rfl rfl rfl (fun hd => ?_)
      have hc := h.counted k K hk hd
      simp only
      omega
    · cases hs
  | setKernelRemoveLock locked =>
    cases hs
    exact ⟨h.nodup, h.mem, h.distinct, h.slots, h.numUnique, h.ids, h.numDynamic, h.used, h.owner, h.counted⟩

theorem KernelInv.start : KernelInv {} where
  nodup := by simp [contextMaxKernels]
  mem k := by simp [isRegistered]
  distinct k j K J hk := by cases hk
  slots := List.length_replicate
  numUnique := by simp
  ids := List.length_replicate
  numDynamic := by
    show (0 : UInt32).toNat = _
    rw [List.count_replicate]
    rfl
  used i hi := by
    rw [List.getElem?_replicate, if_pos hi]
    rfl
  owner k K i hk := by cases hk
  counted k K hk := by cases hk

end Invariant

/-- **The kernels of a context are as its callers expect**, in every run in which each kernel is finalised once and with what is
its own. -/
theorem kernelTableOk_of_reach (s : KernelContext) (h : Reach kernelTableStep FinalizesOwn {} s) : KernelTableOk s :=
  (h.inv KernelInv.start (fun _ _ _ hi hown hs => hi.step hown hs)).kernelTableOk

/-- A kernel with an allocated id, made by the caller that holds it. -/
def ownKernel : List KernelAct :=
  [.allocateUserKernelId 1, .addUserKernel 0 1 ['a'] userKernelBase 1 true, .addParameterToKernel 0 0 true,
    .finalizeKernel 0]

/-- A kernel with the first id, which its adder does not hold. -/
def foreignKernel : List KernelAct :=
  [.addUserKernel 0 2 ['a'] userKernelBase 0 true, .finalizeKernel 0]

/-- **What finalising does not check**: a kernel gets a second slot, or the name and the enumeration of another; and where an
enumeration is that of an id its adder does not hold, the id is given to a caller while the kernel is registered, the count
of the ids wraps when the kernel is removed, and an id another caller holds is given again. -/
theorem finalizes_unchecked :
    (∃ s, Reach kernelTableStep (fun s a => anyStep s a = true) {} s ∧ (entries s.kerneltable).count 0 = 2 ∧ ¬ KernelTableOk s) ∧
    (∃ s, Reach kernelTableStep (fun s a => anyStep s a = true) {} s ∧
      (s.kernels 0).map (fun K => (K.name, K.enumeration, K.finalized)) = some (['a'], 7, true) ∧
      (s.kernels 1).map (fun K => (K.name, K.enumeration, K.finalized)) = some (['a'], 7, true)) ∧
    (∃ s, Reach kernelTableStep (fun s a => anyStep s a = true) {} s ∧
      (s.kernels 0).map (fun K => (K.enumeration, K.finalized)) = some (userKernelBase, true) ∧
      (s.vxAllocateUserKernelId 1).2 = some userKernelBase) ∧
    (∃ s, Reach kernelTableStep (fun s a => anyStep s a = true) {} s ∧ s.numDynamicUserKernelId = 4294967295 ∧
      s.isDynamicUserKernelIdUsed.count true = 0) ∧
    ∃ s, Reach kernelTableStep (fun s a => anyStep s a = true) {} s ∧ s.held 0 = some 1 ∧
      (s.vxAllocateUserKernelId 3).2 = some userKernelBase := by
  have h1 : (exec kernelTableStep anyStep {} (ownKernel ++ [.finalizeKernel 0])).map
      (fun s => (entries s.kerneltable).count 0) = some 2 := by decide +kernel
  have h2 : (exec kernelTableStep anyStep {} [.addUserKernel 0 1 ['a'] 7 0 true, .addUserKernel 1 1 ['a'] 7 0 true,
      .finalizeKernel 0, .finalizeKernel 1]).map (fun s =>
        ((s.kernels 0).map (fun K => (K.name, K.enumeration, K.finalized)),
          (s.kernels 1).map (fun K => (K.name, K.enumeration, K.finalized)))) =
      some (some (['a'], 7, true), some (['a'], 7, true)) := by decide +kernel
  have h3 : (exec kernelTableStep anyStep {} foreignKernel).map (fun s =>
      ((s.kernels 0).map (fun K => (K.enumeration, K.finalized)), (s.vxAllocateUserKernelId 1).2)) =
      some (some (userKernelBase, true), some userKernelBase) := by decide +kernel
  have h4 : (exec kernelTableStep anyStep {} (foreignKernel ++ [.removeKernel 0])).map (fun s =>
      (s.numDynamicUserKernelId, s.isDynamicUserKernelIdUsed.count true)) = some (4294967295, 0) := by decide +kernel
  have h5 : (exec kernelTableStep anyStep {} (.allocateUserKernelId 1 :: foreignKernel ++ [.removeKernel 0])).map (fun s =>
      (s.held 0, (s.vxAllocateUserKernelId 3).2)) = some (some 1, some userKernelBase) := by decide +kernel
  obtain ⟨s, hr, hs⟩ := exists_reach_of_exec h1
  refine ⟨⟨s, hr, hs, fun hok => ?_⟩, ?_, ?_, ?_, ?_⟩
  · have hslot := hok.slot 0
    rw [hs] at hslot
    split at hslot <;> cases hslot
  · obtain ⟨s, hr, hs⟩ := exists_reach_of_exec h2
    exact ⟨s, hr, Prod.mk.inj hs⟩
  · obtain ⟨s, hr, hs⟩ := exists_reach_of_exec h3
    exact ⟨s, hr, Prod.mk.inj hs⟩
  · obtain ⟨s, hr, hs⟩ := exists_reach_of_exec h4
    exact ⟨s, hr, Prod.mk.inj hs⟩
  · obtain ⟨s, hr, hs⟩ := exists_reach_of_exec h5
    exact ⟨s, hr, Prod.mk.inj hs⟩

/-- A kernel is finalised with the id of its adder, and removed. -/
theorem kernelTableOk_removed : ∃ s : KernelContext, entries s.kerneltable = [] ∧
    (s.vxAllocateUserKernelId 2).2 = some userKernelBase ∧ KernelTableOk s := by
  have hexec : (exec kernelTableStep (fun s a => decide (FinalizesOwn s a)) {} (ownKernel ++ [.removeKernel 0])).map (fun s =>
      (entries s.kerneltable, (s.vxAllocateUserKernelId 2).2)) = some ([], some userKernelBase) := by decide +kernel
  obtain ⟨s, hr, hs⟩ := exists_reach_of_exec hexec
  obtain ⟨he, hid⟩ := Prod.mk.inj hs
  exact ⟨s, he, hid, kernelTableOk_of_reach s (hr.mono (fun _ _ h => of_decide_eq_true h))⟩

end Tiovx
