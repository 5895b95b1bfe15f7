import Mathlib.Tactic
import Tiovx.Lib.Run
/-!
# ArrayObjects — the counts and sizes of an array (`vx_array.c`, `vx_reference.c`)

An array has a capacity, a number of items and a buffer that is allocated when it is first needed.  The copy, swap and move
kernels are first asked whether they can process two arrays, and process them later, as often as a graph runs.
-/
namespace Tiovx

open StepSystem

/-- `tivx_obj_desc_array_t`; `hostPtr` is that of `mem_ptr`. -/
structure VxArray where
  itemType : Int
  itemSize : UInt32
  numItems : UInt32
  capacity : UInt32
  memSize : UInt32
  hostPtr : Nat
  isVirtual : Bool
deriving DecidableEq

/-- `VX_TYPE_INVALID`. -/
def vxTypeInvalid : Int := 0

/-- `VX_KERNEL_COPY`, `VX_KERNEL_SWAP` and `VX_KERNEL_MOVE`. -/
inductive CopyMoveKernel
  | copy
  | swap
  | move
deriving DecidableEq

/-- The arrays of a context, what `ownGetArrayItemSize` gives for each type, the buffers that are allocated with their sizes, and
the pairs of arrays a kernel has been validated for. -/
structure ArrayContext where
  arrays : Nat → Option VxArray := fun _ => none
  itemSizes : Int → UInt64
  buffers : Nat → Option UInt32 := fun _ => none
  validated : List (CopyMoveKernel × Nat × Nat) := []

/-- `ownInitArrayObject`. -/
def ownInitArrayObject (itemSizes : Int → UInt64) (itemType : Int) (capacity : UInt64) (isVirtual : Bool) : VxArray where
  itemType := itemType
  itemSize := (itemSizes itemType).toUInt32
  numItems := 0
  capacity := capacity.toUInt32
  memSize := (itemSizes itemType).toUInt32 * capacity.toUInt32
  hostPtr := 0
  isVirtual := isVirtual

namespace ArrayContext

def setArray (s : ArrayContext) (a : Nat) (A : VxArray) : ArrayContext :=
  { s with arrays := Function.update s.arrays a (some A) }

/-- `ownAllocReferenceBufferGeneric`, where `host` is the buffer the allocator gives, 0 when it gives none: whether the array has
a buffer afterwards. -/
def ownAllocReferenceBufferGeneric (s : ArrayContext) (a : Nat) (A : VxArray) (host : Nat) : ArrayContext × VxArray × Bool :=
  if A.hostPtr ≠ 0 then (s, A, true)
  else if A.memSize = 0 ∨ host = 0 then (s, A, false)
  else
    ({ s.setArray a { A with hostPtr := host } with buffers := Function.update s.buffers host (some A.memSize) },
      { A with hostPtr := host }, true)

/-- `vxAddArrayItems` of an array. -/
def vxAddArrayItems (s : ArrayContext) (a : Nat) (A : VxArray) (count : UInt64) (ptr : Bool) (stride : UInt64) (host : Nat) :
    ArrayContext :=
  let (s, A, allocated) := s.ownAllocReferenceBufferGeneric a A host
  if allocated && A.capacity != 0 && ptr && !(A.capacity.toUInt64 < A.numItems.toUInt64 + count) &&
      !(stride < A.itemSize.toUInt64 || stride == 0) then
    s.setArray a { A with numItems := A.numItems + count.toUInt32 }
  else s

/-- `vxTruncateArray` of an array. -/
def vxTruncateArray (s : ArrayContext) (a : Nat) (A : VxArray) (newNumItems : UInt64) : ArrayContext :=
  if A.hostPtr ≠ 0 ∧ A.capacity ≠ 0 ∧ ¬ A.numItems.toUInt64 < newNumItems then
    s.setArray a { A with numItems := newNumItems.toUInt32 }
  else s

/-- `isArrayCopyable`: the output afterwards, when it is. -/
def isArrayCopyable (input output : Nat) (I O : VxArray) : Option VxArray :=
  if input = output then none
  else if O.isVirtual then
    if (vxTypeInvalid ≠ O.itemType ∧ I.itemType ≠ O.itemType) ∨ (O.capacity ≠ 0 ∧ I.capacity ≠ O.capacity) then none
    else some O
  else if O.itemType ≠ I.itemType then none
  else if O.capacity < I.capacity then none
  else some { O with itemType := I.itemType, itemSize := I.itemSize, capacity := I.capacity }

/-- `tivxIsReferenceMetaFormatEqual` of two arrays. -/
def isMetaFormatArrayEqual (I O : VxArray) : Bool :=
  I.itemType = O.itemType && I.capacity = O.capacity && I.itemSize = O.itemSize

/-- `arrayKernelCallback` with `validate_only`; a pair that is accepted is remembered. -/
def validate (s : ArrayContext) (kernel : CopyMoveKernel) (input output : Nat) (I O : VxArray) : ArrayContext :=
  match kernel with
  | .copy =>
    match isArrayCopyable input output I O with
    | some O' => { s.setArray output O' with validated := (kernel, input, output) :: s.validated }
    | none => s
  | _ =>
    if isMetaFormatArrayEqual I O then { s with validated := (kernel, input, output) :: s.validated } else s

/-- A buffer that `tivxMemBufferMap` maps. -/
def mappable (A : VxArray) : Bool := A.hostPtr != 0 && A.memSize != 0

/-- `arrayKernelCallback` without `validate_only`: `ownCopyReferenceGeneric` and `ownSwapReferenceGeneric`. -/
def process (s : ArrayContext) (kernel : CopyMoveKernel) (input output : Nat) (I O : VxArray) : ArrayContext :=
  match kernel with
  | .copy =>
    if I.memSize ≤ O.memSize && mappable I && mappable O then s.setArray output { O with numItems := I.numItems } else s
  | _ =>
    (s.setArray output { O with hostPtr := I.hostPtr, numItems := I.numItems }).setArray input
      { I with hostPtr := O.hostPtr, numItems := O.numItems }

end ArrayContext

/-- A call: arrays are created, virtual ones are given their type and capacity when a graph is verified, buffers are allocated,
items are added, removed, copied and mapped, and the kernels are validated and processed. -/
inductive ArrayAction
  | vxRegisterUserStruct (itemType : Int) (size : UInt64)
  | vxCreateArray (a : Nat) (itemType : Int) (capacity : UInt64)
  | vxCreateVirtualArray (a : Nat) (itemType : Int) (capacity : UInt64)
  | ownInitVirtualArray (a : Nat) (itemType : Int) (capacity : UInt64)
  | allocate (a host : Nat)
  | vxAddArrayItems (a : Nat) (count : UInt64) (ptr : Bool) (stride : UInt64) (host : Nat)
  | vxTruncateArray (a : Nat) (newNumItems : UInt64)
  | vxCopyArrayRange (a : Nat)
  | vxMapArrayRange (a : Nat)
  | validate (kernel : CopyMoveKernel) (input output : Nat)
  | process (kernel : CopyMoveKernel) (input output : Nat)

/-- The allocator gives no buffer that is in use. -/
def ArrayContext.freshBuffer (s : ArrayContext) (host : Nat) : Bool := (s.buffers host).isNone

/-- One call. -/
def arrayStep (s : ArrayContext) : ArrayAction → Option ArrayContext
  | .vxRegisterUserStruct itemType size =>
    if itemType ≠ vxTypeInvalid ∧ s.itemSizes itemType = 0 ∧ size ≠ 0 then
      some { s with itemSizes := Function.update s.itemSizes itemType size }
    else none
  | .vxCreateArray a itemType capacity =>
    if s.arrays a = none ∧ 0 < capacity ∧ s.itemSizes itemType ≠ 0 then
      some (s.setArray a (ownInitArrayObject s.itemSizes itemType capacity false))
    else none
  | .vxCreateVirtualArray a itemType capacity =>
    if s.arrays a = none then some (s.setArray a (ownInitArrayObject s.itemSizes itemType capacity true)) else none
  | .ownInitVirtualArray a itemType capacity =>
    match s.arrays a with
    | none => none
    | some A =>
      if s.itemSizes itemType ≠ 0 ∧ 0 < capacity ∧ vxTypeInvalid ≠ itemType ∧ A.isVirtual then
        some (s.setArray a (ownInitArrayObject s.itemSizes itemType capacity true))
      else some s
  | .allocate a host =>
    if s.freshBuffer host then (s.arrays a).map (fun A => (s.ownAllocReferenceBufferGeneric a A host).1) else none
  | .vxAddArrayItems a count ptr stride host =>
    if s.freshBuffer host then (s.arrays a).map (fun A => s.vxAddArrayItems a A count ptr stride host) else none
  | .vxTruncateArray a newNumItems => (s.arrays a).map (fun A => s.vxTruncateArray a A newNumItems)
  -- the ranges that are copied and mapped change no count and no size
  | .vxCopyArrayRange a => (s.arrays a).map (fun _ => s)
  | .vxMapArrayRange a => (s.arrays a).map (fun _ => s)
  | .validate kernel input output =>
    (s.arrays input).bind (fun I => (s.arrays output).map (fun O => s.validate kernel input output I O))
  | .process kernel input output =>
    if (kernel, input, output) ∈ s.validated then
      (s.arrays input).bind (fun I => (s.arrays output).map (fun O => s.process kernel input output I O))
    else none

/-- The counts and sizes of an array agree with each other and with its buffer. -/
structure ArrayOk (s : ArrayContext) (A : VxArray) : Prop where
  numItems : A.numItems.toNat ≤ A.capacity.toNat
  size : A.itemSize.toNat * A.capacity.toNat ≤ A.memSize.toNat
  buffer : A.hostPtr ≠ 0 → s.buffers A.hostPtr = some A.memSize

def ArraysOk (s : ArrayContext) : Prop := ∀ a A, s.arrays a = some A → ArrayOk s A

/-- An array of this type and capacity has a size of 32 bits. -/
def ArrayContext.sizeFits (s : ArrayContext) (itemType : Int) (capacity : UInt64) : Bool :=
  (s.itemSizes itemType).toUInt32.toNat * capacity.toUInt32.toNat < 2 ^ 32

/-- An array takes part in a pair that has been validated. -/
def ArrayContext.isPaired (s : ArrayContext) (a : Nat) : Bool := s.validated.any (fun p => p.2.1 == a || p.2.2 == a)

/-- No size is wrapped.  A copy that is accepted into an array that is not virtual finds the same item size and no more items
than the capacity it gives, which is the one the array has if it takes part in a pair already; a swap or move that is accepted
finds buffers of one size; and a virtual array is given a capacity that agrees with the arrays it has been validated with. -/
def keepsArrays (s : ArrayContext) : ArrayAction → Bool
  | .vxCreateArray _ itemType capacity => s.sizeFits itemType capacity
  | .vxCreateVirtualArray _ itemType capacity => s.sizeFits itemType capacity
  | .ownInitVirtualArray a itemType capacity =>
    let A' := ownInitArrayObject s.itemSizes itemType capacity true
    s.sizeFits itemType capacity && s.validated.all (fun p =>
      let agrees := fun I O : VxArray => if p.1 = .copy then decide (I.capacity ≤ O.capacity)
        else I.capacity == O.capacity && I.memSize == O.memSize
      (p.2.1 != a || p.2.2 == a || (s.arrays p.2.2).all (fun O => agrees A' O)) &&
        (p.2.2 != a || p.2.1 == a || (s.arrays p.2.1).all (fun I => agrees I A')))
  | .validate .copy input output =>
    (s.arrays input).all (fun I => (s.arrays output).all (fun O => O.isVirtual ||
      (ArrayContext.isArrayCopyable input output I O).isNone ||
        I.itemSize == O.itemSize && decide (O.numItems ≤ I.capacity) &&
          (I.capacity == O.capacity || !s.isPaired output)))
  | .validate _ input output =>
    (s.arrays input).all (fun I => (s.arrays output).all (fun O =>
      !ArrayContext.isMetaFormatArrayEqual I O || I.memSize == O.memSize))
  | _ => true

/-- What holds of each array; the size of a virtual one is that of its capacity. -/
structure SizedArray (buffers : Nat → Option UInt32) (A : VxArray) : Prop where
  numItems : A.numItems.toNat ≤ A.capacity.toNat
  size : A.itemSize.toNat * A.capacity.toNat ≤ A.memSize.toNat
  virtual : A.isVirtual = true → A.memSize.toNat = A.itemSize.toNat * A.capacity.toNat
  buffer : A.hostPtr ≠ 0 → buffers A.hostPtr = some A.memSize

/-- What holds of two arrays a kernel has been validated for. -/
def PairAgrees (kernel : CopyMoveKernel) (I O : VxArray) : Prop :=
  match kernel with
  | .copy => O.memSize = 0 ∨ I.capacity ≤ O.capacity
  | _ => I.capacity = O.capacity ∧ I.memSize = O.memSize

/-- What holds in every state of a run that keeps the arrays. -/
structure ArraysInv (s : ArrayContext) : Prop where
  sized : ∀ a A, s.arrays a = some A → SizedArray s.buffers A
  pairs : ∀ k i o, (k, i, o) ∈ s.validated → ∃ I O, s.arrays i = some I ∧ s.arrays o = some O ∧ PairAgrees k I O

theorem ArraysInv.start (itemSizes : Int → UInt64) : ArraysInv { itemSizes := itemSizes } where
  sized := fun _ _ h => nomatch h
  pairs := fun _ _ _ h => nomatch h

theorem PairAgrees.of_eq {k : CopyMoveKernel} {I O I' O' : VxArray} (h : PairAgrees k I O) (hi : I'.capacity = I.capacity)
    (hi' : I'.memSize = I.memSize) (ho : O'.capacity = O.capacity) (ho' : O'.memSize = O.memSize) :
    PairAgrees k I' O' := by
  cases k <;> simpa only [PairAgrees, hi, hi', ho, ho'] using h

theorem PairAgrees.refl (k : CopyMoveKernel) (A : VxArray) : PairAgrees k A A := by
  cases k
  · exact .inr (UInt32.le_refl _)
  · exact ⟨rfl, rfl⟩
  · exact ⟨rfl, rfl⟩

/-- A new array of a size that fits. -/
theorem sizedArray_init {s : ArrayContext} {itemType : Int} {capacity : UInt64} (h : s.sizeFits itemType capacity = true)
    (buffers : Nat → Option UInt32) (isVirtual : Bool) :
    SizedArray buffers (ownInitArrayObject s.itemSizes itemType capacity isVirtual) := by
  have hsize : ((s.itemSizes itemType).toUInt32 * capacity.toUInt32).toNat =
      (s.itemSizes itemType).toUInt32.toNat * capacity.toUInt32.toNat := by
    rw [UInt32.toNat_mul]
    exact Nat.mod_eq_of_lt (of_decide_eq_true h)
  exact ⟨Nat.zero_le _, Nat.le_of_eq hsize.symm, fun _ => hsize, fun h0 => absurd rfl h0⟩

theorem ArrayContext.not_isPaired {s : ArrayContext} {a : Nat} (h : s.isPaired a = false) {k : CopyMoveKernel} {i o : Nat}
    (hp : (k, i, o) ∈ s.validated) : i ≠ a ∧ o ≠ a := by
  have := List.any_eq_false.1 h (k, i, o) hp
  simpa using this

namespace ArraysInv

variable {s : ArrayContext} {a : Nat} {A A' : VxArray}

/-- An array is new, is replaced by one of the same capacity and size, or has not been validated with another. -/
theorem setArray (h : ArraysInv s) (hA : (∀ A, s.arrays a = some A → A'.capacity = A.capacity ∧ A'.memSize = A.memSize) ∨
    s.isPaired a = false) (hA' : SizedArray s.buffers A') : ArraysInv (s.setArray a A') := by
  refine ⟨fun b B hB => ?_, fun k i o hp => ?_⟩
  · by_cases hb : b = a
    · subst hb
      obtain rfl : A' = B := by simpa [ArrayContext.setArray] using hB
      exact hA'
    · exact h.sized b B (by simpa [ArrayContext.setArray, Function.update_of_ne hb] using hB)
  · obtain ⟨I, O, hI, hO, hIO⟩ := h.pairs k i o hp
    -- each of the two is still there, with its capacity and size
    have hkeep : ∀ {b B}, s.arrays b = some B → (b ≠ a ∨ ∀ A, s.arrays a = some A → A'.capacity = A.capacity ∧
        A'.memSize = A.memSize) → ∃ B', (s.setArray a A').arrays b = some B' ∧ B'.capacity = B.capacity ∧
        B'.memSize = B.memSize := by
      intro b B hB hor
      by_cases hb : b = a
      · subst hb
        exact ⟨A', Function.update_self .., hor.resolve_left (fun hn => hn rfl) B hB⟩
      · exact ⟨B, by simp only [ArrayContext.setArray, Function.update_of_ne hb, hB], rfl, rfl⟩
    have hor : ∀ b, b = i ∨ b = o → (b ≠ a ∨ ∀ A, s.arrays a = some A → A'.capacity = A.capacity ∧
        A'.memSize = A.memSize) := by
      intro b hb
      obtain hA | hA := hA
      · exact .inr hA
      · have hn := ArrayContext.not_isPaired hA hp
        rcases hb with rfl | rfl
        · exact .inl hn.1
        · exact .inl hn.2
    obtain ⟨I', hI', hi, hi'⟩ := hkeep hI (hor i (.inl rfl))
    obtain ⟨O', hO', ho, ho'⟩ := hkeep hO (hor o (.inr rfl))
    exact ⟨I', O', hI', hO', hIO.of_eq hi hi' ho ho'⟩

/-- A buffer that was not in use is. -/
theorem setBuffer (h : ArraysInv s) {host : Nat} (hf : s.buffers host = none) (n : UInt32) :
    ArraysInv { s with buffers := Function.update s.buffers host (some n) } := by
  refine ⟨fun b B hB => ?_, h.pairs⟩
  have S := h.sized b B hB
  refine ⟨S.numItems, S.size, S.virtual, fun h0 => ?_⟩
  have hb := S.buffer h0
  have hne : B.hostPtr ≠ host := by
    intro he
    rw [he, hf] at hb
    cases hb
  show Function.update s.buffers host (some n) B.hostPtr = _
  rw [Function.update_of_ne hne, hb]

/-- What an allocation gives. -/
theorem alloc (h : ArraysInv s) (hA : s.arrays a = some A) {host : Nat} (hf : s.freshBuffer host = true) :
    ArraysInv (s.ownAllocReferenceBufferGeneric a A host).1 ∧
    (s.ownAllocReferenceBufferGeneric a A host).1.arrays a = some (s.ownAllocReferenceBufferGeneric a A host).2.1 := by
  unfold ArrayContext.ownAllocReferenceBufferGeneric
  split
  · exact ⟨h, hA⟩
  · split
    · exact ⟨h, hA⟩
    · have hb := h.setBuffer (Option.isNone_iff_eq_none.1 hf) A.memSize
      have S := hb.sized a A hA
      have hS : SizedArray (Function.update s.buffers host (some A.memSize)) { A with hostPtr := host } :=
        ⟨S.numItems, S.size, S.virtual, fun _ => Function.update_self ..⟩
      refine ⟨hb.setArray (a := a) (.inl (fun B hB => ?_)) hS, Function.update_self ..⟩
      obtain rfl : A = B := Option.some.inj (hA.symm.trans hB)
      exact ⟨rfl, rfl⟩

/-- A number of items that is at most the capacity. -/
theorem setNumItems (h : ArraysInv s) (hA : s.arrays a = some A) {n : UInt32} (hn : n.toNat ≤ A.capacity.toNat) :
    ArraysInv (s.setArray a { A with numItems := n }) := by
  have S := h.sized a A hA
  refine h.setArray (.inl (fun B hB => ?_)) ⟨hn, S.size, S.virtual, S.buffer⟩
  obtain rfl : A = B := Option.some.inj (hA.symm.trans hB)
  exact ⟨rfl, rfl⟩

theorem vxAddArrayItems (h : ArraysInv s) (hA : s.arrays a = some A) {host : Nat} (hf : s.freshBuffer host = true)
    (count : UInt64) (ptr : Bool) (stride : UInt64) : ArraysInv (s.vxAddArrayItems a A count ptr stride host) := by
  obtain ⟨h', hA'⟩ := h.alloc hA hf
  unfold ArrayContext.vxAddArrayItems
  split
  rename_i s' A' allocated hr
  rw [hr] at h' hA'
  simp only [] at h' hA' ⊢
  split
  · rename_i hc
    refine h'.setNumItems hA' ?_
    simp only [Bool.and_eq_true, Bool.not_eq_true', decide_eq_false_iff_not] at hc
    have hle := Nat.not_lt.1 (mt UInt64.lt_iff_toNat_lt.2 hc.1.2)
    simp only [UInt64.toNat_add, UInt32.toNat_toUInt64] at hle
    have h1 := A'.capacity.toNat_lt
    simp only [UInt32.toNat_add, UInt64.toNat_toUInt32]
    omega
  · exact h'

theorem vxTruncateArray (h : ArraysInv s) (hA : s.arrays a = some A) (n : UInt64) : ArraysInv (s.vxTruncateArray a A n) := by
  unfold ArrayContext.vxTruncateArray
  split
  · rename_i hc
    refine h.setNumItems hA ?_
    have hle := Nat.not_lt.1 (mt UInt64.lt_iff_toNat_lt.2 hc.2.2)
    simp only [UInt32.toNat_toUInt64] at hle
    have := (h.sized a A hA).numItems
    have h1 := A.capacity.toNat_lt
    simp only [UInt64.toNat_toUInt32]
    omega
  · exact h

end ArraysInv

namespace ArrayContext

variable {s : ArrayContext} {i o : Nat} {I O O' : VxArray}

/-- What a copy that is accepted makes of the output. -/
theorem isArrayCopyable_spec (h : isArrayCopyable i o I O = some O') : i ≠ o ∧
    (O.isVirtual = true ∧ O' = O ∧ (O.capacity = 0 ∨ I.capacity = O.capacity) ∨
      O.isVirtual = false ∧ O.itemType = I.itemType ∧ I.capacity ≤ O.capacity ∧
        O' = { O with itemSize := I.itemSize, capacity := I.capacity }) := by
  unfold isArrayCopyable at h
  split at h
  · cases h
  · rename_i hio
    refine ⟨hio, ?_⟩
    split at h
    · rename_i hv
      split at h
      · cases h
      · rename_i hn
        cases h
        refine .inl ⟨hv, rfl, ?_⟩
        by_cases h0 : O.capacity = 0
        · exact .inl h0
        · exact .inr (Classical.byContradiction (fun hne => hn (.inr ⟨h0, hne⟩)))
    · rename_i hv
      split at h
      · cases h
      · rename_i ht
        split at h
        · cases h
        · rename_i hlt
          cases h
          have ht' : O.itemType = I.itemType := Classical.not_not.1 ht
          exact .inr ⟨Bool.eq_false_iff.2 hv, ht', UInt32.not_lt.1 hlt, by rw [ht']⟩

/-- **What a validation changes**: a copy that is accepted gives an output that is not virtual the item size and the capacity of
the input. -/
theorem validate_arrays (kernel : CopyMoveKernel) (hO : s.arrays o = some O) : (s.validate kernel i o I O).buffers = s.buffers ∧
    ((s.validate kernel i o I O).arrays = s.arrays ∨
      kernel = .copy ∧ O.isVirtual = false ∧ O.itemType = I.itemType ∧ I.capacity ≤ O.capacity ∧
        (s.validate kernel i o I O).arrays =
          Function.update s.arrays o (some { O with itemSize := I.itemSize, capacity := I.capacity })) := by
  cases kernel with
  | copy =>
    unfold validate
    cases hcp : isArrayCopyable i o I O with
    | none => exact ⟨rfl, .inl rfl⟩
    | some O' =>
      refine ⟨rfl, ?_⟩
      obtain ⟨_, ⟨_, rfl, _⟩ | ⟨hv, ht, hle, rfl⟩⟩ := isArrayCopyable_spec hcp
      · refine .inl ?_
        show Function.update s.arrays o (some O') = s.arrays
        rw [← hO, Function.update_eq_self]
      · exact .inr ⟨rfl, hv, ht, hle, rfl⟩
  | swap =>
    unfold validate
    simp only []
    split
    · exact ⟨rfl, .inl rfl⟩
    · exact ⟨rfl, .inl rfl⟩
  | move =>
    unfold validate
    simp only []
    split
    · exact ⟨rfl, .inl rfl⟩
    · exact ⟨rfl, .inl rfl⟩

end ArrayContext

namespace ArraysInv

variable {s : ArrayContext} {a : Nat} {A A' : VxArray}

/-- A pair that agrees is remembered. -/
theorem addPair (h : ArraysInv s) {k : CopyMoveKernel} {i o : Nat} {I O : VxArray} (hI : s.arrays i = some I)
    (hO : s.arrays o = some O) (hpa : PairAgrees k I O) : ArraysInv { s with validated := (k, i, o) :: s.validated } := by
  refine ⟨h.sized, fun k' i' o' hp => ?_⟩
  rcases List.mem_cons.1 hp with heq | hp
  · cases heq
    exact ⟨I, O, hI, hO, hpa⟩
  · exact h.pairs k' i' o' hp

theorem validateCopy (h : ArraysInv s) {i o : Nat} {I O : VxArray} (hI : s.arrays i = some I) (hO : s.arrays o = some O)
    (hc : keepsArrays s (.validate .copy i o) = true) : ArraysInv (s.validate .copy i o I O) := by
  unfold ArrayContext.validate
  cases hcp : ArrayContext.isArrayCopyable i o I O with
  | none => exact h
  | some O' =>
    have hk : O.isVirtual = true ∨ (I.itemSize = O.itemSize ∧ O.numItems ≤ I.capacity) ∧
        (I.capacity = O.capacity ∨ s.isPaired o = false) := by
      simpa [keepsArrays, hI, hO, hcp] using hc
    have SO := h.sized o O hO
    obtain ⟨hio, ⟨hv, rfl, hcap⟩ | ⟨hv, _, hle, rfl⟩⟩ := ArrayContext.isArrayCopyable_spec hcp
    · have hset : s.setArray o O' = s := by
        simp only [ArrayContext.setArray, ← hO, Function.update_eq_self]
      simp only [hset]
      refine h.addPair hI hO ?_
      obtain h0 | h0 := hcap
      · -- a virtual array without a capacity has no size
        have hz := SO.virtual hv
        rw [h0, UInt32.toNat_zero, Nat.mul_zero] at hz
        exact .inl (UInt32.toNat_inj.1 hz)
      · exact .inr (by rw [h0]; exact UInt32.le_refl _)
    · obtain ⟨⟨hsize, hnum⟩, hpair⟩ := hk.resolve_left (by rw [hv]; decide)
      have hS : SizedArray s.buffers { O with itemSize := I.itemSize, capacity := I.capacity } := by
        refine ⟨UInt32.le_iff_toNat_le.1 hnum, ?_, fun hv' => absurd (hv.symm.trans hv') (by decide), SO.buffer⟩
        rw [hsize]
        exact Nat.le_trans (Nat.mul_le_mul_left _ (UInt32.le_iff_toNat_le.1 hle)) SO.size
      have h' := h.setArray (a := o) (hpair.imp (fun he B hB => ?_) id) hS
      · refine h'.addPair (I := I) ?_ (Function.update_self ..) (.inr (UInt32.le_refl _))
        simp only [ArrayContext.setArray, Function.update_of_ne hio, hI]
      · obtain rfl : O = B := Option.some.inj (hO.symm.trans hB)
        exact ⟨he, rfl⟩

theorem validateSwap (h : ArraysInv s) {k : CopyMoveKernel} {i o : Nat} {I O : VxArray} (hI : s.arrays i = some I)
    (hO : s.arrays o = some O) (hk : k ≠ .copy) (hc : keepsArrays s (.validate k i o) = true) :
    ArraysInv (s.validate k i o I O) := by
  have hm : ArrayContext.isMetaFormatArrayEqual I O = true → PairAgrees k I O := by
    intro hm
    have hmem : I.memSize = O.memSize := by
      cases k with
      | copy => exact absurd rfl hk
      | swap => simpa [keepsArrays, hI, hO, hm] using hc
      | move => simpa [keepsArrays, hI, hO, hm] using hc
    simp only [ArrayContext.isMetaFormatArrayEqual, Bool.and_eq_true, decide_eq_true_eq] at hm
    cases k with
    | copy => exact absurd rfl hk
    | swap => exact ⟨hm.1.2, hmem⟩
    | move => exact ⟨hm.1.2, hmem⟩
  have hval : s.validate k i o I O = if ArrayContext.isMetaFormatArrayEqual I O = true then
      { s with validated := (k, i, o) :: s.validated } else s := by
    cases k with
    | copy => exact absurd rfl hk
    | swap => rfl
    | move => rfl
  rw [hval]
  split
  · rename_i he
    exact h.addPair hI hO (hm he)
  · exact h

/-- Two arrays of one capacity and size exchange their buffers and items. -/
theorem swapped (h : ArraysInv s) {i o : Nat} {I O : VxArray} (hI : s.arrays i = some I) (hO : s.arrays o = some O)
    (hcap : I.capacity = O.capacity) (hmem : I.memSize = O.memSize) :
    ArraysInv ((s.setArray o { O with hostPtr := I.hostPtr, numItems := I.numItems }).setArray i
      { I with hostPtr := O.hostPtr, numItems := O.numItems }) := by
  have SI := h.sized i I hI
  have SO := h.sized o O hO
  have h1 : ArraysInv (s.setArray o { O with hostPtr := I.hostPtr, numItems := I.numItems }) := by
    refine h.setArray (.inl (fun B hB => ?_)) ⟨?_, SO.size, SO.virtual, fun h0 => ?_⟩
    · obtain rfl : O = B := Option.some.inj (hO.symm.trans hB)
      exact ⟨rfl, rfl⟩
    · show I.numItems.toNat ≤ O.capacity.toNat
      rw [← hcap]
      exact SI.numItems
    · exact (SI.buffer h0).trans (by rw [hmem])
  refine h1.setArray (.inl (fun B hB => ?_)) ⟨?_, SI.size, SI.virtual, fun h0 => ?_⟩
  · by_cases hio : i = o
    · subst hio
      obtain rfl : I = O := Option.some.inj (hI.symm.trans hO)
      simp only [ArrayContext.setArray, Function.update_self, Option.some.injEq] at hB
      subst hB
      exact ⟨rfl, rfl⟩
    · simp only [ArrayContext.setArray, Function.update_of_ne hio] at hB
      obtain rfl : I = B := Option.some.inj (hI.symm.trans hB)
      exact ⟨rfl, rfl⟩
  · show O.numItems.toNat ≤ I.capacity.toNat
    rw [hcap]
    exact SO.numItems
  · exact (SO.buffer h0).trans (by rw [hmem])

theorem process (h : ArraysInv s) {k : CopyMoveKernel} {i o : Nat} {I O : VxArray} (hI : s.arrays i = some I)
    (hO : s.arrays o = some O) (hp : (k, i, o) ∈ s.validated) : ArraysInv (s.process k i o I O) := by
  obtain ⟨I', O', hI', hO', hpa⟩ := h.pairs k i o hp
  obtain rfl : I = I' := Option.some.inj (hI.symm.trans hI')
  obtain rfl : O = O' := Option.some.inj (hO.symm.trans hO')
  cases k with
  | copy =>
    unfold ArrayContext.process
    simp only []
    split
    · rename_i hc
      refine h.setNumItems hO ?_
      obtain h0 | h0 := hpa
      · simp [ArrayContext.mappable, h0] at hc
      · exact Nat.le_trans (h.sized i I hI).numItems (UInt32.le_iff_toNat_le.1 h0)
    · exact h
  | swap => exact h.swapped hI hO hpa.1 hpa.2
  | move => exact h.swapped hI hO hpa.1 hpa.2

theorem ownInitVirtualArray (h : ArraysInv s) {itemType : Int} {capacity : UInt64}
    (hc : keepsArrays s (.ownInitVirtualArray a itemType capacity) = true) :
    ArraysInv (s.setArray a (ownInitArrayObject s.itemSizes itemType capacity true)) := by
  simp only [keepsArrays, Bool.and_eq_true, List.all_eq_true] at hc
  obtain ⟨hfit, hall⟩ := hc
  refine ⟨fun b B hB => ?_, fun k i o hp => ?_⟩
  · by_cases hb : b = a
    · subst hb
      obtain rfl : ownInitArrayObject s.itemSizes itemType capacity true = B := by simpa [ArrayContext.setArray] using hB
      exact sizedArray_init hfit _ _
    · exact h.sized b B (by simpa [ArrayContext.setArray, Function.update_of_ne hb] using hB)
  · obtain ⟨I, O, hI, hO, hpa⟩ := h.pairs k i o hp
    have hk := hall (k, i, o) hp
    simp only [hI, hO, Option.all_some, Bool.or_eq_true, bne_iff_ne, ne_eq, beq_iff_eq] at hk
    -- what the condition says of a pair
    have hag : ∀ {I O : VxArray}, (if k = .copy then decide (I.capacity ≤ O.capacity)
        else I.capacity == O.capacity && I.memSize == O.memSize) = true → PairAgrees k I O := by
      intro I O h
      cases k
      · exact .inr (by simpa using h)
      · simpa [PairAgrees] using h
      · simpa [PairAgrees] using h
    by_cases hia : i = a <;> by_cases hoa : o = a
    · exact ⟨_, _, by rw [hia]; exact Function.update_self .., by rw [hoa]; exact Function.update_self .., PairAgrees.refl _ _⟩
    · refine ⟨_, O, by rw [hia]; exact Function.update_self .., by
        simp only [ArrayContext.setArray, Function.update_of_ne hoa, hO], hag ?_⟩
      exact hk.1.resolve_left (fun hn => hn.elim (fun hn => hn hia) hoa)
    · refine ⟨I, _, by simp only [ArrayContext.setArray, Function.update_of_ne hia, hI], by
        rw [hoa]; exact Function.update_self .., hag ?_⟩
      exact hk.2.resolve_left (fun hn => hn.elim (fun hn => hn hoa) hia)
    · exact ⟨I, O, by simp only [ArrayContext.setArray, Function.update_of_ne hia, hI],
        by simp only [ArrayContext.setArray, Function.update_of_ne hoa, hO], hpa⟩

/-- Every call that keeps the arrays keeps the invariant. -/
theorem step (h : ArraysInv s) {x : ArrayAction} {t : ArrayContext} (hc : keepsArrays s x = true)
    (hs : arrayStep s x = some t) : ArraysInv t := by
  cases x with
  | vxRegisterUserStruct itemType size =>
    simp only [arrayStep] at hs
    split at hs
    · cases hs
      exact ⟨h.sized, h.pairs⟩
    · cases hs
  | vxCreateArray a itemType capacity =>
    simp only [arrayStep] at hs
    split at hs
    · rename_i ha
      cases hs
      exact h.setArray (.inl (fun A hA => by simp [ha.1] at hA)) (sizedArray_init hc _ _)
    · cases hs
  | vxCreateVirtualArray a itemType capacity =>
    simp only [arrayStep] at hs
    split at hs
    · rename_i ha
      cases hs
      exact h.setArray (.inl (fun A hA => by simp [ha] at hA)) (sizedArray_init hc _ _)
    · cases hs
  | ownInitVirtualArray a itemType capacity =>
    simp only [arrayStep] at hs
    split at hs
    · cases hs
    · split at hs
      · cases hs
        exact h.ownInitVirtualArray hc
      · cases hs
        exact h
  | allocate a host =>
    simp only [arrayStep] at hs
    split at hs
    · rename_i hf
      obtain ⟨A, hA, rfl⟩ := Option.map_eq_some_iff.1 hs
      exact (h.alloc hA hf).1
    · cases hs
  | vxAddArrayItems a count ptr stride host =>
    simp only [arrayStep] at hs
    split at hs
    · rename_i hf
      obtain ⟨A, hA, rfl⟩ := Option.map_eq_some_iff.1 hs
      exact h.vxAddArrayItems hA hf count ptr stride
    · cases hs
  | vxTruncateArray a newNumItems =>
    obtain ⟨A, hA, rfl⟩ := Option.map_eq_some_iff.1 hs
    exact h.vxTruncateArray hA newNumItems
  | vxCopyArrayRange a =>
    obtain ⟨A, hA, rfl⟩ := Option.map_eq_some_iff.1 hs
    exact h
  | vxMapArrayRange a =>
    obtain ⟨A, hA, rfl⟩ := Option.map_eq_some_iff.1 hs
    exact h
  | validate kernel input output =>
    obtain ⟨I, hI, hs⟩ := Option.bind_eq_some_iff.1 hs
    obtain ⟨O, hO, rfl⟩ := Option.map_eq_some_iff.1 hs
    by_cases hk : kernel = .copy
    · subst hk
      exact h.validateCopy hI hO hc
    · exact h.validateSwap hI hO hk hc
  | process kernel input output =>
    simp only [arrayStep] at hs
    split at hs
    · rename_i hp
      obtain ⟨I, hI, hs⟩ := Option.bind_eq_some_iff.1 hs
      obtain ⟨O, hO, rfl⟩ := Option.map_eq_some_iff.1 hs
      exact h.process hI hO hp
    · cases hs

end ArraysInv

/-- What a validation-only call may change. -/
def ChangesMetadataOnly (s t : ArrayContext) (kernel : CopyMoveKernel) (input output : Nat) : Prop :=
  t.buffers = s.buffers ∧ (t.arrays = s.arrays ∨ ∃ I O, s.arrays input = some I ∧ s.arrays output = some O ∧
    kernel = .copy ∧ O.isVirtual = false ∧ O.itemType = I.itemType ∧ I.capacity ≤ O.capacity ∧
      t.arrays = Function.update s.arrays output (some { O with itemSize := I.itemSize, capacity := I.capacity }))

/-- **The counts and sizes of the arrays agree** in every run that keeps the arrays, and a validation changes no more than the
item size and the capacity of the output of a copy. -/
theorem arraysOk_of_reach (itemSizes : Int → UInt64) {s : ArrayContext}
    (h : Reach arrayStep (fun s x => keepsArrays s x = true) { itemSizes := itemSizes } s) : ArraysOk s ∧
    ∀ k i o t, arrayStep s (.validate k i o) = some t → ChangesMetadataOnly s t k i o := by
  have I : ArraysInv s := h.inv (.start itemSizes) (fun _ _ _ I hc hs => I.step hc hs)
  refine ⟨fun a A hA => ?_, fun k i o t hs => ?_⟩
  · have S := I.sized a A hA
    exact ⟨S.numItems, S.size, S.buffer⟩
  · obtain ⟨A, hA, hs⟩ := Option.bind_eq_some_iff.1 hs
    obtain ⟨B, hB, rfl⟩ := Option.map_eq_some_iff.1 hs
    obtain ⟨hb, ha | ⟨hk, ha⟩⟩ := ArrayContext.validate_arrays (i := i) (I := A) k hB
    · exact ⟨hb, .inl ha⟩
    · exact ⟨hb, .inr ⟨A, B, hA, hB, hk, ha⟩⟩

/-- Items of `VX_TYPE_INT32`, and of no other type. -/
def int32Sizes (itemType : Int) : UInt64 := if itemType = 6 then 4 else 0

/-- Two arrays, one of them with items, a virtual array a copy gives its type, and a swap. -/
def arrayRun : List ArrayAction :=
  [.vxCreateArray 0 6 4, .vxCreateArray 1 6 4, .vxCreateVirtualArray 2 0 0, .vxAddArrayItems 0 3 true 4 0x1000,
    .vxTruncateArray 0 2, .validate .copy 0 2, .ownInitVirtualArray 2 6 4, .allocate 2 0x2000, .allocate 1 0x3000,
    .process .copy 0 2, .validate .swap 0 1, .process .swap 0 1]

theorem arraysOk_run : ∃ s : ArrayContext, (s.arrays 0).map (fun A => (A.numItems, A.hostPtr)) = some (0, 0x3000) ∧
    (s.arrays 1).map (fun A => (A.numItems, A.hostPtr)) = some (2, 0x1000) ∧
    (s.arrays 2).map (fun A => (A.numItems, A.hostPtr)) = some (2, 0x2000) ∧ ArraysOk s := by
  have hexec : (exec arrayStep keepsArrays { itemSizes := int32Sizes } arrayRun).map
      (fun s => ((s.arrays 0).map (fun A => (A.numItems, A.hostPtr)), (s.arrays 1).map (fun A => (A.numItems, A.hostPtr)),
        (s.arrays 2).map (fun A => (A.numItems, A.hostPtr)))) =
      some (some (0, 0x3000), some (2, 0x1000), some (2, 0x2000)) := by
    decide +kernel
  obtain ⟨s, hr, hs⟩ := exists_reach_of_exec hexec
  simp only [Prod.mk.injEq] at hs
  exact ⟨s, hs.1, hs.2.1, hs.2.2, (arraysOk_of_reach int32Sizes hr).1⟩

/-- The size of a large array is wrapped; validating a copy takes the capacity of the output below its items; and a swap after
such a validation gives an array a buffer that is smaller than its size. -/
theorem arrays_broken :
    (∃ s, Reach arrayStep (fun s x => anyStep s x = true) { itemSizes := int32Sizes } s ∧ ¬ ArraysOk s ∧
      (s.arrays 0).map (fun A => (A.itemSize, A.capacity, A.memSize)) = some (4, 0x40000001, 4)) ∧
    (∃ s t, Reach arrayStep (fun s x => anyStep s x = true) { itemSizes := int32Sizes } s ∧
      arrayStep s (.validate .copy 0 1) = some t ∧ t.arrays ≠ s.arrays ∧ ¬ ArraysOk t ∧
      (t.arrays 1).map (fun A => (A.numItems, A.capacity)) = some (3, 2)) ∧
    (∃ s, Reach arrayStep (fun s x => anyStep s x = true) { itemSizes := int32Sizes } s ∧ ¬ ArraysOk s ∧
      (s.arrays 1).map (fun A => (A.memSize, A.hostPtr)) = some (16, 0x1000) ∧ s.buffers 0x1000 = some 8) := by
  have h1 : (exec arrayStep anyStep { itemSizes := int32Sizes } [.vxCreateArray 0 6 0x40000001]).map
      (fun s => (s.arrays 0).map (fun A => (A.itemSize, A.capacity, A.memSize))) = some (some (4, 0x40000001, 4)) := by
    decide +kernel
  have h2 : (exec arrayStep anyStep { itemSizes := int32Sizes } [.vxCreateArray 0 6 2, .vxCreateArray 1 6 4,
      .vxAddArrayItems 1 3 true 4 0x1000]).map (fun s => ((s.arrays 0), (s.arrays 1))) =
      some (some ⟨6, 4, 0, 2, 8, 0, false⟩, some ⟨6, 4, 3, 4, 16, 0x1000, false⟩) := by
    decide +kernel
  have h3 : (exec arrayStep anyStep { itemSizes := int32Sizes } [.vxCreateArray 0 6 2, .vxCreateArray 1 6 4,
      .allocate 0 0x1000, .allocate 1 0x2000, .validate .copy 0 1, .validate .swap 0 1, .process .swap 0 1]).map
      (fun s => ((s.arrays 1).map (fun A => (A.memSize, A.hostPtr)), s.buffers 0x1000)) =
      some (some (16, 0x1000), some 8) := by
    decide +kernel
  obtain ⟨s1, hr1, hx1⟩ := exists_reach_of_exec h1
  obtain ⟨s2, hr2, hx2⟩ := exists_reach_of_exec h2
  obtain ⟨s3, hr3, hx3⟩ := exists_reach_of_exec h3
  obtain ⟨hi, ho⟩ := Prod.mk.inj hx2
  obtain ⟨hp3, hb3⟩ := Prod.mk.inj hx3
  -- the validation takes the capacity of array 1 from 4 to 2
  have ht : (s2.validate .copy 0 1 ⟨6, 4, 0, 2, 8, 0, false⟩ ⟨6, 4, 3, 4, 16, 0x1000, false⟩).arrays 1 =
      some ⟨6, 4, 3, 2, 16, 0x1000, false⟩ := by
    have hcp : ArrayContext.isArrayCopyable 0 1 ⟨6, 4, 0, 2, 8, 0, false⟩ ⟨6, 4, 3, 4, 16, 0x1000, false⟩ =
        some ⟨6, 4, 3, 2, 16, 0x1000, false⟩ := by decide +kernel
    simp only [ArrayContext.validate, hcp, ArrayContext.setArray, Function.update_self]
  refine ⟨⟨s1, hr1, fun h => ?_, hx1⟩, ⟨s2, _, hr2, by simp only [arrayStep, hi, ho]; rfl, fun he => ?_, fun h => ?_,
    congrArg (Option.map _) ht⟩, ⟨s3, hr3, fun h => ?_, hp3, hb3⟩⟩
  · obtain ⟨A, hA, hx⟩ := Option.map_eq_some_iff.1 hx1
    simp only [Prod.mk.injEq] at hx
    have := (h 0 A hA).size
    rw [hx.1, hx.2.1, hx.2.2] at this
    exact absurd this (by decide)
  · have := congrFun he 1
    rw [ht, ho] at this
    exact absurd this (by decide)
  · exact absurd (h 1 _ ht).numItems (by decide)
  · obtain ⟨A, hA, hx⟩ := Option.map_eq_some_iff.1 hp3
    simp only [Prod.mk.injEq] at hx
    have := (h 1 A hA).buffer (by rw [hx.2]; decide)
    rw [hx.1, hx.2, hb3] at this
    exact absurd this (by decide)

end Tiovx
