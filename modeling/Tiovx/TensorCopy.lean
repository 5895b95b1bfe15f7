import Tiovx.Lib.ByteMemory
import Tiovx.ObjectArrayList
import Tiovx.TensorObjects
/-!
# TensorCopy — the copy kernel on tensors (`vx_tensor.c`, `vx_reference.c`)

`ownCopyReferenceGeneric` copies `mem_size` bytes from the first on.  These are the elements of the tensor where its rows follow
each other.
-/
namespace Tiovx

/-- `memcpy`, which is undefined for blocks that overlap. -/
def memcpy (m : ByteMem) (c : BlockCopy) : Option ByteMem :=
  if c.src + c.len ≤ c.dst ∨ c.dst + c.len ≤ c.src then some (m.copy c) else none

namespace TensorDesc

/-- `ownIsMetaFormatTensorEqual` of what `ownInitMetaFormatWithTensor` reads. -/
def tivxIsReferenceMetaFormatEqual (I O : TensorDesc) : Bool :=
  I.dimensions.length == O.dimensions.length && I.dataType == O.dataType && I.fixedPointPosition == O.fixedPointPosition &&
    I.scalingDivisor == O.scalingDivisor && I.scalingDivisorFixedPointPosition == O.scalingDivisorFixedPointPosition &&
      I.dimensions == O.dimensions && I.stride == O.stride

/-- `tivxMemBufferMap` and `tivxMemBufferUnmap` succeed. -/
def isMappable (t : TensorDesc) : Bool := t.hostPtr != 0 && t.memSize != 0

/-- `ownCopyReferenceGeneric`: its status and the memory after it. -/
def ownCopyReferenceGeneric (I O : TensorDesc) (m : ByteMem) : Option (Int × ByteMem) :=
  if I.memSize ≤ O.memSize then
    if I.isMappable && O.isMappable then
      (memcpy m ⟨I.hostPtr, O.hostPtr, I.memSize.toNat⟩).map (fun m => (vxSuccess, m))
    else some (vxFailure, m)
  else some (vxErrorNotCompatible, m)

/-- `tensorKernelCallback` that validates a copy. -/
def validateCopy (I O : TensorDesc) : Int := if I.tivxIsReferenceMetaFormatEqual O then vxSuccess else vxErrorNotCompatible

/-- **The tensor is copied**: whatever the memory holds, each element of the output becomes that of the input, and no byte but
those of the elements changes. -/
def Copied (I O : TensorDesc) : Prop := ∀ m, ∃ r, I.ownCopyReferenceGeneric O m = some r ∧
  (∀ v, Axis.IsIndex v O.axes → ∀ b < O.elementSize, r.2 (O.place v + b) = m (I.place v + b)) ∧
    ∀ a, ¬ O.IsByte a → r.2 a = m a

/-! ## When a tensor is copied -/

def isEmpty (t : TensorDesc) : Bool := t.dimensions.any (· == 0)

/-- Each dimension goes on at most where those below it end, and the last ends where the memory does. -/
def rowsFill (t : TensorDesc) : Bool := Axis.spanEnd t.elementSize t.axes == some t.memSize.toNat

/-- The memory of the input is apart from the output's. -/
def apart (I O : TensorDesc) : Bool := I.hostPtr + I.memSize.toNat ≤ O.hostPtr || O.hostPtr + I.memSize.toNat ≤ I.hostPtr

/-- There is nothing to copy, or it is in its place, or the rows fill the memory and the memories do not overlap. -/
def copies (I O : TensorDesc) : Bool := O.isEmpty || (I.memSize == 0 && I.hostPtr == O.hostPtr) || O.rowsFill && I.apart O

variable {I O t : TensorDesc}

theorem count_pos (h : t.isEmpty = false) : ∀ a ∈ t.axes, 0 < a.count := by
  intro a ha
  unfold axes at ha
  obtain ⟨i, hi, rfl⟩ := List.getElem_of_mem ha
  rw [List.getElem_zipWith]
  have hlen : i < t.dimensions.length := by
    rw [List.length_zipWith] at hi
    omega
  have hne := List.any_eq_false.1 h _ (List.getElem_mem hlen)
  simp only [beq_iff_eq] at hne
  exact Nat.pos_of_ne_zero (fun h0 => hne (UInt32.toNat_inj.1 h0))

theorem not_isIndex (h : t.isEmpty = true) (hl : t.LaidOut) {v : List Nat} : ¬ Axis.IsIndex v t.axes := by
  obtain ⟨d, hd, h0⟩ := List.any_eq_true.1 h
  obtain ⟨i, hi, rfl⟩ := List.getElem_of_mem hd
  intro hv
  have hlen : i < t.axes.length := by
    unfold axes
    rw [List.length_zipWith, hl.lengths]
    omega
  have := (List.forall₂_iff_get.1 hv).2 i (hv.length_eq ▸ hlen) hlen
  simp only [axes, List.get_eq_getElem, List.getElem_zipWith, eq_of_beq h0] at this
  exact absurd this (Nat.not_lt_zero _)

theorem tensorBytes_zero (dims : List UInt32) : tensorBytes 0 dims = 0 := by
  unfold tensorBytes
  induction dims with
  | nil => rfl
  | cons d ds ih => rwa [List.foldl_cons, Nat.zero_mul]

theorem tensorBytes_of_mem {size : Nat} {dims : List UInt32} (h : (0 : UInt32) ∈ dims) : tensorBytes size dims = 0 := by
  induction dims generalizing size with
  | nil => cases h
  | cons d ds ih =>
    rcases List.mem_cons.1 h with rfl | h
    · exact tensorBytes_zero ds
    · exact ih h

theorem memSize_of_isEmpty (h : t.isEmpty = true) (hl : t.LaidOut) : t.memSize = 0 := by
  obtain ⟨d, hd, h0⟩ := List.any_eq_true.1 h
  apply UInt32.toNat_inj.1
  rw [hl.memSize, tensorBytes_of_mem (eq_of_beq h0 ▸ hd)]
  rfl

/-- What two tensors have in common that are accepted. -/
structure Alike (I O : TensorDesc) : Prop where
  axes : I.axes = O.axes
  elementSize : I.elementSize = O.elementSize
  memSize : I.memSize = O.memSize

theorem alike (hI : I.LaidOut) (hO : O.LaidOut) (h : I.validateCopy O = vxSuccess) : I.Alike O := by
  unfold validateCopy at h
  split at h
  · rename_i heq
    simp only [tivxIsReferenceMetaFormatEqual, Bool.and_eq_true, beq_iff_eq] at heq
    obtain ⟨⟨⟨⟨⟨⟨-, hty⟩, -⟩, -⟩, -⟩, hdims⟩, hstride⟩ := heq
    constructor
    · unfold axes
      rw [hdims, hstride]
    · unfold elementSize
      rw [hty]
    · apply UInt32.toNat_inj.1
      rw [hI.memSize, hO.memSize, hdims, elementSize, elementSize, hty]
  · cases h

theorem place_eq (h : I.Alike O) (v : List Nat) : I.place v = O.place v - O.hostPtr + I.hostPtr := by
  unfold place
  rw [h.axes]
  omega

/-- What `ownCopyReferenceGeneric` does with memory that it maps. -/
theorem copy_eq (h : I.Alike O) (hI : I.hostPtr ≠ 0) (hO : O.hostPtr ≠ 0) (hn : I.memSize ≠ 0) (m : ByteMem) :
    I.ownCopyReferenceGeneric O m = if I.apart O then
      some (vxSuccess, m.copy ⟨I.hostPtr, O.hostPtr, I.memSize.toNat⟩) else none := by
  have hle : I.memSize ≤ O.memSize := by
    rw [h.memSize]
    exact UInt32.le_refl _
  have hIm : I.isMappable = true := by
    simp only [isMappable, Bool.and_eq_true, bne_iff_ne]
    exact ⟨hI, hn⟩
  have hOm : O.isMappable = true := by
    simp only [isMappable, Bool.and_eq_true, bne_iff_ne, ← h.memSize]
    exact ⟨hO, hn⟩
  simp only [ownCopyReferenceGeneric, if_pos hle, hIm, hOm, Bool.and_self, if_true, memcpy, apart, Bool.or_eq_true,
    decide_eq_true_eq]
  split
  · rfl
  · rfl

/-- Memory of no size is not mapped, and nothing is copied. -/
theorem copy_none (h : I.Alike O) (hn : I.memSize = 0) (m : ByteMem) : I.ownCopyReferenceGeneric O m = some (vxFailure, m) := by
  have hle : I.memSize ≤ O.memSize := by
    rw [h.memSize]
    exact UInt32.le_refl _
  have hIm : I.isMappable = false := by
    simp only [isMappable, hn, bne_self_eq_false, Bool.and_false]
  simp only [ownCopyReferenceGeneric, if_pos hle, hIm, Bool.false_and, Bool.false_eq_true, if_false]

/-- A memory that tells one byte from the others. -/
theorem exists_mem_ne {a b : Int} (h : a ≠ b) : ∃ m : ByteMem, m a ≠ m b := by
  refine ⟨fun x => if x = a then 1 else 0, ?_⟩
  dsimp only
  rw [if_pos rfl, if_neg h.symm]
  decide

/-- A copy of a block copies the tensor exactly where its elements take the bytes of the block. -/
theorem copied_block_iff (h : I.Alike O) (hI : I.hostPtr ≠ 0) (hO : O.hostPtr ≠ 0) (hn : I.memSize ≠ 0)
    (ha : I.apart O = true) :
    I.Copied O ↔ ∀ x, Axis.Covers O.axes O.elementSize x ↔ 0 ≤ x ∧ x < I.memSize.toNat := by
  have hpos : 0 < I.memSize.toNat := Nat.pos_of_ne_zero (fun h0 => hn (UInt32.toNat_inj.1 h0))
  have hne : I.hostPtr ≠ O.hostPtr := by
    simp only [apart, Bool.or_eq_true, decide_eq_true_eq] at ha
    omega
  have heq := copy_eq h hI hO hn
  simp only [ha, if_true] at heq
  have htakes : ∀ {x : Int}, 0 ≤ x → x < I.memSize.toNat →
      (BlockCopy.mk I.hostPtr O.hostPtr I.memSize.toNat).Takes (I.hostPtr + x) (O.hostPtr + x) := by
    intro x h1 h2
    simp only [BlockCopy.Takes]
    omega
  have hnot : ∀ {a : Int}, ¬ (0 ≤ a - O.hostPtr ∧ a - O.hostPtr < I.memSize.toNat) →
      ∀ s, ¬ (BlockCopy.mk I.hostPtr O.hostPtr I.memSize.toNat).Takes s a := by
    intro a h1 s hs
    simp only [BlockCopy.Takes] at hs
    omega
  constructor
  · intro hc x
    constructor
    · rintro ⟨v, hv, h1, h2⟩
      by_contra hx
      -- an element byte outside of the block keeps its value
      obtain ⟨m, hm⟩ := exists_mem_ne (a := O.hostPtr + x) (b := I.hostPtr + x) (by omega)
      obtain ⟨r, hr, hel, -⟩ := hc m
      rw [heq] at hr
      cases hr
      have hb := hel v hv (x - Axis.place O.axes v).toNat (by omega)
      rw [place_eq h, Int.toNat_of_nonneg (by omega)] at hb
      have h3 : O.place v + (x - Axis.place O.axes v) = O.hostPtr + x := by
        unfold place
        omega
      have h4 : O.place v - O.hostPtr + I.hostPtr + (x - Axis.place O.axes v) = I.hostPtr + x := by
        unfold place
        omega
      dsimp only at hb
      rw [h3, h4, ByteMem.copy_of_not (hnot (by omega))] at hb
      exact hm hb
    · rintro ⟨h1, h2⟩
      by_contra hx
      -- a byte of the block that is no element's changes
      obtain ⟨m, hm⟩ := exists_mem_ne (a := I.hostPtr + x) (b := O.hostPtr + x) (by omega)
      obtain ⟨r, hr, -, hother⟩ := hc m
      rw [heq] at hr
      cases hr
      have hb := hother (O.hostPtr + x) (fun hbyte => hx (by
        have := isByte_iff.1 hbyte
        rwa [add_sub_cancel_left] at this))
      dsimp only at hb
      rw [ByteMem.copy_of_takes (htakes h1 h2)] at hb
      exact hm hb
  · intro hcov m
    refine ⟨_, heq m, fun v hv b hb => ?_, fun a hbyte => ?_⟩
    · have hx := (hcov (Axis.place O.axes v + b)).1 ⟨v, hv, by omega, by omega⟩
      have h3 : O.place v + b = O.hostPtr + (Axis.place O.axes v + b) := by
        unfold place
        omega
      have h4 : I.place v + b = I.hostPtr + (Axis.place O.axes v + b) := by
        rw [place_eq h]
        omega
      rw [h3, h4]
      exact ByteMem.copy_of_takes (htakes hx.1 hx.2)
    · apply ByteMem.copy_of_not
      apply hnot
      intro hx
      exact hbyte (isByte_iff.2 ((hcov _).2 hx))

/-- **A tensor is copied exactly where** its rows fill the memory, which does not overlap. -/
theorem tensorCopied_iff (hI : I.Created) (hO : O.Created) (hv : I.validateCopy O = vxSuccess) (hIm : I.hostPtr ≠ 0)
    (hOm : O.hostPtr ≠ 0) : I.Copied O ↔ I.copies O = true := by
  have hLO := hO.laidOut
  have h := alike hI.laidOut hLO hv
  simp only [copies, Bool.or_eq_true, Bool.and_eq_true, beq_iff_eq]
  by_cases hn : I.memSize = 0
  · by_cases he : O.isEmpty = true
    · refine iff_of_true (fun m => ?_) (.inl (.inl he))
      exact ⟨_, copy_none h hn m, fun v hidx => absurd hidx (not_isIndex he hLO), fun _ _ => rfl⟩
    · rw [Bool.not_eq_true] at he
      by_cases hptr : I.hostPtr = O.hostPtr
      · refine iff_of_true (fun m => ⟨_, copy_none h hn m, fun v _ b _ => ?_, fun _ _ => rfl⟩) (.inl (.inr ⟨hn, hptr⟩))
        rw [place_eq h, hptr, sub_add_cancel]
      · -- the first element stays as it is
        have hcov := Axis.covers_zero (e := O.elementSize) (count_pos he) (Int.le_refl 0) (by exact_mod_cast O.dataType.size_pos)
        refine iff_of_false (fun hc => ?_) ?_
        · obtain ⟨v, hidx, h1, h2⟩ := hcov
          obtain ⟨m, hm⟩ := exists_mem_ne (a := O.hostPtr) (b := I.hostPtr) (Ne.symm hptr)
          obtain ⟨r, hr, hel, -⟩ := hc m
          rw [copy_none h hn] at hr
          cases hr
          have hb := hel v hidx (0 - Axis.place O.axes v).toNat (by omega)
          rw [place_eq h, Int.toNat_of_nonneg (by omega)] at hb
          have h3 : O.place v + (0 - Axis.place O.axes v) = O.hostPtr := by
            unfold place
            omega
          have h4 : O.place v - O.hostPtr + I.hostPtr + (0 - Axis.place O.axes v) = I.hostPtr := by
            unfold place
            omega
          rw [h3, h4] at hb
          exact hm hb
        · rintro ((hemp | ⟨-, h0⟩) | ⟨hfill, -⟩)
          · rw [he] at hemp
            cases hemp
          · exact hptr h0
          · simp only [rowsFill, beq_iff_eq] at hfill
            have := (Axis.covers_of_spanEnd (count_pos he) hfill 0).1 hcov
            rw [← h.memSize, hn] at this
            exact absurd this.2 (by decide)
  · have he : O.isEmpty = false := by
      rw [← Bool.not_eq_true]
      exact fun he => hn (h.memSize.trans (memSize_of_isEmpty he hLO))
    by_cases ha : I.apart O = true
    · rw [copied_block_iff h hIm hOm hn ha]
      have hcount := count_pos he
      constructor
      · intro hcov
        refine .inr ⟨?_, ha⟩
        simp only [rowsFill, beq_iff_eq]
        rw [← h.memSize]
        exact Axis.spanEnd_of_covers I.memSize.toNat_lt O.dataType.size_pos hcount hLO.packed hcov
      · rintro ((hemp | ⟨h0, -⟩) | ⟨hfill, -⟩)
        · rw [he] at hemp
          cases hemp
        · exact absurd h0 hn
        · simp only [rowsFill, beq_iff_eq] at hfill
          rw [h.memSize]
          exact Axis.covers_of_spanEnd hcount hfill
    · refine iff_of_false (fun hc => ?_) ?_
      · obtain ⟨r, hr, -⟩ := hc (fun _ => 0)
        rw [copy_eq h hIm hOm hn, if_neg ha] at hr
        cases hr
      · rintro ((hemp | ⟨h0, -⟩) | ⟨-, ha'⟩)
        · rw [he] at hemp
          cases hemp
        · exact hn h0
        · exact ha ha'

/-- The packed strides end where the bytes of the elements do, if 32 bits can tell. -/
theorem spanEnd_tensorStrides_iff {s : Int32} {e : Nat} (he : 0 < e) : ∀ {dims : List UInt32}, (∀ d ∈ dims, 0 < d.toNat) →
    s.toUInt32.toNat = e % 2 ^ 32 → ∀ n < 2 ^ 32,
      (Axis.spanEnd e (List.zipWith (fun d s => ⟨d.toNat, s.toInt⟩) dims (tensorStrides s dims)) = some n ↔
        tensorBytes e dims = n)
  | [], _, _, n, _ => by
    show some e = some n ↔ e = n
    rw [Option.some.injEq]
  | d :: ds, hpos, h, n, hn => by
    have hd := hpos d List.mem_cons_self
    have hds : ∀ d' ∈ ds, 0 < d'.toNat := fun d' hd' => hpos d' (List.mem_cons_of_mem d hd')
    have hnext := spanEnd_tensorStrides_iff (s := s * d.toInt32) (e := e * d.toNat) (Nat.mul_pos he hd) hds
      (toNat_mul_toInt32 h) n hn
    show Axis.spanEnd e (⟨d.toNat, s.toInt⟩ :: _) = some n ↔ tensorBytes (e * d.toNat) ds = n
    rw [← hnext, Axis.spanEnd_cons]
    dsimp only
    split
    · rename_i h1
      rw [show d.toNat = 1 by omega, Nat.mul_one]
    · rename_i h1
      have h2 : e * 2 ≤ e * d.toNat := Nat.mul_le_mul_left e (by omega)
      have hend : e + e * (d.toNat - 1) = e * d.toNat := by
        rw [Nat.mul_sub_one]
        omega
      constructor
      · intro hspan
        obtain ⟨hs, hspan⟩ := Option.ite_none_right_eq_some.1 hspan
        have hlt := Axis.le_of_spanEnd hspan
        have heq : s.toInt = e := (toInt_of_toNat h (by omega)).resolve_right (by omega)
        rwa [heq, Int.toNat_natCast, hend] at hspan
      · intro hspan
        have hlt := Axis.le_of_spanEnd hspan
        have heq : s.toInt = e := by
          rw [toInt_eq_ite h (by omega), if_pos (by omega)]
        rw [heq, if_pos ⟨by omega, Int.le_refl _⟩, Int.toNat_natCast, hend]
        exact hspan

/-- The rows of a tensor that is not of a region fill its memory where this has less than 2^32 bytes. -/
theorem rowsFill_iff {dims : List UInt64} {ty : TensorDataType} {f : Int8} (h : vxCreateTensor dims ty f = some t)
    (hne : t.isEmpty = false) : t.rowsFill = true ↔ tensorBytes t.elementSize t.dimensions < 2 ^ 32 := by
  have hmem := (laidOut_of_create h).memSize
  have hpos : ∀ d ∈ t.dimensions, 0 < d.toNat := by
    intro d hd
    have hd := List.any_eq_false.1 hne d hd
    simp only [beq_iff_eq] at hd
    exact Nat.pos_of_ne_zero (fun h0 => hd (UInt32.toNat_inj.1 h0))
  obtain rfl : t = ownInitTensorObject dims ty f := by
    unfold vxCreateTensor at h
    split at h
    · cases h
    · exact (Option.some.inj h).symm
  have hspan := spanEnd_tensorStrides_iff ty.size_pos hpos (size_toUInt32 ty) _ (ownInitTensorObject dims ty f).memSize.toNat_lt
  simp only [rowsFill, beq_iff_eq]
  rw [show Axis.spanEnd (ownInitTensorObject dims ty f).elementSize (ownInitTensorObject dims ty f).axes = some _ ↔ _ from hspan]
  show tensorBytes ty.ownSizeOfEnumType (ownInitTensorObject dims ty f).dimensions = _ ↔ tensorBytes ty.ownSizeOfEnumType _ < _
  rw [hmem]
  constructor
  · intro heq
    rw [show tensorBytes ty.ownSizeOfEnumType _ = _ from heq]
    exact Nat.mod_lt _ (by decide)
  · intro hlt
    exact (Nat.mod_eq_of_lt hlt).symm

/-- The tensor of 64x64 bytes, at two places. -/
theorem copied_plain : ∃ t, vxCreateTensor [64, 64] .uint8 0 = some t ∧
    ({ t with hostPtr := 0x1000 } : TensorDesc).Copied { t with hostPtr := 0x2000 } := by
  refine ⟨ownInitTensorObject [64, 64] .uint8 0, rfl, ?_⟩
  have hcreate : vxCreateTensor [64, 64] .uint8 0 = some (ownInitTensorObject [64, 64] .uint8 0) := rfl
  have ht : (ownInitTensorObject [64, 64] .uint8 0).Created := .vxCreateTensor hcreate
  exact (tensorCopied_iff (ht.memory 0x1000) (ht.memory 0x2000) (by decide) (by decide) (by decide)).2 (by decide)

/-- The tensor of the left half of an image of 640x480 bytes at `host`. -/
def leftHalf (host : Int) : TensorDesc := ⟨.uint8, 0, 1, 0, [320, 480], [1, 640], 153600, host⟩

/-- The first 240 rows of the image are copied whole, so that the right half changes and the rows below are not copied. -/
theorem halves_not_copied : (leftHalf 0x100000).Created ∧ (leftHalf 0x200000).Created ∧
    (leftHalf 0x100000).validateCopy (leftHalf 0x200000) = vxSuccess ∧ ¬ (leftHalf 0x100000).Copied (leftHalf 0x200000) := by
  have hroi : ((ownInitImage 640 480 .u8).ownAllocImageBuffer 0x100000).vxCreateTensorFromROI (some ⟨0, 0, 320, 480⟩) 0 =
      some (leftHalf 0x100000) := by decide
  have hroi' : ((ownInitImage 640 480 .u8).ownAllocImageBuffer 0x200000).vxCreateTensorFromROI (some ⟨0, 0, 320, 480⟩) 0 =
      some (leftHalf 0x200000) := by decide
  refine ⟨.vxCreateTensorFromROI hroi, .vxCreateTensorFromROI hroi', by decide, fun hc => ?_⟩
  have hc := (copied_block_iff (I := leftHalf 0x100000) (O := leftHalf 0x200000) ⟨rfl, rfl, rfl⟩ (by decide) (by decide)
    (by decide) (by decide)).1 hc
  -- the first byte of the right half
  obtain ⟨i, hi, h⟩ := Axis.covers_cons.1 ((hc 320).2 (by decide))
  obtain ⟨j, -, h⟩ := Axis.covers_cons.1 h
  have h := Axis.covers_nil.1 h
  have hi : i < 320 := hi
  have h : 0 ≤ 320 - (1 : Int) * i - 640 * j ∧ 320 - (1 : Int) * i - 640 * j < 1 := h
  omega

end TensorDesc

end Tiovx
