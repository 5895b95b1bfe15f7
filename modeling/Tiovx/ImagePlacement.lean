import Mathlib.Tactic.Common
import Tiovx.Lib.ByteRange
import Tiovx.RawImage
/-!
# ImagePlacement — the planes of an image in one buffer (`vx_image.c`, `vx_reference.c`)

All planes of an image are in one buffer.  Where a plane is in it is told by its host pointer, by its shared pointer and by an
offset of the dma-buf; three functions add up the sizes of the planes, and not all of them align them.
-/
namespace Tiovx

/-- `TIVX_IMG_ALIGN_BYTES`. -/
def imgAlignBytes : UInt32 := 64

/-- The regions `ownMemRegionTranslate` takes. -/
inductive MemHeapRegion
  | external | internalL3 | internalL2 | internalL1 | externalScratch | externalPersistentNonCacheable
  | externalScratchNonCacheable | externalCacheableWt | externalShared
deriving DecidableEq

/-- `tivx_shared_mem_ptr_t`. -/
structure SharedMemPtr where
  hostPtr : Nat := 0
  sharedPtr : Nat := 0
  memHeapRegion : MemHeapRegion := .externalShared
  dmaBufFd : Int := 0
  dmaBufFdOffset : UInt32 := 0
deriving DecidableEq

/-- What the memory of an image has of `vx_image` and `tivx_obj_desc_image_t`. -/
structure BufferImage where
  planes : Nat
  memSize : Nat → UInt32
  memPtr : Nat → SharedMemPtr := fun _ => {}
  isAllocated : Bool := false
  isSubimage : Bool := false

/-- The two translations of a host pointer: `tivxMemHost2SharedPtr` of the shared region, and `appMemGetDmaBufFd` with the offset
it gives. -/
structure MemPlatform where
  host2Shared : Nat → Nat
  getDmaBufFd : Nat → Int × UInt32

namespace MemPlatform

/-- `tivxMemBufferAlloc` in the shared region, with what `appMemAlloc` gives. -/
def tivxMemBufferAlloc (P : MemPlatform) (size : UInt32) (host : Nat) : Option SharedMemPtr :=
  if size = 0 ∨ host = 0 then none
  else some ⟨host, P.host2Shared host, .externalShared, (P.getDmaBufFd host).1, (P.getDmaBufFd host).2⟩

/-- A plane from the one before it. -/
def nextPlane (P : MemPlatform) (m : SharedMemPtr) (size : UInt32) : SharedMemPtr where
  hostPtr := m.hostPtr + size.toNat
  sharedPtr := P.host2Shared (m.hostPtr + size.toNat)
  memHeapRegion := m.memHeapRegion
  dmaBufFd := m.dmaBufFd
  dmaBufFdOffset := m.dmaBufFdOffset + tivxAlign size imgAlignBytes

/-- The planes from the first on. -/
def planePtr (P : MemPlatform) (memSize : Nat → UInt32) (first : SharedMemPtr) : Nat → SharedMemPtr
  | 0 => first
  | p + 1 => P.nextPlane (P.planePtr memSize first p) (memSize p)

end MemPlatform

namespace BufferImage

/-- The sizes of the planes that `ownImageGetBufferSize` aligns. -/
def alignedSize (memSize : Nat → UInt32) : Nat → UInt32
  | 0 => 0
  | p + 1 => alignedSize memSize p + tivxAlign (memSize p) imgAlignBytes

/-- `ownImageGetBufferSize`. -/
def ownImageGetBufferSize (I : BufferImage) : UInt32 := alignedSize I.memSize (I.planes - 1) + I.memSize (I.planes - 1)

/-- `ownAllocImageBuffer` of an image that is not created from another, and whether it succeeds. -/
def ownAllocImageBuffer (P : MemPlatform) (I : BufferImage) (host : Nat) : BufferImage × Bool :=
  if (I.memPtr 0).hostPtr = 0 then
    match P.tivxMemBufferAlloc I.ownImageGetBufferSize host with
    | none => (I, false)
    | some m =>
      -- `tivxMemBufferMap` refuses a plane of no size
      ({ I with memPtr := fun p => if p < I.planes then P.planePtr I.memSize m p else I.memPtr p, isAllocated := true },
        (List.range I.planes).all (fun p => I.memSize p != 0))
  else (I, true)

/-- `total_size`. -/
def totalSize (memSize : Nat → UInt32) : Nat → UInt32
  | 0 => 0
  | p + 1 => totalSize memSize p + memSize p

/-- `tivxReferenceExportHandle`. -/
def tivxReferenceExportHandle (I : BufferImage) : Option (Nat × UInt32) :=
  if I.isSubimage then none else some ((I.memPtr 0).hostPtr, totalSize I.memSize I.planes)

/-- A plane after the first, from the one before it: the pointers are set, the dma-buf is not. -/
def importPlane (P : MemPlatform) (I : BufferImage) (addr : Nat) : Nat → SharedMemPtr
  | 0 => { I.memPtr 0 with hostPtr := addr, sharedPtr := if addr = 0 then 0 else P.host2Shared addr,
                           memHeapRegion := .externalShared }
  | p + 1 =>
    if addr = 0 then { I.memPtr (p + 1) with hostPtr := 0, sharedPtr := 0 }
    else
      let host := (importPlane P I addr p).hostPtr + (I.memSize p).toNat
      { I.memPtr (p + 1) with hostPtr := host, sharedPtr := P.host2Shared host }

/-- `tivxReferenceImportHandle` of one handle. -/
def tivxReferenceImportHandle (P : MemPlatform) (I : BufferImage) (addr : Nat) (size : UInt32) : Option BufferImage :=
  if I.isSubimage then none
  else if addr ≠ 0 ∧ (P.host2Shared addr = 0 ∨ totalSize I.memSize I.planes ≠ size) then none
  else some { I with memPtr := fun p => if p < I.planes then I.importPlane P addr p else I.memPtr p, isAllocated := addr ≠ 0 }

/-- The memory of a plane. -/
def planeRange (I : BufferImage) (p : Nat) : ByteRange := ⟨(I.memPtr p).hostPtr, (I.memSize p).toNat⟩

/-- The buffer. -/
def buffer (I : BufferImage) : ByteRange := ⟨(I.memPtr 0).hostPtr, I.ownImageGetBufferSize.toNat⟩

/-- The pointers of a plane tell one byte of the buffer, the planes are apart, and inside it. -/
structure Placed (P : MemPlatform) (I : BufferImage) : Prop where
  byte : ∀ p < I.planes, ∃ k, (I.memPtr p).hostPtr = (I.memPtr 0).hostPtr + k ∧
    (I.memPtr p).sharedPtr = P.host2Shared ((I.memPtr 0).hostPtr + k) ∧
    (I.memPtr p).dmaBufFdOffset.toNat = (I.memPtr 0).dmaBufFdOffset.toNat + k
  apart : ∀ p < I.planes, ∀ q < I.planes, p ≠ q → (I.planeRange p).Apart (I.planeRange q)
  inside : ∀ p < I.planes, (I.planeRange p).Inside I.buffer

/-- The handle of `I`, imported into `J`, gives the planes the same places, and what is freed has the same size. -/
def ImportsAs (P : MemPlatform) (I J : BufferImage) : Prop :=
  ∃ addr size J', I.tivxReferenceExportHandle = some (addr, size) ∧ J.tivxReferenceImportHandle P addr size = some J' ∧
    (∀ p < I.planes, (J'.memPtr p).hostPtr = (I.memPtr p).hostPtr ∧ (J'.memPtr p).sharedPtr = (I.memPtr p).sharedPtr ∧
      (J'.memPtr p).dmaBufFdOffset = (I.memPtr p).dmaBufFdOffset) ∧
    J'.ownImageGetBufferSize = I.ownImageGetBufferSize

/-- The bytes before a plane where planes follow each other. -/
def bytesBefore (memSize : Nat → UInt32) : Nat → Nat
  | 0 => 0
  | p + 1 => bytesBefore memSize p + (memSize p).toNat

/-- The planes but the last are whole multiples of the alignment, and their sizes and offsets have 32 bits. -/
def placementFits (I : BufferImage) (offset : UInt32) : Prop :=
  (∀ p < I.planes - 1, (I.memSize p).toNat % 64 = 0) ∧ bytesBefore I.memSize I.planes < 2 ^ 32 ∧
    offset.toNat + bytesBefore I.memSize (I.planes - 1) < 2 ^ 32

/-- The dma-buf offsets are those of planes that follow each other. -/
def dmaFits (I : BufferImage) (offset : UInt32) : Prop :=
  ∀ p < I.planes, (I.memPtr p).dmaBufFdOffset.toNat = offset.toNat + bytesBefore I.memSize p

end BufferImage

/-! ### Sums of sizes -/

theorem imgAlign_toNat (v : UInt32) : (tivxAlign v imgAlignBytes).toNat = (v.toNat + 63) % 2 ^ 32 / 64 * 64 := by
  simp only [tivxAlign, imgAlignBytes, UInt32.toNat_mul, UInt32.toNat_div, UInt32.toNat_add, UInt32.reduceToNat,
    UInt32.reduceSub]
  omega

/-- A size is its alignment, or more than that where the alignment wraps, exactly where it is a multiple. -/
theorem imgAlign_eq_iff {v : UInt32} : (tivxAlign v imgAlignBytes).toNat = v.toNat ↔ v.toNat % 64 = 0 := by
  have := v.toNat_lt
  rw [imgAlign_toNat]
  omega

namespace BufferImage

variable {P : MemPlatform} {memSize : Nat → UInt32}

theorem bytesBefore_le (memSize : Nat → UInt32) {p q : Nat} (h : p ≤ q) : bytesBefore memSize p ≤ bytesBefore memSize q := by
  induction h with
  | refl => exact Nat.le_refl _
  | step _ ih => exact Nat.le_trans ih (Nat.le_add_right _ _)

/-- A plane ends before the next begins. -/
theorem bytesBefore_add_le (memSize : Nat → UInt32) {p q : Nat} (h : p < q) :
    bytesBefore memSize p + (memSize p).toNat ≤ bytesBefore memSize q :=
  bytesBefore_le memSize (show p + 1 ≤ q from h)

theorem bytesBefore_pred (memSize : Nat → UInt32) {n : Nat} (h : 0 < n) :
    bytesBefore memSize n = bytesBefore memSize (n - 1) + (memSize (n - 1)).toNat := by
  obtain ⟨k, rfl⟩ : ∃ k, n = k + 1 := ⟨n - 1, by omega⟩
  rfl

/-- The aligned sizes of planes that are multiples are their sizes. -/
theorem alignedSize_toNat {n : Nat} (h : ∀ p < n, (memSize p).toNat % 64 = 0) (hlt : bytesBefore memSize n < 2 ^ 32) :
    (alignedSize memSize n).toNat = bytesBefore memSize n := by
  induction n with
  | zero => rfl
  | succ n ih =>
    have h1 : bytesBefore memSize n < 2 ^ 32 := Nat.lt_of_le_of_lt (Nat.le_add_right _ _) hlt
    have h2 := imgAlign_eq_iff.2 (h n (Nat.lt_succ_self n))
    simp only [alignedSize, bytesBefore, UInt32.toNat_add, ih (fun p hp => h p (Nat.lt_succ_of_lt hp)) h1, h2]
    exact Nat.mod_eq_of_lt hlt

section PlanePtr

variable {first : SharedMemPtr}

theorem planePtr_host (p : Nat) : (P.planePtr memSize first p).hostPtr = first.hostPtr + bytesBefore memSize p := by
  induction p with
  | zero => rfl
  | succ p ih =>
    simp only [MemPlatform.planePtr, MemPlatform.nextPlane, ih, bytesBefore]
    omega

theorem planePtr_shared (h : first.sharedPtr = P.host2Shared first.hostPtr) (p : Nat) :
    (P.planePtr memSize first p).sharedPtr = P.host2Shared (first.hostPtr + bytesBefore memSize p) := by
  cases p with
  | zero => exact h
  | succ p =>
    simp only [MemPlatform.planePtr, MemPlatform.nextPlane, planePtr_host, bytesBefore]
    rw [Nat.add_assoc]

/-- The offsets are those of the sizes where these are multiples of the alignment. -/
theorem planePtr_offset {n : Nat} (h : ∀ p < n, (memSize p).toNat % 64 = 0)
    (hlt : first.dmaBufFdOffset.toNat + bytesBefore memSize n < 2 ^ 32) :
    (P.planePtr memSize first n).dmaBufFdOffset.toNat = first.dmaBufFdOffset.toNat + bytesBefore memSize n := by
  induction n with
  | zero => rfl
  | succ n ih =>
    simp only [bytesBefore] at hlt
    have h1 := ih (fun p hp => h p (Nat.lt_succ_of_lt hp)) (by omega)
    have h2 := imgAlign_eq_iff.2 (h n (Nat.lt_succ_self n))
    simp only [MemPlatform.planePtr, MemPlatform.nextPlane, bytesBefore, UInt32.toNat_add, h1, h2]
    rw [Nat.mod_eq_of_lt (by omega), Nat.add_assoc]

/-- Where the offsets are those of the sizes, each plane but the last is a multiple of the alignment. -/
theorem multiple_of_offset {p : Nat}
    (h : (P.planePtr memSize first p).dmaBufFdOffset.toNat = first.dmaBufFdOffset.toNat + bytesBefore memSize p)
    (hs : (P.planePtr memSize first (p + 1)).dmaBufFdOffset.toNat = first.dmaBufFdOffset.toNat + bytesBefore memSize (p + 1)) :
    (memSize p).toNat % 64 = 0 := by
  refine imgAlign_eq_iff.1 ?_
  simp only [MemPlatform.planePtr, MemPlatform.nextPlane, bytesBefore, UInt32.toNat_add, h] at hs
  have h1 := (tivxAlign (memSize p) imgAlignBytes).toNat_lt
  have h2 := (memSize p).toNat_lt
  have h3 := Nat.mod_add_div (first.dmaBufFdOffset.toNat + bytesBefore memSize p + (tivxAlign (memSize p) imgAlignBytes).toNat)
    (2 ^ 32)
  have h4 := (P.planePtr memSize first p).dmaBufFdOffset.toNat_lt
  omega

end PlanePtr

theorem totalSize_congr {f g : Nat → UInt32} {n : Nat} (h : ∀ p < n, f p = g p) : totalSize f n = totalSize g n := by
  induction n with
  | zero => rfl
  | succ n ih =>
    simp only [totalSize, ih (fun p hp => h p (Nat.lt_succ_of_lt hp)), h n (Nat.lt_succ_self n)]

theorem alignedSize_congr {f g : Nat → UInt32} {n : Nat} (h : ∀ p < n, f p = g p) : alignedSize f n = alignedSize g n := by
  induction n with
  | zero => rfl
  | succ n ih =>
    simp only [alignedSize, ih (fun p hp => h p (Nat.lt_succ_of_lt hp)), h n (Nat.lt_succ_self n)]

theorem bytesBefore_congr {f g : Nat → UInt32} {n : Nat} (h : ∀ p < n, f p = g p) : bytesBefore f n = bytesBefore g n := by
  induction n with
  | zero => rfl
  | succ n ih =>
    simp only [bytesBefore, ih (fun p hp => h p (Nat.lt_succ_of_lt hp)), h n (Nat.lt_succ_self n)]

/-! ### An image that is allocated -/

/-- `A` is `I` with a buffer at `host`. -/
structure AllocatedAs (P : MemPlatform) (I A : BufferImage) (host : Nat) : Prop where
  planes : A.planes = I.planes
  memSize : A.memSize = I.memSize
  isSubimage : A.isSubimage = I.isSubimage
  host_ne : host ≠ 0
  memPtr : ∀ p < I.planes, A.memPtr p =
    P.planePtr I.memSize ⟨host, P.host2Shared host, .externalShared, (P.getDmaBufFd host).1, (P.getDmaBufFd host).2⟩ p

theorem allocatedAs {I A : BufferImage} {host : Nat} (hI : (I.memPtr 0).hostPtr = 0)
    (h : I.ownAllocImageBuffer P host = (A, true)) : AllocatedAs P I A host := by
  simp only [ownAllocImageBuffer, hI, if_true, MemPlatform.tivxMemBufferAlloc] at h
  split at h
  · cases h
  · rename_i m hm
    split at hm
    · cases hm
    · rename_i hne
      cases hm
      obtain ⟨rfl, -⟩ := Prod.mk.inj h
      exact ⟨rfl, rfl, rfl, fun h0 => hne (.inr h0), fun p hp => if_pos hp⟩

section Allocated

variable {I A J : BufferImage} {host : Nat}

theorem AllocatedAs.hostPtr (h : AllocatedAs P I A host) {p : Nat} (hp : p < I.planes) :
    (A.memPtr p).hostPtr = host + bytesBefore I.memSize p := by
  rw [h.memPtr p hp, planePtr_host]

theorem AllocatedAs.sharedPtr (h : AllocatedAs P I A host) {p : Nat} (hp : p < I.planes) :
    (A.memPtr p).sharedPtr = P.host2Shared (host + bytesBefore I.memSize p) := by
  rw [h.memPtr p hp, planePtr_shared rfl]

theorem AllocatedAs.bufferSize (h : AllocatedAs P I A host) : A.ownImageGetBufferSize = I.ownImageGetBufferSize := by
  simp only [ownImageGetBufferSize, h.planes, h.memSize]

/-- Planes that fit are placed. -/
theorem placed_of_fits (h : AllocatedAs P I A host) (hp : 0 < I.planes) (hf : I.placementFits (P.getDmaBufFd host).2) :
    A.Placed P := by
  obtain ⟨hm, hsum, hoff⟩ := hf
  have h0 : (A.memPtr 0).hostPtr = host := h.hostPtr hp
  have hsize : A.ownImageGetBufferSize.toNat = bytesBefore I.memSize I.planes := by
    have hpred := bytesBefore_pred I.memSize hp
    rw [h.bufferSize, ownImageGetBufferSize, UInt32.toNat_add, alignedSize_toNat hm (by omega), Nat.mod_eq_of_lt (by omega), hpred]
  refine ⟨fun p hpl => ?_, fun p hpl q hql hne => ?_, fun p hpl => ?_⟩
  · rw [h.planes] at hpl
    refine ⟨bytesBefore I.memSize p, by rw [h0, h.hostPtr hpl], by rw [h0, h.sharedPtr hpl], ?_⟩
    have hle := bytesBefore_le I.memSize (show p ≤ I.planes - 1 by omega)
    rw [h.memPtr p hpl, h.memPtr 0 hp]
    exact planePtr_offset (fun q hq => hm q (by omega)) (by simp only []; omega)
  · rw [h.planes] at hpl hql
    simp only [ByteRange.Apart, ByteRange.stop, planeRange, h.hostPtr hpl, h.hostPtr hql, h.memSize]
    rcases Nat.lt_or_gt_of_ne hne with hlt | hlt
    · have := bytesBefore_add_le I.memSize hlt
      exact .inl (by omega)
    · have := bytesBefore_add_le I.memSize hlt
      exact .inr (by omega)
  · rw [h.planes] at hpl
    have := bytesBefore_add_le I.memSize hpl
    simp only [ByteRange.Inside, ByteRange.stop, planeRange, buffer, h.hostPtr hpl, h0, h.memSize, hsize]
    omega

/-- Planes that are placed fit. -/
theorem fits_of_placed (h : AllocatedAs P I A host) (hp : 0 < I.planes) (hA : A.Placed P) :
    I.placementFits (P.getDmaBufFd host).2 := by
  have h0 : (A.memPtr 0).hostPtr = host := h.hostPtr hp
  have hoff : ∀ p < I.planes, (P.planePtr I.memSize ⟨host, P.host2Shared host, .externalShared, (P.getDmaBufFd host).1,
      (P.getDmaBufFd host).2⟩ p).dmaBufFdOffset.toNat = (P.getDmaBufFd host).2.toNat + bytesBefore I.memSize p := by
    intro p hpl
    obtain ⟨k, hk, -, hd⟩ := hA.byte p (by rwa [h.planes])
    rw [h0, h.hostPtr hpl] at hk
    rw [h.memPtr p hpl, h.memPtr 0 hp] at hd
    obtain rfl : bytesBefore I.memSize p = k := by omega
    exact hd
  have hm : ∀ p < I.planes - 1, (I.memSize p).toNat % 64 = 0 := fun p hpl =>
    multiple_of_offset (hoff p (by omega)) (hoff (p + 1) (by omega))
  refine ⟨hm, ?_, ?_⟩
  · -- the last plane is inside a buffer whose size has 32 bits
    have hin := (hA.inside (I.planes - 1) (by rw [h.planes]; omega)).2
    simp only [ByteRange.stop, planeRange, buffer, h.hostPtr (show I.planes - 1 < I.planes by omega), h0, h.memSize] at hin
    have hpred := bytesBefore_pred I.memSize hp
    have := A.ownImageGetBufferSize.toNat_lt
    omega
  · have := hoff (I.planes - 1) (by omega)
    have hlt := (P.planePtr I.memSize ⟨host, P.host2Shared host, .externalShared, (P.getDmaBufFd host).1,
      (P.getDmaBufFd host).2⟩ (I.planes - 1)).dmaBufFdOffset.toNat_lt
    omega

theorem importPlane_host (hne : host ≠ 0) (p : Nat) :
    (J.importPlane P host p).hostPtr = host + bytesBefore J.memSize p := by
  induction p with
  | zero => rfl
  | succ p ih =>
    simp only [importPlane, hne, if_false, ih, bytesBefore]
    omega

theorem importPlane_shared (hne : host ≠ 0) (p : Nat) :
    (J.importPlane P host p).sharedPtr = P.host2Shared (host + bytesBefore J.memSize p) := by
  cases p with
  | zero => simp only [importPlane, hne, if_false, bytesBefore, Nat.add_zero]
  | succ p =>
    simp only [importPlane, hne, if_false, importPlane_host hne, bytesBefore]
    rw [Nat.add_assoc]

theorem importPlane_offset (p : Nat) : (J.importPlane P host p).dmaBufFdOffset = (J.memPtr p).dmaBufFdOffset := by
  cases p with
  | zero => rfl
  | succ p =>
    simp only [importPlane]
    split <;> rfl

/-- The import into an image of the same planes succeeds, and gives them the places of the exporter but for the dma-buf. -/
theorem importsAs_iff (h : AllocatedAs P I A host) (hp : 0 < I.planes) (hI : I.isSubimage = false) (hJ : J.isSubimage = false)
    (hs : P.host2Shared host ≠ 0) (hpl : J.planes = I.planes) (hm : ∀ p < I.planes, J.memSize p = I.memSize p) :
    A.ImportsAs P J ↔ ∀ p < I.planes, (A.memPtr p).dmaBufFdOffset = (J.memPtr p).dmaBufFdOffset := by
  have hexp : A.tivxReferenceExportHandle = some (host, totalSize I.memSize I.planes) := by
    simp only [tivxReferenceExportHandle, h.isSubimage, hI, h.planes, h.memSize, h.hostPtr hp]
    rfl
  have hsize : totalSize J.memSize J.planes = totalSize I.memSize I.planes := by rw [hpl, totalSize_congr hm]
  have himp : J.tivxReferenceImportHandle P host (totalSize I.memSize I.planes) =
      some { J with memPtr := fun p => if p < J.planes then J.importPlane P host p else J.memPtr p, isAllocated := host ≠ 0 } := by
    simp only [tivxReferenceImportHandle, hJ, Bool.false_eq_true, if_false, hs, hsize, ne_eq, not_true, or_self, and_false]
  have hfreed : J.ownImageGetBufferSize = A.ownImageGetBufferSize := by
    rw [h.bufferSize, ownImageGetBufferSize, ownImageGetBufferSize, hpl, hm _ (by omega),
      alignedSize_congr (fun p hlt => hm p (by omega))]
  constructor
  · rintro ⟨addr, size, J', he, hi, hall, -⟩ p hlt
    rw [hexp] at he
    obtain ⟨rfl, rfl⟩ := Prod.mk.inj (Option.some.inj he)
    rw [himp] at hi
    cases hi
    have := (hall p (by rwa [h.planes])).2.2
    simp only [hpl, hlt, if_true, importPlane_offset] at this
    exact this.symm
  · intro hd
    refine ⟨_, _, _, hexp, himp, fun p hlt => ?_, hfreed⟩
    rw [h.planes] at hlt
    have hb : bytesBefore J.memSize p = bytesBefore I.memSize p := bytesBefore_congr (fun q hq => hm q (by omega))
    simp only [hpl, hlt, if_true, importPlane_offset, importPlane_host h.host_ne, importPlane_shared h.host_ne, h.hostPtr hlt,
      h.sharedPtr hlt, hb]
    exact ⟨trivial, trivial, (hd p hlt).symm⟩

end Allocated

/-- **The planes of an image are placed, and placed again by an import, exactly when** the planes but the last are multiples of
the alignment, all sizes and offsets have 32 bits, and the image imported into has the dma-buf offsets already. -/
theorem placed_iff (P : MemPlatform) (I A J : BufferImage) (host : Nat) (hp : 0 < I.planes) (hI : I.isSubimage = false)
    (h0 : (I.memPtr 0).hostPtr = 0) (ha : I.ownAllocImageBuffer P host = (A, true)) (hs : P.host2Shared host ≠ 0)
    (hJ : J.isSubimage = false) (hpl : J.planes = I.planes) (hm : ∀ p < I.planes, J.memSize p = I.memSize p) :
    A.Placed P ∧ A.ImportsAs P J ↔
      I.placementFits (P.getDmaBufFd host).2 ∧ J.dmaFits (P.getDmaBufFd host).2 := by
  have h := allocatedAs h0 ha
  have hoff : ∀ p < I.planes, I.placementFits (P.getDmaBufFd host).2 →
      (A.memPtr p).dmaBufFdOffset.toNat = (P.getDmaBufFd host).2.toNat + bytesBefore J.memSize p := by
    rintro p hlt ⟨hmul, -, hof⟩
    have hle := bytesBefore_le I.memSize (show p ≤ I.planes - 1 by omega)
    rw [h.memPtr p hlt, bytesBefore_congr (fun q hq => hm q (by omega))]
    exact planePtr_offset (fun q hq => hmul q (by omega)) (by simp only []; omega)
  rw [importsAs_iff h hp hI hJ hs hpl hm]
  constructor
  · rintro ⟨hA, hd⟩
    have hf := fits_of_placed h hp hA
    refine ⟨hf, fun p hlt => ?_⟩
    rw [hpl] at hlt
    rw [← hd p hlt, hoff p hlt hf]
  · rintro ⟨hf, hd⟩
    refine ⟨placed_of_fits h hp hf, fun p hlt => UInt32.toNat_inj.1 ?_⟩
    rw [hoff p hlt hf, hd p (by rwa [hpl])]

/-- An image of two planes of these sizes. -/
def twoPlanes (size0 size1 : UInt32) : BufferImage := { planes := 2, memSize := fun p => if p = 0 then size0 else size1 }

/-- Host pointers are shared ones, and each buffer has a dma-buf of its own. -/
def plainPlatform : MemPlatform := ⟨fun h => h, fun h => (h, 0)⟩

/-- A 640x480 image with half as many bytes in its second plane, imported into one that has been allocated. -/
theorem placed_of_multiples :
    let A := ((twoPlanes 307200 153600).ownAllocImageBuffer plainPlatform 0x10000).1
    let J := ((twoPlanes 307200 153600).ownAllocImageBuffer plainPlatform 0x90000).1
    A.Placed plainPlatform ∧ A.ImportsAs plainPlatform J := by
  intro A J
  have hd : ∀ p < 2, (J.memPtr p).dmaBufFdOffset.toNat = 0 + bytesBefore J.memSize p := by decide +kernel
  exact (placed_iff plainPlatform (twoPlanes 307200 153600) A J 0x10000 (by decide) rfl rfl rfl (by decide) rfl rfl
    (fun p _ => rfl)).2 ⟨⟨by decide, by decide, by decide⟩, hd⟩

/-- A first plane of 32 bytes ends where the host pointer of the second is, but the dma-buf offset of that is 64; and where the
sizes are multiples the second plane of an image imported into has no offset. -/
theorem planes_misplaced :
    (let A := ((twoPlanes 32 16).ownAllocImageBuffer plainPlatform 0x10000).1;
      (A.memPtr 1).hostPtr = 0x10000 + 32 ∧ (A.memPtr 1).dmaBufFdOffset = 64 ∧ ¬ A.Placed plainPlatform) ∧
    (let A := ((twoPlanes 64 32).ownAllocImageBuffer plainPlatform 0x10000).1;
      (twoPlanes 64 32).tivxReferenceImportHandle plainPlatform 0x10000 96 ≠ none ∧ (A.memPtr 1).dmaBufFdOffset = 64 ∧
      ¬ A.ImportsAs plainPlatform (twoPlanes 64 32)) := by
  have hall : ∀ I : BufferImage, (I.memPtr 0).hostPtr = 0 → (I.ownAllocImageBuffer plainPlatform 0x10000).2 = true →
      AllocatedAs plainPlatform I (I.ownAllocImageBuffer plainPlatform 0x10000).1 0x10000 :=
    fun I h0 h => allocatedAs h0 (Prod.ext rfl h)
  refine ⟨⟨rfl, rfl, fun h => ?_⟩, fun h => (by cases h), rfl, fun h => ?_⟩
  · exact absurd ((fits_of_placed (hall (twoPlanes 32 16) rfl rfl) (by decide) h).1 0 (by decide)) (by decide)
  · have := (importsAs_iff (hall (twoPlanes 64 32) rfl rfl) (by decide) rfl rfl (by decide) rfl (fun p _ => rfl)).1 h 1
      (by decide)
    exact absurd this (by decide)

end BufferImage

end Tiovx
