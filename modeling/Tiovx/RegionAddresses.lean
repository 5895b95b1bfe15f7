import Mathlib.Tactic.Common
import Tiovx.ImageLayout
/-!
# RegionAddresses — the pixels of a region (`vx_image.c`)

An image or a tensor of a region is in the memory of the image it is created from, from the pixel at its start on.  Whether the
pixels after that are those of the parent depends on where the divisions of the address map stand.
-/
namespace Tiovx

/-- An image, with the `dma_buf_fd_offset` of its planes. -/
structure DmaImage where
  desc : ImageDesc
  dmaBufFdOffset : Nat → UInt32

/-- The data types `ownGetTensorTypeFromImage` gives. -/
inductive TensorType
  | uint8 | uint16 | int16 | uint32 | int32
deriving DecidableEq

/-- `ownSizeOfEnumType`. -/
def TensorType.ownSizeOfEnumType : TensorType → Int32
  | .uint8 => 1
  | .uint16 | .int16 => 2
  | .uint32 | .int32 => 4

/-- `ownGetTensorTypeFromImage`. -/
def ownGetTensorTypeFromImage : DfImage → Option TensorType
  | .u8 => some .uint8
  | .u16 => some .uint16
  | .s16 => some .int16
  | .u32 => some .uint32
  | .s32 => some .int32
  | .rgb | .rgbx | .rgba | .bgrx => some .uint32
  | .uyvy | .yuyv | .rgb565 | .p12 => some .uint16
  | .virt | .nv12 | .nv21 | .iyuv | .yuv4 | .nv12P12 => none

/-- A tensor of a region; the strides are those of `tivx_obj_desc_tensor_t`. -/
structure RoiTensor where
  dataType : TensorType
  dimX : UInt32
  dimY : UInt32
  stride0 : Int32
  stride1 : Int32
  hostPtr : Int
  dmaBufFdOffset : UInt32

/-- `ownComputePatchOffset` of a tensor of two dimensions. -/
def RoiTensor.ownComputePatchOffset (t : RoiTensor) (x y : UInt32) : UInt32 := t.stride0.toUInt32 * x + t.stride1.toUInt32 * y

namespace DmaImage

/-- `vxCreateImageFromROI`: the region has the dma-buf of its parent, with the same offset. -/
def vxCreateImageFromROI (I : DmaImage) (rect : VxRectangle) : Option DmaImage :=
  (Tiovx.vxCreateImageFromROI I.desc rect).map (fun d => ⟨d, I.dmaBufFdOffset⟩)

/-- `vxCreateTensorFromROI` of an image that is allocated and has room for another tensor.  A new descriptor is all zero, and the
dma-buf is not set. -/
def vxCreateTensorFromROI (I : DmaImage) (rect : Option VxRectangle) : Option RoiTensor :=
  if I.desc.width = 0 ∨ I.desc.height = 0 then none
  else (ownGetTensorTypeFromImage I.desc.format).bind (fun dataType =>
    let roi := rect.getD ⟨0, 0, I.desc.width, I.desc.height⟩
    if roi.endX < roi.startX ∨ roi.endY < roi.startY ∨ I.desc.width < roi.endX ∨ I.desc.height < roi.endY then none
    else
      let stride0 := dataType.ownSizeOfEnumType
      let stride1 := (I.desc.plane 0).addr.strideY
      some {
        dataType := dataType
        dimX := roi.width
        dimY := roi.height
        stride0 := stride0
        stride1 := stride1
        hostPtr := (I.desc.plane 0).hostPtr + (roi.startX.toNat * stride0.toInt + roi.startY.toNat * stride1.toInt)
        dmaBufFdOffset := 0 })

end DmaImage

/-- The address of the pixel at (x, y) of a plane. -/
def ImagePlane.pixelAddress (q : ImagePlane) (x y : UInt32) : Nat := q.hostPtr + (q.addr.ownComputePatchOffset x y).toNat

/-- Each pixel of a region is the pixel of the parent that is as far from the start of the region. -/
def PixelsShifted (e d : DmaImage) (rect : VxRectangle) : Prop :=
  ∀ p < d.desc.planes, ∀ x y : UInt32, x < rect.width → y < rect.height →
    (e.desc.plane p).pixelAddress x y = (d.desc.plane p).pixelAddress (x + rect.startX) (y + rect.startY) ∧
      (e.desc.plane p).addr.strideX = (d.desc.plane p).addr.strideX

/-- The dma-buf offset of a region that is not empty tells the byte of its host pointer. -/
def DmaShifted (e d : DmaImage) (rect : VxRectangle) : Prop :=
  0 < rect.width → 0 < rect.height → ∀ p < d.desc.planes,
    (e.dmaBufFdOffset p).toNat + (d.desc.plane p).hostPtr = (d.dmaBufFdOffset p).toNat + (e.desc.plane p).hostPtr

/-- The bits of a sample group that has an address. -/
def sampleBits (format : DfImage) : Int := if format.packed then 12 else 8 * elementBytes format 0

/-- Each element of a tensor is the pixel that is as far from the start of the region, and has its size. -/
def ElementsShifted (t : RoiTensor) (d : DmaImage) (roi : VxRectangle) : Prop :=
  8 * t.stride0.toInt = sampleBits d.desc.format ∧ ∀ x y : UInt32, x < roi.width → y < roi.height →
    t.hostPtr + (t.ownComputePatchOffset x y).toNat = (d.desc.plane 0).pixelAddress (x + roi.startX) (y + roi.startY)

/-- The dma-buf offset of a tensor that is not empty tells the byte of its host pointer. -/
def TensorDmaShifted (t : RoiTensor) (d : DmaImage) (roi : VxRectangle) : Prop :=
  0 < roi.width → 0 < roi.height →
    (t.dmaBufFdOffset.toNat : Int) + (d.desc.plane 0).hostPtr = (d.dmaBufFdOffset 0).toNat + t.hostPtr

/-- A region starts at a multiple of the step, and of a packed format at an even number of steps, in each direction in which it has
more than one pixel; two packed pixels of half resolution are one step. -/
def roiAligned (d : ImageDesc) (rect : VxRectangle) : Prop :=
  0 < rect.width → 0 < rect.height → ∀ p < d.planes,
    let step := (planeInit d.format p).2.1.toNat
    (rect.height ≤ 1 ∨ rect.startY.toNat % step = 0) ∧
      (rect.width ≤ 1 ∨ rect.startX.toNat % step = 0 ∧
        (d.format.packed = true → rect.width.toNat ≤ step ∨ rect.startX.toNat % (2 * step) = 0))

/-- A region is empty, or starts at the first pixel. -/
def atStart (rect : VxRectangle) : Prop := rect.width = 0 ∨ rect.height = 0 ∨ rect.startX = 0 ∧ rect.startY = 0

/-- The format has as many bits in an address as its tensor, and pixels that are as far apart as the elements of the tensor, or
there is one column of them, the first. -/
def tensorFits (d : ImageDesc) (roi : VxRectangle) : Prop :=
  d.format ≠ .rgb ∧ d.format ≠ .p12 ∧
    (roi.width = 0 ∨ roi.height = 0 ∨ (d.plane 0).addr.strideX.toUInt32.toNat = elementBytes d.format 0 ∨
      roi.startX = 0 ∧ roi.width ≤ 1)

/-! ### Where the offsets of an address map add up -/

/-- The steps before a pixel are those before the start and those from there on. -/
theorem div_add_iff {step start w : Nat} (hs : step = 1 ∨ step = 2) :
    (∀ x < w, (x + start) / step = x / step + start / step) ↔ w ≤ 1 ∨ start % step = 0 := by
  rcases hs with rfl | rfl
  · exact ⟨fun _ => .inr (Nat.mod_one _), fun _ x _ => by simp only [Nat.div_one]⟩
  · refine ⟨fun h => ?_, fun h x hx => by omega⟩
    by_cases hw : w ≤ 1
    · exact .inl hw
    · have := h 1 (by omega)
      exact .inr (by omega)

/-- The bytes before a packed pixel are those before the start and those from there on. -/
theorem packed_add_iff {step start w : Nat} (hs : step = 1 ∨ step = 2) :
    (∀ x < w, 12 * ((x + start) / step) / 8 = 12 * (x / step) / 8 + 12 * (start / step) / 8) ↔
      w ≤ 1 ∨ start % step = 0 ∧ (w ≤ step ∨ start % (2 * step) = 0) := by
  rcases hs with rfl | rfl
  · refine ⟨fun h => ?_, fun h x hx => by omega⟩
    by_cases hw : w ≤ 1
    · exact .inl hw
    · have := h 1 (by omega)
      exact .inr ⟨by omega, .inr (by omega)⟩
  · refine ⟨fun h => ?_, fun h x hx => by omega⟩
    by_cases hw : w ≤ 1
    · exact .inl hw
    · have h1 := h 1 (by omega)
      refine .inr ⟨by omega, ?_⟩
      by_cases hw2 : w ≤ 2
      · exact .inl hw2
      · have h2 := h 2 (by omega)
        exact .inr (by omega)

theorem forall_lt_uint32 {w : UInt32} {C : Nat → Prop} : (∀ x : UInt32, x < w → C x.toNat) ↔ ∀ x < w.toNat, C x := by
  refine ⟨fun h x hx => ?_, fun h x hx => h _ (UInt32.lt_iff_toNat_lt.1 hx)⟩
  have hlt : x < 2 ^ 32 := Nat.lt_trans hx w.toNat_lt
  have := h (UInt32.ofNat x) (by rwa [UInt32.lt_iff_toNat_lt, UInt32.toNat_ofNat_of_lt' hlt])
  rwa [UInt32.toNat_ofNat_of_lt' hlt] at this

namespace ImagepatchAddressing

variable {addr : ImagepatchAddressing} {startX startY w h : Nat}

theorem strideX_pos (h : addr.strideX ≠ 0) : 0 < addr.strideX.toUInt32.toNat := by
  refine Nat.pos_of_ne_zero (fun hz => h ?_)
  rw [← Int32.toInt32_toUInt32 addr.strideX, UInt32.toNat_inj.1 (hz.trans UInt32.toNat_zero.symm)]
  rfl

/-- The bytes before an element add up in a row exactly where its start is a multiple of the step, or there is one element. -/
theorem xOffset_add_iff (hs : addr.stepX.toNat = 1 ∨ addr.stepX.toNat = 2) :
    (∀ x < w, addr.xOffset (x + startX) = addr.xOffset x + addr.xOffset startX) ↔
      w ≤ 1 ∨ startX % addr.stepX.toNat = 0 ∧
        (addr.strideX = 0 → w ≤ addr.stepX.toNat ∨ startX % (2 * addr.stepX.toNat) = 0) := by
  unfold xOffset
  by_cases h0 : addr.strideX = 0
  · simp only [h0, if_true, true_imp_iff]
    exact packed_add_iff hs
  · simp only [h0, if_false, false_imp_iff, and_true, ← Nat.mul_add, Nat.mul_right_inj (Nat.ne_of_gt (strideX_pos h0))]
    exact div_add_iff hs

/-- The offsets of a plane add up exactly where those of its columns do and its rows start at a multiple of the step. -/
theorem offset_add_iff (hX : addr.stepX.toNat = 1 ∨ addr.stepX.toNat = 2) (hY : addr.stepY.toNat = addr.stepX.toNat)
    (hS : 0 < addr.strideY.toUInt32.toNat) (hw : 0 < w) (hh : 0 < h) :
    (∀ x < w, ∀ y < h, addr.offset (x + startX) (y + startY) = addr.offset x y + addr.offset startX startY) ↔
      (h ≤ 1 ∨ startY % addr.stepX.toNat = 0) ∧ (w ≤ 1 ∨ startX % addr.stepX.toNat = 0 ∧
        (addr.strideX = 0 → w ≤ addr.stepX.toNat ∨ startX % (2 * addr.stepX.toNat) = 0)) := by
  rw [← xOffset_add_iff hX, ← div_add_iff hX]
  simp only [offset, hY]
  constructor
  · intro hall
    refine ⟨fun y hy => ?_, fun x hx => ?_⟩
    · have hxy := hall 0 hw y hy
      rw [Nat.zero_add, xOffset_zero] at hxy
      refine Nat.eq_of_mul_eq_mul_left hS ?_
      rw [Nat.mul_add]
      omega
    · have hxy := hall x hx 0 hh
      rw [Nat.zero_add, Nat.zero_div, Nat.mul_zero] at hxy
      omega
  · rintro ⟨hy', hx'⟩ x hx y hy
    rw [hy' y hy, hx' x hx, Nat.mul_add]
    omega

end ImagepatchAddressing

/-! ### Regions of an image that fits -/

section Region

variable {d : ImageDesc} {dma : Nat → UInt32} {rect : VxRectangle}

/-- The pixels of a region are addressed from the one it starts at. -/
theorem region_pixelAddress (S : ImageShape d) (width height : UInt32) (p : Nat) (x y : UInt32) :
    (((ownInitImage width height d.format).setRegion d rect).plane p).pixelAddress x y =
      (d.plane p).pixelAddress rect.startX rect.startY + ((d.plane p).addr.ownComputePatchOffset x y).toNat := by
  have ha : (((ownInitImage width height d.format).setRegion d rect).plane p).addr.ownComputePatchOffset x y =
      (d.plane p).addr.ownComputePatchOffset x y := by
    simp only [ImagepatchAddressing.ownComputePatchOffset, S.stepX, S.stepY]
    rfl
  have hm : (((ownInitImage width height d.format).setRegion d rect).plane p).hostPtr =
      (d.plane p).hostPtr + ((d.plane p).addr.ownComputePatchOffset rect.startX rect.startY).toNat := by
    rw [← ImagePlane.roi_memOffset ((ownInitImage width height d.format).plane p) (S.stepX p).symm (S.stepY p).symm]
    rfl
  simp only [ImagePlane.pixelAddress, ha, hm]

/-- A rectangle inside an image. -/
structure RectInside (d : ImageDesc) (rect : VxRectangle) : Prop where
  startX : rect.startX.toNat + rect.width.toNat = rect.endX.toNat
  startY : rect.startY.toNat + rect.height.toNat = rect.endY.toNat
  endX : rect.endX.toNat ≤ d.width.toNat
  endY : rect.endY.toNat ≤ d.height.toNat

theorem IsRegion.rectInside (hr : IsRegion d rect) : RectInside d rect := ⟨hr.startX, hr.startY, hr.endX, hr.endY⟩

/-- A pixel of a rectangle is one of the image. -/
theorem RectInside.shift (hr : RectInside d rect) (S : ImageShape d) {p : Nat} {x y : UInt32} (hx : x < rect.width)
    (hy : y < rect.height) : (x + rect.startX).toNat = x.toNat + rect.startX.toNat ∧
      (y + rect.startY).toNat = y.toNat + rect.startY.toNat ∧
      x + rect.startX < (d.plane p).addr.dimX ∧ y + rect.startY < (d.plane p).addr.dimY := by
  have h1 := hr.startX
  have h2 := hr.startY
  have h3 := hr.endX
  have h4 := hr.endY
  have h5 := d.width.toNat_lt
  have h6 := d.height.toNat_lt
  rw [UInt32.lt_iff_toNat_lt] at hx hy
  have hx' : (x + rect.startX).toNat = x.toNat + rect.startX.toNat := by
    rw [UInt32.toNat_add]
    exact Nat.mod_eq_of_lt (by omega)
  have hy' : (y + rect.startY).toNat = y.toNat + rect.startY.toNat := by
    rw [UInt32.toNat_add]
    exact Nat.mod_eq_of_lt (by omega)
  rw [UInt32.lt_iff_toNat_lt, UInt32.lt_iff_toNat_lt, S.dimX, S.dimY, hx', hy']
  exact ⟨rfl, rfl, by omega, by omega⟩

/-- The start of a rectangle that is not empty is a pixel of the image. -/
theorem RectInside.start (hr : RectInside d rect) (S : ImageShape d) (p : Nat) (hw : 0 < rect.width.toNat)
    (hh : 0 < rect.height.toNat) : rect.startX < (d.plane p).addr.dimX ∧ rect.startY < (d.plane p).addr.dimY := by
  have h := hr.shift S (p := p) (x := 0) (y := 0) (UInt32.lt_iff_toNat_lt.2 hw) (UInt32.lt_iff_toNat_lt.2 hh)
  rw [UInt32.zero_add, UInt32.zero_add] at h
  exact ⟨h.2.2.1, h.2.2.2⟩

/-- The pixels of a plane of a region are those of the parent exactly where the region is aligned. -/
theorem plane_shifted_iff (hr : IsRegion d rect) (S : ImageShape d) (F : d.Fits) {p : Nat} (hp : p < d.planes)
    (hw : 0 < rect.width.toNat) (hh : 0 < rect.height.toNat) :
    (∀ x y : UInt32, x < rect.width → y < rect.height →
      (((ownInitImage rect.width rect.height d.format).setRegion d rect).plane p).pixelAddress x y =
        (d.plane p).pixelAddress (x + rect.startX) (y + rect.startY)) ↔
    (rect.height.toNat ≤ 1 ∨ rect.startY.toNat % (planeInit d.format p).2.1.toNat = 0) ∧
      (rect.width.toNat ≤ 1 ∨ rect.startX.toNat % (planeInit d.format p).2.1.toNat = 0 ∧
        (d.format.packed = true → rect.width.toNat ≤ (planeInit d.format p).2.1.toNat ∨
          rect.startX.toNat % (2 * (planeInit d.format p).2.1.toNat) = 0)) := by
  have Q := F p hp
  have L := Q.laidOut
  have hS : 0 < (d.plane p).addr.strideY.toUInt32.toNat := Nat.lt_of_lt_of_le Q.bytes_pos Q.le
  have hstep : (d.plane p).addr.stepX.toNat = 1 ∨ (d.plane p).addr.stepX.toNat = 2 := by
    rcases Q.step_cases with h | h
    · exact .inl h.1
    · exact .inr h.1
  -- the start of the region, and its pixels, as naturals
  have hstart := hr.rectInside.start S p hw hh
  have key : ∀ x y : UInt32, x < rect.width → y < rect.height →
      ((((ownInitImage rect.width rect.height d.format).setRegion d rect).plane p).pixelAddress x y =
          (d.plane p).pixelAddress (x + rect.startX) (y + rect.startY) ↔
        (d.plane p).addr.offset (x.toNat + rect.startX.toNat) (y.toNat + rect.startY.toNat) =
          (d.plane p).addr.offset x.toNat y.toNat + (d.plane p).addr.offset rect.startX.toNat rect.startY.toNat) := by
    intro x y hx hy
    obtain ⟨h1, h2, h3, h4⟩ := hr.rectInside.shift S (p := p) hx hy
    have hx' : x < (d.plane p).addr.dimX := by
      rw [UInt32.lt_iff_toNat_lt] at h3 ⊢
      omega
    have hy' : y < (d.plane p).addr.dimY := by
      rw [UInt32.lt_iff_toNat_lt] at h4 ⊢
      omega
    rw [region_pixelAddress S]
    simp only [ImagePlane.pixelAddress, L.offset _ _ h3 h4, L.offset _ _ hx' hy', L.offset _ _ hstart.1 hstart.2, h1, h2]
    omega
  have hiff := @ImagepatchAddressing.offset_add_iff (d.plane p).addr rect.startX.toNat rect.startY.toNat _ _ hstep
    (by rw [Q.stepY]) hS hw hh
  rw [S.packed p hp, S.stepX] at hiff
  rw [← hiff]
  constructor
  · intro h
    exact forall_lt_uint32.1 (fun x hx => forall_lt_uint32.1 (fun y hy => (key x y hx hy).1 (h x y hx hy)))
  · intro h x y hx hy
    exact (key x y hx hy).2 (h _ (UInt32.lt_iff_toNat_lt.1 hx) _ (UInt32.lt_iff_toNat_lt.1 hy))

theorem uint32_le_one {w : UInt32} : w ≤ 1 ↔ w.toNat ≤ 1 := by
  rw [UInt32.le_iff_toNat_le, UInt32.toNat_one]

theorem uint32_pos {w : UInt32} : 0 < w ↔ 0 < w.toNat := by
  rw [UInt32.lt_iff_toNat_lt, UInt32.toNat_zero]

/-- The pixels of a region are those of the parent exactly where it is aligned. -/
theorem pixelsShifted_iff (hr : IsRegion d rect) (S : ImageShape d) (F : d.Fits) :
    PixelsShifted ⟨(ownInitImage rect.width rect.height d.format).setRegion d rect, dma⟩ ⟨d, dma⟩ rect ↔
      roiAligned d rect := by
  unfold PixelsShifted roiAligned
  simp only [uint32_le_one, uint32_pos]
  constructor
  · intro h hw hh p hp
    exact (plane_shifted_iff hr S F hp hw hh).1 (fun x y hx hy => (h p hp x y hx hy).1)
  · intro h p hp x y hx hy
    have hw : 0 < rect.width.toNat := by
      rw [UInt32.lt_iff_toNat_lt] at hx
      omega
    have hh : 0 < rect.height.toNat := by
      rw [UInt32.lt_iff_toNat_lt] at hy
      omega
    exact ⟨(plane_shifted_iff hr S F hp hw hh).2 (h hw hh p hp) x y hx hy, rfl⟩

/-- An offset of a plane that fits is 0 only at its first element. -/
theorem offset_eq_zero (S : ImageShape d) (F : d.Fits) {x y : Nat} (h : (d.plane 0).addr.offset x y = 0) : x = 0 ∧ y = 0 := by
  have Q := F 0 S.planes
  have hS : 0 < (d.plane 0).addr.strideY.toUInt32.toNat := Nat.lt_of_lt_of_le Q.bytes_pos Q.le
  have hX : (d.plane 0).addr.stepX.toNat = 1 := by rw [S.stepX, planeInit_step_zero]; rfl
  have hY : (d.plane 0).addr.stepY.toNat = 1 := by rw [S.stepY, planeInit_step_zero]; rfl
  simp only [ImagepatchAddressing.offset, ImagepatchAddressing.xOffset, hX, hY, Nat.div_one] at h
  obtain ⟨hy, hx⟩ := Nat.add_eq_zero_iff.1 h
  refine ⟨?_, (Nat.mul_eq_zero.1 hy).resolve_left (Nat.ne_of_gt hS)⟩
  split at hx
  · omega
  · rename_i h0
    exact (Nat.mul_eq_zero.1 hx).resolve_left (Nat.ne_of_gt (ImagepatchAddressing.strideX_pos h0))

/-- The dma-buf offset of a region is that of its host pointer exactly where it is empty or starts at the first pixel. -/
theorem dmaShifted_iff (hr : IsRegion d rect) (S : ImageShape d) (F : d.Fits) :
    DmaShifted ⟨(ownInitImage rect.width rect.height d.format).setRegion d rect, dma⟩ ⟨d, dma⟩ rect ↔ atStart rect := by
  have hhost : ∀ p, (((ownInitImage rect.width rect.height d.format).setRegion d rect).plane p).hostPtr =
      (d.plane p).hostPtr + ((d.plane p).addr.ownComputePatchOffset rect.startX rect.startY).toNat := fun p => by
    rw [← ImagePlane.roi_memOffset ((ownInitImage rect.width rect.height d.format).plane p) (S.stepX p).symm (S.stepY p).symm]
    rfl
  simp only [DmaShifted, atStart, hhost, uint32_pos]
  constructor
  · intro h
    by_cases hw : rect.width = 0
    · exact .inl hw
    · by_cases hh : rect.height = 0
      · exact .inr (.inl hh)
      · have hw' : 0 < rect.width.toNat := Nat.pos_of_ne_zero (fun hz => hw (UInt32.toNat_inj.1 hz))
        have hh' : 0 < rect.height.toNat := Nat.pos_of_ne_zero (fun hz => hh (UInt32.toNat_inj.1 hz))
        have hstart := hr.rectInside.start S 0 hw' hh'
        have h0 := h hw' hh' 0 S.planes
        rw [(F 0 S.planes).laidOut.offset _ _ hstart.1 hstart.2] at h0
        obtain ⟨hx, hy⟩ := offset_eq_zero S F (show (d.plane 0).addr.offset rect.startX.toNat rect.startY.toNat = 0 by omega)
        exact .inr (.inr ⟨UInt32.toNat_inj.1 hx, UInt32.toNat_inj.1 hy⟩)
  · rintro (h | h | ⟨hx, hy⟩) hw hh p hp
    · rw [h] at hw
      exact absurd hw (by decide)
    · rw [h] at hh
      exact absurd hh (by decide)
    · have : ((d.plane p).addr.ownComputePatchOffset rect.startX rect.startY).toNat = 0 := by
        simp only [ImagepatchAddressing.ownComputePatchOffset, hx, hy]
        split <;> simp
      rw [this]
      omega

end Region

/-! ### Tensors of a region -/

/-- What `vxCreateTensorFromROI` accepts, and the tensor it gives. -/
theorem tensor_spec {d : ImageDesc} {dma : Nat → UInt32} {rect : Option VxRectangle} {t : RoiTensor}
    (h : (DmaImage.mk d dma).vxCreateTensorFromROI rect = some t) :
    ∃ dataType roi, ownGetTensorTypeFromImage d.format = some dataType ∧ roi = rect.getD ⟨0, 0, d.width, d.height⟩ ∧
      RectInside d roi ∧ t = ⟨dataType, roi.width, roi.height, dataType.ownSizeOfEnumType, (d.plane 0).addr.strideY,
        (d.plane 0).hostPtr + (roi.startX.toNat * dataType.ownSizeOfEnumType.toInt +
          roi.startY.toNat * (d.plane 0).addr.strideY.toInt), 0⟩ := by
  simp only [DmaImage.vxCreateTensorFromROI] at h
  split at h
  · cases h
  · obtain ⟨dataType, hd, h⟩ := Option.bind_eq_some_iff.1 h
    split at h
    · cases h
    · rename_i hc
      simp only [not_or, UInt32.lt_iff_toNat_lt, Nat.not_lt] at hc
      cases h
      refine ⟨dataType, _, hd, rfl, ⟨?_, ?_, hc.2.2.1, hc.2.2.2⟩, rfl⟩
      · rw [VxRectangle.width, UInt32.toNat_sub_of_le _ _ (UInt32.le_iff_toNat_le.2 hc.1)]
        omega
      · rw [VxRectangle.height, UInt32.toNat_sub_of_le _ _ (UInt32.le_iff_toNat_le.2 hc.2.1)]
        omega

/-- The element of a tensor is the group of samples of an address, but for two formats. -/
theorem sampleBits_iff {format : DfImage} {dataType : TensorType} (h : ownGetTensorTypeFromImage format = some dataType) :
    8 * dataType.ownSizeOfEnumType.toInt = sampleBits format ↔ format ≠ .rgb ∧ format ≠ .p12 := by
  cases format <;> cases h <;> decide

/-- But for these the format is not packed, and the element has its bytes. -/
theorem elementBytes_of_tensor {format : DfImage} {dataType : TensorType} (h : ownGetTensorTypeFromImage format = some dataType)
    (hb : 8 * dataType.ownSizeOfEnumType.toInt = sampleBits format) :
    format.packed = false ∧ dataType.ownSizeOfEnumType.toInt = elementBytes format 0 ∧
      dataType.ownSizeOfEnumType.toUInt32.toNat = elementBytes format 0 ∧ elementBytes format 0 ≤ 4 := by
  cases format <;> cases h <;> first | exact absurd hb (by decide) | decide

theorem int32_toInt_eq (x : Int32) : x.toInt = (x.toUInt32.toNat : Int).bmod (2 ^ 32) :=
  BitVec.toInt_eq_toNat_bmod x.toBitVec

section Tensor

variable {d : ImageDesc} {dma : Nat → UInt32} {roi : VxRectangle}

/-- The rows before the start of a rectangle that is not empty, as a signed stride counts them. -/
theorem RectInside.startY_mul (hr : RectInside d roi) (S : ImageShape d) (F : d.Fits) (hh : 0 < roi.height.toNat) :
    (roi.startY.toNat : Int) * (d.plane 0).addr.strideY.toInt = roi.startY.toNat * (d.plane 0).addr.strideY.toUInt32.toNat := by
  by_cases h0 : roi.startY.toNat = 0
  · rw [h0, Int.natCast_zero, Int.zero_mul, Int.zero_mul]
  · -- there are two rows or more, so the stride has 31 bits
    have hs := (F 0 S.planes).stride
    have h1 := hr.startY
    have h2 := hr.endY
    rw [S.dimY] at hs
    have h3 : (d.plane 0).addr.strideY.toUInt32.toNat * 2 ≤ (d.plane 0).addr.strideY.toUInt32.toNat * d.height.toNat :=
      Nat.mul_le_mul_left _ (by omega)
    have h4 : (d.plane 0).addr.strideY.toInt = (d.plane 0).addr.strideY.toUInt32.toNat := by
      rw [int32_toInt_eq]
      exact Int.bmod_eq_of_le (by omega) (by omega)
    rw [h4]

/-- The elements of a tensor are the pixels of the parent exactly where the format and the stride fit. -/
theorem elementsShifted_iff {dataType : TensorType} (ht : ownGetTensorTypeFromImage d.format = some dataType)
    (hr : RectInside d roi) (S : ImageShape d) (F : d.Fits) :
    ElementsShifted ⟨dataType, roi.width, roi.height, dataType.ownSizeOfEnumType, (d.plane 0).addr.strideY,
        (d.plane 0).hostPtr + (roi.startX.toNat * dataType.ownSizeOfEnumType.toInt +
          roi.startY.toNat * (d.plane 0).addr.strideY.toInt), 0⟩ ⟨d, dma⟩ roi ↔ tensorFits d roi := by
  have Q := F 0 S.planes
  have L := Q.laidOut
  have hX : (d.plane 0).addr.stepX.toNat = 1 := by rw [S.stepX, planeInit_step_zero]; rfl
  have hY : (d.plane 0).addr.stepY.toNat = 1 := by rw [S.stepY, planeInit_step_zero]; rfl
  unfold ElementsShifted tensorFits
  simp only [RoiTensor.ownComputePatchOffset, sampleBits_iff ht, and_assoc]
  refine and_congr_right (fun hrgb => and_congr_right (fun hp12 => ?_))
  obtain ⟨hpk, hsize, hsize', hb⟩ := elementBytes_of_tensor ht ((sampleBits_iff ht).2 ⟨hrgb, hp12⟩)
  have hx0 : (d.plane 0).addr.strideX ≠ 0 := fun h => by
    rw [S.packed 0 S.planes, hpk] at h
    cases h
  have hpos := elementBytes_pos d.format 0
  -- a pixel of the parent, and the element of the tensor, as sums of naturals
  have hpix : ∀ x y : UInt32, x < roi.width → y < roi.height →
      (((d.plane 0).pixelAddress (x + roi.startX) (y + roi.startY) : Nat) : Int) =
        (d.plane 0).hostPtr + ((d.plane 0).addr.strideY.toUInt32.toNat * y.toNat +
          (d.plane 0).addr.strideY.toUInt32.toNat * roi.startY.toNat +
          ((d.plane 0).addr.strideX.toUInt32.toNat * x.toNat +
            (d.plane 0).addr.strideX.toUInt32.toNat * roi.startX.toNat) : Nat) := by
    intro x y hx hy
    obtain ⟨h1, h2, h3, h4⟩ := hr.shift S (p := 0) hx hy
    rw [ImagePlane.pixelAddress, L.offset _ _ h3 h4, ImagepatchAddressing.offset, xOffset_bytes hx0, hX, hY, Nat.div_one,
      Nat.div_one, h1, h2, Nat.mul_add, Nat.mul_add]
    omega
  have helem : ∀ x y : UInt32,
      elementBytes d.format 0 * x.toNat + (d.plane 0).addr.strideY.toUInt32.toNat * y.toNat < 2 ^ 32 →
      (dataType.ownSizeOfEnumType.toUInt32 * x + (d.plane 0).addr.strideY.toUInt32 * y).toNat =
        elementBytes d.format 0 * x.toNat + (d.plane 0).addr.strideY.toUInt32.toNat * y.toNat := by
    intro x y hlt
    rw [UInt32.toNat_add, UInt32.toNat_mul, UInt32.toNat_mul, hsize',
      Nat.mod_eq_of_lt (a := elementBytes d.format 0 * _) (by omega),
      Nat.mod_eq_of_lt (a := (d.plane 0).addr.strideY.toUInt32.toNat * _) (by omega), Nat.mod_eq_of_lt hlt]
  constructor
  · intro h
    by_cases hw : roi.width = 0
    · exact .inl hw
    by_cases hh : roi.height = 0
    · exact .inr (.inl hh)
    have hw' : 0 < roi.width.toNat := Nat.pos_of_ne_zero (fun hz => hw (UInt32.toNat_inj.1 hz))
    have hh' : 0 < roi.height.toNat := Nat.pos_of_ne_zero (fun hz => hh (UInt32.toNat_inj.1 hz))
    have hwlt := UInt32.lt_iff_toNat_lt.2 (show (0 : UInt32).toNat < roi.width.toNat from hw')
    have hhlt := UInt32.lt_iff_toNat_lt.2 (show (0 : UInt32).toNat < roi.height.toNat from hh')
    have hsY := hr.startY_mul S F hh'
    have h0 := h 0 0 hwlt hhlt
    rw [hpix 0 0 hwlt hhlt, helem 0 0 (by simp), hsize, hsY, Nat.mul_comm (d.plane 0).addr.strideX.toUInt32.toNat roi.startX.toNat,
      Nat.mul_comm (d.plane 0).addr.strideY.toUInt32.toNat roi.startY.toNat] at h0
    have h0' : roi.startX.toNat * elementBytes d.format 0 =
        roi.startX.toNat * (d.plane 0).addr.strideX.toUInt32.toNat := by
      simp only [UInt32.toNat_zero, Nat.mul_zero] at h0
      push_cast at h0
      have h1 : (roi.startX.toNat : Int) * elementBytes d.format 0 =
          roi.startX.toNat * (d.plane 0).addr.strideX.toUInt32.toNat := by omega
      exact_mod_cast h1
    rcases Nat.eq_zero_or_pos roi.startX.toNat with hz | hz
    · by_cases hw1 : roi.width ≤ 1
      · exact .inr (.inr (.inr ⟨UInt32.toNat_inj.1 hz, hw1⟩))
      · have h1lt : (1 : UInt32) < roi.width := by
          rw [uint32_le_one] at hw1
          rw [UInt32.lt_iff_toNat_lt, UInt32.toNat_one]
          omega
        have h1 := h 1 0 h1lt hhlt
        rw [hpix 1 0 h1lt hhlt, helem 1 0 (by simp; omega), hsize, hsY,
          Nat.mul_comm (d.plane 0).addr.strideY.toUInt32.toNat roi.startY.toNat] at h1
        simp only [UInt32.toNat_zero, UInt32.toNat_one, Nat.mul_zero, Nat.mul_one, hz] at h1
        push_cast at h1
        exact .inr (.inr (.inl (by omega)))
    · exact .inr (.inr (.inl (Nat.eq_of_mul_eq_mul_left hz h0').symm))
  · intro hor x y hx hy
    have hx' := UInt32.lt_iff_toNat_lt.1 hx
    have hy' := UInt32.lt_iff_toNat_lt.1 hy
    have hlt := Q.size_lt
    rw [hY] at hlt
    have hoff := Q.offset_le (x := x.toNat + roi.startX.toNat) (y := y.toNat + roi.startY.toNat)
      (by rw [← (hr.shift S (p := 0) hx hy).1]; exact UInt32.lt_iff_toNat_lt.1 (hr.shift S (p := 0) hx hy).2.2.1)
      (by rw [← (hr.shift S (p := 0) hx hy).2.1]; exact UInt32.lt_iff_toNat_lt.1 (hr.shift S (p := 0) hx hy).2.2.2)
    rw [ImagepatchAddressing.offset, xOffset_bytes hx0, hX, hY, Nat.div_one, Nat.div_one, Nat.mul_add, Nat.mul_add] at hoff
    have hcol : elementBytes d.format 0 * x.toNat = (d.plane 0).addr.strideX.toUInt32.toNat * x.toNat ∧
        roi.startX.toNat * elementBytes d.format 0 = (d.plane 0).addr.strideX.toUInt32.toNat * roi.startX.toNat := by
      rcases hor with h | h | h | ⟨h, h1⟩
      · rw [h] at hx'
        exact absurd hx' (Nat.not_lt_zero _)
      · rw [h] at hy'
        exact absurd hy' (Nat.not_lt_zero _)
      · rw [h]
        exact ⟨rfl, Nat.mul_comm _ _⟩
      · -- one column, the first
        rw [uint32_le_one] at h1
        obtain hz : x.toNat = 0 := by omega
        rw [hz, h, UInt32.toNat_zero]
        exact ⟨by rw [Nat.mul_zero, Nat.mul_zero], by rw [Nat.zero_mul, Nat.mul_zero]⟩
    rw [hpix x y hx hy, helem x y (by omega), hsize, hr.startY_mul S F (by omega)]
    have h1 : (roi.startX.toNat : Int) * elementBytes d.format 0 =
        ((d.plane 0).addr.strideX.toUInt32.toNat * roi.startX.toNat : Nat) := by exact_mod_cast hcol.2
    have h2 : (roi.startY.toNat : Int) * (d.plane 0).addr.strideY.toUInt32.toNat =
        ((d.plane 0).addr.strideY.toUInt32.toNat * roi.startY.toNat : Nat) := by
      rw [Nat.mul_comm]
      push_cast
      rfl
    rw [h1, h2, hcol.1]
    omega

/-- The dma-buf offset of a tensor, 0, is that of its host pointer exactly where it is empty, or starts at the first pixel of an
image whose offset is 0. -/
theorem tensorDma_iff {dataType : TensorType} (hr : RectInside d roi) (S : ImageShape d) (F : d.Fits) :
    TensorDmaShifted ⟨dataType, roi.width, roi.height, dataType.ownSizeOfEnumType, (d.plane 0).addr.strideY,
        (d.plane 0).hostPtr + (roi.startX.toNat * dataType.ownSizeOfEnumType.toInt +
          roi.startY.toNat * (d.plane 0).addr.strideY.toInt), 0⟩ ⟨d, dma⟩ roi ↔
      roi.width = 0 ∨ roi.height = 0 ∨ dma 0 = 0 ∧ roi.startX = 0 ∧ roi.startY = 0 := by
  have hS : 0 < (d.plane 0).addr.strideY.toUInt32.toNat := Nat.lt_of_lt_of_le (F 0 S.planes).bytes_pos (F 0 S.planes).le
  have hsize : 0 < dataType.ownSizeOfEnumType.toInt := by cases dataType <;> decide
  unfold TensorDmaShifted
  simp only [uint32_pos, UInt32.toNat_zero]
  constructor
  · intro h
    by_cases hw : roi.width = 0
    · exact .inl hw
    by_cases hh : roi.height = 0
    · exact .inr (.inl hh)
    have hw' : 0 < roi.width.toNat := Nat.pos_of_ne_zero (fun hz => hw (UInt32.toNat_inj.1 hz))
    have hh' : 0 < roi.height.toNat := Nat.pos_of_ne_zero (fun hz => hh (UInt32.toNat_inj.1 hz))
    have h0 := h hw' hh'
    rw [hr.startY_mul S F hh'] at h0
    have hx : 0 ≤ (roi.startX.toNat : Int) * dataType.ownSizeOfEnumType.toInt :=
      Int.mul_nonneg (Int.natCast_nonneg _) (Int.le_of_lt hsize)
    have hy : 0 ≤ (roi.startY.toNat : Int) * (d.plane 0).addr.strideY.toUInt32.toNat :=
      Int.mul_nonneg (Int.natCast_nonneg _) (Int.natCast_nonneg _)
    have hx0 : (roi.startX.toNat : Int) * dataType.ownSizeOfEnumType.toInt = 0 := by omega
    have hy0 : (roi.startY.toNat : Int) * (d.plane 0).addr.strideY.toUInt32.toNat = 0 := by omega
    refine .inr (.inr ⟨UInt32.toNat_inj.1 (show (dma 0).toNat = 0 by omega), UInt32.toNat_inj.1 ?_, UInt32.toNat_inj.1 ?_⟩)
    · exact Int.ofNat_eq_zero.1 ((Int.mul_eq_zero.1 hx0).resolve_right (Int.ne_of_gt hsize))
    · exact Int.ofNat_eq_zero.1 ((Int.mul_eq_zero.1 hy0).resolve_right (by omega))
  · rintro (h | h | ⟨hd, hx, hy⟩) hw hh
    · rw [h] at hw
      exact absurd hw (by decide)
    · rw [h] at hh
      exact absurd hh (by decide)
    · rw [hd, hx, hy, UInt32.toNat_zero]
      omega

end Tensor

/-- **A region of an image whose planes fit is addressed as its parent is exactly where it is aligned**, a tensor where the format
and the stride fit, and the dma-buf offset follows the host pointer only to the first pixel. -/
theorem regionShifted_iff {src : ImageSource} {d : ImageDesc} (h : src.image = some d) (F : d.Fits) (dma : Nat → UInt32) :
    (∀ rect e, (DmaImage.mk d dma).vxCreateImageFromROI rect = some e →
      (PixelsShifted e ⟨d, dma⟩ rect ↔ roiAligned d rect) ∧ (DmaShifted e ⟨d, dma⟩ rect ↔ atStart rect)) ∧
    (∀ rect t, (DmaImage.mk d dma).vxCreateTensorFromROI rect = some t →
      let roi := rect.getD ⟨0, 0, d.width, d.height⟩
      (ElementsShifted t ⟨d, dma⟩ roi ↔ tensorFits d roi) ∧
        (TensorDmaShifted t ⟨d, dma⟩ roi ↔
          roi.width = 0 ∨ roi.height = 0 ∨ dma 0 = 0 ∧ roi.startX = 0 ∧ roi.startY = 0)) := by
  have S := (src.line_spec h).1
  refine ⟨fun rect e he => ?_, fun rect t ht => ?_⟩
  · obtain ⟨d', hd', rfl⟩ := Option.map_eq_some_iff.1 he
    obtain ⟨hr, rfl⟩ := isRegion_of_roi hd'
    exact ⟨pixelsShifted_iff hr S F, dmaShifted_iff hr S F⟩
  · obtain ⟨dataType, roi, hd, rfl, hr, rfl⟩ := tensor_spec ht
    exact ⟨elementsShifted_iff hd hr S F, tensorDma_iff hr S F⟩

/-- A 640x480 image, allocated, with a dma-buf of its own. -/
def vgaImage (format : DfImage) : DmaImage := ⟨(ownInitImage 640 480 format).ownAllocImageBuffer 0x1000, fun _ => 0⟩

/-- The lower right quarter of an image with half as many chroma samples in each direction, the upper left one, and a tensor. -/
theorem regionShifted_quarters :
    (∃ e, (vgaImage .nv12).vxCreateImageFromROI ⟨320, 240, 640, 480⟩ = some e ∧
      PixelsShifted e (vgaImage .nv12) ⟨320, 240, 640, 480⟩) ∧
    (∃ e, (vgaImage .nv12).vxCreateImageFromROI ⟨0, 0, 320, 240⟩ = some e ∧
      DmaShifted e (vgaImage .nv12) ⟨0, 0, 320, 240⟩) ∧
    (∃ t, (vgaImage .u8).vxCreateTensorFromROI (some ⟨320, 240, 640, 480⟩) = some t ∧
      ElementsShifted t (vgaImage .u8) ⟨320, 240, 640, 480⟩) := by
  have hnv12 : (ImageSource.vxCreateImage 640 480 .nv12 0x1000).image = some (vgaImage .nv12).desc := rfl
  have hu8 : (ImageSource.vxCreateImage 640 480 .u8 0x1000).image = some (vgaImage .u8).desc := rfl
  have F12 : (vgaImage .nv12).desc.Fits := (createImage_spec hnv12).2.2
    ⟨fun h => absurd h (by decide), fun h => absurd h (by decide), by decide⟩
  have F8 : (vgaImage .u8).desc.Fits := (createImage_spec hu8).2.2
    ⟨fun h => absurd h (by decide), fun h => absurd h (by decide), by decide⟩
  refine ⟨⟨_, rfl, ?_⟩, ⟨_, rfl, ?_⟩, _, rfl, ?_⟩
  · refine ((regionShifted_iff hnv12 F12 (fun _ => 0)).1 _ _ rfl).1.2 (fun _ _ p hp => ?_)
    have hp' : p < 2 := hp
    interval_cases p <;> decide
  · exact ((regionShifted_iff hnv12 F12 (fun _ => 0)).1 _ _ rfl).2.2 (.inr (.inr ⟨rfl, rfl⟩))
  · exact ((regionShifted_iff hu8 F8 (fun _ => 0)).2 (some ⟨320, 240, 640, 480⟩) _ rfl).1.2
      ⟨by decide, by decide, .inr (.inr (.inl (by decide)))⟩

/-- At odd coordinates the chroma samples of a region are not those of the parent, and neither are packed pixels; the dma-buf
offset of a region is that of the parent, wherever it starts; and the elements of a tensor are wider than three bytes or
12 bits. -/
theorem regions_not_shifted :
    (∃ e, (vgaImage .nv12).vxCreateImageFromROI ⟨1, 1, 3, 3⟩ = some e ∧
      ¬ PixelsShifted e (vgaImage .nv12) ⟨1, 1, 3, 3⟩) ∧
    (∃ e, (vgaImage .p12).vxCreateImageFromROI ⟨1, 0, 3, 1⟩ = some e ∧
      ¬ PixelsShifted e (vgaImage .p12) ⟨1, 0, 3, 1⟩) ∧
    (∃ e, (vgaImage .u8).vxCreateImageFromROI ⟨0, 1, 2, 2⟩ = some e ∧
      PixelsShifted e (vgaImage .u8) ⟨0, 1, 2, 2⟩ ∧ ¬ DmaShifted e (vgaImage .u8) ⟨0, 1, 2, 2⟩) ∧
    (∃ t, (vgaImage .rgb).vxCreateTensorFromROI (some ⟨1, 0, 2, 1⟩) = some t ∧
      t.hostPtr + (t.ownComputePatchOffset 0 0).toNat = 0x1004 ∧
      ((vgaImage .rgb).desc.plane 0).pixelAddress 1 0 = 0x1003 ∧ ¬ ElementsShifted t (vgaImage .rgb) ⟨1, 0, 2, 1⟩) ∧
    (∃ t, (vgaImage .p12).vxCreateTensorFromROI none = some t ∧
      ¬ ElementsShifted t (vgaImage .p12) ⟨0, 0, 640, 480⟩) := by
  refine ⟨⟨_, rfl, fun h => ?_⟩, ⟨_, rfl, fun h => ?_⟩, ⟨_, rfl, ?_, fun h => ?_⟩, ⟨_, rfl, rfl, rfl, fun h => ?_⟩,
    _, rfl, fun h => ?_⟩
  · exact absurd (h 1 (by decide) 1 1 (by decide) (by decide)).1 (by decide)
  · exact absurd (h 0 (by decide) 1 0 (by decide) (by decide)).1 (by decide)
  · have hu8 : (ImageSource.vxCreateImage 640 480 .u8 0x1000).image = some (vgaImage .u8).desc := rfl
    have F8 : (vgaImage .u8).desc.Fits := (createImage_spec hu8).2.2
      ⟨fun h => absurd h (by decide), fun h => absurd h (by decide), by decide⟩
    refine (pixelsShifted_iff ?_ (createImage_spec hu8).1 F8).2 (fun _ _ p hp => ?_)
    · exact ⟨by decide, by decide, by decide, by decide, by decide⟩
    · have hp' : p < 1 := hp
      interval_cases p
      decide
  · exact absurd (h (by decide) (by decide) 0 (by decide)) (by decide)
  · exact absurd h.1 (by decide)
  · exact absurd h.1 (by decide)

end Tiovx
