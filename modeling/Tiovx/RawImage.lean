import Mathlib.Tactic.IntervalCases
import Mathlib.Tactic.Ring
import Tiovx.Lib.ByteRange
/-!
# RawImage — the buffers of a raw image (`vx_raw_image.c`)

A raw image has up to three exposures, each with pixel lines between lines of meta data.  The exposures have a buffer each, or
are line interleaved in one.  The pointers to the pixel and meta lines of an exposure are derived from those to the buffers
after the buffers are allocated, and after they are imported.
-/
namespace Tiovx

/-- `TIVX_RAW_IMAGE_16_BIT`. -/
def rawImage16Bit : UInt32 := 0x101000

/-- `TIVX_RAW_IMAGE_8_BIT`. -/
def rawImage8Bit : UInt32 := 0x101001

/-- `TIVX_RAW_IMAGE_P12_BIT`. -/
def rawImageP12Bit : UInt32 := 0x101002

/-- `TIVX_RAW_IMAGE_MAX_EXPOSURES`. -/
def rawImageMaxExposures : UInt32 := 3

/-- `TIVX_DEFAULT_STRIDE_Y_ALIGN`. -/
def defaultStrideYAlign : UInt32 := 16

/-- `TIVX_ALIGN`. -/
def tivxAlign (value align : UInt32) : UInt32 := (value + (align - 1)) / align * align

/-- `tivx_raw_image_format_t`. -/
structure RawImageFormat where
  pixelContainer : UInt32
  msb : UInt32
deriving DecidableEq

/-- `tivx_raw_image_create_params_t`. -/
structure RawImageParams where
  width : UInt32
  height : UInt32
  numExposures : UInt32
  lineInterleaved : Bool
  format : Nat → RawImageFormat
  metaHeightBefore : UInt32
  metaHeightAfter : UInt32

/-- A comparison `(int32_t)x > y` with a `y` that is not negative. -/
def int32Gt (x y : UInt32) : Bool := decide (y < x ∧ x < 0x80000000)

/-- `ownIsValidCreateParams`.  What a read past the array of formats gives is no value that is accepted. -/
def ownIsValidCreateParams (params : RawImageParams) : Bool :=
  !(params.width < 2 || params.height < 1 || params.width &&& 1 == 1) &&
  !(params.numExposures < 1 || int32Gt params.numExposures rawImageMaxExposures) &&
  (List.range params.numExposures.toNat).all (fun i => decide (i < rawImageMaxExposures.toNat) &&
    !int32Gt (params.format i).pixelContainer rawImageP12Bit && !(15 < (params.format i).msb))

/-- `vx_imagepatch_addressing_t` of an exposure. -/
structure RawPatchAddressing where
  strideX : UInt32
  strideY : UInt32
deriving DecidableEq

/-- `ownComputePatchOffset`. -/
def RawPatchAddressing.ownComputePatchOffset (addr : RawPatchAddressing) (x y : UInt32) : UInt32 :=
  if addr.strideX = 0 then addr.strideY * y + 12 * x / 8 else addr.strideY * y + addr.strideX * x

/-- `tivx_obj_desc_raw_image_t`; a pointer is its `host_ptr`. -/
structure RawImageDesc where
  params : RawImageParams
  imagepatchAddr : Nat → RawPatchAddressing
  memSize : Nat → UInt32
  memPtr : Nat → Nat
  imgPtr : Nat → Nat
  metaBeforePtr : Nat → Nat
  metaAfterPtr : Nat → Nat

/-- `stride_y_multiplier`. -/
def RawImageParams.strideYMultiplier (params : RawImageParams) : UInt32 :=
  if params.lineInterleaved then params.numExposures else 1

/-- The strides that `ownInitRawImage` gives an exposure. -/
def RawImageParams.addressing (params : RawImageParams) (exp : Nat) : RawPatchAddressing :=
  let container := (params.format exp).pixelContainer
  if container ≠ rawImageP12Bit then
    let strideX := if container = rawImage8Bit then 1 else 2
    ⟨strideX, tivxAlign (params.width * strideX) defaultStrideYAlign * params.strideYMultiplier⟩
  else ⟨0, tivxAlign ((params.width * 12 + 7) / 8) defaultStrideYAlign * params.strideYMultiplier⟩

/-- `ownInitRawImage`. -/
def ownInitRawImage (params : RawImageParams) : RawImageDesc where
  params := params
  imagepatchAddr := params.addressing
  memSize := fun exp =>
    if params.lineInterleaved && 0 < exp then 0
    else (params.addressing exp).strideY * (params.height + (params.metaHeightBefore + params.metaHeightAfter))
  memPtr := fun _ => 0
  imgPtr := fun _ => 0
  metaBeforePtr := fun _ => 0
  metaAfterPtr := fun _ => 0

namespace RawImageDesc

/-- `alloc_idx`: the buffer of an exposure. -/
def allocIdx (d : RawImageDesc) (exp : Nat) : Nat := if d.params.lineInterleaved then 0 else exp

/-- `exposure_offset`. -/
def exposureOffset (d : RawImageDesc) (exp : Nat) : UInt32 := if d.params.lineInterleaved then exp.toUInt32 else 0

/-- The pointer to a line of an exposure; NULL while there is no buffer. -/
def linePtr (d : RawImageDesc) (exp : Nat) (line : UInt32) : Nat :=
  if d.memPtr (d.allocIdx exp) ≠ 0 then
    d.memPtr (d.allocIdx exp) +
      ((d.imagepatchAddr exp).ownComputePatchOffset 0 (line + d.exposureOffset exp)).toNat
  else 0

/-- `ownDeriveRawImageBufferPointers`. -/
def ownDeriveRawImageBufferPointers (d : RawImageDesc) : RawImageDesc :=
  let isExposure := fun exp : Nat => exp < d.params.numExposures.toNat
  { d with
    imgPtr := fun exp => if isExposure exp then d.linePtr exp d.params.metaHeightBefore else d.imgPtr exp
    metaBeforePtr := fun exp =>
      if isExposure exp then
        if d.memPtr (d.allocIdx exp) = 0 ∨ 0 < d.params.metaHeightBefore then d.linePtr exp 0 else d.metaBeforePtr exp
      else d.metaBeforePtr exp
    metaAfterPtr := fun exp =>
      if isExposure exp then
        if d.memPtr (d.allocIdx exp) = 0 ∨ 0 < d.params.metaHeightAfter then
          d.linePtr exp (d.params.metaHeightBefore + d.params.height)
        else d.metaAfterPtr exp
      else d.metaAfterPtr exp }

/-- `ownAllocRawImageBuffer` where each buffer is allocated, the one of `exp` at `host exp`. -/
def ownAllocRawImageBuffer (host : Nat → Nat) (d : RawImageDesc) : RawImageDesc :=
  ownDeriveRawImageBufferPointers
    { d with
      memPtr := fun exp =>
        if exp < d.params.numExposures.toNat ∧ d.memPtr exp = 0 ∧ (d.params.lineInterleaved = false ∨ exp = 0) then host exp
        else d.memPtr exp }

/-- `tivxReferenceImportHandle` of as many buffers as there are exposures, of the sizes it expects. -/
def importHandle (host : Nat → Nat) (d : RawImageDesc) : RawImageDesc :=
  ownDeriveRawImageBufferPointers
    { d with memPtr := fun exp => if exp < d.params.numExposures.toNat then host exp else d.memPtr exp }

end RawImageDesc

/-- The parts of an exposure. -/
inductive RawBuffer
  | pixel
  | metaBefore
  | metaAfter
deriving DecidableEq

namespace RawBuffer

def rows (params : RawImageParams) : RawBuffer → Nat
  | .pixel => params.height.toNat
  | .metaBefore => params.metaHeightBefore.toNat
  | .metaAfter => params.metaHeightAfter.toNat

def ptr (d : RawImageDesc) (exp : Nat) : RawBuffer → Nat
  | .pixel => d.imgPtr exp
  | .metaBefore => d.metaBeforePtr exp
  | .metaAfter => d.metaAfterPtr exp

end RawBuffer

/-- The bytes of one row of an exposure. -/
def RawImageParams.rowBytes (params : RawImageParams) (exp : Nat) : Nat :=
  if (params.format exp).pixelContainer = rawImageP12Bit then (12 * params.width.toNat + 7) / 8
  else if (params.format exp).pixelContainer = rawImage8Bit then params.width.toNat
  else 2 * params.width.toNat

/-- Row `y` of a part of an exposure. -/
def RawImageDesc.rowRange (d : RawImageDesc) (exp : Nat) (b : RawBuffer) (y : Nat) : ByteRange :=
  .row (b.ptr d exp) (d.imagepatchAddr exp).strideY.toNat (d.params.rowBytes exp) y

/-- The buffer of an exposure. -/
def RawImageDesc.bufferRange (d : RawImageDesc) (exp : Nat) : ByteRange :=
  ⟨d.memPtr (d.allocIdx exp), (d.memSize (d.allocIdx exp)).toNat⟩

namespace RawImageParams

variable (params : RawImageParams)

/-- The bytes from one line to the next of an exposure alone in its buffer. -/
def lineBytes (exp : Nat) : Nat := ByteRange.alignUp 16 (params.rowBytes exp)

/-- The lines of an exposure. -/
def lines : Nat := params.height.toNat + (params.metaHeightBefore.toNat + params.metaHeightAfter.toNat)

/-- The bytes from one line to the next of an exposure. -/
def stride (exp : Nat) : Nat := params.lineBytes exp * params.strideYMultiplier.toNat

/-- The line a part of an exposure starts at. -/
def firstLine : RawBuffer → Nat
  | .pixel => params.metaHeightBefore.toNat
  | .metaBefore => 0
  | .metaAfter => params.metaHeightBefore.toNat + params.height.toNat

end RawImageParams

/-- The strides, the sizes of the buffers and the places in them are those of unbounded arithmetic. -/
structure RawSizesExact (d : RawImageDesc) : Prop where
  stride : ∀ e < d.params.numExposures.toNat, (d.imagepatchAddr e).strideY.toNat = d.params.stride e
  size : ∀ e < d.params.numExposures.toNat,
    (d.memSize (d.allocIdx e)).toNat = d.params.lines * d.params.stride (d.allocIdx e)
  place : ∀ e < d.params.numExposures.toNat, ∀ b, 0 < RawBuffer.rows d.params b →
    b.ptr d e = d.memPtr (d.allocIdx e) + (d.params.firstLine b + (d.exposureOffset e).toNat) * d.params.stride e

/-- Each row is in the buffer of its exposure, no two rows share a byte, and no size is wrapped. -/
structure RawImageLaidOut (d : RawImageDesc) : Prop where
  inside : ∀ e < d.params.numExposures.toNat, ∀ b, ∀ y < RawBuffer.rows d.params b,
    (d.rowRange e b y).Inside (d.bufferRange e)
  apart : ∀ e < d.params.numExposures.toNat, ∀ f < d.params.numExposures.toNat, ∀ b c,
    ∀ y < RawBuffer.rows d.params b, ∀ z < RawBuffer.rows d.params c, (e, b, y) ≠ (f, c, z) →
      (d.rowRange e b y).Apart (d.rowRange f c z)
  exact : RawSizesExact d

namespace RawImageParams

variable (params : RawImageParams)

/-- The bits of a packed row are counted in 32 bits. -/
def rowFits (exp : Nat) : Prop :=
  (params.format exp).pixelContainer = rawImageP12Bit → 12 * params.width.toNat + 7 < 2 ^ 32

/-- The exposures are in buffers of their own whose sizes are below 2^32, or they are two that are line interleaved and have a
single line each, the second of them so much shorter that it ends before twice the first. -/
def fits : Prop :=
  if params.lineInterleaved = true ∧ 1 < params.numExposures.toNat then
    params.numExposures.toNat = 2 ∧ params.lines = 1 ∧ params.rowFits 0 ∧ params.rowFits 1 ∧
      2 * params.lineBytes 0 < 2 ^ 32 ∧ 2 * params.lineBytes 1 + params.rowBytes 1 ≤ 2 * params.lineBytes 0
  else ∀ e < params.numExposures.toNat, params.rowFits e ∧ params.lines * params.lineBytes e < 2 ^ 32

instance (exp : Nat) : Decidable (params.rowFits exp) := inferInstanceAs (Decidable (_ → _))

instance : Decidable params.fits := inferInstanceAs (Decidable (ite _ _ _))

end RawImageParams

/-! ### What the parameters give -/

section Params

variable {params : RawImageParams}

theorem ownIsValidCreateParams_spec (h : ownIsValidCreateParams params = true) :
    2 ≤ params.width.toNat ∧ 1 ≤ params.height.toNat ∧ 1 ≤ params.numExposures.toNat ∧ params.numExposures.toNat ≤ 3 := by
  simp only [ownIsValidCreateParams, Bool.and_eq_true, Bool.not_eq_true', Bool.or_eq_false_iff, List.all_eq_true,
    List.mem_range, decide_eq_true_eq, decide_eq_false_iff_not, UInt32.lt_iff_toNat_lt, UInt32.reduceToNat] at h
  obtain ⟨⟨⟨⟨h1, h2⟩, -⟩, h3, -⟩, h4⟩ := h
  refine ⟨Nat.not_lt.1 h1, Nat.not_lt.1 h2, Nat.not_lt.1 h3, ?_⟩
  have := (h4 (params.numExposures.toNat - 1) (by omega)).1.1
  simp only [rawImageMaxExposures, UInt32.reduceToNat] at this
  omega

/-- A row of `w` pixels in one of the containers. -/
def IsRow (w r : Nat) : Prop := r = w ∨ r = 2 * w ∨ r = (12 * w + 7) / 8

theorem isRow_rowBytes (params : RawImageParams) (e : Nat) : IsRow params.width.toNat (params.rowBytes e) := by
  unfold RawImageParams.rowBytes IsRow
  split
  · exact .inr (.inr rfl)
  · split
    · exact .inl rfl
    · exact .inr (.inl rfl)

theorem IsRow.pos {w r : Nat} (h : IsRow w r) (hw : 2 ≤ w) : w ≤ r ∧ r ≤ 2 * w := by
  rcases h with rfl | rfl | rfl <;> omega

theorem rowBytes_le_lineBytes (params : RawImageParams) (e : Nat) : params.rowBytes e ≤ params.lineBytes e :=
  ByteRange.le_alignUp (by decide) _

theorem strideYMultiplier_pos (h : ownIsValidCreateParams params = true) : 1 ≤ params.strideYMultiplier.toNat := by
  unfold RawImageParams.strideYMultiplier
  split
  · exact (ownIsValidCreateParams_spec h).2.2.1
  · exact Nat.le_refl _

theorem tivxAlign_toNat (v : UInt32) : (tivxAlign v defaultStrideYAlign).toNat = (v.toNat + 15) % 2 ^ 32 / 16 * 16 := by
  simp only [tivxAlign, defaultStrideYAlign, UInt32.toNat_mul, UInt32.toNat_div, UInt32.toNat_add, UInt32.reduceToNat,
    UInt32.reduceSub]
  omega

/-- The line of an exposure as 32 bits compute it. -/
theorem strideY_toNat (e : Nat) : (params.addressing e).strideY.toNat =
    (if (params.format e).pixelContainer = rawImageP12Bit then
        ByteRange.alignUp 16 ((12 * params.width.toNat + 7) % 2 ^ 32 / 8)
      else (params.rowBytes e % 2 ^ 32 + 15) % 2 ^ 32 / 16 * 16) * params.strideYMultiplier.toNat % 2 ^ 32 := by
  unfold RawImageParams.addressing
  simp only []
  by_cases hp : (params.format e).pixelContainer = rawImageP12Bit
  · simp only [hp, ne_eq, not_true, if_false, if_true, UInt32.toNat_mul, tivxAlign_toNat, UInt32.toNat_div, UInt32.toNat_add,
      UInt32.reduceToNat, ByteRange.alignUp]
    have h1 : (params.width.toNat * 12 % 2 ^ 32 + 7) % 2 ^ 32 = (12 * params.width.toNat + 7) % 2 ^ 32 := by
      rw [Nat.mod_add_mod, Nat.mul_comm]
    have h2 : (12 * params.width.toNat + 7) % 2 ^ 32 < 2 ^ 32 := Nat.mod_lt _ (by decide)
    rw [h1, Nat.mod_eq_of_lt (b := 2 ^ 32) (a := (12 * params.width.toNat + 7) % 2 ^ 32 / 8 + 15) (by omega)]
  · simp only [hp, ne_eq, not_false_eq_true, if_true, if_false, UInt32.toNat_mul, tivxAlign_toNat, RawImageParams.rowBytes]
    congr 2
    split
    · simp only [UInt32.toNat_one, Nat.mul_one]
    · simp only [UInt32.reduceToNat, Nat.mul_comm]

/-- A packed row whose bits are counted in 32 bits is what its stride is computed from. -/
theorem rowFits_of_strideY (h : ownIsValidCreateParams params = true) {e : Nat}
    (he : (params.addressing e).strideY.toNat = params.stride e) : params.rowFits e := by
  intro hp
  have hm := strideYMultiplier_pos h
  rw [strideY_toNat, if_pos hp] at he
  have hrow : params.rowBytes e = (12 * params.width.toNat + 7) / 8 := if_pos hp
  refine Nat.lt_of_not_le (fun hge => ?_)
  -- the wrapped line is shorter by a multiple of 2^29
  have hlt : ByteRange.alignUp 16 ((12 * params.width.toNat + 7) % 2 ^ 32 / 8) < params.lineBytes e := by
    have hdiv : ∀ x : Nat, 2 ^ 32 ≤ x → ByteRange.alignUp 16 (x % 2 ^ 32 / 8) < ByteRange.alignUp 16 (x / 8) := by
      intro x hx
      have h8 : x / 8 = x % 2 ^ 32 / 8 + x / 2 ^ 32 * 2 ^ 29 := by omega
      have hq : 1 ≤ x / 2 ^ 32 := by omega
      rw [h8]
      simp only [ByteRange.alignUp]
      omega
    rw [RawImageParams.lineBytes, hrow]
    exact hdiv _ hge
  have h1 := Nat.mod_le (ByteRange.alignUp 16 ((12 * params.width.toNat + 7) % 2 ^ 32 / 8) *
    params.strideYMultiplier.toNat) (2 ^ 32)
  have h2 := Nat.mul_lt_mul_of_pos_right hlt hm
  simp only [RawImageParams.stride] at he
  omega

/-- The stride is that of unbounded arithmetic where that fits. -/
theorem strideY_eq_stride (h : ownIsValidCreateParams params = true) {e : Nat} (hr : params.rowFits e)
    (hs : params.stride e < 2 ^ 32) : (params.addressing e).strideY.toNat = params.stride e := by
  have hm := strideYMultiplier_pos h
  have hle : params.lineBytes e ≤ params.stride e := Nat.le_mul_of_pos_right _ hm
  have hrow := rowBytes_le_lineBytes params e
  rw [strideY_toNat]
  have hline : (if (params.format e).pixelContainer = rawImageP12Bit then
        ByteRange.alignUp 16 ((12 * params.width.toNat + 7) % 2 ^ 32 / 8)
      else (params.rowBytes e % 2 ^ 32 + 15) % 2 ^ 32 / 16 * 16) = params.lineBytes e := by
    split
    · rename_i hp
      rw [Nat.mod_eq_of_lt (hr hp), RawImageParams.lineBytes, RawImageParams.rowBytes, if_pos hp]
    · have hlt : ByteRange.alignUp 16 (params.rowBytes e) < 2 ^ 32 := Nat.lt_of_le_of_lt hle hs
      simp only [ByteRange.alignUp] at hlt
      rw [Nat.mod_eq_of_lt (a := params.rowBytes e) (by omega), Nat.mod_eq_of_lt (by omega)]
      rfl
  rw [hline]
  exact Nat.mod_eq_of_lt hs

end Params

/-! ### What allocation and import give -/

/-- The first line of a part as 32 bits compute it. -/
def RawBuffer.firstLine (params : RawImageParams) : RawBuffer → UInt32
  | .pixel => params.metaHeightBefore
  | .metaBefore => 0
  | .metaAfter => params.metaHeightBefore + params.height

/-- A raw image with its buffers at `host` and the pointers derived from them. -/
structure RawImageBacked (params : RawImageParams) (host : Nat → Nat) (d : RawImageDesc) : Prop where
  params_eq : d.params = params
  addr : d.imagepatchAddr = params.addressing
  size : d.memSize = (ownInitRawImage params).memSize
  mem : ∀ e < params.numExposures.toNat, d.memPtr (d.allocIdx e) = host (d.allocIdx e)
  ptr : ∀ e < params.numExposures.toNat, ∀ b, 0 < RawBuffer.rows params b → b.ptr d e = host (d.allocIdx e) +
    ((params.addressing e).strideY * (b.firstLine params + d.exposureOffset e)).toNat

theorem ownComputePatchOffset_zero (addr : RawPatchAddressing) (y : UInt32) :
    addr.ownComputePatchOffset 0 y = addr.strideY * y := by
  unfold RawPatchAddressing.ownComputePatchOffset
  split <;> simp

/-- Pointers derived from buffers that are there. -/
theorem RawImageBacked.derive {params : RawImageParams} {host mem : Nat → Nat}
    (hmem : ∀ e < params.numExposures.toNat, mem ((ownInitRawImage params).allocIdx e) =
      host ((ownInitRawImage params).allocIdx e)) (hh : ∀ e, host e ≠ 0) :
    RawImageBacked params host (RawImageDesc.ownDeriveRawImageBufferPointers { ownInitRawImage params with memPtr := mem }) := by
  refine ⟨rfl, rfl, rfl, hmem, fun e he b hb => ?_⟩
  have h0 : mem ((ownInitRawImage params).allocIdx e) ≠ 0 := by
    rw [hmem e he]
    exact hh _
  have hline : ∀ line, RawImageDesc.linePtr { ownInitRawImage params with memPtr := mem } e line =
      host ((ownInitRawImage params).allocIdx e) +
        ((params.addressing e).strideY * (line + (ownInitRawImage params).exposureOffset e)).toNat := by
    intro line
    unfold RawImageDesc.linePtr
    refine (if_pos h0).trans ?_
    rw [ownComputePatchOffset_zero]
    exact congrArg (· + _) (hmem e he)
  cases b with
  | pixel => exact (if_pos he).trans (hline _)
  | metaBefore => exact (if_pos he).trans ((if_pos (.inr (UInt32.lt_iff_toNat_lt.2 hb))).trans (hline _))
  | metaAfter => exact (if_pos he).trans ((if_pos (.inr (UInt32.lt_iff_toNat_lt.2 hb))).trans (hline _))

theorem rawImageBacked_alloc (params : RawImageParams) {host : Nat → Nat} (hh : ∀ e, host e ≠ 0) :
    RawImageBacked params host ((ownInitRawImage params).ownAllocRawImageBuffer host) := by
  refine RawImageBacked.derive (fun e he => if_pos ⟨?_, rfl, ?_⟩) hh
  · show (if params.lineInterleaved = true then 0 else e) < params.numExposures.toNat
    split <;> omega
  · show params.lineInterleaved = false ∨ (if params.lineInterleaved = true then 0 else e) = 0
    cases params.lineInterleaved
    · exact .inl rfl
    · exact .inr rfl

theorem rawImageBacked_import (params : RawImageParams) {host : Nat → Nat} (hh : ∀ e, host e ≠ 0) :
    RawImageBacked params host ((ownInitRawImage params).importHandle host) := by
  refine RawImageBacked.derive (fun e he => if_pos ?_) hh
  show (if params.lineInterleaved = true then 0 else e) < params.numExposures.toNat
  split <;> omega

/-! ### Lines of exposures that share a buffer -/

/-- Two exposures of more than a line cannot share a buffer as they are placed. -/
theorem two_interleaved {w r0 r1 : Nat} (hw : 2 ≤ w) (h0 : IsRow w r0) (h1 : IsRow w r1)
    (hlt : ByteRange.alignUp 16 r1 < ByteRange.alignUp 16 r0)
    (h01 : 2 * ByteRange.alignUp 16 r1 + r1 ≤ 2 * ByteRange.alignUp 16 r0 ∨
      2 * ByteRange.alignUp 16 r0 + r0 ≤ 2 * ByteRange.alignUp 16 r1)
    (h11 : 4 * ByteRange.alignUp 16 r1 + r1 ≤ 2 * ByteRange.alignUp 16 r0 ∨
      2 * ByteRange.alignUp 16 r0 + r0 ≤ 4 * ByteRange.alignUp 16 r1) : False := by
  simp only [ByteRange.alignUp] at *
  rcases h0 with rfl | rfl | rfl <;> rcases h1 with rfl | rfl | rfl <;> omega

/-- Where a line of 8 bits fits beside one of 16, it is as long as a packed one. -/
theorem packed_eq_of_half {w : Nat} (hw : 2 ≤ w) (hlt : ByteRange.alignUp 16 w < ByteRange.alignUp 16 (2 * w))
    (hlt' : ByteRange.alignUp 16 ((12 * w + 7) / 8) < ByteRange.alignUp 16 (2 * w))
    (h : 6 * ByteRange.alignUp 16 w + w ≤ 3 * ByteRange.alignUp 16 (2 * w) ∨
      3 * ByteRange.alignUp 16 (2 * w) + 2 * w ≤ 6 * ByteRange.alignUp 16 w) :
    ByteRange.alignUp 16 w = ByteRange.alignUp 16 ((12 * w + 7) / 8) := by
  simp only [ByteRange.alignUp] at *
  obtain ⟨h1, h2⟩ : 16 < w ∧ w ≤ 24 := by omega
  interval_cases w <;> omega

/-- Nor can three. -/
theorem three_interleaved {w r0 r1 r2 : Nat} (hw : 2 ≤ w) (h0 : IsRow w r0) (h1 : IsRow w r1) (h2 : IsRow w r2)
    (hlt : ByteRange.alignUp 16 r1 < ByteRange.alignUp 16 r0) (hlt' : ByteRange.alignUp 16 r2 < ByteRange.alignUp 16 r0)
    (h01 : 6 * ByteRange.alignUp 16 r1 + r1 ≤ 3 * ByteRange.alignUp 16 r0 ∨
      3 * ByteRange.alignUp 16 r0 + r0 ≤ 6 * ByteRange.alignUp 16 r1)
    (h02 : 6 * ByteRange.alignUp 16 r2 + r2 ≤ 3 * ByteRange.alignUp 16 r0 ∨
      3 * ByteRange.alignUp 16 r0 + r0 ≤ 6 * ByteRange.alignUp 16 r2)
    (h12 : 6 * ByteRange.alignUp 16 r1 + r1 ≤ 6 * ByteRange.alignUp 16 r2 ∨
      6 * ByteRange.alignUp 16 r2 + r2 ≤ 6 * ByteRange.alignUp 16 r1) : False := by
  have p1 := h1.pos hw
  have p2 := h2.pos hw
  have hne : ByteRange.alignUp 16 r1 ≠ ByteRange.alignUp 16 r2 := by
    intro he
    rw [he] at h12
    omega
  rcases h0 with rfl | rfl | rfl <;> rcases h1 with rfl | rfl | rfl <;> rcases h2 with rfl | rfl | rfl <;>
    first
      | exact absurd rfl hne
      | exact absurd hlt (Nat.lt_irrefl _)
      | exact absurd hlt' (Nat.lt_irrefl _)
      | exact hne (packed_eq_of_half hw hlt hlt' h01)
      | exact hne (packed_eq_of_half hw hlt' hlt h02).symm
      | (simp only [ByteRange.alignUp] at *; omega)

section Backed

variable {d : RawImageDesc} {host : Nat → Nat}

/-- The place of an exposure among the lines of its buffer. -/
theorem exposureOffset_toNat {e : Nat} (he : e < 3) :
    (d.exposureOffset e).toNat = if d.params.lineInterleaved then e else 0 := by
  unfold RawImageDesc.exposureOffset
  split
  · exact UInt32.toNat_ofNat_of_lt' (Nat.lt_trans he (by decide))
  · rfl

theorem firstLine_add_rows_le (params : RawImageParams) (b : RawBuffer) :
    params.firstLine b + RawBuffer.rows params b ≤ params.lines := by
  cases b <;> simp only [RawImageParams.firstLine, RawBuffer.rows, RawImageParams.lines] <;> omega

/-- Each line is a row of one part. -/
theorem exists_row (params : RawImageParams) {j : Nat} (hj : j < params.lines) :
    ∃ b, ∃ y < RawBuffer.rows params b, params.firstLine b + y = j := by
  simp only [RawImageParams.lines] at hj
  by_cases h1 : j < params.metaHeightBefore.toNat
  · exact ⟨.metaBefore, j, h1, by simp [RawImageParams.firstLine]⟩
  · by_cases h2 : j < params.metaHeightBefore.toNat + params.height.toNat
    · exact ⟨.pixel, j - params.metaHeightBefore.toNat, by simp only [RawBuffer.rows]; omega,
        by simp only [RawImageParams.firstLine]; omega⟩
    · exact ⟨.metaAfter, j - (params.metaHeightBefore.toNat + params.height.toNat), by simp only [RawBuffer.rows]; omega,
        by simp only [RawImageParams.firstLine]; omega⟩

/-- Different rows of an exposure are different lines. -/
theorem firstLine_add_inj (params : RawImageParams) {b c : RawBuffer} {y z : Nat} (hy : y < RawBuffer.rows params b)
    (hz : z < RawBuffer.rows params c) (h : params.firstLine b + y = params.firstLine c + z) : b = c ∧ y = z := by
  cases b <;> cases c <;> simp only [RawImageParams.firstLine, RawBuffer.rows] at hy hz h <;>
    first
      | exact ⟨rfl, by omega⟩
      | omega

/-- The sizes are exact where the strides, the buffers and the places fit. -/
theorem rawSizesExact (hv : ownIsValidCreateParams d.params = true) (B : RawImageBacked d.params host d)
    (hstride : ∀ e < d.params.numExposures.toNat, d.params.rowFits e ∧ d.params.stride e < 2 ^ 32)
    (hsize : ∀ e < d.params.numExposures.toNat, d.params.lines * d.params.stride (d.allocIdx e) < 2 ^ 32)
    (hplace : ∀ e < d.params.numExposures.toNat, ∀ b, 0 < RawBuffer.rows d.params b →
      (d.params.firstLine b + (d.exposureOffset e).toNat) * d.params.stride e < 2 ^ 32) : RawSizesExact d := by
  obtain ⟨hw, _, hn, hn3⟩ := ownIsValidCreateParams_spec hv
  have hY : ∀ e < d.params.numExposures.toNat, (d.params.addressing e).strideY.toNat = d.params.stride e :=
    fun e he => strideY_eq_stride hv (hstride e he).1 (hstride e he).2
  have hpos : ∀ e, 0 < d.params.stride e := fun e =>
    Nat.mul_pos (Nat.lt_of_lt_of_le (Nat.lt_of_lt_of_le (by omega) ((isRow_rowBytes _ e).pos hw).1)
      (rowBytes_le_lineBytes _ e)) (strideYMultiplier_pos hv)
  have halloc : ∀ e < d.params.numExposures.toNat, d.allocIdx e < d.params.numExposures.toNat := by
    intro e he
    unfold RawImageDesc.allocIdx
    split <;> omega
  have hlines : d.params.lines < 2 ^ 32 :=
    Nat.lt_of_le_of_lt (Nat.le_mul_of_pos_right _ (hpos _)) (hsize 0 (by omega))
  have hl := hlines
  simp only [RawImageParams.lines] at hl
  refine ⟨fun e he => by rw [B.addr]; exact hY e he, fun e he => ?_, fun e he b hb => ?_⟩
  · have h0 : (d.params.lineInterleaved && decide (0 < d.allocIdx e)) = false := by
      unfold RawImageDesc.allocIdx
      cases d.params.lineInterleaved <;> rfl
    have hs := hsize e he
    rw [B.size]
    simp only [ownInitRawImage, h0, Bool.false_eq_true, if_false, UInt32.toNat_mul, UInt32.toNat_add]
    rw [hY _ (halloc e he), Nat.mod_eq_of_lt (a := _ + d.params.metaHeightAfter.toNat) (by omega), Nat.mod_eq_of_lt hl,
      Nat.mul_comm]
    exact Nat.mod_eq_of_lt hs
  · have hb' := firstLine_add_rows_le d.params b
    have hE := exposureOffset_toNat (d := d) (Nat.lt_of_lt_of_le he hn3)
    have hf : (b.firstLine d.params).toNat = d.params.firstLine b := by
      cases b with
      | pixel => rfl
      | metaBefore => rfl
      | metaAfter =>
        simp only [RawBuffer.firstLine, UInt32.toNat_add, RawImageParams.firstLine]
        exact Nat.mod_eq_of_lt (by omega)
    have hp := hplace e he b hb
    have hadd : d.params.firstLine b + (d.exposureOffset e).toNat < 2 ^ 32 :=
      Nat.lt_of_le_of_lt (Nat.le_mul_of_pos_right _ (hpos e)) hp
    rw [B.ptr e he b hb, B.mem e he, UInt32.toNat_mul, UInt32.toNat_add, hY e he, hf, Nat.mod_eq_of_lt hadd, Nat.mul_comm,
      Nat.mod_eq_of_lt hp]

/-- A row of a part is a line of its buffer. -/
theorem RawSizesExact.rowRange (h : RawSizesExact d) {e : Nat} (he : e < d.params.numExposures.toNat) {b : RawBuffer} {y : Nat}
    (hy : y < RawBuffer.rows d.params b) : d.rowRange e b y = .row (d.memPtr (d.allocIdx e)) (d.params.stride e)
      (d.params.rowBytes e) (d.params.firstLine b + y + (d.exposureOffset e).toNat) := by
  simp only [RawImageDesc.rowRange, ByteRange.row, h.stride e he, h.place e he b (Nat.zero_lt_of_lt hy), ByteRange.mk.injEq,
    and_true]
  ring

/-- Buffers that are not shared do not overlap. -/
def BuffersApart (params : RawImageParams) (host : Nat → Nat) : Prop :=
  params.lineInterleaved = false → ∀ e < params.numExposures.toNat, ∀ f < params.numExposures.toNat, e ≠ f →
    (ByteRange.mk (host e) ((ownInitRawImage params).memSize e).toNat).Apart
      ⟨host f, ((ownInitRawImage params).memSize f).toNat⟩

/-- Exposures at the first line of their own buffers. -/
theorem laidOut_of_exact (B : RawImageBacked d.params host d) (hb : BuffersApart d.params host)
    (hx : RawSizesExact d) (hE : ∀ e < d.params.numExposures.toNat, (d.exposureOffset e).toNat = 0)
    (hA : ∀ e < d.params.numExposures.toNat, d.allocIdx e = e)
    (hle : ∀ e, d.params.rowBytes e ≤ d.params.stride e)
    (hone : d.params.lineInterleaved = true → d.params.numExposures.toNat ≤ 1) : RawImageLaidOut d := by
  have hrow : ∀ e < d.params.numExposures.toNat, ∀ b, ∀ y < RawBuffer.rows d.params b,
      d.rowRange e b y = .row (host e) (d.params.stride e) (d.params.rowBytes e) (d.params.firstLine b + y) := by
    intro e he b y hy
    rw [hx.rowRange he hy, hE e he, B.mem e he, hA e he, Nat.add_zero]
  have hbuf : ∀ e < d.params.numExposures.toNat, d.bufferRange e = ⟨host e, d.params.lines * d.params.stride e⟩ := by
    intro e he
    rw [RawImageDesc.bufferRange, hx.size e he, B.mem e he, hA e he]
  have hin : ∀ e < d.params.numExposures.toNat, ∀ b, ∀ y < RawBuffer.rows d.params b,
      (d.rowRange e b y).Inside (d.bufferRange e) := by
    intro e he b y hy
    rw [hrow e he b y hy, hbuf e he]
    have := firstLine_add_rows_le d.params b
    exact ByteRange.row_inside _ (hle e) (by omega)
  refine ⟨hin, fun e he f hf b c y hy z hz hne => ?_, hx⟩
  by_cases hef : e = f
  · subst hef
    rw [hrow e he b y hy, hrow e he c z hz]
    refine ByteRange.row_apart _ (hle e) (fun hl => hne ?_)
    obtain ⟨rfl, rfl⟩ := firstLine_add_inj d.params hy hz hl
    rfl
  · have hni : d.params.lineInterleaved = false := by
      cases hi : d.params.lineInterleaved with
      | false => rfl
      | true =>
        have := hone hi
        omega
    refine ByteRange.Apart.mono ?_ (hin e he b y hy) (hin f hf c z hz)
    have := hb hni e he f hf hef
    rwa [RawImageDesc.bufferRange, RawImageDesc.bufferRange, B.mem e he, B.mem f hf, hA e he, hA f hf, B.size]

theorem laidOut_of_fits (hv : ownIsValidCreateParams d.params = true) (B : RawImageBacked d.params host d)
    (hb : BuffersApart d.params host) (hf : d.params.fits) : RawImageLaidOut d := by
  obtain ⟨hw, hh, hn, hn3⟩ := ownIsValidCreateParams_spec hv
  by_cases hc : d.params.lineInterleaved = true ∧ 1 < d.params.numExposures.toNat
  · -- one line of each of two exposures
    rw [RawImageParams.fits, if_pos hc] at hf
    obtain ⟨hn2, hT, hr0, hr1, hmax, hle⟩ := hf
    have hmult : d.params.strideYMultiplier.toNat = 2 := by rw [RawImageParams.strideYMultiplier, if_pos hc.1, hn2]
    have hS : ∀ e, d.params.stride e = 2 * d.params.lineBytes e := fun e => by
      rw [RawImageParams.stride, hmult, Nat.mul_comm]
    have hA : ∀ e, d.allocIdx e = 0 := fun e => if_pos hc.1
    have hE : ∀ e < 2, (d.exposureOffset e).toNat = e := fun e he => by
      rw [exposureOffset_toNat (by omega), if_pos hc.1]
    have hT' := hT
    simp only [RawImageParams.lines] at hT'
    have honly : ∀ b, 0 < RawBuffer.rows d.params b → b = .pixel := by
      intro b hb
      cases b <;> simp only [RawBuffer.rows] at hb <;> first | rfl | omega
    have hfirst : d.params.firstLine .pixel = 0 := by simp only [RawImageParams.firstLine]; omega
    have hx : RawSizesExact d := by
      refine rawSizesExact hv B (fun e he => ?_) (fun e _ => ?_) (fun e he b hb => ?_)
      · obtain rfl | rfl : e = 0 ∨ e = 1 := by omega
        · exact ⟨hr0, by rw [hS]; omega⟩
        · exact ⟨hr1, by rw [hS]; omega⟩
      · rw [hA, hT, hS]
        omega
      · rw [honly b hb, hfirst, hE e (by omega), hS]
        obtain rfl | rfl : e = 0 ∨ e = 1 := by omega
        · omega
        · omega
    have hrow : ∀ e < 2, ∀ b, ∀ y < RawBuffer.rows d.params b, b = .pixel ∧ y = 0 ∧
        d.rowRange e b y = ⟨host 0 + e * d.params.stride e, d.params.rowBytes e⟩ := by
      intro e he b y hy
      obtain rfl := honly b (by omega)
      obtain rfl : y = 0 := by simp only [RawBuffer.rows] at hy; omega
      refine ⟨rfl, rfl, ?_⟩
      rw [hx.rowRange (by omega) hy, hE e he, B.mem e (by omega), hA, hfirst, Nat.zero_add]
      rfl
    have hp0 := (isRow_rowBytes d.params 0).pos hw
    have hp1 := (isRow_rowBytes d.params 1).pos hw
    have hl0 := rowBytes_le_lineBytes d.params 0
    have hl1 := rowBytes_le_lineBytes d.params 1
    have hap : (ByteRange.mk (host 0 + 0 * d.params.stride 0) (d.params.rowBytes 0)).Apart
        ⟨host 0 + 1 * d.params.stride 1, d.params.rowBytes 1⟩ := by
      refine .inl ?_
      simp only [ByteRange.stop, hS]
      omega
    refine ⟨fun e he b y hy => ?_, fun e he f hf b c y hy z hz hne => ?_, hx⟩
    · rw [(hrow e (by omega) b y hy).2.2, RawImageDesc.bufferRange, hx.size e he, B.mem e he, hA, hT, hS, hS]
      obtain rfl | rfl : e = 0 ∨ e = 1 := by omega
      · exact ⟨by simp only []; omega, by simp only [ByteRange.stop]; omega⟩
      · exact ⟨by simp only []; omega, by simp only [ByteRange.stop]; omega⟩
    · obtain ⟨rfl, rfl, h1⟩ := hrow e (by omega) b y hy
      obtain ⟨rfl, rfl, h2⟩ := hrow f (by omega) c z hz
      rw [h1, h2]
      have hef : e ≠ f := fun he => hne (by rw [he])
      obtain ⟨rfl, rfl⟩ | ⟨rfl, rfl⟩ : e = 0 ∧ f = 1 ∨ e = 1 ∧ f = 0 := by omega
      · exact hap
      · exact hap.symm
  · rw [RawImageParams.fits, if_neg hc] at hf
    have hmult : d.params.strideYMultiplier.toNat = 1 := by
      unfold RawImageParams.strideYMultiplier
      split
      · rename_i hi
        have : ¬ 1 < d.params.numExposures.toNat := fun h1 => hc ⟨hi, h1⟩
        omega
      · rfl
    have hS : ∀ e, d.params.stride e = d.params.lineBytes e := fun e => by rw [RawImageParams.stride, hmult, Nat.mul_one]
    have hA : ∀ e < d.params.numExposures.toNat, d.allocIdx e = e := by
      intro e he
      unfold RawImageDesc.allocIdx
      split
      · rename_i hi
        have : ¬ 1 < d.params.numExposures.toNat := fun h1 => hc ⟨hi, h1⟩
        omega
      · rfl
    have hE : ∀ e < d.params.numExposures.toNat, (d.exposureOffset e).toNat = 0 := by
      intro e he
      rw [exposureOffset_toNat (by omega)]
      split
      · rename_i hi
        have : ¬ 1 < d.params.numExposures.toNat := fun h1 => hc ⟨hi, h1⟩
        omega
      · rfl
    have hlines : 1 ≤ d.params.lines := by simp only [RawImageParams.lines]; omega
    have hx : RawSizesExact d := by
      refine rawSizesExact hv B (fun e he => ⟨(hf e he).1, ?_⟩) (fun e he => ?_) (fun e he b hb => ?_)
      · rw [hS]
        exact Nat.lt_of_le_of_lt (Nat.le_mul_of_pos_left _ hlines) (hf e he).2
      · rw [hA e he, hS]
        exact (hf e he).2
      · have := firstLine_add_rows_le d.params b
        rw [hE e he, hS, Nat.add_zero]
        exact Nat.lt_of_le_of_lt (Nat.mul_le_mul_right _ (by omega)) (hf e he).2
    refine laidOut_of_exact B hb hx hE hA (fun e => by rw [hS]; exact rowBytes_le_lineBytes _ e) (fun hi => ?_)
    exact Nat.not_lt.1 (fun h1 => hc ⟨hi, h1⟩)

/-- The lines of exposures that share a buffer. -/
theorem interleaved_lines (h : RawImageLaidOut d) (hi : d.params.lineInterleaved = true)
    (hn3 : d.params.numExposures.toNat ≤ 3) {e j : Nat} (he : e < d.params.numExposures.toNat) (hj : j < d.params.lines) :
    (j + e) * d.params.stride e + d.params.rowBytes e ≤ d.params.lines * d.params.stride 0 ∧
    ∀ f < d.params.numExposures.toNat, ∀ k < d.params.lines, e ≠ f →
      (j + e) * d.params.stride e + d.params.rowBytes e ≤ (k + f) * d.params.stride f ∨
      (k + f) * d.params.stride f + d.params.rowBytes f ≤ (j + e) * d.params.stride e := by
  have hA : ∀ e, d.allocIdx e = 0 := fun e => if_pos hi
  have hE : ∀ e < d.params.numExposures.toNat, (d.exposureOffset e).toNat = e := fun e he => by
    rw [exposureOffset_toNat (by omega), if_pos hi]
  obtain ⟨b, y, hy, rfl⟩ := exists_row d.params hj
  have hin := h.inside e he b y hy
  rw [h.exact.rowRange he hy, hE e he, hA, RawImageDesc.bufferRange, h.exact.size e he, hA] at hin
  refine ⟨?_, fun f hf k hk hef => ?_⟩
  · have := hin.2
    simp only [ByteRange.stop, ByteRange.row] at this
    omega
  · obtain ⟨c, z, hz, rfl⟩ := exists_row d.params hk
    have hap := h.apart e he f hf b c y hy z hz (fun heq => hef (Prod.mk.inj heq).1)
    rw [h.exact.rowRange he hy, h.exact.rowRange hf hz, hE e he, hE f hf, hA, hA] at hap
    simp only [ByteRange.Apart, ByteRange.stop, ByteRange.row] at hap
    omega

/-- An exposure after the first has shorter lines. -/
theorem lineBytes_lt (hv : ownIsValidCreateParams d.params = true) (h : RawImageLaidOut d)
    (hi : d.params.lineInterleaved = true) {e : Nat} (he : e < d.params.numExposures.toNat) (h1 : 1 ≤ e) :
    d.params.lineBytes e < d.params.lineBytes 0 := by
  obtain ⟨hw, hh, _, hn3⟩ := ownIsValidCreateParams_spec hv
  have hT : 1 ≤ d.params.lines := by simp only [RawImageParams.lines]; omega
  have hr := ((isRow_rowBytes d.params e).pos hw).1
  have hin := (interleaved_lines h hi hn3 he (j := d.params.lines - 1) (by omega)).1
  refine Nat.lt_of_not_le (fun hge => ?_)
  have hS : d.params.stride 0 ≤ d.params.stride e := Nat.mul_le_mul_right _ hge
  have : d.params.lines * d.params.stride 0 ≤ (d.params.lines - 1 + e) * d.params.stride e :=
    Nat.mul_le_mul (by omega) hS
  omega

theorem fits_of_laidOut (hv : ownIsValidCreateParams d.params = true) (B : RawImageBacked d.params host d)
    (h : RawImageLaidOut d) : d.params.fits := by
  obtain ⟨hw, hh, hn, hn3⟩ := ownIsValidCreateParams_spec hv
  have hfit : ∀ e < d.params.numExposures.toNat, d.params.rowFits e := fun e he =>
    rowFits_of_strideY hv (by rw [← h.exact.stride e he, B.addr])
  have hsize : ∀ e < d.params.numExposures.toNat, d.params.lines * d.params.stride (d.allocIdx e) < 2 ^ 32 := by
    intro e he
    rw [← h.exact.size e he]
    exact UInt32.toNat_lt _
  unfold RawImageParams.fits
  split
  · rename_i hc
    have hT : 1 ≤ d.params.lines := by simp only [RawImageParams.lines]; omega
    have hmult : d.params.strideYMultiplier.toNat = d.params.numExposures.toNat := by
      rw [RawImageParams.strideYMultiplier, if_pos hc.1]
    have hline := @interleaved_lines d h hc.1 hn3
    have hlt1 := lineBytes_lt hv h hc.1 (e := 1) (by omega) (Nat.le_refl _)
    have hrow := fun e => isRow_rowBytes d.params e
    obtain hn2 | hn2 : d.params.numExposures.toNat = 2 ∨ d.params.numExposures.toNat = 3 := by omega
    · have hS : ∀ e, d.params.stride e = 2 * d.params.lineBytes e := fun e => by
        rw [RawImageParams.stride, hmult, hn2, Nat.mul_comm]
      have hT1 : d.params.lines = 1 := by
        refine Classical.byContradiction (fun hne => two_interleaved hw (hrow 0) (hrow 1) hlt1 ?_ ?_)
        · have := (hline (e := 1) (j := 0) (by omega) (by omega)).2 0 (by omega) 1 (by omega) (by decide)
          simp only [hS, RawImageParams.lineBytes] at this
          omega
        · have := (hline (e := 1) (j := 1) (by omega) (by omega)).2 0 (by omega) 1 (by omega) (by decide)
          simp only [hS, RawImageParams.lineBytes] at this
          omega
      have h0 := hsize 0 (by omega)
      have h1 := (hline (e := 1) (j := 0) (by omega) (by omega)).1
      have hA : d.allocIdx 0 = 0 := if_pos hc.1
      rw [hA] at h0
      simp only [hS, hT1] at h0 h1
      exact ⟨hn2, hT1, hfit 0 (by omega), hfit 1 (by omega), by omega, by omega⟩
    · -- three exposures share no buffer
      have hS : ∀ e, d.params.stride e = 3 * d.params.lineBytes e := fun e => by
        rw [RawImageParams.stride, hmult, hn2, Nat.mul_comm]
      have hlt2 := lineBytes_lt hv h hc.1 (e := 2) (by omega) (by decide)
      exfalso
      by_cases hT1 : d.params.lines = 1
      · have h2 := (hline (e := 2) (j := 0) (by omega) (by omega)).1
        have p0 := (hrow 0).pos hw
        have p2 := (hrow 2).pos hw
        have q2 := rowBytes_le_lineBytes d.params 2
        have q0 : d.params.lineBytes 0 ≤ 2 * d.params.lineBytes 2 := by
          simp only [RawImageParams.lineBytes, ByteRange.alignUp]
          omega
        simp only [hS, hT1] at h2
        omega
      · refine three_interleaved hw (hrow 0) (hrow 1) (hrow 2) hlt1 hlt2 ?_ ?_ ?_
        · have := (hline (e := 1) (j := 1) (by omega) (by omega)).2 0 (by omega) 1 (by omega) (by decide)
          simp only [hS, RawImageParams.lineBytes] at this
          omega
        · have := (hline (e := 2) (j := 0) (by omega) (by omega)).2 0 (by omega) 1 (by omega) (by decide)
          simp only [hS, RawImageParams.lineBytes] at this
          omega
        · have := (hline (e := 1) (j := 1) (by omega) (by omega)).2 2 (by omega) 0 (by omega) (by decide)
          simp only [hS, RawImageParams.lineBytes] at this
          omega
  · rename_i hc
    intro e he
    have hone : d.params.lineInterleaved = true → d.params.numExposures.toNat ≤ 1 :=
      fun hi => Nat.not_lt.1 (fun h1 => hc ⟨hi, h1⟩)
    have hA : d.allocIdx e = e := by
      unfold RawImageDesc.allocIdx
      split
      · rename_i hi
        have := hone hi
        omega
      · rfl
    have hs := hsize e he
    rw [hA] at hs
    have hm := strideYMultiplier_pos hv
    exact ⟨hfit e he, Nat.lt_of_le_of_lt (Nat.mul_le_mul_left _ (Nat.le_mul_of_pos_right _ hm)) hs⟩

end Backed

/-- **The rows of a raw image are in its buffers and apart exactly when its parameters fit**, after allocation and after
import. -/
theorem rawImageLaidOut_iff (params : RawImageParams) (hv : ownIsValidCreateParams params = true) (host : Nat → Nat)
    (hh : ∀ e, host e ≠ 0) (hb : BuffersApart params host) (d : RawImageDesc)
    (hd : d = (ownInitRawImage params).ownAllocRawImageBuffer host ∨ d = (ownInitRawImage params).importHandle host) :
    RawImageLaidOut d ↔ params.fits := by
  have B : RawImageBacked params host d := by
    rcases hd with rfl | rfl
    · exact rawImageBacked_alloc params hh
    · exact rawImageBacked_import params hh
  obtain rfl := B.params_eq
  exact ⟨fits_of_laidOut hv B, laidOut_of_fits hv B hb⟩

/-- A raw image of a size with formats of the containers given, 12 bits used. -/
def rawImageParams (width height numExposures : UInt32) (lineInterleaved : Bool) (container : Nat → UInt32) : RawImageParams :=
  ⟨width, height, numExposures, lineInterleaved, fun e => ⟨container e, 11⟩, 1, 1⟩

/-- Two exposures of 16 bits with a line of meta data before and after, in buffers of their own. -/
theorem rawImageLaidOut_two : RawImageLaidOut
    ((ownInitRawImage (rawImageParams 1280 720 2 false (fun _ => rawImage16Bit))).ownAllocRawImageBuffer
      (fun e => 0x10000000 + e * 0x1000000)) := by
  refine (rawImageLaidOut_iff _ (by decide) _ (fun e => by omega) ?_ _ (.inl rfl)).2 (by decide +kernel)
  intro _ e he f hf hef
  have he' : e < 2 := he
  have hf' : f < 2 := hf
  obtain ⟨rfl, rfl⟩ | ⟨rfl, rfl⟩ : e = 0 ∧ f = 1 ∨ e = 1 ∧ f = 0 := by omega
  · decide +kernel
  · decide +kernel

/-- Line interleaved, row 0 of the second exposure is row 1 of the first, and its last row is past the end of the buffer. -/
theorem interleaved_overlap : ownIsValidCreateParams (rawImageParams 1280 720 2 true (fun _ => rawImage16Bit)) = true ∧
    let d := (ownInitRawImage (rawImageParams 1280 720 2 true (fun _ => rawImage16Bit))).ownAllocRawImageBuffer
      (fun _ => 0x10000000)
    d.rowRange 1 .pixel 0 = d.rowRange 0 .pixel 1 ∧ ¬ (d.rowRange 1 .metaAfter 0).Inside (d.bufferRange 1) ∧
      ¬ RawImageLaidOut d := by
  refine ⟨by decide +kernel, by decide +kernel, by decide +kernel, fun h => ?_⟩
  exact absurd (h.inside 1 (by decide) .metaAfter 0 (by decide)) (by decide +kernel)

end Tiovx
