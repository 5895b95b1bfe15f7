import Mathlib.Tactic.Common
import Mathlib.Tactic.IntervalCases
import Tiovx.Lib.ByteGrid
import Tiovx.Lib.TwelveBits
import Tiovx.ImageCopy
/-!
# UniformImage — filling an image with one pixel value (`vx_image.c`)

`vxCreateUniformImage` maps each plane of a new image and writes the elements one after the other, those of packed planes in
pairs.  Which components of the value are written is told by the format, the plane and the parity of the column.
-/
namespace Tiovx

open ByteRange (alignUp)

/-- The bytes of `vx_pixel_value_t`. -/
abbrev PixelValue := Nat → UInt8

namespace PixelValue

/-- `RGBX`, of which `RGB` has the first three. -/
def RGBX (value : PixelValue) (i : Nat) : UInt8 := value i

def YUV (value : PixelValue) (i : Nat) : UInt8 := value i

/-- `U16`, and the first of `YUV_12`. -/
def half (value : PixelValue) (i : Nat) : UInt16 := (value (2 * i)).toUInt16 ||| (value (2 * i + 1)).toUInt16 <<< 8

def U16 (value : PixelValue) : UInt16 := value.half 0

def YUV_12 (value : PixelValue) (i : Nat) : UInt16 := value.half i

/-- What is written at the address of the element at column `x`; integers with their low byte first. -/
def pixelBytes (value : PixelValue) (format : DfImage) (p : Nat) (x : UInt32) : List UInt8 :=
  match format with
  | .u8 => [value 0]
  | .rgb565 | .u16 | .s16 => [value 0, value 1]
  | .u32 | .s32 => [value 0, value 1, value 2, value 3]
  | .rgb => [value.RGBX 0, value.RGBX 1, value.RGBX 2]
  | .rgbx | .rgba | .bgrx => [value.RGBX 0, value.RGBX 1, value.RGBX 2, value.RGBX 3]
  | .yuv4 | .iyuv => [value.YUV p]
  | .nv12 => if p = 0 then [value.YUV 0] else [value.YUV 1, value.YUV 2]
  | .nv21 => if p = 0 then [value.YUV 0] else [value.YUV 2, value.YUV 1]
  | .uyvy => if x % 2 = 0 then [value.YUV 1, value.YUV 0] else [value.YUV 2, value.YUV 0]
  | .yuyv => if x % 2 = 0 then [value.YUV 0, value.YUV 1] else [value.YUV 0, value.YUV 2]
  | .p12 | .nv12P12 | .virt => []

/-- `value_b0`, `value_b1` and `value_b2` of a packed plane. -/
def packedBytes (value : PixelValue) (format : DfImage) (p : Nat) : List UInt8 :=
  let pixel := if format = .p12 then fun _ => value.U16 else value.YUV_12
  let mask : UInt16 := 0x0FFF
  let value0 := (if p = 0 then pixel 0 else pixel 1) &&& mask
  let value1 := if p = 0 then value0 else pixel 2 &&& mask
  [(value0 &&& 0xFF).toUInt8, (value0 >>> 8).toUInt8 ||| ((value1 &&& 0x0F) <<< 4).toUInt8, (value1 >>> 4).toUInt8]

/-- The bytes from an address on. -/
def writesAt (ptr : Int) (bytes : List UInt8) : List (Int × UInt8) := bytes.zipIdx.map (fun (b, i) => (ptr + i, b))

/-- The loops over a plane that is mapped at `base`, unless one does not end. -/
def planeWrites (value : PixelValue) (format : DfImage) (p : Nat) (addr : ImagepatchAddressing) (base : Nat) :
    Option (List (Int × UInt8)) :=
  (loopCount 0 addr.dimY addr.stepY).bind (fun rows =>
    if format = .p12 ∨ format = .nv12P12 then
      (loopCount 0 addr.dimX (addr.stepX * 2)).map (fun columns => (List.range rows).flatMap (fun r =>
        let ptr := vxFormatImagePatchAddress2d base 0 (UInt32.ofNat (r * addr.stepY.toNat)) addr
        (List.range columns).flatMap (fun k => writesAt (ptr + 3 * k : Nat) (value.packedBytes format p))))
    else
      (loopCount 0 addr.dimX addr.stepX).map (fun columns => (List.range rows).flatMap (fun r =>
        (List.range columns).flatMap (fun k =>
          let x := UInt32.ofNat (k * addr.stepX.toNat)
          let ptr := vxFormatImagePatchAddress2d base x (UInt32.ofNat (r * addr.stepY.toNat)) addr
          writesAt ptr (value.pixelBytes format p x)))))

end PixelValue

/-- The planes one after the other; `none` is a loop that does not end. -/
def PatchImage.writePlanes (I : PatchImage) (value : PixelValue) : List Nat → ByteMem → Except PatchError (Option ByteMem)
  | [], m => .ok (some m)
  | p :: rest, m =>
    (I.vxMapImagePatch ⟨0, 0, I.desc.width, I.desc.height⟩ p .writeOnly).bind (fun (addr, base) =>
      match value.planeWrites I.desc.format p addr base with
      | none => .ok none
      | some writes => I.writePlanes value rest (writes.foldl ByteMem.set m))

/-- What `vxCreateUniformImage` does with the memory of the image that it has created. -/
def ImageDesc.fill (d : ImageDesc) (value : PixelValue) (m : ByteMem) : Except PatchError (Option ByteMem) :=
  PatchImage.writePlanes ⟨d, .normal, false, false, true⟩ value (List.range d.planes) m

/-! ### What the image is meant to be -/

/-- The components of a value: colours, luma and chroma, and the bytes of integers. -/
inductive PixelComponent
  | r | g | b | x | y | u | v
  | byte (i : Nat)

/-- `RGBX` is in the R,G,B,X order, `YUV` in the Y,U,V order. -/
def PixelValue.component (value : PixelValue) : PixelComponent → UInt8
  | .r => value.RGBX 0
  | .g => value.RGBX 1
  | .b => value.RGBX 2
  | .x => value.RGBX 3
  | .y => value.YUV 0
  | .u => value.YUV 1
  | .v => value.YUV 2
  | .byte i => value i

open PixelComponent in
/-- The component of each byte of the element at column `x`. -/
def DfImage.components (format : DfImage) (p x : Nat) : List PixelComponent :=
  match format with
  | .u8 => [byte 0]
  | .rgb565 | .u16 | .s16 => [byte 0, byte 1]
  | .u32 | .s32 => [byte 0, byte 1, byte 2, byte 3]
  | .rgb => [r, g, b]
  | .rgbx | .rgba => [r, g, b, .x]
  | .bgrx => [b, g, r, .x]
  | .yuv4 | .iyuv => if p = 0 then [y] else if p = 1 then [u] else [v]
  | .nv12 => if p = 0 then [y] else [u, v]
  | .nv21 => if p = 0 then [y] else [v, u]
  | .uyvy => if x % 2 = 0 then [u, y] else [v, y]
  | .yuyv => if x % 2 = 0 then [y, u] else [y, v]
  | .p12 | .nv12P12 | .virt => []

/-- The samples of a row of a packed plane, and what each of them is. -/
def packedSamples (format : DfImage) (p width : Nat) : Nat :=
  let (channels, step, _) := planeInit format p
  (width + (step.toNat - 1)) / step.toNat * channels.toNat

def PixelValue.packedComponent (value : PixelValue) (format : DfImage) (p s : Nat) : UInt16 :=
  if format = .p12 then value.U16 else if p = 0 then value.YUV_12 0 else if s % 2 = 0 then value.YUV_12 1 else value.YUV_12 2

/-- Each sample is in its plane and has its component, and nothing outside of the planes is written. -/
structure Filled (d : ImageDesc) (value : PixelValue) (m m' : ByteMem) : Prop where
  laidOut : d.LaidOut
  elements : d.format.packed = false → ∀ p < d.planes, ∀ x < d.width.toNat, ∀ y < d.height.toNat,
    (List.range (elementBytes d.format p)).map (fun b : Nat =>
        m' (((d.plane p).hostPtr : Int) + (d.plane p).addr.offset x y + b)) =
      (d.format.components p x).map value.component
  samples : d.format.packed = true → ∀ p < d.planes, ∀ y < d.height.toNat, ∀ s < packedSamples d.format p d.width.toNat,
    TwelveBits.sample m' (((d.plane p).hostPtr : Int) + (d.plane p).addr.offset 0 y) s =
      (value.packedComponent d.format p s).toNat % 4096
  outside : ∀ a, (∀ p < d.planes, ¬ (d.plane p).Holds a 1) → m' a = m a

/-- Where the first and the third byte of a value are exchanged by the format they are equal; a packed row is not one whose last
triple of bytes ends after its stride; and the chroma of a packed row is in one triple. -/
def fillFits (format : DfImage) (width : UInt32) (value : PixelValue) : Prop :=
  (format = .bgrx → value 0 = value 2) ∧ (format = .p12 → width.toNat % 32 ≠ 21) ∧ (format = .nv12P12 → width.toNat ≤ 2)

/-! ### The bytes of an element -/

section Bytes

variable {value : PixelValue} {format : DfImage} {p : Nat}

theorem pixelBytes_length (hp : p < planesOf format) (hn : format.packed = false) (x : UInt32) :
    (value.pixelBytes format p x).length = elementBytes format p := by
  cases format <;> simp only [planesOf] at hp <;> first | exact absurd hn (by decide) | skip
  case virt => exact absurd hp (Nat.not_lt_zero p)
  case nv12 | nv21 | iyuv => interval_cases p <;> rfl
  case uyvy | yuyv =>
    simp only [PixelValue.pixelBytes]
    split <;> rfl
  all_goals rfl

/-- The components are written in the order of the format exactly where it is not BGRX, or blue and red are equal. -/
theorem pixelBytes_eq_iff (hp : p < planesOf format) (x : UInt32) :
    value.pixelBytes format p x = (format.components p x.toNat).map value.component ↔ (format = .bgrx → value 0 = value 2) := by
  have hpar : x % 2 = 0 ↔ x.toNat % 2 = 0 := by
    rw [← UInt32.toNat_inj, UInt32.toNat_mod]
    rfl
  cases format <;> simp only [planesOf] at hp <;> simp only [reduceCtorEq, false_implies, iff_true, true_implies]
  case virt => exact absurd hp (Nat.not_lt_zero p)
  case bgrx =>
    simp only [PixelValue.pixelBytes, PixelValue.RGBX, DfImage.components, List.map_cons, List.map_nil, PixelValue.component]
    constructor
    · intro h
      exact (List.cons.inj h).1
    · intro h
      rw [h]
  case nv12 | nv21 => interval_cases p <;> rfl
  case yuv4 | iyuv => interval_cases p <;> rfl
  case uyvy | yuyv =>
    simp only [PixelValue.pixelBytes, DfImage.components, hpar]
    split <;> rfl
  all_goals rfl

end Bytes

/-! ### The writes of a plane -/

theorem writesAt_eq (ptr : Int) (bytes : List UInt8) :
    PixelValue.writesAt ptr bytes = (List.range bytes.length).map (fun b : Nat => (ptr + b, bytes.getD b 0)) := by
  refine List.ext_getElem (by simp [PixelValue.writesAt]) (fun i h1 h2 => ?_)
  have hi : i < bytes.length := by simpa [PixelValue.writesAt] using h1
  simp [PixelValue.writesAt, hi]

/-- The cells of a plane that are written: its elements, or pairs of samples. -/
def fillGrid (d : ImageDesc) (p : Nat) : ByteGrid :=
  let q := d.plane p
  let step := if d.format.packed then 2 * q.addr.stepX.toNat else q.addr.stepX.toNat
  { base := q.hostPtr
    stride := q.addr.strideY.toUInt32.toNat
    rows := q.addr.rows
    step := if d.format.packed then 3 else q.addr.strideX.toUInt32.toNat
    cells := (q.addr.dimX.toNat + (step - 1)) / step
    bytes := if d.format.packed then 3 else elementBytes d.format p }

/-- The bytes of a cell. -/
def PixelValue.cellBytes (value : PixelValue) (d : ImageDesc) (p k : Nat) : List UInt8 :=
  if d.format.packed then value.packedBytes d.format p
  else value.pixelBytes d.format p (UInt32.ofNat (k * (d.plane p).addr.stepX.toNat))

/-- An image that has been created, with its buffer. -/
structure NewImage (d : ImageDesc) : Prop where
  shape : ImageShape d
  fits : d.Fits
  hasWidth : 0 < d.width.toNat
  hasHeight : 0 < d.height.toNat
  valid : ownIsValidDimensions d.width d.height d.format = true
  strideX : d.format.packed = false → ∀ p, (d.plane p).addr.strideX.toUInt32.toNat = elementBytes d.format p
  strideY : d.format.packed = true → ∀ p, (d.plane p).addr.strideY.toUInt32.toNat = alignUp 16 ((12 * d.width.toNat + 7) / 8)
  bits : d.format.packed = true → 12 * d.width.toNat + 7 < 2 ^ 32
  host : ∀ p < d.planes, (d.plane p).hostPtr ≠ 0
  apart : ∀ p < d.planes, ∀ q < d.planes, p ≠ q → (d.plane p).mem.Apart (d.plane q).mem

namespace NewImage

variable {d : ImageDesc} {p : Nat} {value : PixelValue}

theorem format_eq (N : NewImage d) (hp : p < d.planes) {x y : UInt32} (hx : x.toNat < d.width.toNat)
    (hy : y.toNat < d.height.toNat) :
    vxFormatImagePatchAddress2d (d.plane p).hostPtr x y (d.plane p).addr =
      (d.plane p).hostPtr + (d.plane p).addr.offset x.toNat y.toNat := by
  have hx' : x < (d.plane p).addr.dimX := by rw [N.shape.dimX]; exact UInt32.lt_iff_toNat_lt.2 hx
  have hy' : y < (d.plane p).addr.dimY := by rw [N.shape.dimY]; exact UInt32.lt_iff_toNat_lt.2 hy
  rw [vxFormatImagePatchAddress2d, if_pos ⟨N.host p hp, hx', hy'⟩, (N.fits p hp).laidOut.offset x y hx' hy']

/-- The rows and columns of the loops. -/
theorem loops (N : NewImage d) (hp : p < d.planes) :
    loopCount 0 (d.plane p).addr.dimY (d.plane p).addr.stepY = some (fillGrid d p).rows ∧
      (d.format.packed = true → loopCount 0 (d.plane p).addr.dimX ((d.plane p).addr.stepX * 2) = some (fillGrid d p).cells) ∧
      (d.format.packed = false → loopCount 0 (d.plane p).addr.dimX (d.plane p).addr.stepX = some (fillGrid d p).cells) := by
  have Q := N.fits p hp
  have hx := (d.plane p).addr.dimX.toNat_lt
  have hy := (d.plane p).addr.dimY.toNat_lt
  have hwhole := Q.whole
  have h0 : ∀ x : UInt32, x.toNat - UInt32.toNat 0 = x.toNat := fun x => Nat.sub_zero _
  have hz : ∀ n : Nat, UInt32.toNat 0 + n = n := fun n => Nat.zero_add n
  refine ⟨loopCount_of_lt (by rw [h0]; rfl) ?_, fun hpk => ?_, fun hpk => ?_⟩
  · rw [hz]
    show (d.plane p).addr.rows * _ < _
    rw [Q.rows_eq]
    have := Nat.div_mul_le_self (d.plane p).addr.dimY.toNat (d.plane p).addr.stepY.toNat
    omega
  · have hbits := N.bits hpk
    rw [← N.shape.dimX p] at hbits
    have hstep : ((d.plane p).addr.stepX * 2).toNat = 2 * (d.plane p).addr.stepX.toNat := by
      rcases Q.stepX with h1 | h1 <;> rw [h1] <;> rfl
    have hcells : (fillGrid d p).cells = ((d.plane p).addr.dimX.toNat + (2 * (d.plane p).addr.stepX.toNat - 1)) /
        (2 * (d.plane p).addr.stepX.toNat) := by simp only [fillGrid, hpk, if_true]
    refine loopCount_of_lt (by rw [h0, hstep]; exact hcells) ?_
    rw [hz, hstep, hcells]
    rcases Q.step_cases with ⟨h1, -⟩ | ⟨h1, -⟩ <;> rw [h1] <;> omega
  · have heven := even_width N.valid hp hpk
    rw [← N.shape.stepX p, ← N.shape.dimX p] at heven
    have hcells : (fillGrid d p).cells = ((d.plane p).addr.dimX.toNat + ((d.plane p).addr.stepX.toNat - 1)) /
        (d.plane p).addr.stepX.toNat := by simp only [fillGrid, hpk, Bool.false_eq_true, if_false]
    refine loopCount_of_lt (by rw [h0]; exact hcells) ?_
    rw [hz, hcells]
    rcases Q.step_cases with ⟨h1, -⟩ | ⟨h1, -⟩ <;> rw [h1] at heven ⊢ <;> omega

theorem cellBytes_length (hp : p < d.planes) (k : Nat) :
    (value.cellBytes d p k).length = (fillGrid d p).bytes := by
  by_cases hpk : d.format.packed = true
  · simp only [PixelValue.cellBytes, fillGrid, hpk, if_true]
    rfl
  · simp only [PixelValue.cellBytes, fillGrid, hpk]
    exact pixelBytes_length hp (by simpa using hpk) _

/-- The loops write the cells. -/
theorem planeWrites_eq (N : NewImage d) (hp : p < d.planes) :
    value.planeWrites d.format p (d.plane p).addr (d.plane p).hostPtr =
      some ((fillGrid d p).writes (fun k b => (value.cellBytes d p k).getD b 0)) := by
  have Q := N.fits p hp
  obtain ⟨hrows, hpairs, helements⟩ := N.loops hp
  have hwhole := Q.whole
  have hx := (d.plane p).addr.dimX.toNat_lt
  have hy := (d.plane p).addr.dimY.toNat_lt
  have hspos : 0 < (d.plane p).addr.stepX.toNat := by rcases Q.step_cases with ⟨h1, -⟩ | ⟨h1, -⟩ <;> omega
  have htpos : 0 < (d.plane p).addr.stepY.toNat := by rcases Q.step_cases with ⟨-, h1⟩ | ⟨-, h1⟩ <;> omega
  -- the row of a pass of the outer loop
  have hrow : ∀ r < (fillGrid d p).rows,
      (UInt32.ofNat (r * (d.plane p).addr.stepY.toNat)).toNat = r * (d.plane p).addr.stepY.toNat ∧
      r * (d.plane p).addr.stepY.toNat < d.height.toNat := by
    intro r hr
    have hr' : r < (d.plane p).addr.dimY.toNat / (d.plane p).addr.stepY.toNat := by rw [← Q.rows_eq]; exact hr
    have hlt : r * (d.plane p).addr.stepY.toNat < (d.plane p).addr.dimY.toNat := by
      rw [Nat.lt_div_iff_mul_lt htpos] at hr'
      omega
    rw [N.shape.dimY] at hlt hy
    exact ⟨UInt32.toNat_ofNat_of_lt' (by unfold UInt32.size; omega), hlt⟩
  simp only [PixelValue.planeWrites, hrows, Option.bind_some]
  by_cases hpk : d.format.packed = true
  · rw [if_pos (packed_iff.1 hpk), hpairs hpk, Option.map_some]
    refine congrArg some (List.flatMap_congr (fun r hr => List.flatMap_congr (fun k hk => ?_)))
    obtain ⟨h1, h2⟩ := hrow r (List.mem_range.1 hr)
    have hlen : (value.cellBytes d p k).length = (fillGrid d p).bytes := cellBytes_length hp k
    have hc : value.cellBytes d p k = value.packedBytes d.format p := if_pos hpk
    rw [writesAt_eq, ← hlen]
    simp only [hc]
    refine List.map_congr_left (fun b _ => Prod.ext ?_ rfl)
    have h0 : UInt32.toNat 0 < d.width.toNat := N.hasWidth
    rw [N.format_eq hp h0 (by rw [h1]; exact h2), h1, ImagepatchAddressing.offset, Nat.mul_div_cancel _ htpos]
    have hz : (d.plane p).addr.xOffset (UInt32.toNat 0) = 0 := ImagepatchAddressing.xOffset_zero
    rw [hz]
    simp only [ByteGrid.place, fillGrid, hpk, if_true]
    omega
  · have hn : d.format.packed = false := by simpa using hpk
    rw [if_neg (fun h => hpk (packed_iff.2 h)), helements hn, Option.map_some]
    refine congrArg some (List.flatMap_congr (fun r hr => List.flatMap_congr (fun k hk => ?_)))
    obtain ⟨h1, h2⟩ := hrow r (List.mem_range.1 hr)
    have heven := even_width N.valid hp hn
    rw [← N.shape.stepX p, ← N.shape.dimX p] at heven
    have hk' := List.mem_range.1 hk
    simp only [fillGrid, hn, Bool.false_eq_true, if_false] at hk'
    have hcol : (UInt32.ofNat (k * (d.plane p).addr.stepX.toNat)).toNat = k * (d.plane p).addr.stepX.toNat ∧
        k * (d.plane p).addr.stepX.toNat < d.width.toNat := by
      have hlt : k * (d.plane p).addr.stepX.toNat < (d.plane p).addr.dimX.toNat := by
        rcases Q.step_cases with ⟨h3, -⟩ | ⟨h3, -⟩ <;> rw [h3] at hk' heven ⊢ <;> omega
      rw [N.shape.dimX] at hlt hx
      exact ⟨UInt32.toNat_ofNat_of_lt' (by unfold UInt32.size; omega), hlt⟩
    have hlen : (value.cellBytes d p k).length = (fillGrid d p).bytes := cellBytes_length hp k
    have hc : value.cellBytes d p k = value.pixelBytes d.format p (UInt32.ofNat (k * (d.plane p).addr.stepX.toNat)) := if_neg hpk
    rw [writesAt_eq, ← hlen]
    simp only [hc]
    refine List.map_congr_left (fun b _ => Prod.ext ?_ rfl)
    rw [N.format_eq hp (by rw [hcol.1]; exact hcol.2) (by rw [h1]; exact h2), h1, hcol.1, ImagepatchAddressing.offset,
      Nat.mul_div_cancel _ htpos]
    have hx0 : (d.plane p).addr.strideX ≠ 0 := fun h => hpk ((N.shape.packed p hp).1 h)
    rw [xOffset_bytes hx0, Nat.mul_div_cancel _ hspos]
    simp only [ByteGrid.place, fillGrid, hn, Bool.false_eq_true, if_false]
    omega

/-- The whole buffer is mapped. -/
theorem writePlanes_eq (N : NewImage d) : ∀ (ps : List Nat), (∀ p ∈ ps, p < d.planes) → ∀ m : ByteMem,
    PatchImage.writePlanes ⟨d, .normal, false, false, true⟩ value ps m =
      .ok (some ((ps.flatMap (fun p => (fillGrid d p).writes (fun k b => (value.cellBytes d p k).getD b 0))).foldl ByteMem.set m))
  | [], _, _ => rfl
  | p :: rest, hps, m => by
    have hp := hps p List.mem_cons_self
    have hpos : ∀ {x : UInt32}, 0 < x.toNat → 0 < x := fun h => UInt32.lt_iff_toNat_lt.2 h
    have hcheck : PatchImage.ownCopyAndMapCheckParams ⟨d, .normal, false, false, true⟩ ⟨0, 0, d.width, d.height⟩ p .writeOnly =
        .ok () := by
      simp only [PatchImage.ownCopyAndMapCheckParams]
      rw [if_neg (by decide), if_neg, if_neg (by decide), if_neg (by decide)]
      rintro (h | h | h)
      · omega
      · exact absurd (hpos N.hasHeight) (UInt32.not_lt.2 h)
      · exact absurd (hpos N.hasWidth) (UInt32.not_lt.2 h)
    have hbase : vxFormatImagePatchAddress2d (d.plane p).hostPtr 0 0 (d.plane p).addr = (d.plane p).hostPtr := by
      have h0 : (d.plane p).addr.offset (UInt32.toNat 0) (UInt32.toNat 0) = 0 := by
        show (d.plane p).addr.offset 0 0 = 0
        rw [ImagepatchAddressing.offset, ImagepatchAddressing.xOffset_zero, Nat.zero_div, Nat.mul_zero]
      have hw : UInt32.toNat 0 < d.width.toNat := N.hasWidth
      have hh : UInt32.toNat 0 < d.height.toNat := N.hasHeight
      rw [N.format_eq hp hw hh, h0, Nat.add_zero]
    have haddr : { (d.plane p).addr with
        dimX := VxRectangle.width ⟨0, 0, d.width, d.height⟩, dimY := VxRectangle.height ⟨0, 0, d.width, d.height⟩ } =
        (d.plane p).addr := by
      have h1 : VxRectangle.width ⟨0, 0, d.width, d.height⟩ = (d.plane p).addr.dimX :=
        (UInt32.sub_zero d.width).trans (N.shape.dimX p).symm
      have h2 : VxRectangle.height ⟨0, 0, d.width, d.height⟩ = (d.plane p).addr.dimY :=
        (UInt32.sub_zero d.height).trans (N.shape.dimY p).symm
      rw [h1, h2]
    simp only [PatchImage.writePlanes, map_accepts hcheck (N.host p hp) rfl, Except.bind, haddr, hbase, N.planeWrites_eq hp]
    rw [writePlanes_eq N rest (fun q hq => hps q (List.mem_cons_of_mem p hq)), List.flatMap_cons, List.foldl_append]

/-- The memory after the loops. -/
def filledMem (d : ImageDesc) (value : PixelValue) (m : ByteMem) : ByteMem :=
  ((List.range d.planes).flatMap (fun p => (fillGrid d p).writes (fun k b => (value.cellBytes d p k).getD b 0))).foldl
    ByteMem.set m

theorem fill_eq (N : NewImage d) (m : ByteMem) : d.fill value m = .ok (some (filledMem d value m)) :=
  N.writePlanes_eq _ (fun _ hp => List.mem_range.1 hp) m

theorem fillGrid_holds (N : NewImage d) (hp : p < d.planes) {a : Int} : (fillGrid d p).Holds a ↔ (d.plane p).Holds a 1 := by
  have Q := N.fits p hp
  rw [ByteGrid.Holds, ImagePlane.Holds, Q.size, ← Q.rows_eq]
  exact Iff.rfl

theorem fillGrid_apart (N : NewImage d) (hp : p < d.planes) {q : Nat} (hq : q < d.planes) {a : Int}
    (h1 : (fillGrid d p).Holds a) (h2 : (fillGrid d q).Holds a) : p = q := by
  rw [N.fillGrid_holds hp] at h1
  rw [N.fillGrid_holds hq] at h2
  by_contra hne
  simp only [ImagePlane.Holds] at h1 h2
  rcases N.apart p hp q hq hne with h | h <;> simp only [ByteRange.stop, ImagePlane.mem] at h <;> omega

theorem rows_pos (N : NewImage d) (hp : p < d.planes) : 0 < (fillGrid d p).rows := by
  have Q := N.fits p hp
  have hwhole := Q.whole
  have hh := N.hasHeight
  rw [← N.shape.dimY p] at hh
  show 0 < (d.plane p).addr.rows
  rw [Q.rows_eq]
  rcases Q.step_cases with ⟨-, h2⟩ | ⟨-, h2⟩ <;> rw [h2] at hwhole ⊢ <;> omega

/-- The elements of a row follow each other, and end in it. -/
theorem element_fits (N : NewImage d) (hn : d.format.packed = false) (hp : p < d.planes) :
    (fillGrid d p).Fits ∧ (fillGrid d p).bytes ≤ (fillGrid d p).step := by
  have Q := N.fits p hp
  have hw := N.hasWidth
  have hpk : ¬ d.format.packed = true := by rw [hn]; decide
  have heven := even_width N.valid hp hn
  rw [← N.shape.stepX p, ← N.shape.dimX p] at heven
  rw [← N.shape.dimX p] at hw
  have hrow := Q.row hw
  rw [xOffset_bytes (fun h => hpk ((N.shape.packed p hp).1 h)), N.strideX hn p] at hrow
  have hc : (fillGrid d p).cells = (d.plane p).addr.dimX.toNat / (d.plane p).addr.stepX.toNat := by
    simp only [fillGrid, hn, Bool.false_eq_true, if_false]
    rcases Q.step_cases with ⟨h1, -⟩ | ⟨h1, -⟩ <;> rw [h1] at heven ⊢ <;> omega
  have hcpos : 0 < (fillGrid d p).cells := by
    rw [hc]
    rcases Q.step_cases with ⟨h1, -⟩ | ⟨h1, -⟩ <;> rw [h1] at heven ⊢ <;> omega
  have hc1 : (fillGrid d p).cells - 1 = ((d.plane p).addr.dimX.toNat - 1) / (d.plane p).addr.stepX.toNat := by
    rw [hc]
    rcases Q.step_cases with ⟨h1, -⟩ | ⟨h1, -⟩ <;> rw [h1] at heven ⊢ <;> omega
  have hb : (fillGrid d p).bytes = elementBytes d.format p := by simp only [fillGrid, hn, Bool.false_eq_true, if_false]
  have hs : (fillGrid d p).step = elementBytes d.format p := by
    simp only [fillGrid, hn, Bool.false_eq_true, if_false]
    exact N.strideX hn p
  have hlast : (fillGrid d p).step * ((fillGrid d p).cells - 1) + (fillGrid d p).bytes ≤ (fillGrid d p).stride := by
    rw [hs, hb, hc1]
    exact hrow
  refine ⟨⟨N.rows_pos hp, hcpos, by rw [hb]; exact elementBytes_pos _ _, hlast, ?_⟩, Nat.le_of_eq (hb.trans hs.symm)⟩
  have hsplit : (fillGrid d p).step * (fillGrid d p).cells =
      (fillGrid d p).step * ((fillGrid d p).cells - 1) + (fillGrid d p).step := by
    rw [← Nat.mul_succ, Nat.succ_eq_add_one, Nat.sub_add_cancel hcpos]
  rw [hsplit]
  exact Nat.le_trans (Nat.add_le_add_left (Nat.le_of_eq (hs.trans hb.symm)) _) hlast

/-- The triples of a packed row end in it where its last one does. -/
theorem triple_fits (N : NewImage d) (hpk : d.format.packed = true) (hp : p < d.planes)
    (h : 3 * (fillGrid d p).cells ≤ (fillGrid d p).stride) : (fillGrid d p).Fits ∧ (fillGrid d p).bytes ≤ (fillGrid d p).step := by
  have hb : (fillGrid d p).bytes = 3 := by simp only [fillGrid, hpk, if_true]
  have hs : (fillGrid d p).step = 3 := by simp only [fillGrid, hpk, if_true]
  have hcells : (fillGrid d p).cells = ((d.plane p).addr.dimX.toNat + (2 * (d.plane p).addr.stepX.toNat - 1)) /
      (2 * (d.plane p).addr.stepX.toNat) := by simp only [fillGrid, hpk, if_true]
  have hcpos : 0 < (fillGrid d p).cells := by
    have hw := N.hasWidth
    rw [← N.shape.dimX p] at hw
    rw [hcells]
    rcases (N.fits p hp).step_cases with ⟨h1, -⟩ | ⟨h1, -⟩ <;> rw [h1] <;> omega
  exact ⟨⟨N.rows_pos hp, hcpos, by omega, by rw [hs, hb]; omega, by rw [hs]; exact h⟩, by omega⟩

/-- What the loops leave where the cells of all planes end in their rows. -/
theorem filledMem_spec (N : NewImage d) (F : ∀ p < d.planes, (fillGrid d p).Fits ∧ (fillGrid d p).bytes ≤ (fillGrid d p).step)
    (m : ByteMem) :
    (∀ p < d.planes, ∀ r < (fillGrid d p).rows, ∀ k < (fillGrid d p).cells, ∀ b < (fillGrid d p).bytes,
      filledMem d value m ((fillGrid d p).place r k b) = (value.cellBytes d p k).getD b 0) ∧
    ∀ a, (∀ p < d.planes, ¬ (d.plane p).Holds a 1) → filledMem d value m a = m a := by
  have h := ByteGrid.foldl_writes (v := fun p k b => (value.cellBytes d p k).getD b 0) (fun p hp => (F p hp).1)
    (fun p hp => (F p hp).2) (fun p hp q hq a h1 h2 => N.fillGrid_apart hp hq h1 h2) m
  exact ⟨h.1, fun a ha => h.2 a (fun p hp hh => ha p hp ((N.fillGrid_holds hp).1 hh))⟩

/-- The bytes of an element are what is written at its first column. -/
theorem element_bytes (N : NewImage d) (hn : d.format.packed = false) (hp : p < d.planes) {x y : Nat} (hx : x < d.width.toNat)
    (hy : y < d.height.toNat) (m : ByteMem) :
    (List.range (elementBytes d.format p)).map (fun b : Nat =>
        filledMem d value m (((d.plane p).hostPtr : Int) + (d.plane p).addr.offset x y + b)) =
      value.cellBytes d p (x / (d.plane p).addr.stepX.toNat) := by
  have Q := N.fits p hp
  have hpk : ¬ d.format.packed = true := by rw [hn]; decide
  have hlen : (value.cellBytes d p (x / (d.plane p).addr.stepX.toNat)).length = elementBytes d.format p := by
    rw [cellBytes_length hp]
    simp only [fillGrid, hn, Bool.false_eq_true, if_false]
  have hspec : ∀ r < (fillGrid d p).rows, ∀ k < (fillGrid d p).cells, ∀ b < (fillGrid d p).bytes,
      filledMem d value m ((fillGrid d p).place r k b) = (value.cellBytes d p k).getD b 0 :=
    (N.filledMem_spec (fun q hq => N.element_fits hn hq) m).1 p hp
  rw [← N.shape.dimX p] at hx
  rw [← N.shape.dimY p] at hy
  have hr : y / (d.plane p).addr.stepY.toNat < (fillGrid d p).rows := by
    show _ < (d.plane p).addr.rows
    rw [ImagepatchAddressing.rows]
    rcases Q.step_cases with ⟨-, h2⟩ | ⟨-, h2⟩ <;> rw [h2] <;> omega
  have hk : x / (d.plane p).addr.stepX.toNat < (fillGrid d p).cells := by
    simp only [fillGrid, hn, Bool.false_eq_true, if_false]
    rcases Q.step_cases with ⟨h2, -⟩ | ⟨h2, -⟩ <;> rw [h2] <;> omega
  refine List.ext_getElem (by simp [hlen]) (fun b h1 h2 => ?_)
  have hb : b < (fillGrid d p).bytes := by
    simp only [fillGrid, hn, Bool.false_eq_true, if_false]
    omega
  have hplace : ((d.plane p).hostPtr : Int) + (d.plane p).addr.offset x y + b =
      (fillGrid d p).place (y / (d.plane p).addr.stepY.toNat) (x / (d.plane p).addr.stepX.toNat) b := by
    rw [ImagepatchAddressing.offset, xOffset_bytes (fun h => hpk ((N.shape.packed p hp).1 h))]
    simp only [ByteGrid.place, fillGrid, hn, Bool.false_eq_true, if_false]
    omega
  rw [List.getElem_map, List.getElem_range, hplace, hspec _ hr _ hk _ hb]
  simp [h2]

/-- A column and the first one of its element have the same components. -/
theorem components_step (d : ImageDesc) (p x : Nat) :
    d.format.components p (x / (planeInit d.format p).2.1.toNat * (planeInit d.format p).2.1.toNat) = d.format.components p x := by
  rcases planeInit_step d.format p with h | h
  · have h1 : (planeInit d.format p).2.1.toNat = 1 := by rw [h]; rfl
    rw [h1, Nat.div_one, Nat.mul_one]
  · cases hf : d.format <;> rw [hf] at h <;> first | rfl | exact absurd (show (1 : UInt32) = 2 from h) (by decide)

/-- The two samples that a triple has. -/
theorem packedBytes_samples (value : PixelValue) (p : Nat) {format : DfImage} (hpk : format.packed = true)
    (hp : p < planesOf format) (s : Nat) :
    (if s % 2 = 0 then TwelveBits.first ((value.packedBytes format p).getD 0 0) ((value.packedBytes format p).getD 1 0)
      else TwelveBits.second ((value.packedBytes format p).getD 1 0) ((value.packedBytes format p).getD 2 0)) =
      (value.packedComponent format p s).toNat % 4096 := by
  have hlt : ∀ v : UInt16, (v &&& 0x0FFF).toNat < 4096 := by
    intro v
    rw [TwelveBits.toNat_and_mask]
    exact Nat.mod_lt _ (by decide)
  -- the pair of samples that are split
  have hpair : ∀ v0 v1 : UInt16, value.packedBytes format p = [((v0 &&& 0x0FFF) &&& 0xFF).toUInt8,
        ((v0 &&& 0x0FFF) >>> 8).toUInt8 ||| (((v1 &&& 0x0FFF) &&& 0x0F) <<< 4).toUInt8, ((v1 &&& 0x0FFF) >>> 4).toUInt8] →
      (if s % 2 = 0 then TwelveBits.first ((value.packedBytes format p).getD 0 0) ((value.packedBytes format p).getD 1 0)
        else TwelveBits.second ((value.packedBytes format p).getD 1 0) ((value.packedBytes format p).getD 2 0)) =
        (if s % 2 = 0 then v0 else v1).toNat % 4096 := by
    intro v0 v1 h
    obtain ⟨h1, h2⟩ := TwelveBits.first_second_split (hlt v0) (hlt v1)
    rw [h]
    split
    · exact h1.trans (TwelveBits.toNat_and_mask v0)
    · exact h2.trans (TwelveBits.toNat_and_mask v1)
  rcases packed_iff.1 hpk with rfl | rfl
  · cases Nat.lt_one_iff.1 hp
    rw [hpair value.U16 value.U16 rfl, ite_self]
    rfl
  · have hp2 : p = 0 ∨ p = 1 := by
      have hlt2 : p < 2 := hp
      omega
    rcases hp2 with rfl | rfl
    · rw [hpair (value.YUV_12 0) (value.YUV_12 0) rfl, ite_self]
      rfl
    · rw [hpair (value.YUV_12 1) (value.YUV_12 2) rfl]
      rfl

/-- The samples whose triples end in the row are in it. -/
theorem packed_samples (N : NewImage d) (hpk : d.format.packed = true)
    (F : ∀ q < d.planes, (fillGrid d q).Fits ∧ (fillGrid d q).bytes ≤ (fillGrid d q).step) (hp : p < d.planes) {y s : Nat}
    (hy : y < d.height.toNat) (hs : s / 2 < (fillGrid d p).cells) (m : ByteMem) :
    TwelveBits.sample (filledMem d value m) (((d.plane p).hostPtr : Int) + (d.plane p).addr.offset 0 y) s =
      (value.packedComponent d.format p s).toNat % 4096 := by
  have Q := N.fits p hp
  have hspec : ∀ r < (fillGrid d p).rows, ∀ k < (fillGrid d p).cells, ∀ b < (fillGrid d p).bytes,
      filledMem d value m ((fillGrid d p).place r k b) = (value.cellBytes d p k).getD b 0 := (N.filledMem_spec F m).1 p hp
  rw [← N.shape.dimY p] at hy
  have hr : y / (d.plane p).addr.stepY.toNat < (fillGrid d p).rows := by
    show _ < (d.plane p).addr.rows
    rw [ImagepatchAddressing.rows]
    rcases Q.step_cases with ⟨-, h2⟩ | ⟨-, h2⟩ <;> rw [h2] <;> omega
  have hbytes : (fillGrid d p).bytes = 3 := by simp only [fillGrid, hpk, if_true]
  have hbyte : ∀ b : Nat, b < 3 → filledMem d value m
      (((d.plane p).hostPtr : Int) + (d.plane p).addr.offset 0 y + 3 * (s / 2 : Nat) + b) =
        (value.packedBytes d.format p).getD b 0 := by
    intro b hb
    have hc : value.cellBytes d p (s / 2) = value.packedBytes d.format p := if_pos hpk
    have hplace : ((d.plane p).hostPtr : Int) + (d.plane p).addr.offset 0 y + 3 * (s / 2 : Nat) + b =
        (fillGrid d p).place (y / (d.plane p).addr.stepY.toNat) (s / 2) b := by
      rw [ImagepatchAddressing.offset, ImagepatchAddressing.xOffset_zero]
      simp only [ByteGrid.place, fillGrid, hpk, if_true]
      omega
    rw [hplace, hspec _ hr _ hs b (by omega), hc]
  have h0 := hbyte 0 (by decide)
  have h1 := hbyte 1 (by decide)
  have h2 := hbyte 2 (by decide)
  rw [Int.natCast_zero, Int.add_zero] at h0
  rw [← packedBytes_samples value p hpk hp s]
  simp only [TwelveBits.sample, h0]
  rw [show ∀ a : Int, a + 1 = a + (1 : Nat) from fun _ => rfl, h1, show ∀ a : Int, a + 2 = a + (2 : Nat) from fun _ => rfl, h2]

/-- The triples of a row of pairs, and its bytes, aligned. -/
theorem triples_row (w : Nat) : (3 * ((w + 1) / 2) ≤ alignUp 16 ((12 * w + 7) / 8) ↔ w % 32 ≠ 21) ∧
    (w % 32 = 21 → 3 * ((w + 1) / 2) = alignUp 16 ((12 * w + 7) / 8) + 1) := by
  have key : ∀ t < 32, (3 * ((t + 1) / 2) ≤ alignUp 16 ((12 * t + 7) / 8) ↔ t ≠ 21) ∧
      (t = 21 → 3 * ((t + 1) / 2) = alignUp 16 ((12 * t + 7) / 8) + 1) := by decide
  obtain ⟨h1, h2⟩ := key (w % 32) (Nat.mod_lt _ (by decide))
  have hw := Nat.div_add_mod w 32
  have htriple : 3 * ((w + 1) / 2) = 48 * (w / 32) + 3 * ((w % 32 + 1) / 2) := by omega
  have hbytes : (12 * w + 7) / 8 = 16 * (3 * (w / 32)) + (12 * (w % 32) + 7) / 8 := by omega
  have hrow : alignUp 16 ((12 * w + 7) / 8) = 48 * (w / 32) + alignUp 16 ((12 * (w % 32) + 7) / 8) := by
    rw [hbytes, alignUp, alignUp, Nat.add_assoc, Nat.mul_add_div (by decide), Nat.add_mul]
    omega
  omega

theorem fillGrid_packed (hpk : d.format.packed = true) (p : Nat) : (fillGrid d p).step = 3 ∧ (fillGrid d p).bytes = 3 ∧
    (fillGrid d p).cells = ((d.plane p).addr.dimX.toNat + (2 * (d.plane p).addr.stepX.toNat - 1)) /
      (2 * (d.plane p).addr.stepX.toNat) := by
  simp only [fillGrid, hpk, if_true, true_and]

/-- Every image is filled where the value and the width fit. -/
theorem filled_of_fits (N : NewImage d) (h : fillFits d.format d.width value) (m : ByteMem) :
    Filled d value m (filledMem d value m) := by
  obtain ⟨hbgrx, hp12, hnv12⟩ := h
  have F : ∀ p < d.planes, (fillGrid d p).Fits ∧ (fillGrid d p).bytes ≤ (fillGrid d p).step := by
    intro p hp
    by_cases hpk : d.format.packed = true
    · refine N.triple_fits hpk hp ?_
      have hstride : (fillGrid d p).stride = alignUp 16 ((12 * d.width.toNat + 7) / 8) := N.strideY hpk p
      rw [(fillGrid_packed hpk p).2.2, hstride, N.shape.dimX, N.shape.stepX]
      rcases packed_iff.1 hpk with hf | hf
      · have hs : (planeInit d.format p).2.1.toNat = 1 := by rw [hf]; rfl
        rw [hs]
        exact (triples_row d.width.toNat).1.2 (hp12 hf)
      · have hw := hnv12 hf
        have hpos := N.hasWidth
        have hw2 : d.width.toNat = 1 ∨ d.width.toNat = 2 := by omega
        rcases planeInit_step d.format p with hs | hs <;> rcases hw2 with h2 | h2 <;> rw [hs, h2] <;> decide
    · exact N.element_fits (by simpa using hpk) hp
  refine ⟨N.fits.laidOut, fun hn p hp x hx y hy => ?_, fun hpk p hp y hy s hs => ?_, (N.filledMem_spec F m).2⟩
  · rw [N.element_bytes hn hp hx hy m]
    have hpk : ¬ d.format.packed = true := by rw [hn]; decide
    have hlt : x / (d.plane p).addr.stepX.toNat * (d.plane p).addr.stepX.toNat < UInt32.size :=
      Nat.lt_of_le_of_lt (Nat.div_mul_le_self _ _) (Nat.lt_trans hx d.width.toNat_lt)
    have hc : value.cellBytes d p (x / (d.plane p).addr.stepX.toNat) = value.pixelBytes d.format p
        (UInt32.ofNat (x / (d.plane p).addr.stepX.toNat * (d.plane p).addr.stepX.toNat)) := if_neg hpk
    rw [hc, (pixelBytes_eq_iff hp _).2 hbgrx, UInt32.toNat_ofNat_of_lt' hlt, N.shape.stepX, components_step]
  · refine N.packed_samples hpk F hp hy ?_ m
    rw [(fillGrid_packed hpk p).2.2, N.shape.dimX, N.shape.stepX]
    rcases packed_iff.1 hpk with hf | hf
    · have hinit : planeInit d.format p = (1, 1, 12) := by rw [hf]; rfl
      simp only [packedSamples, hinit] at hs ⊢
      rw [show UInt32.toNat 1 = 1 from rfl] at hs ⊢
      omega
    · have hw := hnv12 hf
      have hpos := N.hasWidth
      have hp2 : p = 0 ∨ p = 1 := by
        have hlt2 : p < planesOf d.format := hp
        rw [hf] at hlt2
        have hlt3 : p < 2 := hlt2
        omega
      rcases hp2 with rfl | rfl
      · have hinit : planeInit d.format 0 = (1, 1, 12) := by rw [hf]; rfl
        simp only [packedSamples, hinit] at hs ⊢
        rw [show UInt32.toNat 1 = 1 from rfl] at hs ⊢
        omega
      · have hinit : planeInit d.format 1 = (2, 2, 12) := by rw [hf]; rfl
        simp only [packedSamples, hinit] at hs ⊢
        rw [show UInt32.toNat 2 = 2 from rfl] at hs ⊢
        omega

/-- What is written at a byte. -/
theorem filledMem_of_mem {a : Int} {b : UInt8} (m : ByteMem) {p r k c : Nat} (hp : p < d.planes) (hr : r < (fillGrid d p).rows)
    (hk : k < (fillGrid d p).cells) (hc : c < (fillGrid d p).bytes) (ha : (fillGrid d p).place r k c = a)
    (h : ∀ p < d.planes, ∀ r < (fillGrid d p).rows, ∀ k < (fillGrid d p).cells, ∀ c < (fillGrid d p).bytes,
      (fillGrid d p).place r k c = a → (value.cellBytes d p k).getD c 0 = b) : filledMem d value m a = b := by
  refine ByteMem.foldl_set_of_mem (fun w hw hwa => ?_) ⟨((fillGrid d p).place r k c, (value.cellBytes d p k).getD c 0), ?_, ha⟩ m
  · obtain ⟨q, hq, hw⟩ := List.mem_flatMap.1 hw
    obtain ⟨r', hr', k', hk', c', hc', rfl⟩ := ByteGrid.mem_writes.1 hw
    exact h q (List.mem_range.1 hq) r' hr' k' hk' c' hc' hwa
  · exact List.mem_flatMap.2 ⟨p, List.mem_range.2 hp, ByteGrid.mem_writes.2 ⟨r, hr, k, hk, c, hc, rfl⟩⟩

theorem filledMem_of_not {a : Int} (m : ByteMem)
    (h : ∀ p < d.planes, ∀ r < (fillGrid d p).rows, ∀ k < (fillGrid d p).cells, ∀ c < (fillGrid d p).bytes,
      (fillGrid d p).place r k c ≠ a) : filledMem d value m a = m a := by
  refine ByteMem.foldl_set_of_not (fun w hw hwa => ?_) m
  obtain ⟨q, hq, hw⟩ := List.mem_flatMap.1 hw
  obtain ⟨r', hr', k', hk', c', hc', rfl⟩ := ByteGrid.mem_writes.1 hw
  exact h q (List.mem_range.1 hq) r' hr' k' hk' c' hc' hwa

/-- The last triple of the last packed row writes a byte after the plane. -/
theorem not_filled_p12 (N : NewImage d) (hf : d.format = .p12) (hw : d.width.toNat % 32 = 21) :
    ¬ ∀ m, Filled d value m (filledMem d value m) := by
  intro h
  have hpk : d.format.packed = true := by rw [hf]; rfl
  have hplanes : d.planes = 1 := congrArg planesOf hf
  have hp : 0 < d.planes := by rw [hplanes]; exact Nat.one_pos
  obtain ⟨hstep, hbytes, hcells⟩ := fillGrid_packed hpk 0
  have hstride : (fillGrid d 0).stride = alignUp 16 ((12 * d.width.toNat + 7) / 8) := N.strideY hpk 0
  have hs : (planeInit d.format 0).2.1.toNat = 1 := by rw [hf]; rfl
  rw [N.shape.dimX, N.shape.stepX, hs] at hcells
  have hend : 3 * (fillGrid d 0).cells = (fillGrid d 0).stride + 1 := by
    rw [hcells, hstride]
    exact (triples_row d.width.toNat).2 hw
  have hrows := N.rows_pos hp
  have hlast : (fillGrid d 0).stride * ((fillGrid d 0).rows - 1) + (fillGrid d 0).stride =
      (fillGrid d 0).stride * (fillGrid d 0).rows := by
    rw [← Nat.mul_succ, Nat.succ_eq_add_one, Nat.sub_add_cancel hrows]
  let v : UInt8 := (value.packedBytes d.format 0).getD 2 0
  have hc : ∀ k, value.cellBytes d 0 k = value.packedBytes d.format 0 := fun _ => if_pos hpk
  have hwrite : ∀ m, filledMem d value m ((fillGrid d 0).base + ((fillGrid d 0).stride * (fillGrid d 0).rows : Nat)) = v := by
    intro m
    refine filledMem_of_mem m hp (r := (fillGrid d 0).rows - 1) (k := (fillGrid d 0).cells - 1) (c := 2) (by omega) (by omega)
      (by omega) ?_ ?_
    · rw [ByteGrid.place_eq, hstep]
      omega
    · intro p hp' r hr k hk c hc' ha
      have hp0 : p = 0 := by omega
      subst hp0
      rw [ByteGrid.place_eq, hstep] at ha
      have hr1 : r = (fillGrid d 0).rows - 1 := by
        by_contra hne
        have := ByteGrid.row_lt (fillGrid d 0).stride 0 (show r < (fillGrid d 0).rows - 1 by omega) (by omega)
        omega
      have hc2 : c = 2 := by rw [hr1] at ha; omega
      rw [hc, hc2]
  have hout := (h (fun _ => v + 1)).outside ((fillGrid d 0).base + ((fillGrid d 0).stride * (fillGrid d 0).rows : Nat)) ?_
  · rw [hwrite] at hout
    have := congrArg UInt8.toNat hout
    rw [UInt8.toNat_add] at this
    have hlt := v.toNat_lt
    have h1 : UInt8.toNat 1 = 1 := rfl
    omega
  · intro p hp' hin
    have hp0 : p = 0 := by omega
    subst hp0
    rw [← N.fillGrid_holds hp'] at hin
    exact absurd hin.2 (Int.lt_irrefl _)

theorem half_low (value : PixelValue) (i : Nat) : (value.half i).toNat % 256 = (value (2 * i)).toNat := by
  have hlt := (value (2 * i)).toNat_lt
  have hshift : ((value (2 * i + 1)).toUInt16 <<< 8).toNat % 2 ^ 8 = 0 := by
    rw [UInt16.toNat_shiftLeft, UInt8.toNat_toUInt16]
    show ((value (2 * i + 1)).toNat <<< 8) % 2 ^ 16 % 2 ^ 8 = 0
    rw [Nat.shiftLeft_eq]
    omega
  rw [PixelValue.half, UInt16.toNat_or, UInt8.toNat_toUInt16]
  show (_ ||| _) % 2 ^ 8 = _
  rw [Nat.or_mod_two_pow, hshift, Nat.or_zero]
  exact Nat.mod_eq_of_lt hlt

/-- Half of the pairs of the chroma of a packed row are not written. -/
theorem not_filled_nv12P12 (N : NewImage d) (hf : d.format = .nv12P12) (hw : 2 < d.width.toNat) :
    ¬ ∀ m, Filled d value m (filledMem d value m) := by
  intro h
  have hpk : d.format.packed = true := by rw [hf]; rfl
  have hplanes : d.planes = 2 := congrArg planesOf hf
  have hp0 : 0 < d.planes := by rw [hplanes]; decide
  have hp1 : 1 < d.planes := by rw [hplanes]; decide
  obtain ⟨hstep0, hbytes0, hcells0⟩ := fillGrid_packed hpk 0
  obtain ⟨hstep1, hbytes1, hcells1⟩ := fillGrid_packed hpk 1
  have hs0 : (planeInit d.format 0).2.1.toNat = 1 := by rw [hf]; rfl
  have hs1 : (planeInit d.format 1).2.1.toNat = 2 := by rw [hf]; rfl
  rw [N.shape.dimX, N.shape.stepX, hs0] at hcells0
  rw [N.shape.dimX, N.shape.stepX, hs1] at hcells1
  have hstride : ∀ p, (fillGrid d p).stride = alignUp 16 ((12 * d.width.toNat + 7) / 8) := fun p => N.strideY hpk p
  have hle := ByteRange.le_alignUp (a := 16) (by decide) ((12 * d.width.toNat + 7) / 8)
  -- the first byte after the triples of the first row
  let a : Int := (fillGrid d 1).base + (3 * (fillGrid d 1).cells : Nat)
  have hin : (d.plane 1).Holds a 1 := by
    rw [← N.fillGrid_holds hp1]
    have hrow := ByteGrid.row_lt (fillGrid d 1).stride (3 * (fillGrid d 1).cells) (N.rows_pos hp1)
      (by rw [hstride, hcells1]; omega)
    exact ⟨by simp only [a]; omega, by simp only [a]; omega⟩
  have hnone : ∀ m, filledMem d value m a = m a := by
    intro m
    refine filledMem_of_not m (fun p hp r hr k hk c hc ha => ?_)
    have hp2 : p = 0 ∨ p = 1 := by omega
    rcases hp2 with rfl | rfl
    · -- the triples of the luma end with its plane, or a byte after it
      have htriples := triples_row d.width.toNat
      have hrow := ByteGrid.row_lt (fillGrid d 0).stride 0 hr (by rw [hstride]; omega)
      have hlast := Nat.mul_le_mul_left (fillGrid d 0).stride (Nat.succ_le_of_lt hr)
      rw [Nat.mul_succ] at hlast
      have hmem0 : ((d.plane 0).memSize.toNat : Int) = ((fillGrid d 0).stride * (fillGrid d 0).rows : Nat) := by
        rw [(N.fits 0 hp0).size, ← (N.fits 0 hp0).rows_eq]
        rfl
      have hbase0 : (fillGrid d 0).base = ((d.plane 0).hostPtr : Int) := rfl
      have hbase1 : (fillGrid d 1).base = ((d.plane 1).hostPtr : Int) := rfl
      have hle0 : 3 * (fillGrid d 0).cells ≤ (fillGrid d 0).stride + 1 := by
        rw [hcells0, hstride]
        by_cases h21 : d.width.toNat % 32 = 21
        · exact Nat.le_of_eq (htriples.2 h21)
        · exact Nat.le_succ_of_le (htriples.1.2 h21)
      have hcpos : 0 < (fillGrid d 1).cells := by rw [hcells1]; omega
      rw [ByteGrid.place_eq, hstep0] at ha
      obtain ⟨hin1, hin2⟩ := hin
      rcases N.apart 0 hp0 1 hp1 (by decide) with h' | h' <;> simp only [ByteRange.stop, ImagePlane.mem] at h' <;>
        simp only [a] at ha hin1 hin2 <;> omega
    · rw [ByteGrid.place_eq, hstep1] at ha
      simp only [a] at ha
      rcases Nat.eq_zero_or_pos r with rfl | h0
      · omega
      · have hrow := Nat.le_mul_of_pos_right (fillGrid d 1).stride h0
        rw [hstride] at hrow ha
        omega
  -- the pair there has the byte of the memory before
  have hsample := (h (fun _ => value 2 + 1)).samples hpk 1 hp1 0 N.hasHeight (2 * (fillGrid d 1).cells) (by
    have hinit : planeInit d.format 1 = (2, 2, 12) := by rw [hf]; rfl
    simp only [packedSamples, hinit, hcells1]
    rw [show UInt32.toNat 2 = 2 from rfl]
    omega)
  have hrow0 : ((d.plane 1).hostPtr : Int) + (d.plane 1).addr.offset 0 0 = (fillGrid d 1).base := by
    rw [ImagepatchAddressing.offset, ImagepatchAddressing.xOffset_zero, Nat.zero_div, Nat.mul_zero]
    exact Int.add_zero _
  have hbyte := hnone (fun _ => value 2 + 1)
  simp only [a] at hbyte
  have hcomp : value.packedComponent d.format 1 (2 * (fillGrid d 1).cells) = value.half 1 := by
    rw [PixelValue.packedComponent, if_neg (by rw [hf]; decide), if_neg (by decide), if_pos (Nat.mul_mod_right 2 _)]
    rfl
  rw [hrow0, TwelveBits.sample, if_pos (Nat.mul_mod_right 2 _), Nat.mul_div_cancel_left _ (by decide), hcomp] at hsample
  rw [show ((fillGrid d 1).base + 3 * ((fillGrid d 1).cells : Int)) = (fillGrid d 1).base + (3 * (fillGrid d 1).cells : Nat) by
    omega, hbyte] at hsample
  have hlow := half_low value 1
  simp only [TwelveBits.first] at hsample
  rw [show 2 * 1 = 2 from rfl] at hlow
  have hadd : (value 2 + 1).toNat = ((value 2).toNat + 1) % 256 := UInt8.toNat_add _ _
  have hlt := (value 2).toNat_lt
  omega

/-- Blue and red that differ are exchanged. -/
theorem not_filled_bgrx (N : NewImage d) (hf : d.format = .bgrx) (hv : value 0 ≠ value 2) :
    ¬ ∀ m, Filled d value m (filledMem d value m) := by
  intro h
  have hn : d.format.packed = false := by rw [hf]; rfl
  have hpk : ¬ d.format.packed = true := by rw [hn]; decide
  have hp : 0 < d.planes := by
    rw [show d.planes = 1 from congrArg planesOf hf]
    exact Nat.one_pos
  have hbytes := (h (fun _ => 0)).elements hn 0 hp 0 N.hasWidth 0 N.hasHeight
  rw [N.element_bytes hn hp N.hasWidth N.hasHeight] at hbytes
  have hc : value.cellBytes d 0 (0 / (d.plane 0).addr.stepX.toNat) = value.pixelBytes d.format 0
      (UInt32.ofNat (0 / (d.plane 0).addr.stepX.toNat * (d.plane 0).addr.stepX.toNat)) := if_neg hpk
  rw [hc, Nat.zero_div, Nat.zero_mul] at hbytes
  exact hv ((pixelBytes_eq_iff hp (UInt32.ofNat 0)).1 hbytes hf)

theorem filled_iff (N : NewImage d) : (∀ m, ∃ m', d.fill value m = .ok (some m') ∧ Filled d value m m') ↔
    fillFits d.format d.width value := by
  constructor
  · intro hall
    have h : ∀ m, Filled d value m (filledMem d value m) := by
      intro m
      obtain ⟨m', hfill, hfilled⟩ := hall m
      rw [N.fill_eq m] at hfill
      cases hfill
      exact hfilled
    refine ⟨fun hf => ?_, fun hf hw => N.not_filled_p12 hf hw h, fun hf => ?_⟩
    · by_contra hv
      exact N.not_filled_bgrx hf hv h
    · by_contra hw
      exact N.not_filled_nv12P12 hf (by omega) h
  · intro h m
    exact ⟨_, N.fill_eq m, N.filled_of_fits h m⟩

end NewImage

/-! ### Created images -/

section Create

variable {width height : UInt32} {format : DfImage} {host : Nat} {d : ImageDesc}

theorem create_eq (h : (vxCreateImage width height format).map (·.ownAllocImageBuffer host) = some d) :
    d = (ownInitImage width height format).ownAllocImageBuffer host ∧ 0 < width.toNat ∧ 0 < height.toNat ∧
      ownIsValidDimensions width height format = true := by
  obtain ⟨e, he, rfl⟩ := Option.map_eq_some_iff.1 h
  simp only [vxCreateImage, ownCreateImageInt] at he
  split at he
  · cases he
  · rename_i hc
    simp only [not_or] at hc
    split at he
    · rename_i hv
      cases he
      exact ⟨rfl, Nat.pos_of_ne_zero (fun h0 => hc.1 (UInt32.toNat_inj.1 h0)),
        Nat.pos_of_ne_zero (fun h0 => hc.2.1 (UInt32.toNat_inj.1 h0)), hv⟩
    · cases he

/-- The planes of a new image follow each other. -/
theorem alloc_apart (e : ImageDesc) (host : Nat) {p q : Nat} (hpq : p ≠ q) :
    ((e.ownAllocImageBuffer host).plane p).mem.Apart ((e.ownAllocImageBuffer host).plane q).mem := by
  have hle : ∀ {p q : Nat}, p < q →
      ((e.ownAllocImageBuffer host).plane p).mem.stop ≤ ((e.ownAllocImageBuffer host).plane q).hostPtr := by
    intro p q hlt
    obtain ⟨k, rfl⟩ : ∃ k, q = p + 1 + k := ⟨q - (p + 1), by omega⟩
    have hsum : ((List.range p).map (fun i => (e.plane i).memSize.toNat)).sum + (e.plane p).memSize.toNat ≤
        ((List.range (p + 1 + k)).map (fun i => (e.plane i).memSize.toNat)).sum := by
      rw [List.range_add, List.range_succ]
      simp only [List.map_append, List.sum_append, List.map_singleton, List.sum_singleton]
      exact Nat.le_add_right _ _
    simp only [ImageDesc.ownAllocImageBuffer, ImagePlane.mem, ByteRange.stop]
    omega
  rcases Nat.lt_or_gt_of_ne hpq with hlt | hlt
  · exact .inl (hle hlt)
  · exact .inr (hle hlt)

theorem newImage_of_create (h : (vxCreateImage width height format).map (·.ownAllocImageBuffer host) = some d)
    (hc : createFits width height format) (hh : host ≠ 0) : NewImage d := by
  obtain ⟨S, -, hfits⟩ := createImage_spec h
  obtain ⟨rfl, hw, hhe, hv⟩ := create_eq h
  have hbits : format.packed = true → 12 * width.toNat + 7 < 2 ^ 32 := hc.2.1
  exact {
    shape := S
    fits := hfits hc
    hasWidth := hw
    hasHeight := hhe
    valid := hv
    strideX := fun hn p => strideX_init hn p
    strideY := fun hpk p => by
      have hlt := hbits hpk
      have hs := strideY_init width height format p
      have hpk' : format.packed = true := hpk
      rw [if_pos hpk', Nat.mod_eq_of_lt (a := width.toNat * 12) (by omega),
        Nat.mod_eq_of_lt (a := width.toNat * 12 + 7) (by omega),
        Nat.mod_eq_of_lt (by omega), Nat.mul_comm width.toNat 12] at hs
      exact hs
    bits := hbits
    host := fun p _ h0 => hh (Nat.eq_zero_of_add_eq_zero_right h0)
    apart := fun p _ q _ hpq => alloc_apart _ host hpq }

/-- **A uniform image has its value in every sample, and nothing else is written, exactly when** its planes have their rows, and
the format, the width and the value fit. -/
theorem uniform_filled_iff {value : PixelValue}
    (h : (vxCreateImage width height format).map (·.ownAllocImageBuffer host) = some d) (hh : host ≠ 0) :
    (∀ m, ∃ m', d.fill value m = .ok (some m') ∧ Filled d value m m') ↔
      createFits width height format ∧ fillFits format width value := by
  obtain ⟨-, hlaid, -⟩ := createImage_spec h
  obtain ⟨hd, -, -, -⟩ := create_eq h
  have hformat : d.format = format := by rw [hd]; rfl
  have hwidth : d.width = width := by rw [hd]; rfl
  constructor
  · intro hall
    obtain ⟨m', -, hm'⟩ := hall (fun _ => 0)
    have hc := hlaid.1 hm'.laidOut
    have N := newImage_of_create h hc hh
    refine ⟨hc, ?_⟩
    rw [← hformat, ← hwidth]
    exact N.filled_iff.1 hall
  · rintro ⟨hc, hfit⟩
    rw [← hformat, ← hwidth] at hfit
    exact (newImage_of_create h hc hh).filled_iff.2 hfit

/-- A grey image of two planes in a memory of zeros. -/
theorem nv12_filled : ∃ m', (vgaPatch .nv12).desc.fill (fun _ => 128) (fun _ => 0) = .ok (some m') ∧
    Filled (vgaPatch .nv12).desc (fun _ => 128) (fun _ => 0) m' := by
  have hcreate : (vxCreateImage 640 480 .nv12).map (·.ownAllocImageBuffer 0x1000) = some (vgaPatch .nv12).desc := rfl
  exact (uniform_filled_iff hcreate (by decide)).2
    ⟨⟨fun h => absurd h (by decide), fun h => absurd h (by decide), by decide⟩,
      fun h => absurd h (by decide), fun h => absurd h (by decide), fun h => absurd h (by decide)⟩ (fun _ => 0)

/-- Half of the packed chroma is left as it was; a red image in the order of blue, green and red is blue; and after a packed row of
21 samples a byte is written. -/
theorem uniform_not_filled :
    (¬ ∀ m, ∃ m', (vgaPatch .nv12P12).desc.fill (fun _ => 0) m = .ok (some m') ∧
      Filled (vgaPatch .nv12P12).desc (fun _ => 0) m m') ∧
    (¬ ∀ m, ∃ m', (vgaPatch .bgrx).desc.fill (fun i => if i = 0 then 255 else 0) m = .ok (some m') ∧
      Filled (vgaPatch .bgrx).desc (fun i => if i = 0 then 255 else 0) m m') ∧
    ∃ d, (vxCreateImage 21 1 .p12).map (·.ownAllocImageBuffer 0x1000) = some d ∧
      ¬ ∀ m, ∃ m', d.fill (fun _ => 0) m = .ok (some m') ∧ Filled d (fun _ => 0) m m' := by
  have h12 : (vxCreateImage 640 480 .nv12P12).map (·.ownAllocImageBuffer 0x1000) = some (vgaPatch .nv12P12).desc := rfl
  have hbgrx : (vxCreateImage 640 480 .bgrx).map (·.ownAllocImageBuffer 0x1000) = some (vgaPatch .bgrx).desc := rfl
  have hp12 : (vxCreateImage 21 1 .p12).map (·.ownAllocImageBuffer 0x1000) =
      some ((ownInitImage 21 1 .p12).ownAllocImageBuffer 0x1000) := rfl
  refine ⟨fun h => ?_, fun h => ?_, _, hp12, fun h => ?_⟩
  · have N := newImage_of_create h12 ⟨fun _ => by decide, fun _ => by decide, by decide⟩ (by decide)
    exact absurd ((N.filled_iff.1 h).2.2 rfl) (by decide)
  · have N := newImage_of_create hbgrx ⟨fun h => absurd h (by decide), fun h => absurd h (by decide), by decide⟩ (by decide)
    exact absurd ((N.filled_iff.1 h).1 rfl) (by decide)
  · have N := newImage_of_create hp12 ⟨fun h => absurd h (by decide), fun _ => by decide, by decide⟩ (by decide)
    exact absurd rfl ((N.filled_iff.1 h).2.1 rfl)

end Create

end Tiovx
