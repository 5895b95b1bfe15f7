import Mathlib.Tactic.IntervalCases
import Mathlib.Tactic.Ring
import Tiovx.Lib.ByteRange
import Tiovx.RawImage
import Tiovx.SubimageLists
/-!
# ImageLayout — the planes of an image and of the images created from it (`vx_image.c`)

The constructors give each plane of an image its dimensions, strides and size, in 32 bits.  An image of a channel or of a region
takes the strides of its parent and a place in its memory.
-/
namespace Tiovx

open ByteRange (alignUp)

/-- The formats `ownIsSupportedFourcc` takes. -/
inductive DfImage
  | rgb | rgbx | rgba | nv12 | nv21 | uyvy | yuyv | iyuv | yuv4 | u8 | u16 | s16 | u32 | s32 | virt | p12 | nv12P12 | rgb565 | bgrx
deriving DecidableEq

def ownIsOdd (a : UInt32) : Bool := a &&& 1 != 0

/-- `ownIsValidDimensions`. -/
def ownIsValidDimensions (width height : UInt32) (color : DfImage) : Bool :=
  if ownIsOdd width && (color = .uyvy || color = .yuyv) then false
  else if (ownIsOdd width || ownIsOdd height) && (color = .iyuv || color = .nv12 || color = .nv21) then false
  else true

/-- `vx_imagepatch_addressing_t`. -/
structure ImagepatchAddressing where
  dimX : UInt32
  dimY : UInt32
  strideX : Int32
  strideY : Int32
  stepX : UInt32
  stepY : UInt32
deriving DecidableEq

/-- `ownComputePatchOffset`. -/
def ImagepatchAddressing.ownComputePatchOffset (addr : ImagepatchAddressing) (x y : UInt32) : UInt32 :=
  if addr.strideX = 0 then addr.strideY.toUInt32 * (y / addr.stepY) + 12 * (x / addr.stepX) / 8
  else addr.strideY.toUInt32 * (y / addr.stepY) + addr.strideX.toUInt32 * (x / addr.stepX)

/-- `ownSizeOfChannel`. -/
def ownSizeOfChannel : DfImage → UInt32
  | .rgb565 | .s16 | .u16 => 2
  | .u32 | .s32 => 4
  | .p12 | .nv12P12 => 0
  | _ => 1

/-- What a plane has of `tivx_obj_desc_image_t`, and its `mem_offset`; a pointer is its `host_ptr`. -/
structure ImagePlane where
  addr : ImagepatchAddressing
  memSize : UInt32
  hostPtr : Nat
  memOffset : UInt32
deriving DecidableEq

/-- The size of a plane of these strides. -/
def ImagepatchAddressing.memSize (addr : ImagepatchAddressing) : UInt32 := addr.strideY.toUInt32 * addr.dimY / addr.stepY

/-- `ownInitPlane`, with the alignment `ownInitImage` has set. -/
def ownInitPlane (sizeOfCh channels width height stepX stepY bitsPerPixel : UInt32) : ImagePlane :=
  let strideX := sizeOfCh.toInt32 * channels.toInt32
  let strideY :=
    if sizeOfCh ≠ 0 then tivxAlign (width * strideX.toUInt32 / stepX) defaultStrideYAlign
    else tivxAlign ((width * bitsPerPixel + 7) / 8) defaultStrideYAlign
  let addr := ⟨width, height, strideX, strideY.toInt32, stepX, stepY⟩
  ⟨addr, addr.memSize, 0, 0⟩

/-- An image: `tivx_obj_desc_image_t` and its `channel_plane`. -/
structure ImageDesc where
  width : UInt32
  height : UInt32
  format : DfImage
  channelPlane : Nat
  plane : Nat → ImagePlane

/-- The planes `ownInitImage` gives a format. -/
def planesOf : DfImage → Nat
  | .virt => 0
  | .nv12 | .nv21 | .nv12P12 => 2
  | .yuv4 | .iyuv => 3
  | _ => 1

/-- The channels, the step in both directions and the bits per pixel `ownInitImage` gives a plane of a format. -/
def planeInit : DfImage → Nat → UInt32 × UInt32 × UInt32
  | .nv12, 0 | .nv21, 0 => (1, 1, 0)
  | .nv12, _ | .nv21, _ => (2, 2, 0)
  | .rgb, _ => (3, 1, 0)
  | .bgrx, _ | .rgbx, _ | .rgba, _ => (4, 1, 0)
  | .uyvy, _ | .yuyv, _ => (2, 1, 0)
  | .iyuv, 0 => (1, 1, 0)
  | .iyuv, _ => (1, 2, 0)
  | .p12, _ => (1, 1, 12)
  | .nv12P12, 0 => (1, 1, 12)
  | .nv12P12, _ => (2, 2, 12)
  | _, _ => (1, 1, 0)

/-- `ownInitImage`. -/
def ownInitImage (width height : UInt32) (format : DfImage) : ImageDesc where
  width := width
  height := height
  format := format
  channelPlane := 0
  plane := fun p =>
    let (channels, step, bitsPerPixel) := planeInit format p
    ownInitPlane (ownSizeOfChannel format) channels width height step step bitsPerPixel

/-- `ownCreateImageInt`, where there is a reference and an object descriptor for the image. -/
def ownCreateImageInt (width height : UInt32) (color : DfImage) : Option ImageDesc :=
  if ownIsValidDimensions width height color then some (ownInitImage width height color) else none

namespace ImageDesc

def planes (d : ImageDesc) : Nat := planesOf d.format

/-- `ownAllocImageBuffer` of an image whose buffer is allocated at `host`. -/
def ownAllocImageBuffer (d : ImageDesc) (host : Nat) : ImageDesc :=
  { d with
    plane := fun p => { d.plane p with hostPtr := host + ((List.range p).map (fun q => (d.plane q).memSize.toNat)).sum } }

end ImageDesc

/-- `vxCreateImage`. -/
def vxCreateImage (width height : UInt32) (format : DfImage) : Option ImageDesc :=
  if width = 0 ∨ height = 0 ∨ format = .virt then none else ownCreateImageInt width height format

/-- `vxCreateUniformImage`; the planes are those of `vxCreateImage`. -/
def vxCreateUniformImage (width height : UInt32) (format : DfImage) (value : Option Nat) : Option ImageDesc :=
  if value = none then none else vxCreateImage width height format

/-- The strides of a plane that `vxCreateImageFromHandle` takes. -/
def isRowMajor (color : DfImage) (addr : ImagepatchAddressing) : Bool :=
  if color = .p12 || color = .nv12P12 then
    !(addr.strideX != 0 || addr.strideY < (addr.dimX.toInt32 * 12 + 7) / 8)
  else !(addr.strideX ≤ 0 || addr.strideY < addr.strideX * addr.dimX.toInt32)

/-- A plane with the strides of another: those of a handle, or of the parent. -/
def ImagePlane.setStrides (q : ImagePlane) (addr : ImagepatchAddressing) : ImagePlane :=
  let addr := { q.addr with strideX := addr.strideX, strideY := addr.strideY }
  { q with addr := addr, memSize := addr.memSize }

/-- The strides and the memory of a handle. -/
def ImageDesc.setHandle (d : ImageDesc) (addrs : Nat → ImagepatchAddressing) (ptrs : Nat → Nat) : ImageDesc :=
  { d with plane := fun p => { (d.plane p).setStrides (addrs p) with hostPtr := ptrs p } }

/-- `vxCreateImageFromHandle`. -/
def vxCreateImageFromHandle (color : DfImage) (addrs : Nat → ImagepatchAddressing) (ptrs : Nat → Nat) : Option ImageDesc :=
  if (addrs 0).dimX = 0 ∨ (addrs 0).dimY = 0 ∨ color = .virt then none
  else
    (ownCreateImageInt (addrs 0).dimX (addrs 0).dimY color).bind (fun d =>
      if (List.range d.planes).all (fun p => isRowMajor color (addrs p)) then some (d.setHandle addrs ptrs) else none)

/-- A channel that is asked for. -/
inductive ImageChannel
  | y
  | u
  | v
  | other
deriving DecidableEq

/-- The channels `vxCreateImageFromChannel` takes of a format. -/
def isChannelOf (format : DfImage) : ImageChannel → Bool
  | .y => format = .yuv4 || format = .iyuv || format = .nv12 || format = .nv21
  | .u | .v => format = .yuv4 || format = .iyuv
  | .other => false

def ImageChannel.plane : ImageChannel → Nat
  | .y => 0
  | .u => 1
  | _ => 2

/-- The width and height of the image of a channel. -/
def channelDims (format : DfImage) (channelPlane : Nat) (addr : ImagepatchAddressing) : UInt32 × UInt32 :=
  match format with
  | .yuv4 => (addr.dimX, addr.dimY)
  | .iyuv => if channelPlane = 0 then (addr.dimX, addr.dimY) else (addr.dimX / 2, addr.dimY / 2)
  | .nv12 | .nv21 => if channelPlane = 0 then (addr.dimX, addr.dimY) else (addr.dimX, addr.dimY / 2)
  | _ => (0, 0)

/-- The strides and the memory of a channel. -/
def ImageDesc.setChannel (si d : ImageDesc) (channelPlane : Nat) : ImageDesc :=
  let q := d.plane channelPlane
  let strideX := if (d.format = .nv12 ∨ d.format = .nv21) ∧ channelPlane = 1 then q.addr.strideX / 2 else q.addr.strideX
  { si with
    channelPlane := channelPlane
    plane := fun p =>
      { si.plane p with
        addr := { (si.plane p).addr with strideX := strideX, strideY := q.addr.strideY }
        hostPtr := q.hostPtr
        memSize := q.memSize } }

/-- `vxCreateImageFromChannel` of an image that is allocated and has room for another sub-image. -/
def vxCreateImageFromChannel (d : ImageDesc) (channel : ImageChannel) : Option ImageDesc :=
  if isChannelOf d.format channel then
    let (width, height) := channelDims d.format channel.plane (d.plane channel.plane).addr
    (ownCreateImageInt width height .u8).map (·.setChannel d channel.plane)
  else none

/-- `vx_rectangle_t`. -/
structure VxRectangle where
  startX : UInt32
  startY : UInt32
  endX : UInt32
  endY : UInt32
deriving DecidableEq

def VxRectangle.width (rect : VxRectangle) : UInt32 := rect.endX - rect.startX

def VxRectangle.height (rect : VxRectangle) : UInt32 := rect.endY - rect.startY

/-- A plane of a region from that of its parent. -/
def ImagePlane.roi (q si : ImagePlane) (rect : VxRectangle) : ImagePlane :=
  let si := si.setStrides q.addr
  let memOffset := si.addr.ownComputePatchOffset rect.startX rect.startY
  { si with memOffset := memOffset, hostPtr := q.hostPtr + memOffset.toNat }

def ImageDesc.setRegion (si d : ImageDesc) (rect : VxRectangle) : ImageDesc :=
  { si with plane := fun p => (d.plane p).roi (si.plane p) rect }

/-- `vxCreateImageFromROI` of an image that is allocated and has room for another sub-image. -/
def vxCreateImageFromROI (d : ImageDesc) (rect : VxRectangle) : Option ImageDesc :=
  if rect.endX < rect.startX ∨ rect.endY < rect.startY ∨ d.width < rect.endX ∨ d.height < rect.endY then none
  else (ownCreateImageInt rect.width rect.height d.format).map (·.setRegion d rect)

/-- How an image is obtained.  The buffer of a normal or uniform image is allocated at `host` when it is first needed. -/
inductive ImageSource
  | vxCreateImage (width height : UInt32) (format : DfImage) (host : Nat)
  | vxCreateUniformImage (width height : UInt32) (format : DfImage) (value : Option Nat) (host : Nat)
  | vxCreateImageFromHandle (color : DfImage) (addrs : Nat → ImagepatchAddressing) (ptrs : Nat → Nat)
  | vxCreateImageFromChannel (parent : ImageSource) (channel : ImageChannel)
  | vxCreateImageFromROI (parent : ImageSource) (rect : VxRectangle)

namespace ImageSource

/-- The image and the images it comes from. -/
def line : ImageSource → List ImageSource
  | vxCreateImageFromChannel parent channel => vxCreateImageFromChannel parent channel :: parent.line
  | vxCreateImageFromROI parent rect => vxCreateImageFromROI parent rect :: parent.line
  | src => [src]

/-- The image, when every constructor accepts its arguments. -/
def image : ImageSource → Option ImageDesc
  | vxCreateImage width height format host => (Tiovx.vxCreateImage width height format).map (·.ownAllocImageBuffer host)
  | vxCreateUniformImage width height format value host =>
    (Tiovx.vxCreateUniformImage width height format value).map (·.ownAllocImageBuffer host)
  | vxCreateImageFromHandle color addrs ptrs => Tiovx.vxCreateImageFromHandle color addrs ptrs
  -- an image with `TIVX_IMAGE_MAX_SUBIMAGE_DEPTH` parents is the parent of none
  | vxCreateImageFromChannel parent channel =>
    if parent.line.length ≤ imageMaxSubimageDepth then parent.image.bind (Tiovx.vxCreateImageFromChannel · channel) else none
  | vxCreateImageFromROI parent rect =>
    if parent.line.length ≤ imageMaxSubimageDepth then parent.image.bind (Tiovx.vxCreateImageFromROI · rect) else none

end ImageSource

/-! ### Addresses without a bound -/

namespace ImagepatchAddressing

variable (addr : ImagepatchAddressing)

/-- The bytes before an element of a row. -/
def xOffset (x : Nat) : Nat :=
  if addr.strideX = 0 then 12 * (x / addr.stepX.toNat) / 8 else addr.strideX.toUInt32.toNat * (x / addr.stepX.toNat)

/-- The bytes before an element. -/
def offset (x y : Nat) : Nat := addr.strideY.toUInt32.toNat * (y / addr.stepY.toNat) + addr.xOffset x

/-- The rows that have elements. -/
def rows : Nat := (addr.dimY.toNat + (addr.stepY.toNat - 1)) / addr.stepY.toNat

end ImagepatchAddressing

/-- The bytes of an element: its samples, or the bytes that 12 bits for each sample are in. -/
def elementBytes (format : DfImage) (p : Nat) : Nat :=
  if ownSizeOfChannel format = 0 then (12 * (planeInit format p).1.toNat + 7) / 8
  else (ownSizeOfChannel format * (planeInit format p).1).toNat

/-- The memory of a plane. -/
def ImagePlane.mem (q : ImagePlane) : ByteRange := ⟨q.hostPtr, q.memSize.toNat⟩

/-- Each element of a plane is inside its memory, at the offset that unbounded arithmetic gives, and its size is that of its
rows. -/
structure ImagePlane.LaidOut (q : ImagePlane) (bytes : Nat) : Prop where
  offset : ∀ x y : UInt32, x < q.addr.dimX → y < q.addr.dimY →
    (q.addr.ownComputePatchOffset x y).toNat = q.addr.offset x.toNat y.toNat
  inside : ∀ x y : UInt32, x < q.addr.dimX → y < q.addr.dimY →
    ByteRange.Inside ⟨q.hostPtr + q.addr.offset x.toNat y.toNat, bytes⟩ q.mem
  size : q.memSize.toNat = q.addr.strideY.toUInt32.toNat * q.addr.rows

def ImageDesc.LaidOut (d : ImageDesc) : Prop := ∀ p < d.planes, (d.plane p).LaidOut (elementBytes d.format p)

/-- The memory of each plane is inside that of its plane of the parent, from the element at (x, y) on. -/
def ImageDesc.Within (d parent : ImageDesc) (x y : Nat) : Prop :=
  ∀ p < d.planes, (d.plane p).hostPtr = (parent.plane (d.channelPlane + p)).hostPtr +
      (parent.plane (d.channelPlane + p)).addr.offset x y ∧
    ByteRange.Inside (d.plane p).mem (parent.plane (d.channelPlane + p)).mem

/-- The planes of an image from a channel or a region are inside those of its parent. -/
def ImageSource.InParent : ImageSource → ImageDesc → Prop
  | .vxCreateImageFromChannel parent _, d => ∃ dp, parent.image = some dp ∧ d.Within dp 0 0
  | .vxCreateImageFromROI parent rect, d =>
    ∃ dp, parent.image = some dp ∧ d.Within dp rect.startX.toNat rect.startY.toNat
  | _, _ => True

/-- What is asked of an image. -/
def ImageSource.Ok (src : ImageSource) : Prop := ∃ d, src.image = some d ∧ d.LaidOut ∧ src.InParent d

/-! ### When images are laid out -/

def DfImage.packed (format : DfImage) : Bool := ownSizeOfChannel format = 0

/-- The bytes of a row of the first plane. -/
def rowBytes (format : DfImage) (width : Nat) : Nat :=
  if format.packed then (12 * width + 7) / 8 else width * elementBytes format 0

/-- The height of the one format with half as many rows in a plane that `ownIsValidDimensions` does not check is even. -/
def heightFits (format : DfImage) (height : UInt32) : Prop := format = .nv12P12 → height.toNat % 2 = 0

/-- The first plane, with its rows aligned, has a size of 32 bits, and so have the bits of a packed row. -/
def createFits (width height : UInt32) (format : DfImage) : Prop :=
  heightFits format height ∧ (format.packed = true → 12 * width.toNat + 7 < 2 ^ 32) ∧
    alignUp 16 (rowBytes format width.toNat) * height.toNat < 2 ^ 32

/-- The last element of a row ends before the next row, and the rows have a size of 32 bits; `width` and `height` are those of the
first plane. -/
def handleFits (color : DfImage) (addrs : Nat → ImagepatchAddressing) : Prop :=
  heightFits color (addrs 0).dimY ∧ ∀ p < planesOf color,
    let lastX := ((addrs 0).dimX.toNat - 1) / (planeInit color p).2.1.toNat
    let strideY := (addrs p).strideY.toUInt32.toNat
    strideY * (addrs 0).dimY.toNat < 2 ^ 32 ∧
      if color.packed then 12 * lastX < 2 ^ 32 ∧ 12 * lastX / 8 + elementBytes color p ≤ strideY
      else (addrs p).strideX.toUInt32.toNat * lastX + elementBytes color p ≤ strideY

/-- A region begins in the first column, or ends above the last row; one that is empty at the right edge has room for its rows in
each plane, and its place is counted in 32 bits. -/
def roiFits (d : ImageDesc) (rect : VxRectangle) : Prop :=
  heightFits d.format rect.height ∧
    (rect.startX = 0 ∨ (rect.startX < d.width ∧ rect.endY < d.height) ∨
      (rect.startX = d.width ∧ ∀ p < d.planes,
        let addr := (d.plane p).addr
        (addr.strideX = 0 → 12 * (rect.startX.toNat / addr.stepX.toNat) < 2 ^ 32) ∧
          addr.offset rect.startX.toNat rect.startY.toNat + addr.strideY.toUInt32.toNat * (rect.height.toNat / addr.stepY.toNat) ≤
            addr.strideY.toUInt32.toNat * (d.height.toNat / addr.stepY.toNat)))

/-- The arguments of the constructor of an image are those it can lay out. -/
def ImageSource.Fits : ImageSource → Prop
  | .vxCreateImage width height format _ => createFits width height format
  | .vxCreateUniformImage width height format _ _ => createFits width height format
  | .vxCreateImageFromHandle color addrs _ => handleFits color addrs
  | .vxCreateImageFromChannel _ _ => True
  | .vxCreateImageFromROI parent rect => ∀ d, parent.image = some d → roiFits d rect

/-! ### Planes that fit -/

theorem ownIsOdd_eq (a : UInt32) : ownIsOdd a = decide (a.toNat % 2 = 1) := by
  have h : (a &&& 1 != 0) = (a.toNat % 2 != 0) := by
    have : (a &&& 1).toNat = a.toNat % 2 := by rw [UInt32.toNat_and]; exact Nat.and_one_is_mod _
    rw [← this]
    simp only [bne, ← UInt32.toNat_inj, UInt32.toNat_zero, beq_eq_decide]
  rw [ownIsOdd, h]
  rcases Nat.mod_two_eq_zero_or_one a.toNat with h0 | h0 <;> rw [h0] <;> rfl

namespace ImagepatchAddressing

variable {addr : ImagepatchAddressing}

theorem xOffset_mono {x x' : Nat} (h : x ≤ x') : addr.xOffset x ≤ addr.xOffset x' := by
  have hd : x / addr.stepX.toNat ≤ x' / addr.stepX.toNat := Nat.div_le_div_right h
  unfold xOffset
  split
  · exact Nat.div_le_div_right (Nat.mul_le_mul_left _ hd)
  · exact Nat.mul_le_mul_left _ hd

theorem xOffset_zero : addr.xOffset 0 = 0 := by
  unfold xOffset
  split <;> simp

/-- The offset is that of unbounded arithmetic where that fits. -/
theorem ownComputePatchOffset_toNat {x y : UInt32} (hp : addr.strideX = 0 → 12 * (x.toNat / addr.stepX.toNat) < 2 ^ 32)
    (h : addr.offset x.toNat y.toNat < 2 ^ 32) :
    (addr.ownComputePatchOffset x y).toNat = addr.offset x.toNat y.toNat := by
  unfold offset xOffset at *
  unfold ownComputePatchOffset
  by_cases h0 : addr.strideX = 0
  · simp only [h0, if_true] at h ⊢
    have hx := hp h0
    simp only [UInt32.toNat_add, UInt32.toNat_mul, UInt32.toNat_div, UInt32.reduceToNat]
    rw [Nat.mod_eq_of_lt hx, Nat.mod_eq_of_lt (a := addr.strideY.toUInt32.toNat * _) (by omega)]
    exact Nat.mod_eq_of_lt h
  · simp only [h0, if_false] at h ⊢
    simp only [UInt32.toNat_add, UInt32.toNat_mul, UInt32.toNat_div]
    rw [Nat.mod_eq_of_lt (a := addr.strideY.toUInt32.toNat * _) (by omega),
      Nat.mod_eq_of_lt (a := addr.strideX.toUInt32.toNat * _) (by omega)]
    exact Nat.mod_eq_of_lt h

/-- An offset that is exact has counted the bits of a packed row in 32 bits. -/
theorem packed_of_offset {x y : UInt32} (h : (addr.ownComputePatchOffset x y).toNat = addr.offset x.toNat y.toNat)
    (h0 : addr.strideX = 0) : 12 * (x.toNat / addr.stepX.toNat) < 2 ^ 32 := by
  simp only [ownComputePatchOffset, offset, xOffset, h0, if_true, UInt32.toNat_add, UInt32.toNat_mul, UInt32.toNat_div,
    UInt32.reduceToNat] at h
  have h1 := Nat.mod_le (addr.strideY.toUInt32.toNat * (y.toNat / addr.stepY.toNat)) (2 ^ 32)
  have h2 := Nat.mod_le (addr.strideY.toUInt32.toNat * (y.toNat / addr.stepY.toNat) % 2 ^ 32 +
    12 * (x.toNat / addr.stepX.toNat) % 2 ^ 32 / 8) (2 ^ 32)
  have h3 := Nat.mod_lt (12 * (x.toNat / addr.stepX.toNat)) (y := 2 ^ 32) (by decide)
  omega

theorem memSize_toNat (addr : ImagepatchAddressing) : addr.memSize.toNat =
    addr.strideY.toUInt32.toNat * addr.dimY.toNat % 2 ^ 32 / addr.stepY.toNat := by
  simp only [memSize, UInt32.toNat_div, UInt32.toNat_mul]

end ImagepatchAddressing

/-- The rows of a plane are whole, their sizes have 32 bits, and the last element of a row ends before the next. -/
structure PlaneFits (q : ImagePlane) (bytes : Nat) : Prop where
  bytes_pos : 0 < bytes
  stepX : q.addr.stepX = 1 ∨ q.addr.stepX = 2
  stepY : q.addr.stepY = q.addr.stepX
  whole : q.addr.dimY.toNat % q.addr.stepY.toNat = 0
  size : q.memSize.toNat = q.addr.strideY.toUInt32.toNat * (q.addr.dimY.toNat / q.addr.stepY.toNat)
  stride : q.addr.strideY.toUInt32.toNat * q.addr.dimY.toNat < 2 ^ 32
  le : bytes ≤ q.addr.strideY.toUInt32.toNat
  row : 0 < q.addr.dimX.toNat → q.addr.xOffset (q.addr.dimX.toNat - 1) + bytes ≤ q.addr.strideY.toUInt32.toNat
  packed : q.addr.strideX = 0 → 12 * ((q.addr.dimX.toNat - 1) / q.addr.stepX.toNat) < 2 ^ 32

namespace PlaneFits

variable {q : ImagePlane} {bytes : Nat}

theorem step_cases (h : PlaneFits q bytes) : (q.addr.stepX.toNat = 1 ∧ q.addr.stepY.toNat = 1) ∨
    (q.addr.stepX.toNat = 2 ∧ q.addr.stepY.toNat = 2) := by
  rw [h.stepY]
  rcases h.stepX with h | h
  · exact .inl ⟨by rw [h]; rfl, by rw [h]; rfl⟩
  · exact .inr ⟨by rw [h]; rfl, by rw [h]; rfl⟩

theorem rows_eq (h : PlaneFits q bytes) : q.addr.rows = q.addr.dimY.toNat / q.addr.stepY.toNat := by
  have hw := h.whole
  unfold ImagepatchAddressing.rows
  rcases h.step_cases with ⟨-, h2⟩ | ⟨-, h2⟩
  · simp only [h2, Nat.sub_self, Nat.add_zero]
  · rw [h2] at hw ⊢
    omega

/-- An element ends inside its row. -/
theorem xOffset_le (h : PlaneFits q bytes) {x : Nat} (hx : x < q.addr.dimX.toNat) :
    q.addr.xOffset x + bytes ≤ q.addr.strideY.toUInt32.toNat := by
  have h1 := h.row (by omega)
  have h2 : q.addr.xOffset x ≤ q.addr.xOffset (q.addr.dimX.toNat - 1) := ImagepatchAddressing.xOffset_mono (by omega)
  omega

/-- The element at (x, y) ends inside the rows. -/
theorem offset_le (h : PlaneFits q bytes) {x y : Nat} (hx : x < q.addr.dimX.toNat) (hy : y < q.addr.dimY.toNat) :
    q.addr.offset x y + bytes ≤ q.addr.strideY.toUInt32.toNat * (q.addr.dimY.toNat / q.addr.stepY.toNat) := by
  have hrow := h.xOffset_le hx
  have hw := h.whole
  have hlt : y / q.addr.stepY.toNat + 1 ≤ q.addr.dimY.toNat / q.addr.stepY.toNat := by
    rcases h.step_cases with ⟨-, h2⟩ | ⟨-, h2⟩
    · rw [h2, Nat.div_one, Nat.div_one]
      omega
    · rw [h2] at hw ⊢
      omega
  calc q.addr.offset x y + bytes ≤ q.addr.strideY.toUInt32.toNat * (y / q.addr.stepY.toNat) + q.addr.strideY.toUInt32.toNat := by
        simp only [ImagepatchAddressing.offset]
        omega
    _ = q.addr.strideY.toUInt32.toNat * (y / q.addr.stepY.toNat + 1) := (Nat.mul_succ _ _).symm
    _ ≤ _ := Nat.mul_le_mul_left _ hlt

theorem size_lt (h : PlaneFits q bytes) :
    q.addr.strideY.toUInt32.toNat * (q.addr.dimY.toNat / q.addr.stepY.toNat) < 2 ^ 32 :=
  Nat.lt_of_le_of_lt (Nat.mul_le_mul_left _ (Nat.div_le_self _ _)) h.stride

theorem packed_lt (h : PlaneFits q bytes) {x : Nat} (hx : x < q.addr.dimX.toNat) (h0 : q.addr.strideX = 0) :
    12 * (x / q.addr.stepX.toNat) < 2 ^ 32 :=
  Nat.lt_of_le_of_lt (Nat.mul_le_mul_left _ (Nat.div_le_div_right (by omega))) (h.packed h0)

/-- A plane that fits is laid out. -/
theorem laidOut (h : PlaneFits q bytes) : q.LaidOut bytes := by
  have hlt := h.size_lt
  have hoff : ∀ x y : UInt32, x < q.addr.dimX → y < q.addr.dimY → q.addr.offset x.toNat y.toNat + bytes ≤ q.memSize.toNat := by
    intro x y hx hy
    rw [h.size]
    exact h.offset_le (UInt32.lt_iff_toNat_lt.1 hx) (UInt32.lt_iff_toNat_lt.1 hy)
  refine ⟨fun x y hx hy => ?_, fun x y hx hy => ?_, by rw [h.rows_eq, h.size]⟩
  · have := hoff x y hx hy
    have := h.size
    exact ImagepatchAddressing.ownComputePatchOffset_toNat (h.packed_lt (UInt32.lt_iff_toNat_lt.1 hx)) (by omega)
  · have := hoff x y hx hy
    refine ⟨Nat.le_add_right _ _, ?_⟩
    simp only [ByteRange.stop, ImagePlane.mem]
    omega

/-- A plane whose size is computed from its stride. -/
theorem of_row (hb : 0 < bytes) (hX : q.addr.stepX = 1 ∨ q.addr.stepX = 2) (hY : q.addr.stepY = q.addr.stepX)
    (hm : q.memSize = q.addr.memSize) (hwhole : q.addr.dimY.toNat % q.addr.stepY.toNat = 0)
    (hstride : q.addr.strideY.toUInt32.toNat * q.addr.dimY.toNat < 2 ^ 32) (hle : bytes ≤ q.addr.strideY.toUInt32.toNat)
    (hrow : 0 < q.addr.dimX.toNat → q.addr.xOffset (q.addr.dimX.toNat - 1) + bytes ≤ q.addr.strideY.toUInt32.toNat)
    (hp : q.addr.strideX = 0 → 12 * ((q.addr.dimX.toNat - 1) / q.addr.stepX.toNat) < 2 ^ 32) : PlaneFits q bytes := by
  refine ⟨hb, hX, hY, hwhole, ?_, hstride, hle, hrow, hp⟩
  rw [hm, ImagepatchAddressing.memSize_toNat, Nat.mod_eq_of_lt hstride]
  exact Nat.mul_div_assoc _ (Nat.dvd_of_mod_eq_zero hwhole)

/-- Where the size in 32 bits is that of the rows, the rows are whole and their size has 32 bits. -/
theorem whole_of_size {strideY height step : Nat} (hstep : step = 1 ∨ step = 2) (hs : 0 < strideY)
    (h : strideY * height % 2 ^ 32 / step = strideY * ((height + (step - 1)) / step)) :
    height % step = 0 ∧ strideY * height < 2 ^ 32 := by
  rcases hstep with rfl | rfl
  · simp only [Nat.div_one, Nat.sub_self, Nat.add_zero] at h
    have := Nat.mod_lt (strideY * height) (y := 2 ^ 32) (by decide)
    exact ⟨Nat.mod_one _, by omega⟩
  · obtain ⟨k, rfl | rfl⟩ : ∃ k, height = 2 * k ∨ height = 2 * k + 1 := ⟨height / 2, by omega⟩
    · have he : strideY * (2 * k) = 2 * (strideY * k) := by ring
      have hd : (2 * k + (2 - 1)) / 2 = k := by omega
      rw [hd, he] at h
      rw [he]
      omega
    · -- an odd number of rows is not halved
      have he : strideY * (2 * k + 1) = 2 * (strideY * k) + strideY := by ring
      have hd : (2 * k + 1 + (2 - 1)) / 2 = k + 1 := by omega
      rw [hd, he, Nat.mul_succ] at h
      omega

/-- A plane that is laid out, and has elements, fits where its size is computed from its stride. -/
theorem of_laidOut (h : q.LaidOut bytes) (hb : 0 < bytes) (hX : q.addr.stepX = 1 ∨ q.addr.stepX = 2)
    (hY : q.addr.stepY = q.addr.stepX) (hm : q.memSize = q.addr.memSize) (hw : 0 < q.addr.dimX.toNat)
    (hh : 0 < q.addr.dimY.toNat) : PlaneFits q bytes := by
  have hsize := h.size
  rw [hm, ImagepatchAddressing.memSize_toNat] at hsize
  have hstep : (q.addr.stepX.toNat = 1 ∧ q.addr.stepY.toNat = 1) ∨ (q.addr.stepX.toNat = 2 ∧ q.addr.stepY.toNat = 2) := by
    rw [hY]
    rcases hX with h | h
    · exact .inl ⟨by rw [h]; rfl, by rw [h]; rfl⟩
    · exact .inr ⟨by rw [h]; rfl, by rw [h]; rfl⟩
  -- the last element of the first row, and that of the last row
  have hx : (UInt32.ofNat (q.addr.dimX.toNat - 1)).toNat = q.addr.dimX.toNat - 1 :=
    UInt32.toNat_ofNat_of_lt' (Nat.lt_of_le_of_lt (Nat.sub_le _ _) q.addr.dimX.toNat_lt)
  have hy : (UInt32.ofNat (q.addr.dimY.toNat - 1)).toNat = q.addr.dimY.toNat - 1 :=
    UInt32.toNat_ofNat_of_lt' (Nat.lt_of_le_of_lt (Nat.sub_le _ _) q.addr.dimY.toNat_lt)
  have hx' : UInt32.ofNat (q.addr.dimX.toNat - 1) < q.addr.dimX := by
    rw [UInt32.lt_iff_toNat_lt, hx]
    omega
  have hy' : UInt32.ofNat (q.addr.dimY.toNat - 1) < q.addr.dimY := by
    rw [UInt32.lt_iff_toNat_lt, hy]
    omega
  have hin := (h.inside _ _ hx' hy').2
  simp only [ByteRange.stop, ImagePlane.mem, ImagepatchAddressing.offset, hx, hy] at hin
  have hlast : (q.addr.dimY.toNat - 1) / q.addr.stepY.toNat + 1 = q.addr.rows := by
    unfold ImagepatchAddressing.rows
    rcases hstep with ⟨-, h2⟩ | ⟨-, h2⟩ <;> rw [h2] <;> omega
  have hmul : q.addr.strideY.toUInt32.toNat * q.addr.rows =
      q.addr.strideY.toUInt32.toNat * ((q.addr.dimY.toNat - 1) / q.addr.stepY.toNat) + q.addr.strideY.toUInt32.toNat := by
    rw [← hlast, Nat.mul_succ]
  have hrow : q.addr.xOffset (q.addr.dimX.toNat - 1) + bytes ≤ q.addr.strideY.toUInt32.toNat := by
    have := h.size
    omega
  have hwhole := whole_of_size (hstep.imp And.right And.right) (by omega) hsize
  refine of_row hb hX hY hm hwhole.1 hwhole.2 (by omega) (fun _ => hrow) (fun h0 => ?_)
  have hoff := h.offset _ _ hx' hy'
  have := ImagepatchAddressing.packed_of_offset hoff h0
  rwa [hx] at this

end PlaneFits

/-! ### The planes of a format -/

theorem planeInit_step (format : DfImage) (p : Nat) : (planeInit format p).2.1 = 1 ∨ (planeInit format p).2.1 = 2 := by
  cases format <;> rcases p with _ | p <;> first | exact .inl rfl | exact .inr rfl

theorem planeInit_step_zero (format : DfImage) : (planeInit format 0).2.1 = 1 := by
  cases format <;> rfl

theorem elementBytes_pos (format : DfImage) (p : Nat) : 0 < elementBytes format p := by
  cases format <;> rcases p with _ | p <;> simp [elementBytes, planeInit, ownSizeOfChannel]

theorem strideX_eq_zero (format : DfImage) (p : Nat) :
    (ownSizeOfChannel format).toInt32 * (planeInit format p).1.toInt32 = 0 ↔ format.packed = true := by
  cases format <;> rcases p with _ | p <;> simp [planeInit, ownSizeOfChannel, DfImage.packed]

/-- What a plane of a format asks of the dimensions, and what it has beside the first plane. -/
theorem plane_cases {format : DfImage} {width height : UInt32} (hv : ownIsValidDimensions width height format = true)
    (hh : heightFits format height) {p : Nat} (hp : p < planesOf format) :
    ((planeInit format p).2.1 = 1 ∧ elementBytes format p = elementBytes format 0 ∨
      (planeInit format p).2.1 = 2 ∧ height.toNat % 2 = 0 ∧
        (format.packed = true ∨ width.toNat % 2 = 0 ∧ elementBytes format p ≤ 2 ∧ elementBytes format 0 = 1)) := by
  rcases p with _ | p
  · exact .inl ⟨planeInit_step_zero format, rfl⟩
  · have hhalf : format = .nv12 ∨ format = .nv21 ∨ format = .iyuv → width.toNat % 2 = 0 ∧ height.toNat % 2 = 0 := by
      intro hf
      simp only [ownIsValidDimensions, ownIsOdd_eq] at hv
      rcases hf with rfl | rfl | rfl <;> simpa using hv
    cases format <;> simp only [planesOf] at hp <;> try omega
    case yuv4 => exact .inl ⟨rfl, rfl⟩
    case nv12P12 => exact .inr ⟨rfl, hh rfl, .inl rfl⟩
    case nv12 => exact .inr ⟨rfl, (hhalf (by simp)).2, .inr ⟨(hhalf (by simp)).1, Nat.le_refl 2, rfl⟩⟩
    case nv21 => exact .inr ⟨rfl, (hhalf (by simp)).2, .inr ⟨(hhalf (by simp)).1, Nat.le_refl 2, rfl⟩⟩
    case iyuv => exact .inr ⟨rfl, (hhalf (by simp)).2, .inr ⟨(hhalf (by simp)).1, Nat.le_succ 1, rfl⟩⟩

theorem bitsPerPixel_eq {format : DfImage} (h : format.packed = true) (p : Nat) : (planeInit format p).2.2 = 12 := by
  cases format <;> rcases p with _ | p <;> first | rfl | exact absurd h (by decide)

section Init

variable {width height : UInt32} {format : DfImage} {p : Nat}

/-- The stride `ownInitPlane` computes. -/
theorem strideY_init (width height : UInt32) (format : DfImage) (p : Nat) :
    ((ownInitImage width height format).plane p).addr.strideY.toUInt32.toNat =
      if format.packed then ((width.toNat * 12 % 2 ^ 32 + 7) % 2 ^ 32 / 8 + 15) % 2 ^ 32 / 16 * 16
      else (width.toNat * elementBytes format p % 2 ^ 32 / (planeInit format p).2.1.toNat + 15) % 2 ^ 32 / 16 * 16 := by
  have hs : ((ownInitImage width height format).plane p).addr.strideY =
      (if ownSizeOfChannel format ≠ 0 then
        tivxAlign (width * ((ownSizeOfChannel format).toInt32 * (planeInit format p).1.toInt32).toUInt32 /
          (planeInit format p).2.1) defaultStrideYAlign
      else tivxAlign ((width * (planeInit format p).2.2 + 7) / 8) defaultStrideYAlign).toInt32 := rfl
  rw [hs, UInt32.toUInt32_toInt32]
  by_cases h : ownSizeOfChannel format = 0
  · have hp : format.packed = true := decide_eq_true h
    simp only [h, ne_eq, not_true, if_false, hp, if_true, tivxAlign_toNat, UInt32.toNat_div, UInt32.toNat_add, UInt32.toNat_mul,
      UInt32.reduceToNat]
    rw [bitsPerPixel_eq hp]
    rfl
  · have hp : format.packed = false := decide_eq_false h
    simp only [h, ne_eq, not_false_eq_true, if_true, hp, Bool.false_eq_true, if_false, tivxAlign_toNat, UInt32.toNat_div,
      UInt32.toNat_mul width, Int32.toUInt32_mul, UInt32.toUInt32_toInt32, elementBytes]

end Init

/-- What every image has: one width and height, the steps of its format, and a stride of 0 exactly where it is packed. -/
structure ImageShape (d : ImageDesc) : Prop where
  planes : 0 < d.planes
  dimX : ∀ p, (d.plane p).addr.dimX = d.width
  dimY : ∀ p, (d.plane p).addr.dimY = d.height
  stepX : ∀ p, (d.plane p).addr.stepX = (planeInit d.format p).2.1
  stepY : ∀ p, (d.plane p).addr.stepY = (planeInit d.format p).2.1
  packed : ∀ p < d.planes, (d.plane p).addr.strideX = 0 ↔ d.format.packed = true

theorem planesOf_pos {format : DfImage} (h : format ≠ .virt) : 0 < planesOf format := by
  cases format <;> first | exact absurd rfl h | exact Nat.le_of_ble_eq_true rfl

theorem ImageShape.init (width height : UInt32) {format : DfImage} (h : format ≠ .virt) :
    ImageShape (ownInitImage width height format) where
  planes := planesOf_pos h
  dimX := fun _ => rfl
  dimY := fun _ => rfl
  stepX := fun _ => rfl
  stepY := fun _ => rfl
  packed := fun p _ => strideX_eq_zero format p

/-- The planes of an image fit. -/
def ImageDesc.Fits (d : ImageDesc) : Prop := ∀ p < d.planes, PlaneFits (d.plane p) (elementBytes d.format p)

theorem ImageDesc.Fits.laidOut {d : ImageDesc} (h : d.Fits) : d.LaidOut := fun p hp => (h p hp).laidOut

/-- An image with elements whose sizes are computed from its strides fits where it is laid out. -/
theorem ImageDesc.fits_of_laidOut {d : ImageDesc} (h : d.LaidOut) (S : ImageShape d)
    (hm : ∀ p < d.planes, (d.plane p).memSize = (d.plane p).addr.memSize) (hw : 0 < d.width.toNat) (hh : 0 < d.height.toNat) :
    d.Fits := by
  intro p hp
  refine PlaneFits.of_laidOut (h p hp) (elementBytes_pos _ _) ?_ ?_ (hm p hp) ?_ ?_
  · rw [S.stepX]
    exact planeInit_step _ _
  · rw [S.stepX, S.stepY]
  · rw [S.dimX]
    exact hw
  · rw [S.dimY]
    exact hh

theorem xOffset_packed {addr : ImagepatchAddressing} (h : addr.strideX = 0) (x : Nat) :
    addr.xOffset x = 12 * (x / addr.stepX.toNat) / 8 := if_pos h

theorem xOffset_bytes {addr : ImagepatchAddressing} (h : addr.strideX ≠ 0) (x : Nat) :
    addr.xOffset x = addr.strideX.toUInt32.toNat * (x / addr.stepX.toNat) := if_neg h

/-- A packed row whose last element ends inside the stride that 32 bits compute is aligned without a wrap. -/
theorem packed_row {w e : Nat} (he : 0 < e) (hpk : 12 * (w - 1) < 2 ^ 32)
    (h : 12 * (w - 1) / 8 + e ≤ ((w * 12 % 2 ^ 32 + 7) % 2 ^ 32 / 8 + 15) % 2 ^ 32 / 16 * 16) :
    12 * w + 7 < 2 ^ 32 ∧
      ((w * 12 % 2 ^ 32 + 7) % 2 ^ 32 / 8 + 15) % 2 ^ 32 / 16 * 16 = alignUp 16 ((12 * w + 7) / 8) := by
  have hmod : (w * 12 % 2 ^ 32 + 7) % 2 ^ 32 = (12 * w + 7) % 2 ^ 32 := by rw [Nat.mod_add_mod, Nat.mul_comm]
  have ha := Nat.mod_lt (12 * w + 7) (y := 2 ^ 32) (by decide)
  rw [hmod, Nat.mod_eq_of_lt (a := (12 * w + 7) % 2 ^ 32 / 8 + 15) (by omega)] at h ⊢
  have hlt : 12 * w + 7 < 2 ^ 32 := by
    refine Nat.lt_of_not_le (fun hge => ?_)
    have hsub : (12 * w + 7) % 2 ^ 32 = 12 * w + 7 - 2 ^ 32 := by omega
    omega
  rw [Nat.mod_eq_of_lt hlt]
  exact ⟨hlt, rfl⟩

/-- A row of bytes that fits in the stride that 32 bits compute is aligned without a wrap. -/
theorem bytes_row {n : Nat} (hn : 0 < n) (h : n ≤ (n % 2 ^ 32 + 15) % 2 ^ 32 / 16 * 16) :
    (n % 2 ^ 32 + 15) % 2 ^ 32 / 16 * 16 = alignUp 16 n := by
  have ha := Nat.mod_lt (n % 2 ^ 32 + 15) (y := 2 ^ 32) (by decide)
  have hlt : n < 2 ^ 32 := by omega
  rw [Nat.mod_eq_of_lt hlt] at h ⊢
  have hlt' : n + 15 < 2 ^ 32 := by
    refine Nat.lt_of_not_le (fun hge => ?_)
    have hsub : (n + 15) % 2 ^ 32 = n + 15 - 2 ^ 32 := by omega
    omega
  rw [Nat.mod_eq_of_lt hlt']
  rfl

section Create

variable {width height : UInt32} {format : DfImage}

/-- The stride between the elements of a row. -/
theorem strideX_init (h : format.packed = false) (p : Nat) :
    ((ownInitImage width height format).plane p).addr.strideX.toUInt32.toNat = elementBytes format p := by
  have hs : ((ownInitImage width height format).plane p).addr.strideX =
      (ownSizeOfChannel format).toInt32 * (planeInit format p).1.toInt32 := rfl
  rw [hs, Int32.toUInt32_mul, UInt32.toUInt32_toInt32, UInt32.toUInt32_toInt32, elementBytes,
    if_neg (of_decide_eq_false h)]

theorem createFits_of_fits (hw : 0 < width.toNat) (hf : format ≠ .virt) (h : (ownInitImage width height format).Fits) :
    createFits width height format := by
  have S := ImageShape.init width height hf
  have h0 := h 0 (planesOf_pos hf)
  have hstep : (planeInit format 0).2.1.toNat = 1 := by rw [planeInit_step_zero]; rfl
  have hrow := h0.row hw
  have hsY := strideY_init width height format 0
  have hmul := h0.stride
  have hwidth := width.toNat_lt
  refine ⟨fun hn => ?_, ?_⟩
  · subst hn
    exact (h 1 Nat.one_lt_two).whole
  have hdim : ((ownInitImage width height format).plane 0).addr.dimX.toNat = width.toNat := rfl
  have hfmt : (ownInitImage width height format).format = format := rfl
  have hpos := elementBytes_pos format 0
  -- the stride of the first plane is its row, aligned
  have key : (format.packed = true → 12 * width.toNat + 7 < 2 ^ 32) ∧
      ((ownInitImage width height format).plane 0).addr.strideY.toUInt32.toNat = alignUp 16 (rowBytes format width.toNat) := by
    by_cases hp : format.packed = true
    · have hx := (S.packed 0 (planesOf_pos hf)).2 hp
      have hpk := h0.packed hx
      rw [xOffset_packed hx, S.stepX, hsY, if_pos hp] at hrow
      rw [S.stepX] at hpk
      rw [hsY, if_pos hp, rowBytes, if_pos hp]
      simp only [hdim, hfmt, hstep, Nat.div_one] at hrow hpk
      obtain ⟨h1, h2⟩ := packed_row hpos hpk hrow
      exact ⟨fun _ => h1, h2⟩
    · have hp' : format.packed = false := by simpa using hp
      have hx : ((ownInitImage width height format).plane 0).addr.strideX ≠ 0 :=
        fun hx => hp ((S.packed 0 (planesOf_pos hf)).1 hx)
      rw [xOffset_bytes hx, strideX_init hp', S.stepX, hsY, if_neg hp] at hrow
      rw [hsY, if_neg hp, rowBytes, if_neg hp]
      simp only [hdim, hfmt, hstep, Nat.div_one] at hrow ⊢
      have hprod : elementBytes format 0 * (width.toNat - 1) + elementBytes format 0 = width.toNat * elementBytes format 0 := by
        obtain ⟨k, hk⟩ : ∃ k, width.toNat = k + 1 := ⟨width.toNat - 1, by omega⟩
        rw [hk, Nat.add_sub_cancel]
        ring
      rw [hprod] at hrow
      exact ⟨fun hn => absurd hn hp, bytes_row (Nat.mul_pos hw hpos) hrow⟩
  refine ⟨key.1, ?_⟩
  rw [← key.2]
  exact hmul

/-- The row of a plane ends inside its stride, which is not longer than that of the first plane. -/
theorem row_of_createFits (hw : 0 < width.toNat) (hh : 0 < height.toNat) (hf : format ≠ .virt)
    (hv : ownIsValidDimensions width height format = true) (h : createFits width height format) {p : Nat}
    (hp : p < planesOf format) :
    ((ownInitImage width height format).plane p).addr.xOffset (width.toNat - 1) + elementBytes format p ≤
        ((ownInitImage width height format).plane p).addr.strideY.toUInt32.toNat ∧
      ((ownInitImage width height format).plane p).addr.strideY.toUInt32.toNat ≤ alignUp 16 (rowBytes format width.toNat) := by
  obtain ⟨heven, hpk, hmul⟩ := h
  have S := ImageShape.init width height hf
  have hlt : alignUp 16 (rowBytes format width.toNat) < 2 ^ 32 := Nat.lt_of_le_of_lt (Nat.le_mul_of_pos_right _ hh) hmul
  have hle := ByteRange.le_alignUp (a := 16) (by decide) (rowBytes format width.toNat)
  have hsY := strideY_init width height format p
  have hfmt : (ownInitImage width height format).format = format := rfl
  by_cases hpack : format.packed = true
  · have hx := (S.packed p hp).2 hpack
    have hlt12 := hpk hpack
    have hrowBytes : rowBytes format width.toNat = (12 * width.toNat + 7) / 8 := if_pos hpack
    rw [if_pos hpack, Nat.mod_eq_of_lt (a := width.toNat * 12) (by omega), Nat.mod_eq_of_lt (a := width.toNat * 12 + 7) (by omega),
      Nat.mod_eq_of_lt (by omega)] at hsY
    rw [xOffset_packed hx, hsY, hrowBytes, S.stepX, hfmt, Nat.mul_comm width.toNat 12]
    refine ⟨?_, Nat.le_refl _⟩
    have hbytes : (planeInit format p).2.1.toNat = 1 ∧ elementBytes format p = 2 ∨
        (planeInit format p).2.1.toNat = 2 ∧ elementBytes format p = 3 := by
      cases format <;> rcases p with _ | p <;>
        first | exact absurd hpack (by decide) | simp [elementBytes, planeInit, ownSizeOfChannel]
    have h16 : 16 ≤ ((12 * width.toNat + 7) / 8 + 15) / 16 * 16 := by omega
    have hup : (12 * width.toNat + 7) / 8 ≤ ((12 * width.toNat + 7) / 8 + 15) / 16 * 16 := by omega
    generalize ((12 * width.toNat + 7) / 8 + 15) / 16 * 16 = strideY at h16 hup ⊢
    rcases hbytes with ⟨h1, h2⟩ | ⟨h1, h2⟩ <;> rw [h1, h2] <;> omega
  · have hpack' : format.packed = false := by simpa using hpack
    have hx : ((ownInitImage width height format).plane p).addr.strideX ≠ 0 := fun hx => hpack ((S.packed p hp).1 hx)
    have hrowBytes : rowBytes format width.toNat = width.toNat * elementBytes format 0 := if_neg hpack
    rw [if_neg hpack] at hsY
    rw [xOffset_bytes hx, strideX_init hpack', S.stepX, hfmt, hsY]
    rw [hrowBytes] at hle hlt ⊢
    rcases plane_cases hv heven hp with ⟨hs, he⟩ | ⟨hs, he, hor⟩
    · have hprod : elementBytes format 0 * (width.toNat - 1) + elementBytes format 0 =
          width.toNat * elementBytes format 0 := by
        obtain ⟨k, hk⟩ : ∃ k, width.toNat = k + 1 := ⟨width.toNat - 1, by omega⟩
        rw [hk, Nat.add_sub_cancel]
        ring
      have hs1 : (planeInit format p).2.1.toNat = 1 := by rw [hs]; rfl
      rw [hs1, he, Nat.div_one, Nat.div_one, hprod]
      simp only [alignUp] at hlt hle ⊢
      omega
    · obtain ⟨hw2, he2, he0⟩ := hor.resolve_left hpack
      have hs2 : (planeInit format p).2.1.toNat = 2 := by rw [hs]; rfl
      have hpos := elementBytes_pos format p
      rw [he0, Nat.mul_one] at hlt hle ⊢
      rw [hs2]
      have h2 : 2 * alignUp 16 width.toNat < 2 ^ 32 := by
        have := Nat.mul_le_mul_left (alignUp 16 width.toNat) (show 2 ≤ height.toNat by omega)
        rw [hrowBytes, he0, Nat.mul_one] at hmul
        omega
      simp only [alignUp] at h2 hlt hle ⊢
      obtain he1 | he1 : elementBytes format p = 1 ∨ elementBytes format p = 2 := by omega
      · rw [he1]
        omega
      · rw [he1]
        omega

theorem fits_of_createFits (hw : 0 < width.toNat) (hh : 0 < height.toNat) (hf : format ≠ .virt)
    (hv : ownIsValidDimensions width height format = true) (h : createFits width height format) :
    (ownInitImage width height format).Fits := by
  intro p hp
  obtain ⟨hrow, hle⟩ := row_of_createFits hw hh hf hv h hp
  obtain ⟨heven, hpk, hmul⟩ := h
  have S := ImageShape.init width height hf
  refine PlaneFits.of_row (elementBytes_pos _ _) ?_ rfl rfl ?_ ?_ (Nat.le_trans (Nat.le_add_left _ _) hrow) (fun _ => hrow)
    (fun hx => ?_)
  · exact planeInit_step format p
  · show height.toNat % (planeInit format p).2.1.toNat = 0
    rcases plane_cases hv heven hp with ⟨hs, -⟩ | ⟨hs, he, -⟩
    · rw [hs]
      exact Nat.mod_one _
    · rw [hs]
      exact he
  · exact Nat.lt_of_le_of_lt (Nat.mul_le_mul_right _ hle) hmul
  · have hlt := hpk ((S.packed p hp).1 hx)
    have hd : (width.toNat - 1) / (planeInit format p).2.1.toNat ≤ width.toNat - 1 := Nat.div_le_self _ _
    show 12 * ((width.toNat - 1) / (planeInit format p).2.1.toNat) < 2 ^ 32
    omega

theorem ImageDesc.Fits.alloc {d : ImageDesc} (h : d.Fits) (host : Nat) : (d.ownAllocImageBuffer host).Fits := fun p hp =>
  have F := h p hp
  ⟨F.bytes_pos, F.stepX, F.stepY, F.whole, F.size, F.stride, F.le, F.row, F.packed⟩

/-- A normal image. -/
theorem createImage_spec {d : ImageDesc} {host : Nat}
    (h : (vxCreateImage width height format).map (·.ownAllocImageBuffer host) = some d) :
    ImageShape d ∧ (d.LaidOut ↔ createFits width height format) ∧ (createFits width height format → d.Fits) := by
  obtain ⟨e, he, rfl⟩ := Option.map_eq_some_iff.1 h
  simp only [vxCreateImage, ownCreateImageInt] at he
  split at he
  · cases he
  · rename_i hc
    simp only [not_or] at hc
    obtain ⟨hw, hh, hf⟩ := hc
    have hw' : 0 < width.toNat := Nat.pos_of_ne_zero (fun h0 => hw (UInt32.toNat_inj.1 h0))
    have hh' : 0 < height.toNat := Nat.pos_of_ne_zero (fun h0 => hh (UInt32.toNat_inj.1 h0))
    split at he
    · rename_i hv
      cases he
      have S := ImageShape.init width height hf
      have S' : ImageShape ((ownInitImage width height format).ownAllocImageBuffer host) :=
        ⟨S.planes, S.dimX, S.dimY, S.stepX, S.stepY, S.packed⟩
      have hfits := fun hc => (fits_of_createFits hw' hh' hf hv hc).alloc host
      refine ⟨S', ⟨fun hl => createFits_of_fits hw' hf ?_, fun hc => (hfits hc).laidOut⟩, hfits⟩
      intro p hp
      have F := ImageDesc.fits_of_laidOut hl S' (fun _ _ => rfl) hw' hh' p hp
      exact ⟨F.bytes_pos, F.stepX, F.stepY, F.whole, F.size, F.stride, F.le, F.row, F.packed⟩
    · cases he

end Create

/-- The stride of a plane that is taken is 0 exactly where it is packed. -/
theorem isRowMajor_strideX {color : DfImage} {addr : ImagepatchAddressing} (h : isRowMajor color addr = true) :
    addr.strideX = 0 ↔ color.packed = true := by
  unfold isRowMajor at h
  have hp : color.packed = true ↔ (color = .p12 || color = .nv12P12) = true := by
    cases color <;> decide
  split at h
  · rename_i hc
    simp only [Bool.not_eq_true', Bool.or_eq_false_iff, bne_eq_false_iff_eq] at h
    exact ⟨fun _ => hp.2 hc, fun _ => h.1⟩
  · rename_i hc
    simp only [Bool.not_eq_true', Bool.or_eq_false_iff, decide_eq_false_iff_not] at h
    refine ⟨fun h0 => absurd ?_ h.1, fun h0 => absurd (hp.1 h0) hc⟩
    rw [h0]
    decide

theorem ImageShape.setHandle {d : ImageDesc} (S : ImageShape d) {addrs : Nat → ImagepatchAddressing} (ptrs : Nat → Nat)
    (h : ∀ p < d.planes, isRowMajor d.format (addrs p) = true) : ImageShape (d.setHandle addrs ptrs) where
  planes := S.planes
  dimX := S.dimX
  dimY := S.dimY
  stepX := S.stepX
  stepY := S.stepY
  packed := fun p hp => show (addrs p).strideX = 0 ↔ d.format.packed = true from isRowMajor_strideX (h p hp)

/-- The planes with the strides of a handle fit where those are what `handleFits` asks. -/
theorem setHandle_fits_iff {width height : UInt32} {color : DfImage} {addrs : Nat → ImagepatchAddressing} {ptrs : Nat → Nat}
    (hw : (addrs 0).dimX = width) (hh : (addrs 0).dimY = height) (hw' : 0 < width.toNat)
    (hv : ownIsValidDimensions width height color = true)
    (S : ImageShape ((ownInitImage width height color).setHandle addrs ptrs)) :
    ((ownInitImage width height color).setHandle addrs ptrs).Fits ↔ handleFits color addrs := by
  subst hw hh
  generalize hd : (ownInitImage (addrs 0).dimX (addrs 0).dimY color).setHandle addrs ptrs = d at S
  have hformat : d.format = color := by rw [← hd]; rfl
  have hwidth : d.width = (addrs 0).dimX := by rw [← hd]; rfl
  have hheight : d.height = (addrs 0).dimY := by rw [← hd]; rfl
  have hX : ∀ p, (d.plane p).addr.strideX = (addrs p).strideX := fun p => by rw [← hd]; rfl
  have hY : ∀ p, (d.plane p).addr.strideY = (addrs p).strideY := fun p => by rw [← hd]; rfl
  have hm : ∀ p, (d.plane p).memSize = (d.plane p).addr.memSize := fun p => by rw [← hd]; rfl
  -- the row of a plane in the words of `handleFits`
  have hrow : ∀ p < d.planes, (d.plane p).addr.xOffset ((addrs 0).dimX.toNat - 1) =
      if color.packed then 12 * (((addrs 0).dimX.toNat - 1) / (planeInit color p).2.1.toNat) / 8
      else (addrs p).strideX.toUInt32.toNat * (((addrs 0).dimX.toNat - 1) / (planeInit color p).2.1.toNat) := by
    intro p hp
    have hpk := S.packed p hp
    rw [hformat] at hpk
    by_cases hx : (d.plane p).addr.strideX = 0
    · rw [xOffset_packed hx, if_pos (hpk.1 hx), S.stepX, hformat]
    · rw [xOffset_bytes hx, if_neg (mt hpk.2 hx), S.stepX, hformat, hX]
  constructor
  · intro F
    refine ⟨fun hn => ?_, fun p hp => ?_⟩
    · subst hn
      have h1 := (F 1 (by rw [ImageDesc.planes, hformat]; decide)).whole
      rwa [S.dimY, S.stepY, hheight, hformat] at h1
    · have hp' : p < d.planes := by rwa [ImageDesc.planes, hformat]
      have P := F p hp'
      have hr := P.row (by rw [S.dimX, hwidth]; exact hw')
      rw [S.dimX, hwidth, hrow p hp', hformat, hY] at hr
      have hs := P.stride
      rw [S.dimY, hheight, hY] at hs
      refine ⟨hs, ?_⟩
      by_cases hc : color.packed = true
      · have hpk := P.packed ((S.packed p hp').2 (by rw [hformat]; exact hc))
        rw [S.dimX, S.stepX, hwidth, hformat] at hpk
        rw [if_pos hc] at hr ⊢
        exact ⟨hpk, hr⟩
      · rw [if_neg hc] at hr ⊢
        exact hr
  · rintro ⟨heven, hall⟩ p hp
    obtain ⟨hs, hr⟩ := hall p (by rwa [ImageDesc.planes, hformat] at hp)
    have hr' : (d.plane p).addr.xOffset ((addrs 0).dimX.toNat - 1) + elementBytes color p ≤ (addrs p).strideY.toUInt32.toNat := by
      rw [hrow p hp]
      by_cases hc : color.packed = true
      · rw [if_pos hc] at hr ⊢
        exact hr.2
      · rw [if_neg hc] at hr ⊢
        exact hr
    refine PlaneFits.of_row (elementBytes_pos _ _) ?_ (by rw [S.stepX, S.stepY]) (hm p) ?_ ?_ ?_ (fun _ => ?_) (fun hx => ?_)
    · rw [S.stepX]
      exact planeInit_step _ _
    · rw [S.dimY, S.stepY, hheight, hformat]
      rcases plane_cases hv heven (by rwa [ImageDesc.planes, hformat] at hp) with ⟨h1, -⟩ | ⟨h1, h2, -⟩
      · rw [h1]
        exact Nat.mod_one _
      · rw [h1]
        exact h2
    · rw [S.dimY, hheight, hY]
      exact hs
    · rw [hformat, hY]
      omega
    · rw [S.dimX, hwidth, hformat, hY]
      exact hr'
    · have hc := (S.packed p hp).1 hx
      rw [hformat] at hc
      rw [if_pos hc] at hr
      rw [S.dimX, S.stepX, hwidth, hformat]
      exact hr.1

/-- An image from a handle. -/
theorem handle_spec {color : DfImage} {addrs : Nat → ImagepatchAddressing} {ptrs : Nat → Nat} {d : ImageDesc}
    (h : vxCreateImageFromHandle color addrs ptrs = some d) :
    ImageShape d ∧ (d.LaidOut ↔ handleFits color addrs) ∧ (handleFits color addrs → d.Fits) := by
  simp only [vxCreateImageFromHandle] at h
  split at h
  · cases h
  · rename_i hc
    simp only [not_or] at hc
    obtain ⟨hw, hh, hf⟩ := hc
    have hw' : 0 < (addrs 0).dimX.toNat := Nat.pos_of_ne_zero (fun h0 => hw (UInt32.toNat_inj.1 h0))
    have hh' : 0 < (addrs 0).dimY.toNat := Nat.pos_of_ne_zero (fun h0 => hh (UInt32.toNat_inj.1 h0))
    obtain ⟨e, he, h⟩ := Option.bind_eq_some_iff.1 h
    simp only [ownCreateImageInt] at he
    split at he
    · rename_i hv
      cases he
      split at h
      · rename_i hall
        cases h
        have S := (ImageShape.init (addrs 0).dimX (addrs 0).dimY hf).setHandle ptrs
          (fun p hp => List.all_eq_true.1 hall p (List.mem_range.2 hp))
        have hiff := setHandle_fits_iff rfl rfl hw' hv S
        exact ⟨S, ⟨fun hl => hiff.1 (ImageDesc.fits_of_laidOut hl S (fun _ _ => rfl) hw' hh'),
          fun hc => (hiff.2 hc).laidOut⟩, hiff.2⟩
      · cases h
    · cases he

/-! ### Channels and regions -/

/-- The channel of a plane whose steps are those by which its dimensions are divided. -/
theorem PlaneFits.channel {q c : ImagePlane} (h : PlaneFits q 1) (hx : q.addr.strideX ≠ 0)
    (hX : c.addr.dimX.toNat = q.addr.dimX.toNat / q.addr.stepX.toNat)
    (hY : c.addr.dimY.toNat = q.addr.dimY.toNat / q.addr.stepY.toNat) (hsX : c.addr.strideX = q.addr.strideX)
    (hsY : c.addr.strideY = q.addr.strideY) (h1 : c.addr.stepX = 1) (h1' : c.addr.stepY = 1) (hm : c.memSize = q.memSize) :
    PlaneFits c 1 := by
  have hstep : c.addr.stepY.toNat = 1 := by rw [h1']; rfl
  have hstepX : c.addr.stepX.toNat = 1 := by rw [h1]; rfl
  refine ⟨Nat.one_pos, .inl h1, by rw [h1, h1'], by rw [hstep]; exact Nat.mod_one _, ?_, ?_, by rw [hsY]; exact h.le,
    fun hw => ?_, fun h0 => absurd (hsX ▸ h0) hx⟩
  · rw [hm, hsY, hY, hstep, Nat.div_one]
    exact h.size
  · rw [hsY, hY]
    exact h.size_lt
  · rw [hX] at hw
    rw [xOffset_bytes (by rw [hsX]; exact hx), hsX, hsY, hX, hstepX, Nat.div_one]
    have hlt : (q.addr.dimX.toNat / q.addr.stepX.toNat - 1) * q.addr.stepX.toNat < q.addr.dimX.toNat := by
      rcases h.step_cases with ⟨h2, -⟩ | ⟨h2, -⟩ <;> rw [h2] at hw ⊢ <;> omega
    have hle := h.xOffset_le hlt
    have hpos : 0 < q.addr.stepX.toNat := by
      rcases h.step_cases with ⟨h2, -⟩ | ⟨h2, -⟩ <;> rw [h2] <;> decide
    rwa [xOffset_bytes hx, Nat.mul_div_cancel _ hpos] at hle

/-- The plane of a channel has elements of one byte, and its dimensions are those of the parent over its steps. -/
theorem isChannelOf_spec {format : DfImage} {channel : ImageChannel} (h : isChannelOf format channel = true) :
    channel.plane < planesOf format ∧ elementBytes format channel.plane = 1 ∧ format.packed = false ∧
      ¬ ((format = .nv12 ∨ format = .nv21) ∧ channel.plane = 1) ∧
      ∀ addr : ImagepatchAddressing, channelDims format channel.plane addr =
        (addr.dimX / (planeInit format channel.plane).2.1, addr.dimY / (planeInit format channel.plane).2.1) := by
  have h1 : ∀ x : UInt32, x / 1 = x := fun x => by
    rw [← UInt32.toNat_inj, UInt32.toNat_div, UInt32.toNat_one, Nat.div_one]
  cases channel <;> cases format <;>
    first
      | exact absurd h (by decide)
      | refine ⟨by decide, by decide, by decide, by decide, fun addr => ?_⟩
        simp [channelDims, ImageChannel.plane, planeInit, h1]

/-- An image of a channel fits, and is inside its plane of the parent. -/
theorem channel_spec {d e : ImageDesc} {channel : ImageChannel} (h : vxCreateImageFromChannel d channel = some e)
    (S : ImageShape d) : ImageShape e ∧ (d.Fits → e.Fits ∧ e.Within d 0 0) := by
  simp only [vxCreateImageFromChannel] at h
  split at h
  · rename_i hc
    obtain ⟨hp, hb, hpk, hnv, hdims⟩ := isChannelOf_spec hc
    rw [hdims] at h
    obtain ⟨si, hsi, rfl⟩ := Option.map_eq_some_iff.1 h
    obtain rfl : ownInitImage ((d.plane channel.plane).addr.dimX / (planeInit d.format channel.plane).2.1)
        ((d.plane channel.plane).addr.dimY / (planeInit d.format channel.plane).2.1) .u8 = si := by
      simpa [ownCreateImageInt, ownIsValidDimensions] using hsi
    have hx : (d.plane channel.plane).addr.strideX ≠ 0 := fun h0 => by
      have := (S.packed _ hp).1 h0
      rw [hpk] at this
      cases this
    have hone : ∀ p, p < 1 → p = 0 := fun p hp => by omega
    refine ⟨⟨Nat.one_pos, fun _ => rfl, fun _ => rfl, fun _ => rfl, fun _ => rfl, fun p _ => ?_⟩,
      fun F => ⟨fun p hp' => ?_, fun p hp' => ?_⟩⟩
    · show (if _ then _ else _) = (0 : Int32) ↔ DfImage.packed .u8 = true
      rw [if_neg hnv]
      exact ⟨fun h0 => absurd h0 hx, fun h0 => absurd h0 (by decide)⟩
    · obtain rfl := hone p hp'
      have Q := F channel.plane hp
      rw [hb] at Q
      refine Q.channel hx ?_ ?_ ?_ rfl rfl rfl rfl
      · show UInt32.toNat (_ / _) = _
        rw [UInt32.toNat_div, S.stepX]
      · show UInt32.toNat (_ / _) = _
        rw [UInt32.toNat_div, S.stepY]
      · show (if _ then _ else _) = _
        rw [if_neg hnv]
    · obtain rfl := hone p hp'
      have h0 : (d.plane channel.plane).addr.offset 0 0 = 0 := by
        rw [ImagepatchAddressing.offset, Nat.zero_div, ImagepatchAddressing.xOffset_zero]
        rfl
      refine ⟨?_, Nat.le_refl _, Nat.le_refl _⟩
      show (d.plane channel.plane).hostPtr = (d.plane channel.plane).hostPtr + (d.plane channel.plane).addr.offset 0 0
      rw [h0]
      rfl
  · cases h

theorem ImagePlane.roi_memOffset {q : ImagePlane} (si : ImagePlane) {rect : VxRectangle} (hX : si.addr.stepX = q.addr.stepX)
    (hY : si.addr.stepY = q.addr.stepY) :
    (q.roi si rect).memOffset = q.addr.ownComputePatchOffset rect.startX rect.startY := by
  simp only [ImagepatchAddressing.ownComputePatchOffset, roi, setStrides, hX, hY]

/-- A region of a plane that fits, with whole rows, fits. -/
theorem PlaneFits.roi {q si : ImagePlane} {rect : VxRectangle} {bytes : Nat} (h : PlaneFits q bytes)
    (hX : si.addr.stepX = q.addr.stepX) (hY : si.addr.stepY = q.addr.stepY) (hw : si.addr.dimX.toNat ≤ q.addr.dimX.toNat)
    (hh : si.addr.dimY.toNat ≤ q.addr.dimY.toNat) (hwhole : si.addr.dimY.toNat % si.addr.stepY.toNat = 0) :
    PlaneFits (q.roi si rect) bytes := by
  have hx : ∀ x, (q.roi si rect).addr.xOffset x = q.addr.xOffset x := fun x => by
    simp only [ImagepatchAddressing.xOffset, ImagePlane.roi, ImagePlane.setStrides, hX]
  refine .of_row h.bytes_pos ?_ ?_ rfl hwhole ?_ h.le (fun h0 => ?_) (fun h0 => ?_)
  · show si.addr.stepX = 1 ∨ si.addr.stepX = 2
    rw [hX]
    exact h.stepX
  · show si.addr.stepY = si.addr.stepX
    rw [hX, hY]
    exact h.stepY
  · exact Nat.lt_of_le_of_lt (Nat.mul_le_mul_left _ hh) h.stride
  · rw [hx]
    have h0' : 0 < si.addr.dimX.toNat := h0
    exact h.xOffset_le (show si.addr.dimX.toNat - 1 < _ by omega)
  · show 12 * ((si.addr.dimX.toNat - 1) / si.addr.stepX.toNat) < 2 ^ 32
    rw [hX]
    have hd : (si.addr.dimX.toNat - 1) / q.addr.stepX.toNat ≤ (q.addr.dimX.toNat - 1) / q.addr.stepX.toNat :=
      Nat.div_le_div_right (by omega)
    have := h.packed h0
    omega

/-- What a region has that `vxCreateImageFromROI` takes. -/
structure IsRegion (d : ImageDesc) (rect : VxRectangle) : Prop where
  startX : rect.startX.toNat + rect.width.toNat = rect.endX.toNat
  startY : rect.startY.toNat + rect.height.toNat = rect.endY.toNat
  endX : rect.endX.toNat ≤ d.width.toNat
  endY : rect.endY.toNat ≤ d.height.toNat
  valid : ownIsValidDimensions rect.width rect.height d.format = true

theorem isRegion_of_roi {d e : ImageDesc} {rect : VxRectangle} (h : vxCreateImageFromROI d rect = some e) :
    IsRegion d rect ∧ e = (ownInitImage rect.width rect.height d.format).setRegion d rect := by
  simp only [vxCreateImageFromROI] at h
  split at h
  · cases h
  · rename_i hc
    simp only [not_or, UInt32.lt_iff_toNat_lt, Nat.not_lt] at hc
    obtain ⟨hX, hY, hW, hH⟩ := hc
    obtain ⟨si, hsi, rfl⟩ := Option.map_eq_some_iff.1 h
    simp only [ownCreateImageInt] at hsi
    split at hsi
    · rename_i hv
      cases hsi
      have hwidth : rect.width.toNat = rect.endX.toNat - rect.startX.toNat :=
        UInt32.toNat_sub_of_le _ _ (UInt32.le_iff_toNat_le.2 hX)
      have hheight : rect.height.toNat = rect.endY.toNat - rect.startY.toNat :=
        UInt32.toNat_sub_of_le _ _ (UInt32.le_iff_toNat_le.2 hY)
      exact ⟨⟨by omega, by omega, hW, hH, hv⟩, rfl⟩
    · cases hsi

section Region

variable {d : ImageDesc} {rect : VxRectangle} {p : Nat}

theorem ImageShape.setRegion (S : ImageShape d) (rect : VxRectangle) :
    ImageShape ((ownInitImage rect.width rect.height d.format).setRegion d rect) where
  planes := S.planes
  dimX := fun _ => rfl
  dimY := fun _ => rfl
  stepX := fun _ => rfl
  stepY := fun _ => rfl
  packed := fun p hp => show (d.plane p).addr.strideX = 0 ↔ d.format.packed = true from S.packed p hp

theorem region_fits (S : ImageShape d) (F : d.Fits) (hr : IsRegion d rect) (h : heightFits d.format rect.height) :
    ((ownInitImage rect.width rect.height d.format).setRegion d rect).Fits := by
  intro p hp
  have hw := hr.startX
  have hw' := hr.endX
  have hh := hr.startY
  have hh' := hr.endY
  refine (F p hp).roi (S.stepX p).symm (S.stepY p).symm ?_ ?_ ?_
  · rw [S.dimX]
    show rect.width.toNat ≤ _
    omega
  · rw [S.dimY]
    show rect.height.toNat ≤ _
    omega
  · show rect.height.toNat % (planeInit d.format p).2.1.toNat = 0
    rcases plane_cases hr.valid h hp with ⟨h1, -⟩ | ⟨h1, h2, -⟩
    · rw [h1]
      exact Nat.mod_one _
    · rw [h1]
      exact h2

/-- The rows of a region that is laid out are whole. -/
theorem heightFits_of_laidOut (F : d.Fits)
    (h : ((ownInitImage rect.width rect.height d.format).setRegion d rect).LaidOut) : heightFits d.format rect.height := by
  intro hn
  have hp : 1 < d.planes := by rw [ImageDesc.planes, hn]; decide
  have Q := F 1 hp
  have hsize : (d.plane 1).addr.strideY.toUInt32.toNat * rect.height.toNat % 2 ^ 32 / (planeInit d.format 1).2.1.toNat =
      (d.plane 1).addr.strideY.toUInt32.toNat *
        ((rect.height.toNat + ((planeInit d.format 1).2.1.toNat - 1)) / (planeInit d.format 1).2.1.toNat) :=
    (ImagepatchAddressing.memSize_toNat _).symm.trans (h 1 hp).size
  have hstep : (planeInit d.format 1).2.1.toNat = 2 := by rw [hn]; rfl
  have := (PlaneFits.whole_of_size (.inr hstep) (Nat.lt_of_lt_of_le Q.bytes_pos Q.le) hsize).1
  rwa [hstep] at this

/-- Where a plane of a region is, and when it is inside that of the parent. -/
theorem region_within_iff (S : ImageShape d) (F : d.Fits) (hr : IsRegion d rect) (h : heightFits d.format rect.height) :
    ((ownInitImage rect.width rect.height d.format).setRegion d rect).Within d rect.startX.toNat rect.startY.toNat ↔
      ∀ p < d.planes, ((d.plane p).addr.strideX = 0 → 12 * (rect.startX.toNat / (d.plane p).addr.stepX.toNat) < 2 ^ 32) ∧
        (d.plane p).addr.offset rect.startX.toNat rect.startY.toNat +
            (d.plane p).addr.strideY.toUInt32.toNat * (rect.height.toNat / (d.plane p).addr.stepY.toNat) ≤
          (d.plane p).addr.strideY.toUInt32.toNat * (d.height.toNat / (d.plane p).addr.stepY.toNat) := by
  have hsize : ∀ p < d.planes, (((ownInitImage rect.width rect.height d.format).setRegion d rect).plane p).memSize.toNat =
      (d.plane p).addr.strideY.toUInt32.toNat * (rect.height.toNat / (d.plane p).addr.stepY.toNat) := fun p hp => by
    rw [S.stepY]
    exact (region_fits S F hr h p hp).size
  have hhost : ∀ p, (((ownInitImage rect.width rect.height d.format).setRegion d rect).plane p).hostPtr =
      (d.plane p).hostPtr + ((d.plane p).addr.ownComputePatchOffset rect.startX rect.startY).toNat := fun p => by
    rw [← ImagePlane.roi_memOffset ((ownInitImage rect.width rect.height d.format).plane p) (S.stepX p).symm (S.stepY p).symm]
    rfl
  have hcp : ((ownInitImage rect.width rect.height d.format).setRegion d rect).channelPlane = 0 := rfl
  refine forall_congr' (fun p => forall_congr' (fun hp => ?_))
  have hp' : p < d.planes := hp
  have Q := F p hp'
  have hq := Q.size
  have hlt := Q.size_lt
  rw [S.dimY] at hq hlt
  simp only [hcp, Nat.zero_add, hhost, ByteRange.Inside, ByteRange.stop, ImagePlane.mem, hsize p hp']
  constructor
  · rintro ⟨he, -, hin⟩
    have he' := Nat.add_left_cancel he
    exact ⟨fun h0 => ImagepatchAddressing.packed_of_offset he' h0, by omega⟩
  · rintro ⟨hpk, hle⟩
    have he : ((d.plane p).addr.ownComputePatchOffset rect.startX rect.startY).toNat = _ :=
      ImagepatchAddressing.ownComputePatchOffset_toNat hpk (by omega)
    exact ⟨by rw [he], by omega, by omega⟩

/-- The rows of a region end inside those of the parent. -/
theorem IsRegion.rows_le (S : ImageShape d) (F : d.Fits) (hr : IsRegion d rect) (h : heightFits d.format rect.height)
    (hp : p < d.planes) :
    rect.startY.toNat / (d.plane p).addr.stepY.toNat + rect.height.toNat / (d.plane p).addr.stepY.toNat ≤
        d.height.toNat / (d.plane p).addr.stepY.toNat ∧
      (rect.endY < d.height → rect.startY.toNat / (d.plane p).addr.stepY.toNat +
        rect.height.toNat / (d.plane p).addr.stepY.toNat + 1 ≤ d.height.toNat / (d.plane p).addr.stepY.toNat) := by
  have hs := hr.startY
  have he := hr.endY
  have hw := (F p hp).whole
  rw [S.dimY] at hw
  rw [UInt32.lt_iff_toNat_lt]
  rw [S.stepY] at hw ⊢
  rcases plane_cases hr.valid h hp with ⟨h1, -⟩ | ⟨h1, h2, -⟩
  · have h1' : (planeInit d.format p).2.1.toNat = 1 := by rw [h1]; rfl
    simp only [h1', Nat.div_one]
    exact ⟨by omega, fun _ => by omega⟩
  · have h1' : (planeInit d.format p).2.1.toNat = 2 := by rw [h1]; rfl
    rw [h1'] at hw ⊢
    exact ⟨by omega, fun _ => by omega⟩

/-- A region in the first column, or above the last row, ends inside the plane of the parent. -/
theorem region_inside (S : ImageShape d) (F : d.Fits) (hr : IsRegion d rect) (h : heightFits d.format rect.height)
    (hp : p < d.planes) (hor : rect.startX = 0 ∨ (rect.startX < d.width ∧ rect.endY < d.height)) :
    ((d.plane p).addr.strideX = 0 → 12 * (rect.startX.toNat / (d.plane p).addr.stepX.toNat) < 2 ^ 32) ∧
      (d.plane p).addr.offset rect.startX.toNat rect.startY.toNat +
          (d.plane p).addr.strideY.toUInt32.toNat * (rect.height.toNat / (d.plane p).addr.stepY.toNat) ≤
        (d.plane p).addr.strideY.toUInt32.toNat * (d.height.toNat / (d.plane p).addr.stepY.toNat) := by
  have Q := F p hp
  obtain ⟨hle, hlt⟩ := hr.rows_le S F h hp
  simp only [ImagepatchAddressing.offset]
  rcases hor with h0 | ⟨hx, hy⟩
  · rw [h0, UInt32.toNat_zero, ImagepatchAddressing.xOffset_zero, Nat.zero_div]
    refine ⟨fun _ => by decide, ?_⟩
    rw [Nat.add_zero, ← Nat.mul_add]
    exact Nat.mul_le_mul_left _ hle
  · have hx' : rect.startX.toNat < (d.plane p).addr.dimX.toNat := by
      rw [S.dimX]
      exact UInt32.lt_iff_toNat_lt.1 hx
    have hrow := Q.xOffset_le hx'
    have hmul := Nat.mul_le_mul_left (d.plane p).addr.strideY.toUInt32.toNat (hlt hy)
    rw [Nat.mul_succ, Nat.mul_add] at hmul
    exact ⟨Q.packed_lt hx', by omega⟩

/-- A region that ends at the last row, and inside the first plane of the parent, begins in the first column. -/
theorem startX_eq_zero (S : ImageShape d) (hr : IsRegion d rect) (hy : rect.endY = d.height)
    (hin : (d.plane 0).addr.offset rect.startX.toNat rect.startY.toNat +
        (d.plane 0).addr.strideY.toUInt32.toNat * (rect.height.toNat / (d.plane 0).addr.stepY.toNat) ≤
      (d.plane 0).addr.strideY.toUInt32.toNat * (d.height.toNat / (d.plane 0).addr.stepY.toNat)) : rect.startX = 0 := by
  have hs := hr.startY
  have hstepX : (d.plane 0).addr.stepX.toNat = 1 := by rw [S.stepX, planeInit_step_zero]; rfl
  have hstepY : (d.plane 0).addr.stepY.toNat = 1 := by rw [S.stepY, planeInit_step_zero]; rfl
  rw [ImagepatchAddressing.offset, hstepY, Nat.div_one, Nat.div_one, Nat.div_one, ← hy, ← hs, Nat.mul_add] at hin
  have h0 : (d.plane 0).addr.xOffset rect.startX.toNat = 0 := by omega
  rw [← UInt32.toNat_inj, UInt32.toNat_zero]
  by_cases hx : (d.plane 0).addr.strideX = 0
  · rw [xOffset_packed hx, hstepX, Nat.div_one] at h0
    omega
  · rw [xOffset_bytes hx, hstepX, Nat.div_one] at h0
    refine (Nat.mul_eq_zero.1 h0).resolve_left (fun hz => hx ?_)
    rw [← Int32.toInt32_toUInt32 (d.plane 0).addr.strideX, UInt32.toNat_inj.1 (hz.trans UInt32.toNat_zero.symm)]
    rfl

/-- A region of an image that fits is laid out inside it exactly where it begins in the first column or ends above the last row,
or is empty at the right edge with room for its rows; and then it fits. -/
theorem roi_spec {e : ImageDesc} (h : vxCreateImageFromROI d rect = some e) (S : ImageShape d) :
    ImageShape e ∧ (d.Fits → (e.LaidOut ∧ e.Within d rect.startX.toNat rect.startY.toNat ↔ roiFits d rect) ∧
      (roiFits d rect → e.Fits)) := by
  obtain ⟨hr, rfl⟩ := isRegion_of_roi h
  refine ⟨S.setRegion rect, fun F => ⟨⟨?_, ?_⟩, fun hf => region_fits S F hr hf.1⟩⟩
  · rintro ⟨hl, hw⟩
    have heven := heightFits_of_laidOut F hl
    have hall := (region_within_iff S F hr heven).1 hw
    refine ⟨heven, ?_⟩
    by_cases hx : rect.startX = d.width
    · exact .inr (.inr ⟨hx, hall⟩)
    · by_cases hy : rect.endY = d.height
      · exact .inl (startX_eq_zero S hr hy (hall 0 S.planes).2)
      · refine .inr (.inl ⟨UInt32.lt_iff_toNat_lt.2 (Nat.lt_of_le_of_ne ?_ (mt UInt32.toNat_inj.1 hx)),
          UInt32.lt_iff_toNat_lt.2 (Nat.lt_of_le_of_ne hr.endY (mt UInt32.toNat_inj.1 hy))⟩)
        have := hr.startX
        have := hr.endX
        omega
  · rintro ⟨heven, hor⟩
    refine ⟨(region_fits S F hr heven).laidOut, (region_within_iff S F hr heven).2 (fun p hp => ?_)⟩
    rcases hor with hor | hor | ⟨-, hall⟩
    · exact region_inside S F hr heven hp (.inl hor)
    · exact region_inside S F hr heven hp (.inr hor)
    · exact hall p hp

end Region

/-! ### Images of every source -/

namespace ImageSource

theorem ok_iff {src : ImageSource} {d : ImageDesc} (h : src.image = some d) : src.Ok ↔ d.LaidOut ∧ src.InParent d := by
  constructor
  · rintro ⟨e, he, hok⟩
    obtain rfl : d = e := Option.some.inj (h.symm.trans he)
    exact hok
  · exact fun hok => ⟨d, h, hok⟩

/-- Where the parent fits when its line does, so does the image, and its line is what it is asked to be. -/
theorem line_cons {src parent : ImageSource} {d dp : ImageDesc} (hd : src.image = some d) (hl : src.line = src :: parent.line)
    (hp : ((∀ a ∈ parent.line, a.Ok) ↔ ∀ a ∈ parent.line, a.Fits) ∧ ((∀ a ∈ parent.line, a.Fits) → dp.Fits))
    (h : dp.Fits → (d.LaidOut ∧ src.InParent d ↔ src.Fits) ∧ (src.Fits → d.Fits)) :
    ((∀ a ∈ src.line, a.Ok) ↔ ∀ a ∈ src.line, a.Fits) ∧ ((∀ a ∈ src.line, a.Fits) → d.Fits) := by
  rw [hl]
  simp only [List.forall_mem_cons, ok_iff hd]
  refine ⟨⟨fun ⟨hok, hline⟩ => ?_, fun ⟨hf, hline⟩ => ?_⟩, fun ⟨hf, hline⟩ => ?_⟩
  · have hline' := hp.1.1 hline
    exact ⟨(h (hp.2 hline')).1.1 hok, hline'⟩
  · exact ⟨(h (hp.2 hline)).1.2 hf, hp.1.2 hline⟩
  · exact (h (hp.2 hline)).2 hf

/-- The images of a line are what they are asked to be exactly where their arguments fit. -/
theorem line_spec (src : ImageSource) {d : ImageDesc} (h : src.image = some d) : ImageShape d ∧
    ((∀ a ∈ src.line, a.Ok) ↔ ∀ a ∈ src.line, a.Fits) ∧ ((∀ a ∈ src.line, a.Fits) → d.Fits) := by
  induction src generalizing d with
  | vxCreateImage width height format host =>
    obtain ⟨S, hiff, hfits⟩ := createImage_spec h
    simp only [line, List.forall_mem_singleton, ok_iff h, InParent, and_true]
    exact ⟨S, hiff, hfits⟩
  | vxCreateUniformImage width height format value host =>
    have h' : (Tiovx.vxCreateImage width height format).map (·.ownAllocImageBuffer host) = some d := by
      simp only [image, Tiovx.vxCreateUniformImage] at h
      split at h
      · cases h
      · exact h
    obtain ⟨S, hiff, hfits⟩ := createImage_spec h'
    simp only [line, List.forall_mem_singleton, ok_iff h, InParent, and_true]
    exact ⟨S, hiff, hfits⟩
  | vxCreateImageFromHandle color addrs ptrs =>
    obtain ⟨S, hiff, hfits⟩ := handle_spec h
    simp only [line, List.forall_mem_singleton, ok_iff h, InParent, and_true]
    exact ⟨S, hiff, hfits⟩
  | vxCreateImageFromChannel parent channel ih =>
    have hd := h
    simp only [image] at h
    split at h
    · obtain ⟨dp, hdp, h⟩ := Option.bind_eq_some_iff.1 h
      obtain ⟨S, hp⟩ := ih hdp
      obtain ⟨Se, he⟩ := channel_spec h S
      refine ⟨Se, line_cons hd rfl hp (fun hF => ⟨⟨fun _ => trivial, fun _ => ?_⟩, fun _ => (he hF).1⟩)⟩
      exact ⟨(he hF).1.laidOut, dp, hdp, (he hF).2⟩
    · cases h
  | vxCreateImageFromROI parent rect ih =>
    have hd := h
    simp only [image] at h
    split at h
    · obtain ⟨dp, hdp, h⟩ := Option.bind_eq_some_iff.1 h
      obtain ⟨S, hp⟩ := ih hdp
      obtain ⟨Se, he⟩ := roi_spec h S
      have hfits : (ImageSource.vxCreateImageFromROI parent rect).Fits ↔ roiFits dp rect := by
        refine ⟨fun hf => hf dp hdp, fun hf e hpe => ?_⟩
        obtain rfl : dp = e := Option.some.inj (hdp.symm.trans hpe)
        exact hf
      refine ⟨Se, line_cons hd rfl hp (fun hF => ⟨?_, fun hf => (he hF).2 (hfits.1 hf)⟩)⟩
      rw [hfits, ← (he hF).1]
      refine and_congr_right (fun _ => ⟨?_, fun hw => ⟨dp, hdp, hw⟩⟩)
      rintro ⟨e, hpe, hw⟩
      obtain rfl : dp = e := Option.some.inj (hdp.symm.trans hpe)
      exact hw
    · cases h

end ImageSource

/-- **An image and those it comes from are laid out**, each inside its parent, exactly where their constructors were given
arguments that fit. -/
theorem imageLaidOut_iff {src : ImageSource} {d : ImageDesc} (h : src.image = some d) :
    (∀ a ∈ src.line, a.Ok) ↔ ∀ a ∈ src.line, a.Fits :=
  (src.line_spec h).2.1

/-- A region of the luma of a region of an image. -/
def nestedRegion : ImageSource :=
  .vxCreateImageFromROI (.vxCreateImageFromChannel (.vxCreateImage 640 480 .nv12 0x1000) .y) ⟨320, 120, 640, 240⟩

theorem nestedRegion_laidOut : (nestedRegion.image.map (fun d => ((d.plane 0).hostPtr, (d.plane 0).memSize.toNat))) =
    some (0x1000 + 640 * 120 + 320, 640 * 120) ∧ ∀ a ∈ nestedRegion.line, a.Ok := by
  refine ⟨by decide +kernel, ?_⟩
  obtain ⟨d, hd⟩ := Option.isSome_iff_exists.1 (show nestedRegion.image.isSome = true by decide +kernel)
  refine (imageLaidOut_iff hd).2 ?_
  have hpar : ((ImageSource.vxCreateImageFromChannel (.vxCreateImage 640 480 .nv12 0x1000) .y).image.map
      (fun d => (d.width, d.height))) = some (640, 480) := by decide +kernel
  simp only [nestedRegion, ImageSource.line, List.forall_mem_cons]
  refine ⟨fun e he => ⟨fun _ => by decide, .inr (.inl ?_)⟩, trivial, ?_, fun _ h => nomatch h⟩
  · rw [he] at hpar
    simp only [Option.map_some, Option.some.injEq, Prod.mk.injEq] at hpar
    rw [hpar.1, hpar.2]
    exact ⟨by decide, by decide⟩
  · exact ⟨fun h => absurd h (by decide), fun h => absurd h (by decide), by decide⟩

/-- The lower right quarter of an image, which begins in the middle of a row and is counted in whole rows, ends beyond it; the size
of a large image is wrapped; an odd height of half rows is rounded down; and a handle with a plane of no width gives a plane of
no size. -/
theorem images_not_laidOut :
    (∃ src : ImageSource, src = .vxCreateImageFromROI (.vxCreateImage 640 480 .u8 0x1000) ⟨320, 240, 640, 480⟩ ∧
      src.image.map (fun d => ((d.plane 0).hostPtr, (d.plane 0).memSize.toNat)) =
        some (0x1000 + 640 * 240 + 320, 640 * 240) ∧
      (ImageSource.vxCreateImage 640 480 .u8 0x1000).Ok ∧ ¬ src.Ok) ∧
    (∃ src : ImageSource, src = .vxCreateImage 65536 65537 .u8 0x1000 ∧
      src.image.map (fun d => (d.plane 0).memSize) = some 65536 ∧ ¬ src.Ok) ∧
    (∃ src : ImageSource, src = .vxCreateImage 4 3 .nv12P12 0x1000 ∧
      src.image.map (fun d => ((d.plane 1).addr.strideY, (d.plane 1).memSize)) = some (16, 24) ∧ ¬ src.Ok) ∧
    (∃ src : ImageSource, src = .vxCreateImageFromHandle .nv12
        (fun p => if p = 0 then ⟨4, 2, 1, 4, 1, 1⟩ else ⟨0, 0, 2, 0, 2, 2⟩) (fun _ => 0x1000) ∧
      src.image.map (fun d => ((d.plane 1).addr.dimX, (d.plane 1).memSize)) = some (4, 0) ∧ ¬ src.Ok) := by
  have hroot : ∀ src : ImageSource, src.line = [src] → src.image.isSome = true → (src.Ok ↔ src.Fits) := by
    intro src hl hs
    obtain ⟨d, hd⟩ := Option.isSome_iff_exists.1 hs
    have := (src.line_spec hd).2.1
    rwa [hl, List.forall_mem_singleton, List.forall_mem_singleton] at this
  have hpar : (ImageSource.vxCreateImage 640 480 .u8 0x1000).Ok :=
    (hroot _ rfl (by decide +kernel)).2 ⟨fun h => absurd h (by decide), fun h => absurd h (by decide), by decide⟩
  refine ⟨⟨_, rfl, by decide +kernel, hpar, fun hok => ?_⟩, ⟨_, rfl, by decide +kernel, fun hok => ?_⟩,
    ⟨_, rfl, by decide +kernel, fun hok => ?_⟩, ⟨_, rfl, by decide +kernel, fun hok => ?_⟩⟩
  · obtain ⟨d, hd⟩ := Option.isSome_iff_exists.1 (show (ImageSource.vxCreateImageFromROI
      (.vxCreateImage 640 480 .u8 0x1000) ⟨320, 240, 640, 480⟩).image.isSome = true by decide +kernel)
    have hline := (ImageSource.line_spec _ hd).2.1.1
      (List.forall_mem_cons.2 ⟨hok, List.forall_mem_singleton.2 hpar⟩) _ List.mem_cons_self
    obtain ⟨e, he⟩ := Option.isSome_iff_exists.1
      (show (ImageSource.vxCreateImage 640 480 .u8 0x1000).image.isSome = true by decide +kernel)
    have hdims : (ImageSource.vxCreateImage 640 480 .u8 0x1000).image.map (fun d => (d.width, d.height)) =
        some (640, 480) := by decide +kernel
    rw [he] at hdims
    simp only [Option.map_some, Option.some.injEq, Prod.mk.injEq] at hdims
    obtain ⟨-, hor⟩ := hline e he
    rw [hdims.1, hdims.2] at hor
    rcases hor with h | h | h
    · exact absurd h (by decide)
    · exact absurd h.2 (by decide)
    · exact absurd h.1 (by decide)
  · exact absurd ((hroot _ rfl (by decide +kernel)).1 hok).2.2 (by decide)
  · exact absurd (((hroot _ rfl (by decide +kernel)).1 hok).1 rfl) (by decide)
  · have := (((hroot _ rfl (by decide +kernel)).1 hok).2 1 (by decide)).2
    exact absurd this (by decide)

end Tiovx
