import Mathlib.Tactic.Common
import Tiovx.ImageLayout
import Tiovx.Lib.ByteMemory
/-!
# ImagePatch — copying and mapping a patch of an image (`vx_image.c`)

`vxCopyImagePatch` moves the samples of a rectangle row by row, or element by element where the user has a larger `stride_x`;
`vxMapImagePatch` gives the user the address of the rectangle.  Both check their parameters with one function, and each computes
the place of the rectangle by itself.
-/
namespace Tiovx

/-- `TIVX_IMAGE_NORMAL` and the other values of `create_type`. -/
inductive CreateType
  | normal | uniform | virtual | fromHandle | fromRoi | fromChannel
deriving DecidableEq

/-- `VX_READ_ONLY`, `VX_WRITE_ONLY` and `VX_READ_AND_WRITE`. -/
inductive AccessUsage
  | readOnly | writeOnly | readAndWrite
deriving DecidableEq

/-- The errors of a patch. -/
inductive PatchError
  | invalidParameters | notSupported | optimizedAway | noMemory | noResources | failure
deriving DecidableEq

/-- An image that is allocated, with what a patch reads of its reference; `hasFreeMap` is whether one of `maps` is free. -/
structure PatchImage where
  desc : ImageDesc
  createType : CreateType := .normal
  isVirtual : Bool := false
  isAccessible : Bool := false
  hasFreeMap : Bool := true

/-- `ownCopyAndMapCheckParams`; the rectangle is not compared with the image. -/
def PatchImage.ownCopyAndMapCheckParams (I : PatchImage) (rect : VxRectangle) (planeIndex : Nat) (usage : AccessUsage) :
    Except PatchError Unit :=
  if I.createType = .virtual then .error .invalidParameters
  else if I.desc.planes ≤ planeIndex ∨ rect.endY ≤ rect.startY ∨ rect.endX ≤ rect.startX then .error .invalidParameters
  else if I.isVirtual ∧ !I.isAccessible then .error .optimizedAway
  else if I.createType = .uniform ∧ usage ≠ .readOnly then .error .notSupported
  else .ok ()

/-- How often `for (c = start; c < stop; c += step)` runs, unless `c` wraps around. -/
def loopCount (start stop step : UInt32) : Option Nat :=
  let n := (stop.toNat - start.toNat + (step.toNat - 1)) / step.toNat
  if start.toNat + n * step.toNat < 2 ^ 32 then some n else none

/-- What is moved between an image and a user at once: bytes as they are, or two samples of 12 bits, which are in three bytes of
the image and in two half-words of the user. -/
inductive PatchMove
  | bytes (image user : Int) (len : Nat)
  | pair (image user userStride : Int)
deriving DecidableEq

namespace PatchMove

/-- From the user to the image: the second byte has bits 8 to 15 of both samples and the low bits of the first, the third has bits
4 to 11. -/
def write (m : ByteMem) : PatchMove → ByteMem
  | bytes image user len => m.copy ⟨user, image, len⟩
  | pair image user userStride =>
    let mask : UInt32 := 0xFFF
    let value := ((m.half user).toUInt32 &&& mask) ||| ((m.half (user + userStride)).toUInt32 &&& mask) <<< 12
    let low : UInt32 := 0x0F
    let m := m.set (image, value.toUInt8)
    let m := m.set (image + 1, (value >>> 8).toUInt8 ||| ((value &&& low) <<< 4).toUInt8)
    m.set (image + 2, (value >>> 4).toUInt8)

/-- From the image to the user; a pair is read with 32 bits. -/
def read (m : ByteMem) : PatchMove → ByteMem
  | bytes image user len => m.copy ⟨image, user, len⟩
  | pair image user userStride =>
    let mask : UInt32 := 0xFFF
    let value := m.word image
    (m.setHalf user (value &&& mask).toUInt16).setHalf (user + userStride) (value >>> 12 &&& mask).toUInt16

end PatchMove

namespace ImagepatchAddressing

/-- The bytes from the plane to `pImageLine`.  Those of a packed plane are counted in 64 bits, which hold them. -/
def copyOffset (addr : ImagepatchAddressing) (rect : VxRectangle) : Nat :=
  if addr.strideX = 0 then
    rect.startY.toNat * addr.strideY.toUInt32.toNat / addr.stepY.toNat + rect.startX.toNat * 12 / 8 / addr.stepX.toNat
  else (rect.startY * addr.strideY.toUInt32 / addr.stepY + rect.startX * addr.strideX.toUInt32 / addr.stepX).toNat

/-- `len` of a row, where both have compact lines. -/
def compactLen (addr : ImagepatchAddressing) (rect : VxRectangle) : UInt32 :=
  if addr.strideX = 0 then (rect.width * 12 + 7) / 8 / addr.stepX else rect.width * addr.strideX.toUInt32 / addr.stepX

/-- The step of the inner loop. -/
def elementStep (addr : ImagepatchAddressing) : UInt32 := if addr.strideX = 0 then addr.stepX * 2 else addr.stepX

end ImagepatchAddressing

namespace ImagePlane

/-- The moves of a row. -/
def rowMoves (q : ImagePlane) (rect : VxRectangle) (user : ImagepatchAddressing) (columns : Nat) (imageLine userLine : Int) :
    List PatchMove :=
  if user.strideX = q.addr.strideX then [.bytes imageLine userLine (q.addr.compactLen rect).toNat]
  else if q.addr.strideX = 0 then
    (List.range columns).map (fun k : Nat => .pair (imageLine + 3 * k) (userLine + user.strideX.toInt * (2 * k))
      user.strideX.toInt)
  else
    (List.range columns).map (fun k : Nat =>
      .bytes (imageLine + q.addr.strideX.toUInt32.toNat * k) (userLine + user.strideX.toInt * k) q.addr.strideX.toUInt32.toNat)

/-- The moves of the loops over the rows and, where the user is not compact, over the elements. -/
def copyMoves (q : ImagePlane) (rect : VxRectangle) (user : ImagepatchAddressing) (userPtr : Nat) : Option (List PatchMove) :=
  (loopCount rect.startY rect.endY q.addr.stepY).bind (fun rows =>
    (if user.strideX = q.addr.strideX then some 0 else loopCount rect.startX rect.endX q.addr.elementStep).map (fun columns =>
      (List.range rows).flatMap (fun r : Nat => q.rowMoves rect user columns
        (q.hostPtr + q.addr.copyOffset rect + q.addr.strideY.toInt * r) (userPtr + user.strideY.toInt * r))))

end ImagePlane

namespace PatchImage

/-- `vxCopyImagePatch`: what is moved, unless a loop does not end.  Which way it is moved is told by `usage`. -/
def vxCopyImagePatch (I : PatchImage) (rect : VxRectangle) (planeIndex : Nat) (user : ImagepatchAddressing) (userPtr : Nat)
    (usage : AccessUsage) : Except PatchError (Option (List PatchMove)) :=
  let q := I.desc.plane planeIndex
  if userPtr = 0 ∨ usage = .readAndWrite then .error .invalidParameters
  else (I.ownCopyAndMapCheckParams rect planeIndex usage).bind (fun _ =>
    if user.strideX < q.addr.strideX ∨ (q.addr.strideX = 0 ∧ user.strideX = 1) then .error .invalidParameters
    else .ok (q.copyMoves rect user userPtr))

/-- `vxComputeImagePatchSize`. -/
def vxComputeImagePatchSize (I : PatchImage) (rect : VxRectangle) (planeIndex : Nat) : UInt64 :=
  let addr := (I.desc.plane planeIndex).addr
  if rect.startX ≤ rect.endX ∧ rect.startY ≤ rect.endY ∧ rect.endX ≤ I.desc.width ∧ rect.endY ≤ I.desc.height ∧
      planeIndex < I.desc.planes then
    let numPixels := (rect.endX.toUInt64 - rect.startX.toUInt64) / addr.stepX.toUInt64 *
      ((rect.endY.toUInt64 - rect.startY.toUInt64) / addr.stepY.toUInt64)
    if I.desc.format = .p12 ∨ I.desc.format = .nv12P12 then numPixels * 3 / 2
    else numPixels * addr.strideX.toUInt32.toUInt64
  else 0

end PatchImage

/-- `vxFormatImagePatchAddress2d`; a pointer of 0 is `NULL`. -/
def vxFormatImagePatchAddress2d (ptr : Nat) (x y : UInt32) (addr : ImagepatchAddressing) : Nat :=
  if ptr ≠ 0 ∧ x < addr.dimX ∧ y < addr.dimY then ptr + (addr.ownComputePatchOffset x y).toNat else 0

/-- `vxMapImagePatch`: the addressing and the pointer the user gets. -/
def PatchImage.vxMapImagePatch (I : PatchImage) (rect : VxRectangle) (planeIndex : Nat) (usage : AccessUsage) :
    Except PatchError (ImagepatchAddressing × Nat) :=
  let q := I.desc.plane planeIndex
  (I.ownCopyAndMapCheckParams rect planeIndex usage).bind (fun _ =>
    if q.hostPtr = 0 then .error .noMemory
    else if I.hasFreeMap then
      .ok ({ q.addr with dimX := rect.width, dimY := rect.height },
        vxFormatImagePatchAddress2d q.hostPtr rect.startX rect.startY q.addr)
    else .error .noResources)

end Tiovx
