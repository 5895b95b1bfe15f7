import Mathlib.Tactic
import Tiovx.ImagePlacement
/-!
# ReferenceHandles — the memory of an object is exchanged (`vx_reference.c`, `vx_raw_image.c`)

`tivxReferenceImportHandle` gives an object memory that the application has, or takes its memory away, and
`tivxReferenceExportHandle` tells the memory it has.  Most objects have one buffer, a raw image has one for each exposure and a
pyramid one for each level.  The planes of an image follow each other in its buffer.
-/
namespace Tiovx

/-- The types of the objects that have one buffer and no planes. -/
inductive SingleBufferType
  | tensor | userDataObject | array | convolution | matrix | distribution
deriving DecidableEq

/-- What an object with one buffer has of its descriptor. -/
structure BufferSingle where
  type : SingleBufferType
  memSize : UInt32
  memPtr : SharedMemPtr := {}
  isAllocated : Bool := false

/-- A sub-image in the list of its parent; it is made of a channel or of a region. -/
structure BufferSubimage where
  isChannel : Bool
  channelPlane : Nat
  planes : Nat
  memOffset : Nat → UInt32
  memPtr : Nat → SharedMemPtr

/-- What a raw image has of `tivx_obj_desc_raw_image_t`. -/
structure BufferRawImage where
  params : RawImageParams
  imagepatchAddr : Nat → RawPatchAddressing
  memSize : Nat → UInt32
  memPtr : Nat → SharedMemPtr := fun _ => {}
  imgPtr : Nat → SharedMemPtr := fun _ => {}
  metaBeforePtr : Nat → SharedMemPtr := fun _ => {}
  metaAfterPtr : Nat → SharedMemPtr := fun _ => {}
  isAllocated : Bool := false

/-- What a pyramid with its levels has of `vx_pyramid` and of their descriptors. -/
structure BufferPyramid where
  numLevels : Nat
  level : Nat → BufferImage
  isAllocated : Bool := false

/-- An object whose memory is asked for; those of other types have none that is exchanged. -/
inductive HandleObject
  | image (I : BufferImage) (subimages : List (Option BufferSubimage))
  | single (S : BufferSingle)
  | rawImage (R : BufferRawImage)
  | pyramid (Q : BufferPyramid)
  | other

/-- A pointer is given another place. -/
def SharedMemPtr.moveTo (m : SharedMemPtr) (hostPtr sharedPtr : Nat) : SharedMemPtr :=
  { m with hostPtr := hostPtr, sharedPtr := sharedPtr }

/-- Where a pointer points. -/
def SharedMemPtr.addresses (m : SharedMemPtr) : Nat × Nat := (m.hostPtr, m.sharedPtr)

/-- `shared_ptr` of an address that is imported. -/
def MemPlatform.sharedOf (P : MemPlatform) (addr : Nat) : Nat := if addr = 0 then 0 else P.host2Shared addr

namespace BufferRawImage

/-- `num_exposures`. -/
def numExposures (R : BufferRawImage) : Nat := R.params.numExposures.toNat

/-- `alloc_idx`. -/
def allocIdx (R : BufferRawImage) (exp : Nat) : Nat := if R.params.lineInterleaved then 0 else exp

/-- `exposure_offset`. -/
def exposureOffset (R : BufferRawImage) (exp : Nat) : UInt32 := if R.params.lineInterleaved then exp.toUInt32 else 0

/-- The pointer `m` to a line of an exposure, derived from that to its buffer. -/
def linePtr (R : BufferRawImage) (exp : Nat) (line : UInt32) (m : SharedMemPtr) : SharedMemPtr :=
  let buffer := R.memPtr (R.allocIdx exp)
  if buffer.hostPtr ≠ 0 then
    let offset := (R.imagepatchAddr exp).ownComputePatchOffset 0 (line + R.exposureOffset exp)
    { m.moveTo (buffer.hostPtr + offset.toNat) (buffer.sharedPtr + offset.toNat) with memHeapRegion := buffer.memHeapRegion }
  else m.moveTo 0 0

/-- `ownDeriveRawImageBufferPointers`. -/
def ownDeriveRawImageBufferPointers (R : BufferRawImage) : BufferRawImage :=
  let isSet := fun (exp : Nat) (rows : UInt32) =>
    exp < R.numExposures ∧ ((R.memPtr (R.allocIdx exp)).hostPtr = 0 ∨ 0 < rows)
  { R with
    imgPtr := fun exp => if exp < R.numExposures then R.linePtr exp R.params.metaHeightBefore (R.imgPtr exp) else R.imgPtr exp
    metaBeforePtr := fun exp =>
      if isSet exp R.params.metaHeightBefore then R.linePtr exp 0 (R.metaBeforePtr exp) else R.metaBeforePtr exp
    metaAfterPtr := fun exp =>
      if isSet exp R.params.metaHeightAfter then
        R.linePtr exp (R.params.metaHeightBefore + R.params.height) (R.metaAfterPtr exp)
      else R.metaAfterPtr exp }

/-- The host pointers. -/
def toDesc (R : BufferRawImage) : RawImageDesc where
  params := R.params
  imagepatchAddr := R.imagepatchAddr
  memSize := R.memSize
  memPtr := fun exp => (R.memPtr exp).hostPtr
  imgPtr := fun exp => (R.imgPtr exp).hostPtr
  metaBeforePtr := fun exp => (R.metaBeforePtr exp).hostPtr
  metaAfterPtr := fun exp => (R.metaAfterPtr exp).hostPtr

end BufferRawImage

namespace HandleObject

/-- The number of buffers, where they can be exchanged: `numMemElem`. -/
def numMemElem : HandleObject → Option Nat
  | image I _ => if I.isSubimage then none else some 1
  | single _ => some 1
  | rawImage R => some R.numExposures
  | pyramid Q => some Q.numLevels
  | other => none

/-- The size that is expected of buffer `i`. -/
def expectedSize : HandleObject → Nat → UInt32
  | image I _, _ => BufferImage.totalSize I.memSize I.planes
  | single S, _ => S.memSize
  | rawImage R, i => R.memSize i
  | pyramid Q, i => BufferImage.totalSize (Q.level i).memSize (Q.level i).planes
  | other, _ => 0

end HandleObject

/-! ### `tivxReferenceImportHandle` -/

/-- The pointers of a sub-image from those of the image. -/
def BufferSubimage.update (mem : Nat → SharedMemPtr) (C : BufferSubimage) : BufferSubimage :=
  let from' := fun (m q : SharedMemPtr) (offset : UInt32) =>
    m.moveTo (q.hostPtr + offset.toNat) (q.sharedPtr + offset.toNat)
  if C.isChannel then
    { C with memPtr := fun j => if j = 0 then from' (C.memPtr 0) (mem C.channelPlane) (C.memOffset 0) else C.memPtr j }
  else { C with memPtr := fun j => if j < C.planes then from' (C.memPtr j) (mem j) (C.memOffset j) else C.memPtr j }

/-- The sub-images are followed up to the first free place. -/
def updateSubimages (mem : Nat → SharedMemPtr) : List (Option BufferSubimage) → List (Option BufferSubimage)
  | [] => []
  | none :: l => none :: l
  | some C :: l => some (C.update mem) :: updateSubimages mem l

/-- The planes of an image that is given memory.  There is a first one also where the image has no format. -/
def BufferImage.importPlanes (P : MemPlatform) (I : BufferImage) (addr p : Nat) : SharedMemPtr :=
  if p < I.planes ∨ p = 0 then I.importPlane P addr p else I.memPtr p

/-- A level of a pyramid that is given memory. -/
def BufferImage.importLevel (P : MemPlatform) (I : BufferImage) (addr : Nat) : BufferImage :=
  { I with memPtr := fun p =>
      if p < I.planes ∨ p = 0 then { I.importPlane P addr p with memHeapRegion := .externalShared } else I.memPtr p }

/-- The buffers of a raw image that is given memory. -/
def BufferRawImage.importBuffers (P : MemPlatform) (R : BufferRawImage) (addr : Nat → Nat) (i : Nat) : SharedMemPtr :=
  if i < R.numExposures then
    { (R.memPtr i).moveTo (addr i) (P.sharedOf (addr i)) with memHeapRegion := .externalShared }
  else R.memPtr i

/-- `is_allocated` after the addresses of the first `n` buffers. -/
def markAllocated (addr : Nat → Nat) (isAllocated : Bool) : Nat → Bool
  | 0 => isAllocated
  | n + 1 => addr n != 0

namespace HandleObject

variable (P : MemPlatform)

/-- The object is updated. -/
def update (addr : Nat → Nat) : HandleObject → HandleObject
  | image I subimages =>
    let mem := I.importPlanes P (addr 0)
    image { I with memPtr := mem, isAllocated := addr 0 != 0 } (updateSubimages mem subimages)
  | single S =>
    let m := { S.memPtr.moveTo (addr 0) (P.sharedOf (addr 0)) with memHeapRegion := .externalShared }
    single { S with memPtr := m, isAllocated := addr 0 != 0 }
  | rawImage R =>
    rawImage (BufferRawImage.ownDeriveRawImageBufferPointers
      { R with memPtr := R.importBuffers P addr, isAllocated := markAllocated addr R.isAllocated R.numExposures })
  | pyramid Q => pyramid { Q with
      level := fun i => if i < Q.numLevels then (Q.level i).importLevel P (addr i) else Q.level i
      isAllocated := markAllocated addr Q.isAllocated Q.numLevels }
  | other => other

/-- `tivxReferenceImportHandle`, and whether it succeeds. -/
def tivxReferenceImportHandle (O : HandleObject) (addr : Option (Nat → Nat)) (size : Option (Nat → UInt32))
    (numEntries : Nat) : HandleObject × Bool :=
  if numEntries = 0 then (O, false)
  else
    match addr, size, O.numMemElem with
    | some addr, some size, some n =>
      let numNulls := (List.range n).countP (fun i => addr i == 0)
      if numEntries < n then (O, false)
      else if (List.range n).any (fun i => addr i != 0 && P.host2Shared (addr i) == 0) then (O, false)
      else if numNulls ≠ 0 ∧ numNulls ≠ n then (O, false)
      else if numNulls = 0 ∧ (List.range n).any (fun i => O.expectedSize i != size i) then (O, false)
      else if n < numEntries then (O, false)
      else (O.update P addr, true)
    | _, _, _ => (O, false)

/-! ### `tivxReferenceExportHandle` -/

/-- `tivxReferenceExportHandle`: the addresses and the sizes.  Only the levels of a pyramid are counted before. -/
def tivxReferenceExportHandle (O : HandleObject) (maxNumEntries : Nat) : Option (List (Nat × UInt32)) :=
  if maxNumEntries = 0 then none
  else
    match O with
    | image I _ => (I.tivxReferenceExportHandle).map (fun h => [h])
    | single S => some [(S.memPtr.hostPtr, S.memSize)]
    | rawImage R => some ((List.range R.numExposures).map (fun i => ((R.memPtr i).hostPtr, R.memSize i)))
    | pyramid Q =>
      if maxNumEntries < Q.numLevels then none
      else some ((List.range Q.numLevels).map (fun i =>
        (((Q.level i).memPtr 0).hostPtr, BufferImage.totalSize (Q.level i).memSize (Q.level i).planes)))
    | other => none

end HandleObject

end Tiovx
