import Mathlib.Logic.Function.Basic
import Mathlib.Tactic.Common
import Tiovx.Lib.Run
import Tiovx.Lib.SlotTable
import Tiovx.ArrayObjects
import Tiovx.ImageLayout
import Tiovx.ImagePointers
/-!
# VirtualObjects — virtual objects and verification (`vx_graph_verify.c`, `vx_image.c`, `vx_pyramid.c`, `vx_array.c`)

Each verification of a graph gives the virtual outputs of its nodes the dimensions their kernels ask for, with all that a new
object is given, and allocates all parameters after that.
-/
namespace Tiovx

open StepSystem SlotTable

/-- `TIVX_IMAGE_MAX_MAPS`. -/
def imageMaxMaps : Nat := 16

/-- `TIVX_ARRAY_MAX_MAPS`. -/
def arrayMaxMaps : Nat := 16

/-- `TIVX_DEFAULT_STRIDE_Y_MULTIPLE`. -/
def defaultStrideYMultiple : UInt32 := 8

/-- `TIVX_PYRAMID_MAX_LEVEL_OBJECTS`. -/
def pyramidMaxLevelObjects : Nat := 64

/-- The scope of a reference. -/
inductive RefScope
  | graph (g : Nat)
  | image (p : Nat)
  | pyramid (q : Nat)
deriving DecidableEq

/-- No other graph is the scope. -/
def RefScope.isValid (g : Nat) : RefScope → Bool
  | .graph g' => g' = g
  | _ => true

def RefScope.isPyramid : RefScope → Bool
  | .pyramid _ => true
  | _ => false

/-- A virtual `vx_image`, or one that is created from it. -/
structure VirtImage where
  desc : ImageDesc
  createType : ImageCreateType
  scope : RefScope
  elementIdx : Nat := 0
  isAllocated : Bool := false
  isArrayElement : Bool := false
  isAccessible : Bool := false
  parent : Option Nat := none
  subimages : List (Option Nat) := List.replicate imageMaxSubimages none
  maps : List (Option Nat) := List.replicate imageMaxMaps none
  strideYAlignment : UInt32 := defaultStrideYAlign

/-- A virtual `vx_array`. -/
structure VirtArray where
  array : VxArray
  graph : Nat
  isAccessible : Bool := false
  maps : List (Option Nat) := List.replicate arrayMaxMaps none

/-- A virtual `vx_pyramid`; `dims` is what its scale makes of the width and the height for each level. -/
structure VirtPyramid where
  graph : Nat
  numLevels : Nat
  dims : UInt32 → UInt32 → Nat → UInt32 × UInt32
  width : UInt32
  height : UInt32
  format : DfImage
  img : Nat → Option Nat := fun _ => none

/-- The virtual objects, and the buffers that are allocated. -/
structure VirtStore where
  images : Nat → Option VirtImage := fun _ => none
  arrays : Nat → Option VirtArray := fun _ => none
  pyramids : Nat → Option VirtPyramid := fun _ => none
  itemSizes : Int → UInt64
  buffers : Nat → Bool := fun _ => false

/-- A virtual object. -/
inductive VirtRef
  | image (i : Nat)
  | array (a : Nat)
  | pyramid (q : Nat)
deriving DecidableEq

/-- A virtual output of a node, with the metadata its kernel asks for; a pyramid, with the references of its new images. -/
inductive NodeOutput
  | image (i : Nat) (width height : UInt32) (format : DfImage)
  | array (a : Nat) (itemType : Int) (capacity : UInt64)
  | pyramid (q levels : Nat) (width height : UInt32) (format : DfImage) (ids : List Nat)

/-- A node: whether its kernel validates it, its virtual outputs, whether its valid regions are accepted, and its parameters. -/
structure VerifyNode where
  isValid : Bool
  outputs : List NodeOutput
  validRect : Bool
  parameters : List VirtRef

namespace VirtImage

/-- The pointer of the first plane. -/
def hostPtr (I : VirtImage) : Nat := (I.desc.plane 0).hostPtr

/-- `ownInitImage`. -/
def ownInitImage (I : VirtImage) (width height : UInt32) (format : DfImage) : VirtImage :=
  { I with
    desc := Tiovx.ownInitImage width height format
    parent := none
    subimages := List.replicate imageMaxSubimages none
    maps := List.replicate imageMaxMaps none
    strideYAlignment := defaultStrideYAlign }

/-- What the alignment makes of a plane. -/
def alignPlane (alignment : UInt32) (q : ImagePlane) : ImagePlane :=
  let strideY :=
    if q.addr.strideX ≠ 0 then tivxAlign (q.addr.dimX * q.addr.strideX.toUInt32 / q.addr.stepX) alignment
    else tivxAlign ((q.addr.dimX * 12 + 7) / 8) alignment
  let addr := { q.addr with strideY := strideY.toInt32 }
  { q with addr := addr, memSize := addr.memSize }

end VirtImage

namespace VirtStore

def setImage (s : VirtStore) (i : Nat) (I : VirtImage) : VirtStore := { s with images := Function.update s.images i (some I) }

def setArray (s : VirtStore) (a : Nat) (A : VirtArray) : VirtStore := { s with arrays := Function.update s.arrays a (some A) }

def setPyramid (s : VirtStore) (q : Nat) (Q : VirtPyramid) : VirtStore :=
  { s with pyramids := Function.update s.pyramids q (some Q) }

/-! ### Memory -/

/-- A buffer the allocator gives. -/
def isFree (s : VirtStore) (host : Nat) : Bool := host != 0 && !s.buffers host

/-- `ownAllocImageBuffer`, with what the allocator gives, and whether it succeeds.  An image without a format has no size. -/
def ownAllocImageBuffer (s : VirtStore) (i : Nat) (I : VirtImage) (host : Nat) : VirtStore × Bool :=
  if I.createType = .normal ∧ I.hostPtr = 0 then
    if 0 < I.desc.planes ∧ s.isFree host then
      ({ s.setImage i { I with desc := I.desc.ownAllocImageBuffer host, isAllocated := true } with
        buffers := Function.update s.buffers host true }, true)
    else (s, false)
  else (s, true)

/-- `ownAllocReferenceBufferGeneric` of an array. -/
def ownAllocReferenceBufferGeneric (s : VirtStore) (a : Nat) (A : VirtArray) (host : Nat) : VirtStore × Bool :=
  if A.array.hostPtr = 0 then
    if A.array.memSize ≠ 0 ∧ s.isFree host then
      ({ s.setArray a { A with array := { A.array with hostPtr := host } } with
        buffers := Function.update s.buffers host true }, true)
    else (s, false)
  else (s, true)

/-- `ownAllocImageBuffer` of an image that is there. -/
def allocImage (s : VirtStore) (i host : Nat) : VirtStore × Bool :=
  match s.images i with
  | none => (s, false)
  | some I => s.ownAllocImageBuffer i I host

/-- `ownAllocPyramidBuffer`, from a level on: an allocation that fails is the last, a level that is not there is not. -/
def ownAllocPyramidBuffer : List (Option Nat) → List Nat → Bool → VirtStore → VirtStore × List Nat × Bool
  | [], hosts, ok, s => (s, hosts, ok)
  | none :: l, hosts, _, s => ownAllocPyramidBuffer l hosts false s
  | some i :: l, hosts, _, s =>
    match s.allocImage i (hosts.headD 0) with
    | (s, true) => ownAllocPyramidBuffer l hosts.tail true s
    | (s, false) => (s, hosts.tail, false)

/-- `ownReferenceAllocMem`. -/
def ownReferenceAllocMem (s : VirtStore) (hosts : List Nat) : VirtRef → VirtStore × List Nat × Bool
  | .image i =>
    let (s, ok) := s.allocImage i (hosts.headD 0)
    (s, hosts.tail, ok)
  | .array a =>
    match s.arrays a with
    | none => (s, hosts, false)
    | some A =>
      let (s, ok) := s.ownAllocReferenceBufferGeneric a A (hosts.headD 0)
      (s, hosts.tail, ok)
  | .pyramid q =>
    match s.pyramids q with
    | none => (s, hosts, false)
    | some Q => ownAllocPyramidBuffer ((List.range Q.numLevels).map Q.img) hosts true s

/-- `ownGraphAllocateDataObjects`. -/
def ownGraphAllocateDataObjects : List VirtRef → List Nat → VirtStore → VirtStore
  | [], _, s => s
  | r :: refs, hosts, s =>
    match s.ownReferenceAllocMem hosts r with
    | (s, hosts, true) => ownGraphAllocateDataObjects refs hosts s
    | (s, _, false) => s

/-! ### The levels of a pyramid -/

/-- The image of level `k`. -/
def createLevel (s : VirtStore) (q k i : Nat) : Option VirtStore :=
  (s.pyramids q).bind (fun Q =>
    let (w, h) := Q.dims Q.width Q.height k
    (ownCreateImageInt w h Q.format).bind (fun d =>
      if s.images i = none then
        some ((s.setImage i { desc := d, createType := .normal, scope := .pyramid q, elementIdx := k }).setPyramid q
          { Q with img := Function.update Q.img k (some i) })
      else none))

/-- The `n` levels from `k` on, or the first of them that cannot be created. -/
def createLevels (q : Nat) : Nat → Nat → List Nat → VirtStore → Except Nat VirtStore
  | 0, _, _, s => .ok s
  | _ + 1, k, [], _ => .error k
  | n + 1, k, i :: ids, s =>
    match s.createLevel q k i with
    | none => .error k
    | some s => createLevels q n (k + 1) ids s

/-- `ownInitPyramid`; the images that are created before one that is not are released again. -/
def ownInitPyramid (s : VirtStore) (q : Nat) (Q : VirtPyramid) (ids : List Nat) : VirtStore × Bool :=
  match createLevels q Q.numLevels 0 ids s with
  | .ok s => (s, true)
  | .error k => (s.setPyramid q { Q with img := fun j => if j < k then none else Q.img j }, false)

/-! ### `vxVerifyGraph` -/

/-- The checks before an output is initialised. -/
def isAccepted (s : VirtStore) (g : Nat) : NodeOutput → Bool
  | .image i width height _ => (s.images i).any (fun I => I.scope.isValid g && width != 0 && height != 0)
  | .array a itemType capacity =>
    (s.arrays a).any (fun A => A.graph == g && s.itemSizes itemType != 0 && capacity != 0 && itemType != vxTypeInvalid)
  | .pyramid q levels width height .. =>
    (s.pyramids q).any (fun Q => Q.graph == g && levels == Q.numLevels && width != 0 && height != 0)

/-- `ownInitVirtualImage`, `ownInitVirtualArray` or `ownInitVirtualPyramid` of an output. -/
def initOutput (s : VirtStore) : NodeOutput → VirtStore × Bool
  | .image i width height format =>
    match s.images i with
    | none => (s, false)
    | some I => (s.setImage i (I.ownInitImage width height format), true)
  | .array a itemType capacity =>
    match s.arrays a with
    | none => (s, false)
    | some A =>
      (s.setArray a { A with array := ownInitArrayObject s.itemSizes itemType capacity true,
                             maps := List.replicate arrayMaxMaps none }, true)
  | .pyramid q _ width height format ids =>
    match s.pyramids q with
    | none => (s, false)
    | some Q =>
      let Q := { Q with width := width, height := height, format := format }
      (s.setPyramid q Q).ownInitPyramid q Q ids

def ownInitVirtual (s : VirtStore) (g : Nat) (o : NodeOutput) : VirtStore × Bool :=
  if s.isAccepted g o then s.initOutput o else (s, false)

/-- `ownGraphInitVirtualNode`. -/
def ownGraphInitVirtualNode (g : Nat) : List NodeOutput → VirtStore → VirtStore × Bool
  | [], s => (s, true)
  | o :: outputs, s =>
    match s.ownInitVirtual g o with
    | (s, true) => ownGraphInitVirtualNode g outputs s
    | (s, false) => (s, false)

/-- `ownGraphNodeKernelValidate`. -/
def ownGraphNodeKernelValidate (g : Nat) : List VerifyNode → VirtStore → VirtStore × Bool
  | [], s => (s, true)
  | N :: nodes, s =>
    if N.isValid then
      match ownGraphInitVirtualNode g N.outputs s with
      | (s, true) => if N.validRect then ownGraphNodeKernelValidate g nodes s else (s, false)
      | (s, false) => (s, false)
    else (s, false)

/-- `vxVerifyGraph`; whether the stages between the two accept the graph. -/
def vxVerifyGraph (s : VirtStore) (g : Nat) (nodes : List VerifyNode) (accepted : Bool) (hosts : List Nat) : VirtStore :=
  match ownGraphNodeKernelValidate g nodes s with
  | (s, true) => if accepted then ownGraphAllocateDataObjects (nodes.flatMap (·.parameters)) hosts s else s
  | (s, false) => s

/-! ### Images that are created from others -/

/-- A sub-image is put into the list of its parent. -/
def ownLinkParentSubimage (s : VirtStore) (p : Nat) (P : VirtImage) (i : Nat) (createType : ImageCreateType)
    (desc : ImageDesc) : Option VirtStore :=
  (putFirst i P.subimages).map (fun t => (s.setImage p { P with subimages := t }).setImage i
    { desc := desc, createType := createType, scope := .image p, parent := some p })

/-- The image is a sub-image already, as often as it can be. -/
def isDeepest (s : VirtStore) : Nat → VirtImage → Bool
  | 0, _ => true
  | n + 1, I =>
    match I.parent.bind s.images with
    | none => false
    | some P => s.isDeepest n P

/-- An image created from `p`, which is allocated first, where `isAccepted` does not refuse that before. -/
def createSubimage (s : VirtStore) (p i host : Nat) (createType : ImageCreateType) (isAccepted : VirtImage → Bool)
    (create : ImageDesc → Option ImageDesc) : VirtStore :=
  match s.images p with
  | none => s
  | some P =>
    if isAccepted P then
      match s.ownAllocImageBuffer p P host with
      | (s, false) => s
      | (s, true) =>
        match s.images p with
        | none => s
        | some P =>
          if s.isDeepest imageMaxSubimageDepth P then s
          else ((create P.desc).bind (s.ownLinkParentSubimage p P i createType)).getD s
    else s

/-- `vxCreateImageFromChannel`. -/
def vxCreateImageFromChannel (s : VirtStore) (p i host : Nat) (channel : ImageChannel) : VirtStore :=
  s.createSubimage p i host .fromChannel (fun _ => true) (Tiovx.vxCreateImageFromChannel · channel)

/-- `vxCreateImageFromROI`. -/
def vxCreateImageFromROI (s : VirtStore) (p i host : Nat) (rect : VxRectangle) : VirtStore :=
  s.createSubimage p i host .fromRoi
    (fun P => !s.isDeepest imageMaxSubimageDepth P && !decide (rect.endX < rect.startX ∨ rect.endY < rect.startY ∨
      P.desc.width < rect.endX ∨ P.desc.height < rect.endY)) (Tiovx.vxCreateImageFromROI · rect)

/-! ### Attributes and maps -/

/-- `vxSetImageAttribute` of `TIVX_IMAGE_STRIDE_Y_ALIGNMENT`. -/
def setStrideYAlignment (s : VirtStore) (i : Nat) (I : VirtImage) (alignment : UInt32) : VirtStore :=
  if !I.isAllocated && I.parent.isNone && !I.isArrayElement && alignment % defaultStrideYMultiple == 0 then
    s.setImage i { I with
      desc := { I.desc with plane := fun k =>
        if k < I.desc.planes then VirtImage.alignPlane alignment (I.desc.plane k) else I.desc.plane k }
      strideYAlignment := alignment }
  else s

/-- `vxMapImagePatch` of a plane, at an address of it; the image is allocated before its access is checked. -/
def vxMapImagePatch (s : VirtStore) (i : Nat) (I : VirtImage) (planeIndex host : Nat) : VirtStore :=
  if planeIndex < I.desc.planes then
    match s.ownAllocImageBuffer i I host with
    | (s, false) => s
    | (s, true) =>
      match s.images i with
      | none => s
      | some I =>
        let hostPtr := (I.desc.plane planeIndex).hostPtr
        if I.isAccessible ∧ hostPtr ≠ 0 then
          match putFirst hostPtr I.maps with
          | none => s
          | some maps => s.setImage i { I with maps := maps }
        else s
  else s

/-- `vxUnmapImagePatch`. -/
def vxUnmapImagePatch (s : VirtStore) (i : Nat) (I : VirtImage) (mapId : Nat) : VirtStore :=
  if I.isAccessible then s.setImage i { I with maps := I.maps.set mapId none } else s

/-- `vxMapArrayRange`. -/
def vxMapArrayRange (s : VirtStore) (a : Nat) (A : VirtArray) (rangeStart rangeEnd : Nat) : VirtStore :=
  if A.array.hostPtr ≠ 0 ∧ A.isAccessible ∧ rangeStart < rangeEnd ∧ rangeEnd ≤ A.array.numItems.toNat then
    match putFirst (A.array.hostPtr + rangeStart * A.array.itemSize.toNat) A.maps with
    | none => s
    | some maps => s.setArray a { A with maps := maps }
  else s

/-- `vxUnmapArrayRange`. -/
def vxUnmapArrayRange (s : VirtStore) (a : Nat) (A : VirtArray) (mapId : Nat) : VirtStore :=
  if A.array.hostPtr ≠ 0 ∧ A.isAccessible then s.setArray a { A with maps := A.maps.set mapId none } else s

/-- `vxGetPyramidLevel`; the levels are created where the first is not there. -/
def vxGetPyramidLevel (s : VirtStore) (q : Nat) (Q : VirtPyramid) (index : Nat) (ids : List Nat) : VirtStore :=
  if index < Q.numLevels then
    match (if (Q.img 0).isSome then (s, true) else s.ownInitPyramid q Q ids) with
    | (s, false) => s
    | (s, true) =>
      match (s.pyramids q).bind (fun Q => Q.img index) with
      | none => s
      | some i =>
        match s.images i with
        | none => s
        | some I => s.setImage i { I with isArrayElement := true }
  else s

/-! ### Releases -/

/-- `ownDestructImage`, with `vxReleaseImage` of a sub-image. -/
def ownDestructImage (s : VirtStore) (i : Nat) (I : VirtImage) : VirtStore :=
  let s := if I.createType = .normal then { s with buffers := Function.update s.buffers I.hostPtr false } else s
  let s := match I.parent with
    | none => s
    | some p => match s.images p with
      | none => s
      | some P => match clearFirst i P.subimages with
        | none => s
        | some t => s.setImage p { P with subimages := t }
  { s with images := Function.update s.images i none }

/-- `ownDestructPyramid` releases the image of a level. -/
def releaseLevel (s : VirtStore) (q k : Nat) : VirtStore :=
  match s.pyramids q with
  | none => s
  | some Q => match Q.img k with
    | none => s
    | some i => match s.images i with
      | none => s
      | some I => (s.ownDestructImage i I).setPyramid q { Q with img := Function.update Q.img k none }

/-- `ownDestructPyramid`. -/
def ownDestructPyramid (s : VirtStore) (q : Nat) (Q : VirtPyramid) : VirtStore :=
  let s := (List.range Q.numLevels).foldl (fun s k => s.releaseLevel q k) s
  { s with pyramids := Function.update s.pyramids q none }

end VirtStore

/-- What is called: virtual objects are created, levels are taken, sub-images are created, attributes are set, objects are mapped
where a kernel has made them accessible, graphs are verified, and objects are released for the last time. -/
inductive VirtAction
  | vxCreateVirtualImage (g i : Nat) (width height : UInt32) (format : DfImage)
  | vxCreateVirtualArray (g a : Nat) (itemType : Int) (capacity : UInt64)
  | vxCreateVirtualPyramid (g q levels : Nat) (dims : UInt32 → UInt32 → Nat → UInt32 × UInt32) (width height : UInt32)
      (format : DfImage)
  | vxGetPyramidLevel (q index : Nat) (ids : List Nat)
  | vxCreateImageFromChannel (p i host : Nat) (channel : ImageChannel)
  | vxCreateImageFromROI (p i host : Nat) (rect : VxRectangle)
  | setStrideYAlignment (i : Nat) (alignment : UInt32)
  | ownNodeSetAccessibility (r : VirtRef) (isAccessible : Bool)
  | vxMapImagePatch (i planeIndex host : Nat)
  | vxUnmapImagePatch (i mapId : Nat)
  | setNumItems (a : Nat) (numItems : UInt32)
  | vxMapArrayRange (a rangeStart rangeEnd : Nat)
  | vxUnmapArrayRange (a mapId : Nat)
  | vxVerifyGraph (g : Nat) (nodes : List VerifyNode) (accepted : Bool) (hosts : List Nat)
  | releaseImage (i : Nat)
  | releaseArray (a : Nat)
  | releasePyramid (q : Nat)

open VirtStore in
/-- One call.  An image is released for the last time after its sub-images, and a pyramid after what was taken from it. -/
def virtStep (s : VirtStore) : VirtAction → Option VirtStore
  | .vxCreateVirtualImage g i width height format =>
    if s.images i = none then
      (ownCreateImageInt width height format).map (fun d =>
        s.setImage i { desc := d, createType := .normal, scope := .graph g })
    else none
  | .vxCreateVirtualArray g a itemType capacity =>
    if s.arrays a = none then
      some (s.setArray a { array := ownInitArrayObject s.itemSizes itemType capacity true, graph := g })
    else none
  | .vxCreateVirtualPyramid g q levels dims width height format =>
    if s.pyramids q = none ∧ 0 < levels ∧ levels ≤ pyramidMaxLevelObjects then
      some (s.setPyramid q { graph := g, numLevels := levels, dims := dims, width := width, height := height, format := format })
    else none
  | .vxGetPyramidLevel q index ids => (s.pyramids q).map (fun Q => s.vxGetPyramidLevel q Q index ids)
  | .vxCreateImageFromChannel p i host channel =>
    if s.images i = none then some (s.vxCreateImageFromChannel p i host channel) else none
  | .vxCreateImageFromROI p i host rect =>
    if s.images i = none then some (s.vxCreateImageFromROI p i host rect) else none
  | .setStrideYAlignment i alignment => (s.images i).map (fun I => s.setStrideYAlignment i I alignment)
  | .ownNodeSetAccessibility (.image i) isAccessible =>
    (s.images i).map (fun I => s.setImage i { I with isAccessible := isAccessible })
  | .ownNodeSetAccessibility (.array a) isAccessible =>
    (s.arrays a).map (fun A => s.setArray a { A with isAccessible := isAccessible })
  | .ownNodeSetAccessibility (.pyramid _) _ => some s
  | .vxMapImagePatch i planeIndex host => (s.images i).map (fun I => s.vxMapImagePatch i I planeIndex host)
  | .vxUnmapImagePatch i mapId => (s.images i).map (fun I => s.vxUnmapImagePatch i I mapId)
  | .setNumItems a numItems =>
    (s.arrays a).map (fun A => s.setArray a { A with array := { A.array with numItems := numItems } })
  | .vxMapArrayRange a rangeStart rangeEnd => (s.arrays a).map (fun A => s.vxMapArrayRange a A rangeStart rangeEnd)
  | .vxUnmapArrayRange a mapId => (s.arrays a).map (fun A => s.vxUnmapArrayRange a A mapId)
  | .vxVerifyGraph g nodes accepted hosts => some (s.vxVerifyGraph g nodes accepted hosts)
  | .releaseImage i =>
    (s.images i).bind (fun I =>
      if entries I.subimages = [] ∧ !I.scope.isPyramid then
        some (s.ownDestructImage i I)
      else none)
  | .releaseArray a =>
    (s.arrays a).map (fun A =>
      { s with arrays := Function.update s.arrays a none, buffers := Function.update s.buffers A.array.hostPtr false })
  | .releasePyramid q =>
    (s.pyramids q).bind (fun Q =>
      if (List.range Q.numLevels).all (fun k => (Q.img k).all (fun i => (s.images i).all (fun I => (entries I.subimages).isEmpty)))
      then some (s.ownDestructPyramid q Q) else none)

/-- The object has the buffer at `b`. -/
def VirtStore.Holds (s : VirtStore) : VirtRef → Nat → Prop
  | .image i, b => ∃ I, s.images i = some I ∧ I.createType = .normal ∧ I.hostPtr = b
  | .array a, b => ∃ A, s.arrays a = some A ∧ A.array.hostPtr = b
  | .pyramid _, _ => False

/-- Each buffer is that of one object; each sub-image is in the list of its parent and in its memory; and each level is that of
its pyramid. -/
structure VirtualsOk (s : VirtStore) : Prop where
  buffer : ∀ b, s.buffers b = true → ∃ r, s.Holds r b ∧ ∀ r', s.Holds r' b → r' = r
  subimage : ∀ c C p, s.images c = some C → C.scope = .image p → ∃ P, s.images p = some P ∧ C.parent = some p ∧
    c ∈ entries P.subimages ∧ ∀ k < C.desc.planes, (C.desc.plane k).hostPtr ≠ 0 ∧ (C.desc.plane k).hostPtr =
      (P.desc.plane (C.desc.channelPlane + k)).hostPtr + (C.desc.plane k).memOffset.toNat
  level : ∀ i I q, s.images i = some I → I.scope = .pyramid q → ∃ Q, s.pyramids q = some Q ∧ Q.img I.elementIdx = some i

/-- What is mapped and set is kept. -/
structure KeepsMaps (s s' : VirtStore) : Prop where
  image : ∀ i I, s.images i = some I → ∃ I', s'.images i = some I' ∧ I'.maps = I.maps ∧
    I'.strideYAlignment = I.strideYAlignment
  array : ∀ a A, s.arrays a = some A → ∃ A', s'.arrays a = some A' ∧ A'.maps = A.maps

namespace VirtStore

/-- An output that is as it was created: without memory, the alignment that is the default, and without levels. -/
def isUntouched (s : VirtStore) : NodeOutput → Bool
  | .image i .. => (s.images i).all (fun I => I.hostPtr == 0 && I.strideYAlignment == defaultStrideYAlign)
  | .array a .. => (s.arrays a).all (fun A => A.array.hostPtr == 0)
  | .pyramid q .. => (s.pyramids q).all (fun Q => (List.range Q.numLevels).all (fun k => (Q.img k).isNone))

/-- Each output that is initialised is as it was created. -/
def outputsFit (g : Nat) : List NodeOutput → VirtStore → Bool
  | [], _ => true
  | o :: outputs, s =>
    (!s.isAccepted g o || s.isUntouched o) &&
      (match s.ownInitVirtual g o with | (s, true) => outputsFit g outputs s | (_, false) => true)

def nodesFit (g : Nat) : List VerifyNode → VirtStore → Bool
  | [], _ => true
  | N :: nodes, s =>
    !N.isValid || (outputsFit g N.outputs s && (match ownGraphInitVirtualNode g N.outputs s with
      | (s, true) => !N.validRect || nodesFit g nodes s
      | (_, false) => true))

end VirtStore

/-- `vxVerifyGraph` initialises virtual outputs before they have memory, another alignment or levels. -/
def keepsVirtuals (s : VirtStore) : VirtAction → Bool
  | .vxVerifyGraph g nodes _ _ => VirtStore.nodesFit g nodes s
  | _ => true

end Tiovx
