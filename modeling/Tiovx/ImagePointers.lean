import Mathlib.Tactic
import Mathlib.Data.UInt
import Tiovx.Lib.Run
import Tiovx.Lib.SlotTable
import Tiovx.Lib.StackWalk
import Tiovx.SubimageLists
/-!
# ImagePointers — the pointers of sub-images and sub-tensors (`vx_image.c`, `vx_reference.c`)

An image from a channel or a region, and a tensor from a region, are in the memory of the image they come from.  Three functions
give an image other memory, `vxSwapImageHandle`, `tivxReferenceImportHandle` and the kernels that swap two images, and each has
its own way to follow the pointers of what was created from it.
-/
namespace Tiovx

open StepSystem SlotTable StackWalk

/-- `TIVX_IMAGE_MAX_PLANES`. -/
def imageMaxPlanes : Nat := 4

/-- `TIVX_IMAGE_MAX_SUBTENSORS`. -/
def imageMaxSubtensors : Nat := 16

/-- `TIVX_SUBIMAGE_STACK_SIZE`. -/
def subimageStackSize : Nat := imageMaxSubimages * imageMaxSubimageDepth

/-- Visits that are enough for an image with all that can be created from it. -/
def maxVisits : Nat := 33825

/-- What `tivx_shared_mem_ptr_t` points to. -/
structure PlanePtr where
  host : UInt64
  shared : UInt64
deriving DecidableEq

/-- `create_type`. -/
inductive ImageCreateType
  | normal
  | fromHandle
  | fromChannel
  | fromRoi
deriving DecidableEq

/-- `vx_image`; `numParents` is what `ownGetNumParentSubimages` counts. -/
structure PtrImage where
  createType : ImageCreateType
  planes : Nat
  memOffset : Nat → UInt32 := fun _ => 0
  channelPlane : Nat := 0
  parent : Option Nat := none
  numParents : Nat := 0
  subimages : List (Option Nat) := List.replicate imageMaxSubimages none
  subtensors : List (Option Nat) := List.replicate imageMaxSubtensors none

/-- `vx_tensor` from a region, and the offset it was given. -/
structure PtrTensor where
  channelPlane : Nat
  parent : Nat
  offset : UInt64

/-- The images and tensors, and the `mem_ptr` and `mem_size` of their descriptors. -/
structure PtrStore where
  images : Nat → Option PtrImage := fun _ => none
  tensors : Nat → Option PtrTensor := fun _ => none
  memPtr : Nat → Nat → PlanePtr := fun _ _ => ⟨0, 0⟩
  memSize : Nat → Nat → UInt32 := fun _ _ => 0
  tensorPtr : Nat → PlanePtr := fun _ => ⟨0, 0⟩

/-- An image or a tensor on the stack of `adjustMemoryPointer`. -/
inductive PtrRef
  | image (i : Nat)
  | tensor (t : Nat)
deriving DecidableEq

/-- The plane of the parent that plane `k` of an image is in. -/
def PtrImage.parentPlane (I : PtrImage) (k : Nat) : Nat := if I.createType = .fromChannel then I.channelPlane else k

namespace PtrStore

def setMemPtr (s : PtrStore) (i : Nat) (f : Nat → PlanePtr) : PtrStore :=
  { s with memPtr := Function.update s.memPtr i f }

def setTensorPtr (s : PtrStore) (t : Nat) (q : PlanePtr) : PtrStore :=
  { s with tensorPtr := Function.update s.tensorPtr t q }

def setImage (s : PtrStore) (i : Nat) (I : PtrImage) : PtrStore :=
  { s with images := Function.update s.images i (some I) }

section Translated

/- `tivxMemHost2SharedPtr` of the shared region -/
variable (host2Shared : UInt64 → UInt64)

/-! ### `vxSwapImageHandle` -/

/-- `ownSwapImageUnmap`. -/
def ownSwapImageUnmap (s : PtrStore) (i : Nat) (I : PtrImage) (newPtrs : Option (Nat → UInt64)) : PtrStore :=
  s.setMemPtr i (fun k =>
    if k < I.planes then
      match newPtrs with
      | none => ⟨0, 0⟩
      | some ptrs => ⟨ptrs k, host2Shared (ptrs k)⟩
    else s.memPtr i k)

/-- The pointers a sub-image is given from those of its parent; none that `ownSwapSubImageCheckRemap` refuses. -/
def subimagePtrs (C : PtrImage) : Option (Nat → UInt64) → Option (Option (Nat → UInt64))
  | none => some none
  | some ptrs =>
    let check := fun ptrs' : Nat → UInt64 =>
      if (List.range C.planes).all (fun k => ptrs' k != 0) then some (some ptrs') else none
    match C.createType with
    | .fromRoi => check (fun k => ptrs k + (C.memOffset k).toUInt64)
    | .fromChannel => check (fun k => if k = 0 then ptrs C.channelPlane else 0)
    | _ => none

/-- The sub-images that are put on the stack, with their pointers. -/
def swapChildren (s : PtrStore) (r : Nat × Option (Nat → UInt64)) : List (Nat × Option (Nat → UInt64)) :=
  match s.images r.1 with
  | none => []
  | some I => (entries I.subimages).filterMap (fun c =>
      (s.images c).bind (fun C => (subimagePtrs C r.2).map (fun ptrs => (c, ptrs))))

/-- An image that is taken off the stack has its pointers: the code gives them to a sub-image when it puts it there. -/
def swapVisit (s : PtrStore) (r : Nat × Option (Nat → UInt64)) : PtrStore :=
  match s.images r.1 with
  | none => s
  | some I => s.ownSwapImageUnmap host2Shared r.1 I r.2

/-- `ownSwapImageCheck` without the previous pointers. -/
def ownSwapImageCheck (I : PtrImage) (newPtrs : Option (Nat → UInt64)) (numPlanes : Nat) (prevPtrs : Bool) : Bool :=
  decide (numPlanes = I.planes) && newPtrs.all (fun ptrs => (List.range I.planes).all (fun k => ptrs k != 0)) &&
    !(prevPtrs && I.parent.isSome)

/-- `vxSwapImageHandle` of an image, where the check accepts its arguments. -/
def vxSwapImageHandle (s : PtrStore) (i : Nat) (newPtrs : Option (Nat → UInt64)) : Option PtrStore :=
  (walk subimageStackSize swapChildren (swapVisit host2Shared) maxVisits [(i, newPtrs)] s true).map Prod.fst

/-! ### `tivxReferenceImportHandle` -/

/-- The pointers of an image that is given the memory at `addr`. -/
def importPtrs (s : PtrStore) (i : Nat) (addr : UInt64) (k : Nat) : PlanePtr :=
  let host := addr + ((List.range k).map (fun j => (s.memSize i j).toUInt64)).sum
  if addr = 0 then ⟨0, 0⟩ else ⟨host, host2Shared host⟩

/-- The pointers of a sub-image from those of the image. -/
def importSubimage (s : PtrStore) (mem : Nat → PlanePtr) (c : Nat) : PtrStore :=
  match s.images c with
  | none => s
  | some C => s.setMemPtr c (fun k =>
      if k < C.planes then
        let q := mem (C.parentPlane k)
        ⟨q.host + (C.memOffset k).toUInt64, q.shared + (C.memOffset k).toUInt64⟩
      else s.memPtr c k)

/-- `tivxReferenceImportHandle` of an image; the sub-images are followed up to the first free place. -/
def tivxReferenceImportHandle (s : PtrStore) (i : Nat) (I : PtrImage) (addr : UInt64) : PtrStore :=
  let mem := fun k => if k < I.planes then s.importPtrs host2Shared i addr k else s.memPtr i k
  (entries (I.subimages.takeWhile Option.isSome)).foldl (fun s c => s.importSubimage mem c) (s.setMemPtr i mem)

/-! ### The swap and move kernels -/

/-- A pointer moved by an offset. -/
def shift (q : PlanePtr) (offset : UInt64) : PlanePtr := ⟨q.host + offset, host2Shared (q.host + offset)⟩

/-- What `adjustMemoryPointer` does with what it takes off its stack. -/
def adjustVisit (offset : Nat → UInt64) (s : PtrStore) : PtrRef → PtrStore
  | .image i =>
    match s.images i with
    | none => s
    | some I =>
      if 0 < I.planes then
        s.setMemPtr i (fun k => if k < I.planes then shift host2Shared (s.memPtr i k) (offset k) else s.memPtr i k)
      else
        s.setMemPtr i (Function.update (s.memPtr i) 0 (shift host2Shared (s.memPtr i 0) (offset I.channelPlane)))
  | .tensor t =>
    match s.tensors t with
    | none => s
    | some T => s.setTensorPtr t (shift host2Shared (s.tensorPtr t) (offset T.channelPlane))

/-- What it puts on the stack. -/
def adjustChildren (s : PtrStore) : PtrRef → List PtrRef
  | .image i =>
    match s.images i with
    | none => []
    | some I => (entries I.subimages).map .image ++ (entries I.subtensors).map .tensor
  | .tensor _ => []

/-- `adjustMemoryPointer`. -/
def adjustMemoryPointer (s : PtrStore) (r : PtrRef) (offset : Nat → UInt64) : Option (PtrStore × Bool) :=
  walk subimageStackSize adjustChildren (adjustVisit host2Shared offset) maxVisits [r] s true

/-- `isImageSwapable`, where the two images have the same format. -/
def isImageSwapable (s : PtrStore) (input output : Nat) (I O : PtrImage) : Bool :=
  I.parent.isNone && O.parent.isNone && I.planes == O.planes &&
    (((entries I.subimages).isEmpty && (entries O.subimages).isEmpty) ||
      (List.range I.planes).all (fun k => s.memSize input k == s.memSize output k))

/-- The offsets from the planes of one image to those of the other. -/
def planeOffsets (s : PtrStore) (input output : Nat) (k : Nat) : UInt64 :=
  (s.memPtr output k).host - (s.memPtr input k).host

/-- `swapImage`. -/
def swapImage (s : PtrStore) (input output : Nat) : Option PtrStore :=
  let offset := s.planeOffsets input output
  let memSize := Function.update (Function.update s.memSize output (s.memSize input)) input (s.memSize output)
  (adjustMemoryPointer host2Shared { s with memSize := memSize } (.image input) offset).bind (fun (s, ok) =>
    if ok then (adjustMemoryPointer host2Shared s (.image output) (fun k => ~~~(offset k - 1))).map Prod.fst else some s)

/-! ### Creation -/

/-- `ownAllocImageBuffer` of an image, with the buffer at `host`. -/
def ownAllocImageBuffer (s : PtrStore) (i : Nat) (I : PtrImage) (host : UInt64) : PtrStore :=
  if I.createType = .normal ∧ (s.memPtr i 0).host = 0 then
    s.setMemPtr i (fun k => if k < I.planes then s.importPtrs host2Shared i host k else s.memPtr i k)
  else s

/-- A sub-image `i` of `p`, put into its list, with its pointers and sizes. -/
def linkSubimage (s : PtrStore) (p : Nat) (P : PtrImage) (t : List (Option Nat)) (i : Nat) (I : PtrImage) (mem : Nat → PlanePtr)
    (memSize : Nat → UInt32) : PtrStore :=
  let s := (s.setImage p { P with subimages := t }).setImage i I
  { s.setMemPtr i mem with memSize := Function.update s.memSize i memSize }

end Translated

end PtrStore

/-- What is called: images are created, allocated and released, sub-images and sub-tensors are created and released, and images
are given other memory. -/
inductive ImagePtrAction
  | vxCreateImage (i planes : Nat) (memSize : Nat → UInt32)
  | vxCreateImageFromHandle (i planes : Nat) (memSize : Nat → UInt32) (ptrs : Nat → UInt64)
  | ownAllocImageBuffer (i : Nat) (host : UInt64)
  | vxCreateImageFromChannel (p i channelPlane : Nat)
  | vxCreateImageFromROI (p i : Nat) (memSize : Nat → UInt32) (memOffset : Nat → UInt32)
  | vxCreateTensorFromROI (p t : Nat) (offset : UInt64)
  | vxReleaseImage (i : Nat)
  | vxReleaseTensor (t : Nat)
  | vxSwapImageHandle (i : Nat) (newPtrs : Option (Nat → UInt64)) (numPlanes : Nat) (prevPtrs : Bool)
  | tivxReferenceImportHandle (i : Nat) (addr : UInt64)
  | swapImage (input output : Nat)

/-- An address the application has. -/
def isAddress (a : UInt64) : Bool := a < 0x4000000000000000

open PtrStore in
/-- One call.  Sub-images and sub-tensors are created of an image that is allocated; a sub-image or sub-tensor is released
together with the last reference to it. -/
def imagePtrStep (host2Shared : UInt64 → UInt64) (s : PtrStore) : ImagePtrAction → Option PtrStore
  | .vxCreateImage i planes memSize =>
    if s.images i = none ∧ 0 < planes ∧ planes ≤ imageMaxPlanes then
      some { (s.setImage i { createType := .normal, planes := planes }).setMemPtr i (fun _ => ⟨0, 0⟩) with
        memSize := Function.update s.memSize i memSize }
    else none
  | .vxCreateImageFromHandle i planes memSize ptrs =>
    if s.images i = none ∧ 0 < planes ∧ planes ≤ imageMaxPlanes then
      some { (s.setImage i { createType := .fromHandle, planes := planes }).setMemPtr i
          (fun k => if k < planes ∧ ptrs k ≠ 0 then ⟨ptrs k, host2Shared (ptrs k)⟩ else ⟨0, 0⟩) with
        memSize := Function.update s.memSize i memSize }
    else none
  | .ownAllocImageBuffer i host =>
    if host ≠ 0 then (s.images i).map (fun I => s.ownAllocImageBuffer host2Shared i I host) else none
  | .vxCreateImageFromChannel p i channelPlane =>
    (s.images p).bind (fun P => (putFirst i P.subimages).bind (fun t =>
      if s.images i = none ∧ P.numParents < imageMaxSubimageDepth ∧ (P.createType = .normal → (s.memPtr p 0).host ≠ 0) ∧
          (P.planes = 2 ∧ channelPlane = 0 ∨ P.planes = 3 ∧ channelPlane < 3) then
        some (s.linkSubimage p P t i
          { createType := .fromChannel, planes := 1, channelPlane := channelPlane, parent := some p,
            numParents := P.numParents + 1 }
          (fun k => if k = 0 then s.memPtr p channelPlane else ⟨0, 0⟩)
          (fun k => if k = 0 then s.memSize p channelPlane else 0))
      else none))
  | .vxCreateImageFromROI p i memSize memOffset =>
    (s.images p).bind (fun P => (putFirst i P.subimages).bind (fun t =>
      if s.images i = none ∧ P.numParents < imageMaxSubimageDepth ∧ (P.createType = .normal → (s.memPtr p 0).host ≠ 0) then
        some (s.linkSubimage p P t i
          { createType := .fromRoi, planes := P.planes, memOffset := memOffset, parent := some p,
            numParents := P.numParents + 1 }
          (fun k => if k < P.planes then
              ⟨(s.memPtr p k).host + (memOffset k).toUInt64, (s.memPtr p k).shared + (memOffset k).toUInt64⟩
            else ⟨0, 0⟩) memSize)
      else none))
  | .vxCreateTensorFromROI p t offset =>
    (s.images p).bind (fun P => (putFirst t P.subtensors).bind (fun l =>
      if s.tensors t = none ∧ P.planes = 1 ∧ (P.createType = .normal → (s.memPtr p 0).host ≠ 0) then
        some { (s.setImage p { P with subtensors := l }).setTensorPtr t (shift host2Shared (s.memPtr p 0) offset) with
          tensors := Function.update s.tensors t (some ⟨P.channelPlane, p, offset⟩) }
      else none))
  | .vxReleaseImage i =>
    (s.images i).bind (fun I =>
      if entries I.subimages = [] ∧ entries I.subtensors = [] then
        match I.parent with
        | none => some { s with images := Function.update s.images i none }
        | some p => (s.images p).bind (fun P => (clearFirst i P.subimages).map (fun t =>
            let s := s.setImage p { P with subimages := t }
            { s with images := Function.update s.images i none }))
      else none)
  | .vxReleaseTensor t =>
    (s.tensors t).bind (fun T => (s.images T.parent).bind (fun P => (clearFirst t P.subtensors).map (fun l =>
      { s.setImage T.parent { P with subtensors := l } with tensors := Function.update s.tensors t none })))
  | .vxSwapImageHandle i newPtrs numPlanes prevPtrs =>
    (s.images i).bind (fun I =>
      if ownSwapImageCheck I newPtrs numPlanes prevPtrs then
        if newPtrs.all (fun ptrs => (List.range I.planes).all (fun k => isAddress (ptrs k))) then
          s.vxSwapImageHandle host2Shared i newPtrs
        else none
      else some s)
  | .tivxReferenceImportHandle i addr =>
    (s.images i).map (fun I =>
      if I.parent = none ∧ (addr = 0 ∨ host2Shared addr ≠ 0) then s.tivxReferenceImportHandle host2Shared i I addr else s)
  | .swapImage input output =>
    (s.images input).bind (fun I => (s.images output).bind (fun O =>
      if s.isImageSwapable input output I O then s.swapImage host2Shared input output else some s))

/-- The pointers of the planes of sub-images and of sub-tensors are those of their parents and their offsets, or NULL with them,
and the shared pointers are those of the host pointers. -/
structure PointersOk (host2Shared : UInt64 → UInt64) (s : PtrStore) : Prop where
  subimage : ∀ c C p, s.images c = some C → C.parent = some p → ∀ k < C.planes, (s.memPtr c k).host =
    if (s.memPtr p (C.parentPlane k)).host = 0 then 0
    else (s.memPtr p (C.parentPlane k)).host + (C.memOffset k).toUInt64
  subtensor : ∀ t T, s.tensors t = some T → (s.tensorPtr t).host =
    if (s.memPtr T.parent 0).host = 0 then 0 else (s.memPtr T.parent 0).host + T.offset
  shared : ∀ i I, s.images i = some I → ∀ k < I.planes, (s.memPtr i k).shared = host2Shared (s.memPtr i k).host
  sharedTensor : ∀ t T, s.tensors t = some T → (s.tensorPtr t).shared = host2Shared (s.tensorPtr t).host

namespace PtrStore

/-- The levels of images and tensors from an image on. -/
def levels : Nat := imageMaxSubimageDepth + 2

/-- The image and what was created from it. -/
def tree (s : PtrStore) (i : Nat) : List PtrRef := order s.adjustChildren levels (.image i)

/-- The pointer is not NULL where there is an offset. -/
def offsetFits (host : UInt64) (offset : UInt64) : Bool := host != 0 || offset == 0

/-- The region of a plane is in the mapping of the plane. -/
def isMapped (host2Shared : UInt64 → UInt64) (host offset : UInt64) : Bool :=
  host2Shared (host + offset) == host2Shared host + offset

/-- No image of these becomes NULL, or was, where something was created from it at an offset; and a channel is moved as far as
its plane. -/
def adjustFits (s : PtrStore) (offset : Nat → UInt64) : PtrRef → Bool
  | .image i =>
    match s.images i with
    | none => true
    | some I =>
      (I.createType != .fromChannel || offset I.channelPlane == offset 0) &&
        I.parent.all (fun p => (List.range I.planes).all (fun k =>
          let host := (s.memPtr p (I.parentPlane k)).host
          offsetFits host (I.memOffset k).toUInt64 && offsetFits (host + offset (I.parentPlane k)) (I.memOffset k).toUInt64))
  | .tensor t =>
    match s.tensors t with
    | none => true
    | some T =>
      let host := (s.memPtr T.parent 0).host
      offsetFits host T.offset && offsetFits (host + offset 0) T.offset

/-- What was created from an image can be followed by `adjustMemoryPointer`. -/
def treeFits (s : PtrStore) (i : Nat) (offset : Nat → UInt64) : Bool :=
  decide (need s.adjustChildren levels (.image i) ≤ subimageStackSize) && (s.tree i).all (s.adjustFits offset)

/-- What was created from an image can be followed by `tivxReferenceImportHandle`: sub-images from the first place of the list on,
with nothing created from them, no sub-tensors, and no offset where the image is NULL. -/
def importFits (host2Shared : UInt64 → UInt64) (s : PtrStore) (i : Nat) (I : PtrImage) (addr : UInt64) : Bool :=
  (entries I.subtensors).isEmpty && (entries (I.subimages.dropWhile Option.isSome)).isEmpty &&
    (entries I.subimages).all (fun c => (s.images c).all (fun C =>
      (entries C.subimages).isEmpty && (entries C.subtensors).isEmpty &&
        (List.range C.planes).all (fun k =>
          let host := (s.importPtrs host2Shared i addr (C.parentPlane k)).host
          offsetFits host (C.memOffset k).toUInt64 && isMapped host2Shared host (C.memOffset k).toUInt64)))

end PtrStore

open PtrStore in
/-- The pointers can be followed.  `vxSwapImageHandle` is called for an image that is no sub-image and without sub-tensors in
what was created from it; an image is allocated before anything is created from it; and a region is created in a plane that is
there and in its mapping. -/
def keepsPointers (host2Shared : UInt64 → UInt64) (s : PtrStore) : ImagePtrAction → Bool
  | .ownAllocImageBuffer i _ => (s.images i).all (fun I => I.createType != .normal || (s.memPtr i 0).host != 0 ||
      (entries I.subimages).isEmpty && (entries I.subtensors).isEmpty)
  | .vxCreateImageFromROI p _ _ memOffset => (s.images p).all (fun P => (List.range P.planes).all (fun k =>
      offsetFits (s.memPtr p k).host (memOffset k).toUInt64 &&
        isMapped host2Shared (s.memPtr p k).host (memOffset k).toUInt64))
  | .vxCreateTensorFromROI p _ offset => offsetFits (s.memPtr p 0).host offset
  | .vxSwapImageHandle i newPtrs numPlanes prevPtrs => (s.images i).all (fun I =>
      !ownSwapImageCheck I newPtrs numPlanes prevPtrs ||
        I.parent.isNone && (s.tree i).all (fun r => match r with | .image _ => true | .tensor _ => false))
  | .tivxReferenceImportHandle i addr => (s.images i).all (fun I =>
      I.parent.isSome || (addr != 0 && host2Shared addr == 0) || s.importFits host2Shared i I addr)
  | .swapImage input output => (s.images input).all (fun I => (s.images output).all (fun O =>
      !s.isImageSwapable input output I O ||
        s.treeFits input (s.planeOffsets input output) && s.treeFits output (s.planeOffsets output input)))
  | _ => true

/-! ### Links -/

/-- How a sub-image is made of its parent. -/
def IsSubimage (C P : PtrImage) : Prop :=
  (C.createType = .fromChannel ∧ C.planes = 1 ∧ C.channelPlane < P.planes ∧ C.memOffset = fun _ => 0) ∨
    (C.createType = .fromRoi ∧ C.planes = P.planes ∧ C.channelPlane = 0)

/-- What holds of the lists and the parents in every state. -/
structure LinksOk (s : PtrStore) : Prop where
  listed : ∀ p P c, s.images p = some P → c ∈ entries P.subimages → ∃ C, s.images c = some C ∧ C.parent = some p
  parent : ∀ c C p, s.images c = some C → C.parent = some p → ∃ P, s.images p = some P ∧ c ∈ entries P.subimages ∧
    C.numParents = P.numParents + 1 ∧ IsSubimage C P
  root : ∀ i I, s.images i = some I → I.parent = none → I.createType ≠ .fromChannel ∧ I.channelPlane = 0
  nodup : ∀ i I, s.images i = some I → (entries I.subimages).Nodup ∧ (entries I.subtensors).Nodup
  slots : ∀ i I, s.images i = some I → I.subimages.length = imageMaxSubimages ∧ I.subtensors.length = imageMaxSubtensors
  depth : ∀ i I, s.images i = some I → I.numParents ≤ imageMaxSubimageDepth
  planes : ∀ i I, s.images i = some I → 0 < I.planes
  tensorListed : ∀ p P t, s.images p = some P → t ∈ entries P.subtensors → ∃ T, s.tensors t = some T ∧ T.parent = p
  tensorParent : ∀ t T, s.tensors t = some T → ∃ P, s.images T.parent = some P ∧ t ∈ entries P.subtensors ∧
    T.channelPlane = P.channelPlane ∧ P.planes = 1

namespace PtrStore

/-- The images and tensors are those of the other store. -/
def SameLinks (s s' : PtrStore) : Prop := s'.images = s.images ∧ s'.tensors = s.tensors

theorem SameLinks.refl (s : PtrStore) : SameLinks s s := ⟨rfl, rfl⟩

theorem SameLinks.trans {s t u : PtrStore} (h : SameLinks s t) (h' : SameLinks t u) : SameLinks s u :=
  ⟨h'.1.trans h.1, h'.2.trans h.2⟩

theorem SameLinks.linksOk {s s' : PtrStore} (h : SameLinks s s') (L : LinksOk s) : LinksOk s' := by
  obtain ⟨h1, h2⟩ := h
  constructor <;> simp only [h1, h2]
  · exact L.listed
  · exact L.parent
  · exact L.root
  · exact L.nodup
  · exact L.slots
  · exact L.depth
  · exact L.planes
  · exact L.tensorListed
  · exact L.tensorParent

theorem adjustChildren_of_sameLinks {s s' : PtrStore} (h : SameLinks s s') : adjustChildren s' = adjustChildren s := by
  funext r
  cases r with
  | image i => simp only [adjustChildren, h.1]
  | tensor t => rfl

/-- The rank of what is on the stack: tensors have nothing below them. -/
def refRank (s : PtrStore) : PtrRef → Nat
  | .image i => match s.images i with
    | none => 0
    | some I => imageMaxSubimageDepth + 1 - I.numParents
  | .tensor _ => 0

section Tree

variable {s : PtrStore} {i p c t : Nat} {I P C : PtrImage}

theorem mem_adjustChildren (hp : s.images p = some P) {r : PtrRef} : r ∈ s.adjustChildren (.image p) ↔
    (∃ c ∈ entries P.subimages, r = .image c) ∨ ∃ t ∈ entries P.subtensors, r = .tensor t := by
  simp only [adjustChildren, hp, List.mem_append, List.mem_map, eq_comm]

theorem exists_of_mem_adjustChildren {r q : PtrRef} (h : q ∈ s.adjustChildren r) : ∃ p P, r = .image p ∧ s.images p = some P := by
  cases r with
  | image p =>
    cases hp : s.images p with
    | none => simp [adjustChildren, hp] at h
    | some P => exact ⟨p, P, rfl, hp⟩
  | tensor t => simp [adjustChildren] at h

theorem ranked (L : LinksOk s) : Ranked s.adjustChildren s.refRank := by
  intro r q hq
  obtain ⟨p, P, rfl, hp⟩ := exists_of_mem_adjustChildren hq
  have hdp := L.depth p P hp
  rcases (mem_adjustChildren hp).1 hq with ⟨c, hc, rfl⟩ | ⟨t, -, rfl⟩
  · obtain ⟨C, hC, hpar⟩ := L.listed p P c hp hc
    obtain ⟨P', hP', -, hn, -⟩ := L.parent c C p hC hpar
    obtain rfl : P = P' := Option.some.inj (hp.symm.trans hP')
    have hdc := L.depth c C hC
    simp only [refRank, hp, hC]
    omega
  · simp only [refRank, hp]
    omega

theorem forest (L : LinksOk s) : Forest s.adjustChildren where
  nodup := by
    intro r
    cases r with
    | tensor t => exact List.nodup_nil
    | image p =>
      cases hp : s.images p with
      | none => simp [adjustChildren, hp]
      | some P =>
        obtain ⟨h1, h2⟩ := L.nodup p P hp
        simp only [adjustChildren, hp]
        refine List.Nodup.append (h1.map (fun _ _ h => by cases h; rfl)) (h2.map (fun _ _ h => by cases h; rfl)) ?_
        intro q hq hq'
        obtain ⟨c, -, rfl⟩ := List.mem_map.1 hq
        obtain ⟨t, -, h⟩ := List.mem_map.1 hq'
        cases h
  unique := by
    intro r q x hr hq
    obtain ⟨p, P, rfl, hp⟩ := exists_of_mem_adjustChildren hr
    obtain ⟨p', P', rfl, hp'⟩ := exists_of_mem_adjustChildren hq
    rcases (mem_adjustChildren hp).1 hr with ⟨c, hc, rfl⟩ | ⟨t, ht, rfl⟩
    · rcases (mem_adjustChildren hp').1 hq with ⟨c', hc', h⟩ | ⟨t', -, h⟩
      · cases h
        obtain ⟨C, hC, h1⟩ := L.listed p P c hp hc
        obtain ⟨C', hC', h2⟩ := L.listed p' P' c hp' hc'
        obtain rfl : C = C' := Option.some.inj (hC.symm.trans hC')
        rw [Option.some.inj (h1.symm.trans h2)]
      · cases h
    · rcases (mem_adjustChildren hp').1 hq with ⟨c', -, h⟩ | ⟨t', ht', h⟩
      · cases h
      · cases h
        obtain ⟨T, hT, h1⟩ := L.tensorListed p P t hp ht
        obtain ⟨T', hT', h2⟩ := L.tensorListed p' P' t hp' ht'
        obtain rfl : T = T' := Option.some.inj (hT.symm.trans hT')
        rw [← h1, ← h2]

theorem refRank_lt (s : PtrStore) (r : PtrRef) : s.refRank r < levels := by
  have h4 : levels = 4 := rfl
  cases r with
  | tensor t => exact Nat.succ_pos _
  | image i =>
    simp only [refRank, h4]
    split
    · omega
    · have : imageMaxSubimageDepth = 2 := rfl
      omega

theorem length_adjustChildren (L : LinksOk s) (r : PtrRef) : (s.adjustChildren r).length ≤ 32 := by
  cases r with
  | tensor t => exact Nat.zero_le _
  | image p =>
    cases hp : s.images p with
    | none => simp [adjustChildren, hp]
    | some P =>
      obtain ⟨h1, h2⟩ := L.slots p P hp
      have h3 := length_entries_le P.subimages
      have h4 := length_entries_le P.subtensors
      have h5 : imageMaxSubimages = 16 := rfl
      have h6 : imageMaxSubtensors = 16 := rfl
      simp only [adjustChildren, hp, List.length_append, List.length_map]
      omega

/-- A sub-image is in a tree with its parent. -/
theorem mem_tree_iff (L : LinksOk s) (hi : s.images i = some I) (hroot : I.parent = none) (hC : s.images c = some C)
    (hpar : C.parent = some p) : PtrRef.image c ∈ s.tree i ↔ PtrRef.image p ∈ s.tree i := by
  obtain ⟨P, hP, hc, -⟩ := L.parent c C p hC hpar
  constructor
  · intro h
    rcases parent_of_mem_order h with h | ⟨r, hr, hcr⟩
    · cases h
      obtain rfl : I = C := Option.some.inj (hi.symm.trans hC)
      rw [hroot] at hpar
      cases hpar
    · rwa [(forest L).unique r (.image p) (.image c) hcr ((mem_adjustChildren hP).2 (.inl ⟨c, hc, rfl⟩))] at hr
  · intro h
    exact mem_order_of_child (ranked L) (refRank_lt s _) h ((mem_adjustChildren hP).2 (.inl ⟨c, hc, rfl⟩))

theorem tensor_mem_tree_iff (L : LinksOk s) {T : PtrTensor} (hT : s.tensors t = some T) :
    PtrRef.tensor t ∈ s.tree i ↔ PtrRef.image T.parent ∈ s.tree i := by
  obtain ⟨P, hP, ht, -⟩ := L.tensorParent t T hT
  constructor
  · intro h
    rcases parent_of_mem_order h with h | ⟨r, hr, hcr⟩
    · cases h
    · rwa [(forest L).unique r (.image T.parent) (.tensor t) hcr ((mem_adjustChildren hP).2 (.inr ⟨t, ht, rfl⟩))] at hr
  · intro h
    exact mem_order_of_child (ranked L) (refRank_lt s _) h ((mem_adjustChildren hP).2 (.inr ⟨t, ht, rfl⟩))

end Tree

end PtrStore

end Tiovx
