import Mathlib.Tactic.Common
import Tiovx.ArrayObjects
import Tiovx.ImageCopy
import Tiovx.Lib.FoldExcept
import Tiovx.ObjectArrayList
import Tiovx.SupplementaryData
/-!
# ElementKernels — the copy, swap and move kernels of the elements of containers (`vx_reference.c` and the files of the types)

A kernel of a type checks a pair of objects where it only validates, and else copies the first into the second or exchanges
them.  An image has kernels of its own, a type with one buffer those of `vx_reference.c`, and some types have none.
-/
namespace Tiovx

open FoldExcept (bind_eq_ok check_eq_ok)

/-- An image with what a map and a copy of a patch read of it besides. -/
structure ElementImage extends KernelImage where
  isAccessible : Bool := false
  hasFreeMap : Bool := true

/-- What `ownIsMetaFormatTensorEqual` compares; a dimension is with its stride. -/
structure TensorFormat where
  dataType : Int
  fixedPointPosition : Int
  scalingDivisor : Nat
  scalingDivisorFixedPointPosition : Int
  dims : List (UInt32 × Int32)
deriving DecidableEq

structure ElementTensor where
  format : TensorFormat
  memSize : UInt32
  hostPtr : Nat
  hasParent : Bool := false

/-- What the metadata of an object with one buffer are compared by; the size of a user data object is that of its buffer. -/
inductive BufferFormat
  | distribution (bins : UInt32) (offset : Int32) (range : UInt32)
  | lut (type : Int) (count : UInt32)
  | matrix (type : Int) (rows columns size : UInt32) (pattern : Int) (originX originY : UInt32)
  | remap (srcWidth srcHeight dstWidth dstHeight : UInt32)
  | userDataObject (typeName : List UInt8)
deriving DecidableEq

structure ElementBuffer where
  format : BufferFormat
  memSize : UInt32
  hostPtr : Nat
  validMemSize : UInt32 := 0
deriving DecidableEq

/-- `tivx_obj_desc_t` of an object that is not a container. -/
inductive ElementDesc
  | image (I : ElementImage)
  | array (A : VxArray)
  | tensor (T : ElementTensor)
  | scalar (type : Int) (data : UInt64)
  | buffer (B : ElementBuffer)
  | threshold (type : Int)
  | rawImage (width height numExposures : UInt32) (lineInterleaved : Bool) (formats : List (Int × UInt32))
      (metaHeightBefore metaHeightAfter : UInt32)

/-- A status, the pair of objects it leaves, and what has been moved into the memory of the output. -/
structure Outcome (β : Type) where
  status : Int
  input : β
  output : β
  moves : List PatchMove := []

def KernelError.status : KernelError → Int
  | .notCompatible => vxErrorNotCompatible
  | .invalidParameters => vxErrorInvalidParameters
  | .notSupported => vxErrorNotSupported

/-- `VX_ERROR_OPTIMIZED_AWAY`. -/
def vxErrorOptimizedAway : Int := -5

def PatchError.status : PatchError → Int
  | .invalidParameters => vxErrorInvalidParameters
  | .notSupported => vxErrorNotSupported
  | .optimizedAway => vxErrorOptimizedAway
  | .noMemory => vxErrorNoMemory
  | .noResources => vxErrorNoResources
  | .failure => vxFailure

def kernelStatus : Except KernelError Unit → Int
  | .ok () => vxSuccess
  | .error e => e.status

/-- `tivxMemBufferMap` refuses a null pointer and no bytes. -/
def isMappable (mem : Nat × UInt32) : Bool := mem.1 != 0 && mem.2 != 0

namespace ElementImage

/-- What `vxMapImagePatch` and `vxCopyImagePatch` read. -/
def patchImage (I : ElementImage) : PatchImage where
  desc :=
    { width := I.width, height := I.height, format := I.format, channelPlane := I.channelPlane
      plane := fun i => ⟨(I.plane i).addr, (I.plane i).memSize, (I.plane i).ptr.host.toNat, 0⟩ }
  createType := I.createType
  isVirtual := I.isVirtual
  isAccessible := I.isAccessible
  hasFreeMap := I.hasFreeMap

/-- The plane `i` in `copyImage`: the status and what is moved. -/
def copyPlane (I O : ElementImage) (i : Nat) : Int × List PatchMove :=
  let ip := I.plane i
  let op := O.plane i
  if ip.memSize = op.memSize then
    if isMappable (ip.ptr.host.toNat, ip.memSize) && isMappable (op.ptr.host.toNat, ip.memSize) then
      (vxSuccess, [.bytes op.ptr.host.toNat ip.ptr.host.toNat ip.memSize.toNat])
    else (vxFailure, [])
  -- memory of no size, or none, is refused when it is mapped or unmapped
  else if ip.memSize = 0 ∨ op.memSize = 0 ∨ op.ptr.host = 0 then (vxFailure, [])
  else
    match I.patchImage.planeMoves O.patchImage i with
    | .ok (some moves) => (vxSuccess, moves)
    | .ok none => (vxFailure, [])
    | .error e => (e.status, [])

/-- The loop over the planes, which ends with the first error. -/
def copyPlanes (I O : ElementImage) : List Nat → Int × List PatchMove
  | [] => (vxSuccess, [])
  | i :: is =>
    let (status, moves) := I.copyPlane O i
    if status = vxSuccess then ((I.copyPlanes O is).1, moves ++ (I.copyPlanes O is).2) else (status, moves)

/-- What `copyImage` makes of the output before it copies the planes. -/
def describedBy (O I : ElementImage) : ElementImage := { O with width := I.width, height := I.height, format := I.format }

/-- `copyImage`. -/
def copyImage (I O : ElementImage) : Outcome ElementImage :=
  let (status, moves) := I.copyPlanes (O.describedBy I) (List.range I.planes)
  ⟨status, I, O.describedBy I, moves⟩

section Translated

/- `tivxMemHost2SharedPtr` of the shared region -/
variable (host2Shared : UInt64 → UInt64)

/-- `swapImage`, whose status is that of `adjustMemoryPointer`. -/
def swapImage (I O : ElementImage) : Outcome ElementImage :=
  let (ip, op) := I.toKernelImage.swapImage host2Shared O.toKernelImage
  ⟨if I.hasRoom && O.hasRoom then vxSuccess else vxErrorNoResources,
    { I with toKernelImage := ip }, { O with toKernelImage := op }, []⟩

/-- `imageKernelCallback` of two images without `validate_only`. -/
def process (k : CopyMoveKernel) (I O : ElementImage) : Outcome ElementImage :=
  if k = .copy then I.copyImage O else I.swapImage host2Shared O

/-- `imageKernelCallback` of two images with `validate_only`. -/
def validate (k : CopyMoveKernel) (I O : ElementImage) : Int :=
  kernelStatus (if k = .copy then I.isImageCopyable O.toKernelImage else I.isImageSwapable O.toKernelImage)

end Translated

end ElementImage

namespace ElementDesc

/-- `ownIsMetaFormatEqual` of two objects of one type. -/
def isMetaFormatEqual : ElementDesc → ElementDesc → Bool
  | .image I, .image O => I.width = O.width && I.height = O.height && I.format = O.format
  | .array A, .array B => ArrayContext.isMetaFormatArrayEqual A B
  | .tensor T, .tensor U => T.format = U.format
  | .scalar type _, .scalar type' _ => type = type'
  | .buffer B, .buffer C =>
    B.format = C.format && match B.format with
      | .userDataObject _ => B.memSize = C.memSize
      | _ => true
  | .threshold type, .threshold type' => type = type'
  | .rawImage w h n l f b a, .rawImage w' h' n' l' f' b' a' =>
    w = w' && h = h' && n = n' && l = l' && f = f' && b = b' && a = a'
  | _, _ => false

/-- The types that have a `kernel_callback`. -/
def hasKernelCallback : ElementDesc → Bool
  | .buffer ⟨.remap .., _, _, _⟩ | .threshold .. | .rawImage .. => false
  | _ => true

/-- `ownReferenceGetMemAttrsFromObjDesc`. -/
def memAttrs : ElementDesc → Option (Nat × UInt32)
  | .array A => some (A.hostPtr, A.memSize)
  | .tensor T => some (T.hostPtr, T.memSize)
  | .buffer B => some (B.hostPtr, B.memSize)
  | _ => none

def setHostPtr (host : Nat) : ElementDesc → ElementDesc
  | .array A => .array { A with hostPtr := host }
  | .tensor T => .tensor { T with hostPtr := host }
  | .buffer B => .buffer { B with hostPtr := host }
  | d => d

/-- The output with the specific fields that are copied from the input; the count of an array goes into an array only. -/
def copyFields : ElementDesc → ElementDesc → ElementDesc
  | .array A, .array B => .array { B with numItems := A.numItems }
  | .buffer B, .buffer C =>
    match B.format with
    | .userDataObject _ => .buffer { C with validMemSize := B.validMemSize }
    | _ => .buffer C
  | _, b => b

/-- The first with the count of the second, where both are arrays. -/
def withCount : ElementDesc → ElementDesc → ElementDesc
  | .array A, .array B => .array { A with numItems := B.numItems }
  | a, _ => a

end ElementDesc

/-- `ownCopyReferenceGeneric` between the memory of two objects; `copied` is the output when it has been copied to. -/
def ownCopyReferenceGeneric {β : Type} (ip op : Nat × UInt32) (input output copied : β) : Outcome β :=
  if ip.2 ≤ op.2 then
    if isMappable ip && isMappable op then ⟨vxSuccess, input, copied, [.bytes op.1 ip.1 ip.2.toNat]⟩
    else ⟨vxFailure, input, output, []⟩
  else ⟨vxErrorNotCompatible, input, output, []⟩

namespace ElementDesc

def copyGeneric (a b : ElementDesc) : Outcome ElementDesc :=
  ownCopyReferenceGeneric (a.memAttrs.getD (0, 0)) (b.memAttrs.getD (0, 0)) a b (a.copyFields b)

/-- `ownSwapReferenceGeneric`; without memory of the output a null pointer is followed. -/
def ownSwapReferenceGeneric (a b : ElementDesc) : Outcome ElementDesc :=
  match a.memAttrs, b.memAttrs with
  | some ip, some op => ⟨vxSuccess, (a.setHostPtr op.1).withCount b, (b.setHostPtr ip.1).withCount a, []⟩
  | _, _ => ⟨vxFailure, a, b, []⟩

section Translated

variable (host2Shared : UInt64 → UInt64)

/-- The `kernel_callback` of a pair without `validate_only`. -/
def process (k : CopyMoveKernel) : ElementDesc → ElementDesc → Outcome ElementDesc
  | .image I, .image O =>
    let r := I.process host2Shared k O
    ⟨r.status, .image r.input, .image r.output, r.moves⟩
  | .image I, b => ⟨vxErrorNotCompatible, .image I, b, []⟩
  -- `moveOrSwapTensor` exchanges the descriptors, and the parents stay where they are
  | .tensor T, .tensor U =>
    if k = .copy then copyGeneric (.tensor T) (.tensor U)
    else ⟨vxSuccess, .tensor { U with hasParent := T.hasParent }, .tensor { T with hasParent := U.hasParent }, []⟩
  | .tensor T, b => if k = .copy then copyGeneric (.tensor T) b else ⟨vxSuccess, b, .tensor T, []⟩
  | .scalar type data, .scalar type' data' =>
    if k = .copy then ⟨vxSuccess, .scalar type data, .scalar type' data, []⟩
    else ⟨vxSuccess, .scalar type data', .scalar type' data, []⟩
  -- the value of a scalar would be written over another descriptor
  | .scalar type data, b => ⟨vxFailure, .scalar type data, b, []⟩
  | a, b => if k = .copy then copyGeneric a b else ownSwapReferenceGeneric a b

end Translated

end ElementDesc

/-- An object that is not a container, with its reference and its supplementary data. -/
structure Element where
  ref : Nat
  desc : ElementDesc
  supplementary : Option ElementBuffer := none

namespace Element

/-- The `kernel_callback` of a pair with `validate_only`: the status, and the output it leaves. -/
def validate (k : CopyMoveKernel) (x y : Element) : Int × Element :=
  let accepted := if x.desc.isMetaFormatEqual y.desc then vxSuccess else vxErrorNotCompatible
  match x.desc, y.desc with
  | .image I, .image O => (I.validate k O, y)
  | .image _, _ => (vxErrorNotCompatible, y)
  | .array A, .array B =>
    if k = .copy then
      match ArrayContext.isArrayCopyable x.ref y.ref A B with
      | some B' => (vxSuccess, { y with desc := .array B' })
      | none => (vxErrorNotCompatible, y)
    else (accepted, y)
  -- `isTensorSwappable`
  | .tensor T, .tensor U =>
    if k = .copy then (accepted, y)
    else if T.hasParent || U.hasParent then (vxErrorNotCompatible, y)
    else if T.format = U.format ∧ T.memSize = U.memSize then (vxSuccess, y)
    else (vxErrorNotSupported, y)
  | _, _ => if x.desc.hasKernelCallback then (accepted, y) else (vxErrorNotSupported, y)

end Element

/-- The supplementary data of an element after the element: where both have some and the pair is accepted, it is processed. -/
def processSupplementary (k : CopyMoveKernel) : Option ElementBuffer → Option ElementBuffer → Outcome (Option ElementBuffer)
  | some S, some T =>
    if (ElementDesc.buffer S).isMetaFormatEqual (.buffer T) then
      if k = .copy then
        ownCopyReferenceGeneric (S.hostPtr, S.memSize) (T.hostPtr, T.memSize) (some S) (some T)
          (some { T with validMemSize := S.validMemSize })
      else ⟨vxSuccess, some { S with hostPtr := T.hostPtr }, some { T with hostPtr := S.hostPtr }, []⟩
    else ⟨vxSuccess, some S, some T, []⟩
  | s, t => ⟨vxSuccess, s, t, []⟩

/-! ### When the kernels succeed -/

namespace ElementImage

/-- The plane can be copied: as a block between two mappable planes of one size, and else as a patch. -/
def PlaneFits (I O : ElementImage) (i : Nat) : Prop :=
  if (I.plane i).memSize = (O.plane i).memSize then
    (I.plane i).ptr.host ≠ 0 ∧ (O.plane i).ptr.host ≠ 0 ∧ (I.plane i).memSize ≠ 0
  else ((I.plane i).memSize ≠ 0 ∧ (O.plane i).memSize ≠ 0 ∧ (O.plane i).ptr.host ≠ 0) ∧
    ∃ moves, I.patchImage.planeMoves O.patchImage i = .ok (some moves)

/-- Each plane can be copied, or the stacks of both images have room. -/
def ProcessFits (k : CopyMoveKernel) (I O : ElementImage) : Prop :=
  if k = .copy then ∀ i < I.planes, I.PlaneFits (O.describedBy I) i else I.hasRoom = true ∧ O.hasRoom = true

/-- The sizes and the formats are the same, or those of the output are not set yet. -/
structure SizesFit (I O : ElementImage) : Prop where
  width : I.width = O.width ∨ (O.width = 0 ∧ O.isVirtual = true)
  height : I.height = O.height ∨ (O.height = 0 ∧ O.isVirtual = true)
  format : I.format = O.format ∨ (O.format = .virt ∧ O.isVirtual = true)

/-- The output is not uniform.  Images that are exchanged are neither uniform nor made from another image, and where images are
made from one of them their planes have the same sizes. -/
structure KernelFits (k : CopyMoveKernel) (I O : ElementImage) : Prop where
  output : O.createType ≠ .uniform
  input : k ≠ .copy → I.createType ≠ .uniform
  parents : k ≠ .copy → I.hasParent = false ∧ O.hasParent = false
  subimages : k ≠ .copy → (I.hasSubimages = true ∨ O.hasSubimages = true) →
    ∀ i < I.planes, (I.plane i).memSize = (O.plane i).memSize

theorem kernelStatus_eq_success {r : Except KernelError Unit} : kernelStatus r = vxSuccess ↔ r = .ok () := by
  cases r with
  | ok u => exact ⟨fun _ => rfl, fun _ => rfl⟩
  | error e => cases e <;> simp [kernelStatus, KernelError.status, vxSuccess, vxErrorNotCompatible, vxErrorInvalidParameters,
      vxErrorNotSupported]

theorem isImageCopyable_ok {I O : ElementImage} :
    I.isImageCopyable O.toKernelImage = .ok () ↔ I.SizesFit O ∧ O.createType ≠ .uniform := by
  unfold KernelImage.isImageCopyable
  simp only [check_eq_ok, and_true]
  constructor
  · rintro ⟨hu, hw, hh, hf⟩
    exact ⟨⟨by grind, by grind, by grind⟩, hu⟩
  · rintro ⟨⟨hw, hh, hf⟩, hu⟩
    exact ⟨hu, by grind, by grind, by grind⟩

theorem validate_eq_success {k : CopyMoveKernel} {I O : ElementImage} :
    I.validate k O = vxSuccess ↔ I.SizesFit O ∧ I.KernelFits k O := by
  unfold validate
  rw [kernelStatus_eq_success]
  by_cases hk : k = .copy
  · rw [if_pos hk, isImageCopyable_ok]
    exact and_congr_right fun _ =>
      ⟨fun h => ⟨h, fun h' => absurd hk h', fun h' => absurd hk h', fun h' => absurd hk h'⟩, (·.output)⟩
  · rw [if_neg hk]
    unfold KernelImage.isImageSwapable
    simp only [bind_eq_ok, check_eq_ok, and_true]
    constructor
    · rintro ⟨⟨⟩, hc, hi, hp, hb⟩
      obtain ⟨hs, hu⟩ := isImageCopyable_ok.1 hc
      exact ⟨hs, hu, fun _ => hi, fun _ => by grind, fun _ hsub i hlt => by grind⟩
    · rintro ⟨hs, hu, hi, hp, hb⟩
      have hp := hp hk
      refine ⟨(), isImageCopyable_ok.2 ⟨hs, hu⟩, hi hk, by simp [hp.1, hp.2], ?_⟩
      rintro ⟨hsub, i, hlt, hne⟩
      exact hne (hb hk hsub i hlt)

theorem host_ne_zero {a : UInt64} : a.toNat ≠ 0 ↔ a ≠ 0 :=
  ⟨fun h h' => h (congrArg UInt64.toNat h'), fun h h' => h (UInt64.toNat_inj.1 h')⟩

theorem copyPlane_success {I O : ElementImage} {i : Nat} : (I.copyPlane O i).1 = vxSuccess ↔ I.PlaneFits O i := by
  unfold copyPlane PlaneFits isMappable
  by_cases hs : (I.plane i).memSize = (O.plane i).memSize
  · simp only [if_pos hs, bne_iff_ne, Bool.and_eq_true, host_ne_zero]
    by_cases hm : ((I.plane i).ptr.host ≠ 0 ∧ (I.plane i).memSize ≠ 0) ∧
        (O.plane i).ptr.host ≠ 0 ∧ (I.plane i).memSize ≠ 0
    · rw [if_pos hm]
      exact ⟨fun _ => ⟨hm.1.1, hm.2.1, hm.1.2⟩, fun _ => rfl⟩
    · rw [if_neg hm]
      exact ⟨fun h => absurd h (by decide), fun ⟨hi, ho, hz⟩ => absurd ⟨⟨hi, hz⟩, ho, hz⟩ hm⟩
  · simp only [if_neg hs]
    by_cases hz : (I.plane i).memSize = 0 ∨ (O.plane i).memSize = 0 ∨ (O.plane i).ptr.host = 0
    · rw [if_pos hz]
      refine ⟨fun h => absurd h (by decide), fun ⟨⟨hi, ho, hh⟩, _⟩ => ?_⟩
      exact absurd hz (by simp only [hi, ho, hh, or_self, not_false_eq_true])
    · rw [if_neg hz]
      simp only [not_or] at hz
      cases hm : I.patchImage.planeMoves O.patchImage i with
      | error e =>
        refine ⟨fun h => ?_, fun ⟨_, _, h⟩ => by cases h⟩
        cases e <;> cases h
      | ok moves =>
        cases moves with
        | none => exact ⟨fun h => absurd h (by decide), fun ⟨_, _, h⟩ => by cases h⟩
        | some moves => exact ⟨fun _ => ⟨hz, moves, rfl⟩, fun _ => rfl⟩

theorem copyPlanes_success {I O : ElementImage} : ∀ l : List Nat,
    (I.copyPlanes O l).1 = vxSuccess ↔ ∀ i ∈ l, I.PlaneFits O i
  | [] => by simp [copyPlanes]
  | i :: l => by
    rw [List.forall_mem_cons, ← copyPlane_success, ← copyPlanes_success l, copyPlanes]
    by_cases hi : (I.copyPlane O i).1 = vxSuccess
    · simp only [hi, if_true, true_and]
    · simp only [hi, if_false, false_and]

theorem process_success {host2Shared : UInt64 → UInt64} {k : CopyMoveKernel} {I O : ElementImage} :
    (I.process host2Shared k O).status = vxSuccess ↔ I.ProcessFits k O := by
  unfold process ProcessFits
  by_cases hk : k = .copy
  · rw [if_pos hk, if_pos hk]
    show (I.copyPlanes (O.describedBy I) (List.range I.planes)).1 = vxSuccess ↔ _
    rw [copyPlanes_success]
    simp only [List.mem_range]
  · rw [if_neg hk, if_neg hk]
    show (if I.hasRoom && O.hasRoom then vxSuccess else vxErrorNoResources) = vxSuccess ↔ _
    rw [← Bool.and_eq_true]
    split
    · simp_all
    · simp_all [vxErrorNoResources, vxSuccess]

end ElementImage

theorem isMappable_iff {mem : Nat × UInt32} : isMappable mem = true ↔ mem.1 ≠ 0 ∧ mem.2 ≠ 0 := by
  simp only [isMappable, bne_iff_ne, Bool.and_eq_true]

/-- What is in one buffer can be copied into the other. -/
def BuffersFit (ip op : Nat × UInt32) : Prop := ip.2 ≤ op.2 ∧ (ip.1 ≠ 0 ∧ ip.2 ≠ 0) ∧ op.1 ≠ 0 ∧ op.2 ≠ 0

theorem copyGeneric_success {β : Type} {ip op : Nat × UInt32} {input output copied : β} :
    (ownCopyReferenceGeneric ip op input output copied).status = vxSuccess ↔ BuffersFit ip op := by
  unfold ownCopyReferenceGeneric BuffersFit
  rw [← isMappable_iff, ← isMappable_iff, ← Bool.and_eq_true]
  split
  · rename_i hle
    split
    · rename_i hm
      exact ⟨fun _ => ⟨hle, hm⟩, fun _ => rfl⟩
    · rename_i hm
      exact ⟨fun h => absurd h vxFailure_ne, fun h => absurd h.2 hm⟩
  · rename_i hle
    exact ⟨fun h => absurd h vxErrorNotCompatible_ne, fun h => absurd h.1 hle⟩

namespace ElementDesc

/-- The pair can be processed: images as images, tensors and scalars are exchanged as they are, and else there is a buffer on both
sides. -/
def ProcessFits (k : CopyMoveKernel) : ElementDesc → ElementDesc → Prop
  | .image I, .image O => I.ProcessFits k O
  | .image _, _ => False
  | .tensor T, b => k = .copy → BuffersFit (T.hostPtr, T.memSize) (b.memAttrs.getD (0, 0))
  | .scalar .., .scalar .. => True
  | .scalar .., _ => False
  | a, b => if k = .copy then BuffersFit (a.memAttrs.getD (0, 0)) (b.memAttrs.getD (0, 0))
    else a.memAttrs.isSome = true ∧ b.memAttrs.isSome = true

theorem swapGeneric_success {a b : ElementDesc} :
    (a.ownSwapReferenceGeneric b).status = vxSuccess ↔ a.memAttrs.isSome = true ∧ b.memAttrs.isSome = true := by
  unfold ownSwapReferenceGeneric
  cases a.memAttrs with
  | none => exact ⟨fun h => absurd h vxFailure_ne, fun h => absurd h.1 (by decide)⟩
  | some ip =>
    cases b.memAttrs with
    | none => exact ⟨fun h => absurd h vxFailure_ne, fun h => absurd h.2 (by decide)⟩
    | some op => exact ⟨fun _ => ⟨rfl, rfl⟩, fun _ => rfl⟩

theorem generic_success {k : CopyMoveKernel} {a b : ElementDesc} :
    (if k = .copy then copyGeneric a b else ownSwapReferenceGeneric a b).status = vxSuccess ↔
      if k = .copy then BuffersFit (a.memAttrs.getD (0, 0)) (b.memAttrs.getD (0, 0))
      else a.memAttrs.isSome = true ∧ b.memAttrs.isSome = true := by
  split
  · exact copyGeneric_success
  · exact swapGeneric_success

theorem process_success {host2Shared : UInt64 → UInt64} {k : CopyMoveKernel} {a b : ElementDesc} :
    (a.process host2Shared k b).status = vxSuccess ↔ a.ProcessFits k b := by
  cases a with
  | image I =>
    cases b with
    | image O => exact ElementImage.process_success
    | _ => exact ⟨fun h => absurd h vxErrorNotCompatible_ne, fun h => h.elim⟩
  | tensor T =>
    have hcopy : k = .copy → ((copyGeneric (.tensor T) b).status = vxSuccess ↔
        (k = .copy → BuffersFit (T.hostPtr, T.memSize) (b.memAttrs.getD (0, 0)))) :=
      fun hk => copyGeneric_success.trans ⟨fun h _ => h, fun h => h hk⟩
    unfold process ProcessFits
    by_cases hk : k = .copy
    · cases b <;> simp only [if_pos hk] <;> exact hcopy hk
    · cases b <;> simp only [if_neg hk] <;> exact ⟨fun _ h => absurd h hk, fun _ => trivial⟩
  | scalar type data =>
    cases b with
    | scalar type' data' =>
      refine ⟨fun _ => trivial, fun _ => ?_⟩
      show (if k = .copy then _ else _ : Outcome ElementDesc).status = _
      split
      · rfl
      · rfl
    | _ => exact ⟨fun h => absurd h vxFailure_ne, fun h => h.elim⟩
  | array A => exact generic_success
  | buffer B => exact generic_success
  | threshold type => exact generic_success
  | rawImage => exact generic_success

end ElementDesc

namespace Element

/-- What the kernel of the type asks of a pair with the same metadata. -/
def KernelFits (k : CopyMoveKernel) (x y : Element) : Prop :=
  match x.desc, y.desc with
  | .image I, .image O => I.KernelFits k O
  | .array _, .array _ => k = .copy → x.ref ≠ y.ref
  | .tensor T, .tensor U => k ≠ .copy → (T.hasParent = false ∧ U.hasParent = false) ∧ T.memSize = U.memSize
  | d, _ => d.hasKernelCallback = true

theorem isArrayCopyable_isSome {i o : Nat} {A B : VxArray} (h : ArrayContext.isMetaFormatArrayEqual A B = true) :
    (ArrayContext.isArrayCopyable i o A B).isSome = true ↔ i ≠ o := by
  simp only [ArrayContext.isMetaFormatArrayEqual, Bool.and_eq_true, decide_eq_true_eq] at h
  obtain ⟨⟨hty, hcap⟩, -⟩ := h
  unfold ArrayContext.isArrayCopyable
  by_cases hio : i = o
  · simp [hio]
  · rw [if_neg hio]
    refine ⟨fun _ => hio, fun _ => ?_⟩
    split
    · simp [hty, hcap]
    · simp [hty, hcap]

/-- The kernels that compare the metadata only, where there is one. -/
theorem plain_success {y : Element} {d : Bool} :
    (if d then (vxSuccess, y) else (vxErrorNotSupported, y)).1 = vxSuccess ↔ d = true := by
  cases d with
  | true => exact ⟨fun _ => rfl, fun _ => rfl⟩
  | false => exact ⟨fun h => absurd h vxErrorNotSupported_ne, fun h => absurd h Bool.false_ne_true⟩

theorem validate_success {k : CopyMoveKernel} {x y : Element} (h : x.desc.isMetaFormatEqual y.desc = true) :
    (x.validate k y).1 = vxSuccess ↔ x.KernelFits k y := by
  obtain ⟨r, a, s⟩ := x
  obtain ⟨r', b, t⟩ := y
  unfold validate KernelFits
  simp only [if_pos h]
  cases a with
  | image I =>
    cases b with
    | image O =>
      refine ElementImage.validate_eq_success.trans (and_iff_right ?_)
      simp only [ElementDesc.isMetaFormatEqual, Bool.and_eq_true, decide_eq_true_eq] at h
      exact ⟨.inl h.1.1, .inl h.1.2, .inl h.2⟩
    | _ => exact absurd h Bool.false_ne_true
  | array A =>
    cases b with
    | array B =>
      have hsome := isArrayCopyable_isSome (i := r) (o := r') h
      by_cases hk : k = .copy
      · simp only [hk, if_true, forall_const, ← hsome]
        cases ArrayContext.isArrayCopyable r r' A B with
        | none => exact ⟨fun h => absurd h vxErrorNotCompatible_ne, fun h => absurd h Bool.false_ne_true⟩
        | some B' => exact ⟨fun _ => rfl, fun _ => rfl⟩
      · simp only [hk, if_false]
        exact ⟨fun _ h => h.elim, fun _ => trivial⟩
    | _ => exact absurd h Bool.false_ne_true
  | tensor T =>
    cases b with
    | tensor U =>
      have hf : T.format = U.format := of_decide_eq_true h
      by_cases hk : k = .copy
      · simp only [hk, if_true, ne_eq, not_true_eq_false, false_implies]
      · simp only [hk, if_false, ne_eq, not_false_eq_true, forall_const, hf, true_and]
        cases T.hasParent with
        | true => exact ⟨fun h => absurd h vxErrorNotCompatible_ne, fun h => absurd h.1.1 Bool.false_ne_true.symm⟩
        | false =>
          cases U.hasParent with
          | true => exact ⟨fun h => absurd h vxErrorNotCompatible_ne, fun h => absurd h.1.2 Bool.false_ne_true.symm⟩
          | false =>
            by_cases hm : T.memSize = U.memSize
            · simp [hm]
            · simp [hm, vxErrorNotSupported_ne]
    | _ => exact absurd h Bool.false_ne_true
  | scalar type data =>
    cases b with
    | scalar type' data' => exact plain_success
    | _ => exact absurd h Bool.false_ne_true
  | buffer B => exact plain_success
  | threshold type => exact plain_success
  | rawImage => exact plain_success

end Element

/-- Supplementary data of the same type and size on both sides have memory, where it is copied. -/
def SupplementaryFits (k : CopyMoveKernel) (s t : Option ElementBuffer) : Prop :=
  k = .copy → ∀ S T, s = some S → t = some T → (ElementDesc.buffer S).isMetaFormatEqual (.buffer T) = true →
    BuffersFit (S.hostPtr, S.memSize) (T.hostPtr, T.memSize)

theorem processSupplementary_success {k : CopyMoveKernel} {s t : Option ElementBuffer} :
    (processSupplementary k s t).status = vxSuccess ↔ SupplementaryFits k s t := by
  cases s with
  | none => exact ⟨fun _ _ S T h => (nomatch h), fun _ => rfl⟩
  | some S =>
    cases t with
    | none => exact ⟨fun _ _ S T _ h => (nomatch h), fun _ => rfl⟩
    | some T =>
      unfold processSupplementary SupplementaryFits
      by_cases hm : (ElementDesc.buffer S).isMetaFormatEqual (.buffer T) = true
      · simp only [if_pos hm]
        by_cases hk : k = .copy
        · simp only [if_pos hk]
          rw [copyGeneric_success]
          refine ⟨fun h _ S' T' hs ht _ => ?_, fun h => h hk S T rfl rfl hm⟩
          cases hs
          cases ht
          exact h
        · simp only [if_neg hk]
          exact ⟨fun _ h => absurd h hk, fun _ => trivial⟩
      · simp only [if_neg hm]
        refine ⟨fun _ _ S' T' hs ht h => ?_, fun _ => trivial⟩
        cases hs
        cases ht
        exact absurd h hm

end Tiovx
