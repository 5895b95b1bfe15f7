import Tiovx.Lib.StridedLayout
import Tiovx.RegionAddresses
/-!
# TensorObjects — the tensors that are created (`vx_tensor.c`, `vx_image.c`)

A tensor has the strides of its dimensions, computed in 32 bits; one of a region of an image has the rows of the image.
-/
namespace Tiovx

/-- The types `ownIsValidTensorFormat` accepts. -/
inductive TensorDataType
  | float32 | int64 | uint64 | int32 | uint32 | int16 | uint16 | int8 | uint8
deriving DecidableEq

/-- `ownSizeOfEnumType` of `vx_reference.c`. -/
def TensorDataType.ownSizeOfEnumType : TensorDataType → Nat
  | .int64 | .uint64 => 8
  | .float32 | .int32 | .uint32 => 4
  | .int16 | .uint16 => 2
  | .int8 | .uint8 => 1

/-- `vx_type_e` of what `ownGetTensorTypeFromImage` gives. -/
def TensorType.dataType : TensorType → TensorDataType
  | .uint8 => .uint8
  | .uint16 => .uint16
  | .int16 => .int16
  | .uint32 => .uint32
  | .int32 => .int32

/-- `tivx_obj_desc_tensor_t`; `dimensions` and `stride` have `number_of_dimensions` entries. -/
structure TensorDesc where
  dataType : TensorDataType
  fixedPointPosition : Int8
  scalingDivisor : UInt8
  scalingDivisorFixedPointPosition : UInt8
  dimensions : List UInt32
  stride : List Int32
  memSize : UInt32
  hostPtr : Int := 0
deriving DecidableEq

/-- `TIVX_CONTEXT_MAX_TENSOR_DIMS`. -/
def contextMaxTensorDims : Nat := 4

/-- The strides from one on: each is the one before times the dimension before. -/
def tensorStrides : Int32 → List UInt32 → List Int32
  | _, [] => []
  | s, d :: ds => s :: tensorStrides (s * d.toInt32) ds

/-- `ownInitTensorObject`. -/
def ownInitTensorObject (dimensions : List UInt64) (dataType : TensorDataType) (fixedPointPosition : Int8) : TensorDesc :=
  let dims := dimensions.map UInt64.toUInt32
  let stride := tensorStrides (Int32.ofNat dataType.ownSizeOfEnumType) dims
  { dataType := dataType
    fixedPointPosition := fixedPointPosition
    scalingDivisor := 1
    scalingDivisorFixedPointPosition := 0
    dimensions := dims
    stride := stride
    memSize := (stride.getLastD 0).toUInt32 * dims.getLastD 0 }

/-- `vxCreateTensor`. -/
def vxCreateTensor (dims : List UInt64) (dataType : TensorDataType) (fixedPointPosition : Int8) : Option TensorDesc :=
  if dims.length < 1 ∨ contextMaxTensorDims < dims.length then none
  else some (ownInitTensorObject dims dataType fixedPointPosition)

/-- `vxCreateTensorFromROI` of an image that is allocated and has room for another tensor. -/
def ImageDesc.vxCreateTensorFromROI (I : ImageDesc) (rect : Option VxRectangle) (fixedPointPosition : Int8) : Option TensorDesc :=
  if I.width = 0 ∨ I.height = 0 then none
  else (ownGetTensorTypeFromImage I.format).bind (fun tensorType =>
    let roi := rect.getD ⟨0, 0, I.width, I.height⟩
    if roi.endX < roi.startX ∨ roi.endY < roi.startY ∨ I.width < roi.endX ∨ I.height < roi.endY then none
    else
      (vxCreateTensor [roi.endX.toUInt64 - roi.startX.toUInt64, roi.endY.toUInt64 - roi.startY.toUInt64] tensorType.dataType
        fixedPointPosition).map (fun t =>
          let stride0 := t.stride.headD 0
          let stride1 := (I.plane 0).addr.strideY
          { t with
            stride := [stride0, stride1]
            hostPtr := (I.plane 0).hostPtr + (roi.startX.toNat * stride0.toInt + roi.startY.toNat * stride1.toInt) }))

/-- The descriptors of tensors: made by one of the two functions; a normal one is given memory, and `vxSetTensorAttribute` changes
three of the fields. -/
inductive TensorDesc.Created : TensorDesc → Prop
  | vxCreateTensor {dims : List UInt64} {dataType : TensorDataType} {fixedPointPosition : Int8} {t : TensorDesc} :
      Tiovx.vxCreateTensor dims dataType fixedPointPosition = some t → Created t
  | vxCreateTensorFromROI {I : ImageDesc} {rect : Option VxRectangle} {fixedPointPosition : Int8} {t : TensorDesc} :
      I.vxCreateTensorFromROI rect fixedPointPosition = some t → Created t
  | memory {t : TensorDesc} (hostPtr : Int) : Created t → Created { t with hostPtr := hostPtr }
  | vxSetTensorAttribute {t : TensorDesc} (fixedPointPosition : Int8) (divisor position : UInt8) : Created t →
      Created { t with
        fixedPointPosition := fixedPointPosition
        scalingDivisor := divisor
        scalingDivisorFixedPointPosition := position }

namespace TensorDesc

/-- The bytes of an element. -/
def elementSize (t : TensorDesc) : Nat := t.dataType.ownSizeOfEnumType

/-- The dimensions with their strides. -/
def axes (t : TensorDesc) : List Axis := List.zipWith (fun d s => ⟨d.toNat, s.toInt⟩) t.dimensions t.stride

/-- The first byte of the element at `v`. -/
def place (t : TensorDesc) (v : List Nat) : Int := t.hostPtr + Axis.place t.axes v

/-- A byte of an element. -/
def IsByte (t : TensorDesc) (a : Int) : Prop := ∃ v, Axis.IsIndex v t.axes ∧ t.place v ≤ a ∧ a < t.place v + t.elementSize

variable {t : TensorDesc}

theorem isByte_iff {a : Int} : t.IsByte a ↔ Axis.Covers t.axes t.elementSize (a - t.hostPtr) := by
  unfold IsByte place
  constructor
  · rintro ⟨v, hv, h1, h2⟩
    exact ⟨v, hv, by omega, by omega⟩
  · rintro ⟨v, hv, h1, h2⟩
    exact ⟨v, hv, by omega, by omega⟩

end TensorDesc

theorem TensorDataType.size_pos (ty : TensorDataType) : 0 < ty.ownSizeOfEnumType := by
  cases ty <;> decide

/-- The bytes of the elements of all dimensions, in 32 bits. -/
def tensorBytes (size : Nat) (dims : List UInt32) : Nat := dims.foldl (fun n d => n * d.toNat) size

theorem toInt_eq_ite {s : Int32} {e : Nat} (h : s.toUInt32.toNat = e % 2 ^ 32) (he : e < 2 ^ 32) :
    s.toInt = if 2 * e < 2 ^ 32 then (e : Int) else e - 2 ^ 32 := by
  rw [Nat.mod_eq_of_lt he] at h
  rw [← h]
  rfl

/-- A stride in 32 bits is the product, or negative where this has the top bit. -/
theorem toInt_of_toNat {s : Int32} {e : Nat} (h : s.toUInt32.toNat = e % 2 ^ 32) (he : e < 2 ^ 32) :
    s.toInt = e ∨ s.toInt < 0 := by
  rw [toInt_eq_ite h he]
  split <;> omega

theorem toNat_mul_toInt32 {s : Int32} {d : UInt32} {e : Nat} (h : s.toUInt32.toNat = e % 2 ^ 32) :
    (s * d.toInt32).toUInt32.toNat = e * d.toNat % 2 ^ 32 := by
  rw [Int32.toUInt32_mul, UInt32.toUInt32_toInt32, UInt32.toNat_mul, h, Nat.mod_mul_mod]

theorem length_tensorStrides (s : Int32) (dims : List UInt32) : (tensorStrides s dims).length = dims.length := by
  induction dims generalizing s with
  | nil => rfl
  | cons d ds ih => exact congrArg (· + 1) (ih _)

theorem packed_tensorStrides {s : Int32} {e : Nat} : ∀ (dims : List UInt32), s.toUInt32.toNat = e % 2 ^ 32 →
    Axis.PackedBelow (2 ^ 32) e (List.zipWith (fun d s => ⟨d.toNat, s.toInt⟩) dims (tensorStrides s dims))
  | [], _ => trivial
  | [_], _ => trivial
  | _ :: d :: ds, h => ⟨toInt_of_toNat h, packed_tensorStrides (d :: ds) (toNat_mul_toInt32 h)⟩

theorem last_tensorStrides {s : Int32} {e : Nat} : ∀ (dims : List UInt32), dims ≠ [] → s.toUInt32.toNat = e % 2 ^ 32 →
    (((tensorStrides s dims).getLastD 0).toUInt32 * dims.getLastD 0).toNat = tensorBytes e dims % 2 ^ 32
  | [], h, _ => absurd rfl h
  | [d], _, h => by
    show (s.toUInt32 * d).toNat = e * d.toNat % 2 ^ 32
    rw [UInt32.toNat_mul, h, Nat.mod_mul_mod]
  | _ :: d :: ds, _, h => last_tensorStrides (d :: ds) (List.cons_ne_nil d ds) (toNat_mul_toInt32 h)

theorem size_toUInt32 (ty : TensorDataType) :
    (Int32.ofNat ty.ownSizeOfEnumType).toUInt32.toNat = ty.ownSizeOfEnumType % 2 ^ 32 := by
  cases ty <;> rfl

namespace TensorDesc

/-- What is common to the descriptors of tensors. -/
structure LaidOut (t : TensorDesc) : Prop where
  lengths : t.stride.length = t.dimensions.length
  packed : Axis.PackedBelow (2 ^ 32) t.elementSize t.axes
  memSize : t.memSize.toNat = tensorBytes t.elementSize t.dimensions % 2 ^ 32

variable {t : TensorDesc}

theorem laidOut_of_create {dims : List UInt64} {ty : TensorDataType} {f : Int8} (h : vxCreateTensor dims ty f = some t) :
    t.LaidOut := by
  unfold vxCreateTensor at h
  split at h
  · cases h
  · rename_i hlen
    cases h
    have hne : dims.map UInt64.toUInt32 ≠ [] := by
      intro h0
      rw [List.map_eq_nil_iff] at h0
      rw [h0] at hlen
      exact hlen (.inl Nat.one_pos)
    constructor
    · exact length_tensorStrides _ _
    · exact packed_tensorStrides _ (size_toUInt32 ty)
    · exact last_tensorStrides _ hne (size_toUInt32 ty)

theorem laidOut_of_roi {I : ImageDesc} {rect : Option VxRectangle} {f : Int8} (h : I.vxCreateTensorFromROI rect f = some t) :
    t.LaidOut := by
  unfold ImageDesc.vxCreateTensorFromROI at h
  split at h
  · cases h
  · obtain ⟨tensorType, -, h⟩ := Option.bind_eq_some_iff.1 h
    dsimp only at h
    split at h
    · cases h
    · obtain ⟨u, hu, rfl⟩ := Option.map_eq_some_iff.1 h
      have hlaid := laidOut_of_create hu
      -- the first stride and the size are those of the packed tensor
      obtain rfl : u = _ := by
        cases hu
        rfl
      constructor
      · rfl
      · refine ⟨toInt_of_toNat (size_toUInt32 tensorType.dataType), trivial⟩
      · exact hlaid.memSize

theorem Created.laidOut (h : t.Created) : t.LaidOut := by
  induction h with
  | vxCreateTensor h => exact laidOut_of_create h
  | vxCreateTensorFromROI h => exact laidOut_of_roi h
  | memory _ _ ih => exact ⟨ih.lengths, ih.packed, ih.memSize⟩
  | vxSetTensorAttribute _ _ _ _ ih => exact ⟨ih.lengths, ih.packed, ih.memSize⟩

end TensorDesc

end Tiovx
