import Tiovx.Exemplars
import Tiovx.Interchangeable
/-!
# ExemplarAttributes — the attributes of copies (`vx_exemplar.c`)

Each creator of a copy takes a list of attributes of the exemplar.  Those that are compared but not taken are the pattern of a
matrix, the scale of a convolution, and the scaling and the strides of a tensor.
-/
namespace Tiovx

/-- The item size of an array is that of its type in the context. -/
def DataDesc.IsOf (itemSizes : Int → UInt64) : DataDesc → Prop
  | .array A => A.itemSize = (itemSizes A.itemType).toUInt32
  | _ => True

/-- What the copy does not take is as the creator sets it. -/
def DataDesc.Plain : DataDesc → Prop
  | .matrix M => M.pattern = patternOther
  | .convolution C => C.scale = 1
  | .tensor T => T.scalingDivisor = 1 ∧ T.scalingDivisorFixedPointPosition = 0 ∧
      T.stride = tensorStrides (Int32.ofNat T.dataType.ownSizeOfEnumType) T.dimensions
  | _ => True

/-- The origin of a matrix is in the middle of it. -/
theorem MatrixDesc.Created.origin {M : MatrixDesc} (h : M.Created) : M.originX = M.columns / 2 ∧ M.originY = M.rows / 2 := by
  cases h with
  | vxCreateMatrix h =>
    unfold Tiovx.vxCreateMatrix at h
    split at h
    · cases h
      exact ⟨rfl, rfl⟩
    · cases h
  | vxCreateMatrixFromPattern h =>
    unfold Tiovx.vxCreateMatrixFromPattern at h
    split at h
    · cases h
      exact ⟨rfl, rfl⟩
    · cases h

theorem ownCreateMatrixFromExemplar_eq {M N : MatrixDesc} (h : ownCreateMatrixFromExemplar M = some N) :
    N = ⟨M.dataType, M.columns, M.rows, M.columns / 2, M.rows / 2, patternOther, M.columns * M.rows * matrixDim M.dataType⟩ := by
  unfold ownCreateMatrixFromExemplar vxCreateMatrix at h
  split at h
  · cases h
    simp only [UInt32.toUInt32_toUInt64]
  · cases h

theorem ownCreateConvolutionFromExemplar_eq {C D : ConvolutionDesc} (h : ownCreateConvolutionFromExemplar C = some D) :
    D = ⟨C.columns, C.rows, 1, C.columns * C.rows * 2⟩ := by
  unfold ownCreateConvolutionFromExemplar vxCreateConvolution at h
  split at h
  · cases h
    simp only [UInt32.toUInt32_toUInt64]
  · cases h

theorem map_toUInt32_toUInt64 (dims : List UInt32) : (dims.map UInt32.toUInt64).map UInt64.toUInt32 = dims := by
  rw [List.map_map]
  exact (List.map_congr_left (fun d _ => UInt32.toUInt32_toUInt64 d)).trans (List.map_id dims)

theorem ownCreateTensorFromExemplar_eq {T U : TensorDesc} (h : ownCreateTensorFromExemplar T = some U) :
    U.dataType = T.dataType ∧ U.fixedPointPosition = T.fixedPointPosition ∧ U.scalingDivisor = 1 ∧
      U.scalingDivisorFixedPointPosition = 0 ∧ U.dimensions = T.dimensions ∧
      U.stride = tensorStrides (Int32.ofNat T.dataType.ownSizeOfEnumType) T.dimensions := by
  unfold ownCreateTensorFromExemplar vxCreateTensor at h
  split at h
  · cases h
  · cases h
    simp only [ownInitTensorObject, map_toUInt32_toUInt64, and_self]

/-- The strides of a tensor that are compared with its dimensions. -/
theorem strides_eq {T U : TensorDesc} (hT : T.stride.length = T.dimensions.length) (hU : U.stride.length = U.dimensions.length)
    (h : T.dimensions.zip (T.stride.map Int32.toUInt32) = U.dimensions.zip (U.stride.map Int32.toUInt32)) :
    T.stride = U.stride := by
  have hsnd := congrArg (List.map Prod.snd) h
  rw [List.map_snd_zip (by rw [List.length_map, hT]), List.map_snd_zip (by rw [List.length_map, hU])] at hsnd
  apply List.map_injective_iff.2 _ hsnd
  intro a b hab
  rw [← Int32.toInt32_toUInt32 a, ← Int32.toInt32_toUInt32 b, hab]

namespace DataDesc

variable {itemSizes : Int → UInt64} {d e : DataDesc}

theorem tensor_compared_iff {T U : TensorDesc} (hT : T.LaidOut) (h : ownCreateTensorFromExemplar T = some U) :
    (tensor U).metaFormat.compared = (tensor T).metaFormat.compared ↔ (tensor T).Plain := by
  obtain ⟨htype, hfixed, hdivisor, hposition, hdims, hstride⟩ := ownCreateTensorFromExemplar_eq h
  have hlen : U.stride.length = U.dimensions.length := by
    rw [hstride, hdims, length_tensorStrides]
  simp only [metaFormat, MetaFormat.compared, MetaFormat.tensor.injEq, TensorMeta.mk.injEq, htype, hfixed, true_and]
  constructor
  · rintro ⟨hd, hp, hz⟩
    rw [hdivisor] at hd
    rw [hposition] at hp
    exact ⟨(UInt8.toNat_inj.1 hd).symm, (UInt8.toNat_inj.1 hp).symm, (strides_eq hlen hT.lengths hz).symm.trans hstride⟩
  · rintro ⟨hd, hp, hs⟩
    rw [hdivisor, hposition, hd, hp, hdims, hstride, hs]
    exact ⟨rfl, rfl, rfl⟩

theorem image_compared {I : ImageDesc} {a : UInt32} (h : ownCreateImageFromExemplar I a = some e) :
    e.metaFormat.compared = (image I a).metaFormat.compared := by
  obtain ⟨J, hJ, rfl⟩ := Option.map_eq_some_iff.1 h
  obtain rfl := ImageDesc.vxCreateImage_eq hJ
  split <;> rfl

/-- The copy has the meta format of its exemplar exactly where what it does not take is as the creator sets it. -/
theorem compared_iff (hd : d.Created) (hs : d.IsOf itemSizes) (h : d.fromExemplar itemSizes = some e) :
    e.metaFormat.compared = d.metaFormat.compared ↔ d.Plain := by
  cases hd with
  | image a => exact iff_of_true (image_compared h) trivial
  | @array A =>
    obtain ⟨B, hB, rfl⟩ := Option.map_eq_some_iff.1 h
    unfold ownCreateArrayFromExemplar vxCreateArray at hB
    split at hB
    · cases hB
      refine iff_of_true ?_ trivial
      show MetaFormat.array ⟨A.itemType, A.capacity.toUInt64.toUInt32, (itemSizes A.itemType).toUInt32⟩ =
        .array ⟨A.itemType, A.capacity, A.itemSize⟩
      rw [UInt32.toUInt32_toUInt64, show A.itemSize = _ from hs]
    · cases hB
  | scalar data =>
    obtain ⟨type, ht, rfl⟩ := Option.map_eq_some_iff.1 h
    unfold ownCreateScalarFromExemplar vxCreateScalar at ht
    split at ht
    · cases ht
      exact iff_of_true rfl trivial
    · cases ht
  | @matrix M hM =>
    obtain ⟨N, hN, rfl⟩ := Option.map_eq_some_iff.1 h
    obtain rfl := ownCreateMatrixFromExemplar_eq hN
    simp only [metaFormat, MetaFormat.compared, MetaFormat.matrix.injEq, MatrixMeta.mk.injEq, hM.memSize, hM.origin, true_and,
      and_true]
    exact eq_comm
  | distribution =>
    obtain ⟨E, hE, rfl⟩ := Option.map_eq_some_iff.1 h
    unfold ownCreateDistributionFromExemplar vxCreateDistribution at hE
    split at hE
    · cases hE
      refine iff_of_true ?_ trivial
      simp only [metaFormat, MetaFormat.compared, UInt32.toUInt32_toUInt64]
    · cases hE
  | @convolution columns rows C scale hC =>
    obtain ⟨D, hD, rfl⟩ := Option.map_eq_some_iff.1 h
    obtain rfl := ownCreateConvolutionFromExemplar_eq hD
    simp only [metaFormat, MetaFormat.compared, MetaFormat.convolution.injEq, ConvolutionMeta.mk.injEq,
      vxCreateConvolution_memSize hC, true_and, and_true]
    exact eq_comm
  | threshold =>
    obtain ⟨U, hU, rfl⟩ := Option.map_eq_some_iff.1 h
    unfold ownCreateThresholdFromExemplar vxCreateThreshold at hU
    split at hU
    · cases hU
      exact iff_of_true rfl trivial
    · cases hU
  | remap =>
    obtain ⟨S, hS, rfl⟩ := Option.map_eq_some_iff.1 h
    unfold ownCreateRemapFromExemplar vxCreateRemap at hS
    split at hS
    · cases hS
      exact iff_of_true rfl trivial
    · cases hS
  | lut =>
    obtain ⟨M, hM, rfl⟩ := Option.map_eq_some_iff.1 h
    unfold ownCreateLutFromExemplar vxCreateLUT at hM
    split at hM
    · cases hM
      refine iff_of_true ?_ trivial
      simp only [metaFormat, MetaFormat.compared, UInt32.toUInt32_toUInt64]
    · cases hM
  | tensor hT =>
    obtain ⟨U, hU, rfl⟩ := Option.map_eq_some_iff.1 h
    exact tensor_compared_iff hT.laidOut hU
  | userDataObject =>
    obtain ⟨E, hE, rfl⟩ := Option.map_eq_some_iff.1 h
    unfold ownCreateUserDataObjectFromExemplar at hE
    split at hE
    · cases hE
    · cases hE
      refine iff_of_true ?_ trivial
      simp only [metaFormat, MetaFormat.compared, ownInitUserDataObjectObject, UInt32.toUInt32_toUInt64]
  | rawImage hparams =>
    obtain ⟨J, hJ, rfl⟩ := Option.map_eq_some_iff.1 h
    rw [ownCreateRawImageFromExemplar, if_pos hparams] at hJ
    obtain rfl := Option.some.inj hJ
    exact iff_of_true rfl trivial

end DataDesc

end Tiovx
