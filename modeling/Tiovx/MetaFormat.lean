import Tiovx.CmdObjects
import Tiovx.ElementKernels
/-!
# MetaFormat — the meta data of references and when they are equal (`vx_meta_format.c`)

`vxSetMetaFormatFromReference` reads the attributes of a data object into a meta format, and `ownIsMetaFormatEqual` compares two
meta formats of one type attribute by attribute.  All attributes that are read are compared, but for the alignment of the lines of
an image.
-/
namespace Tiovx

/-- The `vx_enum` of a type: those of the data objects that have meta data, and the others. -/
inductive MetaType
  | image
  | array
  | scalar
  | pyramid
  | matrix
  | distribution
  | convolution
  | threshold
  | remap
  | lut
  | objectArray
  | tensor
  | userDataObject
  | rawImage
  | other (type : Int)
deriving DecidableEq

@[ext] structure ImageMeta where
  width : UInt32
  height : UInt32
  format : DfImage
  strideYAlignment : UInt32
deriving DecidableEq

@[ext] structure ArrayMeta where
  itemType : Int
  capacity : UInt32
  itemSize : UInt32
deriving DecidableEq

/-- The scale is told by its bits, and is a number that is not zero. -/
@[ext] structure PyramidMeta where
  width : UInt32
  height : UInt32
  format : DfImage
  levels : UInt32
  scale : UInt32
deriving DecidableEq

@[ext] structure MatrixMeta where
  type : Int
  rows : UInt32
  cols : UInt32
  size : UInt32
  pattern : Int
  originX : UInt32
  originY : UInt32
deriving DecidableEq

@[ext] structure DistributionMeta where
  bins : UInt32
  offset : Int32
  range : UInt32
deriving DecidableEq

@[ext] structure ConvolutionMeta where
  rows : UInt32
  cols : UInt32
  scale : UInt32
  size : UInt32
deriving DecidableEq

@[ext] structure RemapMeta where
  srcWidth : UInt32
  srcHeight : UInt32
  dstWidth : UInt32
  dstHeight : UInt32
deriving DecidableEq

@[ext] structure LutMeta where
  type : Int
  count : UInt32
deriving DecidableEq

@[ext] structure ObjectArrayMeta where
  itemType : MetaType
  numItems : UInt32
  isFromList : Bool
deriving DecidableEq

/-- A dimension of a tensor is with its stride. -/
@[ext] structure TensorMeta where
  dataType : Int
  fixedPointPosition : Int
  scalingDivisor : Nat
  scalingDivisorFixedPointPosition : Nat
  dims : List (UInt32 × UInt32)
deriving DecidableEq

@[ext] structure UserDataObjectMeta where
  typeName : List UInt8
  size : UInt32
deriving DecidableEq

/-- The formats are those of the exposures: pixel container and most significant bit. -/
@[ext] structure RawImageMeta where
  width : UInt32
  height : UInt32
  lineInterleaved : Bool
  formats : List (Int × UInt32)
  metaHeightBefore : UInt32
  metaHeightAfter : UInt32
deriving DecidableEq

/-- `tivx_meta_format_t`, as far as it is set for a type. -/
inductive MetaFormat
  | image (q : ImageMeta)
  | array (q : ArrayMeta)
  | scalar (type : Int)
  | pyramid (q : PyramidMeta)
  | matrix (q : MatrixMeta)
  | distribution (q : DistributionMeta)
  | convolution (q : ConvolutionMeta)
  | threshold (type : Int)
  | remap (q : RemapMeta)
  | lut (q : LutMeta)
  | objectArray (q : ObjectArrayMeta)
  | tensor (q : TensorMeta)
  | userDataObject (q : UserDataObjectMeta)
  | rawImage (q : RawImageMeta)
deriving DecidableEq

/-- What the attributes of a reference say: those of a data object, or nothing but its type. -/
inductive RefAttributes
  | data (m : MetaFormat)
  | other (type : Int)
deriving DecidableEq

def MetaFormat.type : MetaFormat → MetaType
  | image _ => .image
  | array _ => .array
  | scalar _ => .scalar
  | pyramid _ => .pyramid
  | matrix _ => .matrix
  | distribution _ => .distribution
  | convolution _ => .convolution
  | threshold _ => .threshold
  | remap _ => .remap
  | lut _ => .lut
  | objectArray _ => .objectArray
  | tensor _ => .tensor
  | userDataObject _ => .userDataObject
  | rawImage _ => .rawImage

def RefAttributes.type : RefAttributes → MetaType
  | data m => m.type
  | other type => .other type

/-- `vxSetMetaFormatFromReference` of a meta format and a reference that are there. -/
def vxSetMetaFormatFromReference : RefAttributes → Except Int MetaFormat
  | .data m => .ok m
  | .other _ => .error vxErrorNotSupported

namespace MetaFormat

def ownIsMetaFormatImageEqual (p q : ImageMeta) : Bool := p.width = q.width && p.height = q.height && p.format = q.format

def ownIsMetaFormatArrayEqual (p q : ArrayMeta) : Bool :=
  p.itemType = q.itemType && p.capacity = q.capacity && p.itemSize = q.itemSize

def ownIsMetaFormatScalarEqual (type type' : Int) : Bool := type = type'

def ownIsMetaFormatPyramidEqual (p q : PyramidMeta) : Bool :=
  p.width = q.width && p.height = q.height && p.format = q.format && p.levels = q.levels && p.scale = q.scale

def ownIsMetaFormatMatrixEqual (p q : MatrixMeta) : Bool :=
  p.type = q.type && p.rows = q.rows && p.cols = q.cols && p.size = q.size && p.pattern = q.pattern &&
    p.originX = q.originX && p.originY = q.originY

def ownIsMetaFormatDistributionEqual (p q : DistributionMeta) : Bool :=
  p.bins = q.bins && p.offset = q.offset && p.range = q.range

def ownIsMetaFormatConvolutionEqual (p q : ConvolutionMeta) : Bool :=
  p.rows = q.rows && p.cols = q.cols && p.scale = q.scale && p.size = q.size

def ownIsMetaFormatRemapEqual (p q : RemapMeta) : Bool :=
  p.srcWidth = q.srcWidth && p.srcHeight = q.srcHeight && p.dstWidth = q.dstWidth && p.dstHeight = q.dstHeight

def ownIsMetaFormatThresholdEqual (type type' : Int) : Bool := type = type'

def ownIsMetaFormatObjectArrayEqual (p q : ObjectArrayMeta) : Bool :=
  p.itemType = q.itemType && p.numItems = q.numItems && p.isFromList = q.isFromList

def ownIsMetaFormatLutEqual (p q : LutMeta) : Bool := p.type = q.type && p.count = q.count

def ownIsMetaFormatTensorEqual (p q : TensorMeta) : Bool :=
  p.dims.length = q.dims.length && p.dataType = q.dataType && p.fixedPointPosition = q.fixedPointPosition &&
    p.scalingDivisor = q.scalingDivisor && p.scalingDivisorFixedPointPosition = q.scalingDivisorFixedPointPosition &&
    (List.range p.dims.length).all (fun i => p.dims[i]? = q.dims[i]?)

def ownIsMetaFormatUserDataObjectEqual (p q : UserDataObjectMeta) : Bool := p.size = q.size && p.typeName = q.typeName

def ownIsMetaFormatRawImageEqual (p q : RawImageMeta) : Bool :=
  p.width = q.width && p.height = q.height && p.formats.length = q.formats.length && p.lineInterleaved = q.lineInterleaved &&
    p.metaHeightBefore = q.metaHeightBefore && p.metaHeightAfter = q.metaHeightAfter &&
    (List.range p.formats.length).all (fun i => p.formats[i]? = q.formats[i]?)

/-- `ownIsMetaFormatEqual` of two meta formats of one type. -/
def ownIsMetaFormatEqual : MetaFormat → MetaFormat → Bool
  | image p, image q => ownIsMetaFormatImageEqual p q
  | array p, array q => ownIsMetaFormatArrayEqual p q
  | scalar p, scalar q => ownIsMetaFormatScalarEqual p q
  | pyramid p, pyramid q => ownIsMetaFormatPyramidEqual p q
  | matrix p, matrix q => ownIsMetaFormatMatrixEqual p q
  | distribution p, distribution q => ownIsMetaFormatDistributionEqual p q
  | convolution p, convolution q => ownIsMetaFormatConvolutionEqual p q
  | threshold p, threshold q => ownIsMetaFormatThresholdEqual p q
  | remap p, remap q => ownIsMetaFormatRemapEqual p q
  | lut p, lut q => ownIsMetaFormatLutEqual p q
  | objectArray p, objectArray q => ownIsMetaFormatObjectArrayEqual p q
  | tensor p, tensor q => ownIsMetaFormatTensorEqual p q
  | userDataObject p, userDataObject q => ownIsMetaFormatUserDataObjectEqual p q
  | rawImage p, rawImage q => ownIsMetaFormatRawImageEqual p q
  | _, _ => false

/-- What is compared: everything but the alignment of the lines of an image. -/
def compared : MetaFormat → MetaFormat
  | image q => image { q with strideYAlignment := 0 }
  | m => m

variable {m n : MetaFormat}

@[simp] theorem type_compared : m.compared.type = m.type := by
  cases m <;> rfl

/-- Two lists are compared by their lengths and by a loop over one of them. -/
theorem all_range_eq_iff {α : Type} [DecidableEq α] {l l' : List α} :
    l.length = l'.length ∧ (List.range l.length).all (fun i => l[i]? = l'[i]?) = true ↔ l = l' := by
  constructor
  · rintro ⟨hlen, hall⟩
    apply List.ext_getElem?
    intro i
    by_cases hi : i < l.length
    · exact of_decide_eq_true (List.all_eq_true.1 hall i (List.mem_range.2 hi))
    · rw [List.getElem?_eq_none (by omega), List.getElem?_eq_none (by omega)]
  · rintro rfl
    exact ⟨rfl, List.all_eq_true.2 (fun _ _ => decide_eq_true rfl)⟩

section

attribute [local simp] ImageMeta.ext_iff ArrayMeta.ext_iff PyramidMeta.ext_iff MatrixMeta.ext_iff DistributionMeta.ext_iff
  ConvolutionMeta.ext_iff RemapMeta.ext_iff LutMeta.ext_iff ObjectArrayMeta.ext_iff

@[simp] theorem imageEqual_iff {p q : ImageMeta} :
    ownIsMetaFormatImageEqual p q = true ↔ { p with strideYAlignment := 0 } = { q with strideYAlignment := 0 } := by
  simp [ownIsMetaFormatImageEqual, and_assoc]

@[simp] theorem arrayEqual_iff {p q : ArrayMeta} : ownIsMetaFormatArrayEqual p q = true ↔ p = q := by
  simp [ownIsMetaFormatArrayEqual, and_assoc]

@[simp] theorem scalarEqual_iff {p q : Int} : ownIsMetaFormatScalarEqual p q = true ↔ p = q := decide_eq_true_iff

@[simp] theorem pyramidEqual_iff {p q : PyramidMeta} : ownIsMetaFormatPyramidEqual p q = true ↔ p = q := by
  simp [ownIsMetaFormatPyramidEqual, and_assoc]

@[simp] theorem matrixEqual_iff {p q : MatrixMeta} : ownIsMetaFormatMatrixEqual p q = true ↔ p = q := by
  simp [ownIsMetaFormatMatrixEqual, and_assoc]

@[simp] theorem distributionEqual_iff {p q : DistributionMeta} : ownIsMetaFormatDistributionEqual p q = true ↔ p = q := by
  simp [ownIsMetaFormatDistributionEqual, and_assoc]

@[simp] theorem convolutionEqual_iff {p q : ConvolutionMeta} : ownIsMetaFormatConvolutionEqual p q = true ↔ p = q := by
  simp [ownIsMetaFormatConvolutionEqual, and_assoc]

@[simp] theorem remapEqual_iff {p q : RemapMeta} : ownIsMetaFormatRemapEqual p q = true ↔ p = q := by
  simp [ownIsMetaFormatRemapEqual, and_assoc]

@[simp] theorem thresholdEqual_iff {p q : Int} : ownIsMetaFormatThresholdEqual p q = true ↔ p = q := decide_eq_true_iff

@[simp] theorem objectArrayEqual_iff {p q : ObjectArrayMeta} : ownIsMetaFormatObjectArrayEqual p q = true ↔ p = q := by
  simp [ownIsMetaFormatObjectArrayEqual, and_assoc]

@[simp] theorem lutEqual_iff {p q : LutMeta} : ownIsMetaFormatLutEqual p q = true ↔ p = q := by
  simp [ownIsMetaFormatLutEqual]

@[simp] theorem tensorEqual_iff {p q : TensorMeta} : ownIsMetaFormatTensorEqual p q = true ↔ p = q := by
  have hdims : _ ↔ p.dims = q.dims := all_range_eq_iff
  rw [TensorMeta.ext_iff, ← hdims]
  simp only [ownIsMetaFormatTensorEqual, Bool.and_eq_true, decide_eq_true_eq]
  tauto

@[simp] theorem userDataObjectEqual_iff {p q : UserDataObjectMeta} : ownIsMetaFormatUserDataObjectEqual p q = true ↔ p = q := by
  simp only [ownIsMetaFormatUserDataObjectEqual, UserDataObjectMeta.ext_iff, Bool.and_eq_true, decide_eq_true_eq]
  exact and_comm

@[simp] theorem rawImageEqual_iff {p q : RawImageMeta} : ownIsMetaFormatRawImageEqual p q = true ↔ p = q := by
  have hformats : _ ↔ p.formats = q.formats := all_range_eq_iff
  rw [RawImageMeta.ext_iff, ← hformats]
  simp only [ownIsMetaFormatRawImageEqual, Bool.and_eq_true, decide_eq_true_eq]
  tauto

end

/-- The meta formats are equal when they agree in all that is compared. -/
theorem ownIsMetaFormatEqual_iff : ownIsMetaFormatEqual m n = true ↔ m.compared = n.compared := by
  cases m <;> cases n <;> simp only [ownIsMetaFormatEqual, compared, imageEqual_iff, arrayEqual_iff, scalarEqual_iff,
    pyramidEqual_iff, matrixEqual_iff, distributionEqual_iff, convolutionEqual_iff, remapEqual_iff, thresholdEqual_iff,
    objectArrayEqual_iff, lutEqual_iff, tensorEqual_iff, userDataObjectEqual_iff, rawImageEqual_iff, MetaFormat.image.injEq,
    MetaFormat.array.injEq, MetaFormat.scalar.injEq, MetaFormat.pyramid.injEq, MetaFormat.matrix.injEq,
    MetaFormat.distribution.injEq, MetaFormat.convolution.injEq, MetaFormat.threshold.injEq, MetaFormat.remap.injEq,
    MetaFormat.lut.injEq, MetaFormat.objectArray.injEq, MetaFormat.tensor.injEq, MetaFormat.userDataObject.injEq,
    MetaFormat.rawImage.injEq, Bool.false_eq_true, reduceCtorEq]

theorem type_eq_of_equal (h : ownIsMetaFormatEqual m n = true) : m.type = n.type := by
  rw [← type_compared, ownIsMetaFormatEqual_iff.1 h, type_compared]

end MetaFormat

end Tiovx
