import Tiovx.MetaFormat
import Tiovx.TensorObjects
import Tiovx.UserDataObjects
import Tiovx.VirtualObjects
/-!
# DataObjects — the data objects with their descriptors (`vx_matrix.c`, `vx_lut.c`, and the files of the other types)

Each type has a descriptor that its functions fill in, with the size of its buffer in 32 bits.  A pyramid and an object array
have other objects besides.
-/
namespace Tiovx

/-- `VX_TYPE_SCALAR_MAX`. -/
def vxTypeScalarMax : Int := 0x11

/-- `VX_TYPE_UINT8`. -/
def vxTypeUint8 : Int := 0x3

/-- `VX_CONTEXT_CONVOLUTION_MAX_DIMENSION`, which is the number of an attribute. -/
def convolutionMaxDimension : Int32 := 0x80108

/-- `VX_PATTERN_BOX`, `VX_PATTERN_CROSS`, `VX_PATTERN_DISK` and `VX_PATTERN_OTHER`. -/
def patternBox : Int := 0x17000

def patternCross : Int := 0x17001

def patternDisk : Int := 0x17002

def patternOther : Int := 0x17003

/-- `VX_THRESHOLD_TYPE_BINARY` and `VX_THRESHOLD_TYPE_RANGE`. -/
def thresholdTypeBinary : Int := 0xB000

def thresholdTypeRange : Int := 0xB001

/-- The `vx_type_e` of a type. -/
def TensorDataType.vxType : TensorDataType → Int
  | .int8 => 0x2
  | .uint8 => 0x3
  | .int16 => 0x4
  | .uint16 => 0x5
  | .int32 => 0x6
  | .uint32 => 0x7
  | .int64 => 0x8
  | .uint64 => 0x9
  | .float32 => 0xA

/-- `VX_TYPE_INT8`, `VX_TYPE_UINT8`. -/
def isByteType (t : Int) : Bool := t = 0x2 || t = 0x3

/-- `VX_TYPE_INT16`, `VX_TYPE_UINT16`. -/
def isHalfType (t : Int) : Bool := t = 0x4 || t = 0x5

/-- `VX_TYPE_INT32`, `VX_TYPE_UINT32`, `VX_TYPE_FLOAT32`. -/
def isWordType (t : Int) : Bool := t = 0x6 || t = 0x7 || t = 0xA

/-- `VX_TYPE_INT64`, `VX_TYPE_UINT64`, `VX_TYPE_FLOAT64`. -/
def isDoubleType (t : Int) : Bool := t = 0x8 || t = 0x9 || t = 0xB

/-! ### Descriptors -/

structure MatrixDesc where
  dataType : Int
  columns : UInt32
  rows : UInt32
  originX : UInt32
  originY : UInt32
  pattern : Int
  memSize : UInt32
deriving DecidableEq

/-- `dim` of `vxCreateMatrix`. -/
def matrixDim (dataType : Int) : UInt32 :=
  if isByteType dataType then 1
  else if isHalfType dataType then 2
  else if isWordType dataType then 4
  else if isDoubleType dataType then 8
  else 0

def vxCreateMatrix (dataType : Int) (columns rows : UInt64) : Option MatrixDesc :=
  if rows ≠ 0 ∧ columns ≠ 0 ∧ matrixDim dataType ≠ 0 then
    some
      { dataType := dataType
        columns := columns.toUInt32
        rows := rows.toUInt32
        originX := columns.toUInt32 / 2
        originY := rows.toUInt32 / 2
        pattern := patternOther
        memSize := columns.toUInt32 * rows.toUInt32 * matrixDim dataType }
  else none

/-- The pattern and the dimensions `vxCreateMatrixFromPattern` takes. -/
def isPattern (pattern : Int) (columns rows : UInt64) : Bool :=
  (pattern = patternBox || pattern = patternCross || pattern = patternOther || pattern = patternDisk) &&
    !(pattern = patternCross && (rows % 2 = 0 || columns % 2 = 0)) && !(pattern = patternDisk && rows != columns)

def vxCreateMatrixFromPattern (pattern : Int) (columns rows : UInt64) : Option MatrixDesc :=
  if rows ≠ 0 ∧ columns ≠ 0 ∧ isPattern pattern columns rows then
    some
      { dataType := vxTypeUint8
        columns := columns.toUInt32
        rows := rows.toUInt32
        originX := columns.toUInt32 / 2
        originY := rows.toUInt32 / 2
        pattern := pattern
        memSize := columns.toUInt32 * rows.toUInt32 * 1 }
  else none

structure DistributionDesc where
  numBins : UInt32
  range : UInt32
  offset : Int32
  memSize : UInt32
deriving DecidableEq

def vxCreateDistribution (numBins : UInt64) (offset : Int32) (range : UInt32) : Option DistributionDesc :=
  if numBins ≠ 0 ∧ range ≠ 0 then some ⟨numBins.toUInt32, range, offset, numBins.toUInt32 * 4⟩ else none

structure ConvolutionDesc where
  columns : UInt32
  rows : UInt32
  scale : UInt32
  memSize : UInt32
deriving DecidableEq

def isConvolutionDimension (n : UInt64) : Bool := n % 2 = 1 && 3 ≤ n && n.toUInt32.toInt32 < convolutionMaxDimension

def vxCreateConvolution (columns rows : UInt64) : Option ConvolutionDesc :=
  if isConvolutionDimension columns && isConvolutionDimension rows then
    some ⟨columns.toUInt32, rows.toUInt32, 1, columns.toUInt32 * rows.toUInt32 * 2⟩
  else none

structure ThresholdDesc where
  type : Int
  dataType : Int
deriving DecidableEq

/-- `vxCreateThreshold`; `VX_TYPE_INT64` and `VX_TYPE_UINT64` are refused. -/
def vxCreateThreshold (type dataType : Int) : Option ThresholdDesc :=
  if (type = thresholdTypeBinary ∨ type = thresholdTypeRange) ∧ dataType ≠ 0x8 ∧ dataType ≠ 0x9 then some ⟨type, dataType⟩
  else none

structure RemapDesc where
  srcWidth : UInt32
  srcHeight : UInt32
  dstWidth : UInt32
  dstHeight : UInt32
  memSize : UInt32
deriving DecidableEq

def vxCreateRemap (srcWidth srcHeight dstWidth dstHeight : UInt32) : Option RemapDesc :=
  if srcWidth ≠ 0 ∧ srcHeight ≠ 0 ∧ dstWidth ≠ 0 ∧ dstHeight ≠ 0 then
    some ⟨srcWidth, srcHeight, dstWidth, dstHeight, dstWidth * dstHeight * 8⟩
  else none

structure LutDesc where
  itemType : Int
  itemSize : UInt32
  numItems : UInt32
  memSize : UInt32
deriving DecidableEq

/-- `dim` of `vxCreateLUT`; `VX_TYPE_CHAR` is 1. -/
def lutDim (dataType : Int) (count : UInt64) : UInt32 :=
  if isByteType dataType || dataType = 0x1 then if count ≤ 256 then 1 else 0
  else if isHalfType dataType then if count ≤ 65536 then 2 else 0
  else if isWordType dataType then 4
  else if isDoubleType dataType then 8
  else 0

def vxCreateLUT (dataType : Int) (count : UInt64) : Option LutDesc :=
  if lutDim dataType count ≠ 0 then
    some ⟨dataType, lutDim dataType count, count.toUInt32, lutDim dataType count * count.toUInt32⟩
  else none

def vxCreateScalar (dataType : Int) : Option Int :=
  if vxTypeInvalid < dataType ∧ dataType < vxTypeScalarMax then some dataType else none

/-- `vxSetImageAttribute` of the alignment of an image that has no memory yet. -/
def ImageDesc.setAlignment (d : ImageDesc) (alignment : UInt32) : ImageDesc :=
  { d with plane := fun p => VirtImage.alignPlane alignment (d.plane p) }

/-- The descriptor of an object without other objects in it; an image is with its `stride_y_alignment`. -/
inductive DataDesc
  | image (d : ImageDesc) (strideYAlignment : UInt32)
  | array (A : VxArray)
  | scalar (type : Int) (data : UInt64)
  | matrix (M : MatrixDesc)
  | distribution (D : DistributionDesc)
  | convolution (C : ConvolutionDesc)
  | threshold (T : ThresholdDesc)
  | remap (R : RemapDesc)
  | lut (L : LutDesc)
  | tensor (T : TensorDesc)
  | userDataObject (D : UserDataObject)
  | rawImage (d : RawImageDesc)

/-- `format` of a raw image, as far as there are exposures. -/
def RawImageParams.formats (params : RawImageParams) : List (Int × UInt32) :=
  (List.range params.numExposures.toNat).map (fun i => ((params.format i).pixelContainer.toNat, (params.format i).msb))

namespace DataDesc

/-- `vxSetMetaFormatFromReference`. -/
def metaFormat : DataDesc → MetaFormat
  | image d a => .image ⟨d.width, d.height, d.format, a⟩
  | array A => .array ⟨A.itemType, A.capacity, A.itemSize⟩
  | scalar type _ => .scalar type
  | matrix M => .matrix ⟨M.dataType, M.rows, M.columns, M.memSize, M.pattern, M.originX, M.originY⟩
  | distribution D => .distribution ⟨D.numBins, D.offset, D.range⟩
  | convolution C => .convolution ⟨C.rows, C.columns, C.scale, C.memSize⟩
  | threshold T => .threshold T.type
  | remap R => .remap ⟨R.srcWidth, R.srcHeight, R.dstWidth, R.dstHeight⟩
  | lut L => .lut ⟨L.itemType, L.numItems⟩
  | tensor T => .tensor ⟨T.dataType.vxType, T.fixedPointPosition.toInt, T.scalingDivisor.toNat,
      T.scalingDivisorFixedPointPosition.toNat, T.dimensions.zip (T.stride.map Int32.toUInt32)⟩
  | userDataObject D => .userDataObject ⟨D.typeName, D.memSize⟩
  | rawImage d => .rawImage ⟨d.params.width, d.params.height, d.params.lineInterleaved, d.params.formats,
      d.params.metaHeightBefore, d.params.metaHeightAfter⟩

/-- `mem_size` of `ownReferenceGetMemAttrsFromObjDesc`. -/
def memSize : DataDesc → Option UInt32
  | array A => some A.memSize
  | matrix M => some M.memSize
  | distribution D => some D.memSize
  | convolution C => some C.memSize
  | remap R => some R.memSize
  | lut L => some L.memSize
  | tensor T => some T.memSize
  | userDataObject D => some D.memSize
  | _ => none

end DataDesc

/-- A pyramid without its levels; the scale is told by its bits. -/
structure PyramidDesc where
  width : UInt32
  height : UInt32
  format : DfImage
  scale : UInt32
  isVirtual : Bool := false
deriving DecidableEq

/-- The image of a level. -/
structure LevelImage where
  desc : ImageDesc
  supplementary : Option SuppData := none

structure ObjectArrayDesc where
  itemType : MetaType
  isFromList : Bool
deriving DecidableEq

/-- A data object with the objects in it and its supplementary data; a level or an item is `NULL` where it was not made. -/
inductive DataObject
  | null
  | element (d : DataDesc) (supplementary : Option SuppData)
  | pyramid (P : PyramidDesc) (levels : List (Option LevelImage)) (supplementary : Option SuppData)
  | objectArray (A : ObjectArrayDesc) (items : List DataObject) (supplementary : Option SuppData)

/-- A float that is a number. -/
def isNumber (bits : UInt32) : Bool := bits &&& 0x7FFFFFFF ≤ 0x7F800000

/-- A scale `vxCreatePyramid` takes: one that is not found to be at least 1 or less than a quarter, as the bits of positive floats
are in the order of the floats. -/
def isPyramidScale (bits : UInt32) : Bool := !isNumber bits || (0x3E800000 ≤ bits && bits < 0x3F800000)

/-- A scale is compared as a float, and one that is no number is equal to none. -/
def MetaFormat.hasNumber : MetaFormat → Bool
  | pyramid q => isNumber q.scale
  | _ => true

namespace DataObject

/-- `vxSetMetaFormatFromReference`. -/
def metaFormat : DataObject → Option MetaFormat
  | null => none
  | element d _ => some d.metaFormat
  | pyramid P levels _ => some (.pyramid ⟨P.width, P.height, P.format, levels.length.toUInt32, P.scale⟩)
  | objectArray A items _ => some (.objectArray ⟨A.itemType, items.length.toUInt32, A.isFromList⟩)

/-- The scale of a pyramid is a number. -/
def HasNumber : DataObject → Prop
  | pyramid P _ _ => isNumber P.scale = true
  | _ => True

/-- `tivxIsReferenceMetaFormatEqual`. -/
def isMetaFormatEqual (x y : DataObject) : Bool :=
  match x.metaFormat, y.metaFormat with
  | some m, some n => m.ownIsMetaFormatEqual n && m.hasNumber
  | _, _ => false

end DataObject

/-! ### What is created -/

/-- The images that are obtained: created, initialised as virtual ones, aligned, given memory, or exchanged with an image of the
same size and format. -/
inductive ImageDesc.Created : ImageDesc → Prop
  | vxCreateImage {width height : UInt32} {format : DfImage} {d : ImageDesc} :
      Tiovx.vxCreateImage width height format = some d → Created d
  | vxCreateUniformImage {width height : UInt32} {format : DfImage} {value : Option Nat} {d : ImageDesc} :
      Tiovx.vxCreateUniformImage width height format value = some d → Created d
  | vxCreateImageFromHandle {color : DfImage} {addrs : Nat → ImagepatchAddressing} {ptrs : Nat → Nat} {d : ImageDesc} :
      Tiovx.vxCreateImageFromHandle color addrs ptrs = some d → Created d
  | vxCreateImageFromChannel {parent d : ImageDesc} {channel : ImageChannel} :
      Created parent → Tiovx.vxCreateImageFromChannel parent channel = some d → Created d
  | vxCreateImageFromROI {parent d : ImageDesc} {rect : VxRectangle} :
      Created parent → Tiovx.vxCreateImageFromROI parent rect = some d → Created d
  | ownInitImage (width height : UInt32) (format : DfImage) : Created (Tiovx.ownInitImage width height format)
  | vxSetImageAttribute {d : ImageDesc} (alignment : UInt32) : Created d → Created (d.setAlignment alignment)
  | memory {d : ImageDesc} (hostPtr : Nat → Nat) :
      Created d → Created { d with plane := fun p => { d.plane p with hostPtr := hostPtr p } }
  | swapImage {d e : ImageDesc} : Created d → Created e → d.width = e.width → d.height = e.height → d.format = e.format →
      Created { d with plane := e.plane }

/-- The arrays that are obtained; a copy that is validated gives the output the capacity of the input. -/
inductive VxArray.Created : VxArray → Prop
  | ownInitArrayObject (itemSizes : Int → UInt64) (itemType : Int) (capacity : UInt64) (isVirtual : Bool) :
      Created (Tiovx.ownInitArrayObject itemSizes itemType capacity isVirtual)
  | isArrayCopyable {input output : Nat} {I O O' : VxArray} : Created I → Created O →
      ArrayContext.isArrayCopyable input output I O = some O' → Created O'
  | contents {A : VxArray} (numItems : UInt32) (hostPtr : Nat) : Created A →
      Created { A with numItems := numItems, hostPtr := hostPtr }

inductive MatrixDesc.Created : MatrixDesc → Prop
  | vxCreateMatrix {dataType : Int} {columns rows : UInt64} {M : MatrixDesc} :
      Tiovx.vxCreateMatrix dataType columns rows = some M → Created M
  | vxCreateMatrixFromPattern {pattern : Int} {columns rows : UInt64} {M : MatrixDesc} :
      Tiovx.vxCreateMatrixFromPattern pattern columns rows = some M → Created M

/-- A descriptor that the functions of its type make. -/
inductive DataDesc.Created : DataDesc → Prop
  | image {d : ImageDesc} (strideYAlignment : UInt32) : d.Created → Created (.image d strideYAlignment)
  | array {A : VxArray} : A.Created → Created (.array A)
  | scalar {type : Int} (data : UInt64) : vxCreateScalar type = some type → Created (.scalar type data)
  | matrix {M : MatrixDesc} : M.Created → Created (.matrix M)
  | distribution {numBins : UInt64} {offset : Int32} {range : UInt32} {D : DistributionDesc} :
      vxCreateDistribution numBins offset range = some D → Created (.distribution D)
  | convolution {columns rows : UInt64} {C : ConvolutionDesc} (scale : UInt32) :
      vxCreateConvolution columns rows = some C → Created (.convolution { C with scale := scale })
  | threshold {type dataType type' : Int} {T : ThresholdDesc} :
      vxCreateThreshold type dataType = some T → Created (.threshold { T with type := type' })
  | remap {srcWidth srcHeight dstWidth dstHeight : UInt32} {R : RemapDesc} :
      vxCreateRemap srcWidth srcHeight dstWidth dstHeight = some R → Created (.remap R)
  | lut {dataType : Int} {count : UInt64} {L : LutDesc} : vxCreateLUT dataType count = some L → Created (.lut L)
  | tensor {T : TensorDesc} : T.Created → Created (.tensor T)
  | userDataObject (typeName : List UInt8) (size : UInt64) (validMemSize : UInt32) (buffer : Option DataBuffer) :
      Created (.userDataObject
        { ownInitUserDataObjectObject typeName size with validMemSize := validMemSize, buffer := buffer })
  | rawImage {d : RawImageDesc} : ownIsValidCreateParams d.params = true → Created (.rawImage d)

section

/- what a scale makes of the width or the height for a level from one on -/
variable (scaled : UInt32 → UInt32 → Nat → UInt32)

/-- The image `ownInitPyramid` makes for a level. -/
def PyramidDesc.level (P : PyramidDesc) (k : Nat) : Option ImageDesc :=
  if k = 0 then vxCreateImage P.width P.height P.format
  else vxCreateImage (scaled P.scale P.width k) (scaled P.scale P.height k) P.format

/-- The levels of a pyramid: those `ownInitPyramid` made, with what has become of them since; those of a virtual one are made when
its graph is verified, or are changed then. -/
def PyramidDesc.HasLevels (P : PyramidDesc) (levels : List (Option LevelImage)) : Prop :=
  (∀ l ∈ levels, ∀ L : LevelImage, l = some L → L.desc.Created) ∧
    (P.isVirtual = false → ∀ k < levels.length, ∃ d L, P.level scaled k = some d ∧ levels[k]? = some (some L) ∧
      L.desc.width = d.width ∧ L.desc.height = d.height ∧ L.desc.format = d.format)

/-- An object with all objects in it.  An object array of object arrays has none of them in those. -/
inductive DataObject.Created : DataObject → Prop
  | null : Created .null
  | element {d : DataDesc} (supplementary : Option SuppData) : d.Created → Created (.element d supplementary)
  | pyramid {P : PyramidDesc} {levels : List (Option LevelImage)} (supplementary : Option SuppData) :
      0 < levels.length → levels.length ≤ pyramidMaxLevelObjects → isPyramidScale P.scale = true →
        P.HasLevels scaled levels → Created (.pyramid P levels supplementary)
  | objectArray {A : ObjectArrayDesc} {items : List DataObject} (supplementary : Option SuppData) :
      0 < items.length → items.length ≤ objectArrayMaxItems → (∀ x ∈ items, Created x) →
        (∀ x ∈ items, ∀ m, x.metaFormat = some m →
          m.type = A.itemType ∧ ∀ q, m = .objectArray q → q.itemType ≠ .objectArray) →
        Created (.objectArray A items supplementary)

end

end Tiovx
