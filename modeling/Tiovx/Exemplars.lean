import Tiovx.DataObjects
/-!
# Exemplars — references that are created from exemplars (`vx_exemplar.c`)

A copy is created from the attributes of its exemplar, and is given the supplementary data of it.  The levels of a pyramid and the
elements of an object array are given that of the pyramid or the array besides.  What can be created and allocated is told by the
way to an object: nothing for the copy itself, and its number for a level or an element.
-/
namespace Tiovx

/-- `TIVX_PYRAMID_MAX_LEVELS_ORB`. -/
def pyramidMaxLevelsOrb : Nat := 17

/-- The bits of `VX_SCALE_PYRAMID_ORB`. -/
def scalePyramidOrb : UInt32 := 0x3F5744FD

/-- What `ownCreateReference` and `ownObjDescAlloc` give for an object. -/
inductive Grant
  | both
  | noReference
  | noDescriptor
deriving DecidableEq

/-- Whether supplementary data can be created for an object, and be allocated. -/
structure SuppGrant where
  creates : Bool := true
  allocates : Bool := true

/-- What there is for an object, for the supplementary data of its exemplar, and for that of the container it is in. -/
structure Grants where
  own : List Nat → Grant := fun _ => .both
  supplement : List Nat → SuppGrant := fun _ => {}
  container : List Nat → SuppGrant := fun _ => {}

/-- What there is for a level or an element, and for what is in it. -/
def Grants.part (G : Grants) (i : Nat) : Grants :=
  ⟨fun way => G.own (i :: way), fun way => G.supplement (i :: way), fun way => G.container (i :: way)⟩

/-- A reference that is created. -/
inductive MadeReference
  | null
  | error
  | object (x : DataObject)

/-! ### References -/

def suppReferences (supplementary : Option SuppData) : Nat := supplementary.elim 0 (fun _ => 1)

def levelReferences (l : Option LevelImage) : Nat := l.elim 0 (fun L => 1 + suppReferences L.supplementary)

mutual

/-- The references that an object holds: itself, its supplementary data, and what is in it. -/
def DataObject.references : DataObject → Nat
  | .null => 0
  | .element _ supplementary => 1 + suppReferences supplementary
  | .pyramid _ levels supplementary => 1 + suppReferences supplementary + (levels.map levelReferences).sum
  | .objectArray _ items supplementary => 1 + suppReferences supplementary + itemReferences items

def itemReferences : List DataObject → Nat
  | [] => 0
  | x :: xs => x.references + itemReferences xs

end

def MadeReference.references : MadeReference → Nat
  | .object x => x.references
  | _ => 0

/-! ### Supplementary data -/

namespace DataObject

def supplementary : DataObject → Option SuppData
  | null => none
  | element _ s => s
  | pyramid _ _ s => s
  | objectArray _ _ s => s

def setSupplementary : DataObject → Option SuppData → DataObject
  | null, _ => null
  | element d _, s => element d s
  | pyramid P levels _, s => pyramid P levels s
  | objectArray A items _, s => objectArray A items s

end DataObject

/-- `vxSetSupplementaryUserDataObject` of an object that is not in a graph; supplementary data of no bytes is not created. -/
def SuppGrant.vxSetSupplementaryUserDataObject (g : SuppGrant) (destination : Option SuppData) (source : SuppData) :
    Int × Option SuppData :=
  ({ creates := g.creates && source.memSize != 0, allocates := g.allocates } : HostCall).vxExtendSupplementaryUserDataObject
    destination (some source) none source.validMemSize source.validMemSize

/-- The supplementary data of an exemplar or of a container, if there is any, is set on a reference. -/
def MadeReference.supply (r : MadeReference) (g : SuppGrant) (source : Option SuppData) (live : Nat) :
    Int × MadeReference × Nat :=
  match source, r with
  | none, r => (vxSuccess, r, live)
  | some _, .null => (vxErrorInvalidReference, .null, live)
  | some _, .error => (vxErrorNotSupported, .error, live)
  | some source, .object x =>
    let R := g.vxSetSupplementaryUserDataObject x.supplementary source
    (R.1, .object (x.setSupplementary R.2), live + (suppReferences R.2 - suppReferences x.supplementary))

/-! ### Objects without other objects in them -/

def vxCreateArray (itemSizes : Int → UInt64) (itemType : Int) (capacity : UInt64) : Option VxArray :=
  if 0 < capacity ∧ itemSizes itemType ≠ 0 then some (ownInitArrayObject itemSizes itemType capacity false) else none

def ownCreateLutFromExemplar (L : LutDesc) : Option LutDesc := vxCreateLUT L.itemType L.numItems.toUInt64

def ownCreateRemapFromExemplar (R : RemapDesc) : Option RemapDesc :=
  vxCreateRemap R.srcWidth R.srcHeight R.dstWidth R.dstHeight

def ownCreateMatrixFromExemplar (M : MatrixDesc) : Option MatrixDesc :=
  vxCreateMatrix M.dataType M.columns.toUInt64 M.rows.toUInt64

/-- The alignment is set where it is one that `vxSetImageAttribute` takes. -/
def ownCreateImageFromExemplar (d : ImageDesc) (strideYAlignment : UInt32) : Option DataDesc :=
  (vxCreateImage d.width d.height d.format).map (fun e =>
    if strideYAlignment % defaultStrideYMultiple = 0 then .image (e.setAlignment strideYAlignment) strideYAlignment
    else .image e defaultStrideYAlign)

def ownCreateArrayFromExemplar (itemSizes : Int → UInt64) (A : VxArray) : Option VxArray :=
  vxCreateArray itemSizes A.itemType A.capacity.toUInt64

def ownCreateScalarFromExemplar (type : Int) : Option Int := vxCreateScalar type

def ownCreateDistributionFromExemplar (D : DistributionDesc) : Option DistributionDesc :=
  vxCreateDistribution D.numBins.toUInt64 D.offset D.range

def ownCreateThresholdFromExemplar (T : ThresholdDesc) : Option ThresholdDesc := vxCreateThreshold T.type T.dataType

def ownCreateConvolutionFromExemplar (C : ConvolutionDesc) : Option ConvolutionDesc :=
  vxCreateConvolution C.columns.toUInt64 C.rows.toUInt64

def ownCreateTensorFromExemplar (T : TensorDesc) : Option TensorDesc :=
  vxCreateTensor (T.dimensions.map UInt32.toUInt64) T.dataType T.fixedPointPosition

def ownCreateUserDataObjectFromExemplar (D : UserDataObject) : Option UserDataObject :=
  if D.memSize.toUInt64 < 1 then none else some (ownInitUserDataObjectObject D.typeName D.memSize.toUInt64)

def ownCreateRawImageFromExemplar (d : RawImageDesc) : Option RawImageDesc :=
  if ownIsValidCreateParams d.params then some (ownInitRawImage d.params) else none

namespace DataDesc

/-- The descriptor of a copy, unless the attributes are refused. -/
def fromExemplar (itemSizes : Int → UInt64) : DataDesc → Option DataDesc
  | image d a => ownCreateImageFromExemplar d a
  | array A => (ownCreateArrayFromExemplar itemSizes A).map array
  | scalar type _ => (ownCreateScalarFromExemplar type).map (fun type => scalar type 0)
  | matrix M => (ownCreateMatrixFromExemplar M).map matrix
  | distribution D => (ownCreateDistributionFromExemplar D).map distribution
  | convolution C => (ownCreateConvolutionFromExemplar C).map convolution
  | threshold T => (ownCreateThresholdFromExemplar T).map threshold
  | remap R => (ownCreateRemapFromExemplar R).map remap
  | lut L => (ownCreateLutFromExemplar L).map lut
  | tensor T => (ownCreateTensorFromExemplar T).map tensor
  | userDataObject D => (ownCreateUserDataObjectFromExemplar D).map userDataObject
  | rawImage d => (ownCreateRawImageFromExemplar d).map rawImage

/-- What is given for attributes that are refused. -/
def refusal : DataDesc → MadeReference
  | image .. | scalar .. | remap _ | tensor _ | userDataObject _ | rawImage _ => .error
  | _ => .null

/-- What is given without a reference. -/
def unreferenced : DataDesc → MadeReference
  | rawImage _ => .error
  | _ => .null

end DataDesc

/-- The copy of an object without other objects in it; a reference without a descriptor is released again. -/
def createElement (g : Grant) (itemSizes : Int → UInt64) (d : DataDesc) (live : Nat) : MadeReference × Nat :=
  match d.fromExemplar itemSizes, g with
  | none, _ => (d.refusal, live)
  | some _, .noReference => (d.unreferenced, live)
  | some _, .noDescriptor => (.error, live)
  | some e, .both => (.object (.element e none), live + 1)

/-! ### Pyramids -/

section

/- what a scale makes of the width or the height for a level from one on -/
variable (scaled : UInt32 → UInt32 → Nat → UInt32)

/-- The loop of `ownInitPyramid`, from the level `k` on with `n` of them left; on an error the levels before are released. -/
def initLevels (G : Grants) (P : PyramidDesc) : Nat → Nat → List LevelImage → Nat → Option (List LevelImage) × Nat
  | 0, _, levels, live => (some levels, live)
  | n + 1, k, levels, live =>
    match P.level scaled k, (G.part k).own [] with
    | some d, .both => initLevels G P n (k + 1) (levels ++ [⟨d, none⟩]) (live + 1)
    | _, _ => (none, live - levels.length)

/-- The attributes `vxCreatePyramid` takes. -/
def PyramidDesc.isAccepted (P : PyramidDesc) (levels : Nat) : Bool :=
  !(P.width = 0 || P.height = 0 || levels = 0 || !isPyramidScale P.scale || decide (pyramidMaxLevelObjects < levels) ||
    (P.scale = scalePyramidOrb && decide (pyramidMaxLevelsOrb < levels)))

/-- `vxCreatePyramid`: the levels, or the reference that is given instead of the pyramid. -/
def vxCreatePyramid (G : Grants) (P : PyramidDesc) (levels : Nat) (live : Nat) : Except MadeReference (List LevelImage) × Nat :=
  if P.isAccepted levels then
    match G.own [] with
    | .noReference => (.error .null, live)
    | .noDescriptor => (.error .error, live)
    | .both =>
      match initLevels scaled G P levels 0 [] (live + 1) with
      | (some levels, live) => (.ok levels, live)
      | (none, live) => (.error .null, live - 1)
  else (.error .null, live)

end

/-- The loop of `ownCreatePyramidFromExemplar` over the levels, which ends at an error. -/
def supplyLevels (G : Grants) (source : SuppData) : Nat → List LevelImage → Nat → List LevelImage × Nat
  | _, [], live => ([], live)
  | k, L :: levels, live =>
    let R := ((G.part k).container []).vxSetSupplementaryUserDataObject L.supplementary source
    let live := live + (suppReferences R.2 - suppReferences L.supplementary)
    if R.1 = vxSuccess then
      let T := supplyLevels G source (k + 1) levels live
      ({ L with supplementary := R.2 } :: T.1, T.2)
    else ({ L with supplementary := R.2 } :: levels, live)

def ownCreatePyramidFromExemplar (scaled : UInt32 → UInt32 → Nat → UInt32) (G : Grants) (P : PyramidDesc) (levels : Nat)
    (supplementary : Option SuppData) (live : Nat) : MadeReference × Nat :=
  match vxCreatePyramid scaled G P levels live with
  | (.error r, live) => (r, live)
  | (.ok levels, live) =>
    let T :=
      match supplementary with
      | none => (levels, live)
      | some source => supplyLevels G source 0 levels live
    (.object (.pyramid { P with isVirtual := false } (T.1.map some) none), T.2)

/-! ### Object arrays -/

/-- `ownIsValidObjArrayType`. -/
def DataObject.ownIsValidObjArrayType : DataObject → Bool
  | null => false
  | element (.convolution _) _ => false
  | element _ _ => true
  | pyramid .. => true
  | objectArray A _ _ => A.itemType ≠ .objectArray

namespace MadeReference

/-- The loop of `ownInitObjArrayFromList`: whether the last status is a success, and the references that are added.  After a
reference of another type it goes on; what is created in the context is of its scope. -/
def ownInitObjArrayFromList (itemType : Option MetaType) : Bool → List MadeReference → Bool × List DataObject
  | success, [] => (success, [])
  | _, .object y :: list =>
    if y.metaFormat.map MetaFormat.type = itemType then
      let T := ownInitObjArrayFromList itemType true list
      (T.1, y :: T.2)
    else
      let T := ownInitObjArrayFromList itemType false list
      (T.1, .null :: T.2)
  | _, _ :: _ => (false, [])

/-- `tivxCreateObjectArrayFromList`: the type and the elements, or the reference that is given instead of the array. -/
def tivxCreateObjectArrayFromList (g : Grant) (list : List MadeReference) (live : Nat) :
    Except MadeReference (MetaType × List DataObject) × Nat :=
  match list with
  | .object y :: _ =>
    if objectArrayMaxItems < list.length ∨ !y.ownIsValidObjArrayType then (.error .error, live)
    else
      match g with
      | .noReference => (.error .null, live)
      | .noDescriptor => (.error .error, live)
      | .both =>
        match y.metaFormat, ownInitObjArrayFromList (y.metaFormat.map MetaFormat.type) true list with
        | some m, (true, items) => (.ok (m.type, items), live + 1)
        | _, _ => (.error .error, live)
  | _ => (.error .error, live)

end MadeReference

/-- The references of a list are released; those that an array holds are still there. -/
def releaseList : List MadeReference → List DataObject → Nat → Nat
  | [], _, live => live
  | r :: list, [], live => releaseList list [] (live - r.references)
  | r :: list, .null :: items, live => releaseList list items (live - r.references)
  | _ :: list, _ :: items, live => releaseList list items live

/-- The end of `ownCreateObjectArrayFromExemplar`, with the references in `ref_list`: `none` where `is_from_list` is written
through the descriptor of an error object. -/
def objectArrayFromList (g : Grant) (isFromList : Bool) (list : List MadeReference) (live : Nat) :
    Option (MadeReference × Nat) :=
  match MadeReference.tivxCreateObjectArrayFromList g list live with
  | (.error .error, _) => none
  | (.error r, live) => some (r, releaseList list [] live)
  | (.ok (itemType, items), live) =>
    some (.object (.objectArray ⟨itemType, isFromList⟩ items none), releaseList list items live)

/-! ### All types -/

section

variable (scaled : UInt32 → UInt32 → Nat → UInt32) (itemSizes : Int → UInt64)

mutual

/-- `tivxCreateReferenceFromExemplar`, with the number of the references of the context; `none` where `NULL` or an error object is
dereferenced. -/
def tivxCreateReferenceFromExemplar (G : Grants) : DataObject → Nat → Option (MadeReference × Nat)
  | .null, _ => none
  | .element d supplementary, live =>
    let R := createElement (G.own []) itemSizes d live
    some (R.1.supply (G.supplement []) supplementary R.2).2
  | .pyramid P levels supplementary, live =>
    let R := ownCreatePyramidFromExemplar scaled G P levels.length supplementary live
    some (R.1.supply (G.supplement []) supplementary R.2).2
  | .objectArray A items supplementary, live =>
    match refList G supplementary 0 items live with
    | none => none
    | some (list, live) =>
      match objectArrayFromList (G.own []) A.isFromList list live with
      | none => none
      | some (r, live) => some (r.supply (G.supplement []) supplementary live).2

/-- The loop of `ownCreateObjectArrayFromExemplar`, from the element `i` on; after an error the rest of `ref_list` is `NULL`. -/
def refList (G : Grants) (supplementary : Option SuppData) : Nat → List DataObject → Nat → Option (List MadeReference × Nat)
  | _, [], live => some ([], live)
  | i, x :: xs, live =>
    match tivxCreateReferenceFromExemplar (G.part i) x live with
    | none => none
    | some (r, live) =>
      let R := r.supply ((G.part i).container []) supplementary live
      if R.1 = vxSuccess then
        match refList G supplementary (i + 1) xs R.2.2 with
        | none => none
        | some (list, live) => some (R.2.1 :: list, live)
      else some (R.2.1 :: List.replicate xs.length .null, R.2.2)

end

end

end Tiovx
