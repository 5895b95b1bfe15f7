import Tiovx.DataObjects
/-!
# Interchangeable — what equal meta formats say about two objects (`vx_meta_format.c`)

The contents of an object are told by a tree of values, with the dimensions they have and the bytes that a copy or an exchange of
buffers moves.  Objects are interchangeable when these trees are the same.
-/
namespace Tiovx

/-- Contents: values of a type in so many dimensions, with the size of the buffer they are in where they are moved with it, or
parts. -/
inductive ContentTree (τ : Type) where
  | values (type : τ) (extents : List UInt32) (bytes : Option UInt32)
  | parts (type : τ) (extents : List UInt32) (parts : List (ContentTree τ))

def ContentTree.type {τ : Type} : ContentTree τ → τ
  | values type _ _ => type
  | parts type _ _ => type

inductive ContentType
  | missing
  | pixels (format : DfImage)
  | items (type : Int) (size : UInt32)
  | scalar (type : Int)
  | cells (type : Int)
  | bins (offset : Int32) (range : UInt32)
  | coefficients
  | bounds (type dataType : Int)
  | points
  | entries (type : Int)
  | elements (type : TensorDataType)
  | named (typeName : List UInt8)
  | lines (container : Int) (msb : UInt32)
  | exposures (lineInterleaved : Bool)
  | levels (format : DfImage)
  | objects
deriving DecidableEq

def ImagepatchAddressing.extents (addr : ImagepatchAddressing) : List UInt32 := [addr.dimX, addr.dimY, addr.stepX, addr.stepY]

def ImageDesc.contents (d : ImageDesc) : ContentTree ContentType :=
  .parts (.pixels d.format) [d.width, d.height]
    ((List.range d.planes).map (fun p => .values (.pixels d.format) (d.plane p).addr.extents none))

def RawImageDesc.contents (d : RawImageDesc) : ContentTree ContentType :=
  .parts (.exposures d.params.lineInterleaved)
    [d.params.width, d.params.height, d.params.metaHeightBefore, d.params.metaHeightAfter]
    (d.params.formats.map (fun f => .values (.lines f.1 f.2) [d.params.width, d.params.height] none))

namespace DataDesc

def contents (d : DataDesc) : ContentTree ContentType :=
  match d with
  | image I _ => I.contents
  | array A => .values (.items A.itemType A.itemSize) [A.capacity] d.memSize
  | scalar type _ => .values (.scalar type) [] d.memSize
  | matrix M => .values (.cells M.dataType) [M.columns, M.rows] d.memSize
  | distribution D => .values (.bins D.offset D.range) [D.numBins] d.memSize
  | convolution C => .values .coefficients [C.columns, C.rows] d.memSize
  | threshold T => .values (.bounds T.type T.dataType) [] d.memSize
  | remap R => .values .points [R.srcWidth, R.srcHeight, R.dstWidth, R.dstHeight] d.memSize
  | lut L => .values (.entries L.itemType) [L.numItems] d.memSize
  | tensor T => .values (.elements T.dataType) T.dimensions d.memSize
  | userDataObject D => .values (.named D.typeName) [] d.memSize
  | rawImage I => I.contents

/-- The attributes that the contents follow from are the same. -/
def Alike : DataDesc → DataDesc → Prop
  | image d _, image e _ => d.width = e.width ∧ d.height = e.height ∧ d.format = e.format
  | array A, array B => A.itemType = B.itemType ∧ A.itemSize = B.itemSize ∧ A.capacity = B.capacity ∧ A.memSize = B.memSize
  | scalar type _, scalar type' _ => type = type'
  | matrix M, matrix N => M.dataType = N.dataType ∧ M.columns = N.columns ∧ M.rows = N.rows
  | distribution D, distribution E => D.numBins = E.numBins ∧ D.offset = E.offset ∧ D.range = E.range
  | convolution C, convolution D => C.columns = D.columns ∧ C.rows = D.rows
  | threshold T, threshold U => T.type = U.type ∧ T.dataType = U.dataType
  | remap R, remap S =>
    R.srcWidth = S.srcWidth ∧ R.srcHeight = S.srcHeight ∧ R.dstWidth = S.dstWidth ∧ R.dstHeight = S.dstHeight
  | lut L, lut M => L.itemType = M.itemType ∧ L.numItems = M.numItems
  | tensor T, tensor U => T.dataType = U.dataType ∧ T.dimensions = U.dimensions
  | userDataObject D, userDataObject E => D.typeName = E.typeName ∧ D.memSize = E.memSize
  | rawImage d, rawImage e => (DataDesc.rawImage d).metaFormat = (DataDesc.rawImage e).metaFormat
  | _, _ => False

/-- What is not compared is the same: the size of the buffer of an array, and the type of the values a threshold is for. -/
def Agrees : DataDesc → DataDesc → Prop
  | array A, array B => A.memSize = B.memSize
  | threshold T, threshold U => T.dataType = U.dataType
  | _, _ => True

end DataDesc

def levelContents : Option LevelImage → ContentTree ContentType
  | none => .values .missing [] none
  | some L => L.desc.contents

/-- The levels are both missing, or are images of one size and format. -/
def LevelAlike : Option LevelImage → Option LevelImage → Prop
  | none, none => True
  | some L, some M => L.desc.width = M.desc.width ∧ L.desc.height = M.desc.height ∧ L.desc.format = M.desc.format
  | _, _ => False

namespace DataObject

mutual

/-- The contents of an object with those of all objects in it. -/
def contents : DataObject → ContentTree ContentType
  | null => .values .missing [] none
  | element d _ => d.contents
  | pyramid P levels _ => .parts (.levels P.format) [P.width, P.height] (levels.map levelContents)
  | objectArray _ items _ => .parts .objects [] (itemContents items)

def itemContents : List DataObject → List (ContentTree ContentType)
  | [] => []
  | x :: xs => contents x :: itemContents xs

end

/-- `x` and `y` have the same contents but for the values. -/
def Interchangeable (x y : DataObject) : Prop := x.contents = y.contents

mutual

/-- The attributes that the contents follow from are the same, here and in all objects in them. -/
def Alike : DataObject → DataObject → Prop
  | null, null => True
  | element d _, element e _ => d.Alike e
  | pyramid P ls _, pyramid Q ms _ =>
    P.width = Q.width ∧ P.height = Q.height ∧ P.format = Q.format ∧ List.Forall₂ LevelAlike ls ms
  | objectArray _ xs _, objectArray _ ys _ => ItemsAlike xs ys
  | _, _ => False

def ItemsAlike : List DataObject → List DataObject → Prop
  | [], [] => True
  | x :: xs, y :: ys => Alike x y ∧ ItemsAlike xs ys
  | _, _ => False

end

/-- What is not compared is the same: besides what a descriptor has, the levels of virtual pyramids and the objects of object
arrays. -/
def Agrees : DataObject → DataObject → Prop
  | element d _, element e _ => d.Agrees e
  | pyramid P ls _, pyramid Q ms _ => (P.isVirtual = false ∧ Q.isVirtual = false) ∨ List.Forall₂ LevelAlike ls ms
  | objectArray _ xs _, objectArray _ ys _ => ItemsAlike xs ys
  | _, _ => True

end DataObject

/-! ### The contents follow from the attributes -/

namespace ImageDesc

variable {d e : ImageDesc}

theorem ownCreateImageInt_eq {width height : UInt32} {format : DfImage} (h : ownCreateImageInt width height format = some d) :
    d = Tiovx.ownInitImage width height format := by
  unfold ownCreateImageInt at h
  split at h
  · exact (Option.some.inj h).symm
  · cases h

theorem vxCreateImage_eq {width height : UInt32} {format : DfImage} (h : vxCreateImage width height format = some d) :
    d = Tiovx.ownInitImage width height format := by
  unfold vxCreateImage at h
  split at h
  · cases h
  · exact ownCreateImageInt_eq h

/-- Whatever an image is created from, its planes have the dimensions of its size and format. -/
theorem Created.extents (h : d.Created) (p : Nat) :
    (d.plane p).addr.extents = ((Tiovx.ownInitImage d.width d.height d.format).plane p).addr.extents := by
  induction h with
  | @vxCreateImage width height format d h =>
    obtain rfl := vxCreateImage_eq h
    rfl
  | @vxCreateUniformImage width height format value d h =>
    unfold Tiovx.vxCreateUniformImage at h
    split at h
    · cases h
    · obtain rfl := vxCreateImage_eq h
      rfl
  | @vxCreateImageFromHandle color addrs ptrs d h =>
    unfold Tiovx.vxCreateImageFromHandle at h
    split at h
    · cases h
    · obtain ⟨e, he, h⟩ := Option.bind_eq_some_iff.1 h
      obtain rfl := ownCreateImageInt_eq he
      split at h
      · cases h
        rfl
      · cases h
  | @vxCreateImageFromChannel parent d channel hp h ih =>
    unfold Tiovx.vxCreateImageFromChannel at h
    split at h
    · obtain ⟨e, he, rfl⟩ := Option.map_eq_some_iff.1 h
      obtain rfl := ownCreateImageInt_eq he
      rfl
    · cases h
  | @vxCreateImageFromROI parent d rect hp h ih =>
    unfold Tiovx.vxCreateImageFromROI at h
    split at h
    · cases h
    · obtain ⟨e, he, rfl⟩ := Option.map_eq_some_iff.1 h
      obtain rfl := ownCreateImageInt_eq he
      rfl
  | ownInitImage width height format => rfl
  | vxSetImageAttribute alignment h ih => exact ih
  | memory hostPtr h ih => exact ih
  | @swapImage d e hd he hw hh hf ihd ihe =>
    show (e.plane p).addr.extents = ((Tiovx.ownInitImage d.width d.height d.format).plane p).addr.extents
    rw [ihe, hw, hh, hf]

theorem contents_eq_iff (hd : d.Created) (he : e.Created) :
    d.contents = e.contents ↔ d.width = e.width ∧ d.height = e.height ∧ d.format = e.format := by
  constructor
  · intro h
    injection h with hformat hsize
    injection hformat with hformat
    injection hsize with hw hsize
    injection hsize with hh
    exact ⟨hw, hh, hformat⟩
  · rintro ⟨hw, hh, hf⟩
    unfold contents planes
    rw [hw, hh, hf]
    congr 1
    apply List.map_congr_left
    intro p hp
    rw [hd.extents, he.extents, hw, hh, hf]

end ImageDesc

/-- The size of the buffer of a matrix, from its attributes. -/
theorem MatrixDesc.Created.memSize {M : MatrixDesc} (h : M.Created) : M.memSize = M.columns * M.rows * matrixDim M.dataType := by
  cases h with
  | vxCreateMatrix h =>
    unfold Tiovx.vxCreateMatrix at h
    split at h
    · cases h
      rfl
    · cases h
  | vxCreateMatrixFromPattern h =>
    unfold Tiovx.vxCreateMatrixFromPattern at h
    split at h
    · cases h
      rfl
    · cases h

/-- The size of an entry does not depend on the count of those there are. -/
theorem lutDim_eq {dataType : Int} {count : UInt64} (h : lutDim dataType count ≠ 0) :
    lutDim dataType count = lutDim dataType 0 := by
  unfold lutDim at h ⊢
  split
  · rename_i hb
    rw [if_pos hb] at h
    split
    · rfl
    · rename_i hc
      rw [if_neg hc] at h
      exact absurd rfl h
  · rename_i hb
    rw [if_neg hb] at h
    split
    · rename_i hs
      rw [if_pos hs] at h
      split
      · rfl
      · rename_i hc
        rw [if_neg hc] at h
        exact absurd rfl h
    · rfl

theorem vxCreateLUT_memSize {dataType : Int} {count : UInt64} {L : LutDesc} (h : vxCreateLUT dataType count = some L) :
    L.memSize = lutDim L.itemType 0 * L.numItems := by
  unfold vxCreateLUT at h
  split at h
  · rename_i hd
    cases h
    exact congrArg (· * count.toUInt32) (lutDim_eq hd)
  · cases h

theorem vxCreateDistribution_memSize {numBins : UInt64} {offset : Int32} {range : UInt32} {D : DistributionDesc}
    (h : vxCreateDistribution numBins offset range = some D) : D.memSize = D.numBins * 4 := by
  unfold vxCreateDistribution at h
  split at h
  · cases h
    rfl
  · cases h

theorem vxCreateConvolution_memSize {columns rows : UInt64} {C : ConvolutionDesc} (h : vxCreateConvolution columns rows = some C) :
    C.memSize = C.columns * C.rows * 2 := by
  unfold vxCreateConvolution at h
  split at h
  · cases h
    rfl
  · cases h

theorem vxCreateRemap_memSize {w h w' h' : UInt32} {R : RemapDesc} (hr : vxCreateRemap w h w' h' = some R) :
    R.memSize = R.dstWidth * R.dstHeight * 8 := by
  unfold vxCreateRemap at hr
  split at hr
  · cases hr
    rfl
  · cases hr

/-- The contents of a raw image are told by its meta format. -/
theorem RawImageDesc.contents_eq_iff {d e : RawImageDesc} :
    d.contents = e.contents ↔ (DataDesc.rawImage d).metaFormat = (DataDesc.rawImage e).metaFormat := by
  have hlines : ∀ {w h : UInt32}, Function.Injective
      (fun f : Int × UInt32 => (ContentTree.values (.lines f.1 f.2) [w, h] none : ContentTree ContentType)) := by
    intro w h f g hfg
    injection hfg with hf
    injection hf with hc hm
    exact Prod.ext hc hm
  simp only [contents, DataDesc.metaFormat, ContentTree.parts.injEq, ContentType.exposures.injEq, List.cons.injEq,
    MetaFormat.rawImage.injEq, RawImageMeta.mk.injEq, and_true]
  constructor
  · rintro ⟨hl, ⟨hw, hh, hb, ha⟩, hf⟩
    rw [hw, hh] at hf
    exact ⟨hw, hh, hl, List.map_injective_iff.2 hlines hf, hb, ha⟩
  · rintro ⟨hw, hh, hl, hf, hb, ha⟩
    exact ⟨hl, ⟨hw, hh, hb, ha⟩, by rw [hw, hh, hf]⟩

/-- Tensors of one type with the same dimensions have buffers of one size, also where they are of regions. -/
theorem TensorDesc.memSize_eq {T U : TensorDesc} (hT : T.LaidOut) (hU : U.LaidOut) (htype : T.dataType = U.dataType)
    (hdims : T.dimensions = U.dimensions) : T.memSize = U.memSize := by
  apply UInt32.toNat_inj.1
  rw [hT.memSize, hU.memSize, elementSize, elementSize, htype, hdims]

namespace DataDesc

variable {d e : DataDesc}

/-- No descriptor has the contents of a container. -/
theorem type_ne (d : DataDesc) : d.contents.type ≠ .missing ∧ (∀ format, d.contents.type ≠ .levels format) ∧
    d.contents.type ≠ .objects := by
  cases d <;> exact ⟨ContentType.noConfusion, fun _ => ContentType.noConfusion, ContentType.noConfusion⟩

theorem metaFormat_type_ne (d : DataDesc) : d.metaFormat.type ≠ .pyramid ∧ d.metaFormat.type ≠ .objectArray := by
  cases d <;> exact ⟨MetaType.noConfusion, MetaType.noConfusion⟩

theorem alike_of_contents (h : d.contents = e.contents) : d.Alike e := by
  cases d with
  | rawImage d =>
    cases e with
    | rawImage e => exact RawImageDesc.contents_eq_iff.1 h
    | image e =>
      injection h with h
      cases h
    | _ => cases h
  | _ => cases e <;> simp_all [contents, memSize, Alike, ImageDesc.contents, RawImageDesc.contents]

/-- The buffers of objects with the same attributes have the same size, however the objects were created. -/
theorem contents_of_alike (hd : d.Created) (he : e.Created) (h : d.Alike e) : d.contents = e.contents := by
  cases hd with
  | image a hd =>
    cases he with
    | image b he => exact (ImageDesc.contents_eq_iff hd he).2 h
    | _ => exact h.elim
  | array hd =>
    cases he with
    | @array B he =>
      obtain ⟨htype, hsize, hcapacity, hmem⟩ := h
      simp only [contents, memSize]
      rw [htype, hsize, hcapacity, hmem]
    | _ => exact h.elim
  | scalar data hd =>
    cases he with
    | scalar data' he => exact congrArg (fun t => ContentTree.values (ContentType.scalar t) [] none) h
    | _ => exact h.elim
  | matrix hd =>
    cases he with
    | matrix he =>
      obtain ⟨htype, hcolumns, hrows⟩ := h
      simp only [contents, memSize]
      rw [hd.memSize, he.memSize, htype, hcolumns, hrows]
    | _ => exact h.elim
  | distribution hd =>
    cases he with
    | distribution he =>
      obtain ⟨hbins, hoffset, hrange⟩ := h
      simp only [contents, memSize]
      rw [vxCreateDistribution_memSize hd, vxCreateDistribution_memSize he, hbins, hoffset, hrange]
    | _ => exact h.elim
  | convolution scale hd =>
    cases he with
    | convolution scale' he =>
      obtain ⟨hcolumns, hrows⟩ := h
      simp only [contents, memSize]
      dsimp only at hcolumns hrows
      rw [vxCreateConvolution_memSize hd, vxCreateConvolution_memSize he, hcolumns, hrows]
    | _ => exact h.elim
  | threshold hd =>
    cases he with
    | threshold he =>
      obtain ⟨htype, hdata⟩ := h
      dsimp only at htype hdata
      simp only [contents, memSize]
      rw [htype, hdata]
    | _ => exact h.elim
  | remap hd =>
    cases he with
    | remap he =>
      obtain ⟨hsw, hsh, hdw, hdh⟩ := h
      simp only [contents, memSize]
      rw [vxCreateRemap_memSize hd, vxCreateRemap_memSize he, hsw, hsh, hdw, hdh]
    | _ => exact h.elim
  | lut hd =>
    cases he with
    | lut he =>
      obtain ⟨htype, hcount⟩ := h
      simp only [contents, memSize]
      rw [vxCreateLUT_memSize hd, vxCreateLUT_memSize he, htype, hcount]
    | _ => exact h.elim
  | tensor hd =>
    cases he with
    | @tensor U he =>
      obtain ⟨htype, hdims⟩ := h
      simp only [contents, memSize]
      rw [TensorDesc.memSize_eq hd.laidOut he.laidOut htype hdims, htype, hdims]
    | _ => exact h.elim
  | userDataObject typeName size validMemSize buffer =>
    cases he with
    | userDataObject typeName' size' validMemSize' buffer' =>
      obtain ⟨hname, hsize⟩ := h
      simp only [contents, memSize]
      rw [hname, hsize]
    | _ => exact h.elim
  | rawImage hd =>
    cases he with
    | rawImage he => exact RawImageDesc.contents_eq_iff.2 h
    | _ => exact h.elim

theorem contents_eq_iff (hd : d.Created) (he : e.Created) : d.contents = e.contents ↔ d.Alike e :=
  ⟨alike_of_contents, contents_of_alike hd he⟩

theorem vxType_injective {t u : TensorDataType} (h : t.vxType = u.vxType) : t = u := by
  cases t <;> cases u <;> first | rfl | cases h

/-- The dimensions of a tensor that are compared with their strides. -/
theorem dimensions_eq {T U : TensorDesc} (hT : T.LaidOut) (hU : U.LaidOut)
    (h : T.dimensions.zip (T.stride.map Int32.toUInt32) = U.dimensions.zip (U.stride.map Int32.toUInt32)) :
    T.dimensions = U.dimensions := by
  have hfst := congrArg (List.map Prod.fst) h
  rwa [List.map_fst_zip (by rw [List.length_map, hT.lengths]), List.map_fst_zip (by rw [List.length_map, hU.lengths])] at hfst

section

attribute [local simp] metaFormat MetaFormat.compared Alike Agrees

/-- Where the meta formats are equal, the other attributes are the same exactly where those are that are not compared. -/
theorem alike_iff (hd : d.Created) (he : e.Created) (h : d.metaFormat.compared = e.metaFormat.compared) :
    d.Alike e ↔ d.Agrees e := by
  cases hd with
  | tensor hd =>
    cases he with
    | tensor he =>
      simp only [metaFormat, MetaFormat.compared, MetaFormat.tensor.injEq, TensorMeta.mk.injEq] at h
      exact iff_of_true ⟨vxType_injective h.1, dimensions_eq hd.laidOut he.laidOut h.2.2.2.2⟩ trivial
    | _ => cases h
  | rawImage hd =>
    cases he with
    | rawImage he => exact iff_of_true h trivial
    | _ => cases h
  | image a hd => cases he <;> simp_all
  | array hd => cases he <;> simp_all
  | scalar data hd => cases he <;> simp_all
  | matrix hd => cases he <;> simp_all
  | distribution hd => cases he <;> simp_all
  | convolution scale hd => cases he <;> simp_all
  | threshold hd => cases he <;> simp_all
  | remap hd => cases he <;> simp_all
  | lut hd => cases he <;> simp_all
  | userDataObject typeName size validMemSize buffer => cases he <;> simp_all

end

end DataDesc

/-! ### Levels and items -/

theorem levelContents_eq_iff {l m : Option LevelImage} (hl : ∀ L : LevelImage, l = some L → L.desc.Created)
    (hm : ∀ M : LevelImage, m = some M → M.desc.Created) : levelContents l = levelContents m ↔ LevelAlike l m := by
  cases l with
  | none =>
    cases m with
    | none => exact iff_of_true rfl trivial
    | some M => exact iff_of_false (fun h => by cases congrArg ContentTree.type h) id
  | some L =>
    cases m with
    | none => exact iff_of_false (fun h => by cases congrArg ContentTree.type h) id
    | some M => exact ImageDesc.contents_eq_iff (hl L rfl) (hm M rfl)

theorem levels_eq_iff : ∀ {ls ms : List (Option LevelImage)}, (∀ l ∈ ls, ∀ L : LevelImage, l = some L → L.desc.Created) →
    (∀ m ∈ ms, ∀ M : LevelImage, m = some M → M.desc.Created) →
    (ls.map levelContents = ms.map levelContents ↔ List.Forall₂ LevelAlike ls ms)
  | [], [], _, _ => iff_of_true rfl .nil
  | [], _ :: _, _, _ => iff_of_false (fun h => by cases h) (fun h => by cases h)
  | _ :: _, [], _, _ => iff_of_false (fun h => by cases h) (fun h => by cases h)
  | l :: ls, m :: ms, hl, hm => by
    rw [List.map_cons, List.map_cons, List.cons.injEq, List.forall₂_cons,
      levelContents_eq_iff (hl l (List.mem_cons_self ..)) (hm m (List.mem_cons_self ..)),
      levels_eq_iff (fun l h => hl l (List.mem_cons_of_mem _ h)) (fun m h => hm m (List.mem_cons_of_mem _ h))]

section

variable {scaled : UInt32 → UInt32 → Nat → UInt32}

/-- The levels of pyramids that are not virtual are told by their attributes. -/
theorem PyramidDesc.HasLevels.alike {P Q : PyramidDesc} {ls ms : List (Option LevelImage)} (hP : P.HasLevels scaled ls)
    (hQ : Q.HasLevels scaled ms) (hv : P.isVirtual = false ∧ Q.isVirtual = false) (hlen : ls.length = ms.length)
    (hw : P.width = Q.width) (hh : P.height = Q.height) (hf : P.format = Q.format) (hs : P.scale = Q.scale) :
    List.Forall₂ LevelAlike ls ms := by
  apply List.forall₂_iff_get.2
  refine ⟨hlen, fun k hk hk' => ?_⟩
  obtain ⟨d, L, hd, hL, hLw, hLh, hLf⟩ := hP.2 hv.1 k hk
  obtain ⟨e, M, he, hM, hMw, hMh, hMf⟩ := hQ.2 hv.2 k hk'
  have hde : d = e := by
    unfold level at hd he
    rw [hw, hh, hf, hs] at hd
    exact Option.some.inj (hd.symm.trans he)
  rw [List.getElem?_eq_getElem hk] at hL
  rw [List.getElem?_eq_getElem hk'] at hM
  rw [List.get_eq_getElem, List.get_eq_getElem, Option.some.inj hL, Option.some.inj hM]
  exact ⟨hLw.trans (hde ▸ hMw.symm), hLh.trans (hde ▸ hMh.symm), hLf.trans (hde ▸ hMf.symm)⟩

/-- The number of the levels is not truncated. -/
theorem toUInt32_length_inj {m n : Nat} (hm : m ≤ pyramidMaxLevelObjects) (hn : n ≤ pyramidMaxLevelObjects)
    (h : m.toUInt32 = n.toUInt32) : m = n := by
  have hmax : pyramidMaxLevelObjects < UInt32.size := by decide
  have hnat := congrArg UInt32.toNat h
  rwa [Nat.toUInt32_eq, Nat.toUInt32_eq, UInt32.toNat_ofNat_of_lt' (hm.trans_lt hmax),
    UInt32.toNat_ofNat_of_lt' (hn.trans_lt hmax)] at hnat

namespace DataObject

mutual

theorem contents_eq_iff : ∀ {x y : DataObject}, x.Created scaled → y.Created scaled → (x.contents = y.contents ↔ Alike x y)
  | null, y, hx, hy => by
    cases y with
    | null => exact iff_of_true rfl trivial
    | element e t => exact iff_of_false (fun h => e.type_ne.1 (congrArg ContentTree.type h).symm) id
    | pyramid Q ms t => exact iff_of_false (fun h => by cases congrArg ContentTree.type h) id
    | objectArray B ys t => exact iff_of_false (fun h => by cases congrArg ContentTree.type h) id
  | element d s, y, hx, hy => by
    cases y with
    | null => exact iff_of_false (fun h => d.type_ne.1 (congrArg ContentTree.type h)) id
    | element e t =>
      cases hx with
      | element _ hd =>
        cases hy with
        | element _ he => exact DataDesc.contents_eq_iff hd he
    | pyramid Q ms t => exact iff_of_false (fun h => d.type_ne.2.1 Q.format (congrArg ContentTree.type h)) id
    | objectArray B ys t => exact iff_of_false (fun h => d.type_ne.2.2 (congrArg ContentTree.type h)) id
  | pyramid P ls s, y, hx, hy => by
    cases y with
    | null => exact iff_of_false (fun h => by cases congrArg ContentTree.type h) id
    | element e t => exact iff_of_false (fun h => e.type_ne.2.1 P.format (congrArg ContentTree.type h).symm) id
    | pyramid Q ms t =>
      cases hx with
      | pyramid _ _ _ _ hP =>
        cases hy with
        | pyramid _ _ _ _ hQ =>
          rw [contents, contents, Alike, ContentTree.parts.injEq, ContentType.levels.injEq, List.cons.injEq, List.cons.injEq,
            levels_eq_iff hP.1 hQ.1]
          tauto
    | objectArray B ys t => exact iff_of_false (fun h => by cases congrArg ContentTree.type h) id
  | objectArray A xs s, y, hx, hy => by
    cases y with
    | null => exact iff_of_false (fun h => by cases congrArg ContentTree.type h) id
    | element e t => exact iff_of_false (fun h => e.type_ne.2.2 (congrArg ContentTree.type h).symm) id
    | pyramid Q ms t => exact iff_of_false (fun h => by cases congrArg ContentTree.type h) id
    | objectArray B ys t =>
      cases hx with
      | objectArray _ _ _ hxs _ =>
        cases hy with
        | objectArray _ _ _ hys _ =>
          rw [contents, contents, Alike, ← itemContents_eq_iff hxs hys, ContentTree.parts.injEq]
          exact ⟨fun h => h.2.2, fun h => ⟨rfl, rfl, h⟩⟩

theorem itemContents_eq_iff : ∀ {xs ys : List DataObject}, (∀ x ∈ xs, x.Created scaled) → (∀ y ∈ ys, y.Created scaled) →
    (itemContents xs = itemContents ys ↔ ItemsAlike xs ys)
  | [], [], _, _ => iff_of_true rfl trivial
  | [], _ :: _, _, _ => iff_of_false (fun h => by cases h) id
  | _ :: _, [], _, _ => iff_of_false (fun h => by cases h) id
  | x :: xs, y :: ys, hx, hy => by
    rw [itemContents, itemContents, List.cons.injEq, ItemsAlike,
      contents_eq_iff (hx x (List.mem_cons_self ..)) (hy y (List.mem_cons_self ..)),
      itemContents_eq_iff (fun x h => hx x (List.mem_cons_of_mem _ h)) (fun y h => hy y (List.mem_cons_of_mem _ h))]

end

/-! ### What equal meta formats say -/

variable {x y z : DataObject}

theorem isMetaFormatEqual_iff : x.isMetaFormatEqual y = true ↔
    ∃ m n, x.metaFormat = some m ∧ y.metaFormat = some n ∧ m.compared = n.compared ∧ m.hasNumber = true := by
  unfold isMetaFormatEqual
  constructor
  · intro h
    split at h
    · rename_i m n hm hn
      rw [Bool.and_eq_true, MetaFormat.ownIsMetaFormatEqual_iff] at h
      exact ⟨m, n, hm, hn, h⟩
    · cases h
  · rintro ⟨m, n, hm, hn, h⟩
    rw [hm, hn]
    show (m.ownIsMetaFormatEqual n && m.hasNumber) = true
    rwa [Bool.and_eq_true, MetaFormat.ownIsMetaFormatEqual_iff]

theorem hasNumber_compared {m : MetaFormat} : m.compared.hasNumber = m.hasNumber := by
  cases m <;> rfl

theorem hasNumber_iff {m : MetaFormat} (h : x.metaFormat = some m) : m.hasNumber = true ↔ x.HasNumber := by
  cases x with
  | null => cases h
  | element d s =>
    obtain rfl := Option.some.inj h
    cases d <;> exact iff_of_true rfl trivial
  | pyramid P ls s =>
    obtain rfl := Option.some.inj h
    exact Iff.rfl
  | objectArray A xs s =>
    obtain rfl := Option.some.inj h
    exact iff_of_true rfl trivial

theorem isMetaFormatEqual_self : x.isMetaFormatEqual x = true ↔ x ≠ .null ∧ x.HasNumber := by
  rw [isMetaFormatEqual_iff]
  constructor
  · rintro ⟨m, -, hm, -, -, h⟩
    refine ⟨?_, (hasNumber_iff hm).1 h⟩
    rintro rfl
    cases hm
  · rintro ⟨hne, h⟩
    cases hm : x.metaFormat with
    | none =>
      cases x with
      | null => exact absurd rfl hne
      | _ => cases hm
    | some m => exact ⟨m, m, rfl, rfl, rfl, (hasNumber_iff hm).2 h⟩

theorem isMetaFormatEqual_symm (h : x.isMetaFormatEqual y = true) : y.isMetaFormatEqual x = true := by
  obtain ⟨m, n, hm, hn, hc, h⟩ := isMetaFormatEqual_iff.1 h
  refine isMetaFormatEqual_iff.2 ⟨n, m, hn, hm, hc.symm, ?_⟩
  rwa [← hasNumber_compared, ← hc, hasNumber_compared]

theorem isMetaFormatEqual_trans (h : x.isMetaFormatEqual y = true) (h' : y.isMetaFormatEqual z = true) :
    x.isMetaFormatEqual z = true := by
  obtain ⟨m, n, hm, hn, hc, hx⟩ := isMetaFormatEqual_iff.1 h
  obtain ⟨n', k, hn', hk, hc', -⟩ := isMetaFormatEqual_iff.1 h'
  obtain rfl := Option.some.inj (hn.symm.trans hn')
  exact isMetaFormatEqual_iff.2 ⟨m, k, hm, hk, hc.trans hc', hx⟩

/-- Equal meta formats are of one type. -/
theorem type_eq_of_compared {m n : MetaFormat} (h : m.compared = n.compared) : m.type = n.type := by
  rw [← MetaFormat.type_compared, h, MetaFormat.type_compared]

/-- Where the meta formats of two objects are equal, they are alike exactly where they agree in what is not compared. -/
theorem alike_iff (hx : x.Created scaled) (hy : y.Created scaled) (h : x.isMetaFormatEqual y = true) :
    Alike x y ↔ x.Agrees y := by
  obtain ⟨m, n, hm, hn, hc, -⟩ := isMetaFormatEqual_iff.1 h
  have htype := type_eq_of_compared hc
  cases hx with
  | null => cases hm
  | @element d s hd =>
    obtain rfl := Option.some.inj hm
    cases hy with
    | null => cases hn
    | @element e t he =>
      obtain rfl := Option.some.inj hn
      exact DataDesc.alike_iff hd he hc
    | pyramid =>
      obtain rfl := Option.some.inj hn
      exact absurd htype d.metaFormat_type_ne.1
    | objectArray =>
      obtain rfl := Option.some.inj hn
      exact absurd htype d.metaFormat_type_ne.2
  | @pyramid P ls s _ hle _ hP =>
    obtain rfl := Option.some.inj hm
    cases hy with
    | null => cases hn
    | @element e t he =>
      obtain rfl := Option.some.inj hn
      exact absurd htype.symm e.metaFormat_type_ne.1
    | @pyramid Q ms t _ hle' _ hQ =>
      obtain rfl := Option.some.inj hn
      simp only [MetaFormat.compared, MetaFormat.pyramid.injEq, PyramidMeta.mk.injEq] at hc
      obtain ⟨hw, hh, hf, hlevels, hs⟩ := hc
      have hlen : ls.length = ms.length := toUInt32_length_inj hle hle' hlevels
      constructor
      · rintro ⟨-, -, -, h⟩
        exact .inr h
      · rintro (hv | h)
        · exact ⟨hw, hh, hf, hP.alike hQ hv hlen hw hh hf hs⟩
        · exact ⟨hw, hh, hf, h⟩
    | objectArray =>
      obtain rfl := Option.some.inj hn
      cases htype
  | objectArray =>
    obtain rfl := Option.some.inj hm
    cases hy with
    | null => cases hn
    | @element e t he =>
      obtain rfl := Option.some.inj hn
      exact absurd htype.symm e.metaFormat_type_ne.2
    | pyramid =>
      obtain rfl := Option.some.inj hn
      cases htype
    | objectArray => exact Iff.rfl

/-- Objects with equal meta formats are interchangeable exactly where they agree in what is not compared.  The meta format of an
object is equal to itself unless the scale of a pyramid is no number, and the relation is symmetric and transitive. -/
theorem interchangeable_iff (hx : x.Created scaled) (hy : y.Created scaled) (z : DataObject) :
    (x.isMetaFormatEqual y = true → (x.Interchangeable y ↔ x.Agrees y)) ∧
      (x.isMetaFormatEqual x = true ↔ x ≠ .null ∧ x.HasNumber) ∧
      (x.isMetaFormatEqual y = true → y.isMetaFormatEqual x = true) ∧
      (x.isMetaFormatEqual y = true → y.isMetaFormatEqual z = true → x.isMetaFormatEqual z = true) := by
  refine ⟨fun h => ?_, isMetaFormatEqual_self, isMetaFormatEqual_symm, isMetaFormatEqual_trans⟩
  unfold Interchangeable
  rw [contents_eq_iff hx hy]
  exact alike_iff hx hy h

end DataObject

end

namespace DataObject

/-- An image of bytes. -/
def imageObject (width height : UInt32) : DataObject := .element (.image (ownInitImage width height .u8) defaultStrideYAlign) none

/-- An object array of two images. -/
def imageArray (width height : UInt32) : DataObject :=
  .objectArray ⟨.image, false⟩ [imageObject width height, imageObject width height] none

def thresholdObject (dataType : Int) : DataObject := .element (.threshold ⟨thresholdTypeBinary, dataType⟩) none

/-- An array of bytes, before and after a copy to it from one with another capacity is validated. -/
def byteArray (capacity memSize : UInt32) : DataObject :=
  .element (.array ⟨vxTypeUint8, 1, 0, capacity, memSize, 0, false⟩) none

/-- A pyramid of one level with a scale that is no number. -/
def nanPyramid : DataObject := .pyramid ⟨64, 48, .u8, 0x7FC00000, false⟩ [some ⟨ownInitImage 64 48 .u8, none⟩] none

/-- What a scale of one half makes of a size. -/
def halved (_ size : UInt32) (k : Nat) : UInt32 := UInt32.ofNat ((size.toNat + 2 ^ k - 1) / 2 ^ k)

theorem created_imageObject {width height : UInt32} : (imageObject width height).Created halved :=
  .element none (.image _ (.ownInitImage width height .u8))

theorem created_imageArray {width height : UInt32} : (imageArray width height).Created halved := by
  have hitems : ∀ x ∈ [imageObject width height, imageObject width height], x = imageObject width height := by
    intro x hx
    rcases List.mem_cons.1 hx with hx | hx
    · exact hx
    · exact List.mem_singleton.1 hx
  refine .objectArray none Nat.two_pos (show 2 ≤ objectArrayMaxItems by decide) (fun x hx => ?_) (fun x hx m hm => ?_)
  · rw [hitems x hx]
    exact created_imageObject
  · rw [hitems x hx] at hm
    obtain rfl := Option.some.inj hm
    exact ⟨rfl, fun q hq => by cases hq⟩

theorem created_thresholdObject {dataType : Int} (h : dataType ≠ 0x8 ∧ dataType ≠ 0x9) :
    (thresholdObject dataType).Created halved :=
  .element none (.threshold (if_pos ⟨.inl rfl, h⟩ : vxCreateThreshold thresholdTypeBinary dataType = some _))

/-- The array has its capacity from another one. -/
theorem created_byteArray : (byteArray 5 10).Created halved := by
  have harray : ∀ capacity : UInt64, VxArray.Created (ownInitArrayObject (fun _ => 1) vxTypeUint8 capacity false) :=
    fun capacity => .ownInitArrayObject _ _ capacity false
  exact .element none (.array (.isArrayCopyable (harray 5) (harray 10) (rfl : ArrayContext.isArrayCopyable 0 1 _ _ = some _)))

theorem created_nanPyramid : nanPyramid.Created halved := by
  refine .pyramid none Nat.one_pos (by decide) rfl ⟨fun l hl L hL => ?_, fun _ k hk => ?_⟩
  · obtain rfl := List.mem_singleton.1 hl
    obtain rfl := Option.some.inj hL
    exact .ownInitImage 64 48 .u8
  · obtain rfl : k = 0 := Nat.lt_one_iff.1 hk
    exact ⟨_, _, rfl, rfl, rfl, rfl, rfl⟩

/-- Images of one size and format are interchangeable when their lines are aligned differently. -/
theorem alignedImages_interchangeable :
    (imageObject 640 480).Interchangeable (.element (.image ((ownInitImage 640 480 .u8).setAlignment 64) 64) none) :=
  ((interchangeable_iff created_imageObject (.element none (.image _ (.vxSetImageAttribute 64 (.ownInitImage 640 480 .u8))))
    .null).1 (by decide)).2 trivial

/-- The meta formats are equal of object arrays whose images are not of one size, of thresholds for values of two types, and of
arrays one of which has been given a smaller capacity, and that of a pyramid is not equal to itself. -/
theorem equalFormats_wrong :
    ((imageArray 64 48).Created halved ∧ (imageArray 128 96).Created halved ∧
      (imageArray 64 48).isMetaFormatEqual (imageArray 128 96) = true ∧
      ¬ (imageArray 64 48).Interchangeable (imageArray 128 96)) ∧
    ((thresholdObject 0x3).Created halved ∧ (thresholdObject 0x4).Created halved ∧
      (thresholdObject 0x3).isMetaFormatEqual (thresholdObject 0x4) = true ∧
      ¬ (thresholdObject 0x3).Interchangeable (thresholdObject 0x4)) ∧
    ((byteArray 5 5).Created halved ∧ (byteArray 5 10).Created halved ∧
      (byteArray 5 5).isMetaFormatEqual (byteArray 5 10) = true ∧ ¬ (byteArray 5 5).Interchangeable (byteArray 5 10)) ∧
    (nanPyramid.Created halved ∧ nanPyramid.isMetaFormatEqual nanPyramid = false) := by
  have htype : ∀ {dataType : Int}, dataType ≠ 0x8 ∧ dataType ≠ 0x9 → (thresholdObject dataType).Created halved :=
    created_thresholdObject
  have hsmall : (byteArray 5 5).Created halved :=
    .element none (.array (.ownInitArrayObject (fun _ => 1) vxTypeUint8 5 false))
  refine ⟨⟨created_imageArray, created_imageArray, by decide, fun h => ?_⟩,
    ⟨htype (by decide), htype (by decide), by decide, fun h => ?_⟩, ⟨hsmall, created_byteArray, by decide, fun h => ?_⟩,
    created_nanPyramid, by decide⟩
  · have hwidth : (64 : UInt32) = 128 := ((contents_eq_iff created_imageArray created_imageArray).1 h).1.1
    exact absurd hwidth (by decide)
  · have hdata : (0x3 : Int) = 0x4 := ((contents_eq_iff (htype (by decide)) (htype (by decide))).1 h).2
    exact absurd hdata (by decide)
  · have hsize : (5 : UInt32) = 10 := ((contents_eq_iff hsmall created_byteArray).1 h).2.2.2
    exact absurd hsize (by decide)

end DataObject

end Tiovx
