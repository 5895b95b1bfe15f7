import Tiovx.Lib.Run
import Tiovx.PatchAccess
/-!
# MapSlots — the maps of an image, a tensor, an array or a user data object (`vx_image.c`, `vx_tensor.c`, `vx_array.c`,
`vx_user_data_object.c`)

Each object has a table of slots.  A map takes the first that is free, hands a range of memory to `tivxMemBufferMap` and gives
the user a pointer; the unmap computes the range for `tivxMemBufferUnmap` from what the slot has kept.  The calls are those on
one object, which is valid and accessible.
-/
namespace Tiovx

open StepSystem

/-- `TIVX_IMAGE_MAX_MAPS`, `TIVX_TENSOR_MAX_MAPS`, `TIVX_ARRAY_MAX_MAPS` and `TIVX_USER_DATA_OBJECT_MAX_MAPS`. -/
def maxMaps : Nat := 16

/-- `TIVX_DATA_BUFFER_ALIGNMENT`. -/
def dataBufferAlignment : Nat := 128

/-- `TIVX_FLOOR` to the alignment of buffers. -/
def bufferFloor (a : Nat) : Nat := a / dataBufferAlignment * dataBufferAlignment

/-- `TIVX_ALIGN` to the alignment of buffers. -/
def bufferAlign (a : Nat) : Nat := (a + (dataBufferAlignment - 1)) / dataBufferAlignment * dataBufferAlignment

/-- What `tivxMemBufferMap` and `tivxMemBufferUnmap` are given. -/
structure MapRange where
  start : Nat
  size : UInt32
deriving DecidableEq

/-- `tivxMemBufferMap` and `tivxMemBufferUnmap` refuse a null pointer and no bytes. -/
def MapRange.isMappable (r : MapRange) : Bool := r.start != 0 && r.size != 0

/-- What a slot of `maps` keeps of its range. -/
structure MapSlot where
  mapAddr : Nat := 0
  mapSize : Nat := 0
deriving DecidableEq

/-- A tensor whose memory is allocated, as a map reads it. -/
structure MapTensor where
  hostPtr : Nat
  memSize : UInt32
  dimensions : List UInt32
  stride : List Int32

/-- A user data object whose memory is allocated. -/
structure MapUserData where
  hostPtr : Nat
  memSize : UInt32

/-- An array whose memory is allocated. -/
structure MapArray where
  hostPtr : Nat
  itemSize : UInt32
  numItems : UInt32

/-- The arguments of a map, with the object as it is at the call; `pointers` is whether `map_id` and `ptr` of an array are not
`NULL`.  A call whose object is invalid or cannot be allocated, or whose pointers the other types refuse, is `refused`. -/
inductive MapRequest
  | image (I : PatchImage) (rect : VxRectangle) (planeIndex : Nat) (usage : AccessUsage)
  | tensor (T : MapTensor) (viewStart viewEnd : List UInt64)
  | userDataObject (D : MapUserData) (offset size : UInt64)
  | array (A : MapArray) (rangeStart rangeEnd : UInt64) (pointers : Bool)
  | refused

inductive MapKind
  | image
  | tensor
  | userDataObject
  | array
deriving DecidableEq

/-- `ownTensorCheckSizes`; the dimensions a tensor does not have are zero. -/
def ownTensorCheckSizes : List UInt32 → List UInt64 → List UInt64 → Bool
  | d :: ds, a :: as, b :: bs => !(b ≤ a || d.toUInt64 < b) && ownTensorCheckSizes ds as bs
  | _, [], _ => true
  | _, _, [] => true
  | [], _ :: _, _ :: _ => false

/-- `ownComputePatchOffset` of a tensor. -/
def ownComputeTensorOffset : List UInt64 → List Int32 → UInt32
  | x :: xs, s :: ss => s.toUInt32 * x.toUInt32 + ownComputeTensorOffset xs ss
  | _, _ => 0

namespace MapRequest

def isOf (K : MapKind) : MapRequest → Bool
  | .image .. => K = .image
  | .tensor .. => K = .tensor
  | .userDataObject .. => K = .userDataObject
  | .array .. => K = .array
  | .refused => true

/-- `vxMapImagePatch`, `tivxMapTensorPatch`, `vxMapUserDataObject` and `vxMapArrayRange` up to the search for a slot: what the slot
keeps, and the range that is mapped. -/
def taken : MapRequest → Option (MapSlot × MapRange)
  | .image I rect p usage =>
    match { I with hasFreeMap := true }.vxMapImagePatch rect p usage with
    | .error _ => none
    | .ok _ =>
      let q := I.desc.plane p
      -- the size is counted from the address itself, the range starts below it
      some (⟨q.hostPtr, q.memSize.toNat⟩,
        ⟨bufferFloor q.hostPtr, (bufferAlign (q.hostPtr + q.memSize.toNat) - q.hostPtr).toUInt32⟩)
  | .tensor T viewStart viewEnd =>
    if ownTensorCheckSizes T.dimensions viewStart viewEnd && T.hostPtr != 0 then
      some (⟨T.hostPtr, T.memSize.toNat⟩,
        ⟨bufferFloor T.hostPtr, (bufferAlign (T.hostPtr + T.memSize.toNat) - T.hostPtr).toUInt32⟩)
    else none
  | .userDataObject D offset size =>
    if offset + size > D.memSize.toUInt64 then none
    else
      let mapAddr := (D.hostPtr + offset.toNat) % 2 ^ 64
      let mapSize := if size > 0 then size.toUInt32 else D.memSize - offset.toUInt32
      some (⟨mapAddr, mapSize.toNat⟩, ⟨mapAddr, mapSize⟩)
  | .array A rangeStart rangeEnd pointers =>
    if rangeEnd > rangeStart && rangeEnd ≤ A.numItems.toUInt64 && A.hostPtr != 0 && pointers then
      let mapAddr := A.hostPtr + rangeStart.toNat * A.itemSize.toNat
      let mapSize := (rangeEnd.toUInt32 - rangeStart.toUInt32).toNat * A.itemSize.toNat
      some (⟨mapAddr, mapSize⟩, ⟨mapAddr, mapSize.toUInt32⟩)
    else none
  | .refused => none

end MapRequest

/-- The range an unmap computes from a slot. -/
def MapSlot.unmapRange (K : MapKind) (m : MapSlot) : MapRange :=
  if K = .array then ⟨m.mapAddr, m.mapSize.toUInt32⟩
  else ⟨bufferFloor m.mapAddr, (bufferAlign (m.mapAddr + m.mapSize) - bufferFloor m.mapAddr).toUInt32⟩

/-- The slots, and a record of the maps that are not unmapped yet, with their ids. -/
structure MapTable where
  slots : Nat → MapSlot := fun _ => {}
  outstanding : List (Nat × MapRequest) := []

namespace MapTable

/-- The first slot whose address is null. -/
def freeSlot (s : MapTable) : Option Nat := (List.range maxMaps).find? (fun i => (s.slots i).mapAddr = 0)

/-- A map call.  The slot is taken before the range is mapped, whatever `tivxMemBufferMap` returns. -/
def map (s : MapTable) (rq : MapRequest) : MapTable :=
  match rq.taken with
  | none => s
  | some (slot, range) =>
    match s.freeSlot with
    | none => s
    | some i =>
      { slots := Function.update s.slots i slot
        outstanding := if range.isMappable then (i, rq) :: s.outstanding else s.outstanding }

/-- The condition of `vxUnmapImagePatch` and the others on the map id. -/
def isMapped (s : MapTable) (id : Nat) : Bool :=
  decide (id < maxMaps) && (s.slots id).mapAddr != 0 && (s.slots id).mapSize != 0

/-- An unmap call; an array clears the size as well. -/
def unmap (K : MapKind) (s : MapTable) (id : Nat) : MapTable :=
  if s.isMapped id then
    { slots := Function.update s.slots id ⟨0, if K = .array then 0 else (s.slots id).mapSize⟩
      outstanding := s.outstanding.filter (fun o => o.1 ≠ id) }
  else s

/-- The status of an unmap call is success. -/
def unmaps (K : MapKind) (s : MapTable) (id : Nat) : Bool := s.isMapped id && ((s.slots id).unmapRange K).isMappable

end MapTable

inductive MapAction
  | map (rq : MapRequest)
  | unmap (id : Nat)

/-- One call on an object of the kind `K`. -/
def mapStep (K : MapKind) (s : MapTable) : MapAction → Option MapTable
  | .map rq => if rq.isOf K then some (s.map rq) else none
  | .unmap id => some (s.unmap K id)

/-- The places of the elements of a view. -/
inductive ViewPlace : List Int32 → List UInt64 → List UInt64 → Int → Prop
  | nil (ss : List Int32) (bs : List UInt64) : ViewPlace ss [] bs 0
  | cons {s : Int32} {ss : List Int32} {a b : UInt64} {as bs : List UInt64} {j : Nat} {x : Int} :
      j < (b - a).toNat → ViewPlace ss as bs x → ViewPlace (s :: ss) (a :: as) (b :: bs) (s.toInt * j + x)

/-- The bytes that a map gives access to: the samples of the pixels of the patch, the elements of the view, the bytes asked for,
the items of the range. -/
def MapRequest.Access : MapRequest → Int → Prop
  | .image I rect p usage, a => ∃ addr ptr, { I with hasFreeMap := true }.vxMapImagePatch rect p usage = .ok (addr, ptr) ∧
    ∃ x y, x < rect.width ∧ y < rect.height ∧ vxFormatImagePatchAddress2d ptr x y addr ≠ 0 ∧
      vxFormatImagePatchAddress2d ptr x y addr ≤ a ∧ a < vxFormatImagePatchAddress2d ptr x y addr + addr.sampleBytes
  | .tensor T viewStart viewEnd, a => ∃ x, ViewPlace T.stride viewStart viewEnd x ∧
    T.hostPtr + (ownComputeTensorOffset viewStart T.stride).toNat + x ≤ a ∧
      a < T.hostPtr + (ownComputeTensorOffset viewStart T.stride).toNat + x + (T.stride.headD 0).toInt
  | .userDataObject D offset size, a => ((D.hostPtr + offset.toNat) % 2 ^ 64 : Nat) ≤ a ∧
    a < ((D.hostPtr + offset.toNat) % 2 ^ 64 : Nat) + (if size > 0 then size.toNat else D.memSize.toNat - offset.toNat : Nat)
  | .array A rangeStart rangeEnd _, a => A.hostPtr + rangeStart.toNat * A.itemSize.toNat ≤ a ∧
    a < A.hostPtr + rangeEnd.toNat * A.itemSize.toNat
  | .refused, _ => False

/-- **The maps are right**: the slots in use are those of the outstanding maps, one each, and these are the ids that can be
unmapped; an unmap passes the range that was mapped, and this contains the bytes the map gives access to. -/
structure MapsOk (K : MapKind) (s : MapTable) : Prop where
  oneEach : (s.outstanding.map Prod.fst).Nodup
  inUse : ∀ id, (s.slots id).mapAddr ≠ 0 ↔ id ∈ s.outstanding.map Prod.fst
  releases : ∀ id, s.unmaps K id = true ↔ id ∈ s.outstanding.map Prod.fst
  ranges : ∀ id rq, (id, rq) ∈ s.outstanding → ∃ slot, rq.taken = some (slot, (s.slots id).unmapRange K)
  covers : ∀ id rq, (id, rq) ∈ s.outstanding → ∀ a, rq.Access a →
    ((s.slots id).unmapRange K).start ≤ a ∧ a < ((s.slots id).unmapRange K).start + ((s.slots id).unmapRange K).size.toNat

/-! ## When the maps are right -/

/-- The place of the last element of a view. -/
def lastPlace : List Int32 → List UInt64 → List UInt64 → Int
  | s :: ss, a :: as, b :: bs => s.toInt * ((b - a).toNat - 1 : Nat) + lastPlace ss as bs
  | _, _, _ => 0

/-- Memory that begins at a multiple of the alignment, has bytes, and is less than 2^32 bytes with the rest of its last unit. -/
def bufferFits (hostPtr : Nat) (memSize : UInt32) : Bool :=
  hostPtr % dataBufferAlignment = 0 && memSize != 0 && bufferAlign (hostPtr + memSize.toNat) - hostPtr < 2 ^ 32

/-- Where a call maps a range: an image and a tensor have aligned memory that the patch or view ends in; a user data object is
mapped from a multiple of the alignment to another, at an offset and a size that do not wrap around; the bytes of the items of an
array can be counted in 32 bits. -/
def MapRequest.fits : MapRequest → Bool
  | .image I rect p usage =>
    match { I with hasFreeMap := true }.vxMapImagePatch rect p usage with
    | .error _ => true
    | .ok (addr, ptr) =>
      let q := I.desc.plane p
      let last := addr.offset (rect.width.toNat - 1) (rect.height.toNat - 1)
      bufferFits q.hostPtr q.memSize && (ptr = 0 ||
        (addr.strideX != 0 || 12 * ((rect.width.toNat - 1) / addr.stepX.toNat) < 2 ^ 32) && last < 2 ^ 32 &&
          ptr + last + addr.sampleBytes ≤ bufferAlign (q.hostPtr + q.memSize.toNat))
  | .tensor T viewStart viewEnd =>
    !(ownTensorCheckSizes T.dimensions viewStart viewEnd && T.hostPtr != 0) ||
      bufferFits T.hostPtr T.memSize && T.stride.all (fun s => 0 ≤ s.toInt) &&
        T.hostPtr + (ownComputeTensorOffset viewStart T.stride).toNat + lastPlace T.stride viewStart viewEnd +
          (T.stride.headD 0).toInt ≤ bufferAlign (T.hostPtr + T.memSize.toNat)
  | .userDataObject D offset size =>
    let mapAddr := (D.hostPtr + offset.toNat) % 2 ^ 64
    let mapSize := if size > 0 then size.toNat else D.memSize.toNat - offset.toNat
    decide (offset + size > D.memSize.toUInt64) ||
      mapAddr != 0 && mapAddr % dataBufferAlignment = 0 && mapSize != 0 && mapSize % dataBufferAlignment = 0 &&
        offset.toNat + size.toNat < 2 ^ 64
  | .array A rangeStart rangeEnd pointers =>
    !(rangeEnd > rangeStart && rangeEnd ≤ A.numItems.toUInt64 && A.hostPtr != 0 && pointers) ||
      A.itemSize != 0 && (rangeEnd.toNat - rangeStart.toNat) * A.itemSize.toNat < 2 ^ 32
  | .refused => true

/-- A call that maps a range fits, unless there is no slot for it. -/
def mapsFit (s : MapTable) : MapAction → Bool
  | .map rq => s.freeSlot.isNone || rq.fits
  | .unmap _ => true

theorem bufferFloor_of_aligned {a : Nat} (h : a % dataBufferAlignment = 0) : bufferFloor a = a :=
  Nat.div_mul_cancel (Nat.dvd_of_mod_eq_zero h)

theorem bufferAlign_of_aligned {a : Nat} (h : a % dataBufferAlignment = 0) : bufferAlign a = a := by
  unfold bufferAlign dataBufferAlignment at *
  omega

theorem le_bufferAlign (a : Nat) : a ≤ bufferAlign a := by
  unfold bufferAlign dataBufferAlignment
  omega

/-- What a call does that maps a range: an unmap of its slot passes the same range. -/
structure MapsRange (K : MapKind) (rq : MapRequest) (slot : MapSlot) (range : MapRange) : Prop where
  addr : slot.mapAddr ≠ 0
  size : slot.mapSize ≠ 0
  mappable : range.isMappable = true
  unmapRange : slot.unmapRange K = range
  covers : ∀ a, rq.Access a → range.start ≤ a ∧ a < range.start + range.size.toNat

/-- The memory of an image or a tensor is mapped whole. -/
theorem mapsRange_of_buffer {K : MapKind} {rq : MapRequest} {hostPtr : Nat} {memSize : UInt32} (hK : K ≠ .array)
    (h0 : hostPtr ≠ 0) (h : bufferFits hostPtr memSize = true)
    (hcov : ∀ a, rq.Access a → (hostPtr : Int) ≤ a ∧ a < bufferAlign (hostPtr + memSize.toNat)) :
    MapsRange K rq ⟨hostPtr, memSize.toNat⟩
      ⟨bufferFloor hostPtr, (bufferAlign (hostPtr + memSize.toNat) - hostPtr).toUInt32⟩ := by
  simp only [bufferFits, Bool.and_eq_true, decide_eq_true_eq, bne_iff_ne] at h
  obtain ⟨⟨hal, hne⟩, hlt⟩ := h
  have hfloor := bufferFloor_of_aligned hal
  have hle := le_bufferAlign (hostPtr + memSize.toNat)
  have hpos : memSize.toNat ≠ 0 := fun h => hne (UInt32.toNat_inj.1 h)
  have hsize : (bufferAlign (hostPtr + memSize.toNat) - hostPtr).toUInt32.toNat =
      bufferAlign (hostPtr + memSize.toNat) - hostPtr := UInt32.toNat_ofNat_of_lt hlt
  refine ⟨h0, hpos, ?_, ?_, fun a ha => ?_⟩
  · have hs : (bufferAlign (hostPtr + memSize.toNat) - hostPtr).toUInt32 ≠ 0 := by
      intro hz
      rw [hz] at hsize
      have : (0 : UInt32).toNat = 0 := rfl
      omega
    simp [MapRange.isMappable, hfloor, h0, hs]
  · simp only [MapSlot.unmapRange, if_neg hK, hfloor]
  · have := hcov a ha
    simp only [hfloor, hsize]
    omega

variable {K : MapKind} {rq : MapRequest} {slot : MapSlot} {range : MapRange} {s : MapTable}

theorem ImagepatchAddressing.offset_mono (addr : ImagepatchAddressing) {x x' y y' : Nat} (hx : x ≤ x') (hy : y ≤ y') :
    addr.offset x y ≤ addr.offset x' y' :=
  Nat.add_le_add (Nat.mul_le_mul_left _ (Nat.div_le_div_right hy)) (addr.xOffset_mono hx)

theorem image_mapsRange {I : PatchImage} {rect : VxRectangle} {p : Nat} {usage : AccessUsage}
    (ht : (MapRequest.image I rect p usage).taken = some (slot, range))
    (hf : (MapRequest.image I rect p usage).fits = true) : MapsRange .image (.image I rect p usage) slot range := by
  simp only [MapRequest.taken] at ht
  simp only [MapRequest.fits] at hf
  cases hm : ({ I with hasFreeMap := true } : PatchImage).vxMapImagePatch rect p usage with
  | error e =>
    rw [hm] at ht
    cases ht
  | ok r =>
    obtain ⟨addr, ptr⟩ := r
    rw [hm] at ht hf
    simp only [Option.some.injEq, Prod.mk.injEq] at ht
    obtain ⟨rfl, rfl⟩ := ht
    simp only [Bool.and_eq_true, Bool.or_eq_true, decide_eq_true_eq, bne_iff_ne] at hf
    obtain ⟨hbuf, hpatch⟩ := hf
    obtain ⟨haddr, hptr⟩ := map_spec hm
    have h0 : (I.desc.plane p).hostPtr ≠ 0 := by
      intro h0
      simp only [PatchImage.vxMapImagePatch] at hm
      cases hc : ({ I with hasFreeMap := true } : PatchImage).ownCopyAndMapCheckParams rect p usage with
      | error e => rw [hc] at hm; cases hm
      | ok u =>
        rw [hc] at hm
        simp only [Except.bind, if_pos h0] at hm
        cases hm
    refine mapsRange_of_buffer (by decide) h0 hbuf ?_
    rintro a ⟨addr', ptr', hm', x, y, hx, hy, hne, hlo, hhi⟩
    rw [hm] at hm'
    cases hm'
    unfold vxFormatImagePatchAddress2d at hne hlo hhi
    split at hne
    · rename_i hcond
      rw [if_pos hcond] at hlo hhi
      have hge : (I.desc.plane p).hostPtr ≤ ptr := by
        rw [hptr]
        unfold vxFormatImagePatchAddress2d
        split
        · exact Nat.le_add_right _ _
        · rename_i hno
          rw [hptr, vxFormatImagePatchAddress2d, if_neg hno] at hcond
          exact absurd rfl hcond.1
      obtain ⟨⟨hpk, hlast⟩, hend⟩ := hpatch.resolve_left hcond.1
      have hxle : x.toNat ≤ rect.width.toNat - 1 := by
        have := UInt32.lt_iff_toNat_lt.1 hx
        omega
      have hyle : y.toNat ≤ rect.height.toNat - 1 := by
        have := UInt32.lt_iff_toNat_lt.1 hy
        omega
      have hoff := addr.offset_mono hxle hyle
      have hnat : (addr.ownComputePatchOffset x y).toNat = addr.offset x.toNat y.toNat := by
        apply ImagepatchAddressing.ownComputePatchOffset_toNat
        · intro hs
          have := hpk.resolve_left (fun h => h hs)
          have := Nat.div_le_div_right (c := addr.stepX.toNat) hxle
          omega
        · omega
      rw [hnat] at hlo hhi
      constructor
      · omega
      · omega
    · exact absurd rfl hne

/-- An element of a view is not past the last. -/
theorem ViewPlace.le_last {ss : List Int32} {as bs : List UInt64} {x : Int} (h : ViewPlace ss as bs x)
    (hs : ∀ s ∈ ss, 0 ≤ s.toInt) : 0 ≤ x ∧ x ≤ lastPlace ss as bs := by
  induction h with
  | nil ss bs =>
    cases ss <;> simp [lastPlace]
  | @cons s ss a b as bs j x hj _ ih =>
    obtain ⟨hx0, hx⟩ := ih (fun s hm => hs s (List.mem_cons_of_mem _ hm))
    have hs0 := hs s List.mem_cons_self
    have hj1 : (j : Int) ≤ ((b - a).toNat - 1 : Nat) := by omega
    have h1 := Int.mul_le_mul_of_nonneg_left hj1 hs0
    have h2 : 0 ≤ s.toInt * j := Int.mul_nonneg hs0 (Int.natCast_nonneg j)
    unfold lastPlace
    constructor <;> omega

theorem tensor_mapsRange {T : MapTensor} {as bs : List UInt64} (ht : (MapRequest.tensor T as bs).taken = some (slot, range))
    (hf : (MapRequest.tensor T as bs).fits = true) : MapsRange .tensor (.tensor T as bs) slot range := by
  simp only [MapRequest.taken] at ht
  simp only [MapRequest.fits] at hf
  split at ht
  · rename_i hok
    simp only [Option.some.injEq, Prod.mk.injEq] at ht
    obtain ⟨rfl, rfl⟩ := ht
    simp only [hok, Bool.not_true, Bool.false_or, Bool.and_eq_true, decide_eq_true_eq, List.all_eq_true] at hf
    obtain ⟨⟨hbuf, hstride⟩, hend⟩ := hf
    have h0 : T.hostPtr ≠ 0 := by
      simp only [Bool.and_eq_true, bne_iff_ne] at hok
      exact hok.2
    refine mapsRange_of_buffer nofun h0 hbuf ?_
    rintro a ⟨x, hx, hlo, hhi⟩
    obtain ⟨hx0, hxl⟩ := hx.le_last hstride
    constructor
    · omega
    · omega
  · cases ht

theorem userData_mapsRange {D : MapUserData} {offset size : UInt64}
    (ht : (MapRequest.userDataObject D offset size).taken = some (slot, range))
    (hf : (MapRequest.userDataObject D offset size).fits = true) :
    MapsRange .userDataObject (.userDataObject D offset size) slot range := by
  simp only [MapRequest.taken] at ht
  simp only [MapRequest.fits] at hf
  split at ht
  · cases ht
  · rename_i hle
    simp only [Option.some.injEq, Prod.mk.injEq] at ht
    obtain ⟨rfl, rfl⟩ := ht
    simp only [Bool.or_eq_true, Bool.and_eq_true, decide_eq_true_eq, bne_iff_ne] at hf
    obtain ⟨⟨⟨⟨h0, hal⟩, hpos⟩, hsal⟩, hwrap⟩ := hf.resolve_left hle
    -- without a wrap the offset and the size are those of the descriptor's 32 bits
    have hsum : offset.toNat + size.toNat ≤ D.memSize.toNat := by
      have h1 : ¬ D.memSize.toUInt64.toNat < (offset + size).toNat := fun h => hle (UInt64.lt_iff_toNat_lt.2 h)
      rw [UInt64.toNat_add, Nat.mod_eq_of_lt hwrap, UInt32.toNat_toUInt64] at h1
      omega
    have hmem : D.memSize.toNat < 2 ^ 32 := D.memSize.toNat_lt
    have hsize : (if size > 0 then size.toUInt32 else D.memSize - offset.toUInt32).toNat =
        if size > 0 then size.toNat else D.memSize.toNat - offset.toNat := by
      split
      · rw [UInt64.toNat_toUInt32]
        exact Nat.mod_eq_of_lt (by omega)
      · have hoff : offset.toUInt32.toNat = offset.toNat := by
          rw [UInt64.toNat_toUInt32]
          exact Nat.mod_eq_of_lt (by omega)
        rw [UInt32.toNat_sub_of_le _ _ (UInt32.le_iff_toNat_le.2 (by omega)), hoff]
    generalize hm : (if size > 0 then size.toUInt32 else D.memSize - offset.toUInt32) = mapSize at hsize ⊢
    rw [← hsize] at hpos hsal
    refine ⟨h0, hpos, ?_, ?_, fun a ha => ?_⟩
    · have hne : mapSize ≠ 0 := fun h => hpos (by rw [h]; rfl)
      simp only [MapRange.isMappable, Bool.and_eq_true, bne_iff_ne]
      exact ⟨h0, hne⟩
    · have hend : ((D.hostPtr + offset.toNat) % 2 ^ 64 + mapSize.toNat) % dataBufferAlignment = 0 := by
        unfold dataBufferAlignment at *
        omega
      simp only [MapSlot.unmapRange, reduceCtorEq, if_false, bufferFloor_of_aligned hal, bufferAlign_of_aligned hend,
        Nat.add_sub_cancel_left]
      rw [Nat.toUInt32_eq, UInt32.ofNat_toNat]
    · simp only [MapRequest.Access] at ha
      rw [← hsize] at ha
      exact ha

theorem array_mapsRange {A : MapArray} {rangeStart rangeEnd : UInt64} {pointers : Bool}
    (ht : (MapRequest.array A rangeStart rangeEnd pointers).taken = some (slot, range))
    (hf : (MapRequest.array A rangeStart rangeEnd pointers).fits = true) :
    MapsRange .array (.array A rangeStart rangeEnd pointers) slot range := by
  simp only [MapRequest.taken] at ht
  simp only [MapRequest.fits] at hf
  split at ht
  · rename_i hok
    simp only [Option.some.injEq, Prod.mk.injEq] at ht
    obtain ⟨rfl, rfl⟩ := ht
    rw [hok] at hf
    simp only [Bool.not_true, Bool.false_or, Bool.and_eq_true, decide_eq_true_eq, bne_iff_ne] at hf hok
    obtain ⟨hitem, hsz⟩ := hf
    obtain ⟨⟨⟨hlt, hle⟩, h0⟩, -⟩ := hok
    have hlt' : rangeStart.toNat < rangeEnd.toNat := UInt64.lt_iff_toNat_lt.1 hlt
    have hle' : rangeEnd.toNat ≤ A.numItems.toNat := by
      have := UInt64.le_iff_toNat_le.1 hle
      rwa [UInt32.toNat_toUInt64] at this
    have hnum : A.numItems.toNat < 2 ^ 32 := A.numItems.toNat_lt
    have hinst : (rangeEnd.toUInt32 - rangeStart.toUInt32).toNat = rangeEnd.toNat - rangeStart.toNat := by
      have h1 : rangeEnd.toUInt32.toNat = rangeEnd.toNat := by
        rw [UInt64.toNat_toUInt32]
        exact Nat.mod_eq_of_lt (by omega)
      have h2 : rangeStart.toUInt32.toNat = rangeStart.toNat := by
        rw [UInt64.toNat_toUInt32]
        exact Nat.mod_eq_of_lt (by omega)
      rw [UInt32.toNat_sub_of_le _ _ (UInt32.le_iff_toNat_le.2 (by omega)), h1, h2]
    have hitem' : A.itemSize.toNat ≠ 0 := fun h => hitem (UInt32.toNat_inj.1 h)
    have hpos : 0 < (rangeEnd.toNat - rangeStart.toNat) * A.itemSize.toNat := Nat.mul_pos (by omega) (by omega)
    rw [hinst]
    have hnat : ((rangeEnd.toNat - rangeStart.toNat) * A.itemSize.toNat).toUInt32.toNat =
        (rangeEnd.toNat - rangeStart.toNat) * A.itemSize.toNat := UInt32.toNat_ofNat_of_lt hsz
    refine ⟨?_, Nat.ne_of_gt hpos, ?_, ?_, fun a ha => ?_⟩
    · show A.hostPtr + rangeStart.toNat * A.itemSize.toNat ≠ 0
      omega
    · have hne : ((rangeEnd.toNat - rangeStart.toNat) * A.itemSize.toNat).toUInt32 ≠ 0 := by
        intro h
        rw [h] at hnat
        have : (0 : UInt32).toNat = 0 := rfl
        omega
      have h0' : A.hostPtr + rangeStart.toNat * A.itemSize.toNat ≠ 0 := by omega
      simp only [MapRange.isMappable, Bool.and_eq_true, bne_iff_ne]
      exact ⟨h0', hne⟩
    · simp only [MapSlot.unmapRange, if_true]
    · have hsub : rangeEnd.toNat * A.itemSize.toNat =
          rangeStart.toNat * A.itemSize.toNat + (rangeEnd.toNat - rangeStart.toNat) * A.itemSize.toNat := by
        rw [← Nat.add_mul]
        congr 1
        omega
      have hsub' : (rangeEnd.toNat : Int) * A.itemSize.toNat = (rangeStart.toNat * A.itemSize.toNat +
          (rangeEnd.toNat - rangeStart.toNat) * A.itemSize.toNat : Nat) := by
        rw [← hsub, Nat.cast_mul]
      simp only [MapRequest.Access] at ha
      rw [hsub'] at ha
      simp only [hnat]
      push_cast at ha ⊢
      omega
  · cases ht

/-- A request that fits maps a range that its unmap passes again. -/
theorem mapsRange_of_fits (hK : rq.isOf K = true) (ht : rq.taken = some (slot, range)) (hf : rq.fits = true) :
    MapsRange K rq slot range := by
  cases rq with
  | image I rect p usage =>
    obtain rfl := of_decide_eq_true hK
    exact image_mapsRange ht hf
  | tensor T as bs =>
    obtain rfl := of_decide_eq_true hK
    exact tensor_mapsRange ht hf
  | userDataObject D offset size =>
    obtain rfl := of_decide_eq_true hK
    exact userData_mapsRange ht hf
  | array A rangeStart rangeEnd pointers =>
    obtain rfl := of_decide_eq_true hK
    exact array_mapsRange ht hf
  | refused => cases ht

/-- The slots in use are those of the outstanding maps, and each keeps a range as it was taken. -/
structure MapTable.Agree (K : MapKind) (s : MapTable) : Prop where
  oneEach : (s.outstanding.map Prod.fst).Nodup
  inUse : ∀ id, (s.slots id).mapAddr ≠ 0 ↔ id ∈ s.outstanding.map Prod.fst
  small : ∀ id ∈ s.outstanding.map Prod.fst, id < maxMaps
  taken : ∀ id rq, (id, rq) ∈ s.outstanding →
    ∃ range, rq.taken = some (s.slots id, range) ∧ MapsRange K rq (s.slots id) range

namespace MapTable

theorem agree_start : ({} : MapTable).Agree K where
  oneEach := List.nodup_nil
  inUse _ := iff_of_false (fun h => h rfl) nofun
  small _ := nofun
  taken _ _ := nofun

theorem freeSlot_spec {i : Nat} (h : s.freeSlot = some i) : i < maxMaps ∧ (s.slots i).mapAddr = 0 :=
  ⟨List.mem_range.1 (List.mem_of_find?_eq_some h), by simpa using List.find?_some h⟩

/-- A map that finds a slot and maps its range. -/
theorem Agree.push {i : Nat} (hs : s.Agree K) (hi : s.freeSlot = some i) (ht : rq.taken = some (slot, range))
    (hr : MapsRange K rq slot range) :
    Agree K { slots := Function.update s.slots i slot, outstanding := (i, rq) :: s.outstanding } := by
  obtain ⟨hlt, hfree⟩ := freeSlot_spec hi
  have hnew : i ∉ s.outstanding.map Prod.fst := fun hm => (hs.inUse i).2 hm hfree
  have hkept : ∀ {id}, id ∈ s.outstanding.map Prod.fst → Function.update s.slots i slot id = s.slots id := by
    intro id hm
    apply Function.update_of_ne
    rintro rfl
    exact hnew hm
  constructor
  · exact List.nodup_cons.2 ⟨hnew, hs.oneEach⟩
  · intro id
    show (Function.update s.slots i slot id).mapAddr ≠ 0 ↔ id ∈ i :: s.outstanding.map Prod.fst
    by_cases h : id = i
    · subst h
      rw [Function.update_self]
      exact iff_of_true hr.addr List.mem_cons_self
    · rw [Function.update_of_ne h, hs.inUse id, List.mem_cons]
      exact (or_iff_right h).symm
  · intro id hm
    obtain rfl | hm := List.mem_cons.1 hm
    · exact hlt
    · exact hs.small id hm
  · intro id rq' hm
    obtain he | hm := List.mem_cons.1 hm
    · cases he
      refine ⟨range, ?_⟩
      show rq.taken = some (Function.update s.slots i slot i, range) ∧ MapsRange K rq (Function.update s.slots i slot i) range
      rw [Function.update_self]
      exact ⟨ht, hr⟩
    · have hid : id ∈ s.outstanding.map Prod.fst := List.mem_map_of_mem hm
      show ∃ range, rq'.taken = some (Function.update s.slots i slot id, range) ∧
        MapsRange K rq' (Function.update s.slots i slot id) range
      rw [hkept hid]
      exact hs.taken id rq' hm

theorem Agree.map (hs : s.Agree K) (hK : rq.isOf K = true) (hf : mapsFit s (.map rq) = true) : (s.map rq).Agree K := by
  unfold MapTable.map
  cases ht : rq.taken with
  | none => exact hs
  | some t =>
    obtain ⟨slot, range⟩ := t
    cases hi : s.freeSlot with
    | none => exact hs
    | some i =>
      simp only [mapsFit, hi, Option.isNone_some, Bool.false_or] at hf
      have hr := mapsRange_of_fits hK ht hf
      simp only [hr.mappable, if_true]
      exact hs.push hi ht hr

theorem Agree.unmap (hs : s.Agree K) (id : Nat) : (s.unmap K id).Agree K := by
  unfold MapTable.unmap
  split
  · have hmem : ∀ {j}, j ∈ (s.outstanding.filter (fun o => o.1 ≠ id)).map Prod.fst ↔
        j ≠ id ∧ j ∈ s.outstanding.map Prod.fst := by
      intro j
      simp only [List.mem_map, List.mem_filter, decide_eq_true_eq]
      constructor
      · rintro ⟨o, ⟨hm, hne⟩, rfl⟩
        exact ⟨hne, o, hm, rfl⟩
      · rintro ⟨hne, o, hm, rfl⟩
        exact ⟨o, ⟨hm, hne⟩, rfl⟩
    constructor
    · exact hs.oneEach.sublist (List.filter_sublist.map _)
    · intro j
      show (Function.update s.slots id _ j).mapAddr ≠ 0 ↔ j ∈ (s.outstanding.filter (fun o => o.1 ≠ id)).map Prod.fst
      rw [hmem]
      by_cases h : j = id
      · subst h
        rw [Function.update_self]
        exact iff_of_false (fun h0 => h0 rfl) (fun hj => hj.1 rfl)
      · rw [Function.update_of_ne h, hs.inUse j]
        exact (and_iff_right h).symm
    · intro j hj
      exact hs.small j (hmem.1 hj).2
    · intro j rq' hm
      obtain ⟨hm, hne⟩ := List.mem_filter.1 hm
      have hne : j ≠ id := of_decide_eq_true hne
      show ∃ range, rq'.taken = some (Function.update s.slots id _ j, range) ∧
        MapsRange K rq' (Function.update s.slots id _ j) range
      rw [Function.update_of_ne hne]
      exact hs.taken j rq' hm
  · exact hs

theorem Agree.step {a : MapAction} {t : MapTable} (hs : s.Agree K) (hf : mapsFit s a = true)
    (h : mapStep K s a = some t) : t.Agree K := by
  cases a with
  | map rq =>
    unfold mapStep at h
    obtain ⟨hK, h⟩ := Option.ite_none_right_eq_some.1 h
    cases h
    exact hs.map hK hf
  | unmap id =>
    cases h
    exact hs.unmap id

/-- The slots that agree with the maps have all that is asked of them. -/
theorem Agree.mapsOk (hs : s.Agree K) : MapsOk K s where
  oneEach := hs.oneEach
  inUse := hs.inUse
  releases id := by
    constructor
    · intro h
      simp only [unmaps, isMapped, Bool.and_eq_true, bne_iff_ne] at h
      exact (hs.inUse id).1 h.1.1.2
    · intro hm
      obtain ⟨⟨j, rq⟩, ho, rfl⟩ := List.mem_map.1 hm
      obtain ⟨range, -, hr⟩ := hs.taken j rq ho
      simp only [unmaps, isMapped, Bool.and_eq_true, bne_iff_ne, decide_eq_true_eq, hr.unmapRange]
      exact ⟨⟨⟨hs.small j hm, hr.addr⟩, hr.size⟩, hr.mappable⟩
  ranges id rq hm := by
    obtain ⟨range, ht, hr⟩ := hs.taken id rq hm
    exact ⟨s.slots id, by rw [ht, hr.unmapRange]⟩
  covers id rq hm a ha := by
    obtain ⟨range, -, hr⟩ := hs.taken id rq hm
    rw [hr.unmapRange]
    exact hr.covers a ha

end MapTable

/-- **Maps and unmaps agree, where the calls fit**: in every run of calls each of which fits. -/
theorem mapsOk_of_reach (K : MapKind) (h : Reach (mapStep K) (fun s a => mapsFit s a = true) {} s) : MapsOk K s :=
  MapTable.Agree.mapsOk (h.inv MapTable.agree_start fun _ _ _ hs hf hstep => hs.step hf hstep)

/-- A user data object of 1024 bytes. -/
def userData1k : MapUserData := ⟨4096, 1024⟩

theorem maps_reached : ∃ s, Reach (mapStep .userDataObject) (fun s a => mapsFit s a = true) {} s ∧
    s.outstanding.map Prod.fst = [1] ∧ MapsOk .userDataObject s := by
  have hexec : (exec (mapStep .userDataObject) mapsFit {}
      [.map (.userDataObject userData1k 0 128), .map (.userDataObject userData1k 256 0), .unmap 0]).map
      (fun s => s.outstanding.map Prod.fst) = some [1] := by decide
  obtain ⟨s, hs, hx⟩ := exists_reach_of_exec hexec
  exact ⟨s, hs, hx, mapsOk_of_reach _ hs⟩

/-- A tensor of 4096 bytes whose memory begins inside a unit of the alignment, as that of a region of an image does. -/
def tensorInside : MapTensor := ⟨4160, 4096, [64, 64], [1, 64]⟩

/-- An outstanding map whose slot makes another range than was mapped. -/
theorem not_mapsOk {id : Nat} {r : MapRange} (hm : (id, rq) ∈ s.outstanding) (ht : rq.taken = some (s.slots id, r))
    (hne : (s.slots id).unmapRange K ≠ r) : ¬ MapsOk K s := by
  intro hok
  obtain ⟨slot, hslot⟩ := hok.ranges id rq hm
  rw [ht] at hslot
  cases hslot
  exact hne rfl

/-- Half a unit of a user data object is mapped and the whole unit unmapped; of a tensor the range starts at the whole unit and has
the size of a part, which leaves out the last elements. -/
theorem maps_not_ok :
    (∃ s, Reach (mapStep .userDataObject) (fun s a => anyStep s a = true) {} s ∧ ¬ MapsOk .userDataObject s) ∧
      ∃ s, Reach (mapStep .tensor) (fun s a => anyStep s a = true) {} s ∧ ¬ MapsOk .tensor s := by
  constructor
  · have hexec : (exec (mapStep .userDataObject) anyStep {} [.map (.userDataObject userData1k 64 64)]).map
        (fun s => (s.slots 0, s.outstanding)) = some (⟨4160, 64⟩, [(0, .userDataObject userData1k 64 64)]) := rfl
    obtain ⟨s, hs, hx⟩ := exists_reach_of_exec hexec
    obtain ⟨hslot, hout⟩ := Prod.mk.inj hx
    refine ⟨s, hs, not_mapsOk (r := ⟨4160, 64⟩) (hout ▸ List.mem_cons_self) ?_ ?_⟩
    · rw [hslot]
      rfl
    · rw [hslot]
      decide
  · have hexec : (exec (mapStep .tensor) anyStep {} [.map (.tensor tensorInside [0, 0] [64, 64])]).map
        (fun s => (s.slots 0, s.outstanding)) = some (⟨4160, 4096⟩, [(0, .tensor tensorInside [0, 0] [64, 64])]) := rfl
    obtain ⟨s, hs, hx⟩ := exists_reach_of_exec hexec
    obtain ⟨hslot, hout⟩ := Prod.mk.inj hx
    refine ⟨s, hs, not_mapsOk (r := ⟨4096, 4160⟩) (hout ▸ List.mem_cons_self) ?_ ?_⟩
    · rw [hslot]
      rfl
    · rw [hslot]
      decide

end Tiovx
