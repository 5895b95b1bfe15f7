import Mathlib.Tactic.Common
import Tiovx.CmdObjects
import Tiovx.ObjectArrayList
import Tiovx.ScheduleStatus
/-!
# SupplementaryData — supplementary data on the host and on a target (`vx_reference.c`, `vx_obj_desc.c`)

Supplementary data is extended from a source and a user buffer, on the host through references and on a target through object
descriptors, and it is looked up through the parents of an image or a tensor.
-/
namespace Tiovx

def vxErrorNoMemory : Int := -8
def vxErrorInvalidValue : Int := -16

theorem vxErrorNoMemory_ne : vxErrorNoMemory ≠ vxSuccess := by decide

theorem vxErrorInvalidValue_ne : vxErrorInvalidValue ≠ vxSuccess := by decide

/-- A user data object with its descriptor.  Memory that is not allocated yet has the zeros that its allocation writes. -/
structure SuppData where
  typeName : List UInt8
  memSize : UInt32
  validMemSize : UInt32
  hasMemory : Bool
  bytes : Nat → UInt8

/-- A buffer of the user. -/
abbrev UserBuffer := Nat → UInt8

namespace SuppData

/-- `tivx_obj_desc_memcpy` of `len` bytes from an offset to the same offset. -/
def copyAt (d : SuppData) (offset len : Nat) (src : Nat → UInt8) : SuppData :=
  { d with bytes := fun i => if offset ≤ i ∧ i < offset + len then src i else d.bytes i }

def copySource (d : SuppData) (source : Option SuppData) (offset len : UInt32) : SuppData :=
  match source with
  | some s => d.copyAt offset.toNat len.toNat s.bytes
  | none => d

def copyUser (d : SuppData) (user : Option UserBuffer) (offset len : UInt32) : SuppData :=
  match user with
  | some u => d.copyAt offset.toNat len.toNat u
  | none => d

/-- The sizes and the type names are equal. -/
def sameType (d s : SuppData) : Bool := d.memSize == s.memSize && d.typeName == s.typeName

/-- `ownCreateUserDataObject`. -/
def ownCreateUserDataObject (typeName : List UInt8) (size : UInt32) : SuppData := ⟨typeName, size, size, false, fun _ => 0⟩

/-- `dest_bytes`. -/
def destBytes (sourceBytes userBytes : UInt32) : UInt32 := if sourceBytes > userBytes then sourceBytes else userBytes

/-- The count of the source where it comes first: at most its valid size. -/
def validCount (source : Option SuppData) (sourceBytes : UInt32) : UInt32 :=
  match source with
  | some s => if s.validMemSize < sourceBytes then s.validMemSize else sourceBytes
  | none => sourceBytes

/-- Offset and number of the bytes of the source, and of the user, on the host. -/
def hostParts (source : Option SuppData) (sourceBytes userBytes : UInt32) : (UInt32 × UInt32) × (UInt32 × UInt32) :=
  if sourceBytes > userBytes then ((userBytes, sourceBytes - userBytes), (0, userBytes))
  else ((0, validCount source sourceBytes), (sourceBytes, userBytes - sourceBytes))

/-- The end of `vxExtendSupplementaryUserDataObject`, for supplementary data with memory. -/
def extendFrom (d : SuppData) (source : Option SuppData) (user : Option UserBuffer) (sourceBytes userBytes : UInt32) :
    Int × SuppData :=
  if sourceBytes > d.memSize ∨ userBytes > d.memSize then (vxErrorInvalidValue, d)
  else if source.any (fun s => !d.sameType s) then (vxErrorInvalidType, d)
  -- `tivxMemBufferMap` of no bytes
  else if destBytes sourceBytes userBytes = 0 then (vxFailure, d)
  else
    let parts := hostParts source sourceBytes userBytes
    let d' := (d.copySource source parts.1.1 parts.1.2).copyUser user parts.2.1 parts.2.2
    (vxSuccess, { d' with
      validMemSize :=
        if destBytes sourceBytes userBytes > d.validMemSize then destBytes sourceBytes userBytes else d.validMemSize })

end SuppData

/-- What a call of `vxExtendSupplementaryUserDataObject` finds besides the data: the status of the checks of its references, and
whether supplementary data can be created and allocated. -/
structure HostCall where
  checks : Int := vxSuccess
  isInGraph : Bool := false
  supported : Bool := true
  creates : Bool := true
  allocates : Bool := true

/-- The supplementary data of the destination is there, or is created. -/
def HostCall.supplement (c : HostCall) (destination source : Option SuppData) (sourceBytes userBytes : UInt32) :
    Int × Option SuppData :=
  match destination, source with
  | some d, _ => (vxSuccess, some d)
  | none, none => (vxFailure, none)
  | none, some s =>
    if c.isInGraph then (vxFailure, none)
    else if !c.supported then (vxErrorNotSupported, none)
    else if sourceBytes > s.memSize ∨ userBytes > s.memSize then (vxErrorInvalidValue, none)
    else if !c.creates then (vxErrorNoResources, none)
    else (vxSuccess, some (.ownCreateUserDataObject s.typeName s.memSize))

/-- `vxExtendSupplementaryUserDataObject`: the status, and the supplementary data of the destination. -/
def HostCall.vxExtendSupplementaryUserDataObject (c : HostCall) (destination source : Option SuppData)
    (user : Option UserBuffer) (sourceBytes userBytes : UInt32) : Int × Option SuppData :=
  if c.checks ≠ vxSuccess then (c.checks, destination)
  else if source.isNone && user.isNone then (vxErrorInvalidParameters, destination)
  else
    match c.supplement destination source sourceBytes userBytes with
    | (status, none) => (status, none)
    | (_, some d) =>
      if !c.allocates then (vxErrorNoMemory, some d)
      else
        let r := { d with hasMemory := true }.extendFrom source user sourceBytes userBytes
        (r.1, some r.2)

/-- `source_bytes` of a target: the valid size of the source, or `num_bytes` where this is less. -/
def sourcePrefix (source : Option SuppData) (numBytes : UInt32) : UInt32 :=
  let valid := source.elim 0 (·.validMemSize)
  if numBytes < valid then numBytes else valid

/-- `extra_bytes`, of the user buffer. -/
def extraBytes (source : Option SuppData) (user : Option UserBuffer) (numBytes : UInt32) : UInt32 :=
  if !(numBytes < source.elim 0 (·.validMemSize)) && user.isSome then numBytes - sourcePrefix source numBytes else 0

/-- `tivxExtendSupplementaryDataObjDesc`; `destination` is what `supp_data_id` names. -/
def tivxExtendSupplementaryDataObjDesc (destination source : Option SuppData) (user : Option UserBuffer) (numBytes : UInt32) :
    Int × Option SuppData :=
  if source.isNone && user.isNone then (vxErrorInvalidParameters, destination)
  else
    match destination with
    | none => (vxFailure, none)
    | some d =>
      if numBytes > d.memSize then (vxErrorInvalidValue, some d)
      else if source.any (fun s => !d.sameType s) then (vxErrorInvalidType, some d)
      else
        let sourceBytes := sourcePrefix source numBytes
        let extraBytes := extraBytes source user numBytes
        if !d.hasMemory ∨ sourceBytes + extraBytes = 0 then (vxFailure, some d)
        else if source.any (fun s => !s.hasMemory || sourceBytes == 0) then (vxFailure, some d)
        else
          let d' := (d.copySource source 0 sourceBytes).copyUser user sourceBytes extraBytes
          (vxSuccess, some { d' with validMemSize := sourceBytes + extraBytes })

/-! ### Looking up -/

inductive SuppRefType
  | image
  | tensor
  | other
deriving DecidableEq

/-- A reference with the supplementary data of the image it is of, and of that image's parents; the descriptors have the same. -/
structure SuppRef where
  type : SuppRefType
  supplementaryData : Option Nat
  parents : List (Option Nat)

/-- The loop of `vxGetSupplementaryUserDataObject`. -/
def searchParents : Option Nat → List (Option Nat) → Option Nat
  | some d, _ => some d
  | none, parent :: parents => searchParents parent parents
  | none, [] => none

/-- `vxGetSupplementaryUserDataObject` of a reference that it accepts: the object whose descriptor it gives. -/
def SuppRef.vxGetSupplementaryUserDataObject (r : SuppRef) (typeNames : Nat → List UInt8) (inKernel isInput : Bool)
    (typeName : Option (List UInt8)) : Option Nat :=
  let found :=
    if (!inKernel || isInput) && r.type != .other then searchParents r.supplementaryData r.parents else r.supplementaryData
  found.filter (fun d => typeName.all (fun n => typeNames d == n))

/-- The loop of `tivxGetSupplementaryDataObjDesc`, from a depth on. -/
def searchDepth : Nat → Option Nat → List (Option Nat) → Option Nat
  | _, some d, _ => some d
  | depth, none, parent :: parents => if depth < 2 then searchDepth (depth + 1) parent parents else none
  | _, none, [] => none

/-- `tivxGetSupplementaryDataObjDesc`. -/
def SuppRef.tivxGetSupplementaryDataObjDesc (r : SuppRef) (typeNames : Nat → List UInt8) (typeName : Option (List UInt8)) :
    Option Nat :=
  let found := if r.type = .image then searchDepth 0 r.supplementaryData r.parents else r.supplementaryData
  found.filter (fun d => typeName.all (fun n => typeNames d == n))

/-! ## What both sides do -/

namespace SuppData

variable (d : SuppData) (source : Option SuppData) (user : Option UserBuffer)

/-- A byte of the source, or as it was. -/
def sourceByte (i : Nat) : UInt8 := source.elim (d.bytes i) (fun s => s.bytes i)

/-- A byte of the user, or as it was. -/
def userByte (i : Nat) : UInt8 := user.elim (d.bytes i) (fun u => u i)

/-- The first `p` bytes of the source, and then those of the user up to `n`. -/
def followed (p n i : Nat) : UInt8 :=
  if i < p then d.sourceByte source i else if i < n then d.userByte user i else d.bytes i

/-- The bytes of the source up to its valid size, and those of the user from `sourceBytes` on; where the user has less, these come
first and the source's follow. -/
def hostBytes (sourceBytes userBytes i : Nat) : UInt8 :=
  if sourceBytes ≤ userBytes then
    if i < sourceBytes then
      if source.all (fun s => i < s.validMemSize.toNat) then d.sourceByte source i else d.bytes i
    else if i < userBytes then d.userByte user i else d.bytes i
  else
    if i < userBytes then d.userByte user i else if i < sourceBytes then d.sourceByte source i else d.bytes i

variable {d : SuppData} {source : Option SuppData} {user : Option UserBuffer} {sourceBytes userBytes numBytes : UInt32}

theorem copySource_bytes (d : SuppData) (source : Option SuppData) (offset len : UInt32) (i : Nat) :
    (d.copySource source offset len).bytes i =
      if offset.toNat ≤ i ∧ i < offset.toNat + len.toNat then d.sourceByte source i else d.bytes i := by
  cases source with
  | none => exact (ite_self _).symm
  | some s => rfl

theorem copyUser_bytes (d : SuppData) (user : Option UserBuffer) (offset len : UInt32) (i : Nat) :
    (d.copyUser user offset len).bytes i =
      if offset.toNat ≤ i ∧ i < offset.toNat + len.toNat then d.userByte user i else d.bytes i := by
  cases user with
  | none => exact (ite_self _).symm
  | some u => rfl

/-- A copy from the source and one from the user, of bytes of which the user's are not the source's. -/
theorem copies_bytes {a n b m : UInt32} (hapart : a.toNat + n.toNat ≤ b.toNat ∨ b.toNat + m.toNat ≤ a.toNat) (i : Nat) :
    ((d.copySource source a n).copyUser user b m).bytes i =
      if a.toNat ≤ i ∧ i < a.toNat + n.toNat then d.sourceByte source i
      else if b.toNat ≤ i ∧ i < b.toNat + m.toNat then d.userByte user i else d.bytes i := by
  rw [copyUser_bytes, copySource_bytes]
  by_cases hs : a.toNat ≤ i ∧ i < a.toNat + n.toNat
  · rw [if_neg (by omega), if_pos hs, if_pos hs]
  · rw [if_neg hs, if_neg hs]
    by_cases hu : b.toNat ≤ i ∧ i < b.toNat + m.toNat
    · rw [if_pos hu, if_pos hu]
      unfold userByte
      cases user with
      | none =>
        rw [Option.elim_none, Option.elim_none, copySource_bytes, if_neg hs]
      | some u => rfl
    · rw [if_neg hu, if_neg hu]

theorem destBytes_toNat (sourceBytes userBytes : UInt32) :
    (destBytes sourceBytes userBytes).toNat = max sourceBytes.toNat userBytes.toNat := by
  unfold destBytes
  split
  · rename_i h
    have := UInt32.lt_iff_toNat_lt.1 h
    omega
  · rename_i h
    have := UInt32.lt_iff_toNat_lt.not.1 h
    omega

theorem lt_validCount_iff {i : Nat} : i < (validCount source sourceBytes).toNat ↔
    i < sourceBytes.toNat ∧ source.all (fun s => i < s.validMemSize.toNat) = true := by
  unfold validCount
  cases source with
  | none => simp
  | some s =>
    simp only [Option.all_some, decide_eq_true_eq]
    split
    · rename_i h
      have := UInt32.lt_iff_toNat_lt.1 h
      omega
    · rename_i h
      have := UInt32.lt_iff_toNat_lt.not.1 h
      omega

/-- The parts of the host are those that are documented. -/
theorem hostParts_bytes (d : SuppData) (source : Option SuppData) (user : Option UserBuffer) (sourceBytes userBytes : UInt32)
    (i : Nat) :
    ((d.copySource source (hostParts source sourceBytes userBytes).1.1 (hostParts source sourceBytes userBytes).1.2).copyUser
      user (hostParts source sourceBytes userBytes).2.1 (hostParts source sourceBytes userBytes).2.2).bytes i =
      d.hostBytes source user sourceBytes.toNat userBytes.toNat i := by
  by_cases h : sourceBytes > userBytes
  · have hlt := UInt32.lt_iff_toNat_lt.1 h
    have hsub := UInt32.toNat_sub_of_le _ _ (UInt32.le_of_lt h)
    simp only [hostParts, if_pos h]
    have hno : ¬ sourceBytes.toNat ≤ userBytes.toNat := by omega
    rw [copies_bytes (.inr (by rw [UInt32.toNat_zero]; omega)), hsub, UInt32.toNat_zero, hostBytes, if_neg hno]
    by_cases hu : i < userBytes.toNat
    · have hs : ¬ (userBytes.toNat ≤ i ∧ i < userBytes.toNat + (sourceBytes.toNat - userBytes.toNat)) := by omega
      have hu' : 0 ≤ i ∧ i < 0 + userBytes.toNat := by omega
      rw [if_neg hs, if_pos hu', if_pos hu]
    · have hu' : ¬ (0 ≤ i ∧ i < 0 + userBytes.toNat) := by omega
      have hiff : (userBytes.toNat ≤ i ∧ i < userBytes.toNat + (sourceBytes.toNat - userBytes.toNat)) ↔
          i < sourceBytes.toNat := by
        omega
      rw [if_neg hu', if_neg hu]
      simp only [hiff]
  · have hle : sourceBytes.toNat ≤ userBytes.toNat := Nat.le_of_not_lt (UInt32.lt_iff_toNat_lt.not.1 h)
    have hsub := UInt32.toNat_sub_of_le _ _ (UInt32.le_iff_toNat_le.2 hle)
    simp only [hostParts, if_neg h]
    have hcount : (validCount source sourceBytes).toNat ≤ sourceBytes.toNat :=
      Nat.le_of_not_lt (fun hlt => absurd (lt_validCount_iff.1 hlt).1 (Nat.lt_irrefl _))
    rw [copies_bytes (.inl (by rw [UInt32.toNat_zero]; omega)), hsub, UInt32.toNat_zero, hostBytes, if_pos hle]
    have hs : (0 ≤ i ∧ i < 0 + (validCount source sourceBytes).toNat) ↔
        i < sourceBytes.toNat ∧ source.all (fun s => i < s.validMemSize.toNat) = true := by
      rw [← lt_validCount_iff]
      omega
    by_cases hi : i < sourceBytes.toNat
    · have hu : ¬ (sourceBytes.toNat ≤ i ∧ i < sourceBytes.toNat + (userBytes.toNat - sourceBytes.toNat)) := by omega
      rw [if_neg hu, if_pos hi]
      simp only [hs, hi, true_and]
    · have hu : (sourceBytes.toNat ≤ i ∧ i < sourceBytes.toNat + (userBytes.toNat - sourceBytes.toNat)) ↔
          i < userBytes.toNat := by
        omega
      rw [if_neg (fun h => hi (hs.1 h).1), if_neg hi]
      simp only [hu]

/-- The host copies what is documented, and the valid size grows to the larger of the counts. -/
theorem extendFrom_spec {d' : SuppData} (h : d.extendFrom source user sourceBytes userBytes = (vxSuccess, d')) :
    d'.bytes = d.hostBytes source user sourceBytes.toNat userBytes.toNat ∧
      d'.validMemSize.toNat = max d.validMemSize.toNat (max sourceBytes.toNat userBytes.toNat) := by
  unfold extendFrom at h
  split at h
  · cases h
  · split at h
    · cases h
    · split at h
      · cases h
      · obtain rfl := (Prod.mk.inj h).2
        constructor
        · funext i
          exact hostParts_bytes d source user sourceBytes userBytes i
        · rw [← destBytes_toNat]
          dsimp only
          split
          · rename_i hlt
            have := UInt32.lt_iff_toNat_lt.1 hlt
            omega
          · rename_i hlt
            have := UInt32.lt_iff_toNat_lt.not.1 hlt
            omega

theorem extendFrom_error (h : (d.extendFrom source user sourceBytes userBytes).1 ≠ vxSuccess) :
    (d.extendFrom source user sourceBytes userBytes).2 = d := by
  unfold extendFrom at h ⊢
  split
  · rfl
  · split
    · rfl
    · split
      · rfl
      · rename_i h1 h2 h3
        rw [if_neg h1, if_neg h2, if_neg h3] at h
        exact absurd rfl h

/-- The contents of a user data object; whether they have memory yet does not matter. -/
def Same (d d' : SuppData) : Prop :=
  d'.typeName = d.typeName ∧ d'.memSize = d.memSize ∧ d'.validMemSize = d.validMemSize ∧ d'.bytes = d.bytes

/-- What a target writes. -/
structure TargetExtended (d : SuppData) (source : Option SuppData) (user : Option UserBuffer) (numBytes : UInt32)
    (d' : SuppData) : Prop where
  bytes : d'.bytes = d.followed source user (sourcePrefix source numBytes).toNat numBytes.toNat
  valid : d'.validMemSize = if user.isSome then numBytes else sourcePrefix source numBytes

end SuppData

open SuppData

variable {d : SuppData} {source : Option SuppData} {user : Option UserBuffer} {sourceBytes userBytes numBytes : UInt32}

theorem sourcePrefix_le (source : Option SuppData) (numBytes : UInt32) : sourcePrefix source numBytes ≤ numBytes := by
  unfold sourcePrefix
  dsimp only
  split
  · exact UInt32.le_refl _
  · rename_i h
    exact UInt32.not_lt.1 h

theorem sourcePrefix_le_valid (s : SuppData) (numBytes : UInt32) : sourcePrefix (some s) numBytes ≤ s.validMemSize := by
  show (if numBytes < s.validMemSize then numBytes else s.validMemSize) ≤ s.validMemSize
  split
  · rename_i h
    exact UInt32.le_of_lt h
  · exact UInt32.le_refl _

/-- The bytes of the user are the rest, unless there is no user buffer. -/
theorem extraBytes_eq : extraBytes source user numBytes = if user.isSome then numBytes - sourcePrefix source numBytes else 0 := by
  unfold extraBytes
  by_cases h : numBytes < source.elim 0 (·.validMemSize)
  · have hp : sourcePrefix source numBytes = numBytes := if_pos h
    rw [hp, UInt32.sub_self, ite_self, ite_self]
  · simp only [h, decide_false, Bool.not_false, Bool.true_and]

theorem target_bytes (d : SuppData) (source : Option SuppData) (user : Option UserBuffer) (numBytes : UInt32) (i : Nat) :
    ((d.copySource source 0 (sourcePrefix source numBytes)).copyUser user (sourcePrefix source numBytes)
      (extraBytes source user numBytes)).bytes i =
      d.followed source user (sourcePrefix source numBytes).toNat numBytes.toNat i := by
  have hle := UInt32.le_iff_toNat_le.1 (sourcePrefix_le source numBytes)
  rw [copies_bytes (.inl (by rw [UInt32.toNat_zero]; omega)), UInt32.toNat_zero, followed, extraBytes_eq]
  by_cases hs : i < (sourcePrefix source numBytes).toNat
  · rw [if_pos ⟨Nat.zero_le i, by omega⟩, if_pos hs]
  · rw [if_neg (by omega), if_neg hs]
    cases user with
    | none => rw [userByte, Option.elim_none, ite_self, ite_self]
    | some u =>
      have hiff : (sourcePrefix source numBytes).toNat ≤ i ∧
          i < (sourcePrefix source numBytes).toNat + (numBytes - sourcePrefix source numBytes).toNat ↔ i < numBytes.toNat := by
        rw [UInt32.toNat_sub_of_le _ _ (sourcePrefix_le source numBytes)]
        omega
      simp only [Option.isSome_some, if_true, hiff]

/-- A target copies the source's prefix, and then the user's bytes up to the number asked for. -/
theorem target_spec {t : Option SuppData}
    (h : tivxExtendSupplementaryDataObjDesc (some d) source user numBytes = (vxSuccess, t)) :
    ∃ d', t = some d' ∧ d.TargetExtended source user numBytes d' := by
  unfold tivxExtendSupplementaryDataObjDesc at h
  split at h
  · cases h
  · dsimp only at h
    split at h
    · cases h
    · split at h
      · cases h
      · split at h
        · cases h
        · split at h
          · cases h
          · obtain rfl := (Prod.mk.inj h).2
            refine ⟨_, rfl, ?_, ?_⟩
            · funext i
              exact target_bytes d source user numBytes i
            · dsimp only
              rw [extraBytes_eq]
              split
              · rw [UInt32.add_comm, UInt32.sub_add_cancel]
              · exact UInt32.add_zero _

theorem target_error (destination source : Option SuppData) (user : Option UserBuffer) (numBytes : UInt32)
    (h : (tivxExtendSupplementaryDataObjDesc destination source user numBytes).1 ≠ vxSuccess) :
    (tivxExtendSupplementaryDataObjDesc destination source user numBytes).2 = destination := by
  unfold tivxExtendSupplementaryDataObjDesc at h ⊢
  by_cases h1 : (source.isNone && user.isNone) = true
  · rw [if_pos h1]
  · rw [if_neg h1] at h ⊢
    cases destination with
    | none => rfl
    | some d =>
      dsimp only at h ⊢
      split
      · rfl
      · split
        · rfl
        · split
          · rfl
          · split
            · rfl
            · rename_i h2 h3 h4 h5
              rw [if_neg h2, if_neg h3, if_neg h4, if_neg h5] at h
              exact absurd rfl h

/-- The supplementary data that the host extends: the destination's, or what it creates. -/
def hostBase (destination source : Option SuppData) : Option SuppData :=
  match destination with
  | some d => some d
  | none => source.map (fun s => .ownCreateUserDataObject s.typeName s.memSize)

variable {c : HostCall} {destination : Option SuppData}

theorem supplement_spec {st : Int} (h : c.supplement destination source sourceBytes userBytes = (st, some d)) :
    hostBase destination source = some d := by
  unfold HostCall.supplement at h
  cases destination with
  | some e => exact (Prod.mk.inj h).2
  | none =>
    cases source with
    | none => cases h
    | some s =>
      dsimp only at h
      split at h
      · cases h
      · split at h
        · cases h
        · split at h
          · cases h
          · split at h
            · cases h
            · exact (Prod.mk.inj h).2

theorem supplement_none {st : Int} (h : c.supplement destination source sourceBytes userBytes = (st, none)) :
    st ≠ vxSuccess := by
  unfold HostCall.supplement at h
  cases destination with
  | some e => cases h
  | none =>
    cases source with
    | none =>
      obtain rfl := (Prod.mk.inj h).1
      decide
    | some s =>
      dsimp only at h
      split at h
      · obtain rfl := (Prod.mk.inj h).1
        decide
      · split at h
        · obtain rfl := (Prod.mk.inj h).1
          decide
        · split at h
          · obtain rfl := (Prod.mk.inj h).1
            decide
          · split at h
            · obtain rfl := (Prod.mk.inj h).1
              decide
            · cases h

theorem host_spec {t : Option SuppData}
    (h : c.vxExtendSupplementaryUserDataObject destination source user sourceBytes userBytes = (vxSuccess, t)) :
    ∃ d d', hostBase destination source = some d ∧ t = some d' ∧
      d'.bytes = d.hostBytes source user sourceBytes.toNat userBytes.toNat ∧
        d'.validMemSize.toNat = max d.validMemSize.toNat (max sourceBytes.toNat userBytes.toNat) := by
  unfold HostCall.vxExtendSupplementaryUserDataObject at h
  split at h
  · rename_i hc
    exact absurd (Prod.mk.inj h).1 hc
  · split at h
    · cases h
    · split at h
      · rename_i st hs
        exact absurd (Prod.mk.inj h).1 (supplement_none hs)
      · rename_i d hs
        split at h
        · cases h
        · obtain ⟨h1, rfl⟩ := Prod.mk.inj h
          obtain ⟨hb, hv⟩ := extendFrom_spec (Prod.ext h1 rfl)
          exact ⟨d, _, supplement_spec hs, rfl, hb, hv⟩

/-- An error leaves supplementary data as it was. -/
theorem host_error (h : (c.vxExtendSupplementaryUserDataObject (some d) source user sourceBytes userBytes).1 ≠ vxSuccess) :
    ∃ d', (c.vxExtendSupplementaryUserDataObject (some d) source user sourceBytes userBytes).2 = some d' ∧ d.Same d' := by
  unfold HostCall.vxExtendSupplementaryUserDataObject at h ⊢
  split
  · exact ⟨d, rfl, rfl, rfl, rfl, rfl⟩
  · split
    · exact ⟨d, rfl, rfl, rfl, rfl, rfl⟩
    · simp only [HostCall.supplement]
      split
      · exact ⟨d, rfl, rfl, rfl, rfl, rfl⟩
      · rename_i h1 h2 h3
        rw [if_neg h1, if_neg h2] at h
        simp only [HostCall.supplement, if_neg h3] at h
        exact ⟨_, rfl, by rw [extendFrom_error h]; exact ⟨rfl, rfl, rfl, rfl⟩⟩

theorem supplement_new {st : Int} (h : c.supplement none source sourceBytes userBytes = (st, some d)) :
    ∃ s, source = some s ∧ d = .ownCreateUserDataObject s.typeName s.memSize ∧
      ¬ (sourceBytes > s.memSize ∨ userBytes > s.memSize) := by
  unfold HostCall.supplement at h
  cases source with
  | none => cases h
  | some s =>
    dsimp only at h
    split at h
    · cases h
    · split at h
      · cases h
      · split at h
        · cases h
        · rename_i hsize
          split at h
          · cases h
          · exact ⟨s, rfl, (Option.some.inj (Prod.mk.inj h).2).symm, hsize⟩

/-- From a source of its type, with room for the bytes, only a map of no bytes fails. -/
theorem zero_of_error {s : SuppData} (hm : d.memSize = s.memSize) (hn : d.typeName = s.typeName)
    (hsize : ¬ (sourceBytes > s.memSize ∨ userBytes > s.memSize))
    (h : (d.extendFrom (some s) user sourceBytes userBytes).1 ≠ vxSuccess) : sourceBytes = 0 ∧ userBytes = 0 := by
  have htype : ¬ (some s).any (fun s => !d.sameType s) = true := by
    simp [sameType, hm, hn]
  unfold SuppData.extendFrom at h
  rw [hm, if_neg hsize, if_neg htype] at h
  split at h
  · rename_i h0
    have hmax := destBytes_toNat sourceBytes userBytes
    rw [h0, UInt32.toNat_zero] at hmax
    constructor
    · exact UInt32.toNat_inj.1 (by rw [UInt32.toNat_zero]; omega)
    · exact UInt32.toNat_inj.1 (by rw [UInt32.toNat_zero]; omega)
  · exact absurd rfl h

/-- An error creates supplementary data only for no bytes, or without the memory for it. -/
theorem host_error_new (h : (c.vxExtendSupplementaryUserDataObject none source user sourceBytes userBytes).1 ≠ vxSuccess) :
    (c.vxExtendSupplementaryUserDataObject none source user sourceBytes userBytes).2 = none ∨
      sourceBytes = 0 ∧ userBytes = 0 ∨ c.allocates = false := by
  unfold HostCall.vxExtendSupplementaryUserDataObject at h ⊢
  split
  · exact .inl rfl
  · rename_i h1
    rw [if_neg h1] at h
    split
    · exact .inl rfl
    · rename_i h2
      rw [if_neg h2] at h
      cases hs : c.supplement none source sourceBytes userBytes with
      | mk st o =>
        cases o with
        | none => exact .inl rfl
        | some d =>
          simp only [hs] at h ⊢
          split
          · rename_i ha
            exact .inr (.inr (by simpa using ha))
          · rename_i ha
            rw [if_neg ha] at h
            obtain ⟨s, rfl, rfl, hsize⟩ := supplement_new hs
            dsimp only at h
            exact .inr (.inl (zero_of_error (s := s) (by rfl) (by rfl) hsize h))

/-- The bytes of the host are those of the target where the source's count is what the target takes. -/
theorem hostBytes_followed (d : SuppData) (user : Option UserBuffer) :
    d.hostBytes source user (sourcePrefix source numBytes).toNat numBytes.toNat =
      d.followed source user (sourcePrefix source numBytes).toNat numBytes.toNat := by
  have hle := UInt32.le_iff_toNat_le.1 (sourcePrefix_le source numBytes)
  funext i
  unfold hostBytes followed
  rw [if_pos hle]
  split
  · rename_i hi
    apply if_pos
    cases source with
    | none => rfl
    | some s =>
      simp only [Option.all_some, decide_eq_true_eq]
      exact Nat.lt_of_lt_of_le hi (UInt32.le_iff_toNat_le.1 (sourcePrefix_le_valid s numBytes))
  · rfl

/-! ### Looking up -/

/-- The data is the reference's own, or nowhere, or at most two parents up from an image. -/
def SuppRef.Near (r : SuppRef) : Prop :=
  r.supplementaryData ≠ none ∨ searchParents none r.parents = none ∨
    r.type = .image ∧ searchParents none (r.parents.take 2) ≠ none

theorem searchDepth_eq (depth : Nat) (own : Option Nat) (parents : List (Option Nat)) :
    searchDepth depth own parents = searchParents own (parents.take (2 - depth)) := by
  induction parents generalizing depth own with
  | nil =>
    rw [List.take_nil]
    cases own <;> rfl
  | cons parent parents ih =>
    cases own with
    | some d =>
      unfold searchDepth
      cases (parent :: parents).take (2 - depth) <;> rfl
    | none =>
      unfold searchDepth
      split
      · rename_i h
        rw [ih, show 2 - depth = 2 - (depth + 1) + 1 by omega, List.take_succ_cons]
        rfl
      · rename_i h
        rw [show 2 - depth = 0 by omega, List.take_zero]
        rfl

theorem searchParents_take {own : Option Nat} {parents : List (Option Nat)} {n e : Nat}
    (h : searchParents own (parents.take n) = some e) : searchParents own parents = some e := by
  induction parents generalizing n own with
  | nil => rwa [List.take_nil] at h
  | cons parent parents ih =>
    cases own with
    | some d =>
      cases hl : (parent :: parents).take n <;> rw [hl] at h <;> exact h
    | none =>
      cases n with
      | zero => cases h
      | succ n => exact ih h

/-- **Both look-ups find the same object**. -/
theorem lookup_agree {r : SuppRef} (hr : r.Near) (typeNames : Nat → List UInt8) {inKernel isInput : Bool}
    (hk : (!inKernel || isInput) = true) (typeName : Option (List UInt8)) :
    r.vxGetSupplementaryUserDataObject typeNames inKernel isInput typeName =
      r.tivxGetSupplementaryDataObjDesc typeNames typeName := by
  obtain ⟨type, own, parents⟩ := r
  unfold SuppRef.vxGetSupplementaryUserDataObject SuppRef.tivxGetSupplementaryDataObjDesc
  simp only [hk, Bool.true_and, searchDepth_eq]
  congr 1
  cases own with
  | some d => cases parents <;> cases type <;> rfl
  | none =>
    rcases hr with hr | hr | ⟨hi, hr⟩
    · exact absurd rfl hr
    · have hr : searchParents none parents = none := hr
      have htake : searchParents none (parents.take (2 - 0)) = none := by
        rw [Option.eq_none_iff_forall_ne_some]
        intro e he
        rw [searchParents_take he] at hr
        cases hr
      rw [hr, htake, ite_self, ite_self]
    · obtain rfl : type = .image := hi
      obtain ⟨e, he⟩ := Option.ne_none_iff_exists'.1 hr
      have he : searchParents none (parents.take 2) = some e := he
      exact (searchParents_take he).trans he.symm

/-- The bytes a call writes: those of the source's prefix, and with a user buffer all that are asked for. -/
def WrittenByte (source : Option SuppData) (user : Option UserBuffer) (numBytes : UInt32) (i : Nat) : Prop :=
  i < (sourcePrefix source numBytes).toNat ∨ user.isSome ∧ i < numBytes.toNat

/-- What the two calls do on supplementary data `d`, from one source and one user buffer. -/
structure ExtendsAlike (c : HostCall) (d : SuppData) (source : Option SuppData) (user : Option UserBuffer) : Prop where
  /-- The target: the source's prefix, then the user's bytes; the valid size is what was written. -/
  target : ∀ numBytes t, tivxExtendSupplementaryDataObjDesc (some d) source user numBytes = (vxSuccess, t) →
    ∃ d', t = some d' ∧ d.TargetExtended source user numBytes d' ∧
      ∀ i < d'.validMemSize.toNat, WrittenByte source user numBytes i
  /-- The host: as is documented for either order of the counts; the valid size does not shrink. -/
  host : ∀ destination sourceBytes userBytes t,
    c.vxExtendSupplementaryUserDataObject destination source user sourceBytes userBytes = (vxSuccess, t) →
      ∃ b d', hostBase destination source = some b ∧ t = some d' ∧
        d'.bytes = b.hostBytes source user sourceBytes.toNat userBytes.toNat ∧
        d'.validMemSize.toNat = max b.validMemSize.toNat (max sourceBytes.toNat userBytes.toNat)
  /-- Equal bytes, where the host is given the counts of the target. -/
  alike : ∀ numBytes h t,
    c.vxExtendSupplementaryUserDataObject (some d) source user (sourcePrefix source numBytes) numBytes = (vxSuccess, some h) →
    tivxExtendSupplementaryDataObjDesc (some d) source user numBytes = (vxSuccess, some t) →
    (user.isSome = true ∨ sourcePrefix source numBytes = numBytes) →
      h.bytes = t.bytes ∧ h.validMemSize.toNat = max d.validMemSize.toNat t.validMemSize.toNat ∧
        ∀ i < h.validMemSize.toNat, i < d.validMemSize.toNat ∨ WrittenByte source user numBytes i
  hostError : ∀ sourceBytes userBytes,
    (c.vxExtendSupplementaryUserDataObject (some d) source user sourceBytes userBytes).1 ≠ vxSuccess →
      ∃ d', (c.vxExtendSupplementaryUserDataObject (some d) source user sourceBytes userBytes).2 = some d' ∧ d.Same d'
  hostErrorNew : ∀ sourceBytes userBytes,
    (c.vxExtendSupplementaryUserDataObject none source user sourceBytes userBytes).1 ≠ vxSuccess →
      (c.vxExtendSupplementaryUserDataObject none source user sourceBytes userBytes).2 = none ∨
        sourceBytes = 0 ∧ userBytes = 0 ∨ c.allocates = false
  targetError : ∀ numBytes, (tivxExtendSupplementaryDataObjDesc (some d) source user numBytes).1 ≠ vxSuccess →
    (tivxExtendSupplementaryDataObjDesc (some d) source user numBytes).2 = some d

theorem TargetExtended.written {d' : SuppData} (h : d.TargetExtended source user numBytes d') {i : Nat}
    (hi : i < d'.validMemSize.toNat) : WrittenByte source user numBytes i := by
  rw [h.valid] at hi
  split at hi
  · rename_i hu
    exact .inr ⟨hu, hi⟩
  · exact .inl hi

theorem extendsAlike (c : HostCall) (d : SuppData) (source : Option SuppData) (user : Option UserBuffer) :
    ExtendsAlike c d source user where
  target numBytes t h := by
    obtain ⟨d', rfl, hd⟩ := target_spec h
    exact ⟨d', rfl, hd, fun i hi => TargetExtended.written hd hi⟩
  host destination sourceBytes userBytes t h := host_spec h
  alike numBytes h t hh ht hu := by
    obtain ⟨b, d', hb, hd', hbytes, hvalid⟩ := host_spec hh
    cases hb
    cases hd'
    obtain ⟨e, he, hext⟩ := target_spec ht
    cases he
    have hle := UInt32.le_iff_toNat_le.1 (sourcePrefix_le source numBytes)
    have htv : t.validMemSize = numBytes := by
      rw [hext.valid]
      split
      · rfl
      · rename_i hnone
        exact hu.resolve_left hnone
    have hv : h.validMemSize.toNat = max d.validMemSize.toNat t.validMemSize.toNat := by
      rw [hvalid, htv, Nat.max_eq_right hle]
    refine ⟨?_, hv, fun i hi => ?_⟩
    · rw [hbytes, hext.bytes, hostBytes_followed]
    · by_cases hold : i < d.validMemSize.toNat
      · exact .inl hold
      · exact .inr (TargetExtended.written hext (by omega))
  hostError sourceBytes userBytes h := host_error h
  hostErrorNew sourceBytes userBytes h := host_error_new h
  targetError numBytes h := target_error (some d) source user numBytes h

/-- **Host and target extend supplementary data alike**, where the host is given the counts of the target; an error changes
nothing; and near data is found by both. -/
theorem supplementary_agree (c : HostCall) (d : SuppData) (source : Option SuppData) (user : Option UserBuffer) :
    ExtendsAlike c d source user ∧
      ∀ (r : SuppRef), r.Near →
        ∀ (typeNames : Nat → List UInt8) (inKernel isInput : Bool), (!inKernel || isInput) = true → ∀ typeName,
          r.vxGetSupplementaryUserDataObject typeNames inKernel isInput typeName =
            r.tivxGetSupplementaryDataObjDesc typeNames typeName :=
  ⟨extendsAlike c d source user, fun _ hr typeNames _ _ hk typeName => lookup_agree hr typeNames hk typeName⟩

/-- Eight bytes of `b`, of which `valid` are valid. -/
def eightBytes (b : UInt8) (valid : UInt32) : SuppData := ⟨[], 8, valid, true, fun _ => b⟩

/-- Four bytes of the source and two of the user. -/
theorem supplement_alike : ∃ h t,
    ({} : HostCall).vxExtendSupplementaryUserDataObject (some (eightBytes 0 8)) (some (eightBytes 1 4)) (some fun _ => 2) 4 6 =
      (vxSuccess, some h) ∧
    tivxExtendSupplementaryDataObjDesc (some (eightBytes 0 8)) (some (eightBytes 1 4)) (some fun _ => 2) 6 =
      (vxSuccess, some t) ∧ h.bytes = t.bytes := by
  obtain ⟨hex, -⟩ := supplementary_agree {} (eightBytes 0 8) (some (eightBytes 1 4)) (some fun _ => 2)
  exact ⟨_, _, rfl, rfl, (hex.alike 6 _ _ rfl rfl (.inl rfl)).1⟩

/-- The valid sizes differ after these; with more bytes of the source than of the user the host puts the user's first; and a
target does not find what is three parents up. -/
theorem supplementary_differs :
    (∃ h t,
      ({} : HostCall).vxExtendSupplementaryUserDataObject (some (eightBytes 0 8)) (some (eightBytes 1 4)) (some fun _ => 2) 4 6 =
        (vxSuccess, some h) ∧
      tivxExtendSupplementaryDataObjDesc (some (eightBytes 0 8)) (some (eightBytes 1 4)) (some fun _ => 2) 6 =
        (vxSuccess, some t) ∧ h.validMemSize = 8 ∧ t.validMemSize = 6) ∧
    (∃ h t,
      ({} : HostCall).vxExtendSupplementaryUserDataObject (some (eightBytes 0 8)) (some (eightBytes 1 4)) (some fun _ => 2) 4 2 =
        (vxSuccess, some h) ∧
      tivxExtendSupplementaryDataObjDesc (some (eightBytes 0 8)) (some (eightBytes 1 4)) (some fun _ => 2) 4 =
        (vxSuccess, some t) ∧ h.bytes 0 = 2 ∧ t.bytes 0 = 1) ∧
    (SuppRef.mk .image none [none, none, some 7]).vxGetSupplementaryUserDataObject (fun _ => []) false false none = some 7 ∧
      (SuppRef.mk .image none [none, none, some 7]).tivxGetSupplementaryDataObjDesc (fun _ => []) none = none :=
  ⟨⟨_, _, rfl, rfl, rfl, rfl⟩, ⟨_, _, rfl, rfl, rfl, rfl⟩, rfl, rfl⟩

end Tiovx
