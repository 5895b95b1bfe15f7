import Mathlib.Tactic
import Tiovx.Lib.Run
import Tiovx.SupplementaryData
/-!
# UserDataObjects — the sizes and the contents of user data objects (`vx_user_data_object.c`, `vx_reference.c`)

A user data object has a size, a valid size and a buffer that is allocated when it is first needed.  A run of calls is compared
with what the calls are for: a store of contents of so many bytes.
-/
namespace Tiovx

open StepSystem

/-- Memory of the allocator; `bytes` beyond its size are those of other memory. -/
structure DataBuffer where
  size : Nat
  bytes : Nat → UInt8

/-- A user data object with its descriptor, and the size it was created with. -/
structure UserDataObject where
  typeName : List UInt8
  requested : UInt64
  memSize : UInt32
  validMemSize : UInt32
  buffer : Option DataBuffer := none

/-- `ownInitUserDataObjectObject`. -/
def ownInitUserDataObjectObject (typeName : List UInt8) (size : UInt64) : UserDataObject where
  typeName := typeName
  requested := size
  memSize := size.toUInt32
  validMemSize := size.toUInt32

/-- `n` bytes written from `offset` on. -/
def writeBytes (bytes : Nat → UInt8) (offset n : Nat) (data : Nat → UInt8) (i : Nat) : UInt8 :=
  if offset ≤ i ∧ i < offset + n then data (i - offset) else bytes i

def readBytes (bytes : Nat → UInt8) (offset n : Nat) : List UInt8 := (List.range n).map (fun i => bytes (offset + i))

namespace UserDataObject

/-- The bytes of the buffer, or those an allocation writes. -/
def bytes (D : UserDataObject) : Nat → UInt8 := D.buffer.elim (fun _ => 0) DataBuffer.bytes

/-- An access to bytes that are not all in the buffer. -/
def faults (D : UserDataObject) (offset n : Nat) : Bool := D.buffer.any (fun b => b.size < offset + n)

/-- `ownAllocReferenceBufferGeneric`, with whether it succeeds. -/
def ownAllocReferenceBufferGeneric (D : UserDataObject) (allocates : Bool) : UserDataObject × Bool :=
  if D.buffer.isSome then (D, true)
  else if allocates then ({ D with buffer := some ⟨D.memSize.toNat, fun _ => 0⟩ }, D.memSize != 0)
  else (D, false)

/-- The sum of the offset and the size is at most `mem_size`, in 64 bits. -/
def inRange (D : UserDataObject) (offset size : UInt64) : Bool := !(offset + size > D.memSize.toUInt64)

/-- `vxCopyUserDataObject` that writes; the object, the status and whether it accesses other memory. -/
def write (D : UserDataObject) (offset size : UInt64) (data : Nat → UInt8) (readOnly allocates : Bool) :
    UserDataObject × Bool × Bool :=
  if size < 1 || !D.inRange offset size || readOnly then (D, false, false)
  else
    let (D, allocated) := D.ownAllocReferenceBufferGeneric allocates
    if allocated then
      ({ D with buffer := D.buffer.map (fun b => { b with bytes := writeBytes b.bytes offset.toNat size.toNat data }) }, true,
        D.faults offset.toNat size.toNat)
    else (D, false, false)

/-- `vxCopyUserDataObject` that reads. -/
def read (D : UserDataObject) (offset size : UInt64) : Option (List UInt8) :=
  if D.buffer.isNone || size < 1 || !D.inRange offset size then none else some (readBytes D.bytes offset.toNat size.toNat)

/-- `vxMapUserDataObject`; `free` is whether there is a slot, and no byte changes. -/
def map (D : UserDataObject) (offset size : UInt64) (refused allocates free : Bool) : UserDataObject × Bool × Bool :=
  if !D.inRange offset size || refused then (D, false, false)
  else
    let (D, allocated) := D.ownAllocReferenceBufferGeneric allocates
    if allocated && free then
      let mapSize := if size > 0 then size.toUInt32 else D.memSize - offset.toUInt32
      (D, true, D.faults offset.toNat mapSize.toNat)
    else (D, false, false)

/-- `ownIsMetaFormatUserDataObjectEqual`. -/
def isMetaFormatEqual (I O : UserDataObject) : Bool := I.memSize == O.memSize && I.typeName == O.typeName

/-- The object as supplementary data. -/
def supp (D : UserDataObject) : SuppData := ⟨D.typeName, D.memSize, D.validMemSize, D.buffer.isSome, D.bytes⟩

/-- The object after its supplementary data has been extended, which has memory then. -/
def extended (D : UserDataObject) (d : SuppData) : UserDataObject :=
  { D with
    validMemSize := d.validMemSize
    buffer := some ⟨(D.buffer.elim D.memSize.toNat DataBuffer.size), d.bytes⟩ }

end UserDataObject

/-- The user data objects, whether a call has accessed other memory (the bytes are not followed any further then), and what the
calls have read. -/
structure UserDataStore where
  objects : Nat → Option UserDataObject := fun _ => none
  fault : Bool := false
  outputs : List (List UInt8) := []

/-- The calls; `readOnly` is the check of `parent` and `owner`, and `allocates` whether memory can be allocated.  A handle that is
imported is null, or memory of the size given that is no other object's. -/
inductive UserDataAction
  | vxCreateUserDataObject (r : Nat) (typeName : List UInt8) (size : UInt64) (data : Option (Nat → UInt8)) (allocates : Bool)
  | vxReleaseUserDataObject (r : Nat)
  | vxSetUserDataObjectAttribute (r : Nat) (value : UInt64) (readOnly : Bool)
  | write (r : Nat) (offset size : UInt64) (data : Nat → UInt8) (readOnly allocates : Bool)
  | read (r : Nat) (offset size : UInt64)
  | vxMapUserDataObject (r : Nat) (offset size : UInt64) (refused allocates free : Bool)
  | copy (input output : Nat)
  | swap (input output : Nat)
  | extend (c : HostCall) (destination : Nat) (source : Option Nat) (user : Option UserBuffer) (sourceBytes userBytes : UInt32)
  | tivxExtend (destination : Nat) (source : Option Nat) (user : Option UserBuffer) (numBytes : UInt32)
  | tivxReferenceImportHandle (r : Nat) (size : UInt32) (memory : Option (Nat → UInt8))
  | ownAllocReferenceBufferGeneric (r : Nat) (allocates : Bool)

namespace UserDataStore

variable (s : UserDataStore)

def setObject (r : Nat) (D : UserDataObject) : UserDataStore := { s with objects := Function.update s.objects r (some D) }

/-- `setObject` with what the call has accessed. -/
def store (r : Nat) (R : UserDataObject × Bool × Bool) : UserDataStore × Bool :=
  ({ s.setObject r R.1 with fault := s.fault || R.2.2 }, R.2.1)

/-- `ownCreateUserDataObject`; with data that cannot be written the object is released. -/
def create (r : Nat) (typeName : List UInt8) (size : UInt64) (data : Option (Nat → UInt8)) (allocates : Bool) :
    UserDataStore × Bool :=
  if size < 1 then (s, false)
  else
    match data with
    | none => (s.setObject r (ownInitUserDataObjectObject typeName size), true)
    | some u =>
      let R := (ownInitUserDataObjectObject typeName size).write 0 size u false allocates
      if R.2.1 then s.store r R else (s, false)

/-- `ownCopyReferenceGeneric`. -/
def ownCopyReferenceGeneric (output : Nat) (I O : UserDataObject) : UserDataStore × Bool :=
  match I.buffer, O.buffer with
  | some bi, some bo =>
    if I.memSize ≤ O.memSize && I.memSize != 0 && O.memSize != 0 then
      let n := I.memSize.toNat
      ({ s.setObject output { O with
            buffer := some { bo with bytes := fun i => if i < n then bi.bytes i else bo.bytes i }
            validMemSize := I.validMemSize } with
        fault := s.fault || I.faults 0 n || O.faults 0 n }, true)
    else (s, false)
  | _, _ => (s, false)

/-- `ownSwapReferenceGeneric`, for swap and move. -/
def ownSwapReferenceGeneric (input output : Nat) (I O : UserDataObject) : UserDataStore :=
  if input = output then s
  else (s.setObject input { I with buffer := O.buffer }).setObject output { O with buffer := I.buffer }

/-- `vxExtendSupplementaryUserDataObject` where the destination has supplementary data, the object `destination`. -/
def extend (c : HostCall) (destination : Nat) (D : UserDataObject) (source : Option (Nat × UserDataObject))
    (user : Option UserBuffer) (sourceBytes userBytes : UInt32) : UserDataStore × Bool :=
  match c.vxExtendSupplementaryUserDataObject (some D.supp) (source.map (·.2.supp)) user sourceBytes userBytes with
  | (status, some d) =>
    if status = vxSuccess then
      let n := max sourceBytes.toNat userBytes.toNat
      let s' := match source with
        | some (i, S) => s.setObject i (S.ownAllocReferenceBufferGeneric true).1
        | none => s
      ({ s'.setObject destination (D.extended d) with
        fault := s.fault || (D.extended d).faults 0 n || source.any (fun S => S.2.faults 0 sourceBytes.toNat) }, true)
    else (s, false)
  | (_, none) => (s, false)

/-- `tivxExtendSupplementaryDataObjDesc`. -/
def tivxExtend (destination : Nat) (D : UserDataObject) (source : Option (Nat × UserDataObject)) (user : Option UserBuffer)
    (numBytes : UInt32) : UserDataStore × Bool :=
  match tivxExtendSupplementaryDataObjDesc (some D.supp) (source.map (·.2.supp)) user numBytes with
  | (status, some d) =>
    if status = vxSuccess then
      ({ s.setObject destination (D.extended d) with
        fault := s.fault || (D.extended d).faults 0 numBytes.toNat ||
          source.any (fun S => S.2.faults 0 (sourcePrefix (some S.2.supp) numBytes).toNat) }, true)
    else (s, false)
  | (_, none) => (s, false)

/-- A call on objects that are there: the state and whether it succeeds. -/
def call : UserDataAction → Option (UserDataStore × Bool)
  | .vxCreateUserDataObject r typeName size data allocates =>
    if (s.objects r).isSome then none else some (s.create r typeName size data allocates)
  | .vxReleaseUserDataObject r => (s.objects r).map (fun _ => ({ s with objects := Function.update s.objects r none }, true))
  | .vxSetUserDataObjectAttribute r value readOnly => (s.objects r).map (fun D =>
    if readOnly then (s, false) else (s.setObject r { D with validMemSize := value.toUInt32 }, true))
  | .write r offset size data readOnly allocates => (s.objects r).map (fun D =>
    s.store r (D.write offset size data readOnly allocates))
  | .read r offset size => (s.objects r).map (fun D =>
    match D.read offset size with
    | some out => ({ s with outputs := s.outputs ++ [out], fault := s.fault || D.faults offset.toNat size.toNat }, true)
    | none => (s, false))
  | .vxMapUserDataObject r offset size refused allocates free => (s.objects r).map (fun D =>
    s.store r (D.map offset size refused allocates free))
  | .copy input output => (s.objects input).bind (fun I => (s.objects output).map (fun O =>
    if I.isMetaFormatEqual O then s.ownCopyReferenceGeneric output I O else (s, false)))
  | .swap input output => (s.objects input).bind (fun I => (s.objects output).map (fun O =>
    if I.isMetaFormatEqual O then (s.ownSwapReferenceGeneric input output I O, true) else (s, false)))
  | .extend c destination source user sourceBytes userBytes => (s.objects destination).bind (fun D =>
    match source with
    | none => some (s.extend c destination D none user sourceBytes userBytes)
    | some i => (s.objects i).map (fun S => s.extend c destination D (some (i, S)) user sourceBytes userBytes))
  | .tivxExtend destination source user numBytes => (s.objects destination).bind (fun D =>
    match source with
    | none => some (s.tivxExtend destination D none user numBytes)
    | some i => (s.objects i).map (fun S => s.tivxExtend destination D (some (i, S)) user numBytes))
  | .tivxReferenceImportHandle r size memory => (s.objects r).map (fun D =>
    if size = D.memSize then (s.setObject r { D with buffer := memory.map (fun m => ⟨D.memSize.toNat, m⟩) }, true)
    else (s, false))
  | .ownAllocReferenceBufferGeneric r allocates => (s.objects r).map (fun D =>
    (s.setObject r (D.ownAllocReferenceBufferGeneric allocates).1, (D.ownAllocReferenceBufferGeneric allocates).2))

end UserDataStore

/-! ## What the calls are for -/

/-- So many bytes, of which the first `valid` are valid. -/
structure Contents where
  size : Nat
  valid : Nat
  bytes : Nat → UInt8

/-- Contents as supplementary data. -/
def Contents.supp (C : Contents) : SuppData := ⟨[], C.size.toUInt32, C.valid.toUInt32, true, C.bytes⟩

/-- Contents of objects, and what has been read. -/
structure ContentsStore where
  objects : Nat → Option Contents := fun _ => none
  outputs : List (List UInt8) := []

namespace ContentsStore

variable (s : ContentsStore)

def modify (r : Nat) (f : Contents → Contents) : ContentsStore :=
  { s with objects := Function.update s.objects r ((s.objects r).map f) }

/-- What a call that succeeds is for. -/
def effect : UserDataAction → ContentsStore
  | .vxCreateUserDataObject r _ size data _ =>
    { s with objects := Function.update s.objects r (some ⟨size.toNat, size.toNat, data.getD (fun _ => 0)⟩) }
  | .vxReleaseUserDataObject r => { s with objects := Function.update s.objects r none }
  | .vxSetUserDataObjectAttribute r value _ => s.modify r (fun C => { C with valid := value.toNat })
  | .write r offset size data _ _ => s.modify r (fun C => { C with bytes := writeBytes C.bytes offset.toNat size.toNat data })
  | .read r offset size =>
    { s with outputs := s.outputs ++ ((s.objects r).map (fun C => readBytes C.bytes offset.toNat size.toNat)).toList }
  | .vxMapUserDataObject .. => s
  | .copy input output => { s with objects := Function.update s.objects output (s.objects input) }
  | .swap input output =>
    { s with objects := Function.update (Function.update s.objects input (s.objects output)) output (s.objects input) }
  | .extend _ destination source user sourceBytes userBytes => s.modify destination (fun C =>
    { C with
      valid := max C.valid (max sourceBytes.toNat userBytes.toNat)
      bytes := C.supp.hostBytes ((source.bind s.objects).map Contents.supp) user sourceBytes.toNat userBytes.toNat })
  | .tivxExtend destination source user numBytes => s.modify destination (fun C =>
    let p := (sourcePrefix ((source.bind s.objects).map Contents.supp) numBytes).toNat
    { C with
      valid := if user.isSome then numBytes.toNat else p
      bytes := C.supp.followed ((source.bind s.objects).map Contents.supp) user p numBytes.toNat })
  | .tivxReferenceImportHandle r _ memory => s.modify r (fun C => { C with bytes := memory.getD (fun _ => 0) })
  | .ownAllocReferenceBufferGeneric .. => s

end ContentsStore

/-- A run of the code, beside what its calls are for. -/
structure UserDataRun where
  code : UserDataStore := {}
  spec : ContentsStore := {}

/-- One call; what it is for happens where it succeeds. -/
def userDataStep (R : UserDataRun) (a : UserDataAction) : Option UserDataRun :=
  (R.code.call a).map (fun c => ⟨c.1, if c.2 then R.spec.effect a else R.spec⟩)

/-- An object has the contents `C`, and its sizes are right. -/
structure UserDataObject.Represents (D : UserDataObject) (C : Contents) : Prop where
  requested : D.requested.toNat = C.size
  memSize : D.memSize.toNat = C.size
  valid : D.validMemSize.toNat = C.valid
  validLe : D.validMemSize ≤ D.memSize
  allocated : ∀ b, D.buffer = some b → b.size = C.size
  bytes : ∀ i < C.size, D.bytes i = C.bytes i

/-- **The user data objects are right**: each has the contents that the calls have given it, of the size requested, no call has
accessed other memory than a buffer's, and the reads have returned the contents. -/
structure UserDataOk (R : UserDataRun) : Prop where
  noFault : R.code.fault = false
  outputs : R.code.outputs = R.spec.outputs
  contents : ∀ r, Option.Rel UserDataObject.Represents (R.code.objects r) (R.spec.objects r)

/-- Where a call fits: an object is created with less than 2^32 bytes, its valid size is set to at most its size, an offset and a
size do not wrap around, and the objects that are swapped have the same valid size. -/
def userDataFits (R : UserDataRun) : UserDataAction → Bool
  | .vxCreateUserDataObject _ _ size _ _ => size.toNat < 2 ^ 32
  | .vxSetUserDataObjectAttribute r value readOnly =>
    readOnly || (R.code.objects r).all (fun D => value.toNat ≤ D.memSize.toNat)
  | .write _ offset size _ _ _ => offset.toNat + size.toNat < 2 ^ 64
  | .read _ offset size => offset.toNat + size.toNat < 2 ^ 64
  | .vxMapUserDataObject _ offset size _ _ _ => offset.toNat + size.toNat < 2 ^ 64
  | .swap input output =>
    (R.code.objects input).map UserDataObject.validMemSize == (R.code.objects output).map UserDataObject.validMemSize
  | _ => true

/-! ## When the objects are right -/

variable {R R' : UserDataRun} {D S : UserDataObject} {C T : Contents} {offset size : UInt64} {s : UserDataStore}

theorem option_rel_update {f : Nat → Option UserDataObject} {g : Nat → Option Contents}
    (h : ∀ r, Option.Rel UserDataObject.Represents (f r) (g r)) (r : Nat) {x : Option UserDataObject} {y : Option Contents}
    (hxy : Option.Rel UserDataObject.Represents x y) (i : Nat) :
    Option.Rel UserDataObject.Represents (Function.update f r x i) (Function.update g r y i) := by
  by_cases hi : i = r
  · subst hi
    rwa [Function.update_self, Function.update_self]
  · rw [Function.update_of_ne hi, Function.update_of_ne hi]
    exact h i

theorem readBytes_congr {b c : Nat → UInt8} {k n m : Nat} (h : ∀ i < m, b i = c i) (hle : k + n ≤ m) :
    readBytes b k n = readBytes c k n := by
  apply List.map_congr_left
  intro i hi
  have := List.mem_range.1 hi
  exact h _ (by omega)

theorem writeBytes_congr {b c data : Nat → UInt8} {k n m : Nat} (h : ∀ i < m, b i = c i) :
    ∀ i < m, writeBytes b k n data i = writeBytes c k n data i := by
  intro i hi
  unfold writeBytes
  rw [h i hi]

namespace UserDataObject

theorem inRange_spec (h : D.inRange offset size = true) (hw : offset.toNat + size.toNat < 2 ^ 64) :
    offset.toNat + size.toNat ≤ D.memSize.toNat := by
  unfold inRange at h
  have hle : offset + size ≤ D.memSize.toUInt64 := UInt64.not_lt.1 (by simpa using h)
  have := UInt64.le_iff_toNat_le.1 hle
  rw [UInt64.toNat_add, Nat.mod_eq_of_lt hw, UInt32.toNat_toUInt64] at this
  exact this

theorem Represents.faults_eq (h : D.Represents C) {k n : Nat} (hle : k + n ≤ C.size) : D.faults k n = false := by
  unfold faults
  cases hb : D.buffer with
  | none => rfl
  | some b =>
    have := h.allocated b hb
    simp only [Option.any_some, decide_eq_false_iff_not]
    omega

theorem Represents.buffer_bytes (h : D.Represents C) {b : DataBuffer} (hb : D.buffer = some b) :
    ∀ i < C.size, b.bytes i = C.bytes i := by
  intro i hi
  rw [← h.bytes i hi, UserDataObject.bytes, hb]
  rfl

/-- An object with another buffer of its size. -/
theorem Represents.withBuffer (h : D.Represents C) {b : DataBuffer} (hb : b.size = C.size) {f : Nat → UInt8}
    (hf : ∀ i < C.size, b.bytes i = f i) : { D with buffer := some b }.Represents { C with bytes := f } where
  requested := h.requested
  memSize := h.memSize
  valid := h.valid
  validLe := h.validLe
  allocated b' hb' := by
    cases hb'
    exact hb
  bytes := hf

theorem Represents.withValid (h : D.Represents C) {v : UInt32} {n : Nat} (hv : v.toNat = n) (hn : n ≤ C.size) :
    { D with validMemSize := v }.Represents { C with valid := n } where
  requested := h.requested
  memSize := h.memSize
  valid := hv
  validLe := by
    apply UInt32.le_iff_toNat_le.2
    show v.toNat ≤ D.memSize.toNat
    rw [hv, h.memSize]
    exact hn
  allocated := h.allocated
  bytes := h.bytes

/-- Supplementary data after an extension. -/
theorem Represents.extended (h : D.Represents C) {d : SuppData} {n : Nat} {f : Nat → UInt8} (hv : d.validMemSize.toNat = n)
    (hn : n ≤ C.size) (hf : ∀ i < C.size, d.bytes i = f i) : (D.extended d).Represents { C with valid := n, bytes := f } := by
  have hsize : D.buffer.elim D.memSize.toNat DataBuffer.size = C.size := by
    cases hb : D.buffer with
    | none => exact h.memSize
    | some b => exact h.allocated b hb
  exact (h.withBuffer (b := ⟨_, d.bytes⟩) hsize hf).withValid hv hn

/-- An allocation writes the bytes that memory which is not allocated stands for. -/
theorem Represents.alloc (h : D.Represents C) (allocates : Bool) :
    ∃ D' ok, D.ownAllocReferenceBufferGeneric allocates = (D', ok) ∧ D'.Represents C ∧ (ok = true → D'.buffer.isSome = true) := by
  unfold ownAllocReferenceBufferGeneric
  cases hb : D.buffer with
  | some b => exact ⟨D, true, rfl, h, fun _ => hb ▸ rfl⟩
  | none =>
    cases allocates with
    | false => exact ⟨D, false, rfl, h, nofun⟩
    | true =>
      refine ⟨_, _, rfl, h.withBuffer h.memSize ?_, fun _ => rfl⟩
      intro i hi
      rw [← h.bytes i hi, UserDataObject.bytes, hb]
      rfl

theorem Represents.init {typeName : List UInt8} (hs : size.toNat < 2 ^ 32) :
    (ownInitUserDataObjectObject typeName size).Represents ⟨size.toNat, size.toNat, fun _ => 0⟩ where
  requested := rfl
  memSize := by
    show size.toUInt32.toNat = size.toNat
    rw [UInt64.toNat_toUInt32, Nat.mod_eq_of_lt hs]
  valid := by
    show size.toUInt32.toNat = size.toNat
    rw [UInt64.toNat_toUInt32, Nat.mod_eq_of_lt hs]
  validLe := UInt32.le_refl _
  allocated _ hb := nomatch hb
  bytes _ _ := rfl

/-- A write puts the bytes, and only into the buffer. -/
theorem Represents.write (h : D.Represents C) (hw : offset.toNat + size.toNat < 2 ^ 64) (data : Nat → UInt8)
    (readOnly allocates : Bool) :
    ∃ D' ok, D.write offset size data readOnly allocates = (D', ok, false) ∧
      D'.Represents (if ok then { C with bytes := writeBytes C.bytes offset.toNat size.toNat data } else C) := by
  unfold UserDataObject.write
  split
  · exact ⟨D, false, rfl, h⟩
  · rename_i hc
    simp only [Bool.or_eq_true, Bool.not_eq_true', not_or, Bool.not_eq_false] at hc
    have hin := inRange_spec hc.1.2 hw
    obtain ⟨D', ok, he, h', hok⟩ := h.alloc allocates
    rw [he]
    cases ok with
    | false => exact ⟨D', false, rfl, h'⟩
    | true =>
      obtain ⟨b, hb⟩ := Option.isSome_iff_exists.1 (hok rfl)
      refine ⟨_, true, Prod.ext rfl (Prod.ext rfl (h'.faults_eq (h.memSize ▸ hin))), ?_⟩
      simp only [hb, if_true, Option.map_some]
      refine h'.withBuffer (b := ⟨b.size, writeBytes b.bytes offset.toNat size.toNat data⟩) (h'.allocated b hb) ?_
      apply writeBytes_congr
      exact h'.buffer_bytes hb

/-- A read returns the contents, and only from the buffer. -/
theorem Represents.read (h : D.Represents C) (hw : offset.toNat + size.toNat < 2 ^ 64) {out : List UInt8}
    (hr : D.read offset size = some out) :
    out = readBytes C.bytes offset.toNat size.toNat ∧ D.faults offset.toNat size.toNat = false := by
  unfold UserDataObject.read at hr
  split at hr
  · cases hr
  · rename_i hc
    simp only [Bool.or_eq_true, Bool.not_eq_true', not_or, Bool.not_eq_false] at hc
    have hin := h.memSize ▸ inRange_spec hc.2 hw
    cases hr
    exact ⟨readBytes_congr h.bytes hin, h.faults_eq hin⟩

/-- A map gives access to the buffer only. -/
theorem Represents.map (h : D.Represents C) (hw : offset.toNat + size.toNat < 2 ^ 64) (refused allocates free : Bool) :
    ∃ D' ok, D.map offset size refused allocates free = (D', ok, false) ∧ D'.Represents C := by
  unfold UserDataObject.map
  split
  · exact ⟨D, false, rfl, h⟩
  · rename_i hc
    simp only [Bool.or_eq_true, Bool.not_eq_true', not_or, Bool.not_eq_false] at hc
    have hin := inRange_spec hc.1 hw
    obtain ⟨D', ok, he, h', -⟩ := h.alloc allocates
    rw [he]
    dsimp only
    split
    · refine ⟨D', true, Prod.ext rfl (Prod.ext rfl (h'.faults_eq ?_)), h'⟩
      have hlt := D.memSize.toNat_lt
      have hm := h'.memSize
      have hD := h.memSize
      split
      · rw [UInt64.toNat_toUInt32]
        have := Nat.mod_le size.toNat (2 ^ 32)
        omega
      · have ho : offset.toUInt32.toNat = offset.toNat := by
          rw [UInt64.toNat_toUInt32]
          exact Nat.mod_eq_of_lt (by omega)
        rw [UInt32.toNat_sub_of_le, ho]
        · omega
        · apply UInt32.le_iff_toNat_le.2
          omega
    · exact ⟨D', false, rfl, h'⟩

theorem memSize_eq_of_isMetaFormatEqual (h : D.isMetaFormatEqual S = true) : D.memSize = S.memSize := by
  unfold isMetaFormatEqual at h
  exact eq_of_beq (Bool.and_eq_true_iff.1 h).1

end UserDataObject

theorem size_eq_of_memSize (hD : D.Represents C) (hS : S.Represents T) (h : D.memSize = S.memSize) : C.size = T.size := by
  rw [← hD.memSize, ← hS.memSize, h]

/-! ### Extensions of supplementary data -/

theorem Contents.supp_valid (h : D.Represents C) : C.supp.validMemSize = D.validMemSize := by
  show C.valid.toUInt32 = D.validMemSize
  rw [← h.valid]
  exact UInt32.ofNat_toNat

/-- Supplementary data of the same valid size and bytes. -/
theorem supp_agree (h : D.Represents C) : ∀ i < C.size, D.supp.bytes i = C.supp.bytes i := h.bytes

section Extension

variable {source : Option UserDataObject} {source' : Option Contents} {user : Option UserBuffer}

theorem sourceByte_congr (h : D.Represents C) (hs : Option.Rel UserDataObject.Represents source source')
    (hsize : ∀ S, source = some S → D.memSize = S.memSize) {i : Nat} (hi : i < C.size) :
    D.supp.sourceByte (source.map UserDataObject.supp) i = C.supp.sourceByte (source'.map Contents.supp) i := by
  cases hs with
  | none => exact h.bytes i hi
  | some hST => exact hST.bytes i (size_eq_of_memSize h hST (hsize _ rfl) ▸ hi)

theorem userByte_congr (h : D.Represents C) {i : Nat} (hi : i < C.size) :
    D.supp.userByte user i = C.supp.userByte user i := by
  cases user with
  | none => exact h.bytes i hi
  | some u => rfl

theorem hostBytes_congr (h : D.Represents C) (hs : Option.Rel UserDataObject.Represents source source')
    (hsize : ∀ S, source = some S → D.memSize = S.memSize) (n m : Nat) :
    ∀ i < C.size, D.supp.hostBytes (source.map UserDataObject.supp) user n m i =
      C.supp.hostBytes (source'.map Contents.supp) user n m i := by
  intro i hi
  have hall : (source.map UserDataObject.supp).all (fun s => i < s.validMemSize.toNat) =
      (source'.map Contents.supp).all (fun s => i < s.validMemSize.toNat) := by
    cases hs with
    | none => rfl
    | some hST =>
      simp only [Option.map_some, Option.all_some, Contents.supp_valid hST]
      rfl
  simp only [SuppData.hostBytes, sourceByte_congr h hs hsize hi, userByte_congr h hi, supp_agree h i hi, hall]

theorem followed_congr (h : D.Represents C) (hs : Option.Rel UserDataObject.Represents source source')
    (hsize : ∀ S, source = some S → D.memSize = S.memSize) (p n : Nat) :
    ∀ i < C.size, D.supp.followed (source.map UserDataObject.supp) user p n i =
      C.supp.followed (source'.map Contents.supp) user p n i := by
  intro i hi
  simp only [SuppData.followed, sourceByte_congr h hs hsize hi, userByte_congr h hi, supp_agree h i hi]

theorem sourcePrefix_congr (hs : Option.Rel UserDataObject.Represents source source') (numBytes : UInt32) :
    sourcePrefix (source.map UserDataObject.supp) numBytes = sourcePrefix (source'.map Contents.supp) numBytes := by
  cases hs with
  | none => rfl
  | some hST =>
    simp only [sourcePrefix, Option.map_some, Option.elim_some, Contents.supp_valid hST]
    rfl

end Extension

section Fits

variable {d : SuppData} {source : Option SuppData} {user : Option UserBuffer} {sourceBytes userBytes numBytes : UInt32}

/-- An extension on the host that succeeds is of no more bytes than there are, from a source of as many. -/
theorem host_fits {c : HostCall} {t : Option SuppData}
    (h : c.vxExtendSupplementaryUserDataObject (some d) source user sourceBytes userBytes = (vxSuccess, t)) :
    max sourceBytes.toNat userBytes.toNat ≤ d.memSize.toNat ∧ ∀ s, source = some s → d.memSize = s.memSize := by
  unfold HostCall.vxExtendSupplementaryUserDataObject at h
  split at h
  · rename_i hc
    exact absurd (Prod.mk.inj h).1 hc
  · split at h
    · cases h
    · simp only [HostCall.supplement] at h
      split at h
      · cases h
      · unfold SuppData.extendFrom at h
        dsimp only at h
        split at h
        · cases h
        · rename_i hsize
          split at h
          · cases h
          · rename_i htype
            simp only [not_or, UInt32.not_lt, UInt32.le_iff_toNat_le] at hsize
            refine ⟨by omega, ?_⟩
            rintro s rfl
            simp only [Option.any_some, SuppData.sameType, Bool.not_eq_true', Bool.not_eq_false, Bool.and_eq_true,
              beq_iff_eq] at htype
            exact htype.1

/-- An extension on a target that succeeds is of no more bytes than there are, from a source of as many. -/
theorem target_fits {t : Option SuppData}
    (h : tivxExtendSupplementaryDataObjDesc (some d) source user numBytes = (vxSuccess, t)) :
    numBytes.toNat ≤ d.memSize.toNat ∧ ∀ s, source = some s → d.memSize = s.memSize := by
  unfold tivxExtendSupplementaryDataObjDesc at h
  split at h
  · cases h
  · dsimp only at h
    split at h
    · cases h
    · rename_i hsize
      split at h
      · cases h
      · rename_i htype
        refine ⟨UInt32.le_iff_toNat_le.1 (UInt32.not_lt.1 hsize), ?_⟩
        rintro s rfl
        simp only [Option.any_some, SuppData.sameType, Bool.not_eq_true', Bool.not_eq_false, Bool.and_eq_true,
          beq_iff_eq] at htype
        exact htype.1

end Fits

/-! ### The calls -/

namespace UserDataOk

variable {t : ContentsStore} {r : Nat}

theorem start : UserDataOk {} := ⟨rfl, rfl, fun _ => .none⟩

theorem lookup (h : UserDataOk ⟨s, t⟩) (hr : s.objects r = some D) : ∃ C, t.objects r = some C ∧ D.Represents C := by
  have hc := h.contents r
  dsimp only at hc
  rw [hr] at hc
  cases ht : t.objects r with
  | none =>
    rw [ht] at hc
    cases hc
  | some C =>
    rw [ht] at hc
    cases hc with
    | some hDC => exact ⟨C, rfl, hDC⟩

theorem set (h : UserDataOk ⟨s, t⟩) (hD : D.Represents C) :
    UserDataOk ⟨s.setObject r D, { t with objects := Function.update t.objects r (some C) }⟩ where
  noFault := h.noFault
  outputs := h.outputs
  contents := option_rel_update h.contents r (.some hD)

/-- The contents of `r` stay. -/
theorem set_same (h : UserDataOk ⟨s, t⟩) (hr : t.objects r = some C) (hD : D.Represents C) :
    UserDataOk ⟨s.setObject r D, t⟩ := by
  have hs := h.set (r := r) hD
  rwa [← hr, Function.update_eq_self] at hs

theorem modify (h : UserDataOk ⟨s, t⟩) (hr : t.objects r = some C) {f : Contents → Contents} (hD : D.Represents (f C)) :
    UserDataOk ⟨s.setObject r D, t.modify r f⟩ := by
  have hs := h.set (r := r) hD
  unfold ContentsStore.modify
  rwa [hr]

/-- No access to other memory has been added. -/
theorem withFault (h : UserDataOk ⟨s, t⟩) {f : Bool} (hf : f = false) : UserDataOk ⟨{ s with fault := f }, t⟩ :=
  ⟨hf, h.outputs, h.contents⟩

theorem store (h : UserDataOk ⟨s, t⟩) {ok : Bool} (hD : D.Represents C) :
    UserDataOk ⟨(s.store r (D, ok, false)).1, { t with objects := Function.update t.objects r (some C) }⟩ :=
  (h.set hD).withFault (by rw [h.noFault]; rfl)

theorem create (h : UserDataOk ⟨s, t⟩) {typeName : List UInt8} {data : Option (Nat → UInt8)} {allocates : Bool}
    (hs : size.toNat < 2 ^ 32) :
    UserDataOk ⟨(s.create r typeName size data allocates).1, if (s.create r typeName size data allocates).2 then
      t.effect (.vxCreateUserDataObject r typeName size data allocates) else t⟩ := by
  have hinit : (ownInitUserDataObjectObject typeName size).Represents _ := .init hs
  unfold UserDataStore.create
  split
  · exact h
  · cases data with
    | none => exact h.set hinit
    | some u =>
      have hw : (0 : UInt64).toNat + size.toNat < 2 ^ 64 := by
        rw [UInt64.toNat_zero, Nat.zero_add]
        exact size.toNat_lt
      obtain ⟨D', ok, he, hD⟩ := hinit.write hw u false allocates
      simp only [he]
      cases ok with
      | false => exact h
      | true =>
        have hu : D'.Represents ⟨size.toNat, size.toNat, u⟩ := by
          refine ⟨hD.requested, hD.memSize, hD.valid, hD.validLe, hD.allocated, ?_⟩
          intro i hi
          rw [hD.bytes i hi]
          have hin : (0 : UInt64).toNat ≤ i ∧ i < (0 : UInt64).toNat + size.toNat := by
            rw [UInt64.toNat_zero, Nat.zero_add]
            exact ⟨Nat.zero_le i, hi⟩
          show writeBytes _ _ _ u i = u i
          rw [writeBytes, if_pos hin]
          rfl
        have hstore : UserDataOk ⟨(s.store r (D', true, false)).1, _⟩ := h.store hu
        exact hstore

theorem copy {input output : Nat} {I O : UserDataObject} (h : UserDataOk ⟨s, t⟩) (hI : s.objects input = some I)
    (hO : s.objects output = some O) (heq : I.memSize = O.memSize) :
    UserDataOk ⟨(s.ownCopyReferenceGeneric output I O).1, if (s.ownCopyReferenceGeneric output I O).2 then
      t.effect (.copy input output) else t⟩ := by
  obtain ⟨C, hC, hIC⟩ := h.lookup hI
  obtain ⟨T, hT, hOT⟩ := h.lookup hO
  have hsize := size_eq_of_memSize hIC hOT heq
  unfold UserDataStore.ownCopyReferenceGeneric
  split
  · rename_i bi bo hbi hbo
    split
    · have hcopied : { O with
          buffer := some { bo with bytes := fun i => if i < I.memSize.toNat then bi.bytes i else bo.bytes i }
          validMemSize := I.validMemSize }.Represents C := by
        refine ⟨?_, ?_, hIC.valid, ?_, ?_, ?_⟩
        · rw [hsize]
          exact hOT.requested
        · rw [hsize]
          exact hOT.memSize
        · rw [← heq]
          exact hIC.validLe
        · intro b hb
          cases hb
          rw [hsize]
          exact hOT.allocated bo hbo
        · intro i hi
          have hlt : i < I.memSize.toNat := hIC.memSize ▸ hi
          show (if i < I.memSize.toNat then bi.bytes i else bo.bytes i) = C.bytes i
          rw [if_pos hlt]
          exact hIC.buffer_bytes hbi i hi
      have hset := h.set (r := output) hcopied
      rw [← hC] at hset
      refine hset.withFault ?_
      have hI0 := hIC.faults_eq (k := 0) (n := I.memSize.toNat) (by have := hIC.memSize; omega)
      have hO0 := hOT.faults_eq (k := 0) (n := I.memSize.toNat) (by have := hIC.memSize; omega)
      rw [h.noFault, hI0, hO0]
      rfl
    · exact h
  · exact h

/-- An object with the buffer of another one, of its size and valid size. -/
theorem represents_swapped (hD : D.Represents C) (hS : S.Represents T) (heq : D.memSize = S.memSize)
    (hv : D.validMemSize = S.validMemSize) : { D with buffer := S.buffer }.Represents T where
  requested := by
    rw [← size_eq_of_memSize hD hS heq]
    exact hD.requested
  memSize := by
    rw [← size_eq_of_memSize hD hS heq]
    exact hD.memSize
  valid := by
    rw [← hS.valid, ← hv]
  validLe := hD.validLe
  allocated := hS.allocated
  bytes := hS.bytes

theorem swap {input output : Nat} {I O : UserDataObject} (h : UserDataOk ⟨s, t⟩) (hI : s.objects input = some I)
    (hO : s.objects output = some O) (heq : I.memSize = O.memSize) (hv : I.validMemSize = O.validMemSize) :
    UserDataOk ⟨s.ownSwapReferenceGeneric input output I O, t.effect (.swap input output)⟩ := by
  obtain ⟨C, hC, hIC⟩ := h.lookup hI
  obtain ⟨T, hT, hOT⟩ := h.lookup hO
  unfold UserDataStore.ownSwapReferenceGeneric
  split
  · rename_i hsame
    subst hsame
    show UserDataOk ⟨s, { t with objects := _ }⟩
    rwa [Function.update_eq_self, Function.update_eq_self]
  · have hset := (h.set (r := input) (represents_swapped hIC hOT heq hv)).set (r := output)
      (represents_swapped hOT hIC heq.symm hv.symm)
    rwa [← hC, ← hT] at hset

section Extend

variable {destination : Nat} {source : Option (Nat × UserDataObject)} {user : Option UserBuffer}

theorem lookup_source (h : UserDataOk ⟨s, t⟩) (hS : ∀ i S, source = some (i, S) → s.objects i = some S) :
    Option.Rel UserDataObject.Represents (source.map Prod.snd) ((source.map Prod.fst).bind t.objects) := by
  cases source with
  | none => exact .none
  | some p =>
    obtain ⟨T, hT, hST⟩ := h.lookup (hS p.1 p.2 rfl)
    show Option.Rel _ (some p.2) (t.objects p.1)
    rw [hT]
    exact .some hST

theorem source_faults (h : UserDataOk ⟨s, t⟩) (hS : ∀ i S, source = some (i, S) → s.objects i = some S)
    (hD : D.Represents C) (hsize : ∀ S, source.map (·.2.supp) = some S → D.memSize = S.memSize) {n : UserDataObject → Nat}
    (hn : ∀ S, n S ≤ C.size) : source.any (fun S => S.2.faults 0 (n S.2)) = false := by
  cases source with
  | none => rfl
  | some p =>
    obtain ⟨T, hT, hST⟩ := h.lookup (hS p.1 p.2 rfl)
    have heq := size_eq_of_memSize hD hST (hsize _ rfl)
    rw [Option.any_some]
    apply hST.faults_eq
    have := hn p.2
    omega

theorem extend (h : UserDataOk ⟨s, t⟩) (c : HostCall) (hD : s.objects destination = some D)
    (hS : ∀ i S, source = some (i, S) → s.objects i = some S) (sourceBytes userBytes : UInt32) :
    UserDataOk ⟨(s.extend c destination D source user sourceBytes userBytes).1,
      if (s.extend c destination D source user sourceBytes userBytes).2 then
        t.effect (.extend c destination (source.map Prod.fst) user sourceBytes userBytes) else t⟩ := by
  obtain ⟨C, hC, hDC⟩ := h.lookup hD
  have hrel := h.lookup_source hS
  unfold UserDataStore.extend
  split
  · rename_i status d hext
    split
    · rename_i hst
      subst hst
      obtain ⟨_, _, he, hd, hb, hv⟩ := host_spec hext
      cases he
      cases hd
      obtain ⟨hle, hsize⟩ := host_fits hext
      have hle : max sourceBytes.toNat userBytes.toNat ≤ C.size := hDC.memSize ▸ hle
      have hmap : source.map (·.2.supp) = (source.map Prod.snd).map UserDataObject.supp := by rw [Option.map_map]; rfl
      have hsize' : ∀ S, source.map Prod.snd = some S → D.memSize = S.memSize := by
        intro S hS
        refine hsize S.supp ?_
        rw [hmap, hS]
        rfl
      have hvalid := UInt32.le_iff_toNat_le.1 hDC.validLe
      have hext' : (D.extended d).Represents { C with
          valid := max C.valid (max sourceBytes.toNat userBytes.toNat)
          bytes := C.supp.hostBytes (((source.map Prod.fst).bind t.objects).map Contents.supp) user sourceBytes.toNat
            userBytes.toNat } := by
        apply hDC.extended
        · rw [hv, ← hDC.valid]
          rfl
        · have h1 := hDC.valid
          have h2 := hDC.memSize
          omega
        · intro i hi
          rw [hb, hmap]
          exact hostBytes_congr hDC hrel hsize' _ _ i hi
      have hset : UserDataOk ⟨match source with
          | some (i, S) => s.setObject i (S.ownAllocReferenceBufferGeneric true).1
          | none => s, t⟩ := by
        cases source with
        | none => exact h
        | some p =>
          obtain ⟨T, hT, hST⟩ := h.lookup (hS p.1 p.2 rfl)
          obtain ⟨S', ok, he, hS', -⟩ := hST.alloc true
          simp only [he]
          exact h.set_same hT hS'
      apply (hset.modify hC hext').withFault
      have hn : ∀ S : UserDataObject, sourceBytes.toNat ≤ C.size := by
        intro S
        omega
      rw [h.noFault, h.source_faults hS hDC hsize hn, hext'.faults_eq (by rw [Nat.zero_add]; exact hle)]
      rfl
    · exact h
  · exact h

theorem tivxExtend (h : UserDataOk ⟨s, t⟩) (hD : s.objects destination = some D)
    (hS : ∀ i S, source = some (i, S) → s.objects i = some S) (numBytes : UInt32) :
    UserDataOk ⟨(s.tivxExtend destination D source user numBytes).1,
      if (s.tivxExtend destination D source user numBytes).2 then
        t.effect (.tivxExtend destination (source.map Prod.fst) user numBytes) else t⟩ := by
  obtain ⟨C, hC, hDC⟩ := h.lookup hD
  have hrel := h.lookup_source hS
  unfold UserDataStore.tivxExtend
  split
  · rename_i status d hext
    split
    · rename_i hst
      subst hst
      obtain ⟨_, he, hd⟩ := target_spec hext
      cases he
      obtain ⟨hle, hsize⟩ := target_fits hext
      have hle : numBytes.toNat ≤ C.size := hDC.memSize ▸ hle
      have hmap : source.map (·.2.supp) = (source.map Prod.snd).map UserDataObject.supp := by rw [Option.map_map]; rfl
      have hsize' : ∀ S, source.map Prod.snd = some S → D.memSize = S.memSize := by
        intro S hS
        refine hsize S.supp ?_
        rw [hmap, hS]
        rfl
      have hprefix := sourcePrefix_congr hrel numBytes
      have hp : ∀ source, (sourcePrefix source numBytes).toNat ≤ C.size := fun source =>
        Nat.le_trans (UInt32.le_iff_toNat_le.1 (sourcePrefix_le source numBytes)) hle
      have hext' : (D.extended d).Represents { C with
          valid := if user.isSome then numBytes.toNat else
            (sourcePrefix (((source.map Prod.fst).bind t.objects).map Contents.supp) numBytes).toNat
          bytes := C.supp.followed (((source.map Prod.fst).bind t.objects).map Contents.supp) user
            (sourcePrefix (((source.map Prod.fst).bind t.objects).map Contents.supp) numBytes).toNat numBytes.toNat } := by
        apply hDC.extended
        · rw [hd.valid, hmap, hprefix]
          split
          · rfl
          · rfl
        · split
          · exact hle
          · exact hp _
        · intro i hi
          rw [hd.bytes, hmap, hprefix]
          exact followed_congr hDC hrel hsize' _ _ i hi
      apply (h.modify hC hext').withFault
      rw [h.noFault, h.source_faults hS hDC hsize (fun S => hp (some S.supp)), hext'.faults_eq (by rw [Nat.zero_add]; exact hle)]
      rfl
    · exact h
  · exact h

end Extend

theorem step {a : UserDataAction} (h : UserDataOk R) (hf : userDataFits R a = true) (hstep : userDataStep R a = some R') :
    UserDataOk R' := by
  obtain ⟨s, t⟩ := R
  unfold userDataStep at hstep
  obtain ⟨c, hcall, rfl⟩ := Option.map_eq_some_iff.1 hstep
  cases a with
  | vxCreateUserDataObject r typeName size data allocates =>
    obtain ⟨-, hcall⟩ := Option.ite_none_left_eq_some.1 hcall
    cases hcall
    exact h.create (of_decide_eq_true hf)
  | vxReleaseUserDataObject r =>
    obtain ⟨D, hD, rfl⟩ := Option.map_eq_some_iff.1 hcall
    exact ⟨h.noFault, h.outputs, option_rel_update h.contents r .none⟩
  | vxSetUserDataObjectAttribute r value readOnly =>
    obtain ⟨D, hD, rfl⟩ := Option.map_eq_some_iff.1 hcall
    obtain ⟨C, hC, hDC⟩ := h.lookup hD
    cases readOnly with
    | true => exact h
    | false =>
      have hD : s.objects r = some D := hD
      simp only [userDataFits, hD, Bool.false_or, Option.all_some, decide_eq_true_eq] at hf
      refine h.modify hC (hDC.withValid ?_ (hDC.memSize ▸ hf))
      rw [UInt64.toNat_toUInt32]
      exact Nat.mod_eq_of_lt (Nat.lt_of_le_of_lt hf D.memSize.toNat_lt)
  | write r offset size data readOnly allocates =>
    obtain ⟨D, hD, rfl⟩ := Option.map_eq_some_iff.1 hcall
    obtain ⟨C, hC, hDC⟩ := h.lookup hD
    obtain ⟨D', ok, he, hD'⟩ := hDC.write (of_decide_eq_true hf) data readOnly allocates
    simp only [he]
    have hfault : (s.fault || false) = false := by
      rw [h.noFault]
      rfl
    cases ok with
    | false => exact (h.set_same hC hD').withFault hfault
    | true =>
      exact (h.modify hC (f := fun C => { C with bytes := writeBytes C.bytes offset.toNat size.toNat data }) hD').withFault
        hfault
  | read r offset size =>
    obtain ⟨D, hD, rfl⟩ := Option.map_eq_some_iff.1 hcall
    obtain ⟨C, hC, hDC⟩ := h.lookup hD
    dsimp only
    cases hr : D.read offset size with
    | none => exact h
    | some out =>
      obtain ⟨rfl, hfault⟩ := hDC.read (of_decide_eq_true hf) hr
      refine ⟨by rw [h.noFault, hfault]; rfl, ?_, h.contents⟩
      show s.outputs ++ _ = t.outputs ++ _
      rw [hC, h.outputs]
      rfl
  | vxMapUserDataObject r offset size refused allocates free =>
    obtain ⟨D, hD, rfl⟩ := Option.map_eq_some_iff.1 hcall
    obtain ⟨C, hC, hDC⟩ := h.lookup hD
    obtain ⟨D', ok, he, hD'⟩ := hDC.map (of_decide_eq_true hf) refused allocates free
    simp only [he]
    have hset := (h.set_same hC hD').withFault (f := s.fault || false) (by rw [h.noFault]; rfl)
    cases ok with
    | false => exact hset
    | true => exact hset
  | copy input output =>
    obtain ⟨I, hI, hcall⟩ := Option.bind_eq_some_iff.1 hcall
    obtain ⟨O, hO, rfl⟩ := Option.map_eq_some_iff.1 hcall
    split
    · rename_i heq
      exact h.copy hI hO (UserDataObject.memSize_eq_of_isMetaFormatEqual heq)
    · exact h
  | swap input output =>
    obtain ⟨I, hI, hcall⟩ := Option.bind_eq_some_iff.1 hcall
    obtain ⟨O, hO, rfl⟩ := Option.map_eq_some_iff.1 hcall
    split
    · rename_i heq
      have hI : s.objects input = some I := hI
      have hO : s.objects output = some O := hO
      simp only [userDataFits, hI, hO, Option.map_some, beq_iff_eq, Option.some.injEq] at hf
      exact h.swap hI hO (UserDataObject.memSize_eq_of_isMetaFormatEqual heq) hf
    · exact h
  | extend c destination source user sourceBytes userBytes =>
    obtain ⟨D, hD, hcall⟩ := Option.bind_eq_some_iff.1 hcall
    cases source with
    | none =>
      cases hcall
      have hnone : ∀ i S, (none : Option (Nat × UserDataObject)) = some (i, S) → s.objects i = some S := fun _ _ he => nomatch he
      exact h.extend c hD hnone sourceBytes userBytes
    | some i =>
      obtain ⟨S, hS, rfl⟩ := Option.map_eq_some_iff.1 hcall
      have hsome : ∀ j S', some (i, S) = some (j, S') → s.objects j = some S' := by
        intro j S' he
        obtain ⟨rfl, rfl⟩ := Prod.mk.inj (Option.some.inj he)
        exact hS
      exact h.extend c hD hsome sourceBytes userBytes
  | tivxExtend destination source user numBytes =>
    obtain ⟨D, hD, hcall⟩ := Option.bind_eq_some_iff.1 hcall
    cases source with
    | none =>
      cases hcall
      have hnone : ∀ i S, (none : Option (Nat × UserDataObject)) = some (i, S) → s.objects i = some S := fun _ _ he => nomatch he
      exact h.tivxExtend hD hnone numBytes
    | some i =>
      obtain ⟨S, hS, rfl⟩ := Option.map_eq_some_iff.1 hcall
      have hsome : ∀ j S', some (i, S) = some (j, S') → s.objects j = some S' := by
        intro j S' he
        obtain ⟨rfl, rfl⟩ := Prod.mk.inj (Option.some.inj he)
        exact hS
      exact h.tivxExtend hD hsome numBytes
  | tivxReferenceImportHandle r size memory =>
    obtain ⟨D, hD, rfl⟩ := Option.map_eq_some_iff.1 hcall
    obtain ⟨C, hC, hDC⟩ := h.lookup hD
    split
    · refine h.modify hC ⟨hDC.requested, hDC.memSize, hDC.valid, hDC.validLe, ?_, ?_⟩
      · intro b hb
        obtain ⟨m, -, rfl⟩ := Option.map_eq_some_iff.1 hb
        exact hDC.memSize
      · intro i hi
        cases memory with
        | none => rfl
        | some m => rfl
    · exact h
  | ownAllocReferenceBufferGeneric r allocates =>
    obtain ⟨D, hD, rfl⟩ := Option.map_eq_some_iff.1 hcall
    obtain ⟨C, hC, hDC⟩ := h.lookup hD
    obtain ⟨D', ok, he, hD', -⟩ := hDC.alloc allocates
    simp only [he]
    cases ok with
    | false => exact h.set_same hC hD'
    | true => exact h.set_same hC hD'

end UserDataOk

/-- **The user data objects are right, where the calls fit**: in every run of calls each of which fits. -/
theorem userDataOk_of_reach (h : Reach userDataStep (fun R a => userDataFits R a = true) {} R) : UserDataOk R :=
  h.inv UserDataOk.start fun _ _ _ hR hf hstep => UserDataOk.step hR hf hstep

/-- The bytes 1, 2, 3 and on. -/
def ramp (i : Nat) : UInt8 := (i + 1).toUInt8

/-- An object of eight bytes is written, swapped with one that has none written, and read. -/
theorem userData_reached : ∃ R, Reach userDataStep (fun R a => userDataFits R a = true) {} R ∧
    R.code.outputs = [[0, 0, 1, 2, 3, 0]] ∧ UserDataOk R := by
  have hexec : (exec userDataStep userDataFits {}
      [.vxCreateUserDataObject 0 [] 8 none true, .vxCreateUserDataObject 1 [] 8 none true,
        .write 0 2 3 ramp false true, .ownAllocReferenceBufferGeneric 1 true, .swap 0 1, .read 1 0 6]).map
      (fun R => R.code.outputs) = some [[0, 0, 1, 2, 3, 0]] := by decide
  obtain ⟨R, hR, hx⟩ := exists_reach_of_exec hexec
  exact ⟨R, hR, hx, userDataOk_of_reach hR⟩

/-- A swap leaves the valid sizes behind; an object of 2^32 + 8 bytes has eight; an offset of 2^64 - 4 with eight bytes is
accepted, which is outside the buffer. -/
theorem userData_not_ok :
    (∃ R, Reach userDataStep (fun R a => anyStep R a = true) {} R ∧
        (R.code.objects 0).map UserDataObject.validMemSize = some 4 ∧ (R.spec.objects 0).map Contents.valid = some 8 ∧
          ¬ UserDataOk R) ∧
      (∃ R, Reach userDataStep (fun R a => anyStep R a = true) {} R ∧
        (R.code.objects 0).map UserDataObject.memSize = some 8 ∧ ¬ UserDataOk R) ∧
      ∃ R, Reach userDataStep (fun R a => anyStep R a = true) {} R ∧ R.code.fault = true ∧ ¬ UserDataOk R := by
  refine ⟨?_, ?_, ?_⟩
  · have hexec : (exec userDataStep anyStep {}
        [.vxCreateUserDataObject 0 [] 8 none true, .vxCreateUserDataObject 1 [] 8 none true,
          .vxSetUserDataObjectAttribute 0 4 false, .swap 0 1]).map
        (fun R => ((R.code.objects 0).map UserDataObject.validMemSize, (R.spec.objects 0).map Contents.valid)) =
          some (some 4, some 8) := by decide
    obtain ⟨R, hR, hx⟩ := exists_reach_of_exec hexec
    obtain ⟨h1, h2⟩ := Prod.mk.inj hx
    refine ⟨R, hR, h1, h2, ?_⟩
    intro hok
    obtain ⟨D, hD, hv⟩ := Option.map_eq_some_iff.1 h1
    obtain ⟨C, hC, hDC⟩ := hok.lookup hD
    rw [hC] at h2
    have := hDC.valid
    rw [hv, Option.some.inj h2] at this
    cases this
  · have hexec : (exec userDataStep anyStep {} [.vxCreateUserDataObject 0 [] 4294967304 none true]).map
        (fun R => ((R.code.objects 0).map UserDataObject.memSize, (R.spec.objects 0).map Contents.size)) =
          some (some 8, some 4294967304) := by decide
    obtain ⟨R, hR, hx⟩ := exists_reach_of_exec hexec
    obtain ⟨h1, h2⟩ := Prod.mk.inj hx
    refine ⟨R, hR, h1, ?_⟩
    intro hok
    obtain ⟨D, hD, hv⟩ := Option.map_eq_some_iff.1 h1
    obtain ⟨C, hC, hDC⟩ := hok.lookup hD
    rw [hC] at h2
    have := hDC.memSize
    rw [hv, Option.some.inj h2] at this
    cases this
  · have hexec : (exec userDataStep anyStep {}
        [.vxCreateUserDataObject 0 [] 8 none true, .write 0 18446744073709551612 8 ramp false true]).map
        (fun R => R.code.fault) = some true := by decide
    obtain ⟨R, hR, hx⟩ := exists_reach_of_exec hexec
    refine ⟨R, hR, hx, ?_⟩
    intro hok
    have := hok.noFault
    rw [hx] at this
    cases this

end Tiovx
