import Tiovx.KernelTable
/-!
# TargetKernels — the kernels of a target and their instances (`vx_target_kernel.c`, `vx_target_kernel_instance.c`,
`vx_obj_desc.c`)

A core registers its kernels in a table, with an id or with a name.  A node that is created looks its kernel up and gets an
instance, which points at the slot of the kernel in the table; its callbacks are those of the slot when it is called.  A
removed kernel leaves its name in its slot, and the next one that is registered takes the first free slot.
-/
namespace Tiovx

open StepSystem SlotTable

/-- `TIVX_TARGET_KERNEL_MAX`. -/
def targetKernelMax : Nat := 256

/-- `TIVX_TARGET_KERNEL_INSTANCE_MAX`. -/
def targetKernelInstanceMax : Nat := 64

/-- `TIVX_TARGET_KERNEL_ID_INVALID`. -/
def targetKernelIdInvalid : Int := 0xFFFF

/-- `TIVX_TARGET_KERNEL_ID_NOT_USED`. -/
def targetKernelIdNotUsed : Int := 0xFFFE

/-- `TIVX_TARGET_ID_INVALID`. -/
def targetIdInvalid : Int := -1

/-- The delimiter of kernel names. -/
def delim : UInt8 := ':'.toUInt8

/-- A string, which ends with a NUL. -/
structure CString where
  bytes : List UInt8
  noNul : 0 ∉ bytes
deriving DecidableEq

/-- A string in a field of `VX_MAX_KERNEL_NAME` characters. -/
structure KernelName extends CString where
  fits : bytes.length < maxKernelName
deriving DecidableEq

def KernelName.empty : KernelName := ⟨⟨[], by decide⟩, by decide⟩

/-- `strncpy` into the field of a name. -/
def CString.toKernelName (c : CString) : KernelName where
  bytes := c.bytes.take (maxKernelName - 1)
  noNul h := c.noNul (List.mem_of_mem_take h)
  fits := by
    have := List.length_take_le (maxKernelName - 1) c.bytes
    unfold maxKernelName at *
    omega

/-- A step of the loop of `tivx_obj_desc_strncmp_delim`; `rest` is what the rest of the loop returns. -/
def cmpDelim (a b : UInt8) (rest : Int) : Int :=
  if a ≠ b ∨ a = 0 ∨ b = 0 ∨ a = delim ∨ b = delim then
    if a ≠ delim ∧ b ≠ delim then (a.toNat : Int) - b.toNat else 0
  else rest

/-- `tivx_obj_desc_strncmp_delim` of strings that end with a NUL. -/
def tivxObjDescStrncmpDelim : Nat → List UInt8 → List UInt8 → Int
  | 0, _, _ => 0
  | n + 1, d, s => cmpDelim (d.headD 0) (s.headD 0) (tivxObjDescStrncmpDelim n d.tail s.tail)

/-- A name up to the delimiter. -/
def upToDelim (l : List UInt8) : List UInt8 := l.takeWhile (fun c => c != delim)

/-- The name of a target, by what `ownPlatformGetTargetId` finds for it: ids have a processor of 4 and an instance of 8 bits. -/
inductive TargetName
  | known (id : Fin 4096)
  | unknown
deriving DecidableEq

def ownPlatformGetTargetId : TargetName → Int
  | .known id => id.val
  | .unknown => targetIdInvalid

/-- The callbacks of a target kernel. -/
inductive KernelFunc
  | process
  | create
  | delete
  | control
deriving DecidableEq

/-- `tivx_target_kernel_t`; `registered` is that it was added and not removed. -/
structure TargetKernel where
  kernelId : Int := targetKernelIdInvalid
  targetId : Int := targetKernelIdInvalid
  kernelName : KernelName := .empty
  func : KernelFunc → Option Nat := fun _ => none
  callerPrivArg : Nat := 0
  registered : Bool := false

/-- `tivx_target_kernel_instance_t`, as far as its kernel is concerned: `kernel` is the slot it points at, and `createdFor` what
the slot held when it was allocated. -/
structure TargetKernelInstance where
  kernelId : Int := targetKernelIdInvalid
  kernel : Nat := 0
  createdFor : TargetKernel := {}

/-- A lookup that found a kernel. -/
structure KernelLookup where
  kernelName : Option KernelName
  kernel : TargetKernel

/-- A callback that was called, with its `priv_arg`. -/
structure KernelCall where
  func : KernelFunc
  called : Nat
  privArg : Nat
  createdFor : TargetKernel

/-- The tables of a core; `lookups` and `calls` are what was found and called. -/
structure TargetKernels where
  table : List TargetKernel := List.replicate targetKernelMax {}
  numTargetKernel : UInt32 := 0
  instances : List TargetKernelInstance := List.replicate targetKernelInstanceMax {}
  lookups : List KernelLookup := []
  calls : List KernelCall := []

/-- A slot that is in use. -/
def TargetKernel.isOccupied (K : TargetKernel) : Bool := K.kernelId != targetKernelIdInvalid

/-- An instance that is in use. -/
def TargetKernelInstance.isLive (I : TargetKernelInstance) : Bool := I.kernelId != targetKernelIdInvalid

/-- What `ownTargetKernelGet` looks for. -/
def TargetKernel.isFound (kernelId : Int) (kernelName : Option KernelName) (targetId : Int) (K : TargetKernel) : Bool :=
  if K.kernelName.bytes = [] then kernelId = K.kernelId ∧ targetId = K.targetId
  else kernelName.any (fun n => tivxObjDescStrncmpDelim maxKernelName n.bytes K.kernelName.bytes = 0) ∧ targetId = K.targetId

/-- The slot a kernel is removed from, by `ownRemoveKernelIndex`. -/
def TargetKernel.removed (K : TargetKernel) : TargetKernel :=
  { K with
    kernelId := targetKernelIdInvalid, targetId := targetKernelIdInvalid, func := fun _ => none, registered := false }

/-- A kernel that is found gets the id it was looked up with, where it has a name. -/
def TargetKernel.found (kernelId : Int) (K : TargetKernel) : TargetKernel :=
  if K.kernelName.bytes = [] then K else { K with kernelId := kernelId }

namespace TargetKernels

/-- The first free slot. -/
def freeSlot (s : TargetKernels) : Option Nat := s.table.findIdx? (fun K => !K.isOccupied)

/-- `ownAddTargetKernelInternal`. -/
def ownAddTargetKernelInternal (s : TargetKernels) (kernelId : Int) (kernelName : Option CString) (target : TargetName)
    (func : KernelFunc → Option Nat) (privArg : Nat) : TargetKernels :=
  if (func .process).isSome ∧ (func .create).isSome then
    match s.freeSlot with
    | some i =>
      { s with
        table := s.table.set i
          { kernelId, targetId := ownPlatformGetTargetId target
            kernelName := (kernelName.map CString.toKernelName).getD .empty, func, callerPrivArg := privArg
            registered := true }
        numTargetKernel := s.numTargetKernel + 1 }
    | none => s
  else s

/-- `ownRemoveKernelIndex`. -/
def ownRemoveKernelIndex (s : TargetKernels) (i : Nat) : TargetKernels :=
  match s.table[i]? with
  | some K => { s with table := s.table.set i K.removed, numTargetKernel := s.numTargetKernel - 1 }
  | none => s

/-- The slot `tivxRemoveTargetKernelByName` finds. -/
def namedSlot (s : TargetKernels) (kernelName : CString) (target : TargetName) : Option Nat :=
  s.table.findIdx? (fun K => ownPlatformGetTargetId target = K.targetId ∧
    K.kernelName.bytes = kernelName.bytes.take (maxKernelName - 1))

def tivxRemoveTargetKernelByName (s : TargetKernels) (kernelName : CString) (target : TargetName) : TargetKernels :=
  match s.namedSlot kernelName target with
  | some i => s.ownRemoveKernelIndex i
  | none => s

/-- `tivxRemoveTargetKernel` of the handle of slot `i`, if there is one. -/
def tivxRemoveTargetKernel (s : TargetKernels) (i : Nat) : TargetKernels := s.ownRemoveKernelIndex i

/-- `ownTargetKernelGet`, and the slot it finds with what is in it. -/
def ownTargetKernelGet (s : TargetKernels) (kernelId : Int) (kernelName : Option KernelName) (targetId : Int) :
    TargetKernels × Option (Nat × TargetKernel) :=
  match s.table.findIdx? (TargetKernel.isFound kernelId kernelName targetId) with
  | some i =>
    match s.table[i]? with
    | some K =>
      ({ s with table := s.table.set i (K.found kernelId), lookups := ⟨kernelName, K⟩ :: s.lookups },
        some (i, K.found kernelId))
    | none => (s, none)
  | none => (s, none)

/-- `ownTargetKernelInstanceGet`. -/
def ownTargetKernelInstanceGet (s : TargetKernels) (index : Nat) (kernelId : Int) : Option TargetKernelInstance :=
  (s.instances[index]?).filter (fun I => I.kernelId = kernelId)

/-- `ownTargetKernelCreate`, `ownTargetKernelDelete`, `ownTargetKernelExecute` and `ownTargetKernelControl` of an instance. -/
def callFunc (s : TargetKernels) (func : KernelFunc) (I : TargetKernelInstance) : TargetKernels :=
  if I.isLive then
    match s.table[I.kernel]? with
    | some K =>
      match K.func func with
      | some f => { s with calls := ⟨func, f, K.callerPrivArg, I.createdFor⟩ :: s.calls }
      | none => s
    | none => s
  else s

/-- `ownTargetKernelInstanceFree`. -/
def ownTargetKernelInstanceFree (s : TargetKernels) (index : Nat) : TargetKernels :=
  match s.instances[index]? with
  | some I => { s with instances := s.instances.set index { I with kernelId := targetKernelIdInvalid } }
  | none => s

/-- `ownTargetKernelInstanceAlloc`, and the instance it allocates. -/
def ownTargetKernelInstanceAlloc (s : TargetKernels) (kernelId : Int) (kernelName : Option KernelName) (targetId : Int) :
    TargetKernels × Option Nat :=
  match s.ownTargetKernelGet kernelId kernelName targetId with
  | (s, some (i, K)) =>
    match s.instances.findIdx? (fun I => !I.isLive) with
    | some index => ({ s with instances := s.instances.set index ⟨kernelId, i, K⟩ }, some index)
    | none => (s, none)
  | (s, none) => (s, none)

/-- An instance is allocated and its create callback is called; where that fails, it is freed. -/
def createInstance (s : TargetKernels) (kernelId : Int) (kernelName : Option KernelName) (targetId : Int) (created : Bool) :
    TargetKernels :=
  match s.ownTargetKernelInstanceAlloc kernelId kernelName targetId with
  | (s, some index) =>
    match s.instances[index]? with
    | some I =>
      let s := s.callFunc .create I
      if created then s else s.ownTargetKernelInstanceFree index
    | none => s
  | (s, none) => s

/-- The delete callback of an instance is called, and it is freed. -/
def deleteInstance (s : TargetKernels) (index : Nat) (kernelId : Int) : TargetKernels :=
  match s.ownTargetKernelInstanceGet index kernelId with
  | some I => (s.callFunc .delete I).ownTargetKernelInstanceFree index
  | none => s

/-- An instance executes, or is sent a command. -/
def executeInstance (s : TargetKernels) (func : KernelFunc) (index : Nat) (kernelId : Int) : TargetKernels :=
  match s.ownTargetKernelInstanceGet index kernelId with
  | some I => s.callFunc func I
  | none => s

end TargetKernels

/-- A call about target kernels.  A node names its instance by an index and its kernel id; `freeInstance` is what is done with the
other replicas of a node of which one could not be created. -/
inductive TargetKernelAct
  | addTargetKernel (kernelId : Int) (target : TargetName) (func : KernelFunc → Option Nat) (privArg : Nat)
  | addTargetKernelByName (kernelName : Option CString) (target : TargetName) (func : KernelFunc → Option Nat) (privArg : Nat)
  | removeTargetKernel (i : Nat)
  | removeTargetKernelByName (kernelName : CString) (target : TargetName)
  | get (kernelId : Int) (kernelName : Option KernelName) (targetId : Int)
  | createInstance (kernelId : Int) (kernelName : Option KernelName) (targetId : Int) (created : Bool)
  | executeInstance (func : KernelFunc) (index : Nat) (kernelId : Int)
  | deleteInstance (index : Nat) (kernelId : Int)
  | freeInstance (index : Nat) (kernelId : Int)

open TargetKernels

/-- **One call.** -/
def targetKernelStep (s : TargetKernels) : TargetKernelAct → Option TargetKernels
  | .addTargetKernel kernelId target func privArg => some (s.ownAddTargetKernelInternal kernelId none target func privArg)
  | .addTargetKernelByName kernelName target func privArg =>
    some (s.ownAddTargetKernelInternal targetKernelIdNotUsed kernelName target func privArg)
  | .removeTargetKernel i => some (s.tivxRemoveTargetKernel i)
  | .removeTargetKernelByName kernelName target => some (s.tivxRemoveTargetKernelByName kernelName target)
  | .get kernelId kernelName targetId => some (s.ownTargetKernelGet kernelId kernelName targetId).1
  | .createInstance kernelId kernelName targetId created => some (s.createInstance kernelId kernelName targetId created)
  | .executeInstance func index kernelId => some (s.executeInstance func index kernelId)
  | .deleteInstance index kernelId => some (s.deleteInstance index kernelId)
  | .freeInstance index kernelId =>
    some (if (s.ownTargetKernelInstanceGet index kernelId).isSome then s.ownTargetKernelInstanceFree index else s)

/-- **The kernels of a target are as its nodes expect**: the count is that of the slots in use, which are those of the kernels
that are registered; an instance is only called with the callbacks of the kernel it was created for; and a kernel that was
found was registered, with a name equal to that of the node up to the delimiter. -/
structure TargetKernelsOk (s : TargetKernels) : Prop where
  num : s.numTargetKernel.toNat = s.table.countP TargetKernel.isOccupied
  occupied : ∀ K ∈ s.table, K.isOccupied = K.registered
  calls : ∀ c ∈ s.calls, c.createdFor.func c.func = some c.called ∧ c.createdFor.callerPrivArg = c.privArg
  lookups : ∀ l ∈ s.lookups, l.kernel.registered = true
  names : ∀ l ∈ s.lookups, l.kernel.kernelName.bytes ≠ [] →
    ∃ n ∈ l.kernelName, upToDelim n.bytes = upToDelim l.kernel.kernelName.bytes

/-- One of the names has a delimiter, and is up to it a proper part of the beginning of the other. -/
def endsEarly (d s : List UInt8) : Bool :=
  delim ∈ d ∧ upToDelim d <+: upToDelim s ∧ upToDelim d ≠ upToDelim s

/-- A lookup with an id and a target that free slots do not have, and with a name that no name of its target ends early in or
the other way round. -/
def LooksUpOne (s : TargetKernels) (kernelId : Int) (kernelName : Option KernelName) (targetId : Int) : Prop :=
  kernelId ≠ targetKernelIdInvalid ∧ targetId ≠ targetKernelIdInvalid ∧ ∀ n ∈ kernelName, ∀ K ∈ s.table,
    K.targetId = targetId → endsEarly n.bytes K.kernelName.bytes = false ∧ endsEarly K.kernelName.bytes n.bytes = false

/-- **Slots are given and left as they should be**: a kernel is registered with an id that free slots do not have, into a slot
that no instance points at; the handle of a removed kernel is not removed again; and lookups are for one kernel. -/
def KeepsSlots (s : TargetKernels) : TargetKernelAct → Prop
  | .addTargetKernel kernelId _ _ _ => kernelId ≠ targetKernelIdInvalid ∧
      ∀ i ∈ s.freeSlot, ∀ I ∈ s.instances, I.isLive = true → I.kernel ≠ i
  | .addTargetKernelByName .. => ∀ i ∈ s.freeSlot, ∀ I ∈ s.instances, I.isLive = true → I.kernel ≠ i
  | .removeTargetKernel i => ∀ K ∈ s.table[i]?, K.isOccupied = true
  | .get kernelId kernelName targetId => LooksUpOne s kernelId kernelName targetId
  | .createInstance kernelId kernelName targetId _ => LooksUpOne s kernelId kernelName targetId
  | .removeTargetKernelByName .. | .executeInstance .. | .deleteInstance .. | .freeInstance .. => True

instance (s : TargetKernels) (kernelId : Int) (kernelName : Option KernelName) (targetId : Int) :
    Decidable (LooksUpOne s kernelId kernelName targetId) :=
  inferInstanceAs (Decidable (kernelId ≠ targetKernelIdInvalid ∧ targetId ≠ targetKernelIdInvalid ∧
    ∀ n ∈ kernelName, ∀ K ∈ s.table, K.targetId = targetId →
      endsEarly n.bytes K.kernelName.bytes = false ∧ endsEarly K.kernelName.bytes n.bytes = false))

instance (s : TargetKernels) : (a : TargetKernelAct) → Decidable (KeepsSlots s a)
  | .addTargetKernel kernelId _ _ _ => inferInstanceAs (Decidable (kernelId ≠ targetKernelIdInvalid ∧
      ∀ i ∈ s.freeSlot, ∀ I ∈ s.instances, I.isLive = true → I.kernel ≠ i))
  | .addTargetKernelByName .. =>
    inferInstanceAs (Decidable (∀ i ∈ s.freeSlot, ∀ I ∈ s.instances, I.isLive = true → I.kernel ≠ i))
  | .removeTargetKernel i => inferInstanceAs (Decidable (∀ K ∈ s.table[i]?, K.isOccupied = true))
  | .get kernelId kernelName targetId => inferInstanceAs (Decidable (LooksUpOne s kernelId kernelName targetId))
  | .createInstance kernelId kernelName targetId _ =>
    inferInstanceAs (Decidable (LooksUpOne s kernelId kernelName targetId))
  | .removeTargetKernelByName .. | .executeInstance .. | .deleteInstance .. | .freeInstance .. => isTrue trivial

/-! ## Comparing names up to the delimiter -/

section Names

variable {a b : UInt8} {d s : List UInt8}

theorem upToDelim_cons_delim (d : List UInt8) : upToDelim (delim :: d) = [] := by
  simp [upToDelim]

theorem upToDelim_cons (h : a ≠ delim) (d : List UInt8) : upToDelim (a :: d) = a :: upToDelim d := by
  simp [upToDelim, h]

theorem endsEarly_cons (h : a ≠ delim) : endsEarly (a :: d) (a :: s) = endsEarly d s := by
  have hm : delim ∈ a :: d ↔ delim ∈ d := by
    rw [List.mem_cons]
    exact ⟨fun hd => hd.resolve_left (Ne.symm h), .inr⟩
  simp only [endsEarly, upToDelim_cons h, hm, List.cons_prefix_cons, true_and, ne_eq, List.cons.injEq]

theorem cmpDelim_of_delim (h : a = delim ∨ b = delim) (rest : Int) : cmpDelim a b rest = 0 := by
  unfold cmpDelim
  rw [if_pos (.inr (.inr (.inr h))), if_neg (fun hn => h.elim hn.1 hn.2)]

theorem cmpDelim_of_ne (ha : a ≠ delim) (hb : b ≠ delim) (h : a ≠ b) (rest : Int) : cmpDelim a b rest ≠ 0 := by
  unfold cmpDelim
  rw [if_pos (.inl h), if_pos ⟨ha, hb⟩]
  intro he
  exact h (UInt8.toNat_inj.1 (by omega))

theorem cmpDelim_self (ha : a ≠ delim) (h0 : a ≠ 0) (rest : Int) : cmpDelim a a rest = rest := by
  unfold cmpDelim
  rw [if_neg (by simp [ha, h0])]

theorem zero_ne_delim : (0 : UInt8) ≠ delim := by decide

/-- **What the comparison takes for equal**: names that are equal up to the delimiter, and names of which one ends early. -/
theorem strncmpDelim_eq_zero : ∀ {n : Nat} {d s : List UInt8}, d.length < n → s.length < n → 0 ∉ d → 0 ∉ s →
    (tivxObjDescStrncmpDelim n d s = 0 ↔
      upToDelim d = upToDelim s ∨ endsEarly d s = true ∨ endsEarly s d = true)
  | 0, _, _, h, _, _, _ => absurd h (Nat.not_lt_zero _)
  | n + 1, [], [], _, _, _, _ => by
    simp [tivxObjDescStrncmpDelim, cmpDelim]
  | n + 1, [], b :: s, _, _, _, hs => by
    have hb : b ≠ 0 := fun hb => hs (hb ▸ List.mem_cons_self)
    simp only [tivxObjDescStrncmpDelim, List.headD_nil, List.headD_cons]
    by_cases hbd : b = delim
    · subst hbd
      rw [cmpDelim_of_delim (.inr rfl), upToDelim_cons_delim]
      simp [upToDelim]
    · have hne := cmpDelim_of_ne zero_ne_delim hbd hb.symm (tivxObjDescStrncmpDelim n [].tail (b :: s).tail)
      simp only [hne, endsEarly, upToDelim_cons hbd, false_iff]
      simp [upToDelim]
  | n + 1, a :: d, [], _, _, hd, _ => by
    have ha : a ≠ 0 := fun ha => hd (ha ▸ List.mem_cons_self)
    simp only [tivxObjDescStrncmpDelim, List.headD_nil, List.headD_cons]
    by_cases had : a = delim
    · subst had
      rw [cmpDelim_of_delim (.inl rfl), upToDelim_cons_delim]
      simp [upToDelim]
    · have hne := cmpDelim_of_ne had zero_ne_delim ha (tivxObjDescStrncmpDelim n (a :: d).tail [].tail)
      simp only [hne, endsEarly, upToDelim_cons had, false_iff]
      simp [upToDelim]
  | n + 1, a :: d, b :: s, hld, hls, hd, hs => by
    simp only [tivxObjDescStrncmpDelim, List.headD_cons, List.tail_cons]
    by_cases had : a = delim
    · subst had
      rw [cmpDelim_of_delim (.inl rfl)]
      by_cases hbd : b = delim
      · subst hbd
        simp [upToDelim_cons_delim]
      · simp [endsEarly, upToDelim_cons_delim, upToDelim_cons hbd]
    · by_cases hbd : b = delim
      · subst hbd
        rw [cmpDelim_of_delim (.inr rfl)]
        simp [endsEarly, upToDelim_cons_delim, upToDelim_cons had]
      · by_cases hab : a = b
        · subst hab
          have ha : a ≠ 0 := fun ha => hd (ha ▸ List.mem_cons_self)
          have ih := strncmpDelim_eq_zero (Nat.lt_of_succ_lt_succ hld) (Nat.lt_of_succ_lt_succ hls)
            (fun h => hd (List.mem_cons_of_mem _ h)) (fun h => hs (List.mem_cons_of_mem _ h))
          rw [cmpDelim_self had ha, ih, upToDelim_cons had, upToDelim_cons had, endsEarly_cons had, endsEarly_cons had,
            List.cons_inj_right]
        · simp only [cmpDelim_of_ne had hbd hab, endsEarly, upToDelim_cons had, upToDelim_cons hbd, false_iff]
          simp [hab, Ne.symm hab]

/-- A name that is taken for one it is not equal to up to the delimiter ends early in it, or the other way round. -/
theorem KernelName.upToDelim_eq {n k : KernelName} (h : tivxObjDescStrncmpDelim maxKernelName n.bytes k.bytes = 0)
    (hn : endsEarly n.bytes k.bytes = false) (hk : endsEarly k.bytes n.bytes = false) :
    upToDelim n.bytes = upToDelim k.bytes := by
  rcases (strncmpDelim_eq_zero n.fits k.fits n.noNul k.noNul).1 h with he | he | he
  · exact he
  · rw [hn] at he
    cases he
  · rw [hk] at he
    cases he

end Names

/-! ## The tables -/

/-- The invariant: a slot in use is that of a registered kernel, a free one has no callbacks and the target of none, and an
instance points at the kernel it was created for as long as that is registered. -/
structure TargetKernelsInv (s : TargetKernels) : Prop where
  slots : s.table.length = targetKernelMax
  num : s.numTargetKernel.toNat = s.table.countP TargetKernel.isOccupied
  occupied : ∀ K ∈ s.table, K.isOccupied = K.registered
  free : ∀ K ∈ s.table, K.registered = false → K.targetId = targetKernelIdInvalid ∧ ∀ f, K.func f = none
  target : ∀ K ∈ s.table, K.registered = true → K.targetId ≠ targetKernelIdInvalid
  instances : ∀ I ∈ s.instances, I.isLive = true → ∀ K ∈ s.table[I.kernel]?, K.registered = true →
    K.func = I.createdFor.func ∧ K.callerPrivArg = I.createdFor.callerPrivArg
  calls : ∀ c ∈ s.calls, c.createdFor.func c.func = some c.called ∧ c.createdFor.callerPrivArg = c.privArg
  lookups : ∀ l ∈ s.lookups, l.kernel.registered = true
  names : ∀ l ∈ s.lookups, l.kernel.kernelName.bytes ≠ [] →
    ∃ n ∈ l.kernelName, upToDelim n.bytes = upToDelim l.kernel.kernelName.bytes

theorem ownPlatformGetTargetId_ne (target : TargetName) : ownPlatformGetTargetId target ≠ targetKernelIdInvalid := by
  unfold ownPlatformGetTargetId targetKernelIdInvalid targetIdInvalid
  split
  · rename_i id
    have := id.isLt
    omega
  · decide

section Invariant

variable {s : TargetKernels} {i : Nat} {K : TargetKernel}

theorem TargetKernelsInv.targetKernelsOk (h : TargetKernelsInv s) : TargetKernelsOk s :=
  ⟨h.num, h.occupied, h.calls, h.lookups, h.names⟩

/-- One slot changes. -/
theorem TargetKernelsInv.setSlot (h : TargetKernelsInv s) (hi : s.table[i]? = some K) {K' : TargetKernel} {num : UInt32}
    (hnum : num.toNat + K.isOccupied.toNat = s.numTargetKernel.toNat + K'.isOccupied.toNat)
    (hocc : K'.isOccupied = K'.registered)
    (hfree : K'.registered = false → K'.targetId = targetKernelIdInvalid ∧ ∀ f, K'.func f = none)
    (htarget : K'.registered = true → K'.targetId ≠ targetKernelIdInvalid)
    (hinst : K'.registered = true → ∀ I ∈ s.instances, I.isLive = true → I.kernel = i →
      K'.func = I.createdFor.func ∧ K'.callerPrivArg = I.createdFor.callerPrivArg) :
    TargetKernelsInv { s with table := s.table.set i K', numTargetKernel := num } := by
  obtain ⟨hlt, hK⟩ := List.getElem?_eq_some_iff.1 hi
  have hmem : K ∈ s.table := hK ▸ List.getElem_mem hlt
  refine ⟨?_, ?_, fun J hJ => ?_, fun J hJ => ?_, fun J hJ => ?_, fun I hI hl J hJ hr => ?_, h.calls, h.lookups, h.names⟩
  · rw [List.length_set, h.slots]
  · have hpos : K.isOccupied.toNat ≤ s.table.countP TargetKernel.isOccupied := by
      cases ho : K.isOccupied with
      | false => exact Nat.zero_le _
      | true => exact List.countP_pos_iff.2 ⟨K, hmem, ho⟩
    have hite : ∀ b : Bool, (if b = true then 1 else 0) = b.toNat := by decide
    have hn := h.num
    rw [List.countP_set hlt, hK, hite, hite]
    show num.toNat = _
    omega
  · rcases List.mem_or_eq_of_mem_set hJ with hJ | rfl
    · exact h.occupied J hJ
    · exact hocc
  · rcases List.mem_or_eq_of_mem_set hJ with hJ | rfl
    · exact h.free J hJ
    · exact hfree
  · rcases List.mem_or_eq_of_mem_set hJ with hJ | rfl
    · exact h.target J hJ
    · exact htarget
  · by_cases hIi : I.kernel = i
    · have hJ' : (s.table.set i K')[I.kernel]? = some J := hJ
      rw [hIi, List.getElem?_set_self hlt, Option.some.injEq] at hJ'
      subst hJ'
      exact hinst hr I hI hl hIi
    · have hJ' : (s.table.set i K')[I.kernel]? = some J := hJ
      rw [List.getElem?_set_ne (Ne.symm hIi)] at hJ'
      exact h.instances I hI hl J hJ' hr

theorem TargetKernelsInv.add (h : TargetKernelsInv s) {kernelId : Int} (hid : kernelId ≠ targetKernelIdInvalid)
    (hfree : ∀ i ∈ s.freeSlot, ∀ I ∈ s.instances, I.isLive = true → I.kernel ≠ i) (kernelName : Option CString)
    (target : TargetName) (func : KernelFunc → Option Nat) (privArg : Nat) :
    TargetKernelsInv (s.ownAddTargetKernelInternal kernelId kernelName target func privArg) := by
  unfold ownAddTargetKernelInternal
  split
  · cases hi : s.freeSlot with
    | none => exact h
    | some i =>
      obtain ⟨hlt, hK, -⟩ := List.findIdx?_eq_some_iff_getElem.1 hi
      have hocc : (s.table[i]).isOccupied = false := by simpa using hK
      have hroom : s.numTargetKernel.toNat < targetKernelMax := by
        rw [h.num, ← h.slots]
        exact List.countP_lt_length_iff.2 ⟨_, List.getElem_mem hlt, hocc⟩
      have hnew : (kernelId != targetKernelIdInvalid) = true := by simpa using hid
      refine h.setSlot (List.getElem?_eq_getElem hlt) ?_ hnew (fun hr => (nomatch hr))
        (fun _ => ownPlatformGetTargetId_ne target) (fun _ I hI hl hIi => absurd hIi (hfree i hi I hI hl))
      rw [toNat_add_one hroom (by decide), hocc]
      show _ = s.numTargetKernel.toNat + (kernelId != targetKernelIdInvalid).toNat
      rw [hnew]
      rfl
  · exact h

/-- A registered kernel is removed. -/
theorem TargetKernelsInv.remove (h : TargetKernelsInv s) (hocc : ∀ K ∈ s.table[i]?, K.isOccupied = true) :
    TargetKernelsInv (s.ownRemoveKernelIndex i) := by
  unfold ownRemoveKernelIndex
  cases hi : s.table[i]? with
  | none => exact h
  | some K =>
    have hK := hocc K hi
    have hpos : 0 < s.numTargetKernel.toNat := by
      rw [h.num]
      exact List.countP_pos_iff.2 ⟨K, List.mem_of_getElem? hi, hK⟩
    refine h.setSlot hi ?_ rfl (fun _ => ⟨rfl, fun _ => rfl⟩) (fun hr => (nomatch hr)) (fun hr => (nomatch hr))
    rw [toNat_sub_one hpos, hK]
    show s.numTargetKernel.toNat - 1 + 1 = s.numTargetKernel.toNat + 0
    omega

/-- A name finds a registered kernel on its target. -/
theorem TargetKernelsInv.removeByName (h : TargetKernelsInv s) (kernelName : CString) (target : TargetName) :
    TargetKernelsInv (s.tivxRemoveTargetKernelByName kernelName target) := by
  unfold tivxRemoveTargetKernelByName
  cases hi : s.namedSlot kernelName target with
  | none => exact h
  | some i =>
    obtain ⟨hlt, hK, -⟩ := List.findIdx?_eq_some_iff_getElem.1 hi
    refine h.remove (fun K hK' => ?_)
    obtain ⟨-, rfl⟩ := List.getElem?_eq_some_iff.1 hK'
    have hmem := List.getElem_mem hlt
    rw [h.occupied _ hmem]
    cases hr : (s.table[i]).registered with
    | true => rfl
    | false =>
      have ht := (h.free _ hmem hr).1
      exact absurd ((of_decide_eq_true hK).1.trans ht) (ownPlatformGetTargetId_ne target)

/-- A lookup finds a registered kernel, with the name of the node up to the delimiter, and leaves it as it is but for its id. -/
theorem TargetKernelsInv.get (h : TargetKernelsInv s) {kernelId : Int} {kernelName : Option KernelName} {targetId : Int}
    (hone : LooksUpOne s kernelId kernelName targetId) :
    TargetKernelsInv (s.ownTargetKernelGet kernelId kernelName targetId).1 ∧
      (s.ownTargetKernelGet kernelId kernelName targetId).1.instances = s.instances ∧
      ∀ i K, (s.ownTargetKernelGet kernelId kernelName targetId).2 = some (i, K) →
        (s.ownTargetKernelGet kernelId kernelName targetId).1.table[i]? = some K := by
  unfold ownTargetKernelGet
  cases hi : s.table.findIdx? (TargetKernel.isFound kernelId kernelName targetId) with
  | none => exact ⟨h, rfl, fun _ _ hn => (nomatch hn)⟩
  | some i =>
    obtain ⟨hlt, hfound, -⟩ := List.findIdx?_eq_some_iff_getElem.1 hi
    obtain ⟨hid, htarget, hnames⟩ := hone
    simp only [List.getElem?_eq_getElem hlt]
    generalize hK : s.table[i] = K at hfound
    have hmem : K ∈ s.table := hK ▸ List.getElem_mem hlt
    have hKt : K.targetId = targetId := by
      unfold TargetKernel.isFound at hfound
      split at hfound <;> exact (of_decide_eq_true hfound).2.symm
    have hreg : K.registered = true := by
      cases hr : K.registered with
      | true => rfl
      | false => exact absurd (hKt.symm.trans (h.free K hmem hr).1) htarget
    have hocc : K.isOccupied = true := (h.occupied K hmem).trans hreg
    have hname : K.kernelName.bytes ≠ [] → ∃ n ∈ kernelName, upToDelim n.bytes = upToDelim K.kernelName.bytes := by
      intro hne
      unfold TargetKernel.isFound at hfound
      rw [if_neg hne] at hfound
      obtain ⟨n, hn, heq⟩ := (Option.any_eq_true _ _).1 (of_decide_eq_true hfound).1
      obtain ⟨he1, he2⟩ := hnames n hn K hmem hKt
      exact ⟨n, hn, KernelName.upToDelim_eq (of_decide_eq_true heq) he1 he2⟩
    have hset : TargetKernelsInv { s with table := s.table.set i (K.found kernelId) } := by
      have hoccFound : (K.found kernelId).isOccupied = true := by
        unfold TargetKernel.found
        split
        · exact hocc
        · simpa [TargetKernel.isOccupied] using hid
      have hsame : (K.found kernelId).registered = K.registered ∧ (K.found kernelId).targetId = K.targetId ∧
          (K.found kernelId).func = K.func ∧ (K.found kernelId).callerPrivArg = K.callerPrivArg := by
        unfold TargetKernel.found
        split <;> exact ⟨rfl, rfl, rfl, rfl⟩
      obtain ⟨h1, h2, h3, h4⟩ := hsame
      refine h.setSlot (hK ▸ List.getElem?_eq_getElem hlt) (by rw [hocc, hoccFound]) (by rw [hoccFound, h1, hreg])
        (fun hr => ?_) (fun _ => ?_) (fun _ I hI hl hIi => ?_)
      · rw [h1, hreg] at hr
        cases hr
      · rw [h2]
        exact h.target K hmem hreg
      · rw [h3, h4]
        exact h.instances I hI hl K (by rw [hIi]; exact hK ▸ List.getElem?_eq_getElem hlt) hreg
    refine ⟨⟨hset.slots, hset.num, hset.occupied, hset.free, hset.target, hset.instances, h.calls, fun l hl => ?_,
      fun l hl => ?_⟩, trivial, fun j J hJ => ?_⟩
    · rcases List.mem_cons.1 hl with rfl | hl
      · exact hreg
      · exact h.lookups l hl
    · rcases List.mem_cons.1 hl with rfl | hl
      · exact hname
      · exact h.names l hl
    · cases hJ
      exact List.getElem?_set_self hlt

/-- One instance changes. -/
theorem TargetKernelsInv.setInstance (h : TargetKernelsInv s) {index : Nat} {I : TargetKernelInstance}
    (hI : I.isLive = true → ∀ K ∈ s.table[I.kernel]?, K.registered = true →
      K.func = I.createdFor.func ∧ K.callerPrivArg = I.createdFor.callerPrivArg) :
    TargetKernelsInv { s with instances := s.instances.set index I } := by
  refine ⟨h.slots, h.num, h.occupied, h.free, h.target, fun J hJ => ?_, h.calls, h.lookups, h.names⟩
  rcases List.mem_or_eq_of_mem_set hJ with hJ | rfl
  · exact h.instances J hJ
  · exact hI

theorem TargetKernelsInv.freeInstance (h : TargetKernelsInv s) (index : Nat) :
    TargetKernelsInv (s.ownTargetKernelInstanceFree index) := by
  unfold ownTargetKernelInstanceFree
  split
  · exact h.setInstance (fun hl => (nomatch hl))
  · exact h

/-- An instance calls the callbacks of the kernel it was created for. -/
theorem TargetKernelsInv.callFunc (h : TargetKernelsInv s) (func : KernelFunc) {I : TargetKernelInstance}
    (hI : I ∈ s.instances) : TargetKernelsInv (s.callFunc func I) := by
  unfold TargetKernels.callFunc
  split
  · rename_i hl
    split
    · rename_i K hK
      split
      · rename_i f hf
        refine ⟨h.slots, h.num, h.occupied, h.free, h.target, h.instances, fun c hc => ?_, h.lookups, h.names⟩
        rcases List.mem_cons.1 hc with rfl | hc
        · have hreg : K.registered = true := by
            cases hr : K.registered with
            | true => rfl
            | false =>
              rw [(h.free K (List.mem_of_getElem? hK) hr).2 func] at hf
              cases hf
          obtain ⟨h1, h2⟩ := h.instances I hI hl K hK hreg
          exact ⟨by rw [← h1, hf], h2.symm⟩
        · exact h.calls c hc
      · exact h
    · exact h
  · exact h

theorem callFunc_instances (s : TargetKernels) (func : KernelFunc) (I : TargetKernelInstance) :
    (s.callFunc func I).instances = s.instances := by
  unfold TargetKernels.callFunc
  split
  · split
    · split <;> rfl
    · rfl
  · rfl

theorem mem_of_instanceGet {index : Nat} {kernelId : Int} {I : TargetKernelInstance}
    (h : s.ownTargetKernelInstanceGet index kernelId = some I) : I ∈ s.instances := by
  unfold ownTargetKernelInstanceGet at h
  exact List.mem_of_getElem? (Option.eq_some_of_filter_eq_some h)

theorem TargetKernelsInv.createInstance (h : TargetKernelsInv s) {kernelId : Int} {kernelName : Option KernelName}
    {targetId : Int} (hone : LooksUpOne s kernelId kernelName targetId) (created : Bool) :
    TargetKernelsInv (s.createInstance kernelId kernelName targetId created) := by
  obtain ⟨hget, hinst, htable⟩ := h.get hone
  unfold TargetKernels.createInstance ownTargetKernelInstanceAlloc
  generalize s.ownTargetKernelGet kernelId kernelName targetId = R at hget hinst htable
  obtain ⟨s', found⟩ := R
  cases found with
  | none => exact hget
  | some iK =>
    obtain ⟨i, K⟩ := iK
    have hK : s'.table[i]? = some K := htable i K rfl
    dsimp only
    cases hindex : s'.instances.findIdx? (fun I => !I.isLive) with
    | none => exact hget
    | some index =>
      obtain ⟨hlt, -, -⟩ := List.findIdx?_eq_some_iff_getElem.1 hindex
      have hset : TargetKernelsInv { s' with instances := s'.instances.set index ⟨kernelId, i, K⟩ } := by
        refine TargetKernelsInv.setInstance hget (fun _ J hJ _ => ?_)
        rw [hK] at hJ
        cases hJ
        exact ⟨rfl, rfl⟩
      dsimp only
      rw [List.getElem?_set_self hlt]
      have hcall := hset.callFunc .create (I := ⟨kernelId, i, K⟩) (List.mem_set hlt _)
      dsimp only
      split
      · exact hcall
      · exact hcall.freeInstance index

theorem TargetKernelsInv.step (h : TargetKernelsInv s) {a : TargetKernelAct} {s' : TargetKernels} (hkeeps : KeepsSlots s a)
    (hs : targetKernelStep s a = some s') : TargetKernelsInv s' := by
  cases a with
  | addTargetKernel kernelId target func privArg =>
    cases hs
    exact h.add hkeeps.1 hkeeps.2 none target func privArg
  | addTargetKernelByName kernelName target func privArg =>
    cases hs
    exact h.add (by decide) hkeeps kernelName target func privArg
  | removeTargetKernel i =>
    cases hs
    exact h.remove hkeeps
  | removeTargetKernelByName kernelName target =>
    cases hs
    exact h.removeByName kernelName target
  | get kernelId kernelName targetId =>
    cases hs
    exact (h.get hkeeps).1
  | createInstance kernelId kernelName targetId created =>
    cases hs
    exact h.createInstance hkeeps created
  | executeInstance func index kernelId =>
    cases hs
    unfold executeInstance
    split
    · rename_i I hI
      exact h.callFunc func (mem_of_instanceGet hI)
    · exact h
  | deleteInstance index kernelId =>
    cases hs
    unfold deleteInstance
    split
    · rename_i I hI
      exact (h.callFunc .delete (mem_of_instanceGet hI)).freeInstance index
    · exact h
  | freeInstance index kernelId =>
    cases hs
    split
    · exact h.freeInstance index
    · exact h

theorem TargetKernelsInv.start : TargetKernelsInv {} where
  slots := List.length_replicate
  num := by
    show (0 : UInt32).toNat = _
    rw [List.countP_replicate]
    rfl
  occupied K hK := by
    rw [List.eq_of_mem_replicate hK]
    rfl
  free K hK _ := by
    rw [List.eq_of_mem_replicate hK]
    exact ⟨rfl, fun _ => rfl⟩
  target K hK hr := by
    rw [List.eq_of_mem_replicate hK] at hr
    cases hr
  instances I hI hl := by
    rw [List.eq_of_mem_replicate hI] at hl
    cases hl
  calls c hc := nomatch hc
  lookups l hl := nomatch hl
  names l hl := nomatch hl

end Invariant

/-- **The kernels of a target are as its nodes expect**, in every run in which slots are given and left as they should be. -/
theorem targetKernelsOk_of_reach (s : TargetKernels) (h : Reach targetKernelStep KeepsSlots {} s) : TargetKernelsOk s :=
  (h.inv TargetKernelsInv.start (fun _ _ _ hi hk hs => hi.step hk hs)).targetKernelsOk

/-- The names `abc` and `ab:`. -/
def nameAbc : CString := ⟨[97, 98, 99], by decide⟩
def nameAb : KernelName := ⟨⟨[97, 98, 58], by decide⟩, by decide⟩

/-- A kernel of its own is created, removed, and another one registered in its slot. -/
def slotReused : List TargetKernelAct :=
  [.addTargetKernel 1 (.known 0) (fun _ => some 1) 0, .createInstance 1 none 0 true, .removeTargetKernel 0,
    .addTargetKernel 2 (.known 0) (fun _ => some 2) 0, .executeInstance .process 0 1]

/-- **What the tables do not check**: a handle that is removed twice makes the count wrap; an instance executes the kernel that
was registered in the slot of its own; a removed kernel is found by its name; and a name is found that goes on where that of
the node has its delimiter. -/
theorem slots_unchecked :
    (∃ s, Reach targetKernelStep (fun s a => anyStep s a = true) {} s ∧ s.numTargetKernel = 4294967295 ∧
      s.table.countP TargetKernel.isOccupied = 0) ∧
    (∃ s, Reach targetKernelStep (fun s a => anyStep s a = true) {} s ∧
      s.calls.head?.map (fun c => (c.called, c.createdFor.func c.func)) = some (2, some 1)) ∧
    (∃ s, Reach targetKernelStep (fun s a => anyStep s a = true) {} s ∧
      s.lookups.map (fun l => l.kernel.registered) = [false]) ∧
    ∃ s, Reach targetKernelStep (fun s a => anyStep s a = true) {} s ∧
      s.lookups.map (fun l => (l.kernelName.map (fun n => upToDelim n.bytes), upToDelim l.kernel.kernelName.bytes)) =
        [(some [97, 98], [97, 98, 99])] := by
  have h1 : (exec targetKernelStep anyStep {}
      [.addTargetKernel 1 (.known 0) (fun _ => some 1) 0, .removeTargetKernel 0, .removeTargetKernel 0]).map
      (fun s => (s.numTargetKernel, s.table.countP TargetKernel.isOccupied)) = some (4294967295, 0) := by
    decide +kernel
  have h2 : (exec targetKernelStep anyStep {} slotReused).map
      (fun s => s.calls.head?.map (fun c => (c.called, c.createdFor.func c.func))) = some (some (2, some 1)) := by
    decide +kernel
  have h3 : (exec targetKernelStep anyStep {} [.addTargetKernelByName (some nameAb.toCString) (.known 0) (fun _ => some 1) 0,
      .removeTargetKernelByName nameAb.toCString (.known 0), .get 1 (some nameAb) targetKernelIdInvalid]).map
      (fun s => s.lookups.map (fun l => l.kernel.registered)) = some [false] := by
    decide +kernel
  have h4 : (exec targetKernelStep anyStep {} [.addTargetKernelByName (some nameAbc) (.known 0) (fun _ => some 1) 0,
      .get 1 (some nameAb) 0]).map (fun s => s.lookups.map (fun l =>
        (l.kernelName.map (fun n => upToDelim n.bytes), upToDelim l.kernel.kernelName.bytes))) =
      some [(some [97, 98], [97, 98, 99])] := by
    decide +kernel
  exact ⟨(exists_reach_of_exec h1).imp (fun _ h => ⟨h.1, Prod.mk.inj h.2⟩), exists_reach_of_exec h2,
    exists_reach_of_exec h3, exists_reach_of_exec h4⟩

/-- A kernel is removed after its instance is deleted, and the next one registered in its slot executes. -/
theorem targetKernelsOk_reused : ∃ s : TargetKernels, s.calls.map (fun c => c.called) = [2, 2, 1, 1] ∧
    TargetKernelsOk s := by
  have hexec : (exec targetKernelStep (fun s a => decide (KeepsSlots s a)) {}
      [.addTargetKernel 1 (.known 0) (fun _ => some 1) 0, .createInstance 1 none 0 true, .deleteInstance 0 1,
        .removeTargetKernel 0, .addTargetKernelByName (some nameAbc) (.known 0) (fun _ => some 2) 0,
        .createInstance 2 (some nameAbc.toKernelName) 0 true, .executeInstance .process 0 2]).map
      (fun s => s.calls.map (fun c => c.called)) = some [2, 2, 1, 1] := by
    decide +kernel
  obtain ⟨s, hr, hs⟩ := exists_reach_of_exec hexec
  exact ⟨s, hs, targetKernelsOk_of_reach s (hr.mono (fun _ _ h => of_decide_eq_true h))⟩

end Tiovx
