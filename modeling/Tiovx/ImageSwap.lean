import Mathlib.Tactic.Common
import Tiovx.ImagePatch
import Tiovx.ImagePlacement
import Tiovx.PointerMoves
/-!
# ImageSwap — exchanging the memory of two images (`vx_image.c`)

`swapImage` exchanges what the descriptors say of each plane in a loop over all planes a descriptor has room for, and moves the
pointers by their differences.  The rule for freeing is exchanged in the same loop.
-/
namespace Tiovx

/-- A plane in `tivx_obj_desc_image_t`. -/
structure DescPlane where
  addr : ImagepatchAddressing
  memSize : UInt32
  ptr : PlanePtr
  memHeapRegion : MemHeapRegion := .externalShared
  dmaBufFd : Int := 0
  dmaBufFdOffset : UInt32 := 0
deriving DecidableEq

/-- What the kernels read of an image.  `hasRoom` is whether the stack of `adjustMemoryPointer` holds what was created from it. -/
structure KernelImage where
  width : UInt32
  height : UInt32
  format : DfImage
  createType : CreateType
  plane : Nat → DescPlane
  isVirtual : Bool := false
  channelPlane : Nat := 0
  hasParent : Bool := false
  hasSubimages : Bool := false
  hasRoom : Bool := true

/-- The errors of the checks. -/
inductive KernelError
  | notCompatible | invalidParameters | notSupported
deriving DecidableEq

namespace KernelImage

def planes (I : KernelImage) : Nat := planesOf I.format

/-- `isImageCopyable`. -/
def isImageCopyable (input output : KernelImage) : Except KernelError Unit :=
  if output.createType = .uniform then .error .notCompatible
  else if input.width ≠ output.width ∧ (output.width ≠ 0 ∨ output.isVirtual = false) then .error .notCompatible
  else if input.height ≠ output.height ∧ (output.height ≠ 0 ∨ output.isVirtual = false) then .error .notCompatible
  else if input.format ≠ output.format ∧ (output.format ≠ .virt ∨ output.isVirtual = false) then .error .notCompatible
  else .ok ()

/-- `isImageSwapable`. -/
def isImageSwapable (input output : KernelImage) : Except KernelError Unit :=
  (input.isImageCopyable output).bind (fun _ =>
    if input.createType = .uniform then .error .notCompatible
    else if input.hasParent ∨ output.hasParent then .error .invalidParameters
    else if (input.hasSubimages ∨ output.hasSubimages) ∧
        ∃ i < input.planes, (input.plane i).memSize ≠ (output.plane i).memSize then .error .notSupported
    else .ok ())

/-- A pass of the loop of `swapImage`; the destructors, which are exchanged too, are the same for all images. -/
def exchangePlane (s : KernelImage × KernelImage) (i : Nat) : KernelImage × KernelImage :=
  let (ip, op) := s
  ({ ip with
      createType := op.createType
      plane := Function.update ip.plane i { ip.plane i with addr := (op.plane i).addr, memSize := (op.plane i).memSize } },
    { op with
      createType := ip.createType
      plane := Function.update op.plane i { op.plane i with addr := (ip.plane i).addr, memSize := (ip.plane i).memSize } })

section Translated

/- `tivxMemHost2SharedPtr` of the shared region -/
variable (host2Shared : UInt64 → UInt64)

def shiftPlane (q : DescPlane) (offset : UInt64) : DescPlane := { q with ptr := PtrStore.shift host2Shared q.ptr offset }

/-- What `adjustMemoryPointer` does with the image itself. -/
def adjustMemoryPointer (I : KernelImage) (offset : Nat → UInt64) : KernelImage :=
  { I with
    plane := fun i =>
      if 0 < I.planes then if i < I.planes then shiftPlane host2Shared (I.plane i) (offset i) else I.plane i
      else if i = 0 then shiftPlane host2Shared (I.plane 0) (offset I.channelPlane) else I.plane i }

/-- `swapImage`; the output is not adjusted where the stack overflows for the input. -/
def swapImage (input output : KernelImage) : KernelImage × KernelImage :=
  let offsets := fun i => (output.plane i).ptr.host - (input.plane i).ptr.host
  let (ip, op) := (List.range imageMaxPlanes).foldl exchangePlane (input, output)
  let ip := ip.adjustMemoryPointer host2Shared offsets
  if ip.hasRoom then (ip, op.adjustMemoryPointer host2Shared (fun i => ~~~(offsets i - 1))) else (ip, op)

end Translated

/-- The sizes of the planes with the alignment between them: `ownImageGetBufferSize`. -/
def ownImageGetBufferSize (I : KernelImage) : UInt32 :=
  BufferImage.ownImageGetBufferSize { planes := I.planes, memSize := fun i => (I.plane i).memSize }

/-- What `ownDestructImage` frees: the pointer and the size. -/
def ownDestructImage (I : KernelImage) : List (UInt64 × UInt32) :=
  if (I.createType = .normal ∨ I.createType = .uniform) ∧ (I.plane 0).ptr.host ≠ 0 then
    [((I.plane 0).ptr.host, I.ownImageGetBufferSize)]
  else []

/-- The second image is now what the first was: its pixels, the memory they are in, and the rule for freeing it. -/
structure BecameOf (J I : KernelImage) : Prop where
  width : J.width = I.width
  height : J.height = I.height
  format : J.format = I.format
  plane : ∀ i < I.planes, J.plane i = I.plane i
  createType : J.createType = I.createType

/-- The images have exchanged their contents, and releasing both frees what releasing both before would have freed. -/
def Swapped (input output : KernelImage) (after : KernelImage × KernelImage) : Prop :=
  after.1.BecameOf output ∧ after.2.BecameOf input ∧
    (after.1.ownDestructImage ++ after.2.ownDestructImage).Perm (input.ownDestructImage ++ output.ownDestructImage)

/-- The shared pointers of the planes are those of the host pointers, and an image without planes has no memory. -/
structure Backed (host2Shared : UInt64 → UInt64) (I : KernelImage) : Prop where
  shared : ∀ i < I.planes, (I.plane i).ptr.shared = host2Shared (I.plane i).ptr.host
  none : I.planes = 0 → ∀ i, (I.plane i).ptr.host = 0

/-- What the images have alike: what is not exchanged, and the pointers where the second cannot be adjusted. -/
structure Alike (input output : KernelImage) : Prop where
  width : input.width = output.width
  height : input.height = output.height
  format : input.format = output.format
  createType : input.createType = output.createType
  heap : ∀ i < input.planes, (input.plane i).memHeapRegion = (output.plane i).memHeapRegion
  dmaBuf : ∀ i < input.planes, (input.plane i).dmaBufFd = (output.plane i).dmaBufFd ∧
    (input.plane i).dmaBufFdOffset = (output.plane i).dmaBufFdOffset
  room : input.hasRoom = true ∨ ∀ i < input.planes, (input.plane i).ptr.host = (output.plane i).ptr.host

/-! ### The exchange of the planes -/

/-- An image after `n` passes of the loop with another one. -/
def exchanged (n : Nat) (I O : KernelImage) : KernelImage :=
  { I with
    createType := if n % 2 = 0 then I.createType else O.createType
    plane := fun i => if i < n then { I.plane i with addr := (O.plane i).addr, memSize := (O.plane i).memSize } else I.plane i }

theorem exchanged_update (n : Nat) (I O : KernelImage) :
    Function.update (exchanged n I O).plane n { I.plane n with addr := (O.plane n).addr, memSize := (O.plane n).memSize } =
      (exchanged (n + 1) I O).plane := by
  funext i
  by_cases hi : i = n
  · subst hi
    simp only [Function.update_self, exchanged, Nat.lt_succ_self, if_true]
  · rw [Function.update_of_ne hi]
    simp only [exchanged, show (i < n + 1) = (i < n) from propext (by omega)]

/-- The planes are exchanged up to the pass; the create types with each pass. -/
theorem exchange_foldl (I O : KernelImage) : ∀ n, (List.range n).foldl exchangePlane (I, O) = (exchanged n I O, exchanged n O I)
  | 0 => rfl
  | n + 1 => by
    have hp : ∀ A B : KernelImage, (exchanged n A B).plane n = A.plane n := fun A B => if_neg (Nat.lt_irrefl n)
    have hc : ∀ A B : KernelImage, (exchanged n B A).createType = (exchanged (n + 1) A B).createType := by
      intro A B
      simp only [exchanged]
      rcases Nat.mod_two_eq_zero_or_one n with h | h
      · rw [if_pos h, if_neg (by omega)]
      · rw [if_neg (by omega), if_pos (by omega)]
    rw [List.range_succ, List.foldl_append, exchange_foldl I O n, List.foldl_cons, List.foldl_nil, exchangePlane, hp, hp,
      exchanged_update, exchanged_update, hc, hc]
    rfl

section Swap

variable {host2Shared : UInt64 → UInt64} {I O : KernelImage}

theorem planesOf_le (format : DfImage) : planesOf format ≤ imageMaxPlanes := by cases format <;> decide

theorem shift_host (host2Shared : UInt64 → UInt64) (q : PlanePtr) (b : UInt64) :
    PtrStore.shift host2Shared q (b - q.host) = ⟨b, host2Shared b⟩ := by
  rw [PtrStore.shift, UInt64.add_comm, UInt64.sub_add_cancel]

/-- The images after the exchange, with the pointers of the other one. -/
theorem swapImage_eq (host2Shared : UInt64 → UInt64) (I O : KernelImage) :
    I.swapImage host2Shared O =
      ((exchanged imageMaxPlanes I O).adjustMemoryPointer host2Shared (fun i => (O.plane i).ptr.host - (I.plane i).ptr.host),
        if I.hasRoom then
          (exchanged imageMaxPlanes O I).adjustMemoryPointer host2Shared (fun i => (I.plane i).ptr.host - (O.plane i).ptr.host)
        else exchanged imageMaxPlanes O I) := by
  have hback : (fun i => ~~~((O.plane i).ptr.host - (I.plane i).ptr.host - 1)) =
      fun i => (I.plane i).ptr.host - (O.plane i).ptr.host := funext (fun i => PtrStore.not_sub_one _ _)
  simp only [swapImage, exchange_foldl, hback]
  show (if I.hasRoom = true then _ else _) = _
  split <;> rfl

/-- A plane of an image that has the memory of another one; what is not exchanged is its own. -/
theorem adjusted_plane (host2Shared : UInt64 → UInt64) (I O : KernelImage) {i : Nat} (hi : i < I.planes) :
    ((exchanged imageMaxPlanes I O).adjustMemoryPointer host2Shared
        (fun i => (O.plane i).ptr.host - (I.plane i).ptr.host)).plane i =
      { O.plane i with
        ptr := ⟨(O.plane i).ptr.host, host2Shared (O.plane i).ptr.host⟩
        memHeapRegion := (I.plane i).memHeapRegion
        dmaBufFd := (I.plane i).dmaBufFd
        dmaBufFdOffset := (I.plane i).dmaBufFdOffset } := by
  have hlt : i < imageMaxPlanes := Nat.lt_of_lt_of_le hi (planesOf_le I.format)
  have hpl : (exchanged imageMaxPlanes I O).planes = I.planes := rfl
  have hx : (exchanged imageMaxPlanes I O).plane i =
      { I.plane i with addr := (O.plane i).addr, memSize := (O.plane i).memSize } := if_pos hlt
  simp only [adjustMemoryPointer, hpl, if_pos (Nat.zero_lt_of_lt hi), if_pos hi, hx, shiftPlane, shift_host]

/-- An image that has the memory of one like it has become it. -/
theorem becameOf_adjusted (hO : O.Backed host2Shared) (hw : I.width = O.width) (hh : I.height = O.height)
    (hf : I.format = O.format) (hc : I.createType = O.createType)
    (hp : ∀ i < I.planes, (I.plane i).memHeapRegion = (O.plane i).memHeapRegion ∧ (I.plane i).dmaBufFd = (O.plane i).dmaBufFd ∧
      (I.plane i).dmaBufFdOffset = (O.plane i).dmaBufFdOffset) :
    ((exchanged imageMaxPlanes I O).adjustMemoryPointer host2Shared
      (fun i => (O.plane i).ptr.host - (I.plane i).ptr.host)).BecameOf O := by
  refine ⟨hw, hh, hf, fun i hi => ?_, hc⟩
  have hi' : i < I.planes := by rw [planes, hf]; exact hi
  obtain ⟨h1, h2, h3⟩ := hp i hi'
  rw [adjusted_plane host2Shared I O hi', h1, h2, h3, ← hO.shared i hi]

/-- What is freed of an image that has become another one. -/
theorem ownDestructImage_of_becameOf {J : KernelImage} (h : J.BecameOf I)
    (h0 : I.planes = 0 → (J.plane 0).ptr.host = 0 ∧ (I.plane 0).ptr.host = 0) : J.ownDestructImage = I.ownDestructImage := by
  have hpl : J.planes = I.planes := congrArg planesOf h.format
  unfold ownDestructImage
  rw [h.createType]
  by_cases hz : I.planes = 0
  · obtain ⟨h1, h2⟩ := h0 hz
    rw [if_neg (fun hc => hc.2 h1), if_neg (fun hc => hc.2 h2)]
  · have hsum : BufferImage.alignedSize (fun i => (J.plane i).memSize) (I.planes - 1) =
        BufferImage.alignedSize (fun i => (I.plane i).memSize) (I.planes - 1) :=
      BufferImage.alignedSize_congr (fun p hp => by rw [h.plane p (by omega)])
    have hsize : J.ownImageGetBufferSize = I.ownImageGetBufferSize := by
      simp only [ownImageGetBufferSize, BufferImage.ownImageGetBufferSize, hpl]
      rw [h.plane _ (by omega), hsum]
    rw [h.plane 0 (Nat.pos_of_ne_zero hz), hsize]

/-- An image without planes has no memory afterwards. -/
theorem adjusted_none (hI : I.Backed host2Shared) (hO : O.Backed host2Shared) (h0 : I.planes = 0) (hO0 : O.planes = 0) :
    (((exchanged imageMaxPlanes I O).adjustMemoryPointer host2Shared
      (fun i => (O.plane i).ptr.host - (I.plane i).ptr.host)).plane 0).ptr.host = 0 := by
  have hpl : (exchanged imageMaxPlanes I O).planes = I.planes := rfl
  have hx : (exchanged imageMaxPlanes I O).plane 0 =
      { I.plane 0 with addr := (O.plane 0).addr, memSize := (O.plane 0).memSize } := rfl
  simp only [adjustMemoryPointer, hpl, h0, Nat.lt_irrefl, if_false, if_true, hx, shiftPlane, PtrStore.shift, hI.none h0,
    hO.none hO0, UInt64.sub_self, UInt64.add_zero]

theorem ptr_eq {q r : PlanePtr} (hh : q.host = r.host) (hs : q.shared = r.shared) : q = r := by
  cases q
  cases r
  rw [PlanePtr.mk.injEq]
  exact ⟨hh, hs⟩

/-- A plane with the addressing of one that is like it otherwise. -/
theorem plane_of_alike {q r : DescPlane} (hp : q.ptr = r.ptr) (hh : q.memHeapRegion = r.memHeapRegion)
    (hd : q.dmaBufFd = r.dmaBufFd) (ho : q.dmaBufFdOffset = r.dmaBufFdOffset) :
    { q with addr := r.addr, memSize := r.memSize } = r := by
  cases q
  cases r
  rw [DescPlane.mk.injEq]
  exact ⟨rfl, rfl, hp, hh, hd, ho⟩

/-- **Two images are exchanged exactly when** their sizes, create types, heaps and dma-bufs are alike, and the stack holds what was
created from the first one. -/
theorem swapped_iff (hI : I.Backed host2Shared) (hO : O.Backed host2Shared) :
    Swapped I O (I.swapImage host2Shared O) ↔ Alike I O := by
  rw [swapImage_eq]
  constructor
  · rintro ⟨h1, h2, -⟩
    have hf : I.format = O.format := h1.format
    have hpl : I.planes = O.planes := congrArg planesOf hf
    have hinfo : ∀ i < I.planes, _ := fun i hi => (adjusted_plane host2Shared I O hi).symm.trans (h1.plane i (hpl ▸ hi))
    refine ⟨h1.width, h1.height, hf, h1.createType, fun i hi => ?_, fun i hi => ?_, ?_⟩
    · have hheap := congrArg DescPlane.memHeapRegion (hinfo i hi)
      exact hheap
    · have hfd := congrArg DescPlane.dmaBufFd (hinfo i hi)
      have hoff := congrArg DescPlane.dmaBufFdOffset (hinfo i hi)
      exact ⟨hfd, hoff⟩
    · by_cases hr : I.hasRoom = true
      · exact .inl hr
      · refine .inr (fun i hi => ?_)
        -- the pointers of the second image are still its own
        simp only [if_neg hr] at h2
        have hlt : i < imageMaxPlanes := Nat.lt_of_lt_of_le hi (planesOf_le I.format)
        have hx : (exchanged imageMaxPlanes O I).plane i =
            { O.plane i with addr := (I.plane i).addr, memSize := (I.plane i).memSize } := if_pos hlt
        have := congrArg (fun q => q.ptr.host) (hx.symm.trans (h2.plane i hi))
        exact this.symm
  · intro h
    have hpl : I.planes = O.planes := congrArg planesOf h.format
    have h1 := becameOf_adjusted hO h.width h.height h.format h.createType
      (fun i hi => ⟨h.heap i hi, h.dmaBuf i hi⟩)
    have h2 : (if I.hasRoom then
          (exchanged imageMaxPlanes O I).adjustMemoryPointer host2Shared (fun i => (I.plane i).ptr.host - (O.plane i).ptr.host)
        else exchanged imageMaxPlanes O I).BecameOf I := by
      split
      · exact becameOf_adjusted hI h.width.symm h.height.symm h.format.symm h.createType.symm
          (fun i hi => ⟨(h.heap i (hpl ▸ hi)).symm, (h.dmaBuf i (hpl ▸ hi)).1.symm, (h.dmaBuf i (hpl ▸ hi)).2.symm⟩)
      · rename_i hr
        refine ⟨h.width.symm, h.height.symm, h.format.symm, fun i hi => ?_, h.createType.symm⟩
        have hlt : i < imageMaxPlanes := Nat.lt_of_lt_of_le hi (planesOf_le I.format)
        have hx : (exchanged imageMaxPlanes O I).plane i =
            { O.plane i with addr := (I.plane i).addr, memSize := (I.plane i).memSize } := if_pos hlt
        have hhost := (h.room.resolve_left hr) i hi
        have hshared : (O.plane i).ptr.shared = (I.plane i).ptr.shared := by
          rw [hO.shared i (hpl ▸ hi), hI.shared i hi, hhost]
        exact hx.trans (plane_of_alike (ptr_eq hhost.symm hshared) (h.heap i hi).symm (h.dmaBuf i hi).1.symm
          (h.dmaBuf i hi).2.symm)
    refine ⟨h1, h2, ?_⟩
    rw [ownDestructImage_of_becameOf h1 (fun h0 => ⟨?_, hO.none h0 0⟩),
      ownDestructImage_of_becameOf h2 (fun h0 => ⟨?_, hI.none h0 0⟩)]
    · exact List.perm_append_comm
    · split
      · exact adjusted_none hO hI (hpl.symm.trans h0) h0
      · exact hO.none (hpl.symm.trans h0) 0
    · exact adjusted_none hI hO (hpl.trans h0) h0

end Swap

/-- A 640x480 image of one plane, with its buffer at `host`. -/
def vgaKernelImage (createType : CreateType) (host : UInt64) (dmaBufFd : Int) : KernelImage where
  width := 640
  height := 480
  format := .u8
  createType := createType
  plane := fun i =>
    if i = 0 then { addr := ⟨640, 480, 1, 640, 1, 1⟩, memSize := 307200, ptr := ⟨host, host⟩, dmaBufFd := dmaBufFd }
    else { addr := ⟨0, 0, 0, 0, 0, 0⟩, memSize := 0, ptr := ⟨0, 0⟩ }

theorem backed_vgaKernelImage (createType : CreateType) (host : UInt64) (dmaBufFd : Int) :
    (vgaKernelImage createType host dmaBufFd).Backed id where
  shared := fun i _ => by
    simp only [vgaKernelImage, id]
    split <;> rfl
  none := fun h => absurd h (show planesOf .u8 ≠ 0 by decide)

/-- Two images of one dma-buf. -/
theorem swapped_vga : Swapped (vgaKernelImage .normal 0x100000 7) (vgaKernelImage .normal 0x200000 7)
    ((vgaKernelImage .normal 0x100000 7).swapImage id (vgaKernelImage .normal 0x200000 7)) :=
  (swapped_iff (backed_vgaKernelImage _ _ _) (backed_vgaKernelImage _ _ _)).2
    ⟨rfl, rfl, rfl, rfl, fun _ _ => by simp only [vgaKernelImage]; split <;> rfl,
      fun _ _ => by simp only [vgaKernelImage]; split <;> exact ⟨rfl, rfl⟩, .inl rfl⟩

/-- After an allocated image is exchanged with a user's, the user's memory is freed and the buffer is not; and the dma-buf of two
allocated images stays where it was. -/
theorem swap_frees_handle :
    (let input := vgaKernelImage .normal 0x100000 7;
      let output := vgaKernelImage .fromHandle 0x200000 0;
      let after := input.swapImage id output;
      input.isImageSwapable output = .ok () ∧ input.ownDestructImage ++ output.ownDestructImage = [(0x100000, 307200)] ∧
      after.1.ownDestructImage ++ after.2.ownDestructImage = [(0x200000, 307200)] ∧ ¬ Swapped input output after) ∧
    (let input := vgaKernelImage .normal 0x100000 7;
      let output := vgaKernelImage .normal 0x200000 8;
      let after := input.swapImage id output;
      input.isImageSwapable output = .ok () ∧ (after.1.plane 0).ptr.host = 0x200000 ∧ (after.1.plane 0).dmaBufFd = 7 ∧
      ¬ Swapped input output after) := by
  refine ⟨⟨?_, by decide, by decide, fun h => ?_⟩, ?_, by decide, by decide, fun h => ?_⟩
  · rfl
  · exact absurd (h.1.createType : CreateType.normal = CreateType.fromHandle) (by decide)
  · rfl
  · have hfd := congrArg DescPlane.dmaBufFd (h.1.plane 0 (by decide))
    exact absurd hfd (by decide)

end KernelImage

end Tiovx
