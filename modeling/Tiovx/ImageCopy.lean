import Mathlib.Tactic.Common
import Tiovx.Lib.ByteGrid
import Tiovx.ImageSwap
import Tiovx.PatchAccess
/-!
# ImageCopy — the copy kernel of images (`vx_image.c`)

`copyImage` copies a plane as one block where the planes of both images have as many bytes, and maps the input and copies it into
the output as a patch where they have not.
-/
namespace Tiovx

namespace PatchImage

/-- What `isImageCopyable` reads. -/
def kernelImage (I : PatchImage) : KernelImage where
  width := I.desc.width
  height := I.desc.height
  format := I.desc.format
  createType := I.createType
  plane := fun p => ⟨(I.desc.plane p).addr, (I.desc.plane p).memSize, ⟨0, 0⟩, .externalShared, 0, 0⟩
  isVirtual := I.isVirtual

/-- The rectangle of the whole image. -/
def wholeRect (I : PatchImage) : VxRectangle := ⟨0, 0, I.desc.width, I.desc.height⟩

/-- What `copyImage` moves of a plane; `none` is a loop that does not end. -/
def planeMoves (input output : PatchImage) (i : Nat) : Except PatchError (Option (List PatchMove)) :=
  let ip := input.desc.plane i
  let op := output.desc.plane i
  if ip.memSize = op.memSize then .ok (some [.bytes op.hostPtr ip.hostPtr ip.memSize.toNat])
  else (input.vxMapImagePatch input.wholeRect i .readOnly).bind (fun (addr, ptr) =>
    output.vxCopyImagePatch input.wholeRect i addr ptr .writeOnly)

/-- The planes one after the other; after an error none is copied. -/
def copyPlanes (input output : PatchImage) : List Nat → ByteMem → Option ByteMem
  | [], m => some m
  | i :: rest, m =>
    match input.planeMoves output i with
    | .error _ => some m
    | .ok none => none
    | .ok (some moves) => copyPlanes input output rest (moves.foldl PatchMove.write m)

/-- `copyImage`: the memory it leaves. -/
def copyImage (input output : PatchImage) (m : ByteMem) : Option ByteMem :=
  input.copyPlanes output (List.range input.desc.planes) m

end PatchImage

/-- The pixels of a plane: in each row its elements, or the bytes that hold the samples of a packed row. -/
def ImageDesc.grid (d : ImageDesc) (p : Nat) : ByteGrid :=
  let q := d.plane p
  { base := q.hostPtr
    stride := q.addr.strideY.toUInt32.toNat
    rows := q.addr.rows
    step := q.addr.strideX.toUInt32.toNat
    cells := if q.addr.strideX = 0 then 1 else (q.addr.dimX.toNat + (q.addr.stepX.toNat - 1)) / q.addr.stepX.toNat
    bytes := if q.addr.strideX = 0 then (12 * q.addr.dimX.toNat + 7) / 8 else elementBytes d.format p }

/-- Every pixel of the output has become that of the input, and nothing else has changed. -/
def Copied (input output : PatchImage) : Prop :=
  ∀ m : ByteMem, ∃ m', input.copyImage output m = some m' ∧
    (∀ p < output.desc.planes, ∀ r < (output.desc.grid p).rows, ∀ k < (output.desc.grid p).cells,
      ∀ b < (output.desc.grid p).bytes, m' ((output.desc.grid p).place r k b) = m ((input.desc.grid p).place r k b)) ∧
    ∀ a, (∀ p < output.desc.planes, ¬ (output.desc.grid p).Area a) → m' a = m a

/-- The bits of a packed row have 32 bits, other elements follow each other, and a row ends before the next one. -/
def ImageDesc.RowsHold (d : ImageDesc) : Prop :=
  ∀ p < d.planes,
    let addr := (d.plane p).addr
    if addr.strideX = 0 then 12 * addr.dimX.toNat + 7 < 2 ^ 32 ∧ (12 * addr.dimX.toNat + 7) / 8 ≤ addr.strideY.toUInt32.toNat
    else 0 < addr.strideX ∧ addr.strideX.toUInt32.toNat * (addr.dimX.toNat / addr.stepX.toNat) ≤ addr.strideY.toUInt32.toNat

/-- The planes of the output are apart from those of the input, and from each other. -/
def MemoryApart (input output : PatchImage) : Prop :=
  ∀ p < output.desc.planes, ∀ q < output.desc.planes,
    (output.desc.plane p).mem.Apart (input.desc.plane q).mem ∧
      (p ≠ q → (output.desc.plane p).mem.Apart (output.desc.plane q).mem)

/-- Where planes have as many bytes, the pixels are as far apart in both images, and no byte of the output's is outside of them;
where they have not, both images can be accessed, elements of the input are not closer than those of the output, which have no
gaps, and a packed plane has all samples. -/
def planeCopies (input output : PatchImage) (p : Nat) : Prop :=
  let g := input.desc.grid p
  let h := output.desc.grid p
  if (input.desc.plane p).memSize = (output.desc.plane p).memSize then
    (h.cells ≤ 1 ∨ g.step = h.step) ∧ (h.cells ≤ 1 ∨ h.step ≤ h.bytes) ∧ h.stride ≤ h.step * (h.cells - 1) + h.bytes
  else
    input.ownCopyAndMapCheckParams input.wholeRect p .readOnly = .ok () ∧ input.hasFreeMap = true ∧
      output.ownCopyAndMapCheckParams input.wholeRect p .writeOnly = .ok () ∧
      if (output.desc.plane p).addr.strideX = 0 then (output.desc.plane p).addr.stepX = 1
      else ¬ (input.desc.plane p).addr.strideX < (output.desc.plane p).addr.strideX ∧ h.step = h.bytes

/-! ### The images of the kernel -/

/-- Every image has dimensions that its format takes. -/
theorem ImageSource.validDimensions {src : ImageSource} {d : ImageDesc} (h : src.image = some d) :
    ownIsValidDimensions d.width d.height d.format = true := by
  have hint : ∀ {width height : UInt32} {format : DfImage} {e : ImageDesc}, ownCreateImageInt width height format = some e →
      ownIsValidDimensions e.width e.height e.format = true := by
    intro width height format e he
    simp only [ownCreateImageInt] at he
    split at he
    · rename_i hv
      cases he
      exact hv
    · cases he
  have hcreate : ∀ {width height : UInt32} {format : DfImage} {host : Nat} {e : ImageDesc},
      (Tiovx.vxCreateImage width height format).map (·.ownAllocImageBuffer host) = some e →
      ownIsValidDimensions e.width e.height e.format = true := by
    intro width height format host e he
    obtain ⟨e', he', rfl⟩ := Option.map_eq_some_iff.1 he
    simp only [Tiovx.vxCreateImage] at he'
    split at he'
    · cases he'
    · have hv := hint he'
      exact hv
  cases src with
  | vxCreateImage width height format host => exact hcreate h
  | vxCreateUniformImage width height format value host =>
    simp only [image, Tiovx.vxCreateUniformImage] at h
    split at h
    · cases h
    · exact hcreate h
  | vxCreateImageFromHandle color addrs ptrs =>
    simp only [image, Tiovx.vxCreateImageFromHandle] at h
    split at h
    · cases h
    · obtain ⟨e, he, h⟩ := Option.bind_eq_some_iff.1 h
      split at h
      · cases h
        have hv := hint he
        exact hv
      · cases h
  | vxCreateImageFromChannel parent channel =>
    simp only [image] at h
    split at h
    · obtain ⟨dp, -, h⟩ := Option.bind_eq_some_iff.1 h
      simp only [Tiovx.vxCreateImageFromChannel] at h
      split at h
      · obtain ⟨e, he, rfl⟩ := Option.map_eq_some_iff.1 h
        have hv := hint he
        exact hv
      · cases h
    · cases h
  | vxCreateImageFromROI parent rect =>
    simp only [image] at h
    split at h
    · obtain ⟨dp, -, h⟩ := Option.bind_eq_some_iff.1 h
      simp only [Tiovx.vxCreateImageFromROI] at h
      split at h
      · cases h
      · obtain ⟨e, he, rfl⟩ := Option.map_eq_some_iff.1 h
        have hv := hint he
        exact hv
    · cases h

/-- A plane with half of the samples that is not packed has an even width. -/
theorem even_width {format : DfImage} {width height : UInt32} (hv : ownIsValidDimensions width height format = true) {p : Nat}
    (hp : p < planesOf format) (hn : format.packed = false) : width.toNat % (planeInit format p).2.1.toNat = 0 := by
  have hh : heightFits format height := fun hf => by rw [hf] at hn; cases hn
  rcases plane_cases hv hh hp with ⟨h1, -⟩ | ⟨h1, -, hor⟩
  · rw [h1]
    exact Nat.mod_one _
  · rw [h1]
    rcases hor with hor | ⟨h2, -⟩
    · rw [hn] at hor
      cases hor
    · exact h2

/-- Images that are accepted have the same size and format, but for a virtual output that has none yet. -/
theorem accepted_spec {I O : PatchImage} (h : I.kernelImage.isImageCopyable O.kernelImage = .ok ()) (hw : O.desc.width ≠ 0)
    (hh : O.desc.height ≠ 0) (hf : O.desc.format ≠ .virt) :
    I.desc.width = O.desc.width ∧ I.desc.height = O.desc.height ∧ I.desc.format = O.desc.format := by
  simp only [KernelImage.isImageCopyable] at h
  split at h
  · cases h
  · split at h
    · cases h
    · rename_i h1
      split at h
      · cases h
      · rename_i h2
        split at h
        · cases h
        · rename_i h3
          exact ⟨by_contra fun hc => h1 ⟨hc, .inl hw⟩, by_contra fun hc => h2 ⟨hc, .inl hh⟩, by_contra fun hc => h3 ⟨hc, .inl hf⟩⟩

section Grids

variable {d : ImageDesc} {p : Nat}

/-- The grid of a plane that is not empty fits. -/
theorem grid_fits (S : ImageShape d) (F : d.Fits) (R : d.RowsHold) (hv : ownIsValidDimensions d.width d.height d.format = true)
    (hw : d.width ≠ 0) (hh : d.height ≠ 0) (hp : p < d.planes) : (d.grid p).Fits := by
  have Q := F p hp
  have hr := R p hp
  have hw' : 0 < (d.plane p).addr.dimX.toNat := by
    rw [S.dimX]
    exact Nat.pos_of_ne_zero (fun h0 => hw (UInt32.toNat_inj.1 h0))
  have hh' : 0 < (d.plane p).addr.dimY.toNat := by
    rw [S.dimY]
    exact Nat.pos_of_ne_zero (fun h0 => hh (UInt32.toNat_inj.1 h0))
  have hwhole := Q.whole
  have hrows : 0 < (d.plane p).addr.rows := by
    rw [Q.rows_eq]
    rcases Q.step_cases with ⟨-, h2⟩ | ⟨-, h2⟩ <;> rw [h2] at hwhole ⊢ <;> omega
  by_cases h0 : (d.plane p).addr.strideX = 0
  · simp only [h0, if_true] at hr
    have hs0 : (d.plane p).addr.strideX.toUInt32.toNat = 0 := by rw [h0]; rfl
    refine ⟨hrows, ?_, ?_, ?_, ?_⟩ <;> simp only [ImageDesc.grid, h0, if_true]
    · exact Nat.one_pos
    · omega
    · rw [Nat.sub_self, Nat.mul_zero, Nat.zero_add]
      exact hr.2
    · exact Nat.zero_le _
  · simp only [h0, if_false] at hr
    have hn : d.format.packed = false := by
      by_contra hc
      exact h0 ((S.packed p hp).2 (by simpa using hc))
    have heven := even_width hv hp hn
    rw [← S.stepX p, ← S.dimX p] at heven
    have hrow := Q.row hw'
    simp only [ImagepatchAddressing.xOffset, h0, if_false] at hrow
    have hc : ((d.plane p).addr.dimX.toNat + ((d.plane p).addr.stepX.toNat - 1)) / (d.plane p).addr.stepX.toNat =
        (d.plane p).addr.dimX.toNat / (d.plane p).addr.stepX.toNat := by
      rcases Q.step_cases with ⟨h1, -⟩ | ⟨h1, -⟩ <;> rw [h1] at heven ⊢ <;> omega
    have hc1 : (d.plane p).addr.dimX.toNat / (d.plane p).addr.stepX.toNat - 1 =
        ((d.plane p).addr.dimX.toNat - 1) / (d.plane p).addr.stepX.toNat := by
      rcases Q.step_cases with ⟨h1, -⟩ | ⟨h1, -⟩ <;> rw [h1] at heven ⊢ <;> omega
    refine ⟨hrows, ?_, ?_, ?_, ?_⟩ <;> simp only [ImageDesc.grid, h0, if_false, hc]
    · rcases Q.step_cases with ⟨h1, -⟩ | ⟨h1, -⟩ <;> rw [h1] at heven ⊢ <;> omega
    · exact Q.bytes_pos
    · rw [hc1]
      exact hrow
    · exact hr.2

/-- The bytes of the grid are those of the plane. -/
theorem grid_holds (F : d.Fits) (hp : p < d.planes) {a : Int} :
    (d.grid p).Holds a ↔ (d.plane p).hostPtr ≤ a ∧ a < (d.plane p).hostPtr + ((d.plane p).memSize.toNat : Int) := by
  have Q := F p hp
  rw [ByteGrid.Holds, Q.size, ← Q.rows_eq]
  rfl

end Grids

/-- A stride that is positive is the same as an unsigned one. -/
theorem toInt_eq_of_pos {x : Int32} (h : 0 < x) : x.toInt = x.toUInt32.toNat := by
  have h1 : (0 : Int) < x.toInt := by rwa [Int32.lt_iff_toInt_lt] at h
  have h2 := int32_toInt_eq x
  have h3 := x.toUInt32.toNat_lt
  rw [Int.bmod_def] at h2
  split at h2 <;> omega

/-! ### The moves of a plane -/

/-- A copy into an image. -/
def BlockCopy.toMove (c : BlockCopy) : PatchMove := .bytes c.dst c.src c.len

theorem foldl_toMove (l : List BlockCopy) (m : ByteMem) :
    (l.map BlockCopy.toMove).foldl PatchMove.write m = l.foldl ByteMem.copy m := by
  rw [List.foldl_map]
  rfl

/-- Two images of the same size and format, with memory, whose planes are apart. -/
structure CopyContext (I O : PatchImage) : Prop where
  shapeI : ImageShape I.desc
  shapeO : ImageShape O.desc
  fitsI : I.desc.Fits
  fitsO : O.desc.Fits
  rowsI : I.desc.RowsHold
  rowsO : O.desc.RowsHold
  valid : ownIsValidDimensions O.desc.width O.desc.height O.desc.format = true
  width : I.desc.width = O.desc.width
  height : I.desc.height = O.desc.height
  format : I.desc.format = O.desc.format
  hasWidth : O.desc.width ≠ 0
  hasHeight : O.desc.height ≠ 0
  host : ∀ p < I.desc.planes, (I.desc.plane p).hostPtr ≠ 0
  apart : MemoryApart I O

namespace CopyContext

variable {I O : PatchImage} {p : Nat}

theorem planes (C : CopyContext I O) : I.desc.planes = O.desc.planes := congrArg planesOf C.format

theorem packed_iff (C : CopyContext I O) (hp : p < O.desc.planes) :
    (I.desc.plane p).addr.strideX = 0 ↔ (O.desc.plane p).addr.strideX = 0 := by
  rw [C.shapeI.packed p (by rw [C.planes]; exact hp), C.shapeO.packed p hp, C.format]

theorem stepX (C : CopyContext I O) (p : Nat) : (I.desc.plane p).addr.stepX = (O.desc.plane p).addr.stepX := by
  rw [C.shapeI.stepX, C.shapeO.stepX, C.format]

theorem stepY (C : CopyContext I O) (p : Nat) : (I.desc.plane p).addr.stepY = (O.desc.plane p).addr.stepY := by
  rw [C.shapeI.stepY, C.shapeO.stepY, C.format]

theorem dimX (C : CopyContext I O) (p : Nat) : (I.desc.plane p).addr.dimX = (O.desc.plane p).addr.dimX := by
  rw [C.shapeI.dimX, C.shapeO.dimX, C.width]

theorem dimY (C : CopyContext I O) (p : Nat) : (I.desc.plane p).addr.dimY = (O.desc.plane p).addr.dimY := by
  rw [C.shapeI.dimY, C.shapeO.dimY, C.height]

theorem gridI (C : CopyContext I O) (hp : p < O.desc.planes) : (I.desc.grid p).Fits :=
  grid_fits C.shapeI C.fitsI C.rowsI (by rw [C.width, C.height, C.format]; exact C.valid) (by rw [C.width]; exact C.hasWidth)
    (by rw [C.height]; exact C.hasHeight) (by rw [C.planes]; exact hp)

theorem gridO (C : CopyContext I O) (hp : p < O.desc.planes) : (O.desc.grid p).Fits :=
  grid_fits C.shapeO C.fitsO C.rowsO C.valid C.hasWidth C.hasHeight hp

theorem rows (C : CopyContext I O) (p : Nat) : (I.desc.grid p).rows = (O.desc.grid p).rows := by
  simp only [ImageDesc.grid, ImagepatchAddressing.rows, C.stepY, C.dimY]

theorem cells (C : CopyContext I O) (hp : p < O.desc.planes) : (I.desc.grid p).cells = (O.desc.grid p).cells := by
  simp only [ImageDesc.grid, C.packed_iff hp, C.stepX, C.dimX]

/-- A whole plane. -/
theorem whole_spec (C : CopyContext I O) (hp : p < O.desc.planes) (hs : (I.desc.plane p).memSize = (O.desc.plane p).memSize) :
    I.planeMoves O p = .ok (some ((ByteGrid.wholeCopy (I.desc.grid p) (O.desc.grid p)).map BlockCopy.toMove)) ∧
      ByteGrid.Within (I.desc.grid p) (O.desc.grid p) (ByteGrid.wholeCopy (I.desc.grid p) (O.desc.grid p)) ∧
      (ByteGrid.CopiedBy (I.desc.grid p) (O.desc.grid p) (ByteGrid.wholeCopy (I.desc.grid p) (O.desc.grid p)) ↔
        planeCopies I O p) := by
  have QI := C.fitsI p (by rw [C.planes]; exact hp)
  have QO := C.fitsO p hp
  have hsize : (I.desc.grid p).stride * (I.desc.grid p).rows = (O.desc.grid p).stride * (O.desc.grid p).rows := by
    have h1 := QI.size
    have h2 := QO.size
    rw [← QI.rows_eq] at h1
    rw [← QO.rows_eq, ← hs] at h2
    exact h1.symm.trans h2
  have hstride : (I.desc.grid p).stride = (O.desc.grid p).stride := by
    rw [C.rows] at hsize
    exact Nat.eq_of_mul_eq_mul_right (C.gridO hp).rows hsize
  have hmem : (I.desc.plane p).memSize.toNat = (O.desc.grid p).stride * (O.desc.grid p).rows := by
    rw [hs, QO.size, ← QO.rows_eq]
    rfl
  refine ⟨?_, ByteGrid.within_whole hsize, ?_⟩
  · simp only [PatchImage.planeMoves, hs, if_true]
    rw [← hs, hmem]
    rfl
  · rw [ByteGrid.copiedBy_whole_iff (C.gridO hp) hstride, planeCopies, if_pos hs]

/-- What a plane is asked for that is mapped and copied as a patch. -/
def Access (I O : PatchImage) (p : Nat) : Prop :=
  I.ownCopyAndMapCheckParams I.wholeRect p .readOnly = .ok () ∧ I.hasFreeMap = true ∧
    O.ownCopyAndMapCheckParams I.wholeRect p .writeOnly = .ok () ∧
    ¬ (I.desc.plane p).addr.strideX < (O.desc.plane p).addr.strideX

/-- The addressing the map gives. -/
def userAddr (I : PatchImage) (p : Nat) : ImagepatchAddressing :=
  { (I.desc.plane p).addr with dimX := I.wholeRect.width, dimY := I.wholeRect.height }

/-- The map starts at the plane, and the copy gets what it gives. -/
theorem patch_spec (C : CopyContext I O) (hp : p < O.desc.planes) (hs : (I.desc.plane p).memSize ≠ (O.desc.plane p).memSize) :
    (Access I O p → I.planeMoves O p =
      .ok ((O.desc.plane p).copyMoves I.wholeRect (userAddr I p) (I.desc.plane p).hostPtr)) ∧
    (¬ Access I O p → ∃ e, I.planeMoves O p = .error e) := by
  have hhost := C.host p (by rw [C.planes]; exact hp)
  have hpos : ∀ {x : UInt32}, x ≠ 0 → 0 < x := fun h =>
    UInt32.lt_iff_toNat_lt.2 (Nat.pos_of_ne_zero (fun h0 => h (UInt32.toNat_inj.1 h0)))
  have hstart : vxFormatImagePatchAddress2d (I.desc.plane p).hostPtr I.wholeRect.startX I.wholeRect.startY (I.desc.plane p).addr =
      (I.desc.plane p).hostPtr := by
    have hx : I.wholeRect.startX < (I.desc.plane p).addr.dimX := by rw [C.dimX, C.shapeO.dimX]; exact hpos C.hasWidth
    have hy : I.wholeRect.startY < (I.desc.plane p).addr.dimY := by rw [C.dimY, C.shapeO.dimY]; exact hpos C.hasHeight
    have h0 : (I.desc.plane p).addr.ownComputePatchOffset I.wholeRect.startX I.wholeRect.startY = 0 :=
      ownComputePatchOffset_start _
    rw [vxFormatImagePatchAddress2d, if_pos ⟨hhost, hx, hy⟩, h0, UInt32.toNat_zero, Nat.add_zero]
  simp only [PatchImage.planeMoves, hs, if_false]
  by_cases hmap : I.ownCopyAndMapCheckParams I.wholeRect p .readOnly = .ok () ∧ I.hasFreeMap = true
  · rw [map_accepts hmap.1 hhost hmap.2, hstart]
    simp only [Except.bind]
    constructor
    · rintro ⟨-, -, hcopy, hst⟩
      simp only [PatchImage.vxCopyImagePatch, hcopy, Except.bind]
      rw [if_neg (by simp [hhost]), if_neg]
      · rfl
      · rintro (h | ⟨h1, h2⟩)
        · exact hst h
        · rw [(C.packed_iff hp).2 h1] at h2
          exact absurd h2 (by decide)
    · intro hacc
      simp only [PatchImage.vxCopyImagePatch]
      rw [if_neg (by simp [hhost])]
      cases hcopy : O.ownCopyAndMapCheckParams I.wholeRect p .writeOnly with
      | error e => exact ⟨e, rfl⟩
      | ok u =>
        have hst : (I.desc.plane p).addr.strideX < (O.desc.plane p).addr.strideX := by
          by_contra hc
          exact hacc ⟨hmap.1, hmap.2, hcopy, hc⟩
        simp only [Except.bind]
        rw [if_pos (.inl hst)]
        exact ⟨_, rfl⟩
  · refine ⟨fun hacc => absurd ⟨hacc.1, hacc.2.1⟩ hmap, fun _ => ?_⟩
    simp only [PatchImage.vxMapImagePatch]
    cases hcheck : I.ownCopyAndMapCheckParams I.wholeRect p .readOnly with
    | error e => exact ⟨e, rfl⟩
    | ok u =>
      have hfree : ¬ I.hasFreeMap = true := fun hf => hmap ⟨hcheck, hf⟩
      simp only [Except.bind, if_neg hhost, if_neg hfree]
      exact ⟨_, rfl⟩

/-- An even width, where a plane that is not packed has half of the samples. -/
theorem even (C : CopyContext I O) (hp : p < O.desc.planes) (hn : (O.desc.plane p).addr.strideX ≠ 0) :
    (O.desc.plane p).addr.dimX.toNat % (O.desc.plane p).addr.stepX.toNat = 0 := by
  have hnp : O.desc.format.packed = false := by
    by_contra hc
    exact hn ((C.shapeO.packed p hp).2 (by simpa using hc))
  rw [C.shapeO.stepX p, C.shapeO.dimX p]
  exact even_width C.valid hp hnp

/-- The rows and columns of the whole image. -/
theorem wholeRect_loops (C : CopyContext I O) (hp : p < O.desc.planes) :
    loopCount I.wholeRect.startY I.wholeRect.endY (O.desc.plane p).addr.stepY = some (O.desc.grid p).rows ∧
      ((O.desc.plane p).addr.strideX ≠ 0 →
        loopCount I.wholeRect.startX I.wholeRect.endX (O.desc.plane p).addr.elementStep = some (O.desc.grid p).cells) := by
  have Q := C.fitsO p hp
  have hwhole := Q.whole
  have hy := (O.desc.plane p).addr.dimY.toNat_lt
  have hx := (O.desc.plane p).addr.dimX.toNat_lt
  have hH : I.wholeRect.endY = (O.desc.plane p).addr.dimY := by rw [C.shapeO.dimY, ← C.height]; rfl
  have hW : I.wholeRect.endX = (O.desc.plane p).addr.dimX := by rw [C.shapeO.dimX, ← C.width]; rfl
  have h0 : ∀ x : UInt32, x.toNat - UInt32.toNat 0 = x.toNat := fun x => Nat.sub_zero _
  refine ⟨?_, fun hn => ?_⟩
  · rw [hH]
    refine loopCount_of_lt (by show _ = (_ - UInt32.toNat 0 + _) / _; rw [h0]; rfl) ?_
    show 0 + (O.desc.plane p).addr.rows * _ < _
    rw [Q.rows_eq]
    have := Nat.div_mul_le_self (O.desc.plane p).addr.dimY.toNat (O.desc.plane p).addr.stepY.toNat
    omega
  · have heven := C.even hp hn
    have hcells : (O.desc.grid p).cells = ((O.desc.plane p).addr.dimX.toNat + ((O.desc.plane p).addr.stepX.toNat - 1)) /
        (O.desc.plane p).addr.stepX.toNat := by simp only [ImageDesc.grid, hn, if_false]
    rw [hW, ImagepatchAddressing.elementStep, if_neg hn]
    refine loopCount_of_lt (by show _ = (_ - UInt32.toNat 0 + _) / _; rw [h0]; exact hcells) ?_
    show 0 + _ < _
    rw [hcells]
    rcases Q.step_cases with ⟨h1, -⟩ | ⟨h1, -⟩ <;> rw [h1] at heven ⊢ <;> omega

/-- Where the copy is in both images in each row. -/
theorem lines (C : CopyContext I O) (hp : p < O.desc.planes) {r : Nat} (hr : r < (O.desc.grid p).rows) :
    ((O.desc.plane p).hostPtr : Int) + (O.desc.plane p).addr.copyOffset I.wholeRect + (O.desc.plane p).addr.strideY.toInt * r =
        (O.desc.grid p).base + ((O.desc.grid p).stride * r : Nat) ∧
      ((I.desc.plane p).hostPtr : Int) + (userAddr I p).strideY.toInt * r =
        (I.desc.grid p).base + ((I.desc.grid p).stride * r : Nat) := by
  have QI := C.fitsI p (by rw [C.planes]; exact hp)
  have QO := C.fitsO p hp
  have h0 : (O.desc.plane p).addr.copyOffset I.wholeRect = 0 := by
    simp [ImagepatchAddressing.copyOffset, PatchImage.wholeRect]
  have hrO : r < (O.desc.plane p).addr.dimY.toNat / (O.desc.plane p).addr.stepY.toNat := by rw [← QO.rows_eq]; exact hr
  have hrI : r < (I.desc.plane p).addr.dimY.toNat / (I.desc.plane p).addr.stepY.toNat := by rw [C.dimY, C.stepY]; exact hrO
  have hI := strideY_mul QI hrI
  refine ⟨?_, ?_⟩
  · rw [h0, strideY_mul QO hrO, Int.natCast_zero, Int.add_zero]
    rfl
  · exact congrArg _ hI

/-- Between compact lines the rows are copied. -/
theorem compact_moves (C : CopyContext I O) (hp : p < O.desc.planes)
    (hu : (I.desc.plane p).addr.strideX = (O.desc.plane p).addr.strideX) :
    (O.desc.plane p).copyMoves I.wholeRect (userAddr I p) (I.desc.plane p).hostPtr =
      some ((ByteGrid.rowCopies (I.desc.grid p) (O.desc.grid p) ((O.desc.plane p).addr.compactLen I.wholeRect).toNat).map
        BlockCopy.toMove) := by
  have hu' : (userAddr I p).strideX = (O.desc.plane p).addr.strideX := hu
  simp only [ImagePlane.copyMoves, (C.wholeRect_loops hp).1, hu', if_true, Option.bind_some, Option.map_some,
    ByteGrid.rowCopies, List.map_map]
  rw [List.map_eq_flatMap]
  refine congrArg some (List.flatMap_congr (fun r hr => ?_))
  obtain ⟨h1, h2⟩ := C.lines hp (List.mem_range.1 hr)
  rw [compact_row hu', h1, h2]
  rfl

/-- From elements that are farther apart the elements are copied. -/
theorem cell_moves (C : CopyContext I O) (hp : p < O.desc.planes)
    (hu : (I.desc.plane p).addr.strideX ≠ (O.desc.plane p).addr.strideX) :
    (O.desc.plane p).copyMoves I.wholeRect (userAddr I p) (I.desc.plane p).hostPtr =
      some ((ByteGrid.cellCopies (I.desc.grid p) (O.desc.grid p)).map BlockCopy.toMove) := by
  have hu' : (userAddr I p).strideX ≠ (O.desc.plane p).addr.strideX := hu
  have hn : (O.desc.plane p).addr.strideX ≠ 0 := fun h0 => hu (((C.packed_iff hp).2 h0).trans h0.symm)
  have hnI : (I.desc.plane p).addr.strideX ≠ 0 := fun h0 => hn ((C.packed_iff hp).1 h0)
  have hpos := C.rowsI p (by rw [C.planes]; exact hp)
  simp only [hnI, if_false] at hpos
  have hstep : (userAddr I p).strideX.toInt = ((I.desc.grid p).step : Int) := toInt_eq_of_pos hpos.1
  simp only [ImagePlane.copyMoves, (C.wholeRect_loops hp).1, (C.wholeRect_loops hp).2 hn, hu', if_false, Option.bind_some,
    Option.map_some, ByteGrid.cellCopies, List.map_flatMap, List.map_map]
  refine congrArg some (List.flatMap_congr (fun r hr => ?_))
  obtain ⟨h1, h2⟩ := C.lines hp (List.mem_range.1 hr)
  simp only [ImagePlane.rowMoves, hu', hn, if_false, h1, h2, hstep]
  refine List.map_congr_left (fun k _ => ?_)
  simp only [Function.comp_apply, BlockCopy.toMove, ImageDesc.grid, Nat.cast_add, Nat.cast_mul, Int.add_assoc]

/-- The bytes of a compact row: those of the elements, but of a packed plane with half of the samples no more than half. -/
theorem compactLen_whole (C : CopyContext I O) (hp : p < O.desc.planes) :
    ((O.desc.plane p).addr.compactLen I.wholeRect).toNat =
      if (O.desc.plane p).addr.strideX = 0 then (O.desc.grid p).bytes / (O.desc.plane p).addr.stepX.toNat
      else (O.desc.grid p).step * (O.desc.grid p).cells := by
  have Q := C.fitsO p hp
  have hr := C.rowsO p hp
  have hW : I.wholeRect.width = (O.desc.plane p).addr.dimX := by
    rw [C.shapeO.dimX, ← C.width]
    exact UInt32.sub_zero _
  by_cases h0 : (O.desc.plane p).addr.strideX = 0
  · simp only [h0, if_true] at hr ⊢
    rw [compactLen_toNat (by rw [ImagepatchAddressing.rowFits, if_pos h0, hW]; exact hr.1), if_pos h0, hW]
    simp only [ImageDesc.grid, h0, if_true]
  · simp only [h0, if_false] at hr ⊢
    have heven := C.even hp h0
    have hcells : (O.desc.grid p).cells = (O.desc.plane p).addr.dimX.toNat / (O.desc.plane p).addr.stepX.toNat := by
      simp only [ImageDesc.grid, h0, if_false]
      rcases Q.step_cases with ⟨h1, -⟩ | ⟨h1, -⟩ <;> rw [h1] at heven ⊢ <;> omega
    have hdimX : (O.desc.plane p).addr.dimX.toNat = (O.desc.plane p).addr.stepX.toNat * (O.desc.grid p).cells := by
      rw [hcells, Nat.mul_div_cancel' (Nat.dvd_of_mod_eq_zero heven)]
    have hspos : 0 < (O.desc.plane p).addr.stepX.toNat := by rcases Q.step_cases with ⟨h1, -⟩ | ⟨h1, -⟩ <;> omega
    have hmul : (O.desc.plane p).addr.dimX.toNat * (O.desc.plane p).addr.strideX.toUInt32.toNat =
        (O.desc.plane p).addr.stepX.toNat * ((O.desc.grid p).step * (O.desc.grid p).cells) := by
      rw [hdimX, Nat.mul_assoc, Nat.mul_comm (O.desc.grid p).cells]
      rfl
    -- as many rows as samples of an element are not wider than the plane
    have hlt : (O.desc.plane p).addr.dimX.toNat * (O.desc.plane p).addr.strideX.toUInt32.toNat < 2 ^ 32 := by
      have hrows := (C.gridO hp).rows
      have hrow := (C.gridO hp).row
      have hdimY : (O.desc.plane p).addr.stepX.toNat ≤ (O.desc.plane p).addr.dimY.toNat := by
        have hwhole := Q.whole
        have hrowsEq : (O.desc.grid p).rows = (O.desc.plane p).addr.dimY.toNat / (O.desc.plane p).addr.stepY.toNat := Q.rows_eq
        rw [hrowsEq] at hrows
        rcases Q.step_cases with ⟨h1, h2⟩ | ⟨h1, h2⟩ <;> rw [h2] at hwhole hrows <;> omega
      rw [hmul]
      calc (O.desc.plane p).addr.stepX.toNat * ((O.desc.grid p).step * (O.desc.grid p).cells)
          ≤ (O.desc.plane p).addr.dimY.toNat * (O.desc.grid p).stride := Nat.mul_le_mul hdimY hrow
        _ < 2 ^ 32 := by
          rw [Nat.mul_comm]
          exact Q.stride
    rw [compactLen_toNat (by rw [ImagepatchAddressing.rowFits, if_neg h0, hW]; exact hlt), if_neg h0, hW, hmul,
      Nat.mul_div_cancel_left _ hspos]

/-- The blocks of a plane, unless there is no access. -/
noncomputable def blocks (I O : PatchImage) (p : Nat) : Option (List BlockCopy) :=
  let g := I.desc.grid p
  let h := O.desc.grid p
  open Classical in
  if (I.desc.plane p).memSize = (O.desc.plane p).memSize then some (ByteGrid.wholeCopy g h)
  else if Access I O p then
    some (if (I.desc.plane p).addr.strideX = (O.desc.plane p).addr.strideX then
        ByteGrid.rowCopies g h ((O.desc.plane p).addr.compactLen I.wholeRect).toNat
      else ByteGrid.cellCopies g h)
  else none

/-- Where the elements of the input are farther apart. -/
theorem step_lt (C : CopyContext I O) (hp : p < O.desc.planes) (hu : (I.desc.plane p).addr.strideX ≠ (O.desc.plane p).addr.strideX)
    (hlt : ¬ (I.desc.plane p).addr.strideX < (O.desc.plane p).addr.strideX) :
    (O.desc.plane p).addr.strideX ≠ 0 ∧ (O.desc.grid p).step < (I.desc.grid p).step := by
  have hn : (O.desc.plane p).addr.strideX ≠ 0 := fun h0 => hu (((C.packed_iff hp).2 h0).trans h0.symm)
  have hnI : (I.desc.plane p).addr.strideX ≠ 0 := fun h0 => hn ((C.packed_iff hp).1 h0)
  have hposI := C.rowsI p (by rw [C.planes]; exact hp)
  have hposO := C.rowsO p hp
  simp only [hnI, hn, if_false] at hposI hposO
  have h1 := toInt_eq_of_pos hposI.1
  have h2 := toInt_eq_of_pos hposO.1
  rw [Int32.lt_iff_toInt_lt, h1, h2] at hlt
  have hne : (I.desc.plane p).addr.strideX.toUInt32.toNat ≠ (O.desc.plane p).addr.strideX.toUInt32.toNat := by
    intro he
    exact hu (Int32.toInt_inj.1 (by rw [h1, h2, he]))
  refine ⟨hn, ?_⟩
  show (O.desc.plane p).addr.strideX.toUInt32.toNat < (I.desc.plane p).addr.strideX.toUInt32.toNat
  omega

/-- The rows of a patch. -/
theorem rows_spec (C : CopyContext I O) (hp : p < O.desc.planes)
    (hu : (I.desc.plane p).addr.strideX = (O.desc.plane p).addr.strideX) :
    let l := ByteGrid.rowCopies (I.desc.grid p) (O.desc.grid p) ((O.desc.plane p).addr.compactLen I.wholeRect).toNat
    ByteGrid.Within (I.desc.grid p) (O.desc.grid p) l ∧ (ByteGrid.CopiedBy (I.desc.grid p) (O.desc.grid p) l ↔
      if (O.desc.plane p).addr.strideX = 0 then (O.desc.plane p).addr.stepX = 1
      else (O.desc.grid p).step = (O.desc.grid p).bytes) := by
  have FI := C.gridI hp
  have FO := C.gridO hp
  have hcells := C.cells hp
  have hlen := C.compactLen_whole hp
  have hstep : (I.desc.grid p).step = (O.desc.grid p).step := by simp only [ImageDesc.grid, hu]
  have hpos := FO.bytes
  have hcpos := FO.cells
  by_cases h0 : (O.desc.plane p).addr.strideX = 0
  · rw [if_pos h0] at hlen ⊢
    have hc : (O.desc.grid p).cells = 1 := by simp only [ImageDesc.grid, h0, if_true]
    have hb : (I.desc.grid p).bytes = (O.desc.grid p).bytes := by
      simp only [ImageDesc.grid, (C.packed_iff hp).2 h0, h0, if_true, C.dimX]
    have hb2 : 2 ≤ (O.desc.grid p).bytes := by
      have hw : (O.desc.plane p).addr.dimX.toNat ≠ 0 := fun h => C.hasWidth (by
        rw [← C.shapeO.dimX p]
        exact UInt32.toNat_inj.1 h)
      simp only [ImageDesc.grid, h0, if_true]
      omega
    have hl1 := FI.last
    have hl2 := FO.last
    have hle : (O.desc.grid p).bytes / (O.desc.plane p).addr.stepX.toNat ≤ (O.desc.grid p).bytes := Nat.div_le_self _ _
    have hstepX : (O.desc.plane p).addr.stepX = 1 ↔ (O.desc.plane p).addr.stepX.toNat = 1 :=
      ⟨fun h => by rw [h]; rfl, fun h => UInt32.toNat_inj.1 h⟩
    rw [hlen]
    refine ⟨ByteGrid.within_rows (C.rows p) (by omega) (by omega), ?_⟩
    rw [ByteGrid.copiedBy_rows_iff FO ?_ (by omega) (.inl (by omega)), hc, hstepX]
    · rcases (C.fitsO p hp).step_cases with ⟨h1, -⟩ | ⟨h1, -⟩ <;> rw [h1] <;> omega
    · rcases (C.fitsO p hp).step_cases with ⟨h1, -⟩ | ⟨h1, -⟩ <;> rw [h1] <;> omega
  · rw [if_neg h0] at hlen ⊢
    have hspos : 0 < (O.desc.grid p).step := ImagepatchAddressing.strideX_pos h0
    have hrowI := FI.row
    have hsplit : (O.desc.grid p).step * (O.desc.grid p).cells =
        (O.desc.grid p).step * ((O.desc.grid p).cells - 1) + (O.desc.grid p).step := by
      rw [← Nat.mul_succ, Nat.succ_eq_add_one, Nat.sub_add_cancel hcpos]
    rw [hstep, hcells] at hrowI
    rw [hlen]
    refine ⟨ByteGrid.within_rows (C.rows p) hrowI FO.row, ?_⟩
    rw [ByteGrid.copiedBy_rows_iff FO (Nat.mul_pos hspos hcpos) FO.row ?_, hsplit]
    · omega
    · by_cases hc : (O.desc.grid p).cells ≤ 1
      · exact .inl hc
      · have := Nat.le_mul_of_pos_right (O.desc.grid p).step (show 0 < (O.desc.grid p).cells - 1 by omega)
        exact .inr ⟨hstep, by omega⟩

/-- What a plane does: the blocks are moved, or there is an error. -/
theorem plane_spec (C : CopyContext I O) (hp : p < O.desc.planes) :
    match blocks I O p with
    | some l => I.planeMoves O p = .ok (some (l.map BlockCopy.toMove)) ∧ ByteGrid.Within (I.desc.grid p) (O.desc.grid p) l ∧
        (ByteGrid.CopiedBy (I.desc.grid p) (O.desc.grid p) l ↔ planeCopies I O p)
    | none => (∃ e, I.planeMoves O p = .error e) ∧ ¬ planeCopies I O p := by
  by_cases hs : (I.desc.plane p).memSize = (O.desc.plane p).memSize
  · simp only [blocks, if_pos hs]
    exact C.whole_spec hp hs
  · obtain ⟨hacc, herr⟩ := C.patch_spec hp hs
    have hiff : planeCopies I O p ↔ Access I O p ∧ if (O.desc.plane p).addr.strideX = 0 then (O.desc.plane p).addr.stepX = 1
        else (O.desc.grid p).step = (O.desc.grid p).bytes := by
      simp only [planeCopies, hs, if_false, Access]
      by_cases h0 : (O.desc.plane p).addr.strideX = 0
      · have hI := (C.packed_iff hp).2 h0
        simp only [h0, hI, if_true]
        constructor
        · rintro ⟨h1, h2, h3, h4⟩
          exact ⟨⟨h1, h2, h3, by decide⟩, h4⟩
        · rintro ⟨⟨h1, h2, h3, -⟩, h4⟩
          exact ⟨h1, h2, h3, h4⟩
      · simp only [h0, if_false, and_assoc]
    by_cases ha : Access I O p
    · simp only [blocks, if_neg hs, if_pos ha]
      rw [hacc ha, hiff]
      simp only [ha, true_and]
      by_cases hu : (I.desc.plane p).addr.strideX = (O.desc.plane p).addr.strideX
      · simp only [if_pos hu]
        exact ⟨congrArg _ (C.compact_moves hp hu), C.rows_spec hp hu⟩
      · obtain ⟨hn, hlt⟩ := C.step_lt hp hu ha.2.2.2
        simp only [if_neg hu, if_neg hn]
        exact ⟨congrArg _ (C.cell_moves hp hu),
          ByteGrid.within_cells (C.rows p) (C.cells hp) (Nat.le_of_lt hlt) (C.gridI hp).row (C.gridO hp).row,
          ByteGrid.copiedBy_cells_iff (C.gridO hp) hlt⟩
    · simp only [blocks, if_neg hs, if_neg ha]
      exact ⟨herr ha, fun hc => ha (hiff.1 hc).1⟩

/-! ### All planes -/

/-- The blocks of the planes before the first one without access. -/
noncomputable def copiedBlocks (I O : PatchImage) : List Nat → List BlockCopy
  | [] => []
  | i :: rest =>
    match blocks I O i with
    | none => []
    | some l => l ++ copiedBlocks I O rest

theorem copyPlanes_eq (C : CopyContext I O) : ∀ (ps : List Nat), (∀ p ∈ ps, p < O.desc.planes) → ∀ m : ByteMem,
    I.copyPlanes O ps m = some ((copiedBlocks I O ps).foldl ByteMem.copy m)
  | [], _, _ => rfl
  | i :: rest, hps, m => by
    have hi := C.plane_spec (hps i List.mem_cons_self)
    simp only [PatchImage.copyPlanes, copiedBlocks]
    cases hb : blocks I O i with
    | none =>
      rw [hb] at hi
      obtain ⟨⟨e, he⟩, -⟩ := hi
      rw [he]
      rfl
    | some l =>
      rw [hb] at hi
      rw [hi.1, List.foldl_append]
      simp only [foldl_toMove]
      exact copyPlanes_eq C rest (fun p hp => hps p (List.mem_cons_of_mem i hp)) _

/-- A block that is copied is one of a plane, whose other blocks are copied as well. -/
theorem mem_copiedBlocks {ps : List Nat} {c : BlockCopy} (h : c ∈ copiedBlocks I O ps) :
    ∃ p ∈ ps, ∃ l, blocks I O p = some l ∧ c ∈ l ∧ ∀ c' ∈ l, c' ∈ copiedBlocks I O ps := by
  induction ps with
  | nil => cases h
  | cons i rest ih =>
    simp only [copiedBlocks] at h ⊢
    cases hb : blocks I O i with
    | none =>
      rw [hb] at h
      cases h
    | some l =>
      rw [hb] at h
      rcases List.mem_append.1 h with hc | hc
      · exact ⟨i, List.mem_cons_self, l, hb, hc, fun c' hc' => List.mem_append_left _ hc'⟩
      · obtain ⟨p, hp, l', hl', hcl, hall⟩ := ih hc
        exact ⟨p, List.mem_cons_of_mem i hp, l', hl', hcl, fun c' hc' => List.mem_append_right _ (hall c' hc')⟩

/-- Where there is access to all planes all blocks are copied. -/
theorem copiedBlocks_of_mem {ps : List Nat} (hps : ∀ p ∈ ps, (blocks I O p).isSome = true) {p : Nat} (hp : p ∈ ps)
    {l : List BlockCopy} (hl : blocks I O p = some l) {c : BlockCopy} (hc : c ∈ l) : c ∈ copiedBlocks I O ps := by
  induction ps with
  | nil => cases hp
  | cons i rest ih =>
    obtain ⟨l', hl'⟩ := Option.isSome_iff_exists.1 (hps i List.mem_cons_self)
    simp only [copiedBlocks, hl']
    rcases List.mem_cons.1 hp with rfl | hp
    · cases hl.symm.trans hl'
      exact List.mem_append_left _ hc
    · exact List.mem_append_right _ (ih (fun q hq => hps q (List.mem_cons_of_mem i hq)) hp)

theorem within (C : CopyContext I O) (hp : p < O.desc.planes) {l : List BlockCopy} (hl : blocks I O p = some l) :
    ByteGrid.Within (I.desc.grid p) (O.desc.grid p) l ∧
      (ByteGrid.CopiedBy (I.desc.grid p) (O.desc.grid p) l ↔ planeCopies I O p) := by
  have := C.plane_spec hp
  rw [hl] at this
  exact this.2

/-- A byte of a plane of the output is in none of the input and in no other one of the output. -/
theorem holds_apart (C : CopyContext I O) (hp : p < O.desc.planes) {q : Nat} (hq : q < O.desc.planes) {a : Int}
    (ha : (O.desc.grid p).Holds a) : ¬ (I.desc.grid q).Holds a ∧ ((O.desc.grid q).Holds a → q = p) := by
  obtain ⟨h1, h2⟩ := C.apart p hp q hq
  rw [grid_holds C.fitsO hp] at ha
  rw [grid_holds C.fitsI (by rw [C.planes]; exact hq), grid_holds C.fitsO hq]
  simp only [ByteRange.Apart, ByteRange.stop, ImagePlane.mem] at h1 h2
  constructor
  · rintro ⟨h3, h4⟩
    omega
  · rintro ⟨h3, h4⟩
    by_contra hne
    have := h2 (Ne.symm hne)
    omega

theorem consistent (C : CopyContext I O) : ByteMem.Consistent (copiedBlocks I O (List.range O.desc.planes)) := by
  refine ⟨fun c hc c' hc' s s' a hs hs' => ?_, fun c hc c' hc' s s' a hs hs' => ?_⟩ <;>
    obtain ⟨p, hp, l, hl, hcl, -⟩ := mem_copiedBlocks hc <;> obtain ⟨q, hq, l', hl', hcl', -⟩ := mem_copiedBlocks hc' <;>
    rw [List.mem_range] at hp hq <;> obtain ⟨W, -⟩ := C.within hp hl <;> obtain ⟨W', -⟩ := C.within hq hl'
  · have hpq := (C.holds_apart hp hq (W.target c hcl s a hs)).2 (W'.target c' hcl' s' a hs')
    subst hpq
    cases hl.symm.trans hl'
    exact W.one c hcl c' hcl' s s' a hs hs'
  · exact (C.holds_apart hq hp (W'.target c' hcl' s' s hs')).1 (W.source c hcl s a hs)

theorem bytes (C : CopyContext I O) (hp : p < O.desc.planes) : (I.desc.grid p).bytes = (O.desc.grid p).bytes := by
  simp only [ImageDesc.grid, C.packed_iff hp, C.dimX, C.format]

/-- Everything is copied where each plane is. -/
theorem copied_iff (C : CopyContext I O) : Copied I O ↔ ∀ p < O.desc.planes, planeCopies I O p := by
  have hcopy : ∀ m : ByteMem, I.copyImage O m = some ((copiedBlocks I O (List.range O.desc.planes)).foldl ByteMem.copy m) := by
    intro m
    rw [PatchImage.copyImage, C.planes]
    exact C.copyPlanes_eq _ (fun p hp => List.mem_range.1 hp) m
  -- the pairs of pixels
  let T : Int → Int → Prop := fun s a => ∃ p < O.desc.planes, ∃ r < (O.desc.grid p).rows, ∃ k < (O.desc.grid p).cells,
    ∃ b < (O.desc.grid p).bytes, s = (I.desc.grid p).place r k b ∧ a = (O.desc.grid p).place r k b
  let D : Int → Prop := fun a => ∃ p < O.desc.planes, (O.desc.grid p).Area a
  have hplaceO : ∀ {p r k b : Nat}, p < O.desc.planes → r < (O.desc.grid p).rows → k < (O.desc.grid p).cells →
      b < (O.desc.grid p).bytes → (O.desc.grid p).Holds ((O.desc.grid p).place r k b) :=
    fun hp hr hk hb => ByteGrid.holds_place (C.gridO hp) hr hk hb
  have hplaceI : ∀ {p r k b : Nat}, p < O.desc.planes → r < (O.desc.grid p).rows → k < (O.desc.grid p).cells →
      b < (O.desc.grid p).bytes → (I.desc.grid p).Holds ((I.desc.grid p).place r k b) := by
    intro p r k b hp hr hk hb
    exact ByteGrid.holds_place (C.gridI hp) (by rw [C.rows]; exact hr) (by rw [C.cells hp]; exact hk)
      (by rw [C.bytes hp]; exact hb)
  have hT : ∀ s a, T s a → s ≠ a := by
    rintro s a ⟨p, hp, r, hr, k, hk, b, hb, rfl, rfl⟩ he
    exact (C.holds_apart hp hp (hplaceO hp hr hk hb)).1 (he ▸ hplaceI hp hr hk hb)
  have hcop : Copied I O ↔ ∀ m : ByteMem,
      (∀ s a, T s a → (copiedBlocks I O (List.range O.desc.planes)).foldl ByteMem.copy m a = m s) ∧
        ∀ a, ¬ D a → (copiedBlocks I O (List.range O.desc.planes)).foldl ByteMem.copy m a = m a := by
    refine forall_congr' (fun m => ?_)
    rw [hcopy m]
    constructor
    · rintro ⟨m', hm', h1, h2⟩
      cases hm'
      refine ⟨?_, fun a hD => h2 a (fun p hp ha => hD ⟨p, hp, ha⟩)⟩
      rintro s a ⟨p, hp, r, hr, k, hk, b, hb, rfl, rfl⟩
      exact h1 p hp r hr k hk b hb
    · rintro ⟨h1, h2⟩
      exact ⟨_, rfl, fun p hp r hr k hk b hb => h1 _ _ ⟨p, hp, r, hr, k, hk, b, hb, rfl, rfl⟩,
        fun a hn => h2 a (fun ⟨p, hp, ha⟩ => hn p hp ha)⟩
  rw [hcop, ByteMem.foldl_copy_iff C.consistent hT]
  constructor
  · rintro ⟨htaken, harea⟩ p hp
    -- the block of a pixel is one of its plane
    have hown : ∀ {r k b : Nat}, r < (O.desc.grid p).rows → k < (O.desc.grid p).cells → b < (O.desc.grid p).bytes →
        ∃ l, blocks I O p = some l ∧ (∃ c ∈ l, c.Takes ((I.desc.grid p).place r k b) ((O.desc.grid p).place r k b)) ∧
          ∀ c ∈ l, c ∈ copiedBlocks I O (List.range O.desc.planes) := by
      intro r k b hr hk hb
      obtain ⟨c, hc, hs⟩ := htaken _ _ ⟨p, hp, r, hr, k, hk, b, hb, rfl, rfl⟩
      obtain ⟨q, hq, l, hl, hcl, hall⟩ := mem_copiedBlocks hc
      rw [List.mem_range] at hq
      have hqp := (C.holds_apart hp hq (hplaceO hp hr hk hb)).2 ((C.within hq hl).1.target c hcl _ _ hs)
      subst hqp
      exact ⟨l, hl, ⟨c, hcl, hs⟩, hall⟩
    have F := C.gridO hp
    obtain ⟨l, hl, -, hall⟩ := hown F.rows F.cells F.bytes
    obtain ⟨W, hiff⟩ := C.within hp hl
    refine hiff.1 ⟨fun r hr k hk b hb => ?_, fun c hc s a hs => ?_⟩
    · obtain ⟨l', hl', hex, -⟩ := hown hr hk hb
      cases hl.symm.trans hl'
      exact hex
    · obtain ⟨q, hq, r, hr, k, hk, b, hb, rfl⟩ := harea c (hall c hc) s a hs
      have hqp := (C.holds_apart hp hq (W.target c hc _ _ hs)).2 (hplaceO hq hr hk hb)
      subst hqp
      exact ⟨r, hr, k, hk, b, hb, rfl⟩
  · intro hall
    have hsome : ∀ p < O.desc.planes, ∃ l, blocks I O p = some l := by
      intro p hp
      have := C.plane_spec hp
      cases hb : blocks I O p with
      | none =>
        rw [hb] at this
        exact absurd (hall p hp) this.2
      | some l => exact ⟨l, rfl⟩
    refine ⟨?_, fun c hc s a hs => ?_⟩
    · rintro s a ⟨p, hp, r, hr, k, hk, b, hb, rfl, rfl⟩
      obtain ⟨l, hl⟩ := hsome p hp
      obtain ⟨c, hc, hs⟩ := ((C.within hp hl).2.2 (hall p hp)).1 r hr k hk b hb
      refine ⟨c, copiedBlocks_of_mem (fun q hq => ?_) (List.mem_range.2 hp) hl hc, hs⟩
      obtain ⟨l', hl'⟩ := hsome q (List.mem_range.1 hq)
      rw [hl']
      rfl
    · obtain ⟨p, hp, l, hl, hcl, -⟩ := mem_copiedBlocks hc
      rw [List.mem_range] at hp
      exact ⟨p, hp, ((C.within hp hl).2.2 (hall p hp)).2 c hcl s a hs⟩

end CopyContext

/-- **An image is copied exactly when** in each plane with as many bytes the pixels are as far apart and leave no byte out, and
each other plane can be accessed and is copied as a patch. -/
theorem images_copied_iff {src src' : ImageSource} {I O : PatchImage} (hI : src.image = some I.desc)
    (hO : src'.image = some O.desc)
    (hc : I.kernelImage.isImageCopyable O.kernelImage = .ok ()) (FI : I.desc.Fits) (FO : O.desc.Fits) (RI : I.desc.RowsHold)
    (RO : O.desc.RowsHold) (hw : O.desc.width ≠ 0) (hh : O.desc.height ≠ 0)
    (host : ∀ p < I.desc.planes, (I.desc.plane p).hostPtr ≠ 0) (apart : MemoryApart I O) :
    Copied I O ↔ ∀ p < O.desc.planes, planeCopies I O p := by
  have SO := (src'.line_spec hO).1
  have hf : O.desc.format ≠ .virt := by
    intro hf
    have h1 := SO.planes
    have h2 : O.desc.planes = planesOf .virt := congrArg planesOf hf
    rw [h2] at h1
    exact absurd h1 (by decide)
  obtain ⟨h1, h2, h3⟩ := accepted_spec hc hw hh hf
  exact CopyContext.copied_iff ⟨(src.line_spec hI).1, SO, FI, FO, RI, RO, src'.validDimensions hO, h1, h2, h3, hw, hh, host, apart⟩

/-- The left 640 columns of an image of one plane. -/
def leftColumns (width : UInt32) (host : Nat) : ImageSource :=
  .vxCreateImageFromROI (.vxCreateImage width 480 .u8 host) ⟨0, 0, 640, 480⟩

def leftPatch (width : UInt32) (host : Nat) : PatchImage where
  desc := (ownInitImage 640 480 .u8).setRegion ((ownInitImage width 480 .u8).ownAllocImageBuffer host) ⟨0, 0, 640, 480⟩
  createType := .fromRoi

theorem leftColumns_image (host : Nat) : (leftColumns 640 host).image = some (leftPatch 640 host).desc ∧
    (leftColumns 1280 host).image = some (leftPatch 1280 host).desc := ⟨rfl, rfl⟩

theorem leftPatch_plane : (leftPatch 640 0x100000).desc.plane 0 = ⟨⟨640, 480, 1, 640, 1, 1⟩, 307200, 0x100000, 0⟩ ∧
    (leftPatch 640 0x200000).desc.plane 0 = ⟨⟨640, 480, 1, 640, 1, 1⟩, 307200, 0x200000, 0⟩ ∧
    (leftPatch 1280 0x100000).desc.plane 0 = ⟨⟨640, 480, 1, 1280, 1, 1⟩, 614400, 0x100000, 0⟩ ∧
    (leftPatch 1280 0x200000).desc.plane 0 = ⟨⟨640, 480, 1, 1280, 1, 1⟩, 614400, 0x200000, 0⟩ := by decide

theorem leftPatch_fits {width : UInt32} {host : Nat} (h : (leftColumns width host).image = some (leftPatch width host).desc)
    (hw : createFits width 480 .u8) {strideY : Int32} {memSize : UInt32} (hs : 640 ≤ strideY.toUInt32.toNat)
    (hq : (leftPatch width host).desc.plane 0 = ⟨⟨640, 480, 1, strideY, 1, 1⟩, memSize, host, 0⟩) :
    (leftPatch width host).desc.Fits ∧ (leftPatch width host).desc.RowsHold := by
  refine ⟨((leftColumns width host).line_spec h).2.2 (fun a ha => ?_), fun p hp => ?_⟩
  · rcases List.mem_cons.1 ha with rfl | ha
    · exact fun d _ => ⟨fun _ => rfl, .inl rfl⟩
    · cases List.mem_singleton.1 ha
      exact hw
  · cases Nat.lt_one_iff.1 hp
    rw [hq]
    have hrow : (1 : Int32).toUInt32.toNat * (UInt32.toNat 640 / UInt32.toNat 1) ≤ 640 := by decide
    exact ⟨(by decide : (0 : Int32) < 1), Nat.le_trans hrow hs⟩

/-- The context of two such images. -/
theorem leftPatch_context {width : UInt32} {host host' : Nat}
    (h : (leftColumns width host).image = some (leftPatch width host).desc)
    (h' : (leftColumns width host').image = some (leftPatch width host').desc) (hw : createFits width 480 .u8) {strideY : Int32}
    {memSize : UInt32} (hs : 640 ≤ strideY.toUInt32.toNat)
    (hq : (leftPatch width host).desc.plane 0 = ⟨⟨640, 480, 1, strideY, 1, 1⟩, memSize, host, 0⟩)
    (hq' : (leftPatch width host').desc.plane 0 = ⟨⟨640, 480, 1, strideY, 1, 1⟩, memSize, host', 0⟩)
    (hhost : host ≠ 0) (hle : host + memSize.toNat ≤ host') : CopyContext (leftPatch width host) (leftPatch width host') where
  shapeI := ((leftColumns width host).line_spec h).1
  shapeO := ((leftColumns width host').line_spec h').1
  fitsI := (leftPatch_fits h hw hs hq).1
  fitsO := (leftPatch_fits h' hw hs hq').1
  rowsI := (leftPatch_fits h hw hs hq).2
  rowsO := (leftPatch_fits h' hw hs hq').2
  valid := (by decide : ownIsValidDimensions 640 480 .u8 = true)
  width := rfl
  height := rfl
  format := rfl
  hasWidth := (by decide : (640 : UInt32) ≠ 0)
  hasHeight := (by decide : (480 : UInt32) ≠ 0)
  host := fun p hp => by
    cases Nat.lt_one_iff.1 hp
    rw [hq]
    exact hhost
  apart := fun p hp q hq'' => by
    cases Nat.lt_one_iff.1 hp
    cases Nat.lt_one_iff.1 hq''
    rw [hq, hq']
    exact ⟨.inr hle, fun hne => absurd rfl hne⟩

/-- Between the left columns of images that are not wider. -/
theorem copied_left : Copied (leftPatch 640 0x100000) (leftPatch 640 0x200000) := by
  obtain ⟨hI, hO, -, -⟩ := leftPatch_plane
  have C : CopyContext (leftPatch 640 0x100000) (leftPatch 640 0x200000) :=
    leftPatch_context (leftColumns_image _).1 (leftColumns_image _).1
      ⟨fun h => absurd h (by decide), fun h => absurd h (by decide), by decide⟩ (by decide) hI hO (by decide) (by decide)
  refine (images_copied_iff (leftColumns_image _).1 (leftColumns_image _).1 rfl C.fitsI C.fitsO C.rowsI C.rowsO C.hasWidth
    C.hasHeight C.host C.apart).2 (fun p hp => ?_)
  cases Nat.lt_one_iff.1 hp
  simp only [planeCopies, ImageDesc.grid, hI, hO, if_true]
  decide

/-- Between the left columns of wider images the other columns are copied as well. -/
theorem left_copies_right :
    (leftPatch 1280 0x100000).kernelImage.isImageCopyable (leftPatch 1280 0x200000).kernelImage = .ok () ∧
      ¬ Copied (leftPatch 1280 0x100000) (leftPatch 1280 0x200000) := by
  obtain ⟨-, -, hI, hO⟩ := leftPatch_plane
  have C : CopyContext (leftPatch 1280 0x100000) (leftPatch 1280 0x200000) :=
    leftPatch_context (leftColumns_image _).2 (leftColumns_image _).2
      ⟨fun h => absurd h (by decide), fun h => absurd h (by decide), by decide⟩ (by decide) hI hO (by decide) (by decide)
  refine ⟨rfl, fun hc => ?_⟩
  have h0 := C.copied_iff.1 hc 0 Nat.one_pos
  simp only [planeCopies, ImageDesc.grid, hI, hO, if_true] at h0
  exact absurd h0.2.2 (by decide)

end Tiovx
