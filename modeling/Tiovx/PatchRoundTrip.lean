import Mathlib.Tactic.Common
import Tiovx.ImageCopy
import Tiovx.Lib.FoldExcept
import Tiovx.Lib.TwelveBits
import Tiovx.RawImage
/-!
# PatchRoundTrip — writing a patch and reading it back (`vx_image.c`, `vx_raw_image.c`)

The two copies have the same loops: a raw image has the loops for a plane with all samples.  A patch is read with the arguments it
was written with, after the buffer of the user has got any other contents.
-/
namespace Tiovx

/-! ### Raw images -/

/-- A raw image with buffers, with what a patch reads of its reference. -/
structure RawPatchImage where
  desc : RawImageDesc
  createType : CreateType := .normal
  isVirtual : Bool := false
  isAccessible : Bool := false

/-- The pixels of an exposure, with the steps `ownInitRawImage` sets. -/
def RawImageDesc.exposure (d : RawImageDesc) (exp : Nat) : ImagePlane where
  addr := ⟨d.params.width, d.params.height, (d.imagepatchAddr exp).strideX.toInt32, (d.imagepatchAddr exp).strideY.toInt32, 1, 1⟩
  memSize := (d.imagepatchAddr exp).strideY * d.params.height
  hostPtr := d.imgPtr exp
  memOffset := 0

namespace RawPatchImage

/-- `ownCopyAndMapCheckParams`, for the pixel buffer. -/
def ownCopyAndMapCheckParams (I : RawPatchImage) (rect : VxRectangle) (exp : Nat) : Except PatchError Unit :=
  if I.createType = .virtual then .error .invalidParameters
  else if I.desc.params.numExposures.toNat ≤ exp ∨ rect.endY ≤ rect.startY ∨ rect.endX ≤ rect.startX ∨
      I.desc.params.height < rect.endY ∨ I.desc.params.width < rect.endX then .error .invalidParameters
  else if I.isVirtual ∧ !I.isAccessible then .error .optimizedAway
  else .ok ()

/-- `tivxCopyRawImagePatch` of the pixel buffer. -/
def tivxCopyRawImagePatch (I : RawPatchImage) (rect : VxRectangle) (exp : Nat) (user : ImagepatchAddressing) (userPtr : Nat)
    (usage : AccessUsage) : Except PatchError (Option (List PatchMove)) :=
  let q := I.desc.exposure exp
  if userPtr = 0 ∨ usage = .readAndWrite then .error .invalidParameters
  else (I.ownCopyAndMapCheckParams rect exp).bind (fun _ =>
    if user.dimX < rect.width ∨ user.dimY < rect.height ∨ q.addr.dimX < user.dimX ∨ q.addr.dimY < user.dimY ∨
        user.strideX < q.addr.strideX then .error .invalidParameters
    else if q.hostPtr = 0 then .error .failure
    else if q.addr.strideX = 0 ∧ user.strideX = 1 then .error .invalidParameters
    else .ok (q.copyMoves rect user userPtr))

end RawPatchImage

/-! ### Samples -/

namespace PatchMove

/-- The byte of the image is moved. -/
def ImageHas (mv : PatchMove) (a : Int) : Prop := mv.image ≤ a ∧ a < mv.image + mv.imageBytes

/-- The byte of the user is moved. -/
def UserHas : PatchMove → Int → Prop
  | .bytes _ user len, a => user ≤ a ∧ a < user + len
  | .pair _ user userStride, a => user ≤ a ∧ a < user + 2 ∨ user + userStride ≤ a ∧ a < user + userStride + 2

end PatchMove

/-- The samples at a pixel of a buffer with the format and the steps of `addr`, and with the strides of `view`: the bytes of the
element, or the numbers of 12 bits, which are packed, or one in each half-word. -/
def ImagepatchAddressing.samples (addr view : ImagepatchAddressing) (ptr : Int) (m : ByteMem) (x y : Nat) : List Nat :=
  let line := ptr + view.strideY.toInt * (y / addr.stepY.toNat : Nat)
  if addr.strideX ≠ 0 then
    (List.range addr.strideX.toUInt32.toNat).map (fun b : Nat =>
      (m (line + (view.strideX.toInt * (x / addr.stepX.toNat : Nat) + b))).toNat)
  else
    (List.range addr.stepX.toNat).map (fun i =>
      let s := addr.stepX.toNat * (x / addr.stepX.toNat) + i
      if view.strideX = 0 then TwelveBits.sample m line s else (m.half (line + view.strideX.toInt * (s : Int))).toNat % 4096)

/-- A pixel of the rectangle is in the same element. -/
def VxRectangle.Touches (rect : VxRectangle) (addr : ImagepatchAddressing) (x y : Nat) : Prop :=
  ∃ x' y', rect.startX.toNat ≤ x' ∧ x' < rect.endX.toNat ∧ rect.startY.toNat ≤ y' ∧ y' < rect.endY.toNat ∧
    x / addr.stepX.toNat = x' / addr.stepX.toNat ∧ y / addr.stepY.toNat = y' / addr.stepY.toNat

/-- The byte is one of a row of pixels. -/
def ImagePlane.InRows (q : ImagePlane) (a : Int) : Prop :=
  ∃ r < q.addr.dimY.toNat / q.addr.stepY.toNat, ∃ b, a = q.hostPtr + (q.addr.strideY.toUInt32.toNat * r + b : Nat) ∧
    b < q.addr.xOffset (q.addr.dimX.toNat - 1) + if q.addr.strideX = 0 then 2 else q.addr.strideX.toUInt32.toNat

/-- What a patch is written and read with: the samples of the user come back, the samples of the image that are not in the
rectangle stay, and nothing but rows of pixels is written. -/
structure RoundTrips (q : ImagePlane) (rect : VxRectangle) (user : ImagepatchAddressing) (userPtr : Nat) (moves : List PatchMove) :
    Prop where
  back : ∀ m n : ByteMem, (∀ mv ∈ moves, ∀ a, mv.ImageHas a → n a = moves.foldl PatchMove.write m a) →
    ∀ x < rect.width.toNat, ∀ y < rect.height.toNat,
      q.addr.samples user userPtr (moves.foldl PatchMove.read n) x y = q.addr.samples user userPtr m x y
  others : ∀ m : ByteMem, ∀ x < q.addr.dimX.toNat, ∀ y < q.addr.dimY.toNat, ¬ rect.Touches q.addr x y →
    q.addr.samples q.addr q.hostPtr (moves.foldl PatchMove.write m) x y = q.addr.samples q.addr q.hostPtr m x y
  elsewhere : ∀ m : ByteMem, ∀ a, ¬ q.InRows a → moves.foldl PatchMove.write m a = m a

/-- No byte of the user is one of the image. -/
def UserApart (moves : List PatchMove) : Prop := ∀ mv ∈ moves, ∀ mv' ∈ moves, ∀ a, mv.UserHas a → ¬ mv'.ImageHas a

/-- In a packed plane the lines are compact, of all samples, and start and end between pairs.  In another plane with half of the
samples the rows start at an even one, and the width is even, or the elements are copied one by one from a whole one on. -/
def copyFits (q : ImagePlane) (rect : VxRectangle) (user : ImagepatchAddressing) : Prop :=
  if q.addr.strideX = 0 then
    user.strideX = 0 ∧ q.addr.stepX = 1 ∧ rect.startX.toNat % 2 = 0 ∧ (rect.width.toNat % 2 = 0 ∨ rect.endX = q.addr.dimX)
  else q.addr.stepX = 1 ∨ (rect.startY.toNat % 2 = 0 ∨ q.addr.strideY.toUInt32.toNat ≤ 1) ∧
    (rect.width.toNat % 2 = 0 ∨ user.strideX ≠ q.addr.strideX ∧ (rect.startX.toNat % 2 = 0 ∨ q.addr.strideX = 1))

/-! ### The blocks that are moved -/

/-- Blocks of a length in rows, from one buffer to another where they follow each other. -/
def patchBlocks (src dst srcRow srcStep : Int) (dstRow rows cells len : Nat) : List BlockCopy :=
  (List.range rows).flatMap (fun r : Nat => (List.range cells).map (fun k : Nat =>
    ⟨src + srcRow * r + srcStep * k, dst + (dstRow * r + len * k : Nat), len⟩))

section Blocks

variable {src dst srcRow srcStep : Int} {dstRow rows cells len : Nat}

theorem mem_patchBlocks {c : BlockCopy} : c ∈ patchBlocks src dst srcRow srcStep dstRow rows cells len ↔
    ∃ r < rows, ∃ k < cells, c = ⟨src + srcRow * r + srcStep * k, dst + (dstRow * r + len * k : Nat), len⟩ := by
  simp only [patchBlocks, List.mem_flatMap, List.mem_map, List.mem_range]
  constructor
  · rintro ⟨r, hr, k, hk, rfl⟩
    exact ⟨r, hr, k, hk, rfl⟩
  · rintro ⟨r, hr, k, hk, rfl⟩
    exact ⟨r, hr, k, hk, rfl⟩

/-- The bytes of a block. -/
theorem patchBlocks_takes {c : BlockCopy} (hc : c ∈ patchBlocks src dst srcRow srcStep dstRow rows cells len) {s a : Int}
    (hs : c.Takes s a) : ∃ r < rows, ∃ k < cells, ∃ j < len,
      s = src + srcRow * r + srcStep * k + j ∧ a = dst + (dstRow * r + (len * k + j) : Nat) := by
  obtain ⟨r, hr, k, hk, rfl⟩ := mem_patchBlocks.1 hc
  obtain ⟨h1, h2, h3⟩ := hs
  simp only [] at h1 h2 h3
  refine ⟨r, hr, k, hk, (a - (dst + (dstRow * r + len * k : Nat))).toNat, by omega, by omega, by omega⟩

theorem takes_patchBlocks {r k j : Nat} (hr : r < rows) (hk : k < cells) (hj : j < len) :
    ∃ c ∈ patchBlocks src dst srcRow srcStep dstRow rows cells len,
      c.Takes (src + srcRow * r + srcStep * k + j) (dst + (dstRow * r + (len * k + j) : Nat)) := by
  refine ⟨_, mem_patchBlocks.2 ⟨r, hr, k, hk, rfl⟩, ?_⟩
  have h := BlockCopy.takes_at ⟨src + srcRow * r + srcStep * k, dst + (dstRow * r + len * k : Nat), len⟩ hj
  rwa [show dst + (dstRow * r + (len * k + j) : Nat) = dst + (dstRow * r + len * k : Nat) + j by omega]

theorem cell_end_le {k j : Nat} (hk : k < cells) (hj : j < len) : len * k + j < len * cells := by
  calc len * k + j < len * k + len := Nat.add_lt_add_left hj _
    _ = len * (k + 1) := (Nat.mul_succ _ _).symm
    _ ≤ len * cells := Nat.mul_le_mul_left _ hk

/-- Blocks that end in their rows are taken from one place each. -/
theorem patchBlocks_one (hle : len * cells ≤ dstRow) :
    ∀ c ∈ patchBlocks src dst srcRow srcStep dstRow rows cells len,
      ∀ c' ∈ patchBlocks src dst srcRow srcStep dstRow rows cells len, ∀ s s' a, c.Takes s a → c'.Takes s' a → s = s' := by
  intro c hc c' hc' s s' a hs hs'
  obtain ⟨r, hr, k, hk, j, hj, rfl, ha⟩ := patchBlocks_takes hc hs
  obtain ⟨r', hr', k', hk', j', hj', rfl, ha'⟩ := patchBlocks_takes hc' hs'
  have hlt := cell_end_le hk hj
  have hlt' := cell_end_le hk' hj'
  obtain ⟨rfl, hx⟩ := ByteGrid.row_eq dstRow r r' (len * k + j) (len * k' + j') (by omega) (by omega) (by omega)
  obtain ⟨rfl, rfl⟩ := ByteGrid.row_eq len k k' j j' hj hj' hx
  rfl

end Blocks

theorem foldl_read_toMove (l : List BlockCopy) (m : ByteMem) :
    (l.map BlockCopy.toMove).foldl PatchMove.read m = (l.map BlockCopy.reverse).foldl ByteMem.copy m := by
  rw [List.foldl_map, List.foldl_map]
  rfl

theorem imageHas_toMove {c : BlockCopy} {a : Int} : (BlockCopy.toMove c).ImageHas a ↔ ∃ s, c.Takes s a := by
  simp only [BlockCopy.toMove, PatchMove.ImageHas, PatchMove.image, PatchMove.imageBytes, BlockCopy.Takes]
  constructor
  · rintro ⟨h1, h2⟩
    exact ⟨_, h1, h2, rfl⟩
  · rintro ⟨s, h1, h2, -⟩
    exact ⟨h1, h2⟩

theorem userHas_toMove {c : BlockCopy} {s : Int} : (BlockCopy.toMove c).UserHas s ↔ ∃ a, c.Takes s a := by
  simp only [BlockCopy.toMove, PatchMove.UserHas, BlockCopy.Takes]
  constructor
  · rintro ⟨h1, h2⟩
    exact ⟨c.dst + (s - c.src), by omega, by omega, by omega⟩
  · rintro ⟨a, h1, h2, h3⟩
    exact ⟨by omega, by omega⟩

/-! ### The moves of a patch -/

/-- A plane whose rows hold its elements. -/
structure CopyPlane (q : ImagePlane) (bytes : Nat) : Prop where
  fits : PlaneFits q bytes
  packedRow : q.addr.strideX = 0 → 12 * q.addr.dimX.toNat + 7 < 2 ^ 32 ∧
    (12 * q.addr.dimX.toNat + 7) / 8 ≤ q.addr.strideY.toUInt32.toNat
  pos : q.addr.strideX ≠ 0 → 0 < q.addr.strideX
  row : q.addr.strideX ≠ 0 →
    q.addr.strideX.toUInt32.toNat * (q.addr.dimX.toNat / q.addr.stepX.toNat) ≤ q.addr.strideY.toUInt32.toNat
  even : q.addr.strideX ≠ 0 → q.addr.dimX.toNat % q.addr.stepX.toNat = 0

/-- A rectangle that is not empty, inside the plane. -/
structure InPlane (rect : VxRectangle) (q : ImagePlane) : Prop where
  ltX : rect.startX.toNat < rect.endX.toNat
  ltY : rect.startY.toNat < rect.endY.toNat
  leX : rect.endX.toNat ≤ q.addr.dimX.toNat
  leY : rect.endY.toNat ≤ q.addr.dimY.toNat

namespace CopyPlane

variable {q : ImagePlane} {bytes : Nat} {rect : VxRectangle} {user : ImagepatchAddressing} {userPtr : Nat}

theorem width_eq (hin : InPlane rect q) : rect.width.toNat = rect.endX.toNat - rect.startX.toNat :=
  UInt32.toNat_sub_of_le _ _ (UInt32.le_iff_toNat_le.2 (Nat.le_of_lt hin.ltX))

theorem height_eq (hin : InPlane rect q) : rect.height.toNat = rect.endY.toNat - rect.startY.toNat :=
  UInt32.toNat_sub_of_le _ _ (UInt32.le_iff_toNat_le.2 (Nat.le_of_lt hin.ltY))

/-- The rows and columns of the loops. -/
def rowsOf (q : ImagePlane) (rect : VxRectangle) : Nat := (rect.height.toNat + (q.addr.stepY.toNat - 1)) / q.addr.stepY.toNat

def columnsOf (q : ImagePlane) (rect : VxRectangle) : Nat := (rect.width.toNat + (q.addr.stepX.toNat - 1)) / q.addr.stepX.toNat

theorem loops (P : CopyPlane q bytes) (hin : InPlane rect q) :
    loopCount rect.startY rect.endY q.addr.stepY = some (rowsOf q rect) ∧
      (q.addr.strideX ≠ 0 → loopCount rect.startX rect.endX q.addr.elementStep = some (columnsOf q rect)) := by
  have hw := width_eq hin
  have hh := height_eq hin
  have hdx := q.addr.dimX.toNat_lt
  have hdy := q.addr.dimY.toNat_lt
  have hwhole := P.fits.whole
  obtain ⟨h1, h2, h3, h4⟩ := hin
  refine ⟨loopCount_of_lt (by rw [rowsOf, hh]) ?_, fun h0 => ?_⟩
  · rw [rowsOf, hh]
    rcases P.fits.step_cases with ⟨-, h5⟩ | ⟨-, h5⟩ <;> rw [h5] at hwhole ⊢ <;> omega
  · have heven := P.even h0
    rw [ImagepatchAddressing.elementStep, if_neg h0]
    refine loopCount_of_lt (by rw [columnsOf, hw]) ?_
    rw [columnsOf, hw]
    rcases P.fits.step_cases with ⟨h5, -⟩ | ⟨h5, -⟩ <;> rw [h5] at heven ⊢ <;> omega

/-- The rows of the rectangle are rows of the plane. -/
theorem rows_le (P : CopyPlane q bytes) (hin : InPlane rect q) :
    rect.startY.toNat / q.addr.stepY.toNat + rowsOf q rect ≤ q.addr.dimY.toNat / q.addr.stepY.toNat ∧
      rect.startY.toNat / q.addr.stepY.toNat + rowsOf q rect ≤ (rect.endY.toNat - 1) / q.addr.stepY.toNat + 1 := by
  have hh := height_eq hin
  have hwhole := P.fits.whole
  obtain ⟨h1, h2, h3, h4⟩ := hin
  rw [rowsOf, hh]
  rcases P.fits.step_cases with ⟨h5, h6⟩ | ⟨h5, h6⟩ <;> rw [h6] at hwhole ⊢ <;> omega

/-- The rows of a copy that fits start where those of the plane do. -/
theorem startY_of_fits (P : CopyPlane q bytes) (hf : copyFits q rect user) :
    rect.startY.toNat * q.addr.strideY.toUInt32.toNat / q.addr.stepY.toNat =
      q.addr.strideY.toUInt32.toNat * (rect.startY.toNat / q.addr.stepY.toNat) := by
  have hy : q.addr.stepX = 1 ∨ rect.startY.toNat % 2 = 0 ∨ q.addr.strideY.toUInt32.toNat ≤ 1 := by
    unfold copyFits at hf
    split at hf
    · exact .inl hf.2.1
    · exact hf.imp_right And.left
  rcases P.fits.step_cases with ⟨-, h1⟩ | ⟨h0, h1⟩
  · rw [h1, Nat.div_one, Nat.div_one, Nat.mul_comm]
  · rw [h1]
    rcases hy with h2 | h2 | h2
    · rw [h2] at h0
      exact absurd h0 (by decide)
    · rw [Nat.mul_comm, Nat.mul_div_assoc _ (Nat.dvd_of_mod_eq_zero h2)]
    · obtain h3 | h3 : q.addr.strideY.toUInt32.toNat = 0 ∨ q.addr.strideY.toUInt32.toNat = 1 := by omega
      · rw [h3, Nat.mul_zero, Nat.zero_mul]
      · rw [h3, Nat.mul_one, Nat.one_mul]

/-- The length of a block, and how many there are in a row. -/
def blockLen (q : ImagePlane) (rect : VxRectangle) (user : ImagepatchAddressing) : Nat :=
  if user.strideX = q.addr.strideX then (q.addr.compactLen rect).toNat else q.addr.strideX.toUInt32.toNat

def blockCells (q : ImagePlane) (rect : VxRectangle) (user : ImagepatchAddressing) : Nat :=
  if user.strideX = q.addr.strideX then 1 else columnsOf q rect

/-- The blocks of a copy that does not take samples apart. -/
def blocksOf (q : ImagePlane) (rect : VxRectangle) (user : ImagepatchAddressing) (userPtr : Nat) : List BlockCopy :=
  patchBlocks userPtr (q.hostPtr + q.addr.copyOffset rect : Nat) user.strideY.toInt user.strideX.toInt
    q.addr.strideY.toUInt32.toNat (rowsOf q rect) (blockCells q rect user) (blockLen q rect user)

theorem copyMoves_eq (P : CopyPlane q bytes) (hin : InPlane rect q) (hf : copyFits q rect user) :
    q.copyMoves rect user userPtr = some ((blocksOf q rect user userPtr).map BlockCopy.toMove) := by
  obtain ⟨hrows, hcols⟩ := P.loops hin
  have hle := (P.rows_le hin).1
  have hstride : ∀ r < rowsOf q rect, q.addr.strideY.toInt * (r : Int) = (q.addr.strideY.toUInt32.toNat * r : Nat) :=
    fun r hr => strideY_mul P.fits (Nat.lt_of_lt_of_le hr (Nat.le_trans (Nat.le_add_left _ _) hle))
  simp only [ImagePlane.copyMoves, hrows, Option.bind_some, blocksOf, patchBlocks, List.map_flatMap, List.map_map]
  by_cases hu : user.strideX = q.addr.strideX
  · simp only [hu, if_true, Option.map_some, blockCells, blockLen]
    refine congrArg some (List.flatMap_congr (fun r hr => ?_))
    rw [compact_row hu, hstride r (List.mem_range.1 hr)]
    simp only [List.range_one, List.map_singleton, Function.comp_apply, BlockCopy.toMove, Nat.mul_zero, Int.natCast_zero,
      Int.mul_zero, Int.add_zero, Nat.cast_add]
  · have h0 : q.addr.strideX ≠ 0 := by
      intro h0
      unfold copyFits at hf
      rw [if_pos h0] at hf
      exact hu (hf.1.trans h0.symm)
    rw [if_neg hu, hcols h0]
    simp only [Option.map_some, blockCells, blockLen, if_neg hu]
    refine congrArg some (List.flatMap_congr (fun r hr => ?_))
    simp only [ImagePlane.rowMoves, if_neg hu, if_neg h0, hstride r (List.mem_range.1 hr)]
    refine List.map_congr_left (fun k _ => ?_)
    simp only [Function.comp_apply, BlockCopy.toMove, Nat.cast_add, Nat.cast_mul, Int.add_assoc]

/-- Halves of bytes end before the last of the elements they are in does. -/
theorem half_extent (S a w : Nat) :
    S * (a / 2) ≤ a * S / 2 ∧ a * S / 2 + w * S / 2 ≤ S * ((a + w - 1) / 2 + 1) := by
  constructor
  · rw [Nat.le_div_iff_mul_le (by decide), Nat.mul_comm a, Nat.mul_assoc]
    exact Nat.mul_le_mul_left _ (Nat.div_mul_le_self _ _)
  · have h1 : (a + w) * S ≤ S * ((a + w - 1) / 2 + 1) * 2 := by
      rw [Nat.mul_comm _ S, Nat.mul_assoc]
      exact Nat.mul_le_mul_left _ (by omega)
    rw [Nat.add_mul] at h1
    omega

/-- A row of elements has 32 bits, also where two of them are a sample. -/
theorem row_lt (P : CopyPlane q bytes) (hin : InPlane rect q) (h0 : q.addr.strideX ≠ 0) {x : Nat} (hx : x ≤ q.addr.dimX.toNat) :
    x * q.addr.strideX.toUInt32.toNat < 2 ^ 32 ∧
      x * q.addr.strideX.toUInt32.toNat / q.addr.stepX.toNat ≤ q.addr.strideY.toUInt32.toNat := by
  have hrow := P.row h0
  have heven := P.even h0
  have hlt := P.fits.stride
  have hwhole := P.fits.whole
  have hdimY : q.addr.stepX.toNat ≤ q.addr.dimY.toNat := by
    obtain ⟨h1, h2, h3, h4⟩ := hin
    rcases P.fits.step_cases with ⟨h5, h6⟩ | ⟨h5, h6⟩ <;> rw [h5] <;> rw [h6] at hwhole <;> omega
  have hspos : 0 < q.addr.stepX.toNat := by rcases P.fits.step_cases with ⟨h5, -⟩ | ⟨h5, -⟩ <;> omega
  have hsplit : q.addr.dimX.toNat * q.addr.strideX.toUInt32.toNat =
      q.addr.stepX.toNat * (q.addr.strideX.toUInt32.toNat * (q.addr.dimX.toNat / q.addr.stepX.toNat)) := by
    rw [Nat.mul_left_comm, Nat.mul_div_cancel' (Nat.dvd_of_mod_eq_zero heven), Nat.mul_comm]
  have hle : x * q.addr.strideX.toUInt32.toNat ≤ q.addr.stepX.toNat * q.addr.strideY.toUInt32.toNat :=
    calc x * q.addr.strideX.toUInt32.toNat ≤ q.addr.dimX.toNat * q.addr.strideX.toUInt32.toNat := Nat.mul_le_mul_right _ hx
      _ = q.addr.stepX.toNat * (q.addr.strideX.toUInt32.toNat * (q.addr.dimX.toNat / q.addr.stepX.toNat)) := hsplit
      _ ≤ q.addr.stepX.toNat * q.addr.strideY.toUInt32.toNat := Nat.mul_le_mul_left _ hrow
  refine ⟨?_, Nat.div_le_of_le_mul hle⟩
  calc x * q.addr.strideX.toUInt32.toNat ≤ q.addr.stepX.toNat * q.addr.strideY.toUInt32.toNat := hle
    _ ≤ q.addr.dimY.toNat * q.addr.strideY.toUInt32.toNat := Nat.mul_le_mul_right _ hdimY
    _ < 2 ^ 32 := by rwa [Nat.mul_comm]

/-- Where the copy starts, in the first row of the rectangle. -/
def startOf (q : ImagePlane) (rect : VxRectangle) : Nat :=
  if q.addr.strideX = 0 then rect.startX.toNat * 12 / 8 else rect.startX.toNat * q.addr.strideX.toUInt32.toNat / q.addr.stepX.toNat

theorem copyOffset_eq (P : CopyPlane q bytes) (hin : InPlane rect q) (hf : copyFits q rect user) :
    q.addr.copyOffset rect = q.addr.strideY.toUInt32.toNat * (rect.startY.toNat / q.addr.stepY.toNat) + startOf q rect := by
  have hA := P.startY_of_fits hf
  unfold ImagepatchAddressing.copyOffset startOf
  by_cases h0 : q.addr.strideX = 0
  · have h1 : q.addr.stepX.toNat = 1 := by
      unfold copyFits at hf
      rw [if_pos h0] at hf
      rw [hf.2.1]
      rfl
    rw [if_pos h0, if_pos h0, hA, h1, Nat.div_one]
  · obtain ⟨hlt, hle⟩ := P.row_lt hin h0 (Nat.le_of_lt (Nat.lt_of_lt_of_le hin.ltX hin.leX))
    have hstride := P.fits.stride
    have hsy : rect.startY.toNat * q.addr.strideY.toUInt32.toNat < 2 ^ 32 := by
      have := Nat.mul_le_mul_right q.addr.strideY.toUInt32.toNat (Nat.le_trans (Nat.le_of_lt hin.ltY) hin.leY)
      rw [Nat.mul_comm q.addr.dimY.toNat] at this
      exact Nat.lt_of_le_of_lt this hstride
    -- the start is in a row of the plane
    have hsum : q.addr.strideY.toUInt32.toNat * (rect.startY.toNat / q.addr.stepY.toNat) +
        rect.startX.toNat * q.addr.strideX.toUInt32.toNat / q.addr.stepX.toNat < 2 ^ 32 := by
      have hrow : rect.startY.toNat / q.addr.stepY.toNat + 1 ≤ q.addr.dimY.toNat := by
        have := Nat.div_le_self rect.startY.toNat q.addr.stepY.toNat
        have h1 := hin.ltY
        have h2 := hin.leY
        omega
      have := Nat.mul_le_mul_left q.addr.strideY.toUInt32.toNat hrow
      rw [Nat.mul_add, Nat.mul_one] at this
      omega
    rw [if_neg h0, if_neg h0, UInt32.toNat_add, UInt32.toNat_div, UInt32.toNat_div, UInt32.toNat_mul, UInt32.toNat_mul,
      Nat.mod_eq_of_lt hsy, Nat.mod_eq_of_lt hlt, hA, Nat.mod_eq_of_lt hsum]

/-- The blocks of a row have all bytes of the user's elements, and end with the elements of the rectangle. -/
theorem extent (P : CopyPlane q bytes) (hin : InPlane rect q) (hf : copyFits q rect user) (h0 : q.addr.strideX ≠ 0) :
    q.addr.strideX.toUInt32.toNat * (rect.startX.toNat / q.addr.stepX.toNat) ≤ startOf q rect ∧
      startOf q rect + blockLen q rect user * blockCells q rect user ≤
        q.addr.strideX.toUInt32.toNat * ((rect.endX.toNat - 1) / q.addr.stepX.toNat + 1) ∧
      blockLen q rect user * blockCells q rect user = q.addr.strideX.toUInt32.toNat * columnsOf q rect := by
  have hw := width_eq hin
  have hwpos : 0 < rect.width.toNat := by have := hin.ltX; omega
  have hend : rect.endX.toNat = rect.startX.toNat + rect.width.toNat := by have := hin.ltX; omega
  have hwle : rect.width.toNat ≤ q.addr.dimX.toNat := by have := hin.leX; omega
  obtain ⟨hlt, -⟩ := P.row_lt hin h0 hwle
  unfold copyFits at hf
  rw [if_neg h0] at hf
  have hlen : blockLen q rect user * blockCells q rect user =
      if user.strideX = q.addr.strideX then rect.width.toNat * q.addr.strideX.toUInt32.toNat / q.addr.stepX.toNat
      else q.addr.strideX.toUInt32.toNat * columnsOf q rect := by
    unfold blockLen blockCells
    split
    · rw [Nat.mul_one, compactLen_toNat (by rw [ImagepatchAddressing.rowFits, if_neg h0]; exact hlt), if_neg h0]
    · rfl
  rw [hlen, startOf, if_neg h0, hend, columnsOf]
  rcases P.fits.stepX with h1 | h1 <;> rw [h1]
  · simp only [show UInt32.toNat 1 = 1 from rfl, Nat.div_one, Nat.sub_self, Nat.add_zero]
    rw [Nat.mul_comm rect.width.toNat, Nat.mul_comm rect.startX.toNat, ite_self]
    refine ⟨Nat.le_refl _, ?_, rfl⟩
    rw [← Nat.mul_add]
    exact Nat.mul_le_mul_left _ (by omega)
  · have hf := hf.resolve_left (by rw [h1]; decide)
    obtain ⟨hstart, hhalf⟩ := half_extent q.addr.strideX.toUInt32.toNat rect.startX.toNat rect.width.toNat
    simp only [show UInt32.toNat 2 = 2 from rfl]
    refine ⟨hstart, ?_⟩
    by_cases he : rect.width.toNat % 2 = 0
    · have hcols : (rect.width.toNat + (2 - 1)) / 2 = rect.width.toNat / 2 := by omega
      have hmul : rect.width.toNat * q.addr.strideX.toUInt32.toNat / 2 =
          q.addr.strideX.toUInt32.toNat * (rect.width.toNat / 2) := by
        rw [Nat.mul_comm, Nat.mul_div_assoc _ (Nat.dvd_of_mod_eq_zero he)]
      rw [hcols, ← hmul, ite_self]
      exact ⟨hhalf, rfl⟩
    · obtain ⟨hu, hs⟩ := hf.2.resolve_left he
      rw [if_neg hu]
      refine ⟨?_, rfl⟩
      rcases hs with hs | hs
      · rw [Nat.mul_comm rect.startX.toNat, Nat.mul_div_assoc _ (Nat.dvd_of_mod_eq_zero hs), ← Nat.mul_add]
        exact Nat.mul_le_mul_left _ (by omega)
      · rw [hs, show (1 : Int32).toUInt32.toNat = 1 from rfl, Nat.mul_one, Nat.one_mul, Nat.one_mul]
        omega

/-- The blocks of a packed row. -/
theorem packed_extent (P : CopyPlane q bytes) (hin : InPlane rect q) (hf : copyFits q rect user) (h0 : q.addr.strideX = 0) :
    startOf q rect = 3 * (rect.startX.toNat / 2) ∧ blockCells q rect user = 1 ∧
      blockLen q rect user = (12 * rect.width.toNat + 7) / 8 := by
  have hw := width_eq hin
  have hbits := (P.packedRow h0).1
  unfold copyFits at hf
  rw [if_pos h0] at hf
  obtain ⟨hu, h1, h2, -⟩ := hf
  have h3 := hin.leX
  have hu' : user.strideX = q.addr.strideX := hu.trans h0.symm
  refine ⟨?_, if_pos hu', ?_⟩
  · rw [startOf, if_pos h0]
    omega
  · rw [blockLen, if_pos hu', compactLen_toNat (by rw [ImagepatchAddressing.rowFits, if_pos h0]; omega), if_pos h0, h1]
    exact Nat.div_one _

/-- The blocks of a row are in the row. -/
theorem row_end_le (P : CopyPlane q bytes) (hin : InPlane rect q) (hf : copyFits q rect user) :
    startOf q rect + blockLen q rect user * blockCells q rect user ≤ q.addr.strideY.toUInt32.toNat := by
  have hw := width_eq hin
  have hx := hin.ltX
  have hle := hin.leX
  by_cases h0 : q.addr.strideX = 0
  · obtain ⟨h1, h2, h3⟩ := P.packed_extent hin hf h0
    have hrow := (P.packedRow h0).2
    unfold copyFits at hf
    rw [if_pos h0] at hf
    have heven := hf.2.2.1
    rw [h1, h2, h3, hw]
    omega
  · obtain ⟨-, h1, -⟩ := P.extent hin hf h0
    have heven := P.even h0
    have hcells : (rect.endX.toNat - 1) / q.addr.stepX.toNat + 1 ≤ q.addr.dimX.toNat / q.addr.stepX.toNat := by
      rcases P.fits.step_cases with ⟨h2, -⟩ | ⟨h2, -⟩ <;> rw [h2] at heven ⊢ <;> omega
    exact Nat.le_trans h1 (Nat.le_trans (Nat.mul_le_mul_left _ hcells) (P.row h0))

/-- A byte that is written is in a row of the rectangle. -/
theorem place_of_takes (P : CopyPlane q bytes) (hin : InPlane rect q) (hf : copyFits q rect user) {c : BlockCopy}
    (hc : c ∈ blocksOf q rect user userPtr) {s a : Int} (hs : c.Takes s a) :
    ∃ r < rowsOf q rect, ∃ j < blockLen q rect user * blockCells q rect user,
      a = q.hostPtr +
        (q.addr.strideY.toUInt32.toNat * (rect.startY.toNat / q.addr.stepY.toNat + r) + (startOf q rect + j) : Nat) := by
  obtain ⟨r, hr, k, hk, j, hj, -, rfl⟩ := patchBlocks_takes hc hs
  refine ⟨r, hr, blockLen q rect user * k + j, cell_end_le hk hj, ?_⟩
  rw [P.copyOffset_eq hin hf, Nat.mul_add]
  push_cast
  omega

/-- The blocks of a user that is apart from the image do not disturb each other. -/
theorem consistent (P : CopyPlane q bytes) (hin : InPlane rect q) (hf : copyFits q rect user)
    (hua : UserApart ((blocksOf q rect user userPtr).map BlockCopy.toMove)) :
    ByteMem.Consistent (blocksOf q rect user userPtr) where
  one := patchBlocks_one (Nat.le_trans (Nat.le_add_left _ _) (P.row_end_le hin hf))
  kept := fun _ hc _ hc' s s' a hs hs' =>
    hua _ (List.mem_map_of_mem hc) _ (List.mem_map_of_mem hc') s (userHas_toMove.2 ⟨a, hs⟩) (imageHas_toMove.2 ⟨s', hs'⟩)

/-- What is read back of a byte that has been written. -/
theorem read_back (hl : ByteMem.Consistent (blocksOf q rect user userPtr)) {m n : ByteMem}
    (hn : ∀ mv ∈ (blocksOf q rect user userPtr).map BlockCopy.toMove, ∀ a, mv.ImageHas a →
      n a = ((blocksOf q rect user userPtr).map BlockCopy.toMove).foldl PatchMove.write m a)
    {r k j : Nat} (hr : r < rowsOf q rect) (hk : k < blockCells q rect user) (hj : j < blockLen q rect user) :
    ((blocksOf q rect user userPtr).map BlockCopy.toMove).foldl PatchMove.read n
        (userPtr + user.strideY.toInt * r + user.strideX.toInt * k + j) =
      m (userPtr + user.strideY.toInt * r + user.strideX.toInt * k + j) := by
  obtain ⟨c, hc, hs⟩ := @takes_patchBlocks userPtr (q.hostPtr + q.addr.copyOffset rect : Nat) user.strideY.toInt
    user.strideX.toInt q.addr.strideY.toUInt32.toNat _ _ _ r k j hr hk hj
  rw [foldl_read_toMove]
  refine ByteMem.foldl_copy_back hl (fun c hc s a hs => ?_) hc hs
  rw [hn _ (List.mem_map_of_mem hc) a (imageHas_toMove.2 ⟨s, hs⟩), foldl_toMove]

theorem div_lt_rows (P : CopyPlane q bytes) {y : Nat} (hy : y < rect.height.toNat) : y / q.addr.stepY.toNat < rowsOf q rect := by
  unfold rowsOf
  rcases P.fits.step_cases with ⟨-, h2⟩ | ⟨-, h2⟩ <;> rw [h2] <;> omega

theorem div_lt_columns (P : CopyPlane q bytes) {x : Nat} (hx : x < rect.width.toNat) :
    x / q.addr.stepX.toNat < columnsOf q rect := by
  unfold columnsOf
  rcases P.fits.step_cases with ⟨h1, -⟩ | ⟨h1, -⟩ <;> rw [h1] <;> omega

/-- The samples of the user come back. -/
theorem samples_back (P : CopyPlane q bytes) (hin : InPlane rect q) (hf : copyFits q rect user)
    (hl : ByteMem.Consistent (blocksOf q rect user userPtr)) {m n : ByteMem}
    (hn : ∀ mv ∈ (blocksOf q rect user userPtr).map BlockCopy.toMove, ∀ a, mv.ImageHas a →
      n a = ((blocksOf q rect user userPtr).map BlockCopy.toMove).foldl PatchMove.write m a)
    {x y : Nat} (hx : x < rect.width.toNat) (hy : y < rect.height.toNat) :
    q.addr.samples user userPtr (((blocksOf q rect user userPtr).map BlockCopy.toMove).foldl PatchMove.read n) x y =
      q.addr.samples user userPtr m x y := by
  have hr : y / q.addr.stepY.toNat < rowsOf q rect := P.div_lt_rows hy
  by_cases h0 : q.addr.strideX = 0
  · obtain ⟨-, h2, h3⟩ := P.packed_extent hin hf h0
    unfold copyFits at hf
    rw [if_pos h0] at hf
    obtain ⟨hu, h1, -⟩ := hf
    -- a byte of the line
    have hbyte : ∀ j < (12 * rect.width.toNat + 7) / 8,
        ((blocksOf q rect user userPtr).map BlockCopy.toMove).foldl PatchMove.read n
        (userPtr + user.strideY.toInt * (y / q.addr.stepY.toNat : Nat) + j) =
        m (userPtr + user.strideY.toInt * (y / q.addr.stepY.toNat : Nat) + j) := by
      intro j hj
      have := read_back hl hn hr (k := 0) (by rw [h2]; exact Nat.one_pos) (h3 ▸ hj)
      simpa using this
    simp only [ImagepatchAddressing.samples, h0, hu, ne_eq, not_true_eq_false, if_false, if_true, h1,
      show UInt32.toNat 1 = 1 from rfl, List.range_one, List.map_singleton, Nat.div_one, Nat.one_mul, Nat.add_zero]
    exact congrArg (fun v => [v]) (TwelveBits.sample_congr (fun j _ hj => hbyte j (by omega)))
  · have hlen := (P.extent hin hf h0).2.2
    have hcol := P.div_lt_columns hx
    simp only [ImagepatchAddressing.samples, h0, ne_eq, not_false_eq_true, if_true]
    refine List.map_congr_left (fun b hb => congrArg UInt8.toNat ?_)
    have hend := cell_end_le hcol (List.mem_range.1 hb)
    by_cases hu : user.strideX = q.addr.strideX
    · -- one block for the line
      have h1 : blockCells q rect user = 1 := if_pos hu
      have hs := toInt_eq_of_pos (P.pos h0)
      rw [h1, Nat.mul_one] at hlen
      have := read_back hl hn hr (k := 0) (by rw [h1]; exact Nat.one_pos) (hlen ▸ hend)
      rw [hu, hs]
      push_cast at this ⊢
      simpa using this
    · have h1 : blockCells q rect user = columnsOf q rect := if_neg hu
      have h2 : blockLen q rect user = q.addr.strideX.toUInt32.toNat := if_neg hu
      have := read_back hl hn hr (h1 ▸ hcol) (h2 ▸ List.mem_range.1 hb)
      rwa [Int.add_assoc (userPtr + _)] at this

/-- A number between the quotients of the ends is one of a place between them. -/
theorem exists_div_eq {start stop n k : Nat} (hn : 0 < n) (hlt : start < stop) (h1 : start / n ≤ k) (h2 : k ≤ (stop - 1) / n) :
    ∃ x, start ≤ x ∧ x < stop ∧ x / n = k := by
  rcases Nat.eq_or_lt_of_le h1 with h1 | h1
  · exact ⟨start, Nat.le_refl _, hlt, h1⟩
  · have hstart : start < k * n := (Nat.div_lt_iff_lt_mul hn).1 h1
    have hstop : k * n ≤ stop - 1 := (Nat.le_div_iff_mul_le hn).1 h2
    exact ⟨k * n, Nat.le_of_lt hstart, by omega, Nat.mul_div_cancel _ hn⟩

/-- A row that is written is one of the rectangle. -/
theorem row_of_lt (P : CopyPlane q bytes) (hin : InPlane rect q) {r : Nat} (hr : r < rowsOf q rect) :
    rect.startY.toNat / q.addr.stepY.toNat + r < q.addr.dimY.toNat / q.addr.stepY.toNat ∧
      rect.startY.toNat / q.addr.stepY.toNat + r ≤ (rect.endY.toNat - 1) / q.addr.stepY.toNat := by
  obtain ⟨h1, h2⟩ := P.rows_le hin
  omega

/-- Another sample of the plane is in none of the bytes that are written. -/
theorem samples_others (P : CopyPlane q bytes) (hin : InPlane rect q) (hf : copyFits q rect user) (m : ByteMem) {x y : Nat}
    (hx : x < q.addr.dimX.toNat) (hy : y < q.addr.dimY.toNat) (hn : ¬ rect.Touches q.addr x y) :
    q.addr.samples q.addr q.hostPtr (((blocksOf q rect user userPtr).map BlockCopy.toMove).foldl PatchMove.write m) x y =
      q.addr.samples q.addr q.hostPtr m x y := by
  have hpos : 0 < q.addr.stepX.toNat ∧ 0 < q.addr.stepY.toNat := by
    rcases P.fits.step_cases with ⟨h1, h2⟩ | ⟨h1, h2⟩ <;> omega
  have hwhole := P.fits.whole
  have hrow : y / q.addr.stepY.toNat < q.addr.dimY.toNat / q.addr.stepY.toNat := by
    rcases P.fits.step_cases with ⟨-, h2⟩ | ⟨-, h2⟩ <;> rw [h2] at hwhole ⊢ <;> omega
  have hend := P.row_end_le hin hf
  -- a byte of the row that is written is one of the rectangle's rows, and in its columns
  have hbyte : ∀ b < q.addr.strideY.toUInt32.toNat, (∀ j < blockLen q rect user * blockCells q rect user, b = startOf q rect + j →
      ∃ x', rect.startX.toNat ≤ x' ∧ x' < rect.endX.toNat ∧ x / q.addr.stepX.toNat = x' / q.addr.stepX.toNat) →
      ((blocksOf q rect user userPtr).map BlockCopy.toMove).foldl PatchMove.write m
        (q.hostPtr + q.addr.strideY.toInt * (y / q.addr.stepY.toNat : Nat) + b) =
      m (q.hostPtr + q.addr.strideY.toInt * (y / q.addr.stepY.toNat : Nat) + b) := by
    intro b hb hcol
    rw [foldl_toMove, strideY_mul P.fits hrow]
    refine ByteMem.foldl_copy_of_not (fun c hc s hs => ?_)
    obtain ⟨r, hr, j, hj, ha⟩ := P.place_of_takes hin hf hc hs
    obtain ⟨hyr, hbj⟩ := ByteGrid.row_eq q.addr.strideY.toUInt32.toNat (y / q.addr.stepY.toNat)
      (rect.startY.toNat / q.addr.stepY.toNat + r) b (startOf q rect + j) hb (by omega) (by omega)
    obtain ⟨x', hx1, hx2, hx3⟩ := hcol j hj hbj
    obtain ⟨y', hy1, hy2, hy3⟩ := exists_div_eq hpos.2 hin.ltY (Nat.le_add_right _ r) (P.row_of_lt hin hr).2
    exact hn ⟨x', y', hx1, hx2, hy1, hy2, hx3, hyr.trans hy3.symm⟩
  by_cases h0 : q.addr.strideX = 0
  · obtain ⟨h1, h2, h3⟩ := P.packed_extent hin hf h0
    have hbits := (P.packedRow h0).2
    have hw := width_eq hin
    have hlt := hin.ltX
    unfold copyFits at hf
    rw [if_pos h0] at hf
    obtain ⟨-, hs, heven, hlast⟩ := hf
    have hstep : q.addr.stepX.toNat = 1 := by rw [hs]; rfl
    have hlast' : rect.width.toNat % 2 = 0 ∨ rect.endX.toNat = q.addr.dimX.toNat := hlast.imp_right (congrArg UInt32.toNat)
    simp only [ImagepatchAddressing.samples, h0, ne_eq, not_true_eq_false, if_false, if_true, hstep, List.range_one,
      List.map_singleton, Nat.div_one, Nat.one_mul, Nat.add_zero]
    refine congrArg (fun v => [v]) (TwelveBits.sample_congr (fun j hj hj' => hbyte j (by omega) (fun i hi hji => ?_)))
    rw [h1] at hji
    rw [h2, h3] at hi
    rw [hstep, Nat.div_one]
    exact ⟨x, by omega, by omega, (Nat.div_one x).symm⟩
  · obtain ⟨hlo, hhi, -⟩ := P.extent hin hf h0
    have hs := toInt_eq_of_pos (P.pos h0)
    have heven := P.even h0
    have hcol : x / q.addr.stepX.toNat < q.addr.dimX.toNat / q.addr.stepX.toNat := by
      rcases P.fits.step_cases with ⟨h2, -⟩ | ⟨h2, -⟩ <;> rw [h2] at heven ⊢ <;> omega
    simp only [ImagepatchAddressing.samples, h0, ne_eq, not_false_eq_true, if_true, hs]
    refine List.map_congr_left (fun b hb => congrArg UInt8.toNat ?_)
    have hb := List.mem_range.1 hb
    have hcell := cell_end_le hcol hb
    have hrowend := P.row h0
    have := hbyte (q.addr.strideX.toUInt32.toNat * (x / q.addr.stepX.toNat) + b) (by omega) (fun j hj hbj => ?_)
    · push_cast at this
      exact this
    · -- the byte is in an element between the first and the last one of the rectangle
      have h1 : rect.startX.toNat / q.addr.stepX.toNat ≤ x / q.addr.stepX.toNat := by
        by_contra hc
        have := Nat.mul_le_mul_left q.addr.strideX.toUInt32.toNat (Nat.lt_of_not_le hc)
        rw [Nat.mul_succ] at this
        omega
      have h2 : x / q.addr.stepX.toNat ≤ (rect.endX.toNat - 1) / q.addr.stepX.toNat := by
        by_contra hc
        have := Nat.mul_le_mul_left q.addr.strideX.toUInt32.toNat (Nat.lt_of_not_le hc)
        rw [Nat.succ_eq_add_one] at this
        omega
      obtain ⟨x', hx1, hx2, hx3⟩ := exists_div_eq hpos.1 hin.ltX h1 h2
      exact ⟨x', hx1, hx2, hx3.symm⟩

/-- Only bytes of rows are written. -/
theorem inRows_of_takes (P : CopyPlane q bytes) (hin : InPlane rect q) (hf : copyFits q rect user) {c : BlockCopy}
    (hc : c ∈ blocksOf q rect user userPtr) {s a : Int} (hs : c.Takes s a) : q.InRows a := by
  obtain ⟨r, hr, j, hj, rfl⟩ := P.place_of_takes hin hf hc hs
  refine ⟨_, (P.row_of_lt hin hr).1, _, rfl, ?_⟩
  have hlt := hin.ltX
  have hle := hin.leX
  unfold ImagepatchAddressing.xOffset
  by_cases h0 : q.addr.strideX = 0
  · obtain ⟨h1, h2, h3⟩ := P.packed_extent hin hf h0
    have hw := width_eq hin
    unfold copyFits at hf
    rw [if_pos h0] at hf
    obtain ⟨-, hs, heven, -⟩ := hf
    have hstep : q.addr.stepX.toNat = 1 := by rw [hs]; rfl
    rw [h2, h3] at hj
    rw [if_pos h0, if_pos h0, hstep, Nat.div_one, h1]
    omega
  · obtain ⟨-, hhi, -⟩ := P.extent hin hf h0
    rw [if_neg h0, if_neg h0, ← Nat.mul_succ]
    have hcells : (rect.endX.toNat - 1) / q.addr.stepX.toNat + 1 ≤ (q.addr.dimX.toNat - 1) / q.addr.stepX.toNat + 1 :=
      Nat.succ_le_succ (Nat.div_le_div_right (by omega))
    exact Nat.lt_of_lt_of_le (Nat.lt_of_lt_of_le (Nat.add_lt_add_left hj _) hhi) (Nat.mul_le_mul_left _ hcells)

/-- What the loops move goes there and back. -/
theorem roundTrips (P : CopyPlane q bytes) (hin : InPlane rect q) (hf : copyFits q rect user)
    (hua : UserApart ((blocksOf q rect user userPtr).map BlockCopy.toMove)) :
    RoundTrips q rect user userPtr ((blocksOf q rect user userPtr).map BlockCopy.toMove) where
  back := fun _ _ hn _ hx _ hy => P.samples_back hin hf (P.consistent hin hf hua) hn hx hy
  others := fun m _ hx _ hy hn => P.samples_others hin hf m hx hy hn
  elsewhere := fun m a ha => by
    rw [foldl_toMove]
    exact ByteMem.foldl_copy_of_not (fun c hc s hs => ha (P.inRows_of_takes hin hf hc hs))

/-- A row of pixels is in its row, and in the memory of the plane. -/
theorem inRows_spec (P : CopyPlane q bytes) (hx : 0 < q.addr.dimX.toNat) {a : Int} (ha : q.InRows a) :
    q.mem.start ≤ a ∧ a < q.mem.stop := by
  obtain ⟨r, hr, b, rfl, hb⟩ := ha
  have hrow : q.addr.xOffset (q.addr.dimX.toNat - 1) + (if q.addr.strideX = 0 then 2 else q.addr.strideX.toUInt32.toNat) ≤
      q.addr.strideY.toUInt32.toNat := by
    unfold ImagepatchAddressing.xOffset
    by_cases h0 : q.addr.strideX = 0
    · have hbits := (P.packedRow h0).2
      rw [if_pos h0, if_pos h0]
      rcases P.fits.step_cases with ⟨h1, -⟩ | ⟨h1, -⟩ <;> rw [h1] <;> omega
    · have heven := P.even h0
      have hcells : (q.addr.dimX.toNat - 1) / q.addr.stepX.toNat + 1 ≤ q.addr.dimX.toNat / q.addr.stepX.toNat := by
        rcases P.fits.step_cases with ⟨h2, -⟩ | ⟨h2, -⟩ <;> rw [h2] at heven ⊢ <;> omega
      rw [if_neg h0, if_neg h0, ← Nat.mul_succ]
      exact Nat.le_trans (Nat.mul_le_mul_left _ hcells) (P.row h0)
  have hlt := ByteGrid.row_lt q.addr.strideY.toUInt32.toNat b hr (Nat.lt_of_lt_of_le hb hrow)
  rw [← P.fits.size] at hlt
  simp only [ImagePlane.mem, ByteRange.stop]
  omega

/-- The planes of an image. -/
theorem of_image {src : ImageSource} {d : ImageDesc} (h : src.image = some d) (F : d.Fits) (R : d.RowsHold) {p : Nat}
    (hp : p < d.planes) : CopyPlane (d.plane p) (elementBytes d.format p) := by
  have S := (src.line_spec h).1
  have hr := R p hp
  refine ⟨F p hp, fun h0 => ?_, fun h0 => ?_, fun h0 => ?_, fun h0 => ?_⟩
  · simp only [h0, if_true] at hr
    exact hr
  · simp only [h0, if_false] at hr
    exact hr.1
  · simp only [h0, if_false] at hr
    exact hr.2
  · have hn : d.format.packed = false := by
      by_contra hc
      exact h0 ((S.packed p hp).2 (by simpa using hc))
    rw [S.dimX, S.stepX]
    exact even_width (src.validDimensions h) hp hn

section Exposure

variable {d : RawImageDesc} {host : Nat → Nat} {e : Nat}

/-- The lines of an exposure have 32 bits. -/
theorem stride_height_lt (hv : ownIsValidCreateParams d.params = true) (hf : d.params.fits)
    (he : e < d.params.numExposures.toNat) : d.params.stride e * d.params.height.toNat < 2 ^ 32 := by
  have hh := (ownIsValidCreateParams_spec hv).2.1
  by_cases hc : d.params.lineInterleaved = true ∧ 1 < d.params.numExposures.toNat
  · -- one line of each of two exposures
    rw [RawImageParams.fits, if_pos hc] at hf
    obtain ⟨hn2, hT, -, -, hmax, hle⟩ := hf
    have hmult : d.params.strideYMultiplier.toNat = 2 := by rw [RawImageParams.strideYMultiplier, if_pos hc.1, hn2]
    simp only [RawImageParams.lines] at hT
    rw [RawImageParams.stride, hmult, show d.params.height.toNat = 1 by omega, Nat.mul_one, Nat.mul_comm]
    obtain rfl | rfl : e = 0 ∨ e = 1 := by omega
    · exact hmax
    · omega
  · rw [RawImageParams.fits, if_neg hc] at hf
    have hmult : d.params.strideYMultiplier.toNat = 1 := by
      unfold RawImageParams.strideYMultiplier
      split
      · rename_i hi
        have : ¬ 1 < d.params.numExposures.toNat := fun h1 => hc ⟨hi, h1⟩
        omega
      · rfl
    rw [RawImageParams.stride, hmult, Nat.mul_one, Nat.mul_comm]
    exact Nat.lt_of_le_of_lt (Nat.mul_le_mul_right _ (Nat.le_add_right _ _)) (hf e he).2

/-- The stride of a pixel, and the bytes of a row of pixels. -/
theorem exposure_strideX (B : RawImageBacked d.params host d) :
    (d.exposure e).addr.strideX = 0 ∧ (d.params.format e).pixelContainer = rawImageP12Bit ∧
        d.params.rowBytes e = (12 * d.params.width.toNat + 7) / 8 ∨
      0 < (d.exposure e).addr.strideX ∧ (d.exposure e).addr.strideX ≠ 0 ∧
        (d.exposure e).addr.strideX.toUInt32.toNat * d.params.width.toNat = d.params.rowBytes e := by
  have hs : (d.exposure e).addr.strideX = (d.params.addressing e).strideX.toInt32 := by
    rw [← B.addr]
    rfl
  rw [hs]
  unfold RawImageParams.rowBytes RawImageParams.addressing
  by_cases hp : (d.params.format e).pixelContainer = rawImageP12Bit
  · simp only [hp, ne_eq, not_true_eq_false, if_false, if_true]
    exact .inl ⟨rfl, trivial, trivial⟩
  · simp only [hp, ne_eq, not_false_eq_true, if_false, if_true]
    split
    · exact .inr ⟨by decide, by decide, Nat.one_mul _⟩
    · exact .inr ⟨by decide, by decide, rfl⟩

/-- The exposures of a raw image. -/
theorem of_exposure (hv : ownIsValidCreateParams d.params = true) (B : RawImageBacked d.params host d) (hf : d.params.fits)
    (L : RawImageLaidOut d) (he : e < d.params.numExposures.toNat) :
    (∃ bytes, CopyPlane (d.exposure e) bytes) ∧
      (d.exposure e).addr.xOffset (d.params.width.toNat - 1) + (if (d.exposure e).addr.strideX = 0 then 2
        else (d.exposure e).addr.strideX.toUInt32.toNat) = d.params.rowBytes e := by
  obtain ⟨hw, hh, -, -⟩ := ownIsValidCreateParams_spec hv
  have hstride : (d.exposure e).addr.strideY.toUInt32.toNat = d.params.stride e := by
    rw [← L.exact.stride e he]
    rfl
  have hlt := stride_height_lt hv hf he
  have hle : d.params.rowBytes e ≤ d.params.stride e :=
    Nat.le_trans (rowBytes_le_lineBytes _ e) (Nat.le_mul_of_pos_right _ (strideYMultiplier_pos hv))
  have hpos := ((isRow_rowBytes d.params e).pos hw).1
  have hsize : (d.exposure e).memSize.toNat = d.params.stride e * d.params.height.toNat := by
    have h1 : (d.exposure e).memSize.toNat = (d.imagepatchAddr e).strideY.toNat * d.params.height.toNat % 2 ^ 32 :=
      UInt32.toNat_mul _ _
    rw [h1, L.exact.stride e he, Nat.mod_eq_of_lt hlt]
  have hdimX : (d.exposure e).addr.dimX.toNat = d.params.width.toNat := rfl
  have hdimY : (d.exposure e).addr.dimY.toNat = d.params.height.toNat := rfl
  have hstepX : (d.exposure e).addr.stepX.toNat = 1 := rfl
  have hstepY : (d.exposure e).addr.stepY.toNat = 1 := rfl
  have hrow : (d.exposure e).addr.xOffset (d.params.width.toNat - 1) + (if (d.exposure e).addr.strideX = 0 then 2
      else (d.exposure e).addr.strideX.toUInt32.toNat) = d.params.rowBytes e := by
    unfold ImagepatchAddressing.xOffset
    rw [hstepX, Nat.div_one]
    rcases exposure_strideX (e := e) B with ⟨h0, -, h1⟩ | ⟨-, h0, h1⟩
    · rw [if_pos h0, if_pos h0, h1]
      omega
    · rw [if_neg h0, if_neg h0, ← h1, ← Nat.mul_succ, Nat.succ_eq_add_one, Nat.sub_add_cancel (by omega)]
  have hbytes : 0 < if (d.exposure e).addr.strideX = 0 then 2 else (d.exposure e).addr.strideX.toUInt32.toNat := by
    split
    · decide
    · rename_i h0
      exact ImagepatchAddressing.strideX_pos h0
  have hpacked : (d.exposure e).addr.strideX = 0 →
      12 * d.params.width.toNat + 7 < 2 ^ 32 ∧ (12 * d.params.width.toNat + 7) / 8 ≤ d.params.stride e := by
    intro h0
    rcases exposure_strideX (e := e) B with ⟨-, hp, h1⟩ | ⟨-, h1, -⟩
    · refine ⟨rowFits_of_strideY hv ?_ hp, h1 ▸ hle⟩
      rw [← B.addr]
      exact L.exact.stride e he
    · exact absurd h0 h1
  have hcols : (d.exposure e).addr.strideX ≠ 0 →
      0 < (d.exposure e).addr.strideX ∧ (d.exposure e).addr.strideX.toUInt32.toNat * d.params.width.toNat ≤ d.params.stride e := by
    intro h0
    rcases exposure_strideX (e := e) B with ⟨h1, -⟩ | ⟨h1, -, h2⟩
    · exact absurd h1 h0
    · exact ⟨h1, h2 ▸ hle⟩
  refine ⟨⟨_, ⟨hbytes, .inl rfl, rfl, Nat.mod_one _, ?_, ?_, ?_, fun _ => ?_, fun h0 => ?_⟩, fun h0 => ?_, fun h0 => (hcols h0).1,
    fun h0 => ?_, fun _ => Nat.mod_one _⟩, hrow⟩
  · rw [hsize, hstride, hstepY, Nat.div_one, hdimY]
  · rw [hstride, hdimY]
    exact hlt
  · rw [hstride]
    exact Nat.le_trans (Nat.le_add_left _ _) (hrow ▸ hle)
  · rw [hdimX, hrow, hstride]
    exact hle
  · have := (hpacked h0).1
    rw [hstepX, Nat.div_one, hdimX]
    omega
  · rw [hdimX, hstride]
    exact hpacked h0
  · rw [hstepX, Nat.div_one, hdimX, hstride]
    exact (hcols h0).2

end Exposure

end CopyPlane

/-! ### Writing and reading a patch -/

/-- What has patches: a plane of an image, and an exposure of a raw image. -/
inductive PatchTarget
  | image (I : PatchImage) (planeIndex : Nat)
  | rawImage (I : RawPatchImage) (exposureIndex : Nat)

namespace PatchTarget

def plane : PatchTarget → ImagePlane
  | image I planeIndex => I.desc.plane planeIndex
  | rawImage I exposureIndex => I.desc.exposure exposureIndex

/-- `vxCopyImagePatch` and `tivxCopyRawImagePatch`. -/
def copyPatch : PatchTarget → VxRectangle → ImagepatchAddressing → Nat → AccessUsage → Except PatchError (Option (List PatchMove))
  | image I planeIndex, rect, user, userPtr, usage => I.vxCopyImagePatch rect planeIndex user userPtr usage
  | rawImage I exposureIndex, rect, user, userPtr, usage => I.tivxCopyRawImagePatch rect exposureIndex user userPtr usage

/-- It has been created, and its memory is not shared between its planes or the buffers of its exposures. -/
def Created : PatchTarget → Prop
  | image I planeIndex => (∃ src : ImageSource, src.image = some I.desc) ∧
      ∀ p < I.desc.planes, p ≠ planeIndex → (I.desc.plane planeIndex).mem.Apart (I.desc.plane p).mem
  | rawImage I _ => ∃ params host, ownIsValidCreateParams params = true ∧ (∀ e, host e ≠ 0) ∧ BuffersApart params host ∧
      (I.desc = (ownInitRawImage params).ownAllocRawImageBuffer host ∨ I.desc = (ownInitRawImage params).importHandle host)

/-- Its sizes have 32 bits, and its rows hold the pixels. -/
def fits : PatchTarget → Prop
  | image I _ => I.desc.Fits ∧ I.desc.RowsHold
  | rawImage I _ => I.desc.params.fits

/-- The byte is one of another plane, or of a row of pixels of another exposure, or of meta data. -/
def OtherHas : PatchTarget → Int → Prop
  | image I planeIndex, a => ∃ p < I.desc.planes, p ≠ planeIndex ∧
      (I.desc.plane p).mem.start ≤ a ∧ a < (I.desc.plane p).mem.stop
  | rawImage I exposureIndex, a => ∃ e < I.desc.params.numExposures.toNat, ∃ b, ∃ y < RawBuffer.rows I.desc.params b,
      (e, b) ≠ (exposureIndex, .pixel) ∧ (I.desc.rowRange e b y).start ≤ a ∧ a < (I.desc.rowRange e b y).stop

variable {t : PatchTarget} {rect : VxRectangle} {user : ImagepatchAddressing} {userPtr : Nat}
  {result : Option (List PatchMove)}

/-- The plane is one of the image, or the exposure one of the raw image. -/
def Has : PatchTarget → Prop
  | image I planeIndex => planeIndex < I.desc.planes
  | rawImage I exposureIndex => exposureIndex < I.desc.params.numExposures.toNat

/-- A write that is accepted has checked this, and a read with its arguments is accepted as well. -/
theorem copyPatch_spec (h : t.copyPatch rect user userPtr .writeOnly = .ok result) :
    result = t.plane.copyMoves rect user userPtr ∧ t.copyPatch rect user userPtr .readOnly = .ok result ∧
      rect.startX < rect.endX ∧ rect.startY < rect.endY ∧ t.Has := by
  cases t with
  | image I p =>
    simp only [copyPatch, PatchImage.vxCopyImagePatch, PatchImage.ownCopyAndMapCheckParams, FoldExcept.check_eq_ok,
      FoldExcept.bind_eq_ok, Except.ok.injEq] at h ⊢
    obtain ⟨h1, -, ⟨h2, h3, h4, -⟩, h6, rfl⟩ := h
    have h3' := h3
    simp only [not_or, Nat.not_le, UInt32.not_le] at h3'
    exact ⟨rfl, ⟨fun hc => h1 (.inl (hc.resolve_right (fun e => by cases e))), (), ⟨h2, h3, h4, fun hc => hc.2 rfl, trivial⟩,
      h6, rfl⟩,
      h3'.2.2, h3'.2.1, h3'.1⟩
  | rawImage I e =>
    simp only [copyPatch, RawPatchImage.tivxCopyRawImagePatch, RawPatchImage.ownCopyAndMapCheckParams, FoldExcept.check_eq_ok,
      FoldExcept.bind_eq_ok, Except.ok.injEq] at h ⊢
    obtain ⟨h1, -, ⟨h2, h3, h4⟩, h5, h6, h7, rfl⟩ := h
    have h3' := h3
    simp only [not_or, Nat.not_le, UInt32.not_le] at h3'
    exact ⟨rfl, ⟨fun hc => h1 (.inl (hc.resolve_right (fun e => by cases e))), (), ⟨h2, h3, h4⟩, h5, h6, h7, rfl⟩,
      h3'.2.2.1, h3'.2.1, h3'.1⟩

/-- A raw image that has been created is laid out. -/
theorem rawImage_spec {I : RawPatchImage} {e : Nat} (hc : (rawImage I e).Created) (hf : (rawImage I e).fits) :
    ownIsValidCreateParams I.desc.params = true ∧ RawImageLaidOut I.desc ∧ ∃ host, RawImageBacked I.desc.params host I.desc := by
  obtain ⟨params, host, hv, hh, hb, hd⟩ := hc
  have B : RawImageBacked params host I.desc := by
    rcases hd with hd | hd <;> rw [hd]
    · exact rawImageBacked_alloc params hh
    · exact rawImageBacked_import params hh
  obtain rfl := B.params_eq
  exact ⟨hv, laidOut_of_fits hv B hb hf, host, B⟩

/-- The plane of a target that has been created holds its elements. -/
theorem copyPlane (hc : t.Created) (hf : t.fits) (ht : t.Has) : ∃ bytes, CopyPlane t.plane bytes := by
  cases t with
  | image I p =>
    obtain ⟨⟨src, hsrc⟩, -⟩ := hc
    exact ⟨_, CopyPlane.of_image hsrc hf.1 hf.2 ht⟩
  | rawImage I e =>
    obtain ⟨hv, L, host, B⟩ := rawImage_spec hc hf
    exact (CopyPlane.of_exposure hv B hf L ht).1

/-- A byte of another plane or exposure is in no row of pixels. -/
theorem not_inRows (hc : t.Created) (hf : t.fits) (ht : t.Has) (hx : 0 < t.plane.addr.dimX.toNat) {a : Int} (ha : t.OtherHas a) :
    ¬ t.plane.InRows a := by
  intro hr
  cases t with
  | image I p =>
    obtain ⟨bytes, P⟩ := copyPlane hc hf ht
    obtain ⟨p', hp', hne, h1, h2⟩ := ha
    obtain ⟨h3, h4⟩ := P.inRows_spec hx hr
    have hap := hc.2 p' hp' hne
    simp only [ByteRange.Apart, plane] at hap h3 h4
    omega
  | rawImage I e =>
    obtain ⟨hv, L, host, B⟩ := rawImage_spec hc hf
    obtain ⟨f, hf', b, y, hy, hne, h1, h2⟩ := ha
    obtain ⟨r, hr, j, rfl, hj⟩ := hr
    have hj' : j < I.desc.params.rowBytes e := Nat.lt_of_lt_of_eq hj (CopyPlane.of_exposure hv B hf L ht).2
    have hr' : r < I.desc.params.height.toNat := Nat.lt_of_lt_of_eq hr (Nat.div_one _)
    have hap := L.apart e ht f hf' .pixel b r hr' y hy (fun he => hne (by
      injection he with he hb
      injection hb with hb
      rw [he, hb]))
    have hstart : (I.desc.rowRange e .pixel r).start = (plane (rawImage I e)).hostPtr +
        (plane (rawImage I e)).addr.strideY.toUInt32.toNat * r := congrArg (I.desc.imgPtr e + ·) (Nat.mul_comm _ _)
    have hstop : (I.desc.rowRange e .pixel r).stop = (I.desc.rowRange e .pixel r).start + I.desc.params.rowBytes e := rfl
    simp only [ByteRange.Apart, hstop, hstart] at hap
    omega

/-- The rectangle is inside the image. -/
def Inside (t : PatchTarget) (rect : VxRectangle) : Prop := rect.endX ≤ t.plane.addr.dimX ∧ rect.endY ≤ t.plane.addr.dimY

end PatchTarget

/-- **A patch that is written is read back, and nothing else of the image is changed, where** the sizes of the image have not been
wrapped and the copy fits. -/
theorem patch_round_trips {t : PatchTarget} (hc : t.Created) (hf : t.fits) {rect : VxRectangle} {user : ImagepatchAddressing}
    {userPtr : Nat} {result : Option (List PatchMove)} (hin : t.Inside rect) (hcopy : copyFits t.plane rect user)
    (h : t.copyPatch rect user userPtr .writeOnly = .ok result) :
    t.copyPatch rect user userPtr .readOnly = .ok result ∧ ∃ moves, result = some moves ∧ (UserApart moves →
      RoundTrips t.plane rect user userPtr moves ∧ ∀ m a, t.OtherHas a → moves.foldl PatchMove.write m a = m a) := by
  obtain ⟨rfl, hread, hx, hy, ht⟩ := PatchTarget.copyPatch_spec h
  obtain ⟨bytes, P⟩ := PatchTarget.copyPlane hc hf ht
  have hplane : InPlane rect t.plane := ⟨UInt32.lt_iff_toNat_lt.1 hx, UInt32.lt_iff_toNat_lt.1 hy,
    UInt32.le_iff_toNat_le.1 hin.1, UInt32.le_iff_toNat_le.1 hin.2⟩
  refine ⟨hread, _, P.copyMoves_eq hplane hcopy, fun hua => ?_⟩
  have R := P.roundTrips hplane hcopy hua
  refine ⟨R, fun m a ha => R.elsewhere m a (PatchTarget.not_inRows hc hf ht ?_ ha)⟩
  have h1 := hplane.ltX
  have h2 := hplane.leX
  omega

/-- Two by two elements of the chroma plane of an image. -/
def chromaMoves : List PatchMove :=
  [.bytes 311938 0x1000000 2, .bytes 311940 0x1000004 2, .bytes 312578 0x1000010 2, .bytes 312580 0x1000014 2]

/-- Elements that a user has four bytes apart. -/
theorem chroma_round_trips :
    RoundTrips ((vgaPatch .nv12).desc.plane 1) ⟨2, 2, 6, 6⟩ ⟨4, 4, 4, 16, 2, 2⟩ 0x1000000 chromaMoves := by
  have himg : (ImageSource.vxCreateImage 640 480 .nv12 0x1000).image = some (vgaPatch .nv12).desc := rfl
  have F : (vgaPatch .nv12).desc.Fits := (createImage_spec himg).2.2
    ⟨fun h => absurd h (by decide), fun h => absurd h (by decide), by decide⟩
  have hcreated : (PatchTarget.image (vgaPatch .nv12) 1).Created := by
    refine ⟨⟨_, himg⟩, fun p hp hne => ?_⟩
    obtain rfl : p = 0 := by
      have hp' : p < 2 := hp
      omega
    decide
  have hrows : (vgaPatch .nv12).desc.RowsHold := by
    intro p hp
    obtain rfl | rfl : p = 0 ∨ p = 1 := by
      have hp' : p < 2 := hp
      omega
    · exact ⟨by decide, by decide⟩
    · exact ⟨by decide, by decide⟩
  have hua : UserApart chromaMoves := by
    intro mv hmv mv' hmv' a ha ha'
    simp only [chromaMoves, List.mem_cons, List.not_mem_nil, or_false] at hmv hmv'
    rcases hmv with rfl | rfl | rfl | rfl <;> rcases hmv' with rfl | rfl | rfl | rfl <;>
      simp only [PatchMove.UserHas, PatchMove.ImageHas, PatchMove.image, PatchMove.imageBytes] at ha ha' <;> omega
  have hfits : copyFits ((vgaPatch .nv12).desc.plane 1) ⟨2, 2, 6, 6⟩ ⟨4, 4, 4, 16, 2, 2⟩ := by
    unfold copyFits
    rw [if_neg (by decide)]
    exact .inr ⟨.inl rfl, .inl rfl⟩
  have hw : (PatchTarget.image (vgaPatch .nv12) 1).copyPatch ⟨2, 2, 6, 6⟩ ⟨4, 4, 4, 16, 2, 2⟩ 0x1000000 .writeOnly =
      .ok (some chromaMoves) := rfl
  obtain ⟨-, moves, hm, h⟩ := patch_round_trips hcreated ⟨F, hrows⟩ ⟨by decide, by decide⟩ hfits hw
  cases hm
  exact (h hua).1

/-- The second of two packed samples of a user with a half-word for each does not come back. -/
theorem packed_not_round_trips :
    (vgaPatch .p12).vxCopyImagePatch ⟨0, 0, 2, 1⟩ 0 ⟨2, 1, 2, 4, 1, 1⟩ 0x1000000 .writeOnly =
      .ok (some [.pair 0x1000 0x1000000 2]) ∧
      (vgaPatch .p12).vxCopyImagePatch ⟨0, 0, 2, 1⟩ 0 ⟨2, 1, 2, 4, 1, 1⟩ 0x1000000 .readOnly =
        .ok (some [.pair 0x1000 0x1000000 2]) ∧
      UserApart [.pair 0x1000 0x1000000 2] ∧
      ¬ RoundTrips ((vgaPatch .p12).desc.plane 0) ⟨0, 0, 2, 1⟩ ⟨2, 1, 2, 4, 1, 1⟩ 0x1000000 [.pair 0x1000 0x1000000 2] := by
  refine ⟨rfl, rfl, fun mv hmv mv' hmv' a ha ha' => ?_, fun h => ?_⟩
  · cases List.mem_singleton.1 hmv
    cases List.mem_singleton.1 hmv'
    simp only [PatchMove.UserHas, PatchMove.ImageHas, PatchMove.image, PatchMove.imageBytes] at ha ha'
    omega
  · -- the samples 0x000 and 0x100
    have := h.back (fun a => if a = 0x1000003 then 1 else 0) _ (fun _ _ _ _ => rfl) 1 (by decide) 0 (by decide)
    exact absurd this (by decide)

end Tiovx
