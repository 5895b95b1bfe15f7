import Mathlib.Tactic.Common
import Mathlib.Tactic.Ring
import Tiovx.PatchSizes
import Tiovx.RegionAddresses
/-!
# PatchAccess — the bytes that a copy and a map of a patch access (`vx_image.c`)

The copy divides the products of the start of a rectangle and the strides, the map multiplies the quotients; neither compares the
rectangle with the image.  The loops over elements move whole elements, that over compact rows as many bytes as the width has.
-/
namespace Tiovx

namespace PatchMove

def image : PatchMove → Int
  | .bytes image _ _ => image
  | .pair image _ _ => image

/-- The bytes of the image that hold what is moved. -/
def imageBytes : PatchMove → Nat
  | .bytes _ _ len => len
  | .pair .. => 3

/-- The bytes of the image that are accessed: a pair is read with 32 bits. -/
def accessBytes (mv : PatchMove) (usage : AccessUsage) : Nat :=
  match mv with
  | .bytes _ _ len => len
  | .pair .. => if usage = .readOnly then 4 else 3

end PatchMove

/-- These bytes are in the memory of the plane. -/
def ImagePlane.Holds (q : ImagePlane) (a : Int) (len : Nat) : Prop := q.hostPtr ≤ a ∧ a + len ≤ q.hostPtr + q.memSize.toNat

/-- Where the loops of the copy are at the pixel (x, y) of the rectangle. -/
def ImagePlane.copyPixel (q : ImagePlane) (rect : VxRectangle) (x y : UInt32) : Int :=
  q.hostPtr + q.addr.copyOffset rect + q.addr.strideY.toInt * ((y - rect.startY).toNat / q.addr.stepY.toNat : Nat) +
    q.addr.xOffset (x - rect.startX).toNat

/-- The pixel (x, y) is in the rectangle. -/
def VxRectangle.Has (rect : VxRectangle) (x y : UInt32) : Prop :=
  rect.startX ≤ x ∧ x < rect.endX ∧ rect.startY ≤ y ∧ y < rect.endY

/-- The bytes that hold a sample from its address on. -/
def ImagepatchAddressing.sampleBytes (addr : ImagepatchAddressing) : Nat :=
  if addr.strideX = 0 then 2 else addr.strideX.toUInt32.toNat

/-- The copies and the map of a rectangle access the same bytes, all of them in the plane. -/
structure PatchesAgree (I : PatchImage) (rect : VxRectangle) (p : Nat) : Prop where
  same : ∀ usage addr ptr, I.vxMapImagePatch rect p usage = .ok (addr, ptr) → ∀ x y, rect.Has x y →
    (vxFormatImagePatchAddress2d ptr (x - rect.startX) (y - rect.startY) addr : Int) = (I.desc.plane p).copyPixel rect x y
  samples : ∃ columns, loopCount rect.startX rect.endX (I.desc.plane p).addr.elementStep = some columns ∧
    ∀ user : ImagepatchAddressing, user.strideX ≠ (I.desc.plane p).addr.strideX → ∀ line userLine a : Int,
      ((∃ mv ∈ (I.desc.plane p).rowMoves rect (I.desc.plane p).addr columns line userLine,
          mv.image ≤ a ∧ a < mv.image + mv.imageBytes) ↔
        ∃ mv ∈ (I.desc.plane p).rowMoves rect user columns line userLine, mv.image ≤ a ∧ a < mv.image + mv.imageBytes)
  copied : ∀ user userPtr usage result, I.vxCopyImagePatch rect p user userPtr usage = .ok result →
    ∃ moves, result = some moves ∧ ∀ mv ∈ moves, (I.desc.plane p).Holds mv.image (mv.accessBytes usage)
  mapped : ∀ usage addr ptr, I.vxMapImagePatch rect p usage = .ok (addr, ptr) → ∀ x y, x < rect.width → y < rect.height →
    vxFormatImagePatchAddress2d ptr x y addr = 0 ∨
      (I.desc.plane p).Holds (vxFormatImagePatchAddress2d ptr x y addr : Nat) (I.desc.plane p).addr.sampleBytes

/-- The start is in the image, at a multiple of the steps or where a split makes no difference. -/
structure StartFits (d : ImageDesc) (addr : ImagepatchAddressing) (rect : VxRectangle) : Prop where
  inX : rect.startX < d.width
  inY : rect.startY < d.height
  y : addr.stepY = 1 ∨ rect.startY.toNat % 2 = 0 ∨ addr.strideY.toUInt32.toNat ≤ 1
  x : addr.stepX = 1 ∨ if addr.strideX = 0 then rect.startX.toNat % 4 ≠ 3
    else rect.startX.toNat % 2 = 0 ∨ addr.strideX.toUInt32.toNat ≤ 1

/-- The last row the loops take, with one byte more in a packed plane, ends in the plane. -/
def ImagePlane.endFits (q : ImagePlane) (rect : VxRectangle) : Prop :=
  q.addr.offset rect.startX.toNat rect.startY.toNat +
    q.addr.strideY.toUInt32.toNat * ((rect.height.toNat - 1) / q.addr.stepY.toNat) +
    (if q.addr.strideX = 0 then 3 * (rect.width.toNat / q.addr.elementStep.toNat) + 1
      else q.addr.strideX.toUInt32.toNat * (rect.width.toNat / q.addr.elementStep.toNat)) ≤ q.memSize.toNat

/-- The rectangle has whole elements, a packed one pairs of them, which are counted in 32 bits. -/
def ImagepatchAddressing.elementsFit (addr : ImagepatchAddressing) (rect : VxRectangle) : Prop :=
  addr.rowFits rect ∧ rect.width.toNat % addr.elementStep.toNat = 0

/-! ### Where the start is the same -/

namespace PlaneFits

variable {q : ImagePlane} {bytes : Nat} {rect : VxRectangle}

/-- Two rows or more, where the rows are half as many. -/
theorem strideY_lt (h : PlaneFits q bytes) (h2 : q.addr.stepY.toNat = 2) {y : Nat} (hy : y < q.addr.dimY.toNat) :
    q.addr.strideY.toUInt32.toNat < 2 ^ 31 := by
  have hw := h.whole
  have hs := h.stride
  rw [h2] at hw
  have : q.addr.strideY.toUInt32.toNat * 2 ≤ q.addr.strideY.toUInt32.toNat * q.addr.dimY.toNat := Nat.mul_le_mul_left _ (by omega)
  omega

/-- Products that are divided, of a start in the plane. -/
theorem half_eq_iff {A B sx sy : Nat} (hA : A < 2 ^ 31) (hB : B < 2 ^ 32) (hy : sy * A < 2 ^ 32) (hx : B * (sx / 2) < A) :
    (sy * A % 2 ^ 32 / 2 + sx * B % 2 ^ 32 / 2) % 2 ^ 32 = A * (sy / 2) + B * (sx / 2) ↔
      (sy % 2 = 0 ∨ A ≤ 1) ∧ (sx % 2 = 0 ∨ B ≤ 1) := by
  have hsy : sy * A = 2 * (A * (sy / 2)) + sy % 2 * A := by
    conv_lhs => rw [← Nat.div_add_mod sy 2]
    ring
  have hsx : sx * B = 2 * (B * (sx / 2)) + sx % 2 * B := by
    conv_lhs => rw [← Nat.div_add_mod sx 2]
    ring
  -- an element at an odd coordinate beyond the first is not wider than a row
  have hBA : sx / 2 = 0 ∨ B ≤ B * (sx / 2) := by
    rcases Nat.eq_zero_or_pos (sx / 2) with h0 | h0
    · exact .inl h0
    · exact .inr (Nat.le_mul_of_pos_right _ h0)
  have hX0 : sx / 2 = 0 → B * (sx / 2) = 0 := fun h0 => by rw [h0, Nat.mul_zero]
  rw [Nat.mod_eq_of_lt hy]
  rw [hsy] at hy ⊢
  rw [hsx]
  generalize A * (sy / 2) = Y at *
  generalize B * (sx / 2) = X at *
  have hlt : (2 * Y + sy % 2 * A) / 2 < 2 ^ 31 := by omega
  rcases Nat.mod_two_eq_zero_or_one sx with h2 | h2
  · rw [h2, Nat.zero_mul, Nat.add_zero, Nat.mod_eq_of_lt (a := 2 * X) (by omega), Nat.mul_div_cancel_left _ (by decide),
      Nat.mod_eq_of_lt (by omega)]
    rcases Nat.mod_two_eq_zero_or_one sy with h1 | h1 <;> rw [h1] <;> omega
  · rw [h2, Nat.one_mul]
    by_cases hw : 2 * X + B < 2 ^ 32
    · rw [Nat.mod_eq_of_lt hw, Nat.mod_eq_of_lt (by omega)]
      rcases Nat.mod_two_eq_zero_or_one sy with h1 | h1 <;> rw [h1] <;> omega
    · -- then the place has wrapped around, which a split row does not make up for
      have hmod : (2 * X + B) % 2 ^ 32 = 2 * X + B - 2 ^ 32 := by
        rw [Nat.mod_eq_sub_mod (by omega)]
        exact Nat.mod_eq_of_lt (by omega)
      rw [hmod, Nat.mod_eq_of_lt (by omega)]
      rcases Nat.mod_two_eq_zero_or_one sy with h1 | h1 <;> rw [h1] at hy ⊢ <;> omega

/-- The copy starts at the offset of unbounded arithmetic exactly where a split makes no difference. -/
theorem copyOffset_eq_iff (h : PlaneFits q bytes) (hx : rect.startX.toNat < q.addr.dimX.toNat)
    (hy : rect.startY.toNat < q.addr.dimY.toNat) :
    q.addr.copyOffset rect = q.addr.offset rect.startX.toNat rect.startY.toNat ↔
      (q.addr.stepY = 1 ∨ rect.startY.toNat % 2 = 0 ∨ q.addr.strideY.toUInt32.toNat ≤ 1) ∧
      (q.addr.stepX = 1 ∨ if q.addr.strideX = 0 then rect.startX.toNat % 4 ≠ 3
        else rect.startX.toNat % 2 = 0 ∨ q.addr.strideX.toUInt32.toNat ≤ 1) := by
  have hle := h.offset_le hx hy
  have hlt := h.size_lt
  have hrow := h.xOffset_le hx
  have hpos := h.bytes_pos
  have hsy : rect.startY.toNat * q.addr.strideY.toUInt32.toNat < 2 ^ 32 := by
    have := Nat.mul_le_mul_left q.addr.strideY.toUInt32.toNat (Nat.le_of_lt hy)
    rw [Nat.mul_comm]
    exact Nat.lt_of_le_of_lt this h.stride
  have hY1 : q.addr.stepY = 1 ↔ q.addr.stepY.toNat = 1 := ⟨fun h => by rw [h]; rfl, fun h => UInt32.toNat_inj.1 h⟩
  have hX1 : q.addr.stepX = 1 ↔ q.addr.stepX.toNat = 1 := ⟨fun h => by rw [h]; rfl, fun h => UInt32.toNat_inj.1 h⟩
  rw [hY1, hX1]
  simp only [ImagepatchAddressing.copyOffset, ImagepatchAddressing.offset, ImagepatchAddressing.xOffset] at hle hrow ⊢
  by_cases h0 : q.addr.strideX = 0
  · simp only [h0, if_true] at hle hrow ⊢
    rcases h.step_cases with ⟨h1, h2⟩ | ⟨h1, h2⟩
    · rw [h1, h2, Nat.div_one, Nat.div_one, Nat.div_one, Nat.div_one, Nat.mul_comm rect.startY.toNat,
        Nat.mul_comm rect.startX.toNat]
      simp
    · have hA : rect.startY.toNat * q.addr.strideY.toUInt32.toNat = 2 * (q.addr.strideY.toUInt32.toNat * (rect.startY.toNat / 2)) +
          rect.startY.toNat % 2 * q.addr.strideY.toUInt32.toNat := by
        conv_lhs => rw [← Nat.div_add_mod rect.startY.toNat 2]
        ring
      have hB : rect.startX.toNat * 12 / 8 / 2 =
          12 * (rect.startX.toNat / 2) / 8 + if rect.startX.toNat % 4 = 3 then 1 else 0 := by
        clear hle hrow hA hlt hsy
        have h4 : rect.startX.toNat = 4 * (rect.startX.toNat / 4) + rect.startX.toNat % 4 := (Nat.div_add_mod _ 4).symm
        generalize rect.startX.toNat / 4 = k at h4
        have hr : rect.startX.toNat % 4 = 0 ∨ rect.startX.toNat % 4 = 1 ∨ rect.startX.toNat % 4 = 2 ∨
            rect.startX.toNat % 4 = 3 := by omega
        rcases hr with hr | hr | hr | hr <;> rw [hr] at h4 ⊢ <;> rw [h4] <;> simp <;> omega
      rw [h1, h2, hA, hB]
      clear hle hrow hA hB hsy
      generalize q.addr.strideY.toUInt32.toNat * (rect.startY.toNat / 2) = Y
      generalize 12 * (rect.startX.toNat / 2) / 8 = X
      rcases Nat.mod_two_eq_zero_or_one rect.startY.toNat with hm | hm <;> rw [hm] <;> split <;> omega
  · simp only [h0, if_false, UInt32.toNat_add, UInt32.toNat_div, UInt32.toNat_mul] at hle hrow ⊢
    rcases h.step_cases with ⟨h1, h2⟩ | ⟨h1, h2⟩
    · rw [h2, Nat.div_one] at hlt
      rw [h1, h2, Nat.div_one, Nat.div_one, Nat.div_one] at hle
      rw [h1, Nat.div_one] at hrow
      rw [h1, h2, Nat.div_one, Nat.div_one, Nat.div_one, Nat.div_one, Nat.mod_eq_of_lt hsy, Nat.mul_comm rect.startY.toNat,
        Nat.mul_comm rect.startX.toNat, Nat.mod_eq_of_lt (a := q.addr.strideX.toUInt32.toNat * _) (by omega),
        Nat.mod_eq_of_lt (by omega)]
      simp
    · rw [h1] at hrow
      rw [h1, h2, half_eq_iff (h.strideY_lt h2 hy) q.addr.strideX.toUInt32.toNat_lt hsy (by omega)]
      simp

end PlaneFits

/-! ### The bytes of a row -/

/-- The bytes that an element moves. -/
def ImagepatchAddressing.elementMoves (addr : ImagepatchAddressing) : Nat :=
  if addr.strideX = 0 then 3 else addr.strideX.toUInt32.toNat

section Rows

variable {q : ImagePlane} {rect : VxRectangle} {user : ImagepatchAddressing} {line userLine : Int}

theorem compact_row (hu : user.strideX = q.addr.strideX) (columns : Nat) :
    q.rowMoves rect user columns line userLine = [.bytes line userLine (q.addr.compactLen rect).toNat] := by
  simp only [ImagePlane.rowMoves, hu, if_true]

/-- Each element of a row that is not compact is moved from or to its place. -/
theorem mem_element_row (hu : user.strideX ≠ q.addr.strideX) {columns : Nat} {mv : PatchMove}
    (h : mv ∈ q.rowMoves rect user columns line userLine) :
    ∃ k < columns, mv.image = line + (q.addr.elementMoves * k : Nat) ∧ mv.imageBytes = q.addr.elementMoves ∧
      ∀ usage, mv.accessBytes usage ≤ q.addr.elementMoves + if q.addr.strideX = 0 then 1 else 0 := by
  simp only [ImagePlane.rowMoves, hu, if_false] at h
  unfold ImagepatchAddressing.elementMoves
  split at h
  · rename_i h0
    obtain ⟨k, hk, rfl⟩ := List.mem_map.1 h
    refine ⟨k, List.mem_range.1 hk, by rw [if_pos h0]; push_cast; rfl, by rw [if_pos h0]; rfl, fun usage => ?_⟩
    rw [if_pos h0, if_pos h0]
    simp only [PatchMove.accessBytes]
    split <;> omega
  · rename_i h0
    obtain ⟨k, hk, rfl⟩ := List.mem_map.1 h
    refine ⟨k, List.mem_range.1 hk, by rw [if_neg h0]; push_cast; rfl, by rw [if_neg h0]; rfl, fun usage => ?_⟩
    rw [if_neg h0, if_neg h0]
    exact Nat.le_refl _

theorem element_row_mem (rect : VxRectangle) (line userLine : Int) (hu : user.strideX ≠ q.addr.strideX) {columns k : Nat}
    (hk : k < columns) :
    ∃ mv ∈ q.rowMoves rect user columns line userLine, mv.image = line + (q.addr.elementMoves * k : Nat) ∧
      mv.imageBytes = q.addr.elementMoves ∧
      mv.accessBytes .readOnly = q.addr.elementMoves + if q.addr.strideX = 0 then 1 else 0 := by
  simp only [ImagePlane.rowMoves, hu, if_false, ImagepatchAddressing.elementMoves]
  by_cases h0 : q.addr.strideX = 0
  · simp only [h0, if_true]
    exact ⟨_, List.mem_map_of_mem (List.mem_range.2 hk), by simp [PatchMove.image], rfl, rfl⟩
  · simp only [h0, if_false]
    exact ⟨_, List.mem_map_of_mem (List.mem_range.2 hk), by simp [PatchMove.image], rfl, rfl⟩

/-- The elements of a row follow each other. -/
theorem element_row_bytes (hu : user.strideX ≠ q.addr.strideX) (columns : Nat) (a : Int) :
    (∃ mv ∈ q.rowMoves rect user columns line userLine, mv.image ≤ a ∧ a < mv.image + mv.imageBytes) ↔
      line ≤ a ∧ a < line + (q.addr.elementMoves * columns : Nat) := by
  have hmul : ∀ k, k < columns → q.addr.elementMoves * k + q.addr.elementMoves ≤ q.addr.elementMoves * columns := by
    intro k hk
    rw [← Nat.mul_succ]
    exact Nat.mul_le_mul_left _ hk
  constructor
  · rintro ⟨mv, hmv, h1, h2⟩
    obtain ⟨k, hk, h3, h4, -⟩ := mem_element_row hu hmv
    have := hmul k hk
    rw [h3, h4] at h2
    rw [h3] at h1
    omega
  · rintro ⟨h1, h2⟩
    obtain ⟨b, rfl⟩ : ∃ b : Nat, a = line + b := ⟨(a - line).toNat, by omega⟩
    have hb : b < q.addr.elementMoves * columns := by omega
    have hpos : 0 < q.addr.elementMoves := Nat.pos_of_mul_pos_right (Nat.zero_lt_of_lt hb)
    have hk : b / q.addr.elementMoves < columns := Nat.div_lt_of_lt_mul hb
    obtain ⟨mv, hmv, h3, h4, -⟩ := element_row_mem rect line userLine hu hk
    refine ⟨mv, hmv, ?_⟩
    have hdm := Nat.div_add_mod b q.addr.elementMoves
    have hlt := Nat.mod_lt b hpos
    rw [h3, h4]
    omega

/-- Both copies of a row have the same samples exactly where they have as many bytes. -/
theorem samples_iff (columns : Nat) :
    (∀ user : ImagepatchAddressing, user.strideX ≠ q.addr.strideX → ∀ line userLine a : Int,
      ((∃ mv ∈ q.rowMoves rect q.addr columns line userLine, mv.image ≤ a ∧ a < mv.image + mv.imageBytes) ↔
        ∃ mv ∈ q.rowMoves rect user columns line userLine, mv.image ≤ a ∧ a < mv.image + mv.imageBytes)) ↔
      (q.addr.compactLen rect).toNat = q.addr.elementMoves * columns := by
  have hcompact : ∀ line userLine a : Int,
      (∃ mv ∈ q.rowMoves rect q.addr columns line userLine, mv.image ≤ a ∧ a < mv.image + mv.imageBytes) ↔
        line ≤ a ∧ a < line + (q.addr.compactLen rect).toNat := by
    intro line userLine a
    rw [compact_row rfl]
    simp [PatchMove.image, PatchMove.imageBytes]
  constructor
  · intro h
    obtain ⟨s, hs⟩ : ∃ s : Int32, s ≠ q.addr.strideX :=
      if h1 : q.addr.strideX = 1 then ⟨2, by rw [h1]; decide⟩ else ⟨1, fun h2 => h1 h2.symm⟩
    have h1 := fun a => (hcompact 0 0 a).symm.trans ((h { q.addr with strideX := s } hs 0 0 a).trans
      (element_row_bytes hs columns a))
    have h2 := h1 (q.addr.compactLen rect).toNat
    have h3 := h1 (q.addr.elementMoves * columns : Nat)
    omega
  · intro h user hu line userLine a
    rw [hcompact, element_row_bytes hu, h]

end Rows

/-- The compact row has as many bytes as its elements exactly where the elements are whole. -/
theorem compactLen_eq_iff {addr : ImagepatchAddressing} {rect : VxRectangle} (hstep : addr.stepX = 1 ∨ addr.stepX = 2)
    (hw : 0 < rect.width.toNat) :
    (addr.compactLen rect).toNat =
        addr.elementMoves * ((rect.width.toNat + (addr.elementStep.toNat - 1)) / addr.elementStep.toNat) ↔
      addr.elementsFit rect := by
  have hlt := rect.width.toNat_lt
  unfold ImagepatchAddressing.elementsFit
  by_cases hrow : addr.rowFits rect
  · rw [compactLen_toNat hrow]
    simp only [hrow, true_and, ImagepatchAddressing.elementMoves, ImagepatchAddressing.elementStep]
    by_cases h0 : addr.strideX = 0
    · simp only [h0, if_true]
      rcases hstep with h1 | h1
      · rw [h1, show (1 * 2 : UInt32).toNat = 2 from rfl, show UInt32.toNat 1 = 1 from rfl]
        omega
      · rw [h1, show (2 * 2 : UInt32).toNat = 4 from rfl, show UInt32.toNat 2 = 2 from rfl]
        obtain ⟨k, hk⟩ : ∃ k, rect.width.toNat = 4 * k ∨ rect.width.toNat = 4 * k + 1 ∨ rect.width.toNat = 4 * k + 2 ∨
            rect.width.toNat = 4 * k + 3 := ⟨rect.width.toNat / 4, by omega⟩
        rcases hk with hk | hk | hk | hk <;> rw [hk] <;> omega
    · have hpos := ImagepatchAddressing.strideX_pos h0
      simp only [h0, if_false]
      rcases hstep with h1 | h1
      · rw [h1, show UInt32.toNat 1 = 1 from rfl, Nat.sub_self, Nat.add_zero, Nat.div_one, Nat.div_one, Nat.mul_comm, Nat.mod_one]
        exact ⟨fun _ => rfl, fun _ => rfl⟩
      · rw [h1, show UInt32.toNat 2 = 2 from rfl]
        rcases Nat.mod_two_eq_zero_or_one rect.width.toNat with hm | hm
        · refine ⟨fun _ => hm, fun _ => ?_⟩
          have hd : (rect.width.toNat + (2 - 1)) / 2 = rect.width.toNat / 2 := by omega
          have hw2 : rect.width.toNat = 2 * (rect.width.toNat / 2) := by omega
          rw [hd]
          conv_lhs => rw [hw2]
          rw [Nat.mul_assoc, Nat.mul_div_cancel_left _ (by decide), Nat.mul_comm]
        · -- the compact row lacks a half of the last element
          refine ⟨fun h => ?_, fun h => absurd h (by omega)⟩
          have hd : 2 * ((rect.width.toNat + (2 - 1)) / 2) = rect.width.toNat + 1 := by omega
          have h2 : 2 * (addr.strideX.toUInt32.toNat * ((rect.width.toNat + (2 - 1)) / 2)) =
              rect.width.toNat * addr.strideX.toUInt32.toNat + addr.strideX.toUInt32.toNat := by
            rw [Nat.mul_left_comm, hd, Nat.mul_succ, Nat.mul_comm rect.width.toNat]
          omega
  · -- a length that wraps around is too short
    simp only [hrow, false_and, iff_false]
    simp only [ImagepatchAddressing.rowFits, ImagepatchAddressing.compactLen, ImagepatchAddressing.elementMoves,
      ImagepatchAddressing.elementStep] at hrow ⊢
    by_cases h0 : addr.strideX = 0
    · simp only [h0, if_true] at hrow ⊢
      simp only [UInt32.toNat_div, UInt32.toNat_add, UInt32.toNat_mul, UInt32.reduceToNat]
      rcases hstep with h1 | h1
      · rw [h1, show UInt32.toNat 1 * 2 % 2 ^ 32 = 2 from rfl, show UInt32.toNat 1 = 1 from rfl]
        omega
      · rw [h1, show UInt32.toNat 2 * 2 % 2 ^ 32 = 4 from rfl, show UInt32.toNat 2 = 2 from rfl]
        omega
    · simp only [h0, if_false, UInt32.toNat_div, UInt32.toNat_mul] at hrow ⊢
      have hmod := Nat.mod_lt (rect.width.toNat * addr.strideX.toUInt32.toNat) (y := 2 ^ 32) (by decide)
      rcases hstep with h1 | h1
      · rw [h1, show UInt32.toNat 1 = 1 from rfl, Nat.sub_self, Nat.add_zero, Nat.div_one, Nat.div_one,
          Nat.mul_comm addr.strideX.toUInt32.toNat]
        omega
      · rw [h1, show UInt32.toNat 2 = 2 from rfl]
        have hd : rect.width.toNat ≤ 2 * ((rect.width.toNat + (2 - 1)) / 2) := by omega
        have h2 : rect.width.toNat * addr.strideX.toUInt32.toNat ≤
            2 * (addr.strideX.toUInt32.toNat * ((rect.width.toNat + (2 - 1)) / 2)) := by
          rw [Nat.mul_left_comm, Nat.mul_comm rect.width.toNat]
          exact Nat.mul_le_mul_left _ hd
        omega

/-! ### Rows and elements inside the plane -/

section Ends

variable {q : ImagePlane} {bytes : Nat} {rect : VxRectangle}

theorem elementStep_toNat (h : PlaneFits q bytes) :
    q.addr.elementStep.toNat = if q.addr.strideX = 0 then 2 * q.addr.stepX.toNat else q.addr.stepX.toNat := by
  simp only [ImagepatchAddressing.elementStep]
  rcases h.stepX with h1 | h1 <;> rw [h1] <;> split <;> rfl

/-- A sample ends before the elements of its row do. -/
theorem sample_le (h : PlaneFits q bytes) (hw : rect.width.toNat % q.addr.elementStep.toNat = 0) {x : Nat}
    (hx : x < rect.width.toNat) :
    q.addr.xOffset x + q.addr.sampleBytes ≤ q.addr.elementMoves * (rect.width.toNat / q.addr.elementStep.toNat) := by
  rw [elementStep_toNat h] at hw ⊢
  simp only [ImagepatchAddressing.xOffset, ImagepatchAddressing.sampleBytes, ImagepatchAddressing.elementMoves]
  by_cases h0 : q.addr.strideX = 0
  · simp only [h0, if_true] at hw ⊢
    rcases h.step_cases with ⟨h1, -⟩ | ⟨h1, -⟩ <;> rw [h1] at hw ⊢ <;> omega
  · simp only [h0, if_false] at hw ⊢
    have hlt : x / q.addr.stepX.toNat + 1 ≤ rect.width.toNat / q.addr.stepX.toNat := by
      rcases h.step_cases with ⟨h1, -⟩ | ⟨h1, -⟩ <;> rw [h1] at hw ⊢ <;> omega
    rw [← Nat.mul_succ]
    exact Nat.mul_le_mul_left _ hlt

/-- The rows of a rectangle whose end fits are rows of the plane. -/
theorem rows_lt (h : PlaneFits q bytes) (he : q.endFits rect) (hw : 0 < rect.width.toNat)
    (hs : rect.width.toNat % q.addr.elementStep.toNat = 0) :
    rect.startY.toNat / q.addr.stepY.toNat + (rect.height.toNat - 1) / q.addr.stepY.toNat <
      q.addr.dimY.toNat / q.addr.stepY.toNat := by
  have hle := sample_le h hs hw
  have hpos : 0 < q.addr.sampleBytes := by
    unfold ImagepatchAddressing.sampleBytes
    split
    · decide
    · rename_i h0
      exact ImagepatchAddressing.strideX_pos h0
  unfold ImagePlane.endFits at he
  unfold ImagepatchAddressing.elementMoves at hle
  rw [h.size, ImagepatchAddressing.offset] at he
  by_contra hc
  have h1 := Nat.mul_le_mul_left q.addr.strideY.toUInt32.toNat (Nat.le_of_not_lt hc)
  rw [Nat.mul_add] at h1
  split at hle <;> rename_i h0 <;> simp only [h0, if_true, if_false] at he <;> omega

/-- The signed stride counts the rows of a plane as the unsigned one. -/
theorem strideY_mul (h : PlaneFits q bytes) {r : Nat} (hr : r < q.addr.dimY.toNat / q.addr.stepY.toNat) :
    q.addr.strideY.toInt * (r : Int) = (q.addr.strideY.toUInt32.toNat * r : Nat) := by
  rcases Nat.eq_zero_or_pos r with rfl | h0
  · rw [Nat.mul_zero, Int.natCast_zero, Int.mul_zero]
  · have hd : 2 ≤ q.addr.dimY.toNat := Nat.le_trans (by omega) (Nat.div_le_self _ q.addr.stepY.toNat)
    have hs := h.stride
    have h2 := Nat.mul_le_mul_left q.addr.strideY.toUInt32.toNat hd
    have h3 : q.addr.strideY.toInt = q.addr.strideY.toUInt32.toNat := by
      rw [int32_toInt_eq]
      exact Int.bmod_eq_of_le (by omega) (by omega)
    rw [h3, Int.natCast_mul]

/-- A sample of the rectangle ends in the plane. -/
theorem sample_end_le (h : PlaneFits q bytes) (he : q.endFits rect)
    (hs : rect.width.toNat % q.addr.elementStep.toNat = 0) {x y : Nat} (hx : x < rect.width.toNat) (hy : y < rect.height.toNat) :
    q.addr.offset rect.startX.toNat rect.startY.toNat + q.addr.offset x y + q.addr.sampleBytes ≤ q.memSize.toNat := by
  have h1 := sample_le h hs hx
  have h2 : q.addr.strideY.toUInt32.toNat * (y / q.addr.stepY.toNat) ≤
      q.addr.strideY.toUInt32.toNat * ((rect.height.toNat - 1) / q.addr.stepY.toNat) :=
    Nat.mul_le_mul_left _ (Nat.div_le_div_right (by omega))
  unfold ImagePlane.endFits at he
  unfold ImagepatchAddressing.elementMoves at h1
  rw [ImagepatchAddressing.offset.eq_1 q.addr x y]
  split at h1 <;> rename_i h0 <;> simp only [h0, if_true, if_false] at he <;> omega

theorem loopCount_of_lt {start stop step : UInt32} {n : Nat}
    (hn : n = (stop.toNat - start.toNat + (step.toNat - 1)) / step.toNat) (h : start.toNat + n * step.toNat < 2 ^ 32) :
    loopCount start stop step = some n := by
  simp only [loopCount, ← hn]
  exact if_pos h

end Ends

/-! ### The two calls -/

section Calls

variable {I : PatchImage} {rect : VxRectangle} {p : Nat} {usage : AccessUsage}

theorem map_spec {addr : ImagepatchAddressing} {ptr : Nat} (h : I.vxMapImagePatch rect p usage = .ok (addr, ptr)) :
    addr = { (I.desc.plane p).addr with dimX := rect.width, dimY := rect.height } ∧
      ptr = vxFormatImagePatchAddress2d (I.desc.plane p).hostPtr rect.startX rect.startY (I.desc.plane p).addr := by
  simp only [PatchImage.vxMapImagePatch] at h
  cases hc : I.ownCopyAndMapCheckParams rect p usage with
  | error e => rw [hc] at h; cases h
  | ok u =>
    simp only [hc, Except.bind] at h
    split at h
    · cases h
    · split at h
      · cases h
        exact ⟨rfl, rfl⟩
      · cases h

theorem map_accepts (hc : I.ownCopyAndMapCheckParams rect p usage = .ok ()) (hh : (I.desc.plane p).hostPtr ≠ 0)
    (hm : I.hasFreeMap = true) : I.vxMapImagePatch rect p usage = .ok
      ({ (I.desc.plane p).addr with dimX := rect.width, dimY := rect.height },
        vxFormatImagePatchAddress2d (I.desc.plane p).hostPtr rect.startX rect.startY (I.desc.plane p).addr) := by
  simp only [PatchImage.vxMapImagePatch, hc, Except.bind]
  rw [if_neg hh, if_pos hm]

theorem copy_result {user : ImagepatchAddressing} {userPtr : Nat} {result : Option (List PatchMove)}
    (h : I.vxCopyImagePatch rect p user userPtr usage = .ok result) :
    result = (I.desc.plane p).copyMoves rect user userPtr := by
  simp only [PatchImage.vxCopyImagePatch] at h
  split at h
  · cases h
  · cases hc : I.ownCopyAndMapCheckParams rect p usage with
    | error e => rw [hc] at h; cases h
    | ok u =>
      simp only [hc, Except.bind] at h
      split at h
      · cases h
      · exact (Except.ok.inj h).symm

theorem copy_accepts (hc : I.ownCopyAndMapCheckParams rect p .readOnly = .ok ()) {user : ImagepatchAddressing}
    (hu : ¬ (user.strideX < (I.desc.plane p).addr.strideX ∨ ((I.desc.plane p).addr.strideX = 0 ∧ user.strideX = 1))) :
    I.vxCopyImagePatch rect p user 1 .readOnly = .ok ((I.desc.plane p).copyMoves rect user 1) := by
  simp only [PatchImage.vxCopyImagePatch]
  rw [if_neg (by decide), hc]
  simp only [Except.bind]
  rw [if_neg hu]

theorem checkParams_spec (hc : I.ownCopyAndMapCheckParams rect p usage = .ok ()) :
    p < I.desc.planes ∧ rect.startY < rect.endY ∧ rect.startX < rect.endX := by
  simp only [PatchImage.ownCopyAndMapCheckParams] at hc
  split at hc
  · cases hc
  · split at hc
    · cases hc
    · rename_i h
      simp only [not_or, Nat.not_le, UInt32.not_le] at h
      exact h

end Calls

/-- The moves of a copy are those of its rows. -/
theorem mem_copyMoves {q : ImagePlane} {rect : VxRectangle} {user : ImagepatchAddressing} {userPtr : Nat}
    {moves : List PatchMove} (h : q.copyMoves rect user userPtr = some moves) :
    ∃ rows columns, loopCount rect.startY rect.endY q.addr.stepY = some rows ∧
      (user.strideX = q.addr.strideX ∨ loopCount rect.startX rect.endX q.addr.elementStep = some columns) ∧
      ∀ mv, mv ∈ moves ↔ ∃ r < rows, mv ∈ q.rowMoves rect user columns
        (q.hostPtr + q.addr.copyOffset rect + q.addr.strideY.toInt * r) (userPtr + user.strideY.toInt * r) := by
  obtain ⟨rows, hrows, h⟩ := Option.bind_eq_some_iff.1 h
  obtain ⟨columns, hcols, h⟩ := Option.map_eq_some_iff.1 h
  refine ⟨rows, columns, hrows, ?_, fun mv => ?_⟩
  · split at hcols
    · rename_i hu
      exact .inl hu
    · exact .inr hcols
  · rw [← h, List.mem_flatMap]
    simp only [List.mem_range]

section Agree

variable {I : PatchImage} {rect : VxRectangle} {p bytes : Nat}

theorem copyMoves_isSome {q : ImagePlane} (h : PlaneFits q bytes) (hx : rect.startX < rect.endX) (hy : rect.startY < rect.endY)
    (hf : q.addr.elementsFit rect) (he : q.endFits rect) (user : ImagepatchAddressing) (userPtr : Nat) :
    ∃ moves, q.copyMoves rect user userPtr = some moves ∧ ∀ mv ∈ moves,
      ∃ r ≤ (rect.height.toNat - 1) / q.addr.stepY.toNat, mv ∈ q.rowMoves rect user
        (rect.width.toNat / q.addr.elementStep.toNat)
        (q.hostPtr + q.addr.copyOffset rect + q.addr.strideY.toInt * r) (userPtr + user.strideY.toInt * r) := by
  have hwd : rect.endX.toNat - rect.startX.toNat = rect.width.toNat := (UInt32.toNat_sub_of_le _ _ (UInt32.le_of_lt hx)).symm
  have hhd : rect.endY.toNat - rect.startY.toNat = rect.height.toNat := (UInt32.toNat_sub_of_le _ _ (UInt32.le_of_lt hy)).symm
  have hx' := UInt32.lt_iff_toNat_lt.1 hx
  have hy' := UInt32.lt_iff_toNat_lt.1 hy
  have hrows := rows_lt h he (by omega) hf.2
  have hs := elementStep_toNat h
  have hw := hf.2
  have hwhole := h.whole
  have hey := rect.endY.toNat_lt
  have hex := rect.endX.toNat_lt
  have hdy := q.addr.dimY.toNat_lt
  have hcols : loopCount rect.startX rect.endX q.addr.elementStep = some (rect.width.toNat / q.addr.elementStep.toNat) := by
    refine loopCount_of_lt ?_ ?_ <;> rw [hs] at hw ⊢ <;> rcases h.step_cases with ⟨h1, -⟩ | ⟨h1, -⟩ <;> rw [h1] at hw ⊢ <;>
      split at hw <;> rename_i h0 <;> simp only [h0, if_true, if_false] <;> omega
  have hr : loopCount rect.startY rect.endY q.addr.stepY = some ((rect.height.toNat - 1) / q.addr.stepY.toNat + 1) := by
    refine loopCount_of_lt ?_ ?_ <;> rcases h.step_cases with ⟨-, h2⟩ | ⟨-, h2⟩ <;> rw [h2] at hrows hwhole ⊢ <;> omega
  obtain ⟨moves, hm⟩ : ∃ moves, q.copyMoves rect user userPtr = some moves := by
    simp only [ImagePlane.copyMoves, hr, hcols, Option.bind_some]
    split <;> exact ⟨_, rfl⟩
  obtain ⟨rows, columns, hrows', hcols', hmem⟩ := mem_copyMoves hm
  cases hr.symm.trans hrows'
  refine ⟨moves, hm, fun mv hmv => ?_⟩
  obtain ⟨r, hlt, hmv⟩ := (hmem mv).1 hmv
  refine ⟨r, by omega, ?_⟩
  rcases hcols' with hu | hc
  · rw [compact_row hu] at hmv ⊢
    exact hmv
  · cases hcols.symm.trans hc
    exact hmv

/-- The copies and the map agree where the start, the elements and the end fit. -/
theorem agree_of_fits (S : ImageShape I.desc) (h : PlaneFits (I.desc.plane p) bytes)
    (hc : I.ownCopyAndMapCheckParams rect p .readOnly = .ok ()) (hh : (I.desc.plane p).hostPtr ≠ 0)
    (hs : StartFits I.desc (I.desc.plane p).addr rect) (hf : (I.desc.plane p).addr.elementsFit rect)
    (he : (I.desc.plane p).endFits rect) : PatchesAgree I rect p := by
  obtain ⟨-, hy, hx⟩ := checkParams_spec hc
  have hwd : rect.endX.toNat - rect.startX.toNat = rect.width.toNat := (UInt32.toNat_sub_of_le _ _ (UInt32.le_of_lt hx)).symm
  have hhd : rect.endY.toNat - rect.startY.toNat = rect.height.toNat := (UInt32.toNat_sub_of_le _ _ (UInt32.le_of_lt hy)).symm
  have hx' := UInt32.lt_iff_toNat_lt.1 hx
  have hy' := UInt32.lt_iff_toNat_lt.1 hy
  have hinX : rect.startX.toNat < (I.desc.plane p).addr.dimX.toNat := by rw [S.dimX]; exact UInt32.lt_iff_toNat_lt.1 hs.inX
  have hinY : rect.startY.toNat < (I.desc.plane p).addr.dimY.toNat := by rw [S.dimY]; exact UInt32.lt_iff_toNat_lt.1 hs.inY
  have hrows := rows_lt h he (by omega) hf.2
  have hstart := (h.copyOffset_eq_iff hinX hinY).2 ⟨hs.y, hs.x⟩
  have hsize := h.size_lt
  rw [← h.size] at hsize
  have hptr : vxFormatImagePatchAddress2d (I.desc.plane p).hostPtr rect.startX rect.startY (I.desc.plane p).addr =
      (I.desc.plane p).hostPtr + (I.desc.plane p).addr.offset rect.startX.toNat rect.startY.toNat := by
    rw [vxFormatImagePatchAddress2d, if_pos ⟨hh, UInt32.lt_iff_toNat_lt.2 hinX, UInt32.lt_iff_toNat_lt.2 hinY⟩,
      h.laidOut.offset _ _ (UInt32.lt_iff_toNat_lt.2 hinX) (UInt32.lt_iff_toNat_lt.2 hinY)]
  -- the address that the user computes has no more than 32 bits
  have hpix : ∀ {x y : UInt32}, x < rect.width → y < rect.height →
      vxFormatImagePatchAddress2d ((I.desc.plane p).hostPtr +
          (I.desc.plane p).addr.offset rect.startX.toNat rect.startY.toNat) x y
        { (I.desc.plane p).addr with dimX := rect.width, dimY := rect.height } =
        (I.desc.plane p).hostPtr + (I.desc.plane p).addr.offset rect.startX.toNat rect.startY.toNat +
          (I.desc.plane p).addr.offset x.toNat y.toNat := by
    intro x y hxw hyh
    have hend := sample_end_le h he hf.2 (UInt32.lt_iff_toNat_lt.1 hxw) (UInt32.lt_iff_toNat_lt.1 hyh)
    rw [vxFormatImagePatchAddress2d, if_pos ⟨by omega, hxw, hyh⟩]
    refine congrArg _ (ImagepatchAddressing.ownComputePatchOffset_toNat (fun h0 => ?_) (by
      show (I.desc.plane p).addr.offset x.toNat y.toNat < 2 ^ 32
      omega))
    have hrow := hf.1
    rw [ImagepatchAddressing.rowFits, if_pos h0] at hrow
    have := UInt32.lt_iff_toNat_lt.1 hxw
    have := Nat.div_le_self x.toNat (I.desc.plane p).addr.stepX.toNat
    show 12 * (x.toNat / (I.desc.plane p).addr.stepX.toNat) < 2 ^ 32
    omega
  have hlen : ((I.desc.plane p).addr.compactLen rect).toNat =
      (I.desc.plane p).addr.elementMoves * (rect.width.toNat / (I.desc.plane p).addr.elementStep.toNat) := by
    rw [(compactLen_eq_iff h.stepX (by omega)).2 hf]
    have hs := elementStep_toNat h
    have hw := hf.2
    refine congrArg _ ?_
    rcases h.step_cases with ⟨h1, -⟩ | ⟨h1, -⟩ <;> rw [h1] at hs <;> split at hs <;> rw [hs] at hw ⊢ <;> omega
  refine ⟨?_, ?_, ?_, ?_⟩
  · intro usage addr ptr hmap x y hxy
    obtain ⟨rfl, rfl⟩ := map_spec hmap
    obtain ⟨h1, h2, h3, h4⟩ := hxy
    have hxw : x - rect.startX < rect.width := UInt32.lt_iff_toNat_lt.2 (by
      rw [UInt32.toNat_sub_of_le _ _ h1, ← hwd]
      have := UInt32.lt_iff_toNat_lt.1 h2
      have := UInt32.le_iff_toNat_le.1 h1
      omega)
    have hyh : y - rect.startY < rect.height := UInt32.lt_iff_toNat_lt.2 (by
      rw [UInt32.toNat_sub_of_le _ _ h3, ← hhd]
      have := UInt32.lt_iff_toNat_lt.1 h4
      have := UInt32.le_iff_toNat_le.1 h3
      omega)
    have hrow : (y - rect.startY).toNat / (I.desc.plane p).addr.stepY.toNat <
        (I.desc.plane p).addr.dimY.toNat / (I.desc.plane p).addr.stepY.toNat := by
      have : (y - rect.startY).toNat / (I.desc.plane p).addr.stepY.toNat ≤
          (rect.height.toNat - 1) / (I.desc.plane p).addr.stepY.toNat :=
        Nat.div_le_div_right (by have := UInt32.lt_iff_toNat_lt.1 hyh; omega)
      exact Nat.lt_of_le_of_lt this (Nat.lt_of_le_of_lt (Nat.le_add_left _ _) hrows)
    rw [hptr, hpix hxw hyh, ImagePlane.copyPixel, hstart, strideY_mul h hrow, ImagepatchAddressing.offset.eq_1 _ (x - _).toNat]
    omega
  · refine ⟨rect.width.toNat / (I.desc.plane p).addr.elementStep.toNat, ?_, ?_⟩
    · have hs := elementStep_toNat h
      have hw := hf.2
      have hex := rect.endX.toNat_lt
      refine loopCount_of_lt ?_ ?_ <;> rw [hs] at hw ⊢ <;> rcases h.step_cases with ⟨h1, -⟩ | ⟨h1, -⟩ <;> rw [h1] at hw ⊢ <;>
        split at hw <;> rename_i h0 <;> simp only [h0, if_true, if_false] <;> omega
    · rw [samples_iff]
      exact hlen
  · intro user userPtr usage result hcopy
    rw [copy_result hcopy]
    obtain ⟨moves, hm, hmem⟩ := copyMoves_isSome h hx hy hf he user userPtr
    refine ⟨moves, hm, fun mv hmv => ?_⟩
    obtain ⟨r, hr, hmv⟩ := hmem mv hmv
    have hmul : (I.desc.plane p).addr.strideY.toUInt32.toNat * r ≤
        (I.desc.plane p).addr.strideY.toUInt32.toNat * ((rect.height.toNat - 1) / (I.desc.plane p).addr.stepY.toNat) :=
      Nat.mul_le_mul_left _ hr
    have hr' : r < (I.desc.plane p).addr.dimY.toNat / (I.desc.plane p).addr.stepY.toNat :=
      Nat.lt_of_le_of_lt hr (Nat.lt_of_le_of_lt (Nat.le_add_left _ _) hrows)
    rw [hstart, strideY_mul h hr'] at hmv
    have hend : (I.desc.plane p).addr.offset rect.startX.toNat rect.startY.toNat +
        (I.desc.plane p).addr.strideY.toUInt32.toNat * ((rect.height.toNat - 1) / (I.desc.plane p).addr.stepY.toNat) +
        ((I.desc.plane p).addr.elementMoves * (rect.width.toNat / (I.desc.plane p).addr.elementStep.toNat) +
          if (I.desc.plane p).addr.strideX = 0 then 1 else 0) ≤ (I.desc.plane p).memSize.toNat := by
      refine Nat.le_trans (Nat.add_le_add_left (Nat.le_of_eq ?_) _) he
      unfold ImagepatchAddressing.elementMoves
      split <;> rfl
    by_cases hu : user.strideX = (I.desc.plane p).addr.strideX
    · rw [compact_row hu, List.mem_singleton] at hmv
      subst hmv
      refine ⟨?_, ?_⟩ <;> simp only [PatchMove.image, PatchMove.accessBytes] <;> omega
    · obtain ⟨k, hk, h1, -, h2⟩ := mem_element_row hu hmv
      have h3 := h2 usage
      have h4 : (I.desc.plane p).addr.elementMoves * k + (I.desc.plane p).addr.elementMoves ≤
          (I.desc.plane p).addr.elementMoves * (rect.width.toNat / (I.desc.plane p).addr.elementStep.toNat) := by
        rw [← Nat.mul_succ]
        exact Nat.mul_le_mul_left _ hk
      refine ⟨?_, ?_⟩ <;> rw [h1] <;> omega
  · intro usage addr ptr hmap x y hxw hyh
    obtain ⟨rfl, rfl⟩ := map_spec hmap
    have hend := sample_end_le h he hf.2 (UInt32.lt_iff_toNat_lt.1 hxw) (UInt32.lt_iff_toNat_lt.1 hyh)
    rw [hptr, hpix hxw hyh]
    exact .inr ⟨by omega, by omega⟩

theorem ownComputePatchOffset_start (addr : ImagepatchAddressing) : addr.ownComputePatchOffset 0 0 = 0 := by
  unfold ImagepatchAddressing.ownComputePatchOffset
  split <;> simp

/-- The first element of the second row. -/
theorem ownComputePatchOffset_row {q : ImagePlane} (h : PlaneFits q bytes) :
    (q.addr.ownComputePatchOffset 0 q.addr.stepY).toNat = q.addr.strideY.toUInt32.toNat := by
  unfold ImagepatchAddressing.ownComputePatchOffset
  rcases h.step_cases with ⟨-, h2⟩ | ⟨-, h2⟩ <;> split <;>
    simp only [UInt32.toNat_add, UInt32.toNat_mul, UInt32.toNat_div, UInt32.toNat_zero, h2, Nat.zero_div, Nat.mul_zero,
      Nat.zero_mod, Nat.div_self (show 0 < 1 by decide), Nat.mul_one, Nat.add_zero, Nat.mod_eq_of_lt (UInt32.toNat_lt _)]

/-- Where the map and the copy agree at the first pixel the start fits, and at the next row the stride is not negative. -/
theorem start_of_same (S : ImageShape I.desc) (h : PlaneFits (I.desc.plane p) bytes)
    (hc : I.ownCopyAndMapCheckParams rect p .readOnly = .ok ()) (hh : (I.desc.plane p).hostPtr ≠ 0) (hm : I.hasFreeMap = true)
    (hA : PatchesAgree I rect p) :
    StartFits I.desc (I.desc.plane p).addr rect ∧
      (I.desc.plane p).addr.copyOffset rect = (I.desc.plane p).addr.offset rect.startX.toNat rect.startY.toNat ∧
      ∀ r ≤ (rect.height.toNat - 1) / (I.desc.plane p).addr.stepY.toNat,
        (I.desc.plane p).addr.strideY.toInt * (r : Int) = ((I.desc.plane p).addr.strideY.toUInt32.toNat * r : Nat) := by
  obtain ⟨-, hy, hx⟩ := checkParams_spec hc
  have hmap := map_accepts hc hh hm
  have hwd : rect.endX.toNat - rect.startX.toNat = rect.width.toNat := (UInt32.toNat_sub_of_le _ _ (UInt32.le_of_lt hx)).symm
  have hhd : rect.endY.toNat - rect.startY.toNat = rect.height.toNat := (UInt32.toNat_sub_of_le _ _ (UInt32.le_of_lt hy)).symm
  have hx' := UInt32.lt_iff_toNat_lt.1 hx
  have hy' := UInt32.lt_iff_toNat_lt.1 hy
  have hw0 : (0 : UInt32) < rect.width := UInt32.lt_iff_toNat_lt.2 (show 0 < _ by omega)
  have hh0 : (0 : UInt32) < rect.height := UInt32.lt_iff_toNat_lt.2 (show 0 < _ by omega)
  -- the first pixel
  have hfirst := hA.same .readOnly _ _ hmap rect.startX rect.startY ⟨UInt32.le_refl _, hx, UInt32.le_refl _, hy⟩
  simp only [UInt32.sub_self, ImagePlane.copyPixel, UInt32.toNat_zero, Nat.zero_div, Int.natCast_zero, Int.mul_zero,
    Int.add_zero, ImagepatchAddressing.xOffset_zero] at hfirst
  have hin : rect.startX < (I.desc.plane p).addr.dimX ∧ rect.startY < (I.desc.plane p).addr.dimY := by
    by_contra hcon
    have h0 : vxFormatImagePatchAddress2d (I.desc.plane p).hostPtr rect.startX rect.startY (I.desc.plane p).addr = 0 :=
      if_neg (fun hc => hcon hc.2)
    rw [h0, vxFormatImagePatchAddress2d, if_neg (by simp)] at hfirst
    omega
  have hptr : vxFormatImagePatchAddress2d (I.desc.plane p).hostPtr rect.startX rect.startY (I.desc.plane p).addr =
      (I.desc.plane p).hostPtr + (I.desc.plane p).addr.offset rect.startX.toNat rect.startY.toNat := by
    rw [vxFormatImagePatchAddress2d, if_pos ⟨hh, hin.1, hin.2⟩, h.laidOut.offset _ _ hin.1 hin.2]
  have hformat : ∀ {x y : UInt32}, x < rect.width → y < rect.height →
      vxFormatImagePatchAddress2d ((I.desc.plane p).hostPtr +
          (I.desc.plane p).addr.offset rect.startX.toNat rect.startY.toNat) x y
        { (I.desc.plane p).addr with dimX := rect.width, dimY := rect.height } =
        (I.desc.plane p).hostPtr + (I.desc.plane p).addr.offset rect.startX.toNat rect.startY.toNat +
          ((I.desc.plane p).addr.ownComputePatchOffset x y).toNat := by
    intro x y hxw hyh
    rw [vxFormatImagePatchAddress2d, if_pos ⟨by omega, hxw, hyh⟩]
    rfl
  rw [hptr, hformat hw0 hh0, ownComputePatchOffset_start, UInt32.toNat_zero] at hfirst
  have hstart : (I.desc.plane p).addr.copyOffset rect = (I.desc.plane p).addr.offset rect.startX.toNat rect.startY.toNat := by
    omega
  have hinX := UInt32.lt_iff_toNat_lt.1 hin.1
  have hinY := UInt32.lt_iff_toNat_lt.1 hin.2
  obtain ⟨hsy, hsx⟩ := (h.copyOffset_eq_iff hinX hinY).1 hstart
  refine ⟨⟨by rw [← S.dimX p]; exact hin.1, by rw [← S.dimY p]; exact hin.2, hsy, hsx⟩, hstart, fun r hr => ?_⟩
  rcases Nat.eq_zero_or_pos r with rfl | hr0
  · rw [Nat.mul_zero, Int.natCast_zero, Int.mul_zero]
  · -- the first pixel of the next row of the plane
    have hstep : (I.desc.plane p).addr.stepY.toNat < rect.height.toNat := by
      by_contra hcon
      have := (Nat.div_eq_zero_iff (a := rect.height.toNat - 1) (b := (I.desc.plane p).addr.stepY.toNat)).2 (.inr (by omega))
      omega
    have hpos : 0 < (I.desc.plane p).addr.stepY.toNat := by rcases h.step_cases with ⟨-, h2⟩ | ⟨-, h2⟩ <;> omega
    have hsum : (rect.startY + (I.desc.plane p).addr.stepY).toNat = rect.startY.toNat + (I.desc.plane p).addr.stepY.toNat := by
      rw [UInt32.toNat_add, Nat.mod_eq_of_lt]
      have := rect.endY.toNat_lt
      omega
    have hnext := hA.same .readOnly _ _ hmap rect.startX (rect.startY + (I.desc.plane p).addr.stepY)
      ⟨UInt32.le_refl _, hx, UInt32.le_iff_toNat_le.2 (by omega), UInt32.lt_iff_toNat_lt.2 (by omega)⟩
    have hdiff : rect.startY + (I.desc.plane p).addr.stepY - rect.startY = (I.desc.plane p).addr.stepY := by
      rw [UInt32.add_comm, UInt32.add_sub_cancel]
    rw [hdiff, hptr, UInt32.sub_self, hformat hw0 (UInt32.lt_iff_toNat_lt.2 hstep), ownComputePatchOffset_row h] at hnext
    simp only [ImagePlane.copyPixel, hdiff, UInt32.sub_self, UInt32.toNat_zero, ImagepatchAddressing.xOffset_zero, hstart,
      Nat.div_self hpos, Int.natCast_one, Int.mul_one, Int.natCast_zero, Int.add_zero] at hnext
    have hstride : (I.desc.plane p).addr.strideY.toInt = (I.desc.plane p).addr.strideY.toUInt32.toNat := by omega
    rw [hstride, Int.natCast_mul]

/-- Where the copies and the map agree the start, the elements and the end fit. -/
theorem fits_of_agree (S : ImageShape I.desc) (h : PlaneFits (I.desc.plane p) bytes)
    (hc : I.ownCopyAndMapCheckParams rect p .readOnly = .ok ()) (hh : (I.desc.plane p).hostPtr ≠ 0) (hm : I.hasFreeMap = true)
    (hA : PatchesAgree I rect p) :
    StartFits I.desc (I.desc.plane p).addr rect ∧ (I.desc.plane p).addr.elementsFit rect ∧ (I.desc.plane p).endFits rect := by
  obtain ⟨-, hy, hx⟩ := checkParams_spec hc
  obtain ⟨hs, hstart, hstride⟩ := start_of_same S h hc hh hm hA
  have hwd : rect.endX.toNat - rect.startX.toNat = rect.width.toNat := (UInt32.toNat_sub_of_le _ _ (UInt32.le_of_lt hx)).symm
  have hhd : rect.endY.toNat - rect.startY.toNat = rect.height.toNat := (UInt32.toNat_sub_of_le _ _ (UInt32.le_of_lt hy)).symm
  have hx' := UInt32.lt_iff_toNat_lt.1 hx
  have hy' := UInt32.lt_iff_toNat_lt.1 hy
  obtain ⟨columns, hcols, hsame⟩ := hA.samples
  have hlen := (samples_iff columns).1 hsame
  have hceil := loopCount_eq hcols
  rw [hwd] at hceil
  have hf : (I.desc.plane p).addr.elementsFit rect := by
    rw [← compactLen_eq_iff h.stepX (by omega), ← hceil]
    exact hlen
  have hcolumns : columns = rect.width.toNat / (I.desc.plane p).addr.elementStep.toNat := by
    have hes := elementStep_toNat h
    have hw := hf.2
    rcases h.step_cases with ⟨h1, -⟩ | ⟨h1, -⟩ <;> rw [h1] at hes <;> split at hes <;> rw [hes] at hceil hw ⊢ <;> omega
  refine ⟨hs, hf, ?_⟩
  -- a user that reads the last row, by pairs where the plane is packed
  obtain ⟨user, hu, hlast⟩ : ∃ user : ImagepatchAddressing,
      ¬ (user.strideX < (I.desc.plane p).addr.strideX ∨ ((I.desc.plane p).addr.strideX = 0 ∧ user.strideX = 1)) ∧
      ∀ line userLine, ∃ mv ∈ (I.desc.plane p).rowMoves rect user columns line userLine,
        mv.image + mv.accessBytes .readOnly = line + ((I.desc.plane p).addr.elementMoves * columns : Nat) +
          if (I.desc.plane p).addr.strideX = 0 then 1 else 0 := by
    by_cases h0 : (I.desc.plane p).addr.strideX = 0
    · have hne : ({ (I.desc.plane p).addr with strideX := 2 } : ImagepatchAddressing).strideX ≠ (I.desc.plane p).addr.strideX := by
        rw [h0]
        exact (by decide : (2 : Int32) ≠ 0)
      have hcpos : 0 < columns := by
        by_contra hcon
        have h1 : (I.desc.plane p).addr.elementMoves * columns = 0 := by rw [Nat.le_zero.1 (Nat.not_lt.1 hcon), Nat.mul_zero]
        rw [h1, compactLen_toNat hf.1, if_pos h0] at hlen
        rcases h.step_cases with ⟨h2, -⟩ | ⟨h2, -⟩ <;> rw [h2] at hlen <;> omega
      refine ⟨{ (I.desc.plane p).addr with strideX := 2 }, ?_, fun line userLine => ?_⟩
      · rw [h0]
        exact (by decide : ¬ ((2 : Int32) < 0 ∨ ((0 : Int32) = 0 ∧ (2 : Int32) = 1)))
      · obtain ⟨mv, hmv, h1, -, h2⟩ := element_row_mem rect line userLine hne (show columns - 1 < columns by omega)
        refine ⟨mv, hmv, ?_⟩
        rw [h1, h2, if_pos h0, if_pos h0]
        have h3 : (I.desc.plane p).addr.elementMoves * (columns - 1) + (I.desc.plane p).addr.elementMoves =
            (I.desc.plane p).addr.elementMoves * columns := by
          rw [← Nat.mul_succ, Nat.succ_eq_add_one, Nat.sub_add_cancel hcpos]
        omega
    · refine ⟨(I.desc.plane p).addr, ?_, fun line userLine => ?_⟩
      · rintro (hlt | ⟨h1, -⟩)
        · exact Int32.lt_irrefl hlt
        · exact h0 h1
      · rw [compact_row rfl, hlen]
        exact ⟨_, List.mem_singleton.2 rfl, by simp only [PatchMove.image, PatchMove.accessBytes, if_neg h0, Int.add_zero]⟩
  obtain ⟨moves, hmoves, hin⟩ := hA.copied user 1 .readOnly _ (copy_accepts hc hu)
  obtain ⟨rows, columns', hrows, hcols', hmem⟩ := mem_copyMoves hmoves
  have hrow := loopCount_eq hrows
  rw [hhd] at hrow
  have hrow' : rows = (rect.height.toNat - 1) / (I.desc.plane p).addr.stepY.toNat + 1 := by
    rcases h.step_cases with ⟨-, h2⟩ | ⟨-, h2⟩ <;> rw [h2] at hrow ⊢ <;> omega
  obtain ⟨mv, hmv, hend⟩ := hlast
    ((I.desc.plane p).hostPtr + (I.desc.plane p).addr.copyOffset rect +
      (I.desc.plane p).addr.strideY.toInt * ((rect.height.toNat - 1) / (I.desc.plane p).addr.stepY.toNat : Nat))
    ((1 : Nat) + user.strideY.toInt * ((rect.height.toNat - 1) / (I.desc.plane p).addr.stepY.toNat : Nat))
  have hmv' : mv ∈ moves := by
    rw [hmem]
    refine ⟨(rect.height.toNat - 1) / (I.desc.plane p).addr.stepY.toNat, by omega, ?_⟩
    rcases hcols' with hu | hc
    · rw [compact_row hu] at hmv ⊢
      exact hmv
    · cases hcols.symm.trans hc
      exact hmv
  have hle := (hin mv hmv').2
  rw [hend, hstart, hstride _ (Nat.le_refl _), hcolumns] at hle
  have hsum : (I.desc.plane p).addr.offset rect.startX.toNat rect.startY.toNat +
      (I.desc.plane p).addr.strideY.toUInt32.toNat * ((rect.height.toNat - 1) / (I.desc.plane p).addr.stepY.toNat) +
      ((I.desc.plane p).addr.elementMoves * (rect.width.toNat / (I.desc.plane p).addr.elementStep.toNat) +
        if (I.desc.plane p).addr.strideX = 0 then 1 else 0) ≤ (I.desc.plane p).memSize.toNat := by
    split at hle <;> rename_i h0 <;> simp only [h0, if_true, if_false] <;> omega
  unfold ImagePlane.endFits
  unfold ImagepatchAddressing.elementMoves at hsum
  split at hsum <;> rename_i h0 <;> simp only [h0, if_true, if_false] <;> exact hsum

end Agree

/-- **The copies and the map of a patch access the same bytes of the plane exactly when** the rectangle starts in the image where
no stride is split, has whole elements, and ends in the plane, in a packed one with a byte more. -/
theorem patchesAgree_iff {src : ImageSource} {I : PatchImage} (h : src.image = some I.desc) (F : I.desc.Fits)
    {rect : VxRectangle} {p : Nat} (hc : I.ownCopyAndMapCheckParams rect p .readOnly = .ok ())
    (hh : (I.desc.plane p).hostPtr ≠ 0) (hm : I.hasFreeMap = true) :
    PatchesAgree I rect p ↔
      StartFits I.desc (I.desc.plane p).addr rect ∧ (I.desc.plane p).addr.elementsFit rect ∧ (I.desc.plane p).endFits rect := by
  have S := (src.line_spec h).1
  have Q := F p (checkParams_spec hc).1
  exact ⟨fits_of_agree S Q hc hh hm, fun ⟨hs, hf, he⟩ => agree_of_fits S Q hc hh hs hf he⟩

/-- A rectangle of even width and start in a plane with half of the samples, up to the last row and column. -/
theorem patchesAgree_even : PatchesAgree (vgaPatch .nv12) ⟨2, 2, 640, 480⟩ 1 := by
  have himg : (ImageSource.vxCreateImage 640 480 .nv12 0x1000).image = some (vgaPatch .nv12).desc := rfl
  have F : (vgaPatch .nv12).desc.Fits := (createImage_spec himg).2.2
    ⟨fun h => absurd h (by decide), fun h => absurd h (by decide), by decide⟩
  have hrow : ((vgaPatch .nv12).desc.plane 1).addr.rowFits ⟨2, 2, 640, 480⟩ := show 638 * 2 < 2 ^ 32 by decide
  refine (patchesAgree_iff himg F rfl (by decide) rfl).2 ⟨⟨by decide, by decide, .inr (.inl rfl), .inr ?_⟩, ⟨hrow, rfl⟩, ?_⟩
  · rw [if_neg (by decide)]
    exact .inl rfl
  · show _ ≤ _
    decide

/-- At odd coordinates of a plane with half of the samples the copy and the map start at different bytes; in an odd width the
copies have other samples; a rectangle that is not in the image is read after it, and in a packed image so is its last pair. -/
theorem patches_disagree :
    ¬ PatchesAgree (vgaPatch .nv12) ⟨1, 0, 3, 2⟩ 1 ∧ ¬ PatchesAgree (vgaPatch .nv12) ⟨0, 0, 3, 2⟩ 1 ∧
      ¬ PatchesAgree (vgaPatch .u8) ⟨0, 479, 2, 481⟩ 0 ∧ ¬ PatchesAgree (vgaPatch .p12) ⟨0, 479, 640, 480⟩ 0 := by
  have h12 : (ImageSource.vxCreateImage 640 480 .nv12 0x1000).image = some (vgaPatch .nv12).desc := rfl
  have h8 : (ImageSource.vxCreateImage 640 480 .u8 0x1000).image = some (vgaPatch .u8).desc := rfl
  have hp : (ImageSource.vxCreateImage 640 480 .p12 0x1000).image = some (vgaPatch .p12).desc := rfl
  have F12 : (vgaPatch .nv12).desc.Fits := (createImage_spec h12).2.2
    ⟨fun h => absurd h (by decide), fun h => absurd h (by decide), by decide⟩
  have F8 : (vgaPatch .u8).desc.Fits := (createImage_spec h8).2.2
    ⟨fun h => absurd h (by decide), fun h => absurd h (by decide), by decide⟩
  have Fp : (vgaPatch .p12).desc.Fits := (createImage_spec hp).2.2
    ⟨fun h => absurd h (by decide), fun _ => by decide, by decide⟩
  refine ⟨fun h => ?_, fun h => ?_, fun h => ?_, fun h => ?_⟩
  · have hx := (fits_of_agree (createImage_spec h12).1 (F12 1 (by decide)) rfl (by decide) rfl h).1.x
    exact absurd hx (by decide)
  · have he := (fits_of_agree (createImage_spec h12).1 (F12 1 (by decide)) rfl (by decide) rfl h).2.1.2
    exact absurd he (by decide)
  · have he : _ ≤ _ := (fits_of_agree (createImage_spec h8).1 (F8 0 (by decide)) rfl (by decide) rfl h).2.2
    exact absurd he (by decide)
  · have he : _ ≤ _ := (fits_of_agree (createImage_spec hp).1 (Fp 0 (by decide)) rfl (by decide) rfl h).2.2
    exact absurd he (by decide)

end Tiovx
