import Mathlib.Tactic.Common
import Mathlib.Tactic.Ring
import Tiovx.ImagePatch
/-!
# PatchSizes — the size of a patch in a user's buffer (`vx_image.c`)

`vxComputeImagePatchSize` multiplies the rounded columns and rows of a rectangle, `vxCopyImagePatch` rounds each row and takes
every row that is begun.
-/
namespace Tiovx

/-- The bytes of a user's buffer that a move reads or writes. -/
def PatchMove.userBytes : PatchMove → Nat
  | .bytes _ _ len => len
  | .pair .. => 4

/-- The bits or bytes of a row of a rectangle have 32 bits. -/
def ImagepatchAddressing.rowFits (addr : ImagepatchAddressing) (rect : VxRectangle) : Prop :=
  if addr.strideX = 0 then 12 * rect.width.toNat + 7 < 2 ^ 32 else rect.width.toNat * addr.strideX.toUInt32.toNat < 2 ^ 32

/-- The rectangle is inside the image. -/
def VxRectangle.inside (rect : VxRectangle) (d : ImageDesc) : Prop := rect.endX ≤ d.width ∧ rect.endY ≤ d.height

/-- A plane has all samples, in packed bytes the width is even; or half of them, the height is even, and so is the width if an
element has more than one byte.  In packed bytes of half of the samples a byte of each row is split, and enough of these halves
make up for a last row. -/
def ImagepatchAddressing.sizeSuffices (addr : ImagepatchAddressing) (rect : VxRectangle) : Prop :=
  let w := rect.width.toNat
  let h := rect.height.toNat
  if addr.strideX = 0 then
    if addr.stepX = 1 then w % 2 = 0
    else w % 4 = 0 ∧ h % 2 = 0 ∨ w % 4 = 2 ∧ (h % 2 = 0 ∨ 3 * (w / 4) + 1 ≤ h / 2 / 2)
  else addr.stepX = 1 ∨ h % 2 = 0 ∧ (w % 2 = 0 ∨ addr.strideX = 1)

/-! ### Rounded products -/

/-- Half of the columns and half of the rows, where an element may have one byte. -/
theorem bytes_size_iff {w h s : Nat} (hh : 0 < h) (hlen : w * s / 2 ≠ 0) :
    (h + 1) / 2 * (w * s / 2) ≤ w / 2 * (h / 2) * s ↔ h % 2 = 0 ∧ (w % 2 = 0 ∨ s = 1) := by
  -- half of the columns, with a half of a sample where there is one more
  have hs : 0 < s := Nat.pos_of_ne_zero (fun h0 => hlen (by rw [h0, Nat.mul_zero]))
  obtain ⟨a, ha⟩ : ∃ a, w = 2 * a ∨ w = 2 * a + 1 := ⟨w / 2, by omega⟩
  obtain ⟨b, hb⟩ : ∃ b, h = 2 * b ∨ h = 2 * b + 1 := ⟨h / 2, by omega⟩
  have hlen' : w * s / 2 = a * s + (w % 2) * (s / 2) := by
    rcases ha with rfl | rfl
    · rw [Nat.mul_assoc, Nat.mul_div_cancel_left _ (by decide), Nat.mul_mod_right, Nat.zero_mul, Nat.add_zero]
    · rw [Nat.add_mul, Nat.mul_assoc, Nat.one_mul, Nat.mul_add_div (by decide), Nat.mul_add_mod, Nat.one_mul]
  have hw : w / 2 = a := by omega
  have hc : (h + 1) / 2 = b + h % 2 := by omega
  have hf : h / 2 = b := by omega
  rw [hlen'] at hlen ⊢
  rw [hw, hc, hf, Nat.mul_right_comm, Nat.add_mul, Nat.mul_comm (a * s) b, Nat.mul_add b]
  constructor
  · intro hle
    have h1 : b * (w % 2 * (s / 2)) + h % 2 * (a * s + w % 2 * (s / 2)) = 0 := by omega
    obtain ⟨h2, h3⟩ := Nat.add_eq_zero_iff.1 h1
    have h4 : h % 2 = 0 := (Nat.mul_eq_zero.1 h3).resolve_right hlen
    refine ⟨h4, ?_⟩
    rcases Nat.mul_eq_zero.1 h2 with h5 | h5
    · omega
    · rcases Nat.mul_eq_zero.1 h5 with h6 | h6
      · exact .inl h6
      · exact .inr (by omega)
  · rintro ⟨h1, h2⟩
    have h3 : w % 2 * (s / 2) = 0 := by
      rcases h2 with h2 | h2
      · rw [h2, Nat.zero_mul]
      · rw [h2, show 1 / 2 = 0 from rfl, Nat.mul_zero]
    rw [h3, h1]
    omega

/-- All columns of packed bytes. -/
theorem packed_size_iff {w h : Nat} (hh : 0 < h) : h * ((12 * w + 7) / 8) ≤ w * h * 3 / 2 ↔ w % 2 = 0 := by
  obtain ⟨a, ha⟩ : ∃ a, w = 2 * a ∨ w = 2 * a + 1 := ⟨w / 2, by omega⟩
  rcases ha with rfl | rfl
  · rw [show (12 * (2 * a) + 7) / 8 = 3 * a by omega, show 2 * a * h * 3 = 2 * (h * (3 * a)) by ring,
      Nat.mul_div_cancel_left _ (by decide)]
    exact ⟨fun _ => Nat.mul_mod_right 2 a, fun _ => Nat.le_refl _⟩
  · rw [show (12 * (2 * a + 1) + 7) / 8 = 3 * a + 2 by omega, show (2 * a + 1) * h * 3 = 2 * (h * (3 * a)) + 3 * h by ring,
      Nat.mul_add h]
    omega

/-- Half of the columns of packed bytes, and half of the rows. -/
theorem packed_half_size_iff {w h : Nat} (hw : 0 < w) (hh : 0 < h) :
    (h + 1) / 2 * ((12 * w + 7) / 8 / 2) ≤ w / 2 * (h / 2) * 3 / 2 ↔
      w % 4 = 0 ∧ h % 2 = 0 ∨ w % 4 = 2 ∧ (h % 2 = 0 ∨ 3 * (w / 4) + 1 ≤ h / 2 / 2) := by
  obtain ⟨k, hk⟩ : ∃ k, k = w / 4 := ⟨_, rfl⟩
  obtain ⟨b, hb⟩ : ∃ b, b = h / 2 := ⟨_, rfl⟩
  have hc : (h + 1) / 2 = b + h % 2 := by omega
  rw [hc, ← hb, ← hk]
  have hm : h % 2 = 0 ∨ h % 2 = 1 := by omega
  have hw4 : w = 4 * k ∨ w = 4 * k + 1 ∨ w = 4 * k + 2 ∨ w = 4 * k + 3 := by omega
  rcases hw4 with h4 | h4 | h4 | h4
  · rw [show (12 * w + 7) / 8 / 2 = 3 * k by omega, show w / 2 = 2 * k by omega,
      show 2 * k * b * 3 = 2 * (b * (3 * k)) by ring, Nat.mul_div_cancel_left _ (by decide), Nat.add_mul]
    rcases hm with hm | hm <;> rw [hm] <;> omega
  · rw [show (12 * w + 7) / 8 / 2 = 3 * k + 1 by omega, show w / 2 = 2 * k by omega,
      show 2 * k * b * 3 = 2 * (b * (3 * k)) by ring, Nat.mul_div_cancel_left _ (by decide), Nat.add_mul, Nat.mul_add]
    rcases hm with hm | hm <;> rw [hm] <;> omega
  · rw [show (12 * w + 7) / 8 / 2 = 3 * k + 1 by omega, show w / 2 = 2 * k + 1 by omega,
      show (2 * k + 1) * b * 3 = 2 * (b * (3 * k)) + 3 * b by ring, Nat.add_mul, Nat.mul_add]
    rcases hm with hm | hm <;> rw [hm] <;> omega
  · rw [show (12 * w + 7) / 8 / 2 = 3 * k + 2 by omega, show w / 2 = 2 * k + 1 by omega,
      show (2 * k + 1) * b * 3 = 2 * (b * (3 * k)) + 3 * b by ring, Nat.add_mul, Nat.mul_add]
    rcases hm with hm | hm <;> rw [hm] <;> omega

/-! ### What a copy takes -/

/-- What a copy that ends has checked. -/
theorem copy_spec {I : PatchImage} {rect : VxRectangle} {p : Nat} {user : ImagepatchAddressing} {userPtr : Nat}
    {usage : AccessUsage} {moves : List PatchMove} (h : I.vxCopyImagePatch rect p user userPtr usage = .ok (some moves)) :
    p < I.desc.planes ∧ rect.startY < rect.endY ∧ rect.startX < rect.endX ∧
      (I.desc.plane p).copyMoves rect user userPtr = some moves := by
  simp only [PatchImage.vxCopyImagePatch] at h
  split at h
  · cases h
  · simp only [PatchImage.ownCopyAndMapCheckParams] at h
    split at h
    · cases h
    · split at h
      · cases h
      · rename_i hc
        simp only [not_or, Nat.not_le, UInt32.not_le] at hc
        split at h
        · cases h
        · split at h
          · cases h
          · simp only [Except.bind] at h
            split at h
            · cases h
            · exact ⟨hc.1, hc.2.1, hc.2.2, Except.ok.inj h⟩

theorem loopCount_eq {start stop step : UInt32} {n : Nat} (h : loopCount start stop step = some n) :
    n = (stop.toNat - start.toNat + (step.toNat - 1)) / step.toNat := by
  simp only [loopCount] at h
  split at h
  · exact (Option.some.inj h).symm
  · cases h

/-- A copy between compact lines takes as many bytes of each row that is begun. -/
theorem userBytes_copy {q : ImagePlane} {rect : VxRectangle} {user : ImagepatchAddressing} {userPtr : Nat} {moves : List PatchMove}
    (hu : user.strideX = q.addr.strideX) (h : q.copyMoves rect user userPtr = some moves) :
    (moves.map PatchMove.userBytes).sum =
      (rect.endY.toNat - rect.startY.toNat + (q.addr.stepY.toNat - 1)) / q.addr.stepY.toNat * (q.addr.compactLen rect).toNat := by
  simp only [ImagePlane.copyMoves, hu, if_true, Option.map_some] at h
  obtain ⟨rows, hrows, h⟩ := Option.bind_eq_some_iff.1 h
  rw [← Option.some.inj h, ← loopCount_eq hrows]
  clear hrows h
  simp only [ImagePlane.rowMoves, hu, if_true]
  induction rows with
  | zero => rw [Nat.zero_mul]; rfl
  | succ n ih => rw [List.range_succ, List.flatMap_append, List.map_append, List.sum_append, ih, Nat.succ_mul]; rfl

theorem packed_iff {format : DfImage} : format.packed = true ↔ format = .p12 ∨ format = .nv12P12 := by
  cases format <;> decide

/-- The products of the size have 64 bits. -/
theorem vxComputeImagePatchSize_toNat {I : PatchImage} {rect : VxRectangle} {p : Nat} (S : ImageShape I.desc)
    (hp : p < I.desc.planes) (hx : rect.startX < rect.endX) (hy : rect.startY < rect.endY) (hin : rect.inside I.desc)
    (hrow : (I.desc.plane p).addr.rowFits rect) :
    let addr := (I.desc.plane p).addr
    let pixels := rect.width.toNat / addr.stepX.toNat * (rect.height.toNat / addr.stepY.toNat)
    (I.vxComputeImagePatchSize rect p).toNat =
      if addr.strideX = 0 then pixels * 3 / 2 else pixels * addr.strideX.toUInt32.toNat := by
  intro addr pixels
  have hwd : rect.endX.toNat - rect.startX.toNat = rect.width.toNat := (UInt32.toNat_sub_of_le _ _ (UInt32.le_of_lt hx)).symm
  have hhd : rect.endY.toNat - rect.startY.toNat = rect.height.toNat := (UInt32.toNat_sub_of_le _ _ (UInt32.le_of_lt hy)).symm
  have hw : rect.width.toNat / addr.stepX.toNat < 2 ^ 32 := Nat.lt_of_le_of_lt (Nat.div_le_self _ _) rect.width.toNat_lt
  have hh : rect.height.toNat / addr.stepY.toNat < 2 ^ 32 := Nat.lt_of_le_of_lt (Nat.div_le_self _ _) rect.height.toNat_lt
  have hnum : ((rect.endX.toUInt64 - rect.startX.toUInt64) / addr.stepX.toUInt64 *
      ((rect.endY.toUInt64 - rect.startY.toUInt64) / addr.stepY.toUInt64)).toNat = pixels := by
    rw [UInt64.toNat_mul, UInt64.toNat_div, UInt64.toNat_div,
      UInt64.toNat_sub_of_le _ _ (UInt64.le_iff_toNat_le.2 (by simp only [UInt32.toNat_toUInt64]; exact Nat.le_of_lt hx)),
      UInt64.toNat_sub_of_le _ _ (UInt64.le_iff_toNat_le.2 (by simp only [UInt32.toNat_toUInt64]; exact Nat.le_of_lt hy))]
    simp only [UInt32.toNat_toUInt64, hwd, hhd]
    exact Nat.mod_eq_of_lt (show _ < 2 ^ 32 * 2 ^ 32 from Nat.mul_lt_mul'' hw hh)
  simp only [PatchImage.vxComputeImagePatchSize, ImagepatchAddressing.rowFits] at hrow ⊢
  rw [if_pos ⟨UInt32.le_of_lt hx, UInt32.le_of_lt hy, hin.1, hin.2, hp⟩]
  by_cases h0 : addr.strideX = 0
  · have hf : I.desc.format = .p12 ∨ I.desc.format = .nv12P12 := packed_iff.1 ((S.packed p hp).1 h0)
    rw [if_pos h0] at hrow
    rw [if_pos hf, if_pos h0, UInt64.toNat_div, UInt64.toNat_mul, hnum]
    have hw' : pixels ≤ rect.width.toNat * 2 ^ 32 := Nat.mul_le_mul (Nat.div_le_self _ _) (Nat.le_of_lt hh)
    rw [Nat.mod_eq_of_lt (show pixels * UInt64.toNat 3 < 2 ^ 64 by rw [show UInt64.toNat 3 = 3 from rfl]; omega)]
    rfl
  · have hf : ¬ (I.desc.format = .p12 ∨ I.desc.format = .nv12P12) := fun h => h0 ((S.packed p hp).2 (packed_iff.2 h))
    rw [if_neg h0] at hrow
    rw [if_neg hf, if_neg h0, UInt64.toNat_mul, hnum, UInt32.toNat_toUInt64]
    have hlt : pixels * addr.strideX.toUInt32.toNat < 2 ^ 64 := by
      calc pixels * addr.strideX.toUInt32.toNat
          = rect.width.toNat / addr.stepX.toNat * addr.strideX.toUInt32.toNat * (rect.height.toNat / addr.stepY.toNat) :=
            Nat.mul_right_comm _ _ _
        _ < 2 ^ 32 * 2 ^ 32 := Nat.mul_lt_mul''
            (Nat.lt_of_le_of_lt (Nat.mul_le_mul_right _ (Nat.div_le_self _ _)) hrow) hh
        _ = 2 ^ 64 := rfl
    exact Nat.mod_eq_of_lt hlt

theorem compactLen_toNat {addr : ImagepatchAddressing} {rect : VxRectangle} (hrow : addr.rowFits rect) :
    (addr.compactLen rect).toNat =
      if addr.strideX = 0 then (12 * rect.width.toNat + 7) / 8 / addr.stepX.toNat
      else rect.width.toNat * addr.strideX.toUInt32.toNat / addr.stepX.toNat := by
  simp only [ImagepatchAddressing.compactLen, ImagepatchAddressing.rowFits] at hrow ⊢
  by_cases h0 : addr.strideX = 0
  · rw [if_pos h0] at hrow
    rw [if_pos h0, if_pos h0]
    simp only [UInt32.toNat_div, UInt32.toNat_add, UInt32.toNat_mul, UInt32.reduceToNat]
    rw [Nat.mul_comm rect.width.toNat, Nat.mod_eq_of_lt (a := 12 * _) (by omega), Nat.mod_eq_of_lt hrow]
  · rw [if_neg h0] at hrow
    rw [if_neg h0, if_neg h0, UInt32.toNat_div, UInt32.toNat_mul, Nat.mod_eq_of_lt hrow]

/-- **The size of a patch holds what a copy takes exactly when** no byte is taken, or the rectangle is inside the image and its
width and height are not split. -/
theorem userBytes_le_iff {src : ImageSource} {I : PatchImage} (h : src.image = some I.desc) {rect : VxRectangle} {p : Nat}
    {user : ImagepatchAddressing} {userPtr : Nat} {usage : AccessUsage} {moves : List PatchMove}
    (hc : I.vxCopyImagePatch rect p user userPtr usage = .ok (some moves))
    (hu : user.strideX = (I.desc.plane p).addr.strideX) (hrow : (I.desc.plane p).addr.rowFits rect) :
    (moves.map PatchMove.userBytes).sum ≤ (I.vxComputeImagePatchSize rect p).toNat ↔
      (I.desc.plane p).addr.compactLen rect = 0 ∨ rect.inside I.desc ∧ (I.desc.plane p).addr.sizeSuffices rect := by
  have S := (src.line_spec h).1
  obtain ⟨hp, hy, hx, hm⟩ := copy_spec hc
  have hstep := planeInit_step I.desc.format p
  have hhd : rect.endY.toNat - rect.startY.toNat = rect.height.toNat := (UInt32.toNat_sub_of_le _ _ (UInt32.le_of_lt hy)).symm
  have hwd : rect.endX.toNat - rect.startX.toNat = rect.width.toNat := (UInt32.toNat_sub_of_le _ _ (UInt32.le_of_lt hx)).symm
  have hh : 0 < rect.height.toNat := by have := UInt32.lt_iff_toNat_lt.1 hy; omega
  have hw : 0 < rect.width.toNat := by have := UInt32.lt_iff_toNat_lt.1 hx; omega
  have hlen := compactLen_toNat hrow
  have hstepY : (I.desc.plane p).addr.stepY = (I.desc.plane p).addr.stepX := (S.stepY p).trans (S.stepX p).symm
  rw [userBytes_copy hu hm, hhd, hstepY, ← UInt32.toNat_inj, UInt32.toNat_zero]
  by_cases hin : rect.inside I.desc
  · rw [vxComputeImagePatchSize_toNat S hp hx hy hin hrow, hstepY, hlen]
    simp only [hin, true_and, ImagepatchAddressing.sizeSuffices]
    rw [← S.stepX p] at hstep
    by_cases h0 : (I.desc.plane p).addr.strideX = 0
    · rw [if_pos h0, if_pos h0, if_pos h0]
      rcases hstep with h1 | h1
      · rw [if_pos h1, h1, show UInt32.toNat 1 = 1 from rfl, Nat.div_one, Nat.div_one, Nat.div_one, Nat.div_one]
        rw [Nat.sub_self, Nat.add_zero, packed_size_iff hh]
        omega
      · rw [h1, if_neg (by decide), show UInt32.toNat 2 = 2 from rfl, packed_half_size_iff hw hh]
        omega
    · rw [if_neg h0, if_neg h0, if_neg h0]
      rcases hstep with h1 | h1
      · rw [h1, show UInt32.toNat 1 = 1 from rfl, Nat.div_one, Nat.div_one, Nat.div_one, Nat.div_one, Nat.sub_self, Nat.add_zero,
          Nat.mul_comm rect.width.toNat rect.height.toNat, Nat.mul_assoc]
        simp
      · rw [h1, show UInt32.toNat 2 = 2 from rfl]
        have hs1 : (I.desc.plane p).addr.strideX = 1 ↔ (I.desc.plane p).addr.strideX.toUInt32.toNat = 1 :=
          ⟨fun h => by rw [h]; rfl, fun h => congrArg Int32.ofUInt32 (UInt32.toNat_inj.1 h)⟩
        by_cases hz : rect.width.toNat * (I.desc.plane p).addr.strideX.toUInt32.toNat / 2 = 0
        · rw [hz, Nat.mul_zero]
          simp
        · rw [bytes_size_iff hh hz, hs1]
          simp [hz]
  · have hsize : (I.vxComputeImagePatchSize rect p).toNat = 0 := by
      simp only [PatchImage.vxComputeImagePatchSize]
      rw [if_neg (fun hc => hin ⟨hc.2.2.1, hc.2.2.2.1⟩)]
      rfl
    have hrows : 0 < (rect.height.toNat + ((I.desc.plane p).addr.stepX.toNat - 1)) / (I.desc.plane p).addr.stepX.toNat := by
      rw [S.stepX p]
      rcases hstep with h1 | h1
      · rw [h1, show UInt32.toNat 1 = 1 from rfl]
        omega
      · rw [h1, show UInt32.toNat 2 = 2 from rfl]
        omega
    rw [hsize, Nat.le_zero, Nat.mul_eq_zero]
    simp only [hin, false_and, or_false]
    exact ⟨fun h => h.resolve_left (by omega), .inr⟩

/-- A 640x480 image. -/
def vgaPatch (format : DfImage) : PatchImage :=
  ⟨(ownInitImage 640 480 format).ownAllocImageBuffer 0x1000, .normal, false, false, true⟩

/-- The one row of chroma samples of an even rectangle. -/
theorem userBytes_le_even :
    (vgaPatch .nv12).vxCopyImagePatch ⟨1, 1, 5, 3⟩ 1 ⟨4, 2, 2, 4, 2, 2⟩ 0x100000 .readOnly =
      .ok (some [.bytes (0x1000 + 640 * 480 + 321) 0x100000 4]) ∧
    ([PatchMove.bytes (0x1000 + 640 * 480 + 321) 0x100000 4].map PatchMove.userBytes).sum ≤
      ((vgaPatch .nv12).vxComputeImagePatchSize ⟨1, 1, 5, 3⟩ 1).toNat := by
  have himg : (ImageSource.vxCreateImage 640 480 .nv12 0x1000).image = some (vgaPatch .nv12).desc := rfl
  have hrow : ((vgaPatch .nv12).desc.plane 1).addr.rowFits ⟨1, 1, 5, 3⟩ := show 4 * 2 < 2 ^ 32 by decide
  have hc : (vgaPatch .nv12).vxCopyImagePatch ⟨1, 1, 5, 3⟩ 1 ⟨4, 2, 2, 4, 2, 2⟩ 0x100000 .readOnly =
      .ok (some [.bytes (0x1000 + 640 * 480 + 321) 0x100000 4]) := rfl
  exact ⟨hc, (userBytes_le_iff himg hc rfl hrow).2 (.inr ⟨⟨by decide, by decide⟩, .inr ⟨rfl, .inl rfl⟩⟩)⟩

/-- A copy takes more bytes than the size where the height is odd, where a packed row is split, and of a rectangle that is not
inside the image. -/
theorem userBytes_larger :
    (∃ moves, (vgaPatch .nv12).vxCopyImagePatch ⟨0, 0, 4, 3⟩ 1 ⟨4, 3, 2, 4, 2, 2⟩ 0x100000 .readOnly = .ok (some moves) ∧
      (moves.map PatchMove.userBytes).sum = 8 ∧ (vgaPatch .nv12).vxComputeImagePatchSize ⟨0, 0, 4, 3⟩ 1 = 4) ∧
    (∃ moves, (vgaPatch .p12).vxCopyImagePatch ⟨0, 0, 3, 2⟩ 0 ⟨3, 2, 0, 5, 1, 1⟩ 0x100000 .readOnly = .ok (some moves) ∧
      (moves.map PatchMove.userBytes).sum = 10 ∧ (vgaPatch .p12).vxComputeImagePatchSize ⟨0, 0, 3, 2⟩ 0 = 9) ∧
    (∃ moves, (vgaPatch .u8).vxCopyImagePatch ⟨640, 0, 642, 1⟩ 0 ⟨2, 1, 1, 2, 1, 1⟩ 0x100000 .readOnly = .ok (some moves) ∧
      (moves.map PatchMove.userBytes).sum = 2 ∧ (vgaPatch .u8).vxComputeImagePatchSize ⟨640, 0, 642, 1⟩ 0 = 0) :=
  ⟨⟨_, rfl, by decide, by decide⟩, ⟨_, rfl, by decide, by decide⟩, _, rfl, by decide, by decide⟩

end Tiovx
