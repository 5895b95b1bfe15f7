import Mathlib.Tactic
import Tiovx.ImageLayout
import Tiovx.ScheduleStatus
/-!
# ValidRects — the valid region of a node's outputs (`tivx_kernels_host_utils.c`)

A kernel's initialisation gives the outputs of its node the region in which the valid regions of the node's images overlap, less
the padding that the kernel needs.  The outputs' own regions are among those that must overlap, so the next verification of the
same graph takes the padding off once more.
-/
namespace Tiovx

def vxBorderUndefined : Int := 0xC000

/-- The most images that a node's valid regions are computed of. -/
def validRectMaxImage : UInt32 := 5

def VxRectangle.Ordered (rect : VxRectangle) : Prop := rect.startX ≤ rect.endX ∧ rect.startY ≤ rect.endY

instance (rect : VxRectangle) : Decidable rect.Ordered := inferInstanceAs (Decidable (_ ∧ _))

/-- An image with its valid region, which is never beyond the image. -/
structure RegionImage where
  width : UInt32
  height : UInt32
  validRoi : VxRectangle
  endX_le : validRoi.endX ≤ width
  endY_le : validRoi.endY ≤ height

def RegionImage.whole (I : RegionImage) : VxRectangle := ⟨0, 0, I.width, I.height⟩

def RegionImage.reset (I : RegionImage) : RegionImage := ⟨I.width, I.height, I.whole, UInt32.le_refl _, UInt32.le_refl _⟩

/-- The images of a context; `none` is not a valid image. -/
abbrev RegionImages := Nat → Option RegionImage

namespace RegionImages

/-- `vxGetValidRegionImage`, which corrects a region that is out of order. -/
def vxGetValidRegionImage (s : RegionImages) (i : Nat) : RegionImages × Option VxRectangle :=
  match s i with
  | none => (s, none)
  | some I =>
    if I.validRoi.Ordered then (s, some I.validRoi) else (Function.update s i (some I.reset), some I.whole)

def vxSetImageValidRectangle (s : RegionImages) (i : Nat) (rect : Option VxRectangle) : RegionImages × Int :=
  match s i, rect with
  | none, _ => (s, vxErrorInvalidReference)
  | some I, some rect =>
    if h : rect.Ordered ∧ rect.endX ≤ I.width ∧ rect.endY ≤ I.height then
      (Function.update s i (some ⟨I.width, I.height, rect, h.2.1, h.2.2⟩), vxSuccess)
    else (s, vxErrorInvalidParameters)
  | some I, none => (Function.update s i (some I.reset), vxSuccess)

end RegionImages

/-- What one more region leaves of `out`. -/
def VxRectangle.narrow (out rect : VxRectangle) : VxRectangle where
  startX := if out.startX < rect.startX then rect.startX else out.startX
  startY := if out.startY < rect.startY then rect.startY else out.startY
  endX := if rect.endX < out.endX then rect.endX else out.endX
  endY := if rect.endY < out.endY then rect.endY else out.endY

/-- `tivxKernelValidRectParams`; `none` is a null image. -/
structure ValidRectParams where
  inImg : Fin 5 → Option Nat
  numInputImages : UInt32
  outImg : Fin 5 → Option Nat
  numOutputImages : UInt32
  topPad : UInt32
  botPad : UInt32
  rightPad : UInt32
  leftPad : UInt32
  borderMode : Int

namespace ValidRectParams

def inputs (prms : ValidRectParams) : List (Option Nat) := (List.ofFn prms.inImg).take prms.numInputImages.toNat

def outputs (prms : ValidRectParams) : List (Option Nat) := (List.ofFn prms.outImg).take prms.numOutputImages.toNat

/-- The images whose valid regions are read. -/
def sources (prms : ValidRectParams) : List Nat := prms.inputs.reduceOption ++ prms.outputs.reduceOption

/-- The padding, in 32 bits. -/
def padded (prms : ValidRectParams) (out : VxRectangle) : VxRectangle :=
  if prms.borderMode = vxBorderUndefined then
    { startX := out.startX + prms.leftPad
      startY := out.startY + prms.topPad
      endX := out.endX - prms.rightPad
      endY := out.endY - prms.botPad }
  else out

end ValidRectParams

namespace RegionImages

/-- The loops that read the regions of the inputs, and of the outputs. -/
def narrowAll (s : RegionImages) (out : VxRectangle) : List Nat → RegionImages × Option VxRectangle
  | [] => (s, some out)
  | i :: is =>
    match s.vxGetValidRegionImage i with
    | (s', none) => (s', none)
    | (s', some rect) => narrowAll s' (out.narrow rect) is

/-- The loop that writes the regions of the outputs. -/
def setAll (s : RegionImages) (rect : VxRectangle) : List Nat → RegionImages × Int
  | [] => (s, vxSuccess)
  | i :: is =>
    match s.vxSetImageValidRectangle i (some rect) with
    | (s', status) => if status = vxSuccess then setAll s' rect is else (s', status)

def tivxKernelConfigValidRect (s : RegionImages) : Option ValidRectParams → RegionImages × Int
  | none => (s, vxFailure)
  | some prms =>
    if validRectMaxImage < prms.numInputImages ∨ validRectMaxImage < prms.numOutputImages then (s, vxFailure)
    else if none ∈ prms.inputs ∨ none ∈ prms.outputs then (s, vxFailure)
    else
      match s.narrowAll ⟨0, 0, 0xFFFFFFFF, 0xFFFFFFFF⟩ prms.inputs.reduceOption with
      | (s1, none) => (s1, vxErrorInvalidReference)
      | (s1, some out) =>
        match s1.narrowAll out prms.outputs.reduceOption with
        | (s2, none) => (s2, vxErrorInvalidReference)
        | (s2, some out) => s2.setAll (prms.padded out) prms.outputs.reduceOption

/-! ### The regions that overlap -/

/-- The region that `vxGetValidRegionImage` reports. -/
def region (I : RegionImage) : VxRectangle := if I.validRoi.Ordered then I.validRoi else I.whole

/-- What the region calls leave unchanged: the regions as they are reported, and the sizes of the images. -/
def view (s : RegionImages) (i : Nat) : Option (VxRectangle × UInt32 × UInt32) :=
  (s i).map (fun I => (region I, I.width, I.height))

def regionOf (s : RegionImages) (i : Nat) : Option VxRectangle := (s i).map region

theorem regionOf_eq_view (s : RegionImages) (i : Nat) : s.regionOf i = (s.view i).map Prod.fst := by
  unfold regionOf view
  rw [Option.map_map]
  rfl

theorem regionOf_congr {s t : RegionImages} {i : Nat} (h : t.view i = s.view i) : t.regionOf i = s.regionOf i := by
  rw [regionOf_eq_view, regionOf_eq_view, h]

theorem region_of_ordered {I : RegionImage} (h : I.validRoi.Ordered) : region I = I.validRoi := if_pos h

theorem region_reset (I : RegionImage) : region I.reset = I.whole := by
  apply region_of_ordered
  exact ⟨UInt32.le_iff_toNat_le.2 (Nat.zero_le _), UInt32.le_iff_toNat_le.2 (Nat.zero_le _)⟩

/-- A reported region is inside its image. -/
theorem region_inside (I : RegionImage) : (region I).endX ≤ I.width ∧ (region I).endY ≤ I.height := by
  unfold region
  split
  · exact ⟨I.endX_le, I.endY_le⟩
  · exact ⟨UInt32.le_refl _, UInt32.le_refl _⟩

theorem vxGetValidRegionImage_snd (s : RegionImages) (i : Nat) : (s.vxGetValidRegionImage i).2 = s.regionOf i := by
  unfold vxGetValidRegionImage regionOf
  cases hi : s i with
  | none => rfl
  | some I =>
    simp only [Option.map_some, region]
    split <;> rfl

theorem vxGetValidRegionImage_view (s : RegionImages) (i j : Nat) : (s.vxGetValidRegionImage i).1.view j = s.view j := by
  unfold vxGetValidRegionImage
  cases hi : s i with
  | none => rfl
  | some I =>
    simp only
    split
    · rfl
    · rename_i hn
      unfold view
      by_cases hj : j = i
      · subst hj
        simp only [Function.update_self, hi, Option.map_some, region_reset]
        rw [region, if_neg hn]
        rfl
      · simp only [Function.update_of_ne hj]

end RegionImages

/-- `R` is where all of `rects` overlap; the whole range of coordinates when there are none. -/
structure VxRectangle.IsOverlap (R : VxRectangle) (rects : List VxRectangle) : Prop where
  startX : ∀ x, R.startX ≤ x ↔ ∀ r ∈ rects, r.startX ≤ x
  startY : ∀ y, R.startY ≤ y ↔ ∀ r ∈ rects, r.startY ≤ y
  endX : ∀ x, x ≤ R.endX ↔ ∀ r ∈ rects, x ≤ r.endX
  endY : ∀ y, y ≤ R.endY ↔ ∀ r ∈ rects, y ≤ r.endY

namespace VxRectangle

theorem ite_le_iff (a b x : UInt32) : (if a < b then b else a) ≤ x ↔ a ≤ x ∧ b ≤ x := by
  simp only [UInt32.le_iff_toNat_le, UInt32.lt_iff_toNat_lt]
  split <;> omega

theorem le_ite_iff (a b x : UInt32) : x ≤ (if b < a then b else a) ↔ x ≤ a ∧ x ≤ b := by
  simp only [UInt32.le_iff_toNat_le, UInt32.lt_iff_toNat_lt]
  split <;> omega

theorem isOverlap_nil : IsOverlap ⟨0, 0, 0xFFFFFFFF, 0xFFFFFFFF⟩ [] := by
  have hmax : ∀ x : UInt32, x ≤ 0xFFFFFFFF := fun x => UInt32.le_iff_toNat_le.2 (Nat.le_of_lt_succ x.toNat_lt)
  refine ⟨fun x => ?_, fun x => ?_, fun x => ?_, fun x => ?_⟩
  · simp
  · simp
  · simpa using hmax x
  · simpa using hmax x

/-- One more region overlaps with what the others leave. -/
theorem IsOverlap.narrow {R : VxRectangle} {rects : List VxRectangle} (h : R.IsOverlap rects) (rect : VxRectangle) :
    (R.narrow rect).IsOverlap (rects ++ [rect]) := by
  refine ⟨fun x => ?_, fun x => ?_, fun x => ?_, fun x => ?_⟩
  · show (if R.startX < rect.startX then _ else _) ≤ x ↔ _
    rw [ite_le_iff, h.startX]
    simp [or_imp, forall_and]
  · show (if R.startY < rect.startY then _ else _) ≤ x ↔ _
    rw [ite_le_iff, h.startY]
    simp [or_imp, forall_and]
  · show x ≤ (if rect.endX < R.endX then _ else _) ↔ _
    rw [le_ite_iff, h.endX]
    simp [or_imp, forall_and]
  · show x ≤ (if rect.endY < R.endY then _ else _) ↔ _
    rw [le_ite_iff, h.endY]
    simp [or_imp, forall_and]

theorem eq_of_forall_le_iff {a b : UInt32} (h : ∀ x, a ≤ x ↔ b ≤ x) : a = b :=
  UInt32.le_antisymm ((h b).2 (UInt32.le_refl b)) ((h a).1 (UInt32.le_refl a))

theorem eq_of_forall_ge_iff {a b : UInt32} (h : ∀ x, x ≤ a ↔ x ≤ b) : a = b :=
  UInt32.le_antisymm ((h a).1 (UInt32.le_refl a)) ((h b).2 (UInt32.le_refl b))

theorem IsOverlap.unique {R R' : VxRectangle} {rects : List VxRectangle} (h : R.IsOverlap rects) (h' : R'.IsOverlap rects) :
    R = R' := by
  have hsx := eq_of_forall_le_iff (fun x => (h.startX x).trans (h'.startX x).symm)
  have hsy := eq_of_forall_le_iff (fun x => (h.startY x).trans (h'.startY x).symm)
  have hex := eq_of_forall_ge_iff (fun x => (h.endX x).trans (h'.endX x).symm)
  have hey := eq_of_forall_ge_iff (fun x => (h.endY x).trans (h'.endY x).symm)
  cases R
  cases R'
  simp only at hsx hsy hex hey
  subst hsx hsy hex hey
  rfl

/-- Regions that are replaced by the overlap of all still overlap there. -/
theorem IsOverlap.replace {R : VxRectangle} {rects rects' : List VxRectangle} (h : R.IsOverlap rects) (hR : R ∈ rects')
    (hold : ∀ r ∈ rects', r ∈ rects ∨ r = R) : R.IsOverlap rects' := by
  refine ⟨fun x => ⟨fun hx r hr => ?_, fun hx => hx R hR⟩, fun x => ⟨fun hx r hr => ?_, fun hx => hx R hR⟩,
    fun x => ⟨fun hx r hr => ?_, fun hx => hx R hR⟩, fun x => ⟨fun hx r hr => ?_, fun hx => hx R hR⟩⟩
  · obtain hr | rfl := hold r hr
    · exact (h.startX x).1 hx r hr
    · exact hx
  · obtain hr | rfl := hold r hr
    · exact (h.startY x).1 hx r hr
    · exact hx
  · obtain hr | rfl := hold r hr
    · exact (h.endX x).1 hx r hr
    · exact hx
  · obtain hr | rfl := hold r hr
    · exact (h.endY x).1 hx r hr
    · exact hx

end VxRectangle

namespace RegionImages

theorem eq_none_iff_view (s : RegionImages) (i : Nat) : s i = none ↔ s.view i = none := Option.map_eq_none_iff.symm

theorem narrowAll_view : ∀ (is : List Nat) (s : RegionImages) (out : VxRectangle) (j : Nat),
    (s.narrowAll out is).1.view j = s.view j
  | [], _, _, _ => rfl
  | i :: is, s, out, j => by
    have hview := s.vxGetValidRegionImage_view i j
    unfold narrowAll
    split
    · rename_i s' heq
      rwa [heq] at hview
    · rename_i s' rect heq
      rw [heq] at hview
      exact (narrowAll_view is s' _ j).trans hview

/-- The regions of valid images leave of `out` where all overlap with it. -/
theorem narrowAll_of_valid : ∀ (is : List Nat) (s : RegionImages) (out : VxRectangle) (before : List VxRectangle),
    out.IsOverlap before → (∀ i ∈ is, s i ≠ none) →
      ∃ R, (s.narrowAll out is).2 = some R ∧ R.IsOverlap (before ++ is.filterMap s.regionOf)
  | [], _, out, before, h, _ => ⟨out, rfl, by simpa using h⟩
  | i :: is, s, out, before, h, hvalid => by
    have hview := s.vxGetValidRegionImage_view i
    have hsnd := s.vxGetValidRegionImage_snd i
    unfold narrowAll
    split
    · rename_i s' heq
      rw [heq] at hsnd
      exact absurd (Option.map_eq_none_iff.1 hsnd.symm) (hvalid i List.mem_cons_self)
    · rename_i s' rect heq
      rw [heq] at hview hsnd
      have hvalid' : ∀ j ∈ is, s' j ≠ none := by
        intro j hj
        rw [ne_eq, eq_none_iff_view, hview j, ← eq_none_iff_view]
        exact hvalid j (List.mem_cons_of_mem _ hj)
      obtain ⟨R, hR, hover⟩ := narrowAll_of_valid is s' _ _ (h.narrow rect) hvalid'
      have hreg : s'.regionOf = s.regionOf := funext (fun j => regionOf_congr (hview j))
      refine ⟨R, hR, ?_⟩
      rw [List.filterMap_cons_some hsnd.symm, ← hreg]
      simpa using hover

theorem narrowAll_of_invalid : ∀ (is : List Nat) (s : RegionImages) (out : VxRectangle), (∃ i ∈ is, s i = none) →
    (s.narrowAll out is).2 = none
  | [], _, _, h => by
    obtain ⟨i, hi, -⟩ := h
    cases hi
  | i :: is, s, out, h => by
    have hview := s.vxGetValidRegionImage_view i
    have hsnd := s.vxGetValidRegionImage_snd i
    unfold narrowAll
    split
    · rfl
    · rename_i s' rect heq
      rw [heq] at hview hsnd
      apply narrowAll_of_invalid
      obtain ⟨j, hj, hnone⟩ := h
      obtain rfl | hj := List.mem_cons.1 hj
      · rw [regionOf, hnone] at hsnd
        cases hsnd
      · refine ⟨j, hj, ?_⟩
        rw [eq_none_iff_view, hview j, ← eq_none_iff_view]
        exact hnone

/-- `rect` can be the valid region of image `i`. -/
def Admits (s : RegionImages) (rect : VxRectangle) (i : Nat) : Prop :=
  ∃ I, s i = some I ∧ rect.Ordered ∧ rect.endX ≤ I.width ∧ rect.endY ≤ I.height

theorem vxSetImageValidRectangle_of_admits {s : RegionImages} {rect : VxRectangle} {i : Nat} (h : s.Admits rect i) :
    (s.vxSetImageValidRectangle i (some rect)).2 = vxSuccess ∧
      ∀ j, (s.vxSetImageValidRectangle i (some rect)).1.view j =
        if j = i then (s.view i).map (fun v => (rect, v.2)) else s.view j := by
  obtain ⟨I, hi, hfits⟩ := h
  unfold vxSetImageValidRectangle
  simp only [hi, dif_pos hfits, true_and]
  intro j
  by_cases hj : j = i
  · subst hj
    rw [if_pos rfl]
    unfold view
    simp only [Function.update_self, hi, Option.map_some]
    rw [region_of_ordered hfits.1]
  · rw [if_neg hj]
    unfold view
    rw [Function.update_of_ne hj]

theorem vxSetImageValidRectangle_of_not_admits {s : RegionImages} {rect : VxRectangle} {i : Nat} (h : ¬ s.Admits rect i) :
    (s.vxSetImageValidRectangle i (some rect)).1 = s ∧ (s.vxSetImageValidRectangle i (some rect)).2 ≠ vxSuccess := by
  unfold vxSetImageValidRectangle
  cases hi : s i with
  | none => exact ⟨rfl, vxErrorInvalidReference_ne⟩
  | some I =>
    have hfits : ¬ (rect.Ordered ∧ rect.endX ≤ I.width ∧ rect.endY ≤ I.height) := fun hf => h ⟨I, hi, hf⟩
    simp only [dif_neg hfits, true_and]
    exact vxErrorInvalidParameters_ne

/-- What is admitted depends on the sizes only. -/
theorem admits_iff_view (s : RegionImages) (rect : VxRectangle) (i : Nat) : s.Admits rect i ↔
    ∃ v, s.view i = some v ∧ rect.Ordered ∧ rect.endX ≤ v.2.1 ∧ rect.endY ≤ v.2.2 := by
  unfold Admits view
  cases s i with
  | none => simp
  | some I => simp

theorem Admits.set {s : RegionImages} {rect : VxRectangle} {i j : Nat} (h : s.Admits rect i) (hj : s.Admits rect j) :
    (s.vxSetImageValidRectangle i (some rect)).1.Admits rect j := by
  obtain ⟨v, hv, hfits⟩ := (admits_iff_view s rect j).1 hj
  rw [admits_iff_view, (vxSetImageValidRectangle_of_admits h).2 j]
  by_cases hji : j = i
  · subst hji
    rw [if_pos rfl, hv]
    exact ⟨(rect, v.2), rfl, hfits⟩
  · rw [if_neg hji]
    exact ⟨v, hv, hfits⟩

/-- Where every image admits `rect`, all get it and no other image is touched. -/
theorem setAll_of_admits : ∀ (is : List Nat) (s : RegionImages) (rect : VxRectangle), (∀ i ∈ is, s.Admits rect i) →
    (s.setAll rect is).2 = vxSuccess ∧
      ∀ j, (s.setAll rect is).1.view j = if j ∈ is then (s.view j).map (fun v => (rect, v.2)) else s.view j
  | [], _, _, _ => ⟨rfl, fun j => by rw [if_neg List.not_mem_nil]; rfl⟩
  | i :: is, s, rect, h => by
    have hi := h i List.mem_cons_self
    obtain ⟨hstatus, hview⟩ := vxSetImageValidRectangle_of_admits hi
    obtain ⟨hs, hv⟩ := setAll_of_admits is (s.vxSetImageValidRectangle i (some rect)).1 rect
      (fun j hj => hi.set (h j (List.mem_cons_of_mem _ hj)))
    unfold setAll
    simp only [if_pos hstatus]
    refine ⟨hs, fun j => ?_⟩
    rw [hv j, hview j]
    by_cases hji : j = i
    · subst hji
      simp only [if_true, List.mem_cons, true_or, Option.map_map]
      split <;> rfl
    · simp only [List.mem_cons, hji, false_or, if_false]

theorem setAll_of_not_admits {s : RegionImages} {rect : VxRectangle} {i : Nat} {is : List Nat} (h : ¬ s.Admits rect i) :
    (s.setAll rect (i :: is)).1 = s ∧ (s.setAll rect (i :: is)).2 ≠ vxSuccess := by
  obtain ⟨hs, hne⟩ := vxSetImageValidRectangle_of_not_admits h
  unfold setAll
  simp only [if_neg hne]
  exact ⟨hs, hne⟩

/-! ### The whole call -/

/-- Every reported region is as before. -/
def SameRegions (s s' : RegionImages) : Prop := ∀ i, s'.regionOf i = s.regionOf i

/-- What is checked before a region is computed. -/
structure Usable (s : RegionImages) (prms : ValidRectParams) : Prop where
  numInput : ¬ validRectMaxImage < prms.numInputImages
  numOutput : ¬ validRectMaxImage < prms.numOutputImages
  inputs : none ∉ prms.inputs
  outputs : none ∉ prms.outputs
  valid : ∀ i ∈ prms.sources, s i ≠ none

theorem Usable.congr {s s' : RegionImages} {prms : ValidRectParams} (h : s.Usable prms) (hs : ∀ i, s i = none ↔ s' i = none) :
    s'.Usable prms := ⟨h.numInput, h.numOutput, h.inputs, h.outputs, fun i hi hnone => h.valid i hi ((hs i).2 hnone)⟩

theorem tivxKernelConfigValidRect_of_usable {s : RegionImages} {prms : ValidRectParams} (h : s.Usable prms) :
    ∃ (s2 : RegionImages) (R : VxRectangle), (∀ j, s2.view j = s.view j) ∧
      R.IsOverlap (prms.sources.filterMap s.regionOf) ∧
      s.tivxKernelConfigValidRect (some prms) = s2.setAll (prms.padded R) prms.outputs.reduceOption := by
  have hin : ∀ i ∈ prms.inputs.reduceOption, s i ≠ none := fun i hi => h.valid i (List.mem_append_left _ hi)
  have hout : ∀ i ∈ prms.outputs.reduceOption, s i ≠ none := fun i hi => h.valid i (List.mem_append_right _ hi)
  have hv1 := narrowAll_view prms.inputs.reduceOption s ⟨0, 0, 0xFFFFFFFF, 0xFFFFFFFF⟩
  obtain ⟨R1, hR1, hover1⟩ := narrowAll_of_valid _ s _ [] VxRectangle.isOverlap_nil hin
  have hreg : (s.narrowAll ⟨0, 0, 0xFFFFFFFF, 0xFFFFFFFF⟩ prms.inputs.reduceOption).1.regionOf = s.regionOf :=
    funext (fun j => regionOf_congr (hv1 j))
  generalize hs1 : s.narrowAll ⟨0, 0, 0xFFFFFFFF, 0xFFFFFFFF⟩ prms.inputs.reduceOption = r1 at hv1 hR1 hreg
  obtain ⟨s1, o1⟩ := r1
  obtain rfl : o1 = some R1 := hR1
  have hv2 := narrowAll_view prms.outputs.reduceOption s1 R1
  obtain ⟨R, hR, hover⟩ := narrowAll_of_valid _ s1 _ _ hover1 (fun i hi hnone => hout i hi (by
    rw [eq_none_iff_view, ← hv1 i, ← eq_none_iff_view]
    exact hnone))
  generalize hs2 : s1.narrowAll R1 prms.outputs.reduceOption = r2 at hv2 hR
  obtain ⟨s2, o2⟩ := r2
  obtain rfl : o2 = some R := hR
  refine ⟨s2, R, fun j => (hv2 j).trans (hv1 j), ?_, ?_⟩
  · rw [show s1.regionOf = s.regionOf from hreg, List.nil_append, ← List.filterMap_append] at hover
    exact hover
  · unfold tivxKernelConfigValidRect
    simp only [if_neg (not_or.2 ⟨h.numInput, h.numOutput⟩), if_neg (not_or.2 ⟨h.inputs, h.outputs⟩), hs1, hs2]

/-- Without them the call fails and no region changes. -/
theorem tivxKernelConfigValidRect_of_not_usable {s : RegionImages} {prms : ValidRectParams} (h : ¬ s.Usable prms) :
    (s.tivxKernelConfigValidRect (some prms)).2 ≠ vxSuccess ∧ s.SameRegions (s.tivxKernelConfigValidRect (some prms)).1 := by
  have hv1 := narrowAll_view prms.inputs.reduceOption s ⟨0, 0, 0xFFFFFFFF, 0xFFFFFFFF⟩
  have hbad1 := narrowAll_of_invalid prms.inputs.reduceOption s ⟨0, 0, 0xFFFFFFFF, 0xFFFFFFFF⟩
  unfold tivxKernelConfigValidRect
  simp only
  split
  · exact ⟨vxFailure_ne, fun _ => rfl⟩
  rename_i hnum
  split
  · exact ⟨vxFailure_ne, fun _ => rfl⟩
  rename_i hnull
  split
  · rename_i s1 heq
    rw [heq] at hv1
    exact ⟨vxErrorInvalidReference_ne, fun j => regionOf_congr (hv1 j)⟩
  rename_i s1 out heq
  rw [heq] at hv1 hbad1
  have hv2 := narrowAll_view prms.outputs.reduceOption s1 out
  have hbad2 := narrowAll_of_invalid prms.outputs.reduceOption s1 out
  split
  · rename_i s2 heq2
    rw [heq2] at hv2
    exact ⟨vxErrorInvalidReference_ne, fun j => regionOf_congr ((hv2 j).trans (hv1 j))⟩
  rename_i s2 R heq2
  rw [heq2] at hbad2
  -- everything was found to be in order
  refine absurd ⟨(not_or.1 hnum).1, (not_or.1 hnum).2, (not_or.1 hnull).1, (not_or.1 hnull).2, fun i hi hnone => ?_⟩ h
  obtain hi | hi := List.mem_append.1 hi
  · cases hbad1 ⟨i, hi, hnone⟩
  · refine absurd (hbad2 ⟨i, hi, ?_⟩) (by simp)
    rw [eq_none_iff_view, hv1 i, ← eq_none_iff_view]
    exact hnone

end RegionImages

namespace ValidRectParams

/-- What the border mode leaves of a padding. -/
def pad (prms : ValidRectParams) (p : UInt32) : Nat := if prms.borderMode = vxBorderUndefined then p.toNat else 0

/-- `out` is `R` less the padding, in numbers that do not wrap. -/
structure Reduces (prms : ValidRectParams) (R out : VxRectangle) : Prop where
  startX : out.startX.toNat = R.startX.toNat + prms.pad prms.leftPad
  startY : out.startY.toNat = R.startY.toNat + prms.pad prms.topPad
  endX : out.endX.toNat + prms.pad prms.rightPad = R.endX.toNat
  endY : out.endY.toNat + prms.pad prms.botPad = R.endY.toNat

/-- The padding stays within 32 bits. -/
structure PaddingFits (prms : ValidRectParams) (R : VxRectangle) : Prop where
  startX : R.startX.toNat + prms.pad prms.leftPad < 2 ^ 32
  startY : R.startY.toNat + prms.pad prms.topPad < 2 ^ 32
  endX : prms.pad prms.rightPad ≤ R.endX.toNat
  endY : prms.pad prms.botPad ≤ R.endY.toNat

/-- Nothing is taken off. -/
def Unpadded (prms : ValidRectParams) : Prop :=
  prms.pad prms.leftPad = 0 ∧ prms.pad prms.topPad = 0 ∧ prms.pad prms.rightPad = 0 ∧ prms.pad prms.botPad = 0

theorem Unpadded.fits {prms : ValidRectParams} (h : prms.Unpadded) (R : VxRectangle) : prms.PaddingFits R := by
  obtain ⟨hl, ht, hr, hb⟩ := h
  exact ⟨by rw [hl]; exact R.startX.toNat_lt, by rw [ht]; exact R.startY.toNat_lt, by rw [hr]; exact Nat.zero_le _,
    by rw [hb]; exact Nat.zero_le _⟩

theorem PaddingFits.reduces {prms : ValidRectParams} {R : VxRectangle} (h : prms.PaddingFits R) :
    prms.Reduces R (prms.padded R) := by
  obtain ⟨hsx, hsy, hex, hey⟩ := h
  unfold padded
  by_cases hb : prms.borderMode = vxBorderUndefined
  · simp only [pad, if_pos hb] at hsx hsy hex hey
    rw [if_pos hb]
    refine ⟨?_, ?_, ?_, ?_⟩
    · rw [pad, if_pos hb, UInt32.toNat_add, Nat.mod_eq_of_lt hsx]
    · rw [pad, if_pos hb, UInt32.toNat_add, Nat.mod_eq_of_lt hsy]
    · rw [pad, if_pos hb, UInt32.toNat_sub_of_le _ _ (UInt32.le_iff_toNat_le.2 hex), Nat.sub_add_cancel hex]
    · rw [pad, if_pos hb, UInt32.toNat_sub_of_le _ _ (UInt32.le_iff_toNat_le.2 hey), Nat.sub_add_cancel hey]
  · rw [if_neg hb]
    refine ⟨?_, ?_, ?_, ?_⟩ <;> rw [pad, if_neg hb, Nat.add_zero]

theorem Reduces.eq_of_unpadded {prms : ValidRectParams} {R out : VxRectangle} (h : prms.Reduces R out)
    (hu : prms.Unpadded) : out = R := by
  obtain ⟨hl, ht, hr, hb⟩ := hu
  obtain ⟨hsx, hsy, hex, hey⟩ := h
  rw [hl] at hsx
  rw [ht] at hsy
  rw [hr] at hex
  rw [hb] at hey
  cases out
  cases R
  simp only [VxRectangle.mk.injEq]
  exact ⟨UInt32.toNat_inj.1 hsx, UInt32.toNat_inj.1 hsy, UInt32.toNat_inj.1 hex, UInt32.toNat_inj.1 hey⟩

end ValidRectParams

namespace RegionImages

variable {s : RegionImages} {prms : ValidRectParams}

theorem end_le {rects : List VxRectangle} {R : VxRectangle} (h : R.IsOverlap rects) {r : VxRectangle} (hr : r ∈ rects) :
    R.endX ≤ r.endX ∧ R.endY ≤ r.endY :=
  ⟨(h.endX _).1 (UInt32.le_refl _) r hr, (h.endY _).1 (UInt32.le_refl _) r hr⟩

/-- Every output has the region in which those of `sources` overlap, less the padding, and has it inside itself. -/
def HaveOverlap (s : RegionImages) (prms : ValidRectParams) (sources : List Nat) (s' : RegionImages) : Prop :=
  ∃ R : VxRectangle, R.IsOverlap (sources.filterMap s.regionOf) ∧ ∀ o ∈ prms.outputs.reduceOption, ∃ O, s' o = some O ∧
    prms.Reduces R (region O) ∧ (region O).Ordered ∧ (region O).endX ≤ O.width ∧ (region O).endY ≤ O.height

/-- A reduced region that is in order fits every image that it was computed of. -/
theorem admits_of_ordered (hu : s.Usable prms) {s2 : RegionImages} {R : VxRectangle} (hv : ∀ j, s2.view j = s.view j)
    (hover : R.IsOverlap (prms.sources.filterMap s.regionOf)) (hfits : prms.PaddingFits R) (hord : (prms.padded R).Ordered) :
    ∀ o ∈ prms.outputs.reduceOption, s2.Admits (prms.padded R) o := by
  intro o ho
  have hsrc : o ∈ prms.sources := List.mem_append_right _ ho
  obtain ⟨O, hO⟩ := Option.ne_none_iff_exists'.1 (hu.valid o hsrc)
  have hmem : region O ∈ prms.sources.filterMap s.regionOf := List.mem_filterMap.2 ⟨o, hsrc, by rw [regionOf, hO]; rfl⟩
  obtain ⟨hx, hy⟩ := end_le hover hmem
  obtain ⟨hw, hh⟩ := region_inside O
  have hred := hfits.reduces
  rw [admits_iff_view, hv o, view, hO]
  refine ⟨_, rfl, hord, ?_, ?_⟩
  · refine UInt32.le_iff_toNat_le.2 ?_
    have h1 := UInt32.le_iff_toNat_le.1 hx
    have h2 := UInt32.le_iff_toNat_le.1 hw
    have h3 := hred.endX
    show (prms.padded R).endX.toNat ≤ O.width.toNat
    omega
  · refine UInt32.le_iff_toNat_le.2 ?_
    have h1 := UInt32.le_iff_toNat_le.1 hy
    have h2 := UInt32.le_iff_toNat_le.1 hh
    have h3 := hred.endY
    show (prms.padded R).endY.toNat ≤ O.height.toNat
    omega

/-- The two outcomes of a call whose padding fits. -/
theorem tivxKernelConfigValidRect_cases
    (hfits : ∀ R : VxRectangle, R.IsOverlap (prms.sources.filterMap s.regionOf) → prms.PaddingFits R) :
    ((s.tivxKernelConfigValidRect (some prms)).2 ≠ vxSuccess ∧ s.SameRegions (s.tivxKernelConfigValidRect (some prms)).1) ∨
      ∃ R : VxRectangle, s.Usable prms ∧ R.IsOverlap (prms.sources.filterMap s.regionOf) ∧
        (prms.outputs.reduceOption ≠ [] → (prms.padded R).Ordered) ∧
        (∀ o ∈ prms.outputs.reduceOption, s.Admits (prms.padded R) o) ∧
        (s.tivxKernelConfigValidRect (some prms)).2 = vxSuccess ∧
        ∀ j, (s.tivxKernelConfigValidRect (some prms)).1.view j =
          if j ∈ prms.outputs.reduceOption then (s.view j).map (fun v => (prms.padded R, v.2)) else s.view j := by
  by_cases hu : s.Usable prms
  · obtain ⟨s2, R, hv, hover, heq⟩ := tivxKernelConfigValidRect_of_usable hu
    rw [heq]
    have hR := hfits R hover
    by_cases hord : prms.outputs.reduceOption ≠ [] → (prms.padded R).Ordered
    · have hadm : ∀ o ∈ prms.outputs.reduceOption, s2.Admits (prms.padded R) o :=
        fun o ho => admits_of_ordered hu hv hover hR (hord (List.ne_nil_of_mem ho)) o ho
      obtain ⟨hstatus, hview⟩ := setAll_of_admits _ s2 (prms.padded R) hadm
      refine .inr ⟨R, hu, hover, hord, fun o ho => ?_, hstatus, fun j => ?_⟩
      · rw [admits_iff_view, ← hv o, ← admits_iff_view]
        exact hadm o ho
      · rw [hview j, hv j]
    · obtain ⟨hne, hord⟩ := Classical.not_imp.1 hord
      obtain ⟨o, os, hos⟩ := List.exists_cons_of_ne_nil hne
      have hnot : ¬ s2.Admits (prms.padded R) o := by
        rintro ⟨I, -, hI, -⟩
        exact hord hI
      obtain ⟨hs, hstatus⟩ : (s2.setAll (prms.padded R) (o :: os)).1 = s2 ∧ _ := setAll_of_not_admits hnot
      rw [hos]
      refine .inl ⟨hstatus, fun j => ?_⟩
      rw [hs]
      exact regionOf_congr (hv j)
  · exact .inl (tivxKernelConfigValidRect_of_not_usable hu)

/-- What is claimed of the call: the outputs get the overlap of the inputs' regions, and keep it when configured once more. -/
def ConfiguresInputs (s : RegionImages) (prms : ValidRectParams) : Prop :=
  ((s.tivxKernelConfigValidRect (some prms)).2 ≠ vxSuccess ∧
    ∀ o ∈ prms.outputs.reduceOption, (s.tivxKernelConfigValidRect (some prms)).1.regionOf o = s.regionOf o) ∨
  ((s.tivxKernelConfigValidRect (some prms)).2 = vxSuccess ∧
    s.HaveOverlap prms prms.inputs.reduceOption (s.tivxKernelConfigValidRect (some prms)).1 ∧
    ∀ o ∈ prms.outputs.reduceOption,
      ((s.tivxKernelConfigValidRect (some prms)).1.tivxKernelConfigValidRect (some prms)).1.regionOf o =
        (s.tivxKernelConfigValidRect (some prms)).1.regionOf o)

/-- What the call does: the outputs' own regions count among those that must overlap, no other image changes, and without padding
one more configuration succeeds and changes nothing. -/
def ConfiguresAll (s : RegionImages) (prms : ValidRectParams) : Prop :=
  ((s.tivxKernelConfigValidRect (some prms)).2 ≠ vxSuccess ∧ s.SameRegions (s.tivxKernelConfigValidRect (some prms)).1) ∨
  ((s.tivxKernelConfigValidRect (some prms)).2 = vxSuccess ∧
    s.HaveOverlap prms prms.sources (s.tivxKernelConfigValidRect (some prms)).1 ∧
    (∀ j ∉ prms.outputs.reduceOption, (s.tivxKernelConfigValidRect (some prms)).1.regionOf j = s.regionOf j) ∧
    (prms.Unpadded →
      ((s.tivxKernelConfigValidRect (some prms)).1.tivxKernelConfigValidRect (some prms)).2 = vxSuccess ∧
      (s.tivxKernelConfigValidRect (some prms)).1.SameRegions
        ((s.tivxKernelConfigValidRect (some prms)).1.tivxKernelConfigValidRect (some prms)).1))

/-- The regions after a call without padding still overlap where they did. -/
theorem overlap_after {s' : RegionImages} {R : VxRectangle} (hover : R.IsOverlap (prms.sources.filterMap s.regionOf))
    (hvalid : ∀ i ∈ prms.sources, s i ≠ none) (hne : prms.outputs.reduceOption ≠ [])
    (hs' : ∀ j, s'.regionOf j = if j ∈ prms.outputs.reduceOption then (s.regionOf j).map (fun _ => R) else s.regionOf j) :
    R.IsOverlap (prms.sources.filterMap s'.regionOf) := by
  obtain ⟨o, os, hos⟩ := List.exists_cons_of_ne_nil hne
  have ho : o ∈ prms.outputs.reduceOption := hos ▸ List.mem_cons_self
  apply hover.replace
  · refine List.mem_filterMap.2 ⟨o, List.mem_append_right _ ho, ?_⟩
    obtain ⟨O, hO⟩ := Option.ne_none_iff_exists'.1 (hvalid o (List.mem_append_right _ ho))
    rw [hs' o, if_pos ho, regionOf, hO]
    rfl
  · intro r hr
    obtain ⟨i, hi, hir⟩ := List.mem_filterMap.1 hr
    rw [hs' i] at hir
    split at hir
    · obtain ⟨r', -, rfl⟩ := Option.map_eq_some_iff.1 hir
      exact .inr rfl
    · exact .inl (List.mem_filterMap.2 ⟨i, hi, hir⟩)

theorem configuresAll_of_fits (s : RegionImages) (prms : ValidRectParams)
    (hfits : ∀ R : VxRectangle, R.IsOverlap (prms.sources.filterMap s.regionOf) → prms.PaddingFits R) :
    s.ConfiguresAll prms := by
  obtain hfail | ⟨R, hu, hover, hord, hadm, hstatus, hview⟩ := tivxKernelConfigValidRect_cases hfits
  · exact .inl hfail
  refine .inr ⟨hstatus, ⟨R, hover, fun o ho => ?_⟩, fun j hj => ?_, fun hun => ?_⟩
  · obtain ⟨v, hv, hfit⟩ := (admits_iff_view s (prms.padded R) o).1 (hadm o ho)
    have hvo := hview o
    rw [if_pos ho, hv, view] at hvo
    obtain ⟨O, hO, heq⟩ := Option.map_eq_some_iff.1 hvo
    simp only [Prod.mk.injEq] at heq
    obtain ⟨hreg, hdims⟩ := heq
    rw [← hdims] at hfit
    refine ⟨O, hO, ?_⟩
    rw [hreg]
    exact ⟨(hfits R hover).reduces, hfit⟩
  · apply regionOf_congr
    rw [hview j, if_neg hj]
  · have hpad : prms.padded R = R := (hfits R hover).reduces.eq_of_unpadded hun
    rw [hpad] at hview hadm hord
    generalize (s.tivxKernelConfigValidRect (some prms)).1 = s' at hview
    have hreg : ∀ j, s'.regionOf j =
        if j ∈ prms.outputs.reduceOption then (s.regionOf j).map (fun _ => R) else s.regionOf j := by
      intro j
      rw [regionOf_eq_view, regionOf_eq_view, hview j]
      split <;> simp [Option.map_map, Function.comp_def]
    have hu' : s'.Usable prms := hu.congr (fun i => by
      rw [eq_none_iff_view, eq_none_iff_view, hview i]
      split <;> simp)
    obtain ⟨s2, R', hv2, hover', heq⟩ := tivxKernelConfigValidRect_of_usable hu'
    have hpad' : prms.padded R' = R' := (hun.fits R').reduces.eq_of_unpadded hun
    rw [heq, hpad']
    by_cases hne : prms.outputs.reduceOption = []
    · rw [hne]
      exact ⟨rfl, fun j => regionOf_congr (hv2 j)⟩
    · obtain rfl : R' = R := hover'.unique (overlap_after hover hu.valid hne hreg)
      have hadm2 : ∀ o ∈ prms.outputs.reduceOption, s2.Admits R' o := by
        intro o ho
        obtain ⟨v, hv, hfit⟩ := (admits_iff_view s R' o).1 (hadm o ho)
        rw [admits_iff_view, hv2 o, hview o, if_pos ho, hv]
        exact ⟨_, rfl, hfit⟩
      obtain ⟨hst, hset⟩ := setAll_of_admits _ s2 R' hadm2
      refine ⟨hst, fun j => regionOf_congr ?_⟩
      rw [hset j, hv2 j, hview j]
      split <;> simp [Option.map_map, Function.comp_def]

/-! ### Where the inputs' regions are not what the outputs get -/

/-- A whole image. -/
def wholeImage (width height : UInt32) : RegionImage :=
  ⟨width, height, ⟨0, 0, width, height⟩, UInt32.le_refl _, UInt32.le_refl _⟩

/-- An input of 8 by 8 whose region starts at `startX`, and an output as large as `size`. -/
def inputAndOutput (startX size : UInt32) : RegionImages
  | 0 => some ⟨8, 8, ⟨startX, 0, 8, 8⟩, UInt32.le_refl _, UInt32.le_refl _⟩
  | 1 => some (wholeImage size size)
  | _ => none

/-- One input and one output. -/
def oneToOne (leftPad rightPad : UInt32) (borderMode : Int) : ValidRectParams where
  inImg := fun _ => some 0
  numInputImages := 1
  outImg := fun _ => some 1
  numOutputImages := 1
  topPad := 0
  botPad := 0
  rightPad := rightPad
  leftPad := leftPad
  borderMode := borderMode

theorem isOverlap_singleton (r : VxRectangle) : r.IsOverlap [r] := by
  refine ⟨fun x => ?_, fun x => ?_, fun x => ?_, fun x => ?_⟩ <;> simp

/-- An output that does not have the reduced region of a single input. -/
theorem not_haveOverlap {s' : RegionImages} {sources : List Nat} (rect out : VxRectangle)
    (hsources : sources.filterMap s.regionOf = [rect]) (hout : s'.regionOf 1 = some out) (hmem : 1 ∈ prms.outputs.reduceOption)
    (hne : out.startX.toNat ≠ rect.startX.toNat + prms.pad prms.leftPad ∨
      out.endX.toNat + prms.pad prms.rightPad ≠ rect.endX.toNat) :
    ¬ s.HaveOverlap prms sources s' := by
  rintro ⟨R, hR, h⟩
  rw [hsources] at hR
  obtain rfl : R = rect := hR.unique (isOverlap_singleton rect)
  obtain ⟨O, hO, hred, -⟩ := h 1 hmem
  rw [regionOf, hO, Option.map_some] at hout
  obtain rfl := Option.some.inj hout
  obtain hne | hne := hne
  · exact hne hred.startX
  · exact hne hred.endX

/-- An output smaller than the input keeps its own region, a padding is taken off once more, and a padding wraps. -/
theorem configures_otherwise : ¬ ConfiguresInputs (inputAndOutput 0 4) (oneToOne 0 0 0) ∧
    ¬ ConfiguresInputs (inputAndOutput 0 8) (oneToOne 1 1 vxBorderUndefined) ∧
    ¬ ConfiguresInputs (inputAndOutput 1 8) (oneToOne 0xFFFFFFFF 0 vxBorderUndefined) := by
  refine ⟨?_, ?_, ?_⟩
  · rintro (⟨hfail, -⟩ | ⟨-, hover, -⟩)
    · exact hfail (by decide +kernel)
    · exact not_haveOverlap ⟨0, 0, 8, 8⟩ ⟨0, 0, 4, 4⟩ (by decide +kernel) (by decide +kernel) (by decide +kernel)
        (.inr (by decide +kernel)) hover
  · rintro (⟨hfail, -⟩ | ⟨-, -, hsame⟩)
    · exact hfail (by decide +kernel)
    · exact absurd (hsame 1 (by decide +kernel)) (by decide +kernel)
  · rintro (⟨hfail, -⟩ | ⟨-, hover, -⟩)
    · exact hfail (by decide +kernel)
    · exact not_haveOverlap ⟨1, 0, 8, 8⟩ ⟨0, 0, 8, 8⟩ (by decide +kernel) (by decide +kernel) (by decide +kernel)
        (.inl (by decide +kernel)) hover

/-- A node that needs one pixel on each side: the overlap is the whole output, so the padding fits. -/
theorem configuresAll_padded : ConfiguresAll (inputAndOutput 0 8) (oneToOne 1 1 vxBorderUndefined) := by
  apply configuresAll_of_fits
  intro R hR
  have hlist : (oneToOne 1 1 vxBorderUndefined).sources.filterMap (inputAndOutput 0 8).regionOf =
      [⟨0, 0, 8, 8⟩, ⟨0, 0, 8, 8⟩] := by decide +kernel
  rw [hlist] at hR
  obtain rfl := hR.unique ((isOverlap_singleton ⟨0, 0, 8, 8⟩).replace List.mem_cons_self (fun r hr => by
    obtain rfl : r = ⟨0, 0, 8, 8⟩ := by simpa using hr
    exact .inr rfl))
  exact ⟨by decide, by decide, by decide, by decide⟩

end RegionImages

end Tiovx
