import Tiovx.VirtualVerify
/-!
# VirtualCalls — virtual objects between verifications (`vx_image.c`, `vx_pyramid.c`, `vx_array.c`)

What the other calls do to buffers, sub-images and levels, and what holds in every state of a run.
-/
namespace Tiovx

open StepSystem SlotTable VirtStore

/-! ### Objects are created -/

section Create

variable {s : VirtStore} {i p : Nat} {I P : VirtImage}

theorem set_replicate_none {α : Type} (n m : Nat) : (List.replicate n (none : Option α)).set m none = List.replicate n none := by
  rw [List.set_replicate_self]

/-- A new image that is no level. -/
theorem VirtInv.createImage (h : VirtInv s) (hi : s.images i = none) (hI : I.Fresh) (hs : I.scope.isPyramid = false) :
    VirtInv (s.setImage i I) :=
  ⟨h.links.fresh hi hI, h.levels.update_other (fun J hJ => by cases hJ; exact hs) (fun J hJ => by rw [hi] at hJ; cases hJ),
    h.buffers.fresh hi hI rfl rfl rfl⟩

/-- What a sub-image is made of has all planes of its parent's memory. -/
theorem inMemory_channel {d : ImageDesc} {channel : ImageChannel} {C : VirtImage}
    (hP : ∀ k, (P.desc.plane k).hostPtr ≠ 0) (hC : Tiovx.vxCreateImageFromChannel P.desc channel = some d) (hd : C.desc = d) :
    InMemory C P := by
  unfold Tiovx.vxCreateImageFromChannel at hC
  split at hC
  · obtain ⟨e, he, rfl⟩ := Option.map_eq_some_iff.1 hC
    obtain rfl := ImageDesc.ownCreateImageInt_eq he
    refine ⟨hP 0, fun k => ?_, fun k hk => ?_⟩
    · rw [hd]
      exact hP channel.plane
    · have hk0 : k = 0 := by
        rw [hd] at hk
        exact Nat.lt_one_iff.1 hk
      subst hk0
      rw [hd]
      rfl
  · cases hC

theorem inMemory_roi {d : ImageDesc} {rect : VxRectangle} {C : VirtImage} (hP : ∀ k, (P.desc.plane k).hostPtr ≠ 0)
    (hC : Tiovx.vxCreateImageFromROI P.desc rect = some d) (hd : C.desc = d) : InMemory C P := by
  unfold Tiovx.vxCreateImageFromROI at hC
  split at hC
  · cases hC
  · obtain ⟨e, he, rfl⟩ := Option.map_eq_some_iff.1 hC
    obtain rfl := ImageDesc.ownCreateImageInt_eq he
    refine ⟨hP 0, fun k => ?_, fun k _ => ?_⟩
    · rw [hd]
      have := hP k
      simp only [ImageDesc.setRegion, ImagePlane.roi]
      omega
    · rw [hd]
      simp only [ImageDesc.setRegion, ImagePlane.roi, Tiovx.ownInitImage, Nat.zero_add]

/-- A sub-image is put into the list of its parent. -/
theorem VirtInv.link (h : VirtInv s) (hi : s.images i = none) (hP : s.images p = some P) {t : List (Option Nat)}
    (ht : putFirst i P.subimages = some t) {C : VirtImage} (hpar : C.parent = some p) (hc : C.createType ≠ .normal)
    (hs : C.scope = .image p) (hsub : entries C.subimages = []) (hin : InMemory C P) :
    VirtInv ((s.setImage p { P with subimages := t }).setImage i C) := by
  have hip : i ≠ p := by
    rintro rfl
    cases hi.symm.trans hP
  refine ⟨h.links.link hi hP ht hpar hc hs hsub hin, ?_, ?_⟩
  · have hlevels : VirtLevels (Function.update s.images p (some { P with subimages := t })) s.pyramids :=
      h.levels.congr (map_placeOf_update hP rfl rfl)
    refine hlevels.update_other (fun J hJ => ?_) (fun J hJ => ?_)
    · obtain rfl := Option.some.inj hJ
      rw [hs]
      rfl
    · rw [Function.update_of_ne hip, hi] at hJ
      cases hJ
  · refine h.buffers.congr rfl (fun r b _ => ?_) h.buffers.maps
    have hp := holds_update (s.setImage p { P with subimages := t }) hP rfl rfl rfl r b
    cases r with
    | image j =>
      by_cases hji : j = i
      · -- the new image has no buffer of its own
        subst hji
        constructor
        · rintro ⟨J, hJ, hn, -⟩
          simp only [VirtStore.setImage, Function.update_self, Option.some.injEq] at hJ
          subst hJ
          exact absurd hn hc
        · rintro ⟨J, hJ, -⟩
          cases hi.symm.trans hJ
      · have hstep : ((s.setImage p { P with subimages := t }).setImage i C).Holds (.image j) b ↔
            (s.setImage p { P with subimages := t }).Holds (.image j) b := by
          simp only [Holds, VirtStore.setImage, Function.update_of_ne hji]
        rw [hstep, hp]
        split
        · rename_i hr
          rw [hr, holds_self hP]
          rfl
        · rfl
    | array a => rfl
    | pyramid q => rfl

/-- An image is created from another, whose memory it has. -/
theorem VirtInv.createSubimage (h : VirtInv s) (hi : s.images i = none) (host : Nat) {createType : ImageCreateType}
    (hc : createType ≠ .normal) (isAccepted : VirtImage → Bool) {create : ImageDesc → Option ImageDesc}
    (hin : ∀ (P : VirtImage) desc, (∀ k, (P.desc.plane k).hostPtr ≠ 0) → create P.desc = some desc →
      InMemory { desc := desc, createType := createType, scope := .image p, parent := some p } P) :
    VirtInv (s.createSubimage p i host createType isAccepted create) := by
  unfold VirtStore.createSubimage
  split
  · exact h
  · rename_i P hP
    split
    · obtain ⟨h1, -, h3, h4⟩ := ownAllocImageBuffer_spec h hP host
      split
      · rename_i t he
        rw [he] at h1
        exact h1
      · rename_i t he
        rw [he] at h1 h3 h4
        obtain ⟨P', hP', hne⟩ := h4 rfl
        simp only at hP' h1 h3
        rw [hP']
        simp only
        split
        · exact h1
        · cases hcr : create P'.desc with
          | none => exact h1
          | some desc =>
            rw [Option.bind_some, ownLinkParentSubimage]
            cases ht : putFirst i P'.subimages with
            | none => exact h1
            | some l =>
              exact h1.link (h3 i hi) hP' ht rfl hc rfl (entries_replicate _)
                (hin P' desc (h1.links.memory p P' hP' hne) hcr)
    · exact h

end Create

/-! ### Levels are taken, attributes are set, and objects are mapped -/

section Calls

variable {s : VirtStore} {i a q : Nat} {I : VirtImage} {A : VirtArray} {Q : VirtPyramid}

theorem VirtInv.vxGetPyramidLevel (h : VirtInv s) (hQ : s.pyramids q = some Q) (index : Nat) (ids : List Nat) :
    VirtInv (s.vxGetPyramidLevel q Q index ids) := by
  have hlevels : VirtInv (if (Q.img 0).isSome then (s, true) else s.ownInitPyramid q Q ids).1 := by
    split
    · exact h
    · rename_i h0
      have hnone := h.levels.whole q Q hQ (by simpa using h0)
      exact (ownInitPyramid_spec h hQ hnone ids).1
  unfold VirtStore.vxGetPyramidLevel
  split
  · split
    · rename_i t he
      rw [he] at hlevels
      exact hlevels
    · rename_i t he
      rw [he] at hlevels
      split
      · exact hlevels
      · split
        · exact hlevels
        · rename_i I hI
          exact hlevels.setImage hI ⟨rfl, rfl, rfl, rfl, rfl, rfl, rfl, fun _ => rfl, fun _ => rfl⟩ (hlevels.links.maps _ I hI)
  · exact h

theorem VirtInv.setStrideYAlignment (h : VirtInv s) (hI : s.images i = some I) (alignment : UInt32) :
    VirtInv (s.setStrideYAlignment i I alignment) := by
  unfold VirtStore.setStrideYAlignment
  split
  · have hplane : ∀ k, (if k < I.desc.planes then VirtImage.alignPlane alignment (I.desc.plane k) else I.desc.plane k).hostPtr =
        (I.desc.plane k).hostPtr := by
      intro k
      split <;> rfl
    refine h.setImage hI ⟨rfl, rfl, rfl, rfl, rfl, rfl, rfl, hplane, fun k => ?_⟩ (fun h0 => h.links.maps i I hI ?_)
    · simp only
      split <;> rfl
    · exact (hplane 0).symm.trans h0
  · exact h

theorem VirtInv.vxMapImagePatch (h : VirtInv s) (hI : s.images i = some I) (planeIndex host : Nat) :
    VirtInv (s.vxMapImagePatch i I planeIndex host) := by
  unfold VirtStore.vxMapImagePatch
  split
  · obtain ⟨h1, -, -, h4⟩ := ownAllocImageBuffer_spec h hI host
    split
    · rename_i t he
      rw [he] at h1
      exact h1
    · rename_i t he
      rw [he] at h1 h4
      obtain ⟨I', hI', hne⟩ := h4 rfl
      simp only at hI'
      rw [hI']
      simp only
      split
      · split
        · exact h1
        · exact h1.setImage hI' ⟨rfl, rfl, rfl, rfl, rfl, rfl, rfl, fun _ => rfl, fun _ => rfl⟩ (fun h0 => absurd h0 hne)
      · exact h1
  · exact h

theorem VirtInv.vxUnmapImagePatch (h : VirtInv s) (hI : s.images i = some I) (mapId : Nat) :
    VirtInv (s.vxUnmapImagePatch i I mapId) := by
  unfold VirtStore.vxUnmapImagePatch
  split
  · refine h.setImage hI ⟨rfl, rfl, rfl, rfl, rfl, rfl, rfl, fun _ => rfl, fun _ => rfl⟩ (fun h0 => ?_)
    show I.maps.set mapId none = _
    rw [h.links.maps i I hI h0, set_replicate_none]
  · exact h

/-- An array is changed in what is not its buffer. -/
theorem VirtInv.changeArray (h : VirtInv s) (hA : s.arrays a = some A) {A' : VirtArray}
    (hhost : A'.array.hostPtr = A.array.hostPtr)
    (hm : A.array.hostPtr = 0 → A'.maps = A.maps) : VirtInv (s.setArray a A') := by
  refine h.setArray (fun J hJ => ?_) (fun hn => ?_) (fun h0 => ?_)
  · obtain rfl := Option.some.inj (hA.symm.trans hJ)
    exact hhost.symm
  · cases hA.symm.trans hn
  · rw [hhost] at h0
    rw [hm h0, h.buffers.maps a A hA h0]

theorem VirtInv.vxMapArrayRange (h : VirtInv s) (hA : s.arrays a = some A) (rangeStart rangeEnd : Nat) :
    VirtInv (s.vxMapArrayRange a A rangeStart rangeEnd) := by
  unfold VirtStore.vxMapArrayRange
  split
  · rename_i hc
    split
    · exact h
    · exact h.changeArray hA rfl (fun h0 => absurd h0 hc.1)
  · exact h

theorem VirtInv.vxUnmapArrayRange (h : VirtInv s) (hA : s.arrays a = some A) (mapId : Nat) :
    VirtInv (s.vxUnmapArrayRange a A mapId) := by
  unfold VirtStore.vxUnmapArrayRange
  split
  · rename_i hc
    exact h.changeArray hA rfl (fun h0 => absurd h0 hc.1)
  · exact h

end Calls

end Tiovx
