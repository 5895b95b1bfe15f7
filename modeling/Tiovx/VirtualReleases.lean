import Tiovx.VirtualCalls
/-!
# VirtualReleases — virtual objects are released (`vx_image.c`, `vx_pyramid.c`, `vx_array.c`)

An image is taken off the list of its parent, or gives its buffer back, and a pyramid is released with its levels.  With that, what
holds in every state of a run is kept by every call.
-/
namespace Tiovx

open StepSystem SlotTable VirtStore

/-! ### Images and arrays -/

section Destruct

variable {s : VirtStore} {i a : Nat} {I : VirtImage} {A : VirtArray}

/-- What is left of the images: as they were, but for the list of the parent. -/
theorem ownDestructImage_images (h : VirtLinks s.images) (hI : s.images i = some I) (hsub : entries I.subimages = []) :
    ∃ images, (s.ownDestructImage i I).images = Function.update images i none ∧ VirtLinks (Function.update images i none) ∧
      (∀ j, (images j).map placeOf = (s.images j).map placeOf) ∧
      (∀ j, (images j).map (fun J => (J.createType, J.hostPtr)) = (s.images j).map (fun J => (J.createType, J.hostPtr))) ∧
      (I.parent = none → images = s.images) := by
  cases hp : I.parent with
  | none =>
    refine ⟨s.images, ?_, h.destroy hI hsub (Function.update_self ..) (fun j hj _ => Function.update_of_ne hj ..)
      (fun p P hpP _ => ?_),
      fun _ => rfl, fun _ => rfl, fun _ => rfl⟩
    · simp only [VirtStore.ownDestructImage, hp]
      split <;> rfl
    · cases hp.symm.trans hpP
  | some p =>
    obtain ⟨hn, -, P, hP, hm, -⟩ := h.child i I p hI hp
    have hpi : p ≠ i := by
      rintro rfl
      obtain rfl : I = P := Option.some.inj (hI.symm.trans hP)
      rw [hsub] at hm
      cases hm
    obtain ⟨t, ht⟩ := Option.ne_none_iff_exists'.1 (fun hnone => clearFirst_eq_none.1 hnone hm)
    refine ⟨Function.update s.images p (some { P with subimages := t }), ?_, h.destroy hI hsub (Function.update_self ..)
      (fun j hj hjp => ?_) (fun q Q hq hQ => ?_), map_placeOf_update hP rfl rfl, fun j => ?_, fun hnone => by cases hnone⟩
    · simp only [VirtStore.ownDestructImage, if_neg hn, hp, hP, ht, VirtStore.setImage]
    · have hne : j ≠ p := by
        rintro rfl
        exact hjp hp
      rw [Function.update_of_ne hj, Function.update_of_ne hne]
    · obtain rfl : p = q := Option.some.inj (hp.symm.trans hq)
      obtain rfl : P = Q := Option.some.inj (hP.symm.trans hQ)
      exact ⟨t, (clearFirst_spec ht).2, by rw [Function.update_of_ne hpi, Function.update_self]⟩
    · by_cases hjp : j = p
      · subst hjp
        rw [Function.update_self, hP]
        rfl
      · rw [Function.update_of_ne hjp]

theorem ownDestructImage_arrays (s : VirtStore) (i : Nat) (I : VirtImage) : (s.ownDestructImage i I).arrays = s.arrays := by
  unfold VirtStore.ownDestructImage
  simp only
  repeat' split
  all_goals rfl

theorem ownDestructImage_pyramids (s : VirtStore) (i : Nat) (I : VirtImage) :
    (s.ownDestructImage i I).pyramids = s.pyramids := by
  unfold VirtStore.ownDestructImage
  simp only
  repeat' split
  all_goals rfl

theorem ownDestructImage_buffers (s : VirtStore) (i : Nat) (I : VirtImage) : (s.ownDestructImage i I).buffers =
    if I.createType = .normal then Function.update s.buffers I.hostPtr false else s.buffers := by
  unfold VirtStore.ownDestructImage
  simp only
  repeat' split
  all_goals rfl

theorem VirtBuffers.zero (h : VirtBuffers s) : s.buffers 0 = false := by
  cases hb : s.buffers 0 with
  | false => rfl
  | true => exact absurd rfl ((h.held 0).1 hb).1

/-- The buffer of an image is given back with it. -/
theorem ownDestructImage_buffersOk (h : VirtLinks s.images) (hb : VirtBuffers s) (hI : s.images i = some I)
    (hsub : entries I.subimages = []) : VirtBuffers (s.ownDestructImage i I) := by
  obtain ⟨images, himg, -, -, hsame, -⟩ := ownDestructImage_images h hI hsub
  have hbuf := ownDestructImage_buffers s i I
  refine hb.free (r := .image i) (fun r b _ => ?_) (fun b _ => ?_) ?_ ?_
  · cases r with
    | image j =>
      simp only [Holds, himg, ne_eq, VirtRef.image.injEq]
      by_cases hji : j = i
      · subst hji
        rw [Function.update_self]
        refine ⟨?_, fun hc => absurd rfl hc.1⟩
        rintro ⟨J, hJ, -⟩
        cases hJ
      · rw [Function.update_of_ne hji]
        have hj := hsame j
        constructor
        · rintro ⟨J, hJ, h1, h2⟩
          rw [hJ, Option.map_some] at hj
          obtain ⟨J', hJ', he⟩ := Option.map_eq_some_iff.1 hj.symm
          obtain ⟨h3, h4⟩ := Prod.mk.inj he
          exact ⟨hji, J', hJ', h3.trans h1, h4.trans h2⟩
        · rintro ⟨-, J, hJ, h1, h2⟩
          rw [hJ, Option.map_some] at hj
          obtain ⟨J', hJ', he⟩ := Option.map_eq_some_iff.1 hj
          obtain ⟨h3, h4⟩ := Prod.mk.inj he
          exact ⟨J', hJ', h3.trans h1, h4.trans h2⟩
    | array a => simp only [Holds, ownDestructImage_arrays, ne_eq, reduceCtorEq, not_false_eq_true, true_and]
    | pyramid q => simp only [Holds, and_false]
  · rw [hbuf, holds_self hI]
    split
    · rename_i hn
      by_cases hbI : b = I.hostPtr
      · subst hbI
        rw [Function.update_self]
        exact ⟨fun hc => (by cases hc), fun hc => absurd ⟨hn, rfl⟩ hc.2⟩
      · rw [Function.update_of_ne hbI]
        exact ⟨fun hc => ⟨hc, fun hh => hbI hh.2.symm⟩, fun hc => hc.1⟩
    · rename_i hn
      exact ⟨fun hc => ⟨hc, fun hh => hn hh.1⟩, fun hc => hc.1⟩
  · rw [hbuf]
    split
    · by_cases h0 : (0 : Nat) = I.hostPtr
      · rw [← h0, Function.update_self]
      · rw [Function.update_of_ne h0, hb.zero]
    · exact hb.zero
  · rw [ownDestructImage_arrays]
    exact hb.maps

/-- An image that is no level is destroyed after its sub-images. -/
theorem VirtInv.releaseImage (h : VirtInv s) (hI : s.images i = some I) (hsub : entries I.subimages = [])
    (hs : I.scope.isPyramid = false) : VirtInv (s.ownDestructImage i I) := by
  obtain ⟨images, himg, hlinks, hplace, -, -⟩ := ownDestructImage_images h.links hI hsub
  refine ⟨by rw [himg]; exact hlinks, ?_, ownDestructImage_buffersOk h.links h.buffers hI hsub⟩
  rw [himg, ownDestructImage_pyramids]
  refine (h.levels.congr hplace).update_other (fun J hJ => by cases hJ) (fun J hJ => ?_)
  have hi := hplace i
  rw [Option.mem_def.1 hJ, hI, Option.map_some, Option.map_some, Option.some.injEq] at hi
  rw [show J.scope = I.scope from (Prod.mk.inj hi).1]
  exact hs

/-- An array is destroyed with its buffer. -/
theorem VirtInv.releaseArray (h : VirtInv s) (hA : s.arrays a = some A) :
    VirtInv { s with arrays := Function.update s.arrays a none,
                     buffers := Function.update s.buffers A.array.hostPtr false } := by
  refine ⟨h.links, h.levels, h.buffers.free (r := .array a) (fun r b _ => ?_) (fun b _ => ?_) ?_ (fun c C hC h0 => ?_)⟩
  · cases r with
    | image j => simp only [Holds, ne_eq, reduceCtorEq, not_false_eq_true, true_and]
    | array c =>
      simp only [Holds, ne_eq, VirtRef.array.injEq]
      by_cases hca : c = a
      · subst hca
        rw [Function.update_self]
        refine ⟨?_, fun hc => absurd rfl hc.1⟩
        rintro ⟨J, hJ, -⟩
        cases hJ
      · rw [Function.update_of_ne hca]
        exact ⟨fun hc => ⟨hca, hc⟩, fun hc => hc.2⟩
    | pyramid q => simp only [Holds, and_false]
  · rw [holds_selfArray hA]
    by_cases hb : b = A.array.hostPtr
    · subst hb
      simp only [Function.update_self, Bool.false_eq_true, not_true_eq_false, and_false]
    · simp only [Function.update_of_ne hb, hb, not_false_eq_true, and_true]
  · by_cases h0 : (0 : Nat) = A.array.hostPtr
    · simp only [← h0, Function.update_self]
    · simp only [Function.update_of_ne h0, h.buffers.zero]
  · by_cases hca : c = a
    · subst hca
      simp only [Function.update_self, reduceCtorEq] at hC
    · simp only [Function.update_of_ne hca] at hC
      exact h.buffers.maps c C hC h0

end Destruct

/-! ### Pyramids -/

/-- The invariant while pyramid `q` is released, whose levels have no sub-images: some levels may be gone. -/
structure LevelsGoing (q : Nat) (s : VirtStore) : Prop where
  links : VirtLinks s.images
  buffers : VirtBuffers s
  level : ∀ i I r, s.images i = some I → I.scope = .pyramid r → ∃ R, s.pyramids r = some R ∧ R.img I.elementIdx = some i
  registered : ∀ r R k i, s.pyramids r = some R → R.img k = some i → k < R.numLevels ∧
    ∃ I, s.images i = some I ∧ I.scope = .pyramid r ∧ I.elementIdx = k
  whole : ∀ r R, r ≠ q → s.pyramids r = some R → R.img 0 = none → ∀ k, R.img k = none
  bare : ∀ i I, s.images i = some I → I.scope = .pyramid q → entries I.subimages = []

section Pyramid

variable {s : VirtStore} {q : Nat} {Q : VirtPyramid}

/-- The image of a level is destroyed. -/
theorem LevelsGoing.destruct (h : LevelsGoing q s) (hQ : s.pyramids q = some Q) {k i : Nat} {I : VirtImage}
    (hk : Q.img k = some i) (hI : s.images i = some I) (hs : I.scope = .pyramid q) :
    LevelsGoing q ((s.ownDestructImage i I).setPyramid q { Q with img := Function.update Q.img k none }) := by
  have hsub := h.bare i I hI hs
  have hpar : I.parent = none := by
    cases hp : I.parent with
    | none => rfl
    | some p => cases hs.symm.trans (h.links.child i I p hI hp).2.1
  obtain ⟨images, himg, hlinks, -, -, hsame⟩ := ownDestructImage_images h.links hI hsub
  obtain rfl := hsame hpar
  have himages : ((s.ownDestructImage i I).setPyramid q { Q with img := Function.update Q.img k none }).images =
      Function.update s.images i none := himg
  have hpyr : ((s.ownDestructImage i I).setPyramid q { Q with img := Function.update Q.img k none }).pyramids =
      Function.update s.pyramids q (some { Q with img := Function.update Q.img k none }) := by
    rw [← ownDestructImage_pyramids s i I]
    rfl
  have hold : ∀ {j J}, Function.update s.images i none j = some J → j ≠ i ∧ s.images j = some J := by
    intro j J hj
    by_cases hji : j = i
    · rw [hji, Function.update_self] at hj
      cases hj
    · exact ⟨hji, (Function.update_of_ne hji ..).symm.trans hj⟩
  refine ⟨by rw [himages]; exact hlinks, ?_, fun j J r hj hr => ?_, fun r R k' j hR hk' => ?_, fun r R hrq hR => ?_,
    fun j J hj hr => ?_⟩
  · refine (ownDestructImage_buffersOk h.links h.buffers hI hsub).congr rfl (fun r b _ => by cases r <;> rfl) ?_
    rw [show ((s.ownDestructImage i I).setPyramid q { Q with img := Function.update Q.img k none }).arrays = s.arrays from
      ownDestructImage_arrays s i I]
    exact h.buffers.maps
  · rw [himages] at hj
    obtain ⟨hji, hj⟩ := hold hj
    obtain ⟨R, hR, hkR⟩ := h.level j J r hj hr
    rw [hpyr]
    by_cases hrq : r = q
    · subst hrq
      obtain rfl : Q = R := Option.some.inj (hQ.symm.trans hR)
      have hkk : J.elementIdx ≠ k := by
        rintro hkk
        rw [hkk, hk, Option.some.injEq] at hkR
        exact hji hkR.symm
      exact ⟨_, Function.update_self .., (Function.update_of_ne hkk ..).trans hkR⟩
    · exact ⟨R, by rw [Function.update_of_ne hrq, hR], hkR⟩
  · rw [hpyr] at hR
    rw [himages]
    by_cases hrq : r = q
    · subst hrq
      rw [Function.update_self, Option.some.injEq] at hR
      subst hR
      change Function.update Q.img k none k' = some j at hk'
      have hkk : k' ≠ k := by
        rintro rfl
        rw [Function.update_self] at hk'
        cases hk'
      rw [Function.update_of_ne hkk] at hk'
      obtain ⟨hlt, J, hJ, hJs, hJk⟩ := h.registered r Q k' j hQ hk'
      have hji : j ≠ i := by
        rintro rfl
        obtain rfl : I = J := Option.some.inj (hI.symm.trans hJ)
        obtain ⟨-, I', hI', -, hk0⟩ := h.registered r Q k j hQ hk
        obtain rfl : I = I' := Option.some.inj (hI.symm.trans hI')
        exact hkk (hJk.symm.trans hk0)
      exact ⟨hlt, J, by rw [Function.update_of_ne hji, hJ], hJs, hJk⟩
    · rw [Function.update_of_ne hrq] at hR
      obtain ⟨hlt, J, hJ, hJs, hJk⟩ := h.registered r R k' j hR hk'
      have hji : j ≠ i := by
        rintro rfl
        obtain rfl : I = J := Option.some.inj (hI.symm.trans hJ)
        exact hrq (RefScope.pyramid.inj (hJs.symm.trans hs))
      exact ⟨hlt, J, by rw [Function.update_of_ne hji, hJ], hJs, hJk⟩
  · rw [hpyr, Function.update_of_ne hrq] at hR
    exact h.whole r R hrq hR
  · rw [himages] at hj
    exact h.bare j J (hold hj).2 hr

/-- A level is given up, if it is there. -/
theorem LevelsGoing.releaseLevel (h : LevelsGoing q s) (hQ : s.pyramids q = some Q) (k : Nat) :
    LevelsGoing q (s.releaseLevel q k) ∧
      (s.releaseLevel q k).pyramids q = some { Q with img := Function.update Q.img k none } := by
  cases hk : Q.img k with
  | none =>
    have he : s.releaseLevel q k = s := by simp only [VirtStore.releaseLevel, hQ, hk]
    rw [he, ← hk, Function.update_eq_self]
    exact ⟨h, hQ⟩
  | some i =>
    obtain ⟨-, I, hI, hs, -⟩ := h.registered q Q k i hQ hk
    have he : s.releaseLevel q k = (s.ownDestructImage i I).setPyramid q { Q with img := Function.update Q.img k none } := by
      simp only [VirtStore.releaseLevel, hQ, hk, hI]
    rw [he]
    exact ⟨h.destruct hQ hk hI hs, Function.update_self ..⟩

/-- The levels of a list are given up. -/
theorem LevelsGoing.releaseLevels : ∀ (ks : List Nat) {s : VirtStore} {Q : VirtPyramid}, LevelsGoing q s → s.pyramids q = some Q →
    LevelsGoing q (ks.foldl (fun s k => s.releaseLevel q k) s) ∧
      ∃ Q', (ks.foldl (fun s k => s.releaseLevel q k) s).pyramids q = some Q' ∧ Q'.numLevels = Q.numLevels ∧
        (∀ k ∈ ks, Q'.img k = none) ∧ ∀ k, Q.img k = none → Q'.img k = none
  | [], _, Q, h, hQ => ⟨h, Q, hQ, rfl, fun _ hk => (by cases hk), fun _ hk => hk⟩
  | k :: ks, s, Q, h, hQ => by
    obtain ⟨h1, hQ1⟩ := h.releaseLevel hQ k
    obtain ⟨h2, Q', hQ', hn, hgone, hkept⟩ := LevelsGoing.releaseLevels ks h1 hQ1
    refine ⟨h2, Q', hQ', hn, fun j hj => ?_, fun j hj => hkept j ?_⟩
    · rcases List.mem_cons.1 hj with rfl | hj
      · exact hkept j (Function.update_self ..)
      · exact hgone j hj
    · by_cases hjk : j = k
      · subst hjk
        exact Function.update_self ..
      · exact (Function.update_of_ne hjk ..).trans hj

/-- A pyramid is destroyed with its levels, which have no sub-images any more. -/
theorem VirtInv.releasePyramid (h : VirtInv s) (hQ : s.pyramids q = some Q)
    (hbare : ∀ k < Q.numLevels, ∀ i I, Q.img k = some i → s.images i = some I → entries I.subimages = []) :
    VirtInv (s.ownDestructPyramid q Q) := by
  have hgoing : LevelsGoing q s := by
    refine ⟨h.links, h.buffers, h.levels.level, h.levels.registered, fun r R _ => h.levels.whole r R, fun i I hI hs => ?_⟩
    obtain ⟨R, hR, hk⟩ := h.levels.level i I q hI hs
    obtain rfl : Q = R := Option.some.inj (hQ.symm.trans hR)
    exact hbare I.elementIdx (h.levels.registered q Q I.elementIdx i hQ hk).1 i I hk hI
  obtain ⟨h1, Q', hQ', hn, hgone, -⟩ := LevelsGoing.releaseLevels (List.range Q.numLevels) hgoing hQ
  have hnone : ∀ k, Q'.img k = none := by
    intro k
    cases hk : Q'.img k with
    | none => rfl
    | some i =>
      have hlt := (h1.registered q Q' k i hQ' hk).1
      rw [hgone k (List.mem_range.2 (by omega))] at hk
      cases hk
  unfold VirtStore.ownDestructPyramid
  generalize (List.range Q.numLevels).foldl (fun s k => s.releaseLevel q k) s = t at h1 hQ'
  refine ⟨h1.links, ⟨fun i I r hI hr => ?_, fun r R k i hR hk => ?_, fun r R hR => ?_⟩,
    h1.buffers.congr rfl (fun r b _ => by cases r <;> rfl) h1.buffers.maps⟩
  · obtain ⟨R, hR, hk⟩ := h1.level i I r hI hr
    have hrq : r ≠ q := by
      rintro rfl
      obtain rfl : Q' = R := Option.some.inj (hQ'.symm.trans hR)
      cases (hnone I.elementIdx).symm.trans hk
    exact ⟨R, by simp only [Function.update_of_ne hrq, hR], hk⟩
  · by_cases hrq : r = q
    · simp only [hrq, Function.update_self, reduceCtorEq] at hR
    · simp only [Function.update_of_ne hrq] at hR
      exact h1.registered r R k i hR hk
  · by_cases hrq : r = q
    · simp only [hrq, Function.update_self, reduceCtorEq] at hR
    · simp only [Function.update_of_ne hrq] at hR
      exact h1.whole r R hrq hR

end Pyramid

/-! ### Runs -/

section Run

variable {s t : VirtStore}

/-- **Each call keeps the invariant.** -/
theorem virtStep_spec (h : VirtInv s) {a : VirtAction} (hk : keepsVirtuals s a = true) (hs : virtStep s a = some t) :
    VirtInv t := by
  cases a with
  | vxCreateVirtualImage g i width height format =>
    simp only [virtStep] at hs
    split at hs
    · rename_i hi
      obtain ⟨d, hd, rfl⟩ := Option.map_eq_some_iff.1 hs
      exact h.createImage hi (VirtImage.fresh_create (.graph g) 0 hd (fun p => by simp)) rfl
    · cases hs
  | vxCreateVirtualArray g a itemType capacity =>
    simp only [virtStep] at hs
    split at hs
    · rename_i ha
      cases hs
      exact h.setArray (fun J hJ => by rw [ha] at hJ; cases hJ) (fun _ => rfl) (fun _ => rfl)
    · cases hs
  | vxCreateVirtualPyramid g q levels dims width height format =>
    simp only [virtStep] at hs
    split at hs
    · rename_i hc
      cases hs
      exact ⟨h.links, h.levels.createPyramid hc.1 (fun _ => rfl),
        h.buffers.congr rfl (fun r b _ => by cases r <;> rfl) h.buffers.maps⟩
    · cases hs
  | vxGetPyramidLevel q index ids =>
    obtain ⟨Q, hQ, rfl⟩ := Option.map_eq_some_iff.1 hs
    exact h.vxGetPyramidLevel hQ index ids
  | vxCreateImageFromChannel p i host channel =>
    simp only [virtStep] at hs
    split at hs
    · rename_i hi
      cases hs
      exact h.createSubimage hi host (by decide) _ (fun P desc hP hc => inMemory_channel hP hc rfl)
    · cases hs
  | vxCreateImageFromROI p i host rect =>
    simp only [virtStep] at hs
    split at hs
    · rename_i hi
      cases hs
      exact h.createSubimage hi host (by decide) _ (fun P desc hP hc => inMemory_roi hP hc rfl)
    · cases hs
  | setStrideYAlignment i alignment =>
    obtain ⟨I, hI, rfl⟩ := Option.map_eq_some_iff.1 hs
    exact h.setStrideYAlignment hI alignment
  | ownNodeSetAccessibility r isAccessible =>
    cases r with
    | image i =>
      obtain ⟨I, hI, rfl⟩ := Option.map_eq_some_iff.1 hs
      exact h.setImage hI ⟨rfl, rfl, rfl, rfl, rfl, rfl, rfl, fun _ => rfl, fun _ => rfl⟩ (h.links.maps i I hI)
    | array a =>
      obtain ⟨A, hA, rfl⟩ := Option.map_eq_some_iff.1 hs
      exact h.changeArray hA rfl (fun _ => rfl)
    | pyramid q =>
      cases hs
      exact h
  | vxMapImagePatch i planeIndex host =>
    obtain ⟨I, hI, rfl⟩ := Option.map_eq_some_iff.1 hs
    exact h.vxMapImagePatch hI planeIndex host
  | vxUnmapImagePatch i mapId =>
    obtain ⟨I, hI, rfl⟩ := Option.map_eq_some_iff.1 hs
    exact h.vxUnmapImagePatch hI mapId
  | setNumItems a numItems =>
    obtain ⟨A, hA, rfl⟩ := Option.map_eq_some_iff.1 hs
    exact h.changeArray hA rfl (fun _ => rfl)
  | vxMapArrayRange a rangeStart rangeEnd =>
    obtain ⟨A, hA, rfl⟩ := Option.map_eq_some_iff.1 hs
    exact h.vxMapArrayRange hA rangeStart rangeEnd
  | vxUnmapArrayRange a mapId =>
    obtain ⟨A, hA, rfl⟩ := Option.map_eq_some_iff.1 hs
    exact h.vxUnmapArrayRange hA mapId
  | vxVerifyGraph g nodes accepted hosts =>
    cases hs
    exact (vxVerifyGraph_spec h nodes hk accepted hosts).1
  | releaseImage i =>
    obtain ⟨I, hI, hs⟩ := Option.bind_eq_some_iff.1 hs
    split at hs
    · rename_i hc
      cases hs
      exact h.releaseImage hI hc.1 (by simpa using hc.2)
    · cases hs
  | releaseArray a =>
    obtain ⟨A, hA, rfl⟩ := Option.map_eq_some_iff.1 hs
    exact h.releaseArray hA
  | releasePyramid q =>
    obtain ⟨Q, hQ, hs⟩ := Option.bind_eq_some_iff.1 hs
    split at hs
    · rename_i hc
      cases hs
      refine h.releasePyramid hQ (fun k hk i I hi hI => ?_)
      have hall := List.all_eq_true.1 hc k (List.mem_range.2 hk)
      rw [hi, Option.all_some, hI, Option.all_some] at hall
      exact List.isEmpty_iff.1 hall
    · cases hs

theorem VirtInv.start (itemSizes : Int → UInt64) : VirtInv { itemSizes := itemSizes } := by
  have hnone : ∀ r b, ¬ ({ itemSizes := itemSizes } : VirtStore).Holds r b := by
    intro r b hr
    cases r with
    | image i =>
      obtain ⟨I, hI, -⟩ := hr
      cases hI
    | array a =>
      obtain ⟨A, hA, -⟩ := hr
      cases hA
    | pyramid q => cases hr
  refine ⟨⟨?_, ?_, ?_, ?_, ?_, ?_⟩, ⟨?_, ?_, ?_⟩, ⟨fun b => ⟨fun hb => (by cases hb), fun ⟨_, r, hr⟩ => absurd hr (hnone r b)⟩,
    fun r _ b _ hr => absurd hr (hnone r b), ?_⟩⟩
  all_goals
    intros
    contradiction

theorem VirtInv.ok (h : VirtInv s) : VirtualsOk s where
  buffer := by
    intro b hb
    obtain ⟨h0, r, hr⟩ := (h.buffers.held b).1 hb
    exact ⟨r, hr, fun r' hr' => h.buffers.unique r' r b h0 hr' hr⟩
  subimage := by
    intro c C p hC hs
    cases hp : C.parent with
    | none => exact absurd hs ((h.links.root c C hC hp).2 p)
    | some p' =>
      obtain ⟨-, hs', P, hP, hm, hin⟩ := h.links.child c C p' hC hp
      obtain rfl := RefScope.image.inj (hs.symm.trans hs')
      exact ⟨P, hP, rfl, hm, fun k hk => ⟨hin.2.1 k, hin.2.2 k hk⟩⟩
  level := h.levels.level

theorem virtInv_of_reach {itemSizes : Int → UInt64}
    (h : Reach virtStep (fun s a => keepsVirtuals s a = true) { itemSizes := itemSizes } s) : VirtInv s :=
  h.inv (VirtInv.start itemSizes) (fun _ _ _ hs hk hst => virtStep_spec hs hk hst)

/-- **Where outputs are initialised as they were created, each buffer is that of one object, each sub-image and each level is that
of its parent, and no verification loses a map or an alignment.** -/
theorem virtualsKept_of_reach {itemSizes : Int → UInt64}
    (h : Reach virtStep (fun s a => keepsVirtuals s a = true) { itemSizes := itemSizes } s) :
    VirtualsOk s ∧ ∀ g nodes accepted hosts, keepsVirtuals s (.vxVerifyGraph g nodes accepted hosts) = true →
      KeepsMaps s (s.vxVerifyGraph g nodes accepted hosts) :=
  ⟨(virtInv_of_reach h).ok, fun _ nodes accepted hosts hk => (vxVerifyGraph_spec (virtInv_of_reach h) nodes hk accepted hosts).2⟩

/-- An image is verified and mapped, and a region is made of it. -/
theorem virtualsKept_run : ∃ s, VirtualsOk s ∧ s.buffers 0x10000 = true ∧ (s.images 1).isSome = true := by
  have hrun : (exec virtStep keepsVirtuals { itemSizes := fun _ => 1 }
      [.vxCreateVirtualImage 0 0 0 0 .virt,
       .vxVerifyGraph 0 [⟨true, [.image 0 64 48 .u8], true, [.image 0]⟩] true [0x10000],
       .vxCreateImageFromROI 0 1 0 ⟨8, 8, 24, 24⟩,
       .ownNodeSetAccessibility (.image 0) true, .vxMapImagePatch 0 0 0]).map
        (fun s => (s.buffers 0x10000, (s.images 1).isSome)) = some (true, true) := by decide +kernel
  obtain ⟨s, hs, hf⟩ := exists_reach_of_exec hrun
  exact ⟨s, (virtualsKept_of_reach hs).1, (Prod.mk.inj hf).1, (Prod.mk.inj hf).2⟩

/-- A region and a level that are taken before the verification are lost with it, and so is an alignment that is set before. -/
theorem virtuals_lost :
    (∃ s, Reach virtStep (fun s a => anyStep s a = true) { itemSizes := fun _ => 1 } s ∧ ¬ VirtualsOk s ∧
      ∃ C, s.images 1 = some C ∧ C.scope = .image 0) ∧
    (∃ s, Reach virtStep (fun s a => anyStep s a = true) { itemSizes := fun _ => 1 } s ∧ ¬ VirtualsOk s ∧
      ∃ I, s.images 0 = some I ∧ I.scope = .pyramid 0) ∧
    ∃ s, Reach virtStep (fun s a => anyStep s a = true) { itemSizes := fun _ => 1 } s ∧
      ¬ KeepsMaps s (s.vxVerifyGraph 0 [⟨true, [.image 0 64 48 .u8], true, [.image 0]⟩] true [0x10000]) := by
  refine ⟨?_, ?_, ?_⟩
  · have hrun : (exec virtStep anyStep { itemSizes := fun _ => 1 }
        [.vxCreateVirtualImage 0 0 64 48 .u8, .vxCreateImageFromROI 0 1 0x10000 ⟨8, 8, 24, 24⟩,
         .vxVerifyGraph 0 [⟨true, [.image 0 64 48 .u8], true, [.image 0]⟩] true [0x20000]]).map
          (fun s => ((s.images 1).map (·.scope), (s.images 0).map (fun P => entries P.subimages))) =
        some (some (.image 0), some []) := by decide +kernel
    obtain ⟨s, hs, hf⟩ := exists_reach_of_exec hrun
    obtain ⟨h1, h0⟩ := Prod.mk.inj hf
    obtain ⟨C, hC, hscope⟩ := Option.map_eq_some_iff.1 h1
    obtain ⟨P, hP, hsub⟩ := Option.map_eq_some_iff.1 h0
    refine ⟨s, hs, fun hok => ?_, C, hC, hscope⟩
    obtain ⟨P', hP', -, hm, -⟩ := hok.subimage 1 C 0 hC hscope
    obtain rfl : P = P' := Option.some.inj (hP.symm.trans hP')
    rw [hsub] at hm
    cases hm
  · have hrun : (exec virtStep anyStep { itemSizes := fun _ => 1 }
        [.vxCreateVirtualPyramid 0 0 1 (fun w h _ => (w, h)) 64 48 .u8, .vxGetPyramidLevel 0 0 [0],
         .vxVerifyGraph 0 [⟨true, [.pyramid 0 1 64 48 .u8 [1]], true, [.pyramid 0]⟩] true [0x10000]]).map
          (fun s => ((s.images 0).map (fun I => (I.scope, I.elementIdx)), (s.pyramids 0).map (fun Q => Q.img 0))) =
        some (some (.pyramid 0, 0), some (some 1)) := by decide +kernel
    obtain ⟨s, hs, hf⟩ := exists_reach_of_exec hrun
    obtain ⟨h1, h0⟩ := Prod.mk.inj hf
    obtain ⟨I, hI, hplace⟩ := Option.map_eq_some_iff.1 h1
    obtain ⟨hscope, hidx⟩ := Prod.mk.inj hplace
    obtain ⟨Q, hQ, himg⟩ := Option.map_eq_some_iff.1 h0
    refine ⟨s, hs, fun hok => ?_, I, hI, hscope⟩
    obtain ⟨Q', hQ', hk⟩ := hok.level 0 I 0 hI hscope
    obtain rfl : Q = Q' := Option.some.inj (hQ.symm.trans hQ')
    rw [hidx, himg] at hk
    cases hk
  · have hrun : (exec virtStep anyStep { itemSizes := fun _ => 1 }
        [.vxCreateVirtualImage 0 0 64 48 .u8, .setStrideYAlignment 0 128]).map
          (fun s => ((s.images 0).map (·.strideYAlignment),
            ((s.vxVerifyGraph 0 [⟨true, [.image 0 64 48 .u8], true, [.image 0]⟩] true [0x10000]).images 0).map
              (·.strideYAlignment))) = some (some 128, some defaultStrideYAlign) := by decide +kernel
    obtain ⟨s, hs, hf⟩ := exists_reach_of_exec hrun
    obtain ⟨h1, h0⟩ := Prod.mk.inj hf
    obtain ⟨I, hI, hal⟩ := Option.map_eq_some_iff.1 h1
    refine ⟨s, hs, fun hk => ?_⟩
    obtain ⟨I', hI', -, hal'⟩ := hk.image 0 I hI
    rw [hI', Option.map_some, hal', hal] at h0
    cases h0

end Run

end Tiovx
