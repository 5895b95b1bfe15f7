import Tiovx.PointerMoves
/-!
# PointerRuns — the pointers in every run (`vx_image.c`, `vx_reference.c`)

Sub-images and sub-tensors come and go one at a time, without any effect on the pointers of the others.  With what
`PointerMoves` says of the three functions that give an image other memory, this holds of every run.
-/
namespace Tiovx

open StepSystem SlotTable

/-! ### An image more or less -/

/-- The image with other lists. -/
structure Relisted (J J' : PtrImage) : Prop where
  createType : J'.createType = J.createType
  planes : J'.planes = J.planes
  memOffset : J'.memOffset = J.memOffset
  channelPlane : J'.channelPlane = J.channelPlane
  parent : J'.parent = J.parent
  numParents : J'.numParents = J.numParents

namespace Relisted

variable {J J' C C' : PtrImage}

theorem refl (J : PtrImage) : Relisted J J := ⟨rfl, rfl, rfl, rfl, rfl, rfl⟩

theorem symm (h : Relisted J J') : Relisted J' J :=
  ⟨h.createType.symm, h.planes.symm, h.memOffset.symm, h.channelPlane.symm, h.parent.symm, h.numParents.symm⟩

theorem isSubimage (h : Relisted J J') (hC : Relisted C C') (hs : IsSubimage C J) : IsSubimage C' J' := by
  unfold IsSubimage at hs ⊢
  rw [hC.createType, hC.planes, hC.channelPlane, hC.memOffset, h.planes]
  exact hs

theorem parentPlane (h : Relisted J J') (k : Nat) : J'.parentPlane k = J.parentPlane k := by
  unfold PtrImage.parentPlane
  rw [h.createType, h.channelPlane]

end Relisted

/-- The second store has one image more, with nothing created from it; its parent, if it has one, lists it. -/
structure OneImageMore (s s' : PtrStore) (i : Nat) (I : PtrImage) : Prop where
  fresh : s.images i = none
  new : s'.images i = some I
  subimages : entries I.subimages = []
  subtensors : entries I.subtensors = []
  tensors : s'.tensors = s.tensors
  parentLive : ∀ p, I.parent = some p → ∃ P, s.images p = some P
  forth : ∀ j J, s.images j = some J → ∃ J', s'.images j = some J'
  back : ∀ j J', j ≠ i → s'.images j = some J' → ∃ J, s.images j = some J
  relisted : ∀ j J J', s.images j = some J → s'.images j = some J' → Relisted J J' ∧ J'.subtensors = J.subtensors ∧
    J'.subimages.length = J.subimages.length ∧
    (entries J'.subimages).Perm (if I.parent = some j then i :: entries J.subimages else entries J.subimages)

namespace OneImageMore

variable {s s' : PtrStore} {i j : Nat} {I J J' : PtrImage}

theorem ne (E : OneImageMore s s' i I) (hj : s.images j = some J) : j ≠ i := by
  rintro rfl
  rw [E.fresh] at hj
  cases hj

theorem mem_subimages (E : OneImageMore s s' i I) (hj : s.images j = some J) (hj' : s'.images j = some J') {c : Nat} :
    c ∈ entries J'.subimages ↔ (I.parent = some j ∧ c = i) ∨ c ∈ entries J.subimages := by
  obtain ⟨-, -, -, hperm⟩ := E.relisted j J J' hj hj'
  rw [hperm.mem_iff]
  split
  · rename_i h
    simp only [List.mem_cons, h, true_and]
  · rename_i h
    simp only [h, false_and, false_or]

/-- The links are kept when an image is created that is made of its parent as it has to be. -/
theorem linksOk (E : OneImageMore s s' i I) (L : LinksOk s) (hdepth : I.numParents ≤ imageMaxSubimageDepth)
    (hplanes : 0 < I.planes) (hslots : I.subimages.length = imageMaxSubimages ∧ I.subtensors.length = imageMaxSubtensors)
    (hroot : I.parent = none → I.createType ≠ .fromChannel ∧ I.channelPlane = 0)
    (hparent : ∀ p P, I.parent = some p → s.images p = some P → I.numParents = P.numParents + 1 ∧ IsSubimage I P) :
    LinksOk s' where
  listed := by
    intro p P c hP hc
    by_cases hpi : p = i
    · subst hpi
      obtain rfl : I = P := Option.some.inj (E.new.symm.trans hP)
      rw [E.subimages] at hc
      cases hc
    · obtain ⟨P0, hP0⟩ := E.back p P hpi hP
      rcases (E.mem_subimages hP0 hP).1 hc with ⟨hpar, rfl⟩ | hc
      · exact ⟨I, E.new, hpar⟩
      · obtain ⟨C0, hC0, hpar⟩ := L.listed p P0 c hP0 hc
        obtain ⟨C, hC⟩ := E.forth c C0 hC0
        exact ⟨C, hC, (E.relisted c C0 C hC0 hC).1.parent.trans hpar⟩
  parent := by
    intro c C p hC hpar
    by_cases hci : c = i
    · subst hci
      obtain rfl : I = C := Option.some.inj (E.new.symm.trans hC)
      obtain ⟨P0, hP0⟩ := E.parentLive p hpar
      obtain ⟨P, hP⟩ := E.forth p P0 hP0
      obtain ⟨hR, -⟩ := E.relisted p P0 P hP0 hP
      obtain ⟨hn, hsub⟩ := hparent p P0 hpar hP0
      exact ⟨P, hP, (E.mem_subimages hP0 hP).2 (.inl ⟨hpar, rfl⟩), hn.trans (by rw [hR.numParents]),
        hR.isSubimage (.refl I) hsub⟩
    · obtain ⟨C0, hC0⟩ := E.back c C hci hC
      obtain ⟨hRC, -⟩ := E.relisted c C0 C hC0 hC
      obtain ⟨P0, hP0, hc, hn, hsub⟩ := L.parent c C0 p hC0 (hRC.parent.symm.trans hpar)
      obtain ⟨P, hP⟩ := E.forth p P0 hP0
      obtain ⟨hR, -⟩ := E.relisted p P0 P hP0 hP
      exact ⟨P, hP, (E.mem_subimages hP0 hP).2 (.inr hc), by rw [hRC.numParents, hR.numParents, hn], hR.isSubimage hRC hsub⟩
  root := by
    intro j J hJ hpar
    by_cases hji : j = i
    · subst hji
      obtain rfl : I = J := Option.some.inj (E.new.symm.trans hJ)
      exact hroot hpar
    · obtain ⟨J0, hJ0⟩ := E.back j J hji hJ
      obtain ⟨hR, -⟩ := E.relisted j J0 J hJ0 hJ
      rw [hR.createType, hR.channelPlane]
      exact L.root j J0 hJ0 (hR.parent.symm.trans hpar)
  nodup := by
    intro j J hJ
    by_cases hji : j = i
    · subst hji
      obtain rfl : I = J := Option.some.inj (E.new.symm.trans hJ)
      rw [E.subimages, E.subtensors]
      exact ⟨List.nodup_nil, List.nodup_nil⟩
    · obtain ⟨J0, hJ0⟩ := E.back j J hji hJ
      obtain ⟨-, ht, -, hperm⟩ := E.relisted j J0 J hJ0 hJ
      obtain ⟨h1, h2⟩ := L.nodup j J0 hJ0
      rw [ht, hperm.nodup_iff]
      refine ⟨?_, h2⟩
      split
      · -- an image that is not there is not listed
        refine List.nodup_cons.2 ⟨fun hm => ?_, h1⟩
        obtain ⟨C, hC, -⟩ := L.listed j J0 i hJ0 hm
        exact E.ne hC rfl
      · exact h1
  slots := by
    intro j J hJ
    by_cases hji : j = i
    · subst hji
      obtain rfl : I = J := Option.some.inj (E.new.symm.trans hJ)
      exact hslots
    · obtain ⟨J0, hJ0⟩ := E.back j J hji hJ
      obtain ⟨-, ht, hl, -⟩ := E.relisted j J0 J hJ0 hJ
      rw [hl, ht]
      exact L.slots j J0 hJ0
  depth := by
    intro j J hJ
    by_cases hji : j = i
    · subst hji
      obtain rfl : I = J := Option.some.inj (E.new.symm.trans hJ)
      exact hdepth
    · obtain ⟨J0, hJ0⟩ := E.back j J hji hJ
      rw [(E.relisted j J0 J hJ0 hJ).1.numParents]
      exact L.depth j J0 hJ0
  planes := by
    intro j J hJ
    by_cases hji : j = i
    · subst hji
      obtain rfl : I = J := Option.some.inj (E.new.symm.trans hJ)
      exact hplanes
    · obtain ⟨J0, hJ0⟩ := E.back j J hji hJ
      rw [(E.relisted j J0 J hJ0 hJ).1.planes]
      exact L.planes j J0 hJ0
  tensorListed := by
    intro p P t hP ht
    rw [E.tensors]
    by_cases hpi : p = i
    · subst hpi
      obtain rfl : I = P := Option.some.inj (E.new.symm.trans hP)
      rw [E.subtensors] at ht
      cases ht
    · obtain ⟨P0, hP0⟩ := E.back p P hpi hP
      rw [(E.relisted p P0 P hP0 hP).2.1] at ht
      exact L.tensorListed p P0 t hP0 ht
  tensorParent := by
    intro t T hT
    rw [E.tensors] at hT
    obtain ⟨P0, hP0, ht, hc, hpl⟩ := L.tensorParent t T hT
    obtain ⟨P, hP⟩ := E.forth _ P0 hP0
    obtain ⟨hR, hst, -⟩ := E.relisted _ P0 P hP0 hP
    exact ⟨P, hP, by rw [hst]; exact ht, by rw [hR.channelPlane]; exact hc, by rw [hR.planes]; exact hpl⟩

/-- The links are kept when an image is released that nothing was created from. -/
theorem linksOk_released (E : OneImageMore s s' i I) (L : LinksOk s') : LinksOk s where
  listed := by
    intro p P c hP hc
    obtain ⟨P', hP'⟩ := E.forth p P hP
    obtain ⟨C', hC', hpar⟩ := L.listed p P' c hP' ((E.mem_subimages hP hP').2 (.inr hc))
    have hci : c ≠ i := by
      rintro rfl
      obtain rfl : I = C' := Option.some.inj (E.new.symm.trans hC')
      -- the list of the parent would have it twice
      obtain ⟨-, -, -, hperm⟩ := E.relisted p P P' hP hP'
      have hnd := hperm.nodup_iff.1 (L.nodup p P' hP').1
      rw [if_pos hpar] at hnd
      exact (List.nodup_cons.1 hnd).1 hc
    obtain ⟨C, hC⟩ := E.back c C' hci hC'
    exact ⟨C, hC, (E.relisted c C C' hC hC').1.parent.symm.trans hpar⟩
  parent := by
    intro c C p hC hpar
    obtain ⟨C', hC'⟩ := E.forth c C hC
    obtain ⟨hRC, -⟩ := E.relisted c C C' hC hC'
    obtain ⟨P', hP', hc, hn, hsub⟩ := L.parent c C' p hC' (hRC.parent.trans hpar)
    have hpi : p ≠ i := by
      rintro rfl
      obtain rfl : I = P' := Option.some.inj (E.new.symm.trans hP')
      rw [E.subimages] at hc
      cases hc
    obtain ⟨P, hP⟩ := E.back p P' hpi hP'
    obtain ⟨hR, -⟩ := E.relisted p P P' hP hP'
    refine ⟨P, hP, ((E.mem_subimages hP hP').1 hc).resolve_left (fun h => E.ne hC h.2), ?_, hR.symm.isSubimage hRC.symm hsub⟩
    rw [← hRC.numParents, ← hR.numParents, hn]
  root := by
    intro j J hJ hpar
    obtain ⟨J', hJ'⟩ := E.forth j J hJ
    obtain ⟨hR, -⟩ := E.relisted j J J' hJ hJ'
    rw [← hR.createType, ← hR.channelPlane]
    exact L.root j J' hJ' (hR.parent.trans hpar)
  nodup := by
    intro j J hJ
    obtain ⟨J', hJ'⟩ := E.forth j J hJ
    obtain ⟨-, ht, -, hperm⟩ := E.relisted j J J' hJ hJ'
    obtain ⟨h1, h2⟩ := L.nodup j J' hJ'
    rw [hperm.nodup_iff] at h1
    rw [ht] at h2
    refine ⟨?_, h2⟩
    split at h1
    · exact (List.nodup_cons.1 h1).2
    · exact h1
  slots := by
    intro j J hJ
    obtain ⟨J', hJ'⟩ := E.forth j J hJ
    obtain ⟨-, ht, hl, -⟩ := E.relisted j J J' hJ hJ'
    rw [← hl, ← ht]
    exact L.slots j J' hJ'
  depth := by
    intro j J hJ
    obtain ⟨J', hJ'⟩ := E.forth j J hJ
    rw [← (E.relisted j J J' hJ hJ').1.numParents]
    exact L.depth j J' hJ'
  planes := by
    intro j J hJ
    obtain ⟨J', hJ'⟩ := E.forth j J hJ
    rw [← (E.relisted j J J' hJ hJ').1.planes]
    exact L.planes j J' hJ'
  tensorListed := by
    intro p P t hP ht
    obtain ⟨P', hP'⟩ := E.forth p P hP
    rw [← (E.relisted p P P' hP hP').2.1] at ht
    rw [← E.tensors]
    exact L.tensorListed p P' t hP' ht
  tensorParent := by
    intro t T hT
    rw [← E.tensors] at hT
    obtain ⟨P', hP', ht, hc, hpl⟩ := L.tensorParent t T hT
    have hpi : T.parent ≠ i := by
      intro h
      rw [h] at hP'
      obtain rfl : I = P' := Option.some.inj (E.new.symm.trans hP')
      rw [E.subtensors] at ht
      cases ht
    obtain ⟨P, hP⟩ := E.back _ P' hpi hP'
    obtain ⟨hR, hst, -⟩ := E.relisted _ P P' hP hP'
    exact ⟨P, hP, by rw [← hst]; exact ht, by rw [← hR.channelPlane]; exact hc, by rw [← hR.planes]; exact hpl⟩

/-- The pointers of the other images and of the tensors stay. -/
theorem pointersOk {host2Shared : UInt64 → UInt64} (E : OneImageMore s s' i I) (L : LinksOk s) (hok : PointersOk host2Shared s)
    (hmem : ∀ j, j ≠ i → s'.memPtr j = s.memPtr j) (htp : s'.tensorPtr = s.tensorPtr)
    (hnew : ∀ p, I.parent = some p → ∀ k < I.planes, (s'.memPtr i k).host =
      if (s.memPtr p (I.parentPlane k)).host = 0 then 0 else (s.memPtr p (I.parentPlane k)).host + (I.memOffset k).toUInt64)
    (hshared : ∀ k < I.planes, (s'.memPtr i k).shared = host2Shared (s'.memPtr i k).host) : PointersOk host2Shared s' where
  subimage := by
    intro c C p hC hpar k hk
    by_cases hci : c = i
    · subst hci
      obtain rfl : I = C := Option.some.inj (E.new.symm.trans hC)
      obtain ⟨P, hP⟩ := E.parentLive p hpar
      rw [hmem p (E.ne hP)]
      exact hnew p hpar k hk
    · obtain ⟨C0, hC0⟩ := E.back c C hci hC
      obtain ⟨hR, -⟩ := E.relisted c C0 C hC0 hC
      rw [hR.parent] at hpar
      rw [hR.planes] at hk
      obtain ⟨P, hP, -⟩ := L.parent c C0 p hC0 hpar
      rw [hmem c hci, hmem p (E.ne hP), hR.parentPlane, hR.memOffset]
      exact hok.subimage c C0 p hC0 hpar k hk
  subtensor := by
    intro t T hT
    rw [E.tensors] at hT
    obtain ⟨P, hP, -⟩ := L.tensorParent t T hT
    rw [htp, hmem _ (E.ne hP)]
    exact hok.subtensor t T hT
  shared := by
    intro j J hJ k hk
    by_cases hji : j = i
    · subst hji
      obtain rfl : I = J := Option.some.inj (E.new.symm.trans hJ)
      exact hshared k hk
    · obtain ⟨J0, hJ0⟩ := E.back j J hji hJ
      rw [(E.relisted j J0 J hJ0 hJ).1.planes] at hk
      rw [hmem j hji]
      exact hok.shared j J0 hJ0 k hk
  sharedTensor := by
    intro t T hT
    rw [E.tensors] at hT
    rw [htp]
    exact hok.sharedTensor t T hT

theorem pointersOk_released {host2Shared : UInt64 → UInt64} (E : OneImageMore s s' i I) (hok : PointersOk host2Shared s')
    (hmem : s.memPtr = s'.memPtr) (htp : s.tensorPtr = s'.tensorPtr) : PointersOk host2Shared s where
  subimage := by
    intro c C p hC hpar k hk
    obtain ⟨C', hC'⟩ := E.forth c C hC
    obtain ⟨hR, -⟩ := E.relisted c C C' hC hC'
    rw [hmem, ← hR.parentPlane, ← hR.memOffset]
    exact hok.subimage c C' p hC' (hR.parent.trans hpar) k (by rw [hR.planes]; exact hk)
  subtensor := by
    intro t T hT
    rw [hmem, htp]
    exact hok.subtensor t T (by rw [E.tensors]; exact hT)
  shared := by
    intro j J hJ k hk
    obtain ⟨J', hJ'⟩ := E.forth j J hJ
    rw [hmem]
    exact hok.shared j J' hJ' k (by rw [(E.relisted j J J' hJ hJ').1.planes]; exact hk)
  sharedTensor := by
    intro t T hT
    rw [htp]
    exact hok.sharedTensor t T (by rw [E.tensors]; exact hT)

end OneImageMore

/-- The second store has one tensor more, listed by its image. -/
structure OneTensorMore (s s' : PtrStore) (t : Nat) (T : PtrTensor) : Prop where
  fresh : s.tensors t = none
  new : s'.tensors t = some T
  others : ∀ u, u ≠ t → s'.tensors u = s.tensors u
  parentLive : ∃ P, s.images T.parent = some P
  forth : ∀ j J, s.images j = some J → ∃ J', s'.images j = some J'
  back : ∀ j J', s'.images j = some J' → ∃ J, s.images j = some J
  relisted : ∀ j J J', s.images j = some J → s'.images j = some J' → Relisted J J' ∧ J'.subimages = J.subimages ∧
    J'.subtensors.length = J.subtensors.length ∧
    (entries J'.subtensors).Perm (if T.parent = j then t :: entries J.subtensors else entries J.subtensors)

namespace OneTensorMore

variable {s s' : PtrStore} {t u j : Nat} {T U : PtrTensor} {J J' : PtrImage}

theorem ne (E : OneTensorMore s s' t T) (hu : s.tensors u = some U) : u ≠ t := by
  rintro rfl
  rw [E.fresh] at hu
  cases hu

theorem mem_subtensors (E : OneTensorMore s s' t T) (hj : s.images j = some J) (hj' : s'.images j = some J') {u : Nat} :
    u ∈ entries J'.subtensors ↔ (T.parent = j ∧ u = t) ∨ u ∈ entries J.subtensors := by
  obtain ⟨-, -, -, hperm⟩ := E.relisted j J J' hj hj'
  rw [hperm.mem_iff]
  split
  · rename_i h
    simp only [List.mem_cons, h, true_and]
  · rename_i h
    simp only [h, false_and, false_or]

/-- What does not speak of tensors holds of both stores or of none. -/
theorem linksOk_images (hforth : ∀ j J, s.images j = some J → ∃ J', s'.images j = some J')
    (hback : ∀ j J', s'.images j = some J' → ∃ J, s.images j = some J)
    (hrel : ∀ j J J', s.images j = some J → s'.images j = some J' → Relisted J J' ∧ J'.subimages = J.subimages ∧
      J'.subtensors.length = J.subtensors.length) (L : LinksOk s)
    (hnodup : ∀ j J', s'.images j = some J' → (entries J'.subtensors).Nodup)
    (hlisted : ∀ p P t, s'.images p = some P → t ∈ entries P.subtensors → ∃ T, s'.tensors t = some T ∧ T.parent = p)
    (hparent : ∀ t T, s'.tensors t = some T → ∃ P, s'.images T.parent = some P ∧ t ∈ entries P.subtensors ∧
      T.channelPlane = P.channelPlane ∧ P.planes = 1) : LinksOk s' where
  listed := by
    intro p P c hP hc
    obtain ⟨P0, hP0⟩ := hback p P hP
    rw [(hrel p P0 P hP0 hP).2.1] at hc
    obtain ⟨C0, hC0, hpar⟩ := L.listed p P0 c hP0 hc
    obtain ⟨C, hC⟩ := hforth c C0 hC0
    exact ⟨C, hC, (hrel c C0 C hC0 hC).1.parent.trans hpar⟩
  parent := by
    intro c C p hC hpar
    obtain ⟨C0, hC0⟩ := hback c C hC
    obtain ⟨hRC, -⟩ := hrel c C0 C hC0 hC
    obtain ⟨P0, hP0, hc, hn, hsub⟩ := L.parent c C0 p hC0 (hRC.parent.symm.trans hpar)
    obtain ⟨P, hP⟩ := hforth p P0 hP0
    obtain ⟨hR, hl, -⟩ := hrel p P0 P hP0 hP
    exact ⟨P, hP, by rw [hl]; exact hc, by rw [hRC.numParents, hR.numParents, hn], hR.isSubimage hRC hsub⟩
  root := by
    intro j J hJ hpar
    obtain ⟨J0, hJ0⟩ := hback j J hJ
    obtain ⟨hR, -⟩ := hrel j J0 J hJ0 hJ
    rw [hR.createType, hR.channelPlane]
    exact L.root j J0 hJ0 (hR.parent.symm.trans hpar)
  nodup := by
    intro j J hJ
    obtain ⟨J0, hJ0⟩ := hback j J hJ
    rw [(hrel j J0 J hJ0 hJ).2.1]
    exact ⟨(L.nodup j J0 hJ0).1, hnodup j J hJ⟩
  slots := by
    intro j J hJ
    obtain ⟨J0, hJ0⟩ := hback j J hJ
    obtain ⟨-, hl, ht⟩ := hrel j J0 J hJ0 hJ
    rw [hl, ht]
    exact L.slots j J0 hJ0
  depth := by
    intro j J hJ
    obtain ⟨J0, hJ0⟩ := hback j J hJ
    rw [(hrel j J0 J hJ0 hJ).1.numParents]
    exact L.depth j J0 hJ0
  planes := by
    intro j J hJ
    obtain ⟨J0, hJ0⟩ := hback j J hJ
    rw [(hrel j J0 J hJ0 hJ).1.planes]
    exact L.planes j J0 hJ0
  tensorListed := hlisted
  tensorParent := hparent

theorem linksOk (E : OneTensorMore s s' t T) (L : LinksOk s)
    (hT : ∀ P, s.images T.parent = some P → T.channelPlane = P.channelPlane ∧ P.planes = 1) : LinksOk s' := by
  refine linksOk_images E.forth E.back (fun j J J' h h' => ?_) L (fun j J' hJ' => ?_) (fun p P u hP hu => ?_) (fun u U hU => ?_)
  · obtain ⟨h1, h2, h3, -⟩ := E.relisted j J J' h h'
    exact ⟨h1, h2, h3⟩
  · obtain ⟨J, hJ⟩ := E.back j J' hJ'
    obtain ⟨-, -, -, hperm⟩ := E.relisted j J J' hJ hJ'
    rw [hperm.nodup_iff]
    split
    · refine List.nodup_cons.2 ⟨fun hm => ?_, (L.nodup j J hJ).2⟩
      obtain ⟨U, hU, -⟩ := L.tensorListed j J t hJ hm
      exact E.ne hU rfl
    · exact (L.nodup j J hJ).2
  · obtain ⟨P0, hP0⟩ := E.back p P hP
    rcases (E.mem_subtensors hP0 hP).1 hu with ⟨hpar, rfl⟩ | hu
    · exact ⟨T, E.new, hpar⟩
    · obtain ⟨U, hU, hpar⟩ := L.tensorListed p P0 u hP0 hu
      exact ⟨U, by rw [E.others u (E.ne hU), hU], hpar⟩
  · by_cases hut : u = t
    · subst hut
      obtain rfl : T = U := Option.some.inj (E.new.symm.trans hU)
      obtain ⟨P0, hP0⟩ := E.parentLive
      obtain ⟨P, hP⟩ := E.forth _ P0 hP0
      obtain ⟨hR, -⟩ := E.relisted _ P0 P hP0 hP
      obtain ⟨hc, hpl⟩ := hT P0 hP0
      exact ⟨P, hP, (E.mem_subtensors hP0 hP).2 (.inl ⟨rfl, rfl⟩), by rw [hR.channelPlane, hc], by rw [hR.planes, hpl]⟩
    · rw [E.others u hut] at hU
      obtain ⟨P0, hP0, hu, hc, hpl⟩ := L.tensorParent u U hU
      obtain ⟨P, hP⟩ := E.forth _ P0 hP0
      obtain ⟨hR, -⟩ := E.relisted _ P0 P hP0 hP
      exact ⟨P, hP, (E.mem_subtensors hP0 hP).2 (.inr hu), by rw [hR.channelPlane, hc], by rw [hR.planes, hpl]⟩

theorem linksOk_released (E : OneTensorMore s s' t T) (L : LinksOk s') : LinksOk s := by
  refine linksOk_images E.back E.forth (fun j J' J h' h => ?_) L (fun j J hJ => ?_) (fun p P u hP hu => ?_) (fun u U hU => ?_)
  · obtain ⟨h1, h2, h3, -⟩ := E.relisted j J J' h h'
    exact ⟨h1.symm, h2.symm, h3.symm⟩
  · obtain ⟨J', hJ'⟩ := E.forth j J hJ
    obtain ⟨-, -, -, hperm⟩ := E.relisted j J J' hJ hJ'
    have hnd := hperm.nodup_iff.1 (L.nodup j J' hJ').2
    split at hnd
    · exact (List.nodup_cons.1 hnd).2
    · exact hnd
  · obtain ⟨P', hP'⟩ := E.forth p P hP
    obtain ⟨U, hU, hpar⟩ := L.tensorListed p P' u hP' ((E.mem_subtensors hP hP').2 (.inr hu))
    have hut : u ≠ t := by
      rintro rfl
      obtain rfl : T = U := Option.some.inj (E.new.symm.trans hU)
      obtain ⟨-, -, -, hperm⟩ := E.relisted p P P' hP hP'
      have hnd := hperm.nodup_iff.1 (L.nodup p P' hP').2
      rw [if_pos hpar] at hnd
      exact (List.nodup_cons.1 hnd).1 hu
    exact ⟨U, by rw [← E.others u hut, hU], hpar⟩
  · have hut := E.ne hU
    rw [← E.others u hut] at hU
    obtain ⟨P', hP', hu, hc, hpl⟩ := L.tensorParent u U hU
    obtain ⟨P, hP⟩ := E.back _ P' hP'
    obtain ⟨hR, -⟩ := E.relisted _ P P' hP hP'
    exact ⟨P, hP, ((E.mem_subtensors hP hP').1 hu).resolve_left (fun h => hut h.2), by rw [← hR.channelPlane, hc],
      by rw [← hR.planes, hpl]⟩

theorem pointersOk {host2Shared : UInt64 → UInt64} (E : OneTensorMore s s' t T) (hok : PointersOk host2Shared s)
    (hmem : s'.memPtr = s.memPtr) (htp : ∀ u, u ≠ t → s'.tensorPtr u = s.tensorPtr u)
    (hnew : (s'.tensorPtr t).host =
      if (s.memPtr T.parent 0).host = 0 then 0 else (s.memPtr T.parent 0).host + T.offset)
    (hshared : (s'.tensorPtr t).shared = host2Shared (s'.tensorPtr t).host) : PointersOk host2Shared s' where
  subimage := by
    intro c C p hC hpar k hk
    obtain ⟨C0, hC0⟩ := E.back c C hC
    obtain ⟨hR, -⟩ := E.relisted c C0 C hC0 hC
    rw [hmem, hR.parentPlane, hR.memOffset]
    exact hok.subimage c C0 p hC0 (hR.parent.symm.trans hpar) k (by rw [← hR.planes]; exact hk)
  subtensor := by
    intro u U hU
    rw [hmem]
    by_cases hut : u = t
    · subst hut
      obtain rfl : T = U := Option.some.inj (E.new.symm.trans hU)
      exact hnew
    · rw [E.others u hut] at hU
      rw [htp u hut]
      exact hok.subtensor u U hU
  shared := by
    intro j J hJ k hk
    obtain ⟨J0, hJ0⟩ := E.back j J hJ
    rw [hmem]
    exact hok.shared j J0 hJ0 k (by rw [← (E.relisted j J0 J hJ0 hJ).1.planes]; exact hk)
  sharedTensor := by
    intro u U hU
    by_cases hut : u = t
    · subst hut
      exact hshared
    · rw [E.others u hut] at hU
      rw [htp u hut]
      exact hok.sharedTensor u U hU

theorem pointersOk_released {host2Shared : UInt64 → UInt64} (E : OneTensorMore s s' t T) (hok : PointersOk host2Shared s')
    (hmem : s.memPtr = s'.memPtr) (htp : s.tensorPtr = s'.tensorPtr) : PointersOk host2Shared s where
  subimage := by
    intro c C p hC hpar k hk
    obtain ⟨C', hC'⟩ := E.forth c C hC
    obtain ⟨hR, -⟩ := E.relisted c C C' hC hC'
    rw [hmem, ← hR.parentPlane, ← hR.memOffset]
    exact hok.subimage c C' p hC' (hR.parent.trans hpar) k (by rw [hR.planes]; exact hk)
  subtensor := by
    intro u U hU
    rw [hmem, htp]
    exact hok.subtensor u U (by rw [E.others u (E.ne hU), hU])
  shared := by
    intro j J hJ k hk
    obtain ⟨J', hJ'⟩ := E.forth j J hJ
    rw [hmem]
    exact hok.shared j J' hJ' k (by rw [(E.relisted j J J' hJ hJ').1.planes]; exact hk)
  sharedTensor := by
    intro u U hU
    rw [htp]
    exact hok.sharedTensor u U (by rw [E.others u (E.ne hU), hU])

end OneTensorMore

namespace PtrStore

/-! ### One call -/

section Step

variable {host2Shared : UInt64 → UInt64} {s s' : PtrStore} {i p t : Nat} {I P : PtrImage}

theorem oneImageMore_root (hi : s.images i = none) (h : s'.images = Function.update s.images i (some I))
    (ht : s'.tensors = s.tensors) (hpar : I.parent = none) (h1 : entries I.subimages = []) (h2 : entries I.subtensors = []) :
    OneImageMore s s' i I where
  fresh := hi
  new := by rw [h, Function.update_self]
  subimages := h1
  subtensors := h2
  tensors := ht
  parentLive := fun p hp => by
    rw [hpar] at hp
    cases hp
  forth := fun j J hj => by
    have hne : j ≠ i := by
      rintro rfl
      rw [hi] at hj
      cases hj
    exact ⟨J, by rw [h, Function.update_of_ne hne, hj]⟩
  back := fun j J hne hj => ⟨J, by rw [h, Function.update_of_ne hne] at hj; exact hj⟩
  relisted := fun j J J' hj hj' => by
    have hne : j ≠ i := by
      rintro rfl
      rw [hi] at hj
      cases hj
    rw [h, Function.update_of_ne hne, hj] at hj'
    cases hj'
    rw [if_neg (by rw [hpar]; exact nofun)]
    exact ⟨.refl J, rfl, rfl, List.Perm.refl _⟩

/-- A sub-image is put into the list of its parent. -/
theorem oneImageMore_sub {l : List (Option Nat)} (hi : s.images i = none) (hP : s.images p = some P)
    (h : s'.images = Function.update (Function.update s.images p (some { P with subimages := l })) i (some I))
    (ht : s'.tensors = s.tensors) (hpar : I.parent = some p) (h1 : entries I.subimages = []) (h2 : entries I.subtensors = [])
    (hl : putFirst i P.subimages = some l) : OneImageMore s s' i I := by
  obtain ⟨hlen, hperm⟩ := putFirst_spec hl
  have hne : ∀ j J, s.images j = some J → j ≠ i := by
    rintro j J hj rfl
    rw [hi] at hj
    cases hj
  have hother : ∀ j, j ≠ i → j ≠ p → s'.images j = s.images j := fun j hji hjp => by
    rw [h, Function.update_of_ne hji, Function.update_of_ne hjp]
  have hpi : s'.images p = some { P with subimages := l } := by
    rw [h, Function.update_of_ne (hne p P hP), Function.update_self]
  refine ⟨hi, by rw [h, Function.update_self], h1, h2, ht, fun q hq => ?_, fun j J hj => ?_, fun j J hji hj => ?_,
    fun j J J' hj hj' => ?_⟩
  · obtain rfl : p = q := Option.some.inj (hpar.symm.trans hq)
    exact ⟨P, hP⟩
  · by_cases hjp : j = p
    · subst hjp
      exact ⟨_, hpi⟩
    · exact ⟨J, by rw [hother j (hne j J hj) hjp, hj]⟩
  · by_cases hjp : j = p
    · subst hjp
      exact ⟨P, hP⟩
    · exact ⟨J, by rw [← hother j hji hjp, hj]⟩
  · by_cases hjp : j = p
    · subst hjp
      obtain rfl : P = J := Option.some.inj (hP.symm.trans hj)
      rw [hpi, Option.some.injEq] at hj'
      subst hj'
      rw [if_pos hpar]
      exact ⟨⟨rfl, rfl, rfl, rfl, rfl, rfl⟩, rfl, hlen, hperm⟩
    · rw [hother j (hne j J hj) hjp, hj, Option.some.injEq] at hj'
      subst hj'
      rw [if_neg (by rw [hpar]; exact fun hh => hjp (Option.some.inj hh).symm)]
      exact ⟨.refl J, rfl, rfl, List.Perm.refl _⟩

/-- What is released was one image more. -/
theorem oneImageMore_of_release (hI : s.images i = some I) (h : s'.images = Function.update s.images i none)
    (ht : s.tensors = s'.tensors) (hpar : I.parent = none) (h1 : entries I.subimages = []) (h2 : entries I.subtensors = []) :
    OneImageMore s' s i I := by
  refine oneImageMore_root (by rw [h, Function.update_self]) ?_ ht hpar h1 h2
  rw [h, Function.update_idem, ← hI, Function.update_eq_self]

theorem oneImageMore_of_release_sub {l : List (Option Nat)} (hI : s.images i = some I) (hP : s.images p = some P)
    (hne : p ≠ i) (h : s'.images = Function.update (Function.update s.images p (some { P with subimages := l })) i none)
    (ht : s.tensors = s'.tensors) (hpar : I.parent = some p) (h1 : entries I.subimages = []) (h2 : entries I.subtensors = [])
    (hl : clearFirst i P.subimages = some l) : OneImageMore s' s i I := by
  obtain ⟨hlen, hperm⟩ := clearFirst_spec hl
  have hother : ∀ j, j ≠ i → j ≠ p → s'.images j = s.images j := fun j hji hjp => by
    rw [h, Function.update_of_ne hji, Function.update_of_ne hjp]
  have hpi : s'.images p = some { P with subimages := l } := by
    rw [h, Function.update_of_ne hne, Function.update_self]
  have hfresh : s'.images i = none := by rw [h, Function.update_self]
  have hnei : ∀ j J, s'.images j = some J → j ≠ i := by
    rintro j J hj rfl
    rw [hfresh] at hj
    cases hj
  refine ⟨hfresh, hI, h1, h2, ht, fun q hq => ?_, fun j J hj => ?_, fun j J hji hj => ?_, fun j J J' hj hj' => ?_⟩
  · obtain rfl : p = q := Option.some.inj (hpar.symm.trans hq)
    exact ⟨_, hpi⟩
  · by_cases hjp : j = p
    · subst hjp
      exact ⟨P, hP⟩
    · exact ⟨J, by rw [← hother j (hnei j J hj) hjp, hj]⟩
  · by_cases hjp : j = p
    · subst hjp
      exact ⟨_, hpi⟩
    · exact ⟨J, by rw [hother j hji hjp, hj]⟩
  · by_cases hjp : j = p
    · subst hjp
      obtain rfl : P = J' := Option.some.inj (hP.symm.trans hj')
      rw [hpi, Option.some.injEq] at hj
      subst hj
      rw [if_pos hpar]
      exact ⟨⟨rfl, rfl, rfl, rfl, rfl, rfl⟩, rfl, hlen.symm, hperm⟩
    · rw [hother j (hnei j J hj) hjp, hj', Option.some.injEq] at hj
      subst hj
      rw [if_neg (by rw [hpar]; exact fun hh => hjp (Option.some.inj hh).symm)]
      exact ⟨.refl _, rfl, rfl, List.Perm.refl _⟩

/-- A tensor is put into the list of its image, or was there: `l` and `l'` are the list without it and with it. -/
theorem oneTensorMore (P : PtrImage) (l l' : List (Option Nat)) {T : PtrTensor} (hfresh : s.tensors t = none)
    (hnew : s'.tensors t = some T)
    (hothers : ∀ u, u ≠ t → s'.tensors u = s.tensors u) (hP : s.images T.parent = some { P with subtensors := l })
    (hP' : s'.images T.parent = some { P with subtensors := l' }) (himg : ∀ j, j ≠ T.parent → s'.images j = s.images j)
    (hlen : l'.length = l.length) (hperm : (entries l').Perm (t :: entries l)) : OneTensorMore s s' t T := by
  refine ⟨hfresh, hnew, hothers, ⟨_, hP⟩, fun j J hj => ?_, fun j J hj => ?_, fun j J J' hj hj' => ?_⟩
  · by_cases hjp : j = T.parent
    · subst hjp
      exact ⟨_, hP'⟩
    · exact ⟨J, by rw [himg j hjp, hj]⟩
  · by_cases hjp : j = T.parent
    · subst hjp
      exact ⟨_, hP⟩
    · exact ⟨J, by rw [← himg j hjp, hj]⟩
  · by_cases hjp : j = T.parent
    · subst hjp
      rw [hP, Option.some.injEq] at hj
      rw [hP', Option.some.injEq] at hj'
      subst hj hj'
      rw [if_pos rfl]
      exact ⟨⟨rfl, rfl, rfl, rfl, rfl, rfl⟩, rfl, hlen, hperm⟩
    · rw [himg j hjp, hj, Option.some.injEq] at hj'
      subst hj'
      rw [if_neg (Ne.symm hjp)]
      exact ⟨.refl J, rfl, rfl, List.Perm.refl _⟩

/-- An image that nothing was created from is allocated. -/
theorem ownAllocImageBuffer_spec (h0 : host2Shared 0 = 0) (L : LinksOk s) (hok : PointersOk host2Shared s)
    (hi : s.images i = some I) (host : UInt64)
    (hfit : (I.createType != .normal || (s.memPtr i 0).host != 0 ||
      (entries I.subimages).isEmpty && (entries I.subtensors).isEmpty) = true) :
    SameLinks s (s.ownAllocImageBuffer host2Shared i I host) ∧
      PointersOk host2Shared (s.ownAllocImageBuffer host2Shared i I host) := by
  unfold ownAllocImageBuffer
  split
  · rename_i hc
    simp only [hc.1, hc.2, bne_self_eq_false, Bool.false_or, Bool.and_eq_true, List.isEmpty_iff] at hfit
    refine ⟨⟨rfl, rfl⟩, fun c C p hC hpar k hk => ?_, fun t T hT => ?_, fun j J hJ k hk => ?_, hok.sharedTensor⟩
    · obtain ⟨P, hP, hcP, -, hsub⟩ := L.parent c C p hC hpar
      have hci : c ≠ i := by
        rintro rfl
        obtain rfl : I = C := Option.some.inj (hi.symm.trans hC)
        rcases hsub with ⟨h1, -⟩ | ⟨h1, -⟩ <;> rw [hc.1] at h1 <;> cases h1
      have hpi : p ≠ i := by
        rintro rfl
        obtain rfl : I = P := Option.some.inj (hi.symm.trans hP)
        rw [hfit.1] at hcP
        cases hcP
      simp only [setMemPtr, Function.update_of_ne hci, Function.update_of_ne hpi]
      exact hok.subimage c C p hC hpar k hk
    · obtain ⟨P, hP, htP, -⟩ := L.tensorParent t T hT
      have hpi : T.parent ≠ i := by
        intro h
        rw [h] at hP
        obtain rfl : I = P := Option.some.inj (hi.symm.trans hP)
        rw [hfit.2] at htP
        cases htP
      simp only [setMemPtr, Function.update_of_ne hpi]
      exact hok.subtensor t T hT
    · by_cases hji : j = i
      · subst hji
        obtain rfl : I = J := Option.some.inj (hi.symm.trans hJ)
        simp only [setMemPtr, Function.update_self, if_pos hk]
        exact importPtrs_shared h0 s j host k
      · simp only [setMemPtr, Function.update_of_ne hji]
        exact hok.shared j J hJ k hk
  · exact ⟨.refl s, hok⟩

end Step

end PtrStore

/-- The invariant of the runs. -/
structure PtrInv (host2Shared : UInt64 → UInt64) (s : PtrStore) : Prop where
  links : LinksOk s
  pointers : PointersOk host2Shared s

namespace PtrInv

open PtrStore

variable {host2Shared : UInt64 → UInt64} {s s' : PtrStore}

/-- An image that is not made of another is created. -/
theorem createRoot (h : PtrInv host2Shared s) {i : Nat} {I : PtrImage} (E : OneImageMore s s' i I) (hpar : I.parent = none)
    (hc : I.createType ≠ .fromChannel ∧ I.channelPlane = 0) (hn : I.numParents = 0) (hpl : 0 < I.planes)
    (hslots : I.subimages.length = imageMaxSubimages ∧ I.subtensors.length = imageMaxSubtensors)
    (hmem : ∀ j, j ≠ i → s'.memPtr j = s.memPtr j) (htp : s'.tensorPtr = s.tensorPtr)
    (hshared : ∀ k < I.planes, (s'.memPtr i k).shared = host2Shared (s'.memPtr i k).host) : PtrInv host2Shared s' where
  links := E.linksOk h.links (by rw [hn]; exact Nat.zero_le _) hpl hslots (fun _ => hc) (fun p P hp => by
    rw [hpar] at hp
    cases hp)
  pointers := E.pointersOk h.links h.pointers hmem htp (fun p hp => by
    rw [hpar] at hp
    cases hp) hshared

/-- A sub-image is created with the pointers of its parent. -/
theorem linkSubimage (h : PtrInv host2Shared s) {i p : Nat} {I P : PtrImage} {l : List (Option Nat)} {mem : Nat → PlanePtr}
    {memSize : Nat → UInt32} (hi : s.images i = none) (hP : s.images p = some P) (hl : putFirst i P.subimages = some l)
    (hpar : I.parent = some p) (hn : I.numParents = P.numParents + 1) (hd : P.numParents < imageMaxSubimageDepth)
    (hsub : IsSubimage I P) (h1 : I.subimages = List.replicate imageMaxSubimages none)
    (h2 : I.subtensors = List.replicate imageMaxSubtensors none)
    (hmem : ∀ k < I.planes, (mem k).host = (if (s.memPtr p (I.parentPlane k)).host = 0 then 0
        else (s.memPtr p (I.parentPlane k)).host + (I.memOffset k).toUInt64) ∧ (mem k).shared = host2Shared (mem k).host) :
    PtrInv host2Shared (s.linkSubimage p P l i I mem memSize) := by
  have he1 : entries I.subimages = [] := by rw [h1, entries_replicate]
  have he2 : entries I.subtensors = [] := by rw [h2, entries_replicate]
  have E : OneImageMore s (s.linkSubimage p P l i I mem memSize) i I := oneImageMore_sub hi hP rfl rfl hpar he1 he2 hl
  have hplanes : 0 < I.planes := by
    rcases hsub with ⟨-, h3, -⟩ | ⟨-, h3, -⟩
    · rw [h3]
      exact Nat.one_pos
    · rw [h3]
      exact h.links.planes p P hP
  have hself : (s.linkSubimage p P l i I mem memSize).memPtr i = mem := Function.update_self ..
  refine ⟨E.linksOk h.links (by rw [hn]; exact hd) hplanes ⟨by rw [h1, List.length_replicate], by rw [h2, List.length_replicate]⟩
    (fun hno => ?_) (fun q Q hq hQ => ?_), E.pointersOk h.links h.pointers (fun j hj => Function.update_of_ne hj ..) rfl
    (fun q hq k hk => ?_) (fun k hk => ?_)⟩
  · rw [hpar] at hno
    cases hno
  · obtain rfl : p = q := Option.some.inj (hpar.symm.trans hq)
    obtain rfl : P = Q := Option.some.inj (hP.symm.trans hQ)
    exact ⟨hn, hsub⟩
  · obtain rfl : p = q := Option.some.inj (hpar.symm.trans hq)
    rw [hself]
    exact (hmem k hk).1
  · rw [hself]
    exact (hmem k hk).2

/-- Every call that keeps the pointers keeps the invariant. -/
theorem step (h0 : host2Shared 0 = 0) (h : PtrInv host2Shared s) {a : ImagePtrAction} (hc : keepsPointers host2Shared s a = true)
    (hs : imagePtrStep host2Shared s a = some s') : PtrInv host2Shared s' := by
  have L := h.links
  have hok := h.pointers
  have hlen : (List.replicate imageMaxSubimages (none : Option Nat)).length = imageMaxSubimages ∧
      (List.replicate imageMaxSubtensors (none : Option Nat)).length = imageMaxSubtensors := ⟨rfl, rfl⟩
  cases a with
  | vxCreateImage i planes memSize =>
    simp only [imagePtrStep] at hs
    split at hs
    · rename_i hi
      cases hs
      refine h.createRoot (i := i) (I := { createType := .normal, planes := planes })
        (oneImageMore_root hi.1 rfl rfl rfl (entries_replicate _) (entries_replicate _)) rfl
        ⟨fun e => (by cases e), rfl⟩ rfl hi.2.1 hlen
        (fun j hj => Function.update_of_ne hj ..) rfl (fun k _ => ?_)
      simp only [PtrStore.setMemPtr, Function.update_self]
      exact h0.symm
    · cases hs
  | vxCreateImageFromHandle i planes memSize ptrs =>
    simp only [imagePtrStep] at hs
    split at hs
    · rename_i hi
      cases hs
      refine h.createRoot (i := i) (I := { createType := .fromHandle, planes := planes })
        (oneImageMore_root hi.1 rfl rfl rfl (entries_replicate _) (entries_replicate _)) rfl
        ⟨fun e => (by cases e), rfl⟩ rfl hi.2.1 hlen
        (fun j hj => Function.update_of_ne hj ..) rfl (fun k _ => ?_)
      simp only [PtrStore.setMemPtr, Function.update_self]
      split
      · rfl
      · exact h0.symm
    · cases hs
  | ownAllocImageBuffer i host =>
    simp only [imagePtrStep] at hs
    split at hs
    · obtain ⟨I, hI, rfl⟩ := Option.map_eq_some_iff.1 hs
      simp only [keepsPointers, hI, Option.all_some] at hc
      obtain ⟨h1, h2⟩ := ownAllocImageBuffer_spec h0 L hok hI host hc
      exact ⟨h1.linksOk L, h2⟩
    · cases hs
  | vxCreateImageFromChannel p i channelPlane =>
    simp only [imagePtrStep] at hs
    obtain ⟨P, hP, hs⟩ := Option.bind_eq_some_iff.1 hs
    obtain ⟨l, hl, hs⟩ := Option.bind_eq_some_iff.1 hs
    split at hs
    · rename_i hcond
      obtain ⟨hi, hd, -, hch⟩ := hcond
      cases hs
      have hlt : channelPlane < P.planes := by omega
      refine h.linkSubimage hi hP hl rfl rfl hd (.inl ⟨rfl, rfl, hlt, rfl⟩) rfl rfl (fun k hk => ?_)
      obtain rfl : k = 0 := Nat.lt_one_iff.1 hk
      simp only [if_true, PtrImage.parentPlane]
      refine ⟨?_, hok.shared p P hP _ hlt⟩
      split
      · assumption
      · exact (UInt64.add_zero _).symm
    · cases hs
  | vxCreateImageFromROI p i memSize memOffset =>
    simp only [imagePtrStep] at hs
    obtain ⟨P, hP, hs⟩ := Option.bind_eq_some_iff.1 hs
    obtain ⟨l, hl, hs⟩ := Option.bind_eq_some_iff.1 hs
    split at hs
    · rename_i hcond
      obtain ⟨hi, hd, -⟩ := hcond
      cases hs
      simp only [keepsPointers, hP, Option.all_some, List.all_eq_true, List.mem_range, Bool.and_eq_true, isMapped,
        offsetFits_iff, beq_iff_eq] at hc
      refine h.linkSubimage hi hP hl rfl rfl hd (.inr ⟨rfl, rfl, rfl⟩) rfl rfl (fun k hk => ?_)
      obtain ⟨hoff, hmap⟩ := hc k hk
      simp only [PtrImage.parentPlane, reduceCtorEq, if_false]
      rw [if_pos hk]
      refine ⟨?_, by rw [hmap, hok.shared p P hP k hk]⟩
      split
      · rename_i hz
        rw [hz, hoff.resolve_left (fun hn => hn hz)]
        rfl
      · rfl
    · cases hs
  | vxCreateTensorFromROI p t offset =>
    simp only [imagePtrStep] at hs
    obtain ⟨P, hP, hs⟩ := Option.bind_eq_some_iff.1 hs
    obtain ⟨l, hl, hs⟩ := Option.bind_eq_some_iff.1 hs
    split at hs
    · rename_i hcond
      obtain ⟨ht, hpl, -⟩ := hcond
      cases hs
      simp only [keepsPointers, offsetFits_iff] at hc
      obtain ⟨hlen', hperm⟩ := putFirst_spec hl
      have E : OneTensorMore s { (s.setImage p { P with subtensors := l }).setTensorPtr t
            (shift host2Shared (s.memPtr p 0) offset) with
          tensors := Function.update s.tensors t (some ⟨P.channelPlane, p, offset⟩) } t ⟨P.channelPlane, p, offset⟩ :=
        oneTensorMore P P.subtensors l ht (Function.update_self ..) (fun u hu => Function.update_of_ne hu ..) hP
          (Function.update_self ..) (fun j hj => Function.update_of_ne hj ..) hlen' hperm
      refine ⟨E.linksOk L (fun Q hQ => ?_), E.pointersOk hok rfl (fun u hu => Function.update_of_ne hu ..) ?_ ?_⟩
      · obtain rfl : P = Q := Option.some.inj (hP.symm.trans hQ)
        exact ⟨rfl, hpl⟩
      · simp only [PtrStore.setTensorPtr, Function.update_self, PtrStore.shift]
        split
        · rename_i hz
          rw [hz, hc.resolve_left (fun hn => hn hz)]
          rfl
        · rfl
      · simp only [PtrStore.setTensorPtr, Function.update_self, PtrStore.shift]
    · cases hs
  | vxReleaseImage i =>
    simp only [imagePtrStep] at hs
    obtain ⟨I, hI, hs⟩ := Option.bind_eq_some_iff.1 hs
    split at hs
    · rename_i hleaf
      cases hpar : I.parent with
      | none =>
        simp only [hpar, Option.some.injEq] at hs
        subst hs
        have E : OneImageMore { s with images := Function.update s.images i none } s i I :=
          oneImageMore_of_release hI rfl rfl hpar hleaf.1 hleaf.2
        exact ⟨E.linksOk_released L, E.pointersOk_released hok rfl rfl⟩
      | some p =>
        simp only [hpar] at hs
        obtain ⟨P, hP, hs⟩ := Option.bind_eq_some_iff.1 hs
        obtain ⟨l, hl, rfl⟩ := Option.map_eq_some_iff.1 hs
        have hne : p ≠ i := by
          rintro rfl
          obtain ⟨Q, hQ, hpQ, -⟩ := L.parent p I p hI hpar
          obtain rfl : I = Q := Option.some.inj (hI.symm.trans hQ)
          rw [hleaf.1] at hpQ
          cases hpQ
        have E : OneImageMore { s.setImage p { P with subimages := l } with
            images := Function.update (s.setImage p { P with subimages := l }).images i none } s i I :=
          oneImageMore_of_release_sub hI hP hne rfl rfl hpar hleaf.1 hleaf.2 hl
        exact ⟨E.linksOk_released L, E.pointersOk_released hok rfl rfl⟩
    · cases hs
  | vxReleaseTensor t =>
    simp only [imagePtrStep] at hs
    obtain ⟨T, hT, hs⟩ := Option.bind_eq_some_iff.1 hs
    obtain ⟨P, hP, hs⟩ := Option.bind_eq_some_iff.1 hs
    obtain ⟨l, hl, rfl⟩ := Option.map_eq_some_iff.1 hs
    obtain ⟨hlen', hperm⟩ := clearFirst_spec hl
    have E : OneTensorMore { s.setImage T.parent { P with subtensors := l } with
        tensors := Function.update s.tensors t none } s t T :=
      oneTensorMore P l P.subtensors (Function.update_self ..) hT
        (fun u hu => (Function.update_of_ne hu ..).symm) (Function.update_self ..) hP
        (fun j hj => (Function.update_of_ne hj ..).symm) hlen'.symm hperm
    exact ⟨E.linksOk_released L, E.pointersOk_released hok rfl rfl⟩
  | vxSwapImageHandle i newPtrs numPlanes prevPtrs =>
    simp only [imagePtrStep] at hs
    obtain ⟨I, hI, hs⟩ := Option.bind_eq_some_iff.1 hs
    split at hs
    · rename_i hcheck
      split at hs
      · rename_i haddr
        simp only [keepsPointers, hI, Option.all_some, hcheck, Bool.not_true, Bool.false_or, Bool.and_eq_true,
          Option.isNone_iff_eq_none, List.all_eq_true] at hc
        have hfit : PtrsFit I.numParents I.planes newPtrs := by
          intro ptrs hp k hk
          cases hp
          simp only [ownSwapImageCheck, Option.all_some, Bool.and_eq_true, List.all_eq_true, List.mem_range, bne_iff_ne,
            ne_eq] at hcheck
          simp only [Option.all_some, List.all_eq_true, List.mem_range, isAddress, decide_eq_true_eq] at haddr
          have h1 := hcheck.1.2 k hk
          have h2 := UInt64.lt_iff_toNat_lt.1 (haddr k hk)
          have h3 : (0x4000000000000000 : UInt64).toNat = 2 ^ 62 := rfl
          refine ⟨Nat.pos_of_ne_zero (fun hz => h1 (UInt64.toNat_inj.1 hz)), ?_⟩
          omega
        obtain ⟨h1, h2⟩ := vxSwapImageHandle_spec h0 L hok hI hc.1 hfit (fun t ht => by simpa using hc.2 _ ht) hs
        exact ⟨h1.linksOk L, h2⟩
      · cases hs
    · cases hs
      exact h
  | tivxReferenceImportHandle i addr =>
    simp only [imagePtrStep] at hs
    obtain ⟨I, hI, rfl⟩ := Option.map_eq_some_iff.1 hs
    split
    · rename_i hcond
      have hfit : s.importFits host2Shared i I addr = true := by
        simp only [keepsPointers, hI, Option.all_some, hcond.1, Option.isSome_none, Bool.false_or, Bool.or_eq_true,
          Bool.and_eq_true, bne_iff_ne, ne_eq, beq_iff_eq] at hc
        exact hc.resolve_left (fun hn => hcond.2.elim hn.1 (fun h => h hn.2))
      obtain ⟨h1, h2⟩ := tivxReferenceImportHandle_spec h0 L hok hI hcond.1 hfit
      exact ⟨h1.linksOk L, h2⟩
    · exact h
  | swapImage input output =>
    simp only [imagePtrStep] at hs
    obtain ⟨I, hI, hs⟩ := Option.bind_eq_some_iff.1 hs
    obtain ⟨O, hO, hs⟩ := Option.bind_eq_some_iff.1 hs
    split at hs
    · rename_i hcond
      simp only [keepsPointers, hI, hO, Option.all_some, hcond, Bool.not_true, Bool.false_or, Bool.and_eq_true] at hc
      simp only [isImageSwapable, Bool.and_eq_true, Option.isNone_iff_eq_none] at hcond
      obtain ⟨h1, h2⟩ := swapImage_spec L hok hI hO hcond.1.1.1 hcond.1.1.2 hc.1 hc.2 hs
      exact ⟨h1.linksOk L, h2⟩
    · cases hs
      exact h

theorem start : PtrInv host2Shared {} := by
  refine ⟨⟨?_, ?_, ?_, ?_, ?_, ?_, ?_, ?_, ?_⟩, ⟨?_, ?_, ?_, ?_⟩⟩ <;> intros <;> contradiction

end PtrInv

/-- **The pointers of sub-images and sub-tensors are those of their parents and their offsets**, in every run whose calls can
follow them. -/
theorem pointersOk_of_reach {host2Shared : UInt64 → UInt64} (h0 : host2Shared 0 = 0) {s : PtrStore}
    (h : Reach (imagePtrStep host2Shared) (fun s a => keepsPointers host2Shared s a = true) {} s) : PointersOk host2Shared s :=
  (h.inv (I := PtrInv host2Shared) .start (fun _ _ _ I hc hs => I.step h0 hc hs)).pointers

/-- A shared region that is mapped. -/
def mappedRegion (a : UInt64) : UInt64 := if 0x10000 ≤ a ∧ a < 0x20000 then a + 0x80000000 else 0

/-- An image with a region of a channel that a tensor is created from; one of two planes from a handle, with the same; and one of
one plane with a region.  The first two are swapped after the second is given other memory, and the third imports a handle. -/
def pointersRun : List ImagePtrAction :=
  [.vxCreateImage 0 2 (fun k => if k = 0 then 0x400 else 0x200), .ownAllocImageBuffer 0 0x10000, .vxCreateImageFromChannel 0 1 0,
    .vxCreateImageFromROI 1 2 (fun _ => 0x100) (fun _ => 0x40), .vxCreateTensorFromROI 2 0 0x8,
    .vxCreateImageFromHandle 3 2 (fun k => if k = 0 then 0x400 else 0x200) (fun k => if k = 0 then 0x12000 else 0x12800),
    .vxCreateImageFromChannel 3 4 0, .vxCreateImageFromROI 4 5 (fun _ => 0x100) (fun _ => 0x80),
    .vxSwapImageHandle 3 (some (fun k => if k = 0 then 0x13000 else 0x13800)) 2 true, .swapImage 0 3,
    .vxCreateImageFromHandle 6 1 (fun _ => 0x400) (fun _ => 0x14000), .vxCreateImageFromROI 6 7 (fun _ => 0x100) (fun _ => 0x20),
    .tivxReferenceImportHandle 6 0x15000]

theorem pointersOk_run : ∃ s : PtrStore, s.memPtr 2 0 = ⟨0x13040, 0x80013040⟩ ∧ s.tensorPtr 0 = ⟨0x13048, 0x80013048⟩ ∧
    s.memPtr 5 0 = ⟨0x10080, 0x80010080⟩ ∧ s.memPtr 7 0 = ⟨0x15020, 0x80015020⟩ ∧ PointersOk mappedRegion s := by
  have hexec : (exec (imagePtrStep mappedRegion) (keepsPointers mappedRegion) {} pointersRun).map
      (fun s => (s.memPtr 2 0, s.tensorPtr 0, s.memPtr 5 0, s.memPtr 7 0)) =
      some (⟨0x13040, 0x80013040⟩, ⟨0x13048, 0x80013048⟩, ⟨0x10080, 0x80010080⟩, ⟨0x15020, 0x80015020⟩) := by
    decide +kernel
  obtain ⟨s, hr, hs⟩ := exists_reach_of_exec hexec
  simp only [Prod.mk.injEq] at hs
  exact ⟨s, hs.1, hs.2.1, hs.2.2.1, hs.2.2.2, pointersOk_of_reach (by decide) hr⟩

/-- Plane `k` of a sub-image, checked against its parent. -/
def planeOk (s : PtrStore) (c k : Nat) : Bool :=
  (s.images c).all (fun C => C.parent.all (fun p => decide (k < C.planes → (s.memPtr c k).host =
    if (s.memPtr p (C.parentPlane k)).host = 0 then 0
    else (s.memPtr p (C.parentPlane k)).host + (C.memOffset k).toUInt64)))

/-- A sub-tensor, checked against its parent. -/
def tensorOk (s : PtrStore) (t : Nat) : Bool :=
  (s.tensors t).all (fun T => decide ((s.tensorPtr t).host =
    if (s.memPtr T.parent 0).host = 0 then 0 else (s.memPtr T.parent 0).host + T.offset))

theorem PointersOk.planeOk {host2Shared : UInt64 → UInt64} {s : PtrStore} (h : PointersOk host2Shared s) (c k : Nat) :
    Tiovx.planeOk s c k = true := by
  simp only [Tiovx.planeOk, Option.all_eq_true, decide_eq_true_eq]
  intro C hC p hp hk
  exact h.subimage c C p hC hp k hk

theorem PointersOk.tensorOk {host2Shared : UInt64 → UInt64} {s : PtrStore} (h : PointersOk host2Shared s) (t : Nat) :
    Tiovx.tensorOk s t = true := by
  simp only [Tiovx.tensorOk, Option.all_eq_true, decide_eq_true_eq]
  intro T hT
  exact h.subtensor t T hT

theorem not_pointersOk {host2Shared : UInt64 → UInt64} {s : PtrStore} (c k t : Nat)
    (h : (Tiovx.planeOk s c k && Tiovx.tensorOk s t) = false) : ¬ PointersOk host2Shared s := by
  intro hok
  rw [hok.planeOk c k, hok.tensorOk t] at h
  cases h

/-- `vxSwapImageHandle` leaves a tensor where it was, and gives a sub-image memory that is not its parent's;
`tivxReferenceImportHandle` leaves a region of a region where it was, and points a region to its offset when there is no memory;
and two images that are swapped move a channel as far as their first planes are apart. -/
theorem pointers_broken :
    (∃ s, Reach (imagePtrStep mappedRegion) (fun s a => anyStep s a = true) {} s ∧ ¬ PointersOk mappedRegion s ∧
      s.memPtr 0 0 = ⟨0x12000, 0x80012000⟩ ∧ s.tensorPtr 0 = ⟨0x10008, 0x80010008⟩) ∧
    (∃ s, Reach (imagePtrStep mappedRegion) (fun s a => anyStep s a = true) {} s ∧ ¬ PointersOk mappedRegion s ∧
      s.memPtr 0 0 = ⟨0x10000, 0x80010000⟩ ∧ s.memPtr 1 0 = ⟨0x12000, 0x80012000⟩) ∧
    (∃ s, Reach (imagePtrStep mappedRegion) (fun s a => anyStep s a = true) {} s ∧ ¬ PointersOk mappedRegion s ∧
      s.memPtr 1 0 = ⟨0x12040, 0x80012040⟩ ∧ s.memPtr 2 0 = ⟨0x10048, 0x80010048⟩) ∧
    (∃ s, Reach (imagePtrStep mappedRegion) (fun s a => anyStep s a = true) {} s ∧ ¬ PointersOk mappedRegion s ∧
      s.memPtr 0 0 = ⟨0, 0⟩ ∧ s.memPtr 1 0 = ⟨0x40, 0x40⟩) ∧
    (∃ s, Reach (imagePtrStep mappedRegion) (fun s a => anyStep s a = true) {} s ∧ ¬ PointersOk mappedRegion s ∧
      s.memPtr 0 1 = ⟨0x13000, 0x80013000⟩ ∧ s.memPtr 2 0 = ⟨0x12800, 0x80012800⟩) := by
  have h1 : (exec (imagePtrStep mappedRegion) anyStep {} [.vxCreateImageFromHandle 0 1 (fun _ => 0x400) (fun _ => 0x10000),
      .vxCreateTensorFromROI 0 0 0x8, .vxSwapImageHandle 0 (some (fun _ => 0x12000)) 1 false]).map
      (fun s => (planeOk s 0 0 && tensorOk s 0, s.memPtr 0 0, s.tensorPtr 0)) =
      some (false, ⟨0x12000, 0x80012000⟩, ⟨0x10008, 0x80010008⟩) := by decide +kernel
  have h2 : (exec (imagePtrStep mappedRegion) anyStep {} [.vxCreateImageFromHandle 0 1 (fun _ => 0x400) (fun _ => 0x10000),
      .vxCreateImageFromROI 0 1 (fun _ => 0x100) (fun _ => 0x40), .vxSwapImageHandle 1 (some (fun _ => 0x12000)) 1 false]).map
      (fun s => (planeOk s 1 0 && tensorOk s 0, s.memPtr 0 0, s.memPtr 1 0)) =
      some (false, ⟨0x10000, 0x80010000⟩, ⟨0x12000, 0x80012000⟩) := by decide +kernel
  have h3 : (exec (imagePtrStep mappedRegion) anyStep {} [.vxCreateImageFromHandle 0 1 (fun _ => 0x400) (fun _ => 0x10000),
      .vxCreateImageFromROI 0 1 (fun _ => 0x100) (fun _ => 0x40), .vxCreateImageFromROI 1 2 (fun _ => 0x80) (fun _ => 0x8),
      .tivxReferenceImportHandle 0 0x12000]).map
      (fun s => (planeOk s 2 0 && tensorOk s 0, s.memPtr 1 0, s.memPtr 2 0)) =
      some (false, ⟨0x12040, 0x80012040⟩, ⟨0x10048, 0x80010048⟩) := by decide +kernel
  have h4 : (exec (imagePtrStep mappedRegion) anyStep {} [.vxCreateImageFromHandle 0 1 (fun _ => 0x400) (fun _ => 0x10000),
      .vxCreateImageFromROI 0 1 (fun _ => 0x100) (fun _ => 0x40), .tivxReferenceImportHandle 0 0]).map
      (fun s => (planeOk s 1 0 && tensorOk s 0, s.memPtr 0 0, s.memPtr 1 0)) =
      some (false, ⟨0, 0⟩, ⟨0x40, 0x40⟩) := by decide +kernel
  have h5 : (exec (imagePtrStep mappedRegion) anyStep {}
      [.vxCreateImageFromHandle 0 3 (fun _ => 0x400) (fun k => if k = 0 then 0x10000 else if k = 1 then 0x10800 else 0x11000),
      .vxCreateImageFromHandle 1 3 (fun _ => 0x400) (fun k => if k = 0 then 0x12000 else if k = 1 then 0x13000 else 0x14000),
      .vxCreateImageFromChannel 0 2 1, .swapImage 0 1]).map
      (fun s => (planeOk s 2 0 && tensorOk s 0, s.memPtr 0 1, s.memPtr 2 0)) =
      some (false, ⟨0x13000, 0x80013000⟩, ⟨0x12800, 0x80012800⟩) := by decide +kernel
  obtain ⟨s1, hr1, hx1⟩ := exists_reach_of_exec h1
  obtain ⟨s2, hr2, hx2⟩ := exists_reach_of_exec h2
  obtain ⟨s3, hr3, hx3⟩ := exists_reach_of_exec h3
  obtain ⟨s4, hr4, hx4⟩ := exists_reach_of_exec h4
  obtain ⟨s5, hr5, hx5⟩ := exists_reach_of_exec h5
  have hx1 := Prod.mk.inj hx1
  have hx2 := Prod.mk.inj hx2
  have hx3 := Prod.mk.inj hx3
  have hx4 := Prod.mk.inj hx4
  have hx5 := Prod.mk.inj hx5
  exact ⟨⟨s1, hr1, not_pointersOk 0 0 0 hx1.1, Prod.mk.inj hx1.2⟩, ⟨s2, hr2, not_pointersOk 1 0 0 hx2.1, Prod.mk.inj hx2.2⟩,
    ⟨s3, hr3, not_pointersOk 2 0 0 hx3.1, Prod.mk.inj hx3.2⟩, ⟨s4, hr4, not_pointersOk 1 0 0 hx4.1, Prod.mk.inj hx4.2⟩,
    ⟨s5, hr5, not_pointersOk 2 0 0 hx5.1, Prod.mk.inj hx5.2⟩⟩

end Tiovx
