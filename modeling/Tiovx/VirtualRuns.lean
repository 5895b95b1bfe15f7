import Tiovx.VirtualLinks
/-!
# VirtualRuns — what verification keeps (`vx_graph_verify.c`, `vx_image.c`, `vx_pyramid.c`, `vx_array.c`)

An output that has no memory has nothing that its initialisation can lose.
-/
namespace Tiovx

open StepSystem SlotTable VirtStore

/-- The invariant of the runs. -/
structure VirtInv (s : VirtStore) : Prop where
  links : VirtLinks s.images
  levels : VirtLevels s.images s.pyramids
  buffers : VirtBuffers s

/-! ### Changes of one image -/

section Image

variable {s : VirtStore} {i : Nat} {I I' : VirtImage}

/-- The image is where it was: in the same lists, and in the same memory. -/
structure SamePlace (I I' : VirtImage) : Prop where
  createType : I'.createType = I.createType
  scope : I'.scope = I.scope
  elementIdx : I'.elementIdx = I.elementIdx
  parent : I'.parent = I.parent
  subimages : I'.subimages = I.subimages
  planes : I'.desc.planes = I.desc.planes
  channelPlane : I'.desc.channelPlane = I.desc.channelPlane
  hostPtr : ∀ k, (I'.desc.plane k).hostPtr = (I.desc.plane k).hostPtr
  memOffset : ∀ k, (I'.desc.plane k).memOffset = (I.desc.plane k).memOffset

theorem holds_update (s' : VirtStore) (hI : s.images i = some I) (hs : s'.images = Function.update s.images i (some I'))
    (ha : s'.arrays = s.arrays) (hc : I'.createType = I.createType) (r : VirtRef) (b : Nat) :
    s'.Holds r b ↔ if r = .image i then I.createType = .normal ∧ I'.hostPtr = b else s.Holds r b := by
  cases r with
  | image j =>
    simp only [Holds, VirtRef.image.injEq, hs]
    by_cases hji : j = i
    · subst hji
      rw [if_pos rfl, Function.update_self]
      constructor
      · rintro ⟨J, hJ, h1, h2⟩
        cases hJ
        exact ⟨hc ▸ h1, h2⟩
      · rintro ⟨h1, h2⟩
        exact ⟨I', rfl, hc.trans h1, h2⟩
    · rw [if_neg hji, Function.update_of_ne hji]
  | array a => simp only [Holds, ha, reduceCtorEq, if_false]
  | pyramid q => simp only [Holds, reduceCtorEq, if_false]

theorem holds_self (hI : s.images i = some I) (b : Nat) : s.Holds (.image i) b ↔ I.createType = .normal ∧ I.hostPtr = b := by
  constructor
  · rintro ⟨J, hJ, h1, h2⟩
    obtain rfl : I = J := Option.some.inj (hI.symm.trans hJ)
    exact ⟨h1, h2⟩
  · rintro ⟨h1, h2⟩
    exact ⟨I, hI, h1, h2⟩

theorem map_placeOf_update {images : Nat → Option VirtImage} (hI : images i = some I) (hs : I'.scope = I.scope)
    (hidx : I'.elementIdx = I.elementIdx) (j : Nat) :
    (Function.update images i (some I') j).map placeOf = (images j).map placeOf := by
  by_cases hji : j = i
  · subst hji
    rw [Function.update_self, hI, Option.map_some, Option.map_some, placeOf, placeOf, hs, hidx]
  · rw [Function.update_of_ne hji]

/-- Flags, attributes and maps are set. -/
theorem VirtInv.setImage (h : VirtInv s) (hI : s.images i = some I) (hs : SamePlace I I')
    (hmaps : I'.hostPtr = 0 → I'.maps = List.replicate imageMaxMaps none) : VirtInv (s.setImage i I') where
  links := by
    have hhost : I'.hostPtr = I.hostPtr := hs.hostPtr 0
    refine h.links.set hI hs.parent hs.createType hs.scope (by rw [hs.subimages]) (fun h0 k => ?_) hmaps (fun P hP => ?_)
      (fun _ C hC => ?_)
    · rw [hs.hostPtr]
      exact h.links.memory i I hI (by rw [← hhost]; exact h0) k
    · refine ⟨hP.1, fun k => by rw [hs.hostPtr]; exact hP.2.1 k, fun k hk => ?_⟩
      rw [hs.hostPtr, hs.channelPlane, hs.memOffset]
      exact hP.2.2 k (by rw [← hs.planes]; exact hk)
    · refine ⟨by rw [hhost]; exact hC.1, hC.2.1, fun k hk => ?_⟩
      rw [hs.hostPtr]
      exact hC.2.2 k hk
  levels := h.levels.congr (map_placeOf_update hI hs.scope hs.elementIdx)
  buffers := by
    refine h.buffers.congr rfl (fun r b _ => ?_) h.buffers.maps
    rw [holds_update (s.setImage i I') hI rfl rfl hs.createType, show I'.hostPtr = I.hostPtr from hs.hostPtr 0]
    split
    · rename_i hr
      rw [hr, holds_self hI]
    · rfl

/-- An image without memory is initialised. -/
theorem VirtInv.initImage (h : VirtInv s) (hI : s.images i = some I) (h0 : I.hostPtr = 0) (width height : UInt32)
    (format : DfImage) : VirtInv (s.setImage i (I.ownInitImage width height format)) := by
  obtain ⟨hpar, hsub⟩ := h.links.without_memory hI h0
  have hhost : (I.ownInitImage width height format).hostPtr = 0 := rfl
  refine ⟨h.links.set hI hpar.symm rfl rfl ?_ (fun hn => absurd hhost hn) (fun _ => rfl) (fun P hP => absurd h0 (hP.2.1 0))
    (fun hne => absurd hsub hne), h.levels.congr (map_placeOf_update hI rfl rfl),
    h.buffers.congr rfl (fun r b hb => ?_) h.buffers.maps⟩
  · rw [hsub]
    exact entries_replicate _
  · rw [holds_update (s.setImage i (I.ownInitImage width height format)) hI rfl rfl rfl, hhost]
    split
    · rename_i hr
      rw [hr, holds_self hI, h0]
    · rfl

/-- The buffer of an image is allocated. -/
theorem VirtInv.allocImage (h : VirtInv s) (hI : s.images i = some I) (hc : I.createType = .normal) (h0 : I.hostPtr = 0)
    {host : Nat} (hfree : s.isFree host = true) :
    VirtInv { s.setImage i { I with desc := I.desc.ownAllocImageBuffer host, isAllocated := true } with
      buffers := Function.update s.buffers host true } := by
  obtain ⟨hpar, hsub⟩ := h.links.without_memory hI h0
  have hpos : host ≠ 0 := by
    simp only [isFree, Bool.and_eq_true, bne_iff_ne] at hfree
    exact hfree.1
  have hhost : ({ I with desc := I.desc.ownAllocImageBuffer host, isAllocated := true } : VirtImage).hostPtr = host := by
    simp [VirtImage.hostPtr, ImageDesc.ownAllocImageBuffer]
  refine ⟨h.links.set hI rfl rfl rfl rfl (fun _ k => ?_) (fun hz => ?_) (fun P hP => absurd h0 (hP.2.1 0))
    (fun hne => absurd hsub hne), h.levels.congr (map_placeOf_update hI rfl rfl), ?_⟩
  · simp only [ImageDesc.ownAllocImageBuffer]
    omega
  · rw [hhost] at hz
    exact absurd hz hpos
  · refine h.buffers.allocate (r := .image i) hfree (fun b hb hh => ?_) rfl (fun r b => ?_) h.buffers.maps
    · rw [holds_self hI, h0] at hh
      exact hb hh.2.symm
    · rw [holds_update { s.setImage i { I with desc := I.desc.ownAllocImageBuffer host, isAllocated := true } with
        buffers := Function.update s.buffers host true } hI rfl rfl rfl, hhost]
      split
      · rw [hc]
        simp only [true_and, eq_comm]
      · rfl

end Image

/-! ### Changes of one array -/

section Array

variable {s : VirtStore} {a : Nat} {A A' : VirtArray}

theorem holds_updateArray (s' : VirtStore) (hs : s'.arrays = Function.update s.arrays a (some A')) (hi : s'.images = s.images)
    (r : VirtRef) (b : Nat) : s'.Holds r b ↔ if r = .array a then b = A'.array.hostPtr else s.Holds r b := by
  cases r with
  | image j => simp only [Holds, hi, reduceCtorEq, if_false]
  | array c =>
    simp only [Holds, VirtRef.array.injEq, hs]
    by_cases hca : c = a
    · subst hca
      rw [if_pos rfl, Function.update_self]
      exact ⟨fun ⟨J, hJ, h⟩ => by cases hJ; exact h.symm, fun h => ⟨A', rfl, h.symm⟩⟩
    · rw [if_neg hca, Function.update_of_ne hca]
  | pyramid q => simp only [Holds, reduceCtorEq, if_false]

theorem holds_selfArray (hA : s.arrays a = some A) (b : Nat) : s.Holds (.array a) b ↔ b = A.array.hostPtr := by
  constructor
  · rintro ⟨J, hJ, h⟩
    obtain rfl : A = J := Option.some.inj (hA.symm.trans hJ)
    exact h.symm
  · rintro rfl
    exact ⟨A, hA, rfl⟩

theorem maps_update {arrays : Nat → Option VirtArray}
    (h : ∀ a A, arrays a = some A → A.array.hostPtr = 0 → A.maps = List.replicate arrayMaxMaps none)
    (hm : A'.array.hostPtr = 0 → A'.maps = List.replicate arrayMaxMaps none) (c : Nat) (C : VirtArray)
    (hC : Function.update arrays a (some A') c = some C) (h0 : C.array.hostPtr = 0) :
    C.maps = List.replicate arrayMaxMaps none := by
  by_cases hca : c = a
  · subst hca
    rw [Function.update_self, Option.some.injEq] at hC
    subst hC
    exact hm h0
  · rw [Function.update_of_ne hca] at hC
    exact h c C hC h0

/-- An array is changed, but not its buffer. -/
theorem VirtInv.setArray (h : VirtInv s) (hA : ∀ J ∈ s.arrays a, J.array.hostPtr = A'.array.hostPtr)
    (hnew : s.arrays a = none → A'.array.hostPtr = 0)
    (hm : A'.array.hostPtr = 0 → A'.maps = List.replicate arrayMaxMaps none) : VirtInv (s.setArray a A') := by
  refine ⟨h.links, h.levels, h.buffers.congr rfl (fun r b hb => ?_) (maps_update h.buffers.maps hm)⟩
  rw [holds_updateArray (s.setArray a A') rfl rfl]
  split
  · rename_i hr
    rw [hr]
    cases hs : s.arrays a with
    | none =>
      rw [hnew hs]
      exact ⟨fun h => absurd h hb, fun ⟨J, hJ, _⟩ => by rw [hs] at hJ; cases hJ⟩
    | some A => rw [holds_selfArray hs, hA A hs]
  · rfl

/-- The buffer of an array is allocated. -/
theorem VirtInv.allocArray (h : VirtInv s) (hA : s.arrays a = some A) (h0 : A.array.hostPtr = 0) {host : Nat}
    (hfree : s.isFree host = true) : VirtInv { s.setArray a { A with array := { A.array with hostPtr := host } } with
      buffers := Function.update s.buffers host true } := by
  have hpos : host ≠ 0 := by
    simp only [isFree, Bool.and_eq_true, bne_iff_ne] at hfree
    exact hfree.1
  refine ⟨h.links, h.levels, h.buffers.allocate (r := .array a) hfree (fun b hb hh => ?_) rfl (fun r b => ?_)
    (maps_update h.buffers.maps (fun hz => absurd hz hpos))⟩
  · rw [holds_selfArray hA, h0] at hh
    exact hb hh
  · exact holds_updateArray { s.setArray a { A with array := { A.array with hostPtr := host } } with
      buffers := Function.update s.buffers host true } rfl rfl r b

end Array

/-! ### Allocation -/

section Allocate

variable {s s' : VirtStore} {i a : Nat} {I I' : VirtImage} {A A' : VirtArray}

theorem KeepsMaps.refl (s : VirtStore) : KeepsMaps s s := ⟨fun _ I h => ⟨I, h, rfl, rfl⟩, fun _ A h => ⟨A, h, rfl⟩⟩

theorem KeepsMaps.trans {t : VirtStore} (h : KeepsMaps s s') (h' : KeepsMaps s' t) : KeepsMaps s t where
  image := by
    intro i I hI
    obtain ⟨I1, hI1, h1, h2⟩ := h.image i I hI
    obtain ⟨I2, hI2, h3, h4⟩ := h'.image i I1 hI1
    exact ⟨I2, hI2, h3.trans h1, h4.trans h2⟩
  array := by
    intro a A hA
    obtain ⟨A1, hA1, h1⟩ := h.array a A hA
    obtain ⟨A2, hA2, h2⟩ := h'.array a A1 hA1
    exact ⟨A2, hA2, h2.trans h1⟩

theorem KeepsMaps.update (hI : s.images i = some I) (hs : s'.images = Function.update s.images i (some I'))
    (ha : s'.arrays = s.arrays) (hm : I'.maps = I.maps) (hal : I'.strideYAlignment = I.strideYAlignment) : KeepsMaps s s' where
  image := by
    intro j J hj
    by_cases hji : j = i
    · subst hji
      obtain rfl : I = J := Option.some.inj (hI.symm.trans hj)
      exact ⟨I', by rw [hs, Function.update_self], hm, hal⟩
    · exact ⟨J, by rw [hs, Function.update_of_ne hji, hj], rfl, rfl⟩
  array := fun a A hA => ⟨A, by rw [ha, hA], rfl⟩

theorem KeepsMaps.updateArray (hA : s.arrays a = some A) (hs : s'.arrays = Function.update s.arrays a (some A'))
    (hi : s'.images = s.images) (hm : A'.maps = A.maps) : KeepsMaps s s' where
  image := fun i I hI => ⟨I, by rw [hi, hI], rfl, rfl⟩
  array := by
    intro c C hc
    by_cases hca : c = a
    · subst hca
      obtain rfl : A = C := Option.some.inj (hA.symm.trans hc)
      exact ⟨A', by rw [hs, Function.update_self], hm⟩
    · exact ⟨C, by rw [hs, Function.update_of_ne hca, hc], rfl⟩

/-- An image that is allocated keeps what it has, and has memory then. -/
theorem ownAllocImageBuffer_spec (h : VirtInv s) (hI : s.images i = some I) (host : Nat) :
    VirtInv (s.ownAllocImageBuffer i I host).1 ∧ KeepsMaps s (s.ownAllocImageBuffer i I host).1 ∧
      (∀ j, s.images j = none → (s.ownAllocImageBuffer i I host).1.images j = none) ∧
      ((s.ownAllocImageBuffer i I host).2 = true → ∃ I', (s.ownAllocImageBuffer i I host).1.images i = some I' ∧
        I'.hostPtr ≠ 0) := by
  unfold ownAllocImageBuffer
  split
  · rename_i hc
    split
    · rename_i hf
      refine ⟨h.allocImage hI hc.1 hc.2 hf.2, KeepsMaps.update hI rfl rfl rfl rfl, fun j hj => ?_,
        fun _ => ⟨_, Function.update_self .., ?_⟩⟩
      · have hji : j ≠ i := by
          rintro rfl
          rw [hI] at hj
          cases hj
        exact (Function.update_of_ne hji ..).trans hj
      · have hpos := hf.2
        simp only [isFree, Bool.and_eq_true, bne_iff_ne] at hpos
        simp only [VirtImage.hostPtr, ImageDesc.ownAllocImageBuffer]
        omega
    · exact ⟨h, .refl s, fun _ hj => hj, fun hf => by cases hf⟩
  · rename_i hc
    refine ⟨h, .refl s, fun _ hj => hj, fun _ => ⟨I, hI, fun h0 => hc ⟨?_, h0⟩⟩⟩
    exact (h.links.root i I hI (h.links.without_memory hI h0).1).1

theorem allocImage_spec (h : VirtInv s) (i host : Nat) :
    VirtInv (s.allocImage i host).1 ∧ KeepsMaps s (s.allocImage i host).1 := by
  unfold VirtStore.allocImage
  split
  · exact ⟨h, .refl s⟩
  · rename_i I hI
    obtain ⟨h1, h2, -⟩ := ownAllocImageBuffer_spec h hI host
    exact ⟨h1, h2⟩

theorem ownAllocPyramidBuffer_spec : ∀ (l : List (Option Nat)) (hosts : List Nat) (ok : Bool) {s : VirtStore}, VirtInv s →
    VirtInv (ownAllocPyramidBuffer l hosts ok s).1 ∧ KeepsMaps s (ownAllocPyramidBuffer l hosts ok s).1
  | [], _, _, s, h => ⟨h, .refl s⟩
  | none :: l, hosts, _, _, h => ownAllocPyramidBuffer_spec l hosts false h
  | some i :: l, hosts, _, s, h => by
    obtain ⟨h1, h2⟩ := allocImage_spec h i (hosts.headD 0)
    rw [ownAllocPyramidBuffer]
    split
    · rename_i he
      rw [he] at h1 h2
      obtain ⟨h3, h4⟩ := ownAllocPyramidBuffer_spec l hosts.tail true h1
      exact ⟨h3, h2.trans h4⟩
    · rename_i he
      rw [he] at h1 h2
      exact ⟨h1, h2⟩

theorem ownReferenceAllocMem_spec (h : VirtInv s) (hosts : List Nat) (r : VirtRef) :
    VirtInv (s.ownReferenceAllocMem hosts r).1 ∧ KeepsMaps s (s.ownReferenceAllocMem hosts r).1 := by
  cases r with
  | image i => exact allocImage_spec h i _
  | array a =>
    simp only [VirtStore.ownReferenceAllocMem]
    split
    · exact ⟨h, .refl s⟩
    · rename_i A hA
      unfold VirtStore.ownAllocReferenceBufferGeneric
      split
      · rename_i h0
        split
        · rename_i hf
          exact ⟨h.allocArray hA h0 hf.2, KeepsMaps.updateArray hA rfl rfl rfl⟩
        · exact ⟨h, .refl s⟩
      · exact ⟨h, .refl s⟩
  | pyramid q =>
    simp only [VirtStore.ownReferenceAllocMem]
    split
    · exact ⟨h, .refl s⟩
    · exact ownAllocPyramidBuffer_spec _ hosts true h

theorem ownGraphAllocateDataObjects_spec : ∀ (refs : List VirtRef) (hosts : List Nat) {s : VirtStore}, VirtInv s →
    VirtInv (ownGraphAllocateDataObjects refs hosts s) ∧ KeepsMaps s (ownGraphAllocateDataObjects refs hosts s)
  | [], _, s, h => ⟨h, .refl s⟩
  | r :: refs, hosts, s, h => by
    obtain ⟨h1, h2⟩ := ownReferenceAllocMem_spec h hosts r
    rw [ownGraphAllocateDataObjects]
    split
    · rename_i he
      rw [he] at h1 h2
      obtain ⟨h3, h4⟩ := ownGraphAllocateDataObjects_spec refs _ h1
      exact ⟨h3, h2.trans h4⟩
    · rename_i he
      rw [he] at h1 h2
      exact ⟨h1, h2⟩

end Allocate

end Tiovx
