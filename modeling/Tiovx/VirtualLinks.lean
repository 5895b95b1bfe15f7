import Tiovx.VirtualObjects
/-!
# VirtualLinks — what belongs to a virtual object (`vx_image.c`, `vx_pyramid.c`, `vx_array.c`)

Sub-images and maps are of objects with memory, levels are of pyramids, and buffers of one object each.
-/
namespace Tiovx

open StepSystem SlotTable VirtStore

/-! ### Images and their lists -/

/-- A sub-image has the memory of its parent. -/
def InMemory (C P : VirtImage) : Prop :=
  P.hostPtr ≠ 0 ∧ (∀ k, (C.desc.plane k).hostPtr ≠ 0) ∧ ∀ k < C.desc.planes, (C.desc.plane k).hostPtr =
    (P.desc.plane (C.desc.channelPlane + k)).hostPtr + (C.desc.plane k).memOffset.toNat

/-- What holds of the lists, the memory and the maps of the images in every state. -/
structure VirtLinks (images : Nat → Option VirtImage) : Prop where
  root : ∀ i I, images i = some I → I.parent = none → I.createType = .normal ∧ ∀ p, I.scope ≠ .image p
  child : ∀ c C p, images c = some C → C.parent = some p → C.createType ≠ .normal ∧ C.scope = .image p ∧
    ∃ P, images p = some P ∧ c ∈ entries P.subimages ∧ InMemory C P
  listed : ∀ p P c, images p = some P → c ∈ entries P.subimages → ∃ C, images c = some C ∧ C.parent = some p
  nodup : ∀ i I, images i = some I → (entries I.subimages).Nodup
  memory : ∀ i I, images i = some I → I.hostPtr ≠ 0 → ∀ k, (I.desc.plane k).hostPtr ≠ 0
  maps : ∀ i I, images i = some I → I.hostPtr = 0 → I.maps = List.replicate imageMaxMaps none

namespace VirtLinks

variable {images : Nat → Option VirtImage} {i p : Nat} {I I' P : VirtImage}

/-- An image without memory has no parent and no sub-images. -/
theorem without_memory (h : VirtLinks images) (hI : images i = some I) (h0 : I.hostPtr = 0) :
    I.parent = none ∧ entries I.subimages = [] := by
  constructor
  · cases hp : I.parent with
    | none => rfl
    | some p =>
      obtain ⟨-, -, P, -, -, -, hC, -⟩ := h.child i I p hI hp
      exact absurd h0 (hC 0)
  · cases he : entries I.subimages with
    | nil => rfl
    | cons c l =>
      obtain ⟨C, hC, hpar⟩ := h.listed i I c hI (by rw [he]; exact List.mem_cons_self)
      obtain ⟨-, -, P, hP, -, hm, -⟩ := h.child c C i hC hpar
      obtain rfl : I = P := Option.some.inj (hI.symm.trans hP)
      exact absurd h0 hm

/-- An image is changed, but neither its parent nor its sub-images. -/
theorem set (h : VirtLinks images) (hI : images i = some I) (hp : I'.parent = I.parent) (hc : I'.createType = I.createType)
    (hsc : I'.scope = I.scope) (hsub : entries I'.subimages = entries I.subimages)
    (hmem : I'.hostPtr ≠ 0 → ∀ k, (I'.desc.plane k).hostPtr ≠ 0)
    (hmaps : I'.hostPtr = 0 → I'.maps = List.replicate imageMaxMaps none) (hchild : ∀ P, InMemory I P → InMemory I' P)
    (hparent : entries I.subimages ≠ [] → ∀ C, InMemory C I → InMemory C I') :
    VirtLinks (Function.update images i (some I')) := by
  -- each image was there with the same parent, type, scope and list
  have hback : ∀ j J', Function.update images i (some I') j = some J' → ∃ J, images j = some J ∧ J'.parent = J.parent ∧
      J'.createType = J.createType ∧ J'.scope = J.scope ∧ entries J'.subimages = entries J.subimages ∧
      ∀ P, InMemory J P → InMemory J' P := by
    intro j J' hj
    by_cases hji : j = i
    · subst hji
      rw [Function.update_self, Option.some.injEq] at hj
      subst hj
      exact ⟨I, hI, hp, hc, hsc, hsub, hchild⟩
    · rw [Function.update_of_ne hji] at hj
      exact ⟨J', hj, rfl, rfl, rfl, rfl, fun _ h => h⟩
  have hforth : ∀ j J, images j = some J → ∃ J', Function.update images i (some I') j = some J' ∧ J'.parent = J.parent ∧
      entries J'.subimages = entries J.subimages ∧ (entries J.subimages ≠ [] → ∀ C, InMemory C J → InMemory C J') := by
    intro j J hj
    by_cases hji : j = i
    · subst hji
      obtain rfl : I = J := Option.some.inj (hI.symm.trans hj)
      exact ⟨I', Function.update_self .., hp, hsub, hparent⟩
    · exact ⟨J, by rw [Function.update_of_ne hji, hj], rfl, rfl, fun _ _ h => h⟩
  refine ⟨fun j J' hj hpar => ?_, fun c C' q hC' hpar => ?_, fun q Q' c hQ' hcm => ?_, fun j J' hj => ?_, fun j J' hj => ?_,
    fun j J' hj => ?_⟩
  · obtain ⟨J, hJ, h1, h2, h3, -⟩ := hback j J' hj
    rw [h2, h3]
    exact h.root j J hJ (h1.symm.trans hpar)
  · obtain ⟨C, hC, h1, h2, h3, -, h5⟩ := hback c C' hC'
    obtain ⟨hn, hs, Q, hQ, hm, hin⟩ := h.child c C q hC (h1.symm.trans hpar)
    obtain ⟨Q', hQ', -, h6, h7⟩ := hforth q Q hQ
    exact ⟨by rw [h2]; exact hn, h3.trans hs, Q', hQ', by rw [h6]; exact hm, h5 Q' (h7 (List.ne_nil_of_mem hm) C hin)⟩
  · obtain ⟨Q, hQ, -, -, -, h4, -⟩ := hback q Q' hQ'
    rw [h4] at hcm
    obtain ⟨C, hC, hpar⟩ := h.listed q Q c hQ hcm
    obtain ⟨C', hC', h1, -⟩ := hforth c C hC
    exact ⟨C', hC', h1.trans hpar⟩
  · obtain ⟨J, hJ, -, -, -, h4, -⟩ := hback j J' hj
    rw [h4]
    exact h.nodup j J hJ
  · by_cases hji : j = i
    · subst hji
      rw [Function.update_self, Option.some.injEq] at hj
      subst hj
      exact hmem
    · rw [Function.update_of_ne hji] at hj
      exact h.memory j J' hj
  · by_cases hji : j = i
    · subst hji
      rw [Function.update_self, Option.some.injEq] at hj
      subst hj
      exact hmaps
    · rw [Function.update_of_ne hji] at hj
      exact h.maps j J' hj

/-- A new image that is not made of another. -/
theorem create (h : VirtLinks images) (hi : images i = none) (hpar : I.parent = none) (hc : I.createType = .normal)
    (hsc : ∀ p, I.scope ≠ .image p) (hsub : entries I.subimages = []) (h0 : I.hostPtr = 0)
    (hmaps : I.maps = List.replicate imageMaxMaps none) : VirtLinks (Function.update images i (some I)) := by
  have hne : ∀ {j J}, images j = some J → j ≠ i := by
    rintro j J hj rfl
    rw [hi] at hj
    cases hj
  have hold : ∀ {j J}, images j = some J → Function.update images i (some I) j = some J := fun hj => by
    rw [Function.update_of_ne (hne hj), hj]
  have hget : ∀ {j J}, Function.update images i (some I) j = some J → (j = i ∧ J = I) ∨ images j = some J := by
    intro j J hj
    by_cases hji : j = i
    · subst hji
      rw [Function.update_self, Option.some.injEq] at hj
      exact .inl ⟨rfl, hj.symm⟩
    · rw [Function.update_of_ne hji] at hj
      exact .inr hj
  refine ⟨fun j J hj hpj => ?_, fun c C q hC hpC => ?_, fun q Q c hQ hcm => ?_, fun j J hj => ?_, fun j J hj hm => ?_,
    fun j J hj hm => ?_⟩
  · rcases hget hj with ⟨-, rfl⟩ | hj
    · exact ⟨hc, hsc⟩
    · exact h.root j J hj hpj
  · rcases hget hC with ⟨-, rfl⟩ | hC
    · rw [hpar] at hpC
      cases hpC
    · obtain ⟨h1, h2, Q, hQ, h3⟩ := h.child c C q hC hpC
      exact ⟨h1, h2, Q, hold hQ, h3⟩
  · rcases hget hQ with ⟨-, rfl⟩ | hQ
    · rw [hsub] at hcm
      cases hcm
    · obtain ⟨C, hC, hpC⟩ := h.listed q Q c hQ hcm
      exact ⟨C, hold hC, hpC⟩
  · rcases hget hj with ⟨-, rfl⟩ | hj
    · rw [hsub]
      exact List.nodup_nil
    · exact h.nodup j J hj
  · rcases hget hj with ⟨-, rfl⟩ | hj
    · exact absurd h0 hm
    · exact h.memory j J hj hm
  · rcases hget hj with ⟨-, rfl⟩ | hj
    · exact hmaps
    · exact h.maps j J hj hm

/-- A new sub-image, in the list and in the memory of its parent. -/
theorem link (h : VirtLinks images) (hi : images i = none) (hP : images p = some P) {t : List (Option Nat)}
    (ht : putFirst i P.subimages = some t) (hpar : I.parent = some p) (hc : I.createType ≠ .normal) (hsc : I.scope = .image p)
    (hsub : entries I.subimages = []) (hin : InMemory I P) :
    VirtLinks (Function.update (Function.update images p (some { P with subimages := t })) i (some I)) := by
  obtain ⟨-, hperm⟩ := putFirst_spec ht
  have hne : ∀ {j J}, images j = some J → j ≠ i := by
    rintro j J hj rfl
    rw [hi] at hj
    cases hj
  have hself : Function.update (Function.update images p (some { P with subimages := t })) i (some I) i = some I :=
    Function.update_self ..
  have hpself : Function.update (Function.update images p (some { P with subimages := t })) i (some I) p =
      some { P with subimages := t } := by
    rw [Function.update_of_ne (hne hP), Function.update_self]
  have hold : ∀ {j J}, images j = some J → ∃ J', Function.update (Function.update images p (some { P with subimages := t })) i
      (some I) j = some J' ∧ J'.parent = J.parent ∧ (∀ c ∈ entries J.subimages, c ∈ entries J'.subimages) ∧
      ∀ C, InMemory C J → InMemory C J' := by
    intro j J hj
    by_cases hjp : j = p
    · subst hjp
      obtain rfl : P = J := Option.some.inj (hP.symm.trans hj)
      exact ⟨_, hpself, rfl, fun c hcm => hperm.mem_iff.2 (List.mem_cons_of_mem i hcm), fun _ h => h⟩
    · exact ⟨J, by rw [Function.update_of_ne (hne hj), Function.update_of_ne hjp, hj], rfl, fun _ h => h, fun _ h => h⟩
  have hget : ∀ {j J'}, Function.update (Function.update images p (some { P with subimages := t })) i (some I) j = some J' →
      (j = i ∧ J' = I) ∨ ∃ J, images j = some J ∧ ((j = p ∧ J = P ∧ J' = { P with subimages := t }) ∨ J' = J) := by
    intro j J' hj
    by_cases hji : j = i
    · subst hji
      rw [hself, Option.some.injEq] at hj
      exact .inl ⟨rfl, hj.symm⟩
    · by_cases hjp : j = p
      · subst hjp
        rw [hpself, Option.some.injEq] at hj
        exact .inr ⟨P, hP, .inl ⟨rfl, rfl, hj.symm⟩⟩
      · rw [Function.update_of_ne hji, Function.update_of_ne hjp] at hj
        exact .inr ⟨J', hj, .inr rfl⟩
  refine ⟨fun j J' hj hpj => ?_, fun c C' q hC hpC => ?_, fun q Q' c hQ hcm => ?_, fun j J' hj => ?_, fun j J' hj hm => ?_,
    fun j J' hj hm => ?_⟩
  · rcases hget hj with ⟨-, rfl⟩ | ⟨J, hJ, ⟨-, rfl, rfl⟩ | rfl⟩
    · rw [hpar] at hpj
      cases hpj
    · exact h.root j J hJ hpj
    · exact h.root j J' hJ hpj
  · rcases hget hC with ⟨rfl, rfl⟩ | ⟨C, hC, hCC⟩
    · obtain rfl : p = q := Option.some.inj (hpar.symm.trans hpC)
      exact ⟨hc, hsc, _, hpself, hperm.mem_iff.2 List.mem_cons_self, hin⟩
    · have hCp : C.parent = some q ∧ C'.createType = C.createType ∧ C'.scope = C.scope ∧ ∀ Q, InMemory C Q → InMemory C' Q := by
        rcases hCC with ⟨-, rfl, rfl⟩ | rfl
        · exact ⟨hpC, rfl, rfl, fun _ h => h⟩
        · exact ⟨hpC, rfl, rfl, fun _ h => h⟩
      obtain ⟨h1, h2, Q, hQ, h3, h4⟩ := h.child c C q hC hCp.1
      obtain ⟨Q', hQ', -, h5, h6⟩ := hold hQ
      exact ⟨by rw [hCp.2.1]; exact h1, by rw [hCp.2.2.1]; exact h2, Q', hQ', h5 c h3, hCp.2.2.2 Q' (h6 C h4)⟩
  · rcases hget hQ with ⟨-, rfl⟩ | ⟨Q, hQ0, ⟨rfl, rfl, rfl⟩ | rfl⟩
    · rw [hsub] at hcm
      cases hcm
    · rcases List.mem_cons.1 (hperm.mem_iff.1 hcm) with rfl | hcm
      · exact ⟨I, hself, hpar⟩
      · obtain ⟨C, hC, hpC⟩ := h.listed q Q c hQ0 hcm
        obtain ⟨C', hC', h1, -⟩ := hold hC
        exact ⟨C', hC', h1.trans hpC⟩
    · obtain ⟨C, hC, hpC⟩ := h.listed q Q' c hQ0 hcm
      obtain ⟨C', hC', h1, -⟩ := hold hC
      exact ⟨C', hC', h1.trans hpC⟩
  · rcases hget hj with ⟨-, rfl⟩ | ⟨J, hJ, ⟨-, rfl, rfl⟩ | rfl⟩
    · rw [hsub]
      exact List.nodup_nil
    · refine hperm.nodup_iff.2 (List.nodup_cons.2 ⟨fun hm => ?_, h.nodup j J hJ⟩)
      obtain ⟨C, hC, -⟩ := h.listed j J i hJ hm
      exact hne hC rfl
    · exact h.nodup j J' hJ
  · rcases hget hj with ⟨-, rfl⟩ | ⟨J, hJ, ⟨-, rfl, rfl⟩ | rfl⟩
    · exact hin.2.1
    · exact h.memory j J hJ hm
    · exact h.memory j J' hJ hm
  · rcases hget hj with ⟨-, rfl⟩ | ⟨J, hJ, ⟨-, rfl, rfl⟩ | rfl⟩
    · exact absurd hm (hin.2.1 0)
    · exact h.maps j J hJ hm
    · exact h.maps j J' hJ hm

/-- An image without sub-images is destroyed, and taken off the list of its parent. -/
theorem destroy (h : VirtLinks images) (hI : images i = some I) (hsub : entries I.subimages = [])
    {images' : Nat → Option VirtImage} (hi : images' i = none)
    (himg : ∀ j, j ≠ i → I.parent ≠ some j → images' j = images j)
    (hpar : ∀ p P, I.parent = some p → images p = some P → ∃ t, (entries P.subimages).Perm (i :: entries t) ∧
      images' p = some { P with subimages := t }) : VirtLinks images' := by
  have hnep : ∀ p, I.parent = some p → p ≠ i := by
    rintro p hp rfl
    obtain ⟨-, -, P, hP, hm, -⟩ := h.child p I p hI hp
    obtain rfl : I = P := Option.some.inj (hI.symm.trans hP)
    rw [hsub] at hm
    cases hm
  -- what is left was there, with the same but for the list of the parent
  have hget : ∀ {j J'}, images' j = some J' → j ≠ i ∧ ∃ J, images j = some J ∧
      (J' = J ∧ I.parent ≠ some j ∨ I.parent = some j ∧ ∃ t, J' = { J with subimages := t } ∧
        (entries J.subimages).Perm (i :: entries t)) := by
    intro j J' hj
    have hji : j ≠ i := by
      rintro rfl
      rw [hi] at hj
      cases hj
    refine ⟨hji, ?_⟩
    by_cases hp : I.parent = some j
    · obtain ⟨-, -, P, hP, -⟩ := h.child i I j hI hp
      obtain ⟨t, ht, he⟩ := hpar j P hp hP
      rw [he, Option.some.injEq] at hj
      exact ⟨P, hP, .inr ⟨hp, t, hj.symm, ht⟩⟩
    · rw [himg j hji hp] at hj
      exact ⟨J', hj, .inl ⟨rfl, hp⟩⟩
  have hold : ∀ {j J}, images j = some J → j ≠ i → ∃ J', images' j = some J' ∧ J'.parent = J.parent ∧
      (∀ c ∈ entries J.subimages, c ≠ i → c ∈ entries J'.subimages) ∧ ∀ C, InMemory C J → InMemory C J' := by
    intro j J hj hji
    by_cases hp : I.parent = some j
    · obtain ⟨t, ht, he⟩ := hpar j J hp hj
      exact ⟨_, he, rfl, fun c hcm hci => (List.mem_cons.1 (ht.mem_iff.1 hcm)).resolve_left hci, fun _ h => h⟩
    · exact ⟨J, by rw [himg j hji hp, hj], rfl, fun _ h _ => h, fun _ h => h⟩
  refine ⟨fun j J' hj hpj => ?_, fun c C' q hC hpC => ?_, fun q Q' c hQ hcm => ?_, fun j J' hj => ?_, fun j J' hj hm => ?_,
    fun j J' hj hm => ?_⟩
  · obtain ⟨-, J, hJ, ⟨rfl, -⟩ | ⟨-, t, rfl, -⟩⟩ := hget hj
    · exact h.root j J' hJ hpj
    · exact h.root j J hJ hpj
  · obtain ⟨hci, C, hC, hCC⟩ := hget hC
    have hCp : C.parent = some q ∧ C'.createType = C.createType ∧ C'.scope = C.scope ∧ ∀ Q, InMemory C Q → InMemory C' Q := by
      rcases hCC with ⟨rfl, -⟩ | ⟨-, t, rfl, -⟩
      · exact ⟨hpC, rfl, rfl, fun _ h => h⟩
      · exact ⟨hpC, rfl, rfl, fun _ h => h⟩
    obtain ⟨h1, h2, Q, hQ, h3, h4⟩ := h.child c C q hC hCp.1
    have hqi : q ≠ i := by
      rintro rfl
      obtain rfl : I = Q := Option.some.inj (hI.symm.trans hQ)
      rw [hsub] at h3
      cases h3
    obtain ⟨Q', hQ', -, h5, h6⟩ := hold hQ hqi
    exact ⟨by rw [hCp.2.1]; exact h1, by rw [hCp.2.2.1]; exact h2, Q', hQ', h5 c h3 hci, hCp.2.2.2 Q' (h6 C h4)⟩
  · obtain ⟨hqi, Q, hQ0, hQQ⟩ := hget hQ
    have hc : c ∈ entries Q.subimages ∧ c ≠ i := by
      rcases hQQ with ⟨rfl, hp⟩ | ⟨hp, t, rfl, ht⟩
      · refine ⟨hcm, ?_⟩
        rintro rfl
        obtain ⟨C, hC, hpC⟩ := h.listed q Q' c hQ0 hcm
        obtain rfl : I = C := Option.some.inj (hI.symm.trans hC)
        exact hp hpC
      · refine ⟨ht.mem_iff.2 (List.mem_cons_of_mem i hcm), ?_⟩
        rintro rfl
        exact (List.nodup_cons.1 (ht.nodup_iff.1 (h.nodup q Q hQ0))).1 hcm
    obtain ⟨C, hC, hpC⟩ := h.listed q Q c hQ0 hc.1
    obtain ⟨C', hC', h1, -⟩ := hold hC hc.2
    exact ⟨C', hC', h1.trans hpC⟩
  · obtain ⟨-, J, hJ, ⟨rfl, -⟩ | ⟨-, t, rfl, ht⟩⟩ := hget hj
    · exact h.nodup j J' hJ
    · exact (List.nodup_cons.1 (ht.nodup_iff.1 (h.nodup j J hJ))).2
  · obtain ⟨-, J, hJ, ⟨rfl, -⟩ | ⟨-, t, rfl, -⟩⟩ := hget hj
    · exact h.memory j J' hJ hm
    · exact h.memory j J hJ hm
  · obtain ⟨-, J, hJ, ⟨rfl, -⟩ | ⟨-, t, rfl, -⟩⟩ := hget hj
    · exact h.maps j J' hJ hm
    · exact h.maps j J hJ hm

end VirtLinks

/-! ### Pyramids and their levels -/

/-- The levels of a pyramid are its images, and are there when the first is. -/
structure VirtLevels (images : Nat → Option VirtImage) (pyramids : Nat → Option VirtPyramid) : Prop where
  level : ∀ i I q, images i = some I → I.scope = .pyramid q → ∃ Q, pyramids q = some Q ∧ Q.img I.elementIdx = some i
  registered : ∀ q Q k i, pyramids q = some Q → Q.img k = some i → k < Q.numLevels ∧
    ∃ I, images i = some I ∧ I.scope = .pyramid q ∧ I.elementIdx = k
  whole : ∀ q Q, pyramids q = some Q → Q.img 0 = none → ∀ k, Q.img k = none

/-- Where an image belongs. -/
def placeOf (I : VirtImage) : RefScope × Nat := (I.scope, I.elementIdx)

namespace VirtLevels

variable {images images' : Nat → Option VirtImage} {pyramids : Nat → Option VirtPyramid} {i q : Nat} {I : VirtImage}
  {Q : VirtPyramid}

/-- Images that belong where they did have the same pyramids. -/
theorem congr (h : VirtLevels images pyramids) (hp : ∀ j, (images' j).map placeOf = (images j).map placeOf) :
    VirtLevels images' pyramids where
  level := by
    intro j J q hj hs
    have hjp := hp j
    rw [hj, Option.map_some] at hjp
    obtain ⟨J0, hJ0, he⟩ := Option.map_eq_some_iff.1 hjp.symm
    obtain ⟨h1, h2⟩ := Prod.mk.inj he
    rw [← h2]
    exact h.level j J0 q hJ0 (h1.trans hs)
  registered := by
    intro q Q k j hQ hk
    obtain ⟨hlt, J, hJ, hs, hi⟩ := h.registered q Q k j hQ hk
    have hjp := hp j
    rw [hJ, Option.map_some] at hjp
    obtain ⟨J', hJ', he⟩ := Option.map_eq_some_iff.1 hjp
    obtain ⟨h1, h2⟩ := Prod.mk.inj he
    exact ⟨hlt, J', hJ', h1.trans hs, h2.trans hi⟩
  whole := h.whole

/-- An image that is no level comes or goes. -/
theorem update_other (h : VirtLevels images pyramids) {o : Option VirtImage} (ho : ∀ J ∈ o, J.scope.isPyramid = false)
    (hi : ∀ J ∈ images i, J.scope.isPyramid = false) : VirtLevels (Function.update images i o) pyramids where
  level := by
    intro j J q hj hs
    by_cases hji : j = i
    · subst hji
      rw [Function.update_self] at hj
      have := ho J hj
      rw [hs] at this
      cases this
    · rw [Function.update_of_ne hji] at hj
      exact h.level j J q hj hs
  registered := by
    intro q Q k j hQ hk
    obtain ⟨hlt, J, hJ, hs, hidx⟩ := h.registered q Q k j hQ hk
    have hji : j ≠ i := by
      rintro rfl
      have := hi J hJ
      rw [hs] at this
      cases this
    exact ⟨hlt, J, by rw [Function.update_of_ne hji, hJ], hs, hidx⟩
  whole := h.whole

/-- A pyramid is given other dimensions. -/
theorem setPyramid (h : VirtLevels images pyramids) (hQ : pyramids q = some Q) {Q' : VirtPyramid}
    (hn : Q'.numLevels = Q.numLevels) (himg : Q'.img = Q.img) : VirtLevels images (Function.update pyramids q (some Q')) where
  level := by
    intro j J r hj hs
    obtain ⟨R, hR, hk⟩ := h.level j J r hj hs
    by_cases hrq : r = q
    · subst hrq
      obtain rfl : Q = R := Option.some.inj (hQ.symm.trans hR)
      exact ⟨Q', Function.update_self .., by rw [himg]; exact hk⟩
    · exact ⟨R, by rw [Function.update_of_ne hrq, hR], hk⟩
  registered := by
    intro r R k j hR hk
    by_cases hrq : r = q
    · subst hrq
      rw [Function.update_self, Option.some.injEq] at hR
      subst hR
      rw [himg] at hk
      rw [hn]
      exact h.registered r Q k j hQ hk
    · rw [Function.update_of_ne hrq] at hR
      exact h.registered r R k j hR hk
  whole := by
    intro r R hR h0
    by_cases hrq : r = q
    · subst hrq
      rw [Function.update_self, Option.some.injEq] at hR
      subst hR
      rw [himg] at h0 ⊢
      exact h.whole r Q hQ h0
    · rw [Function.update_of_ne hrq] at hR
      exact h.whole r R hR h0

/-- A new pyramid has no levels. -/
theorem createPyramid (h : VirtLevels images pyramids) (hq : pyramids q = none) (himg : ∀ k, Q.img k = none) :
    VirtLevels images (Function.update pyramids q (some Q)) where
  level := by
    intro j J r hj hs
    obtain ⟨R, hR, hk⟩ := h.level j J r hj hs
    have hrq : r ≠ q := by
      rintro rfl
      rw [hq] at hR
      cases hR
    exact ⟨R, by rw [Function.update_of_ne hrq, hR], hk⟩
  registered := by
    intro r R k j hR hk
    by_cases hrq : r = q
    · subst hrq
      rw [Function.update_self, Option.some.injEq] at hR
      subst hR
      rw [himg] at hk
      cases hk
    · rw [Function.update_of_ne hrq] at hR
      exact h.registered r R k j hR hk
  whole := by
    intro r R hR h0
    by_cases hrq : r = q
    · subst hrq
      rw [Function.update_self, Option.some.injEq] at hR
      subst hR
      exact himg
    · rw [Function.update_of_ne hrq] at hR
      exact h.whole r R hR h0

/-- A new image becomes the next level of a pyramid. -/
theorem createLevel (h : VirtLevels images pyramids) (hi : images i = none) (hQ : pyramids q = some Q) {k : Nat}
    (hk : k < Q.numLevels) (hnone : Q.img k = none) (hfirst : k ≠ 0 → Q.img 0 ≠ none) (hs : I.scope = .pyramid q)
    (hidx : I.elementIdx = k) : VirtLevels (Function.update images i (some I))
      (Function.update pyramids q (some { Q with img := Function.update Q.img k (some i) })) := by
  have hne : ∀ {j J}, images j = some J → j ≠ i := by
    rintro j J hj rfl
    rw [hi] at hj
    cases hj
  refine ⟨fun j J r hj hsJ => ?_, fun r R k' j hR hk' => ?_, fun r R hR h0 => ?_⟩
  · by_cases hji : j = i
    · subst hji
      rw [Function.update_self, Option.some.injEq] at hj
      subst hj
      rw [hs] at hsJ
      cases hsJ
      exact ⟨_, Function.update_self .., by rw [hidx]; exact Function.update_self ..⟩
    · rw [Function.update_of_ne hji] at hj
      obtain ⟨R, hR, hkR⟩ := h.level j J r hj hsJ
      by_cases hrq : r = q
      · subst hrq
        obtain rfl : Q = R := Option.some.inj (hQ.symm.trans hR)
        have hkk : J.elementIdx ≠ k := by
          intro hkk
          rw [hkk, hnone] at hkR
          cases hkR
        exact ⟨_, Function.update_self .., by rw [← hkR]; exact Function.update_of_ne hkk ..⟩
      · exact ⟨R, by rw [Function.update_of_ne hrq, hR], hkR⟩
  · by_cases hrq : r = q
    · subst hrq
      rw [Function.update_self, Option.some.injEq] at hR
      subst hR
      change Function.update Q.img k (some i) k' = some j at hk'
      by_cases hkk : k' = k
      · subst hkk
        rw [Function.update_self, Option.some.injEq] at hk'
        subst hk'
        exact ⟨hk, I, Function.update_self .., hs, hidx⟩
      · rw [Function.update_of_ne hkk] at hk'
        obtain ⟨h1, J, hJ, h2⟩ := h.registered r Q k' j hQ hk'
        exact ⟨h1, J, by rw [Function.update_of_ne (hne hJ), hJ], h2⟩
    · rw [Function.update_of_ne hrq] at hR
      obtain ⟨h1, J, hJ, h2⟩ := h.registered r R k' j hR hk'
      exact ⟨h1, J, by rw [Function.update_of_ne (hne hJ), hJ], h2⟩
  · by_cases hrq : r = q
    · subst hrq
      rw [Function.update_self, Option.some.injEq] at hR
      subst hR
      change Function.update Q.img k (some i) 0 = none at h0
      by_cases hk0 : k = 0
      · subst hk0
        rw [Function.update_self] at h0
        cases h0
      · rw [Function.update_of_ne (Ne.symm hk0)] at h0
        exact absurd h0 (hfirst hk0)
    · rw [Function.update_of_ne hrq] at hR
      exact h.whole r R hR h0

end VirtLevels

/-! ### Buffers and those that hold them -/

/-- Each buffer is held by one object, and maps of an array are of its buffer. -/
structure VirtBuffers (s : VirtStore) : Prop where
  held : ∀ b, s.buffers b = true ↔ b ≠ 0 ∧ ∃ r, s.Holds r b
  unique : ∀ r r' b, b ≠ 0 → s.Holds r b → s.Holds r' b → r = r'
  maps : ∀ a A, s.arrays a = some A → A.array.hostPtr = 0 → A.maps = List.replicate arrayMaxMaps none

namespace VirtBuffers

variable {s s' : VirtStore}

/-- What holds buffers holds the same. -/
theorem congr (h : VirtBuffers s) (hb : s'.buffers = s.buffers) (hh : ∀ r b, b ≠ 0 → (s'.Holds r b ↔ s.Holds r b))
    (hm : ∀ a A, s'.arrays a = some A → A.array.hostPtr = 0 → A.maps = List.replicate arrayMaxMaps none) : VirtBuffers s' where
  held := by
    intro b
    rw [hb, h.held b]
    exact and_congr_right (fun h0 => exists_congr (fun r => (hh r b h0).symm))
  unique := fun r r' b h0 h1 h2 => h.unique r r' b h0 ((hh r b h0).1 h1) ((hh r' b h0).1 h2)
  maps := hm

/-- An object is given a buffer that is free. -/
theorem allocate (h : VirtBuffers s) {r : VirtRef} {host : Nat} (hfree : s.isFree host = true) (hr : ∀ b, b ≠ 0 → ¬ s.Holds r b)
    (hb : s'.buffers = Function.update s.buffers host true)
    (hh : ∀ r' b, s'.Holds r' b ↔ if r' = r then b = host else s.Holds r' b)
    (hm : ∀ a A, s'.arrays a = some A → A.array.hostPtr = 0 → A.maps = List.replicate arrayMaxMaps none) : VirtBuffers s' := by
  simp only [isFree, Bool.and_eq_true, bne_iff_ne, ne_eq, Bool.not_eq_true'] at hfree
  obtain ⟨h0, hbuf⟩ := hfree
  -- nothing holds the buffer yet
  have hnone : ∀ r', ¬ s.Holds r' host := fun r' hr' => by
    have := (h.held host).2 ⟨h0, r', hr'⟩
    rw [hbuf] at this
    cases this
  have hself : s'.Holds r host := (hh r host).2 (by rw [if_pos rfl])
  have hother : ∀ {r' b}, r' ≠ r → (s'.Holds r' b ↔ s.Holds r' b) := fun hne => by rw [hh, if_neg hne]
  refine ⟨fun b => ?_, fun r1 r2 b hb0 h1 h2 => ?_, hm⟩
  · rw [hb]
    by_cases hbh : b = host
    · subst hbh
      rw [Function.update_self]
      exact ⟨fun _ => ⟨h0, r, hself⟩, fun _ => rfl⟩
    · rw [Function.update_of_ne hbh, h.held b]
      refine and_congr_right (fun hb0 => ⟨fun ⟨r', hr'⟩ => ⟨r', (hother ?_).2 hr'⟩, fun ⟨r', hr'⟩ => ⟨r', (hother ?_).1 hr'⟩⟩)
      · rintro rfl
        exact hr b hb0 hr'
      · rintro rfl
        rw [hh, if_pos rfl] at hr'
        exact hbh hr'
  · by_cases h1r : r1 = r
    · subst h1r
      rw [hh, if_pos rfl] at h1
      subst h1
      by_cases h2r : r2 = r1
      · exact h2r.symm
      · exact absurd ((hother h2r).1 h2) (hnone r2)
    · by_cases h2r : r2 = r
      · subst h2r
        rw [hh, if_pos rfl] at h2
        subst h2
        exact absurd ((hother h1r).1 h1) (hnone r1)
      · exact h.unique r1 r2 b hb0 ((hother h1r).1 h1) ((hother h2r).1 h2)

/-- An object is destroyed with its buffer, if it has one. -/
theorem free (h : VirtBuffers s) {r : VirtRef}
    (hh : ∀ r' b, b ≠ 0 → (s'.Holds r' b ↔ r' ≠ r ∧ s.Holds r' b))
    (hb : ∀ b, b ≠ 0 → (s'.buffers b = true ↔ s.buffers b = true ∧ ¬ s.Holds r b))
    (hb0 : s'.buffers 0 = false)
    (hm : ∀ a A, s'.arrays a = some A → A.array.hostPtr = 0 → A.maps = List.replicate arrayMaxMaps none) : VirtBuffers s' where
  held := by
    intro b
    by_cases h0 : b = 0
    · subst h0
      simp [hb0]
    · rw [hb b h0, h.held b]
      constructor
      · rintro ⟨⟨-, r', hr'⟩, hnr⟩
        refine ⟨h0, r', (hh r' b h0).2 ⟨?_, hr'⟩⟩
        rintro rfl
        exact hnr hr'
      · rintro ⟨-, r', hr'⟩
        obtain ⟨hne, hr'⟩ := (hh r' b h0).1 hr'
        exact ⟨⟨h0, r', hr'⟩, fun hrb => hne (h.unique r' r b h0 hr' hrb)⟩
  unique := fun r1 r2 b h0 h1 h2 => h.unique r1 r2 b h0 ((hh r1 b h0).1 h1).2 ((hh r2 b h0).1 h2).2
  maps := hm

end VirtBuffers

end Tiovx
