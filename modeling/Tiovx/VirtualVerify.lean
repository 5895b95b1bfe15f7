import Tiovx.Interchangeable
import Tiovx.VirtualRuns
/-!
# VirtualVerify — a graph is verified (`vx_graph_verify.c`, `vx_pyramid.c`)

Where each output that is initialised is as it was created, nothing is lost: an image and an array without memory have nothing that
could be, and a pyramid without levels is given its first ones.
-/
namespace Tiovx

open StepSystem SlotTable VirtStore

/-! ### New images -/

/-- A new image, without memory and with nothing made of it. -/
structure VirtImage.Fresh (I : VirtImage) : Prop where
  createType : I.createType = .normal
  parent : I.parent = none
  subimages : entries I.subimages = []
  scope : ∀ p, I.scope ≠ .image p
  hostPtr : I.hostPtr = 0
  maps : I.maps = List.replicate imageMaxMaps none

section Fresh

variable {s s' : VirtStore} {i : Nat} {I : VirtImage}

theorem VirtImage.fresh_create (scope : RefScope) (k : Nat) {d : ImageDesc} {width height : UInt32} {format : DfImage}
    (hd : ownCreateImageInt width height format = some d) (hs : ∀ p, scope ≠ .image p) :
    VirtImage.Fresh { desc := d, createType := .normal, scope := scope, elementIdx := k } := by
  obtain rfl := ImageDesc.ownCreateImageInt_eq hd
  exact ⟨rfl, rfl, entries_replicate _, hs, rfl, rfl⟩

theorem VirtLinks.fresh (h : VirtLinks s.images) (hi : s.images i = none) (hI : I.Fresh) :
    VirtLinks (Function.update s.images i (some I)) :=
  h.create hi hI.parent hI.createType hI.scope hI.subimages hI.hostPtr hI.maps

/-- A new image has no buffer. -/
theorem VirtBuffers.fresh (h : VirtBuffers s) (hi : s.images i = none) (hI : I.Fresh)
    (hs : s'.images = Function.update s.images i (some I)) (ha : s'.arrays = s.arrays) (hb : s'.buffers = s.buffers) :
    VirtBuffers s' := by
  refine h.congr hb (fun r b h0 => ?_) (by rw [ha]; exact h.maps)
  cases r with
  | image j =>
    simp only [Holds, hs]
    by_cases hji : j = i
    · subst hji
      rw [Function.update_self, hi]
      constructor
      · rintro ⟨J, hJ, -, hb⟩
        cases hJ
        exact absurd (hb.symm.trans hI.hostPtr) h0
      · rintro ⟨J, hJ, -⟩
        cases hJ
    · rw [Function.update_of_ne hji]
  | array a => simp only [Holds, ha]
  | pyramid q => rfl

theorem KeepsMaps.fresh (hi : s.images i = none) (hs : s'.images = Function.update s.images i (some I))
    (ha : s'.arrays = s.arrays) : KeepsMaps s s' where
  image := by
    intro j J hj
    have hji : j ≠ i := by
      rintro rfl
      rw [hi] at hj
      cases hj
    exact ⟨J, by rw [hs, Function.update_of_ne hji, hj], rfl, rfl⟩
  array := fun a A hA => ⟨A, by rw [ha, hA], rfl⟩

theorem KeepsMaps.of_eq (hi : s'.images = s.images) (ha : s'.arrays = s.arrays) : KeepsMaps s s' :=
  ⟨fun _ I hI => ⟨I, by rw [hi, hI], rfl, rfl⟩, fun _ A hA => ⟨A, by rw [ha, hA], rfl⟩⟩

end Fresh

/-! ### The levels of a pyramid -/

section Levels

variable {s s' : VirtStore} {q k : Nat} {Q : VirtPyramid}

/-- A pyramid is changed in what is no level. -/
theorem VirtInv.setPyramid (h : VirtInv s) (hQ : s.pyramids q = some Q) (Q' : VirtPyramid) (hn : Q'.numLevels = Q.numLevels)
    (himg : Q'.img = Q.img) : VirtInv (s.setPyramid q Q') :=
  ⟨h.links, h.levels.setPyramid hQ hn himg, h.buffers.congr rfl (fun r b _ => by cases r <;> rfl) h.buffers.maps⟩

/-- The next level is created. -/
theorem createLevel_spec (h : VirtInv s) (hQ : s.pyramids q = some Q) (hk : k < Q.numLevels) (hnone : Q.img k = none)
    (hfirst : k ≠ 0 → Q.img 0 ≠ none) {i : Nat} (hs : s.createLevel q k i = some s') :
    VirtInv s' ∧ KeepsMaps s s' ∧ s'.pyramids q = some { Q with img := Function.update Q.img k (some i) } := by
  unfold VirtStore.createLevel at hs
  rw [hQ, Option.bind_some] at hs
  obtain ⟨d, hd, hs⟩ := Option.bind_eq_some_iff.1 hs
  split at hs
  · rename_i hi
    cases hs
    have hI := VirtImage.fresh_create (.pyramid q) k hd (fun p => by simp)
    refine ⟨⟨h.links.fresh hi hI, h.levels.createLevel hi hQ hk hnone hfirst rfl rfl, ?_⟩, ?_, Function.update_self ..⟩
    · exact h.buffers.fresh hi hI rfl rfl rfl
    · exact KeepsMaps.fresh hi rfl rfl
  · cases hs

/-- The levels from `k` on are created. -/
theorem createLevels_spec : ∀ (n k : Nat) (ids : List Nat) {s s' : VirtStore} {Q : VirtPyramid}, VirtInv s →
    s.pyramids q = some Q → k + n = Q.numLevels → (∀ j, k ≤ j → Q.img j = none) → (k ≠ 0 → Q.img 0 ≠ none) →
    createLevels q n k ids s = .ok s' → VirtInv s' ∧ KeepsMaps s s'
  | 0, _, _, s, _, _, h, _, _, _, _, he => by
    cases he
    exact ⟨h, .refl s⟩
  | _ + 1, _, [], _, _, _, _, _, _, _, _, he => by cases he
  | n + 1, k, i :: ids, s, s', Q, h, hQ, hn, hnone, hfirst, he => by
    rw [createLevels] at he
    split at he
    · cases he
    · rename_i t ht
      obtain ⟨h1, h2, h3⟩ := createLevel_spec h hQ (by omega) (hnone k (Nat.le_refl k)) hfirst ht
      have hrest : ∀ j, k + 1 ≤ j → Function.update Q.img k (some i) j = none := by
        intro j hj
        rw [Function.update_of_ne (by omega)]
        exact hnone j (by omega)
      have hhead : Function.update Q.img k (some i) 0 ≠ none := by
        by_cases hk0 : k = 0
        · subst hk0
          rw [Function.update_self]
          exact Option.some_ne_none i
        · rw [Function.update_of_ne (Ne.symm hk0)]
          exact hfirst hk0
      obtain ⟨h4, h5⟩ := createLevels_spec n (k + 1) ids h1 h3 (by simp only; omega) hrest (fun _ => hhead) he
      exact ⟨h4, h2.trans h5⟩

/-- A pyramid without levels is initialised. -/
theorem ownInitPyramid_spec (h : VirtInv s) (hQ : s.pyramids q = some Q) (hnone : ∀ j, Q.img j = none) (ids : List Nat) :
    VirtInv (s.ownInitPyramid q Q ids).1 ∧ KeepsMaps s (s.ownInitPyramid q Q ids).1 := by
  unfold VirtStore.ownInitPyramid
  split
  · rename_i t ht
    exact createLevels_spec Q.numLevels 0 ids h hQ (Nat.zero_add _) (fun j _ => hnone j) (fun hne => absurd rfl hne) ht
  · refine ⟨h.setPyramid hQ _ rfl ?_, KeepsMaps.of_eq rfl rfl⟩
    funext j
    simp only [hnone, ite_self]

end Levels

/-! ### `vxVerifyGraph` -/

section Verify

variable {s : VirtStore} {g : Nat}

/-- **An output that is as it was created is initialised, and nothing is lost.** -/
theorem ownInitVirtual_spec (h : VirtInv s) (o : NodeOutput) (hu : s.isAccepted g o = true → s.isUntouched o = true) :
    VirtInv (s.ownInitVirtual g o).1 ∧ KeepsMaps s (s.ownInitVirtual g o).1 := by
  unfold VirtStore.ownInitVirtual
  split
  · rename_i ha
    have hu := hu ha
    cases o with
    | image i width height format =>
      simp only [initOutput]
      split
      · exact ⟨h, .refl s⟩
      · rename_i I hI
        simp only [isUntouched, hI, Option.all_some, Bool.and_eq_true, beq_iff_eq] at hu
        refine ⟨h.initImage hI hu.1 width height format, KeepsMaps.update hI rfl rfl ?_ hu.2.symm⟩
        exact (h.links.maps i I hI hu.1).symm
    | array a itemType capacity =>
      simp only [initOutput]
      split
      · exact ⟨h, .refl s⟩
      · rename_i A hA
        simp only [isUntouched, hA, Option.all_some, beq_iff_eq] at hu
        refine ⟨h.setArray (fun J hJ => ?_) (fun hn => ?_) (fun _ => rfl), KeepsMaps.updateArray hA rfl rfl ?_⟩
        · rw [hA] at hJ
          obtain rfl := Option.some.inj hJ
          exact hu
        · rw [hn] at hA
          cases hA
        · exact (h.buffers.maps a A hA hu).symm
    | pyramid q levels width height format ids =>
      simp only [initOutput]
      split
      · exact ⟨h, .refl s⟩
      · rename_i Q hQ
        simp only [isUntouched, hQ, Option.all_some, List.all_eq_true, Option.isNone_iff_eq_none] at hu
        have hnone : ∀ j, Q.img j = none := by
          intro j
          by_cases hj : j < Q.numLevels
          · exact hu j (List.mem_range.2 hj)
          · cases hi : Q.img j with
            | none => rfl
            | some i => exact absurd (h.levels.registered q Q j i hQ hi).1 hj
        obtain ⟨h1, h2⟩ := ownInitPyramid_spec (h.setPyramid hQ { Q with width := width, height := height, format := format } rfl
          rfl) (Function.update_self ..) hnone ids
        exact ⟨h1, (KeepsMaps.of_eq rfl rfl : KeepsMaps s (s.setPyramid q _)).trans h2⟩
  · exact ⟨h, .refl s⟩

theorem ownGraphInitVirtualNode_spec : ∀ (outputs : List NodeOutput) {s : VirtStore}, VirtInv s → outputsFit g outputs s = true →
    VirtInv (ownGraphInitVirtualNode g outputs s).1 ∧ KeepsMaps s (ownGraphInitVirtualNode g outputs s).1
  | [], s, h, _ => ⟨h, .refl s⟩
  | o :: outputs, s, h, hfit => by
    simp only [outputsFit, Bool.and_eq_true, Bool.or_eq_true, Bool.not_eq_true'] at hfit
    obtain ⟨h1, h2⟩ := ownInitVirtual_spec h o (fun ha => hfit.1.resolve_left (by rw [ha]; exact Bool.noConfusion))
    rw [ownGraphInitVirtualNode]
    have hrest := hfit.2
    split
    · rename_i t he
      rw [he] at h1 h2 hrest
      obtain ⟨h3, h4⟩ := ownGraphInitVirtualNode_spec outputs h1 hrest
      exact ⟨h3, h2.trans h4⟩
    · rename_i t he
      rw [he] at h1 h2
      exact ⟨h1, h2⟩

theorem ownGraphNodeKernelValidate_spec : ∀ (nodes : List VerifyNode) {s : VirtStore}, VirtInv s → nodesFit g nodes s = true →
    VirtInv (ownGraphNodeKernelValidate g nodes s).1 ∧ KeepsMaps s (ownGraphNodeKernelValidate g nodes s).1
  | [], s, h, _ => ⟨h, .refl s⟩
  | N :: nodes, s, h, hfit => by
    rw [ownGraphNodeKernelValidate]
    split
    · rename_i hv
      simp only [nodesFit, hv, Bool.not_true, Bool.false_or, Bool.and_eq_true] at hfit
      obtain ⟨h1, h2⟩ := ownGraphInitVirtualNode_spec N.outputs h hfit.1
      have hrest := hfit.2
      split
      · rename_i t he
        rw [he] at h1 h2 hrest
        split
        · rename_i hr
          simp only [hr, Bool.not_true, Bool.false_or] at hrest
          obtain ⟨h3, h4⟩ := ownGraphNodeKernelValidate_spec nodes h1 hrest
          exact ⟨h3, h2.trans h4⟩
        · exact ⟨h1, h2⟩
      · rename_i t he
        rw [he] at h1 h2
        exact ⟨h1, h2⟩
    · exact ⟨h, .refl s⟩

/-- **Verification loses nothing** where the outputs it initialises are as they were created. -/
theorem vxVerifyGraph_spec (h : VirtInv s) (nodes : List VerifyNode) (hfit : nodesFit g nodes s = true) (accepted : Bool)
    (hosts : List Nat) :
    VirtInv (s.vxVerifyGraph g nodes accepted hosts) ∧ KeepsMaps s (s.vxVerifyGraph g nodes accepted hosts) := by
  obtain ⟨h1, h2⟩ := ownGraphNodeKernelValidate_spec nodes h hfit
  unfold VirtStore.vxVerifyGraph
  split
  · rename_i t he
    rw [he] at h1 h2
    split
    · obtain ⟨h3, h4⟩ := ownGraphAllocateDataObjects_spec (nodes.flatMap (·.parameters)) hosts h1
      exact ⟨h3, h2.trans h4⟩
    · exact ⟨h1, h2⟩
  · rename_i t he
    rw [he] at h1 h2
    exact ⟨h1, h2⟩

end Verify

/-! ### What is lost otherwise -/

section Losses

variable {s : VirtStore} {g q : Nat}

/-- New levels are not the images that were there. -/
theorem createLevels_new : ∀ (n k : Nat) (ids : List Nat) {s s' : VirtStore}, createLevels q n k ids s = .ok s' →
    (∀ j J, s.images j = some J → s'.images j = some J) ∧
      ∀ Q', s'.pyramids q = some Q' → (∀ m, m < k → ∀ Q, s.pyramids q = some Q → Q'.img m = Q.img m) ∧
        ∀ m, k ≤ m → m < k + n → ∀ j, Q'.img m = some j → s.images j = none
  | 0, k, _, s, _, he => by
    cases he
    refine ⟨fun _ _ hj => hj, fun Q' hQ' => ⟨fun m _ Q hQ => ?_, fun m h1 h2 => by omega⟩⟩
    rw [Option.some.inj (hQ'.symm.trans hQ)]
  | _ + 1, _, [], _, _, he => by cases he
  | n + 1, k, i :: ids, s, s', he => by
    rw [createLevels] at he
    split at he
    · cases he
    · rename_i t ht
      obtain ⟨h1, h2⟩ := createLevels_new n (k + 1) ids he
      obtain ⟨Q, hQ, hs⟩ := Option.bind_eq_some_iff.1 ht
      obtain ⟨d, -, hs⟩ := Option.bind_eq_some_iff.1 hs
      split at hs
      · rename_i hi
        cases hs
        have hold : ∀ j J, s.images j = some J → j ≠ i := by
          rintro j J hj rfl
          cases hi.symm.trans hj
        refine ⟨fun j J hj => h1 j J ((Function.update_of_ne (hold j J hj) ..).trans hj), fun Q' hQ' => ?_⟩
        obtain ⟨h3, h4⟩ := h2 Q' hQ'
        have h3 : ∀ m, m < k + 1 → Q'.img m = Function.update Q.img k (some i) m :=
          fun m hm => h3 m hm _ (Function.update_self ..)
        refine ⟨fun m hm R hR => ?_, fun m hm hlt j hj => ?_⟩
        · obtain rfl : Q = R := Option.some.inj (hQ.symm.trans hR)
          rw [h3 m (by omega), Function.update_of_ne (by omega)]
        · by_cases hmk : m = k
          · subst hmk
            rw [h3 m (by omega), Function.update_self, Option.some.injEq] at hj
            rw [← hj]
            exact hi
          · have hj := h4 m (by omega) (by omega) j hj
            cases hsj : s.images j with
            | none => rfl
            | some J =>
              cases hj.symm.trans ((Function.update_of_ne (hold j J hsj) ..).trans hsj)
      · cases hs

/-- A buffer is not lost by the one object that has it. -/
theorem VirtualsOk.not_lost {s' : VirtStore} (hv : VirtualsOk s') (h : VirtInv s) {r : VirtRef} {b : Nat} (h0 : b ≠ 0)
    (hr : s.Holds r b) (hb : s'.buffers = s.buffers) : ¬ ∀ r', s'.Holds r' b → r' ≠ r ∧ s.Holds r' b := by
  intro hh
  obtain ⟨r', hr', -⟩ := hv.buffer b (by rw [hb]; exact (h.buffers.held b).2 ⟨h0, r, hr⟩)
  obtain ⟨hne, hr'⟩ := hh r' hr'
  exact hne (h.buffers.unique r' r b h0 hr' hr)

/-- **The condition is sharp**: an output that is initialised, and is not as it was created, loses its buffer, its place in its
parent, its alignment or its levels. -/
theorem ownInitVirtual_loses (h : VirtInv s) {o : NodeOutput} (ha : s.isAccepted g o = true) (hu : s.isUntouched o = false)
    (hok : (s.ownInitVirtual g o).2 = true) :
    ¬ (VirtualsOk (s.ownInitVirtual g o).1 ∧ KeepsMaps s (s.ownInitVirtual g o).1) := by
  rintro ⟨hv, hm⟩
  simp only [VirtStore.ownInitVirtual, if_pos ha] at hv hm hok
  cases o with
  | image i width height format =>
    simp only [isAccepted] at ha
    obtain ⟨I, hI, -⟩ := (Option.any_eq_true ..).1 ha
    simp only [initOutput, hI] at hv hm
    simp only [isUntouched, hI, Option.all_some] at hu
    by_cases h0 : I.hostPtr = 0
    · obtain ⟨I', hI', -, hal⟩ := hm.image i I hI
      simp only [VirtStore.setImage, Function.update_self, Option.some.injEq] at hI'
      subst hI'
      rw [h0, ← hal] at hu
      cases hu
    · cases hp : I.parent with
      | none =>
        refine hv.not_lost h h0 ((holds_self hI I.hostPtr).2 ⟨(h.links.root i I hI hp).1, rfl⟩) rfl (fun r hr => ?_)
        have hr := (holds_update (s.setImage i (I.ownInitImage width height format)) hI rfl rfl rfl r _).1 hr
        split at hr
        · exact absurd hr.2.symm h0
        · rename_i hne
          exact ⟨hne, hr⟩
      | some p =>
        obtain ⟨P, -, hpar, -⟩ := hv.subimage i (I.ownInitImage width height format) p (Function.update_self ..)
          (h.links.child i I p hI hp).2.1
        cases hpar
  | array a itemType capacity =>
    simp only [isAccepted] at ha
    obtain ⟨A, hA, -⟩ := (Option.any_eq_true ..).1 ha
    simp only [initOutput, hA] at hv
    simp only [isUntouched, hA, Option.all_some, beq_eq_false_iff_ne] at hu
    refine hv.not_lost h hu ((holds_selfArray hA _).2 rfl) rfl (fun r hr => ?_)
    have hr := (holds_updateArray (s.setArray a { A with array := ownInitArrayObject s.itemSizes itemType capacity true,
                                                         maps := List.replicate arrayMaxMaps none }) rfl rfl r _).1 hr
    split at hr
    · exact absurd hr hu
    · rename_i hne
      exact ⟨hne, hr⟩
  | pyramid q levels width height format ids =>
    simp only [isAccepted] at ha
    obtain ⟨Q, hQ, -⟩ := (Option.any_eq_true ..).1 ha
    simp only [initOutput, hQ] at hv hok
    simp only [isUntouched, hQ, Option.all_some, List.all_eq_false, List.mem_range, Bool.not_eq_true,
      Option.isNone_eq_false_iff] at hu
    obtain ⟨k, hk, hsome⟩ := hu
    obtain ⟨i, hi⟩ := Option.isSome_iff_exists.1 hsome
    obtain ⟨-, I, hI, hs, hidx⟩ := h.levels.registered q Q k i hQ hi
    unfold VirtStore.ownInitPyramid at hv hok
    split at hok
    · rename_i t ht
      rw [ht] at hv
      obtain ⟨hold, hnew⟩ := createLevels_new _ 0 ids ht
      obtain ⟨Q', hQ', hk'⟩ := hv.level i I q (hold i I hI) hs
      rw [hidx] at hk'
      have hnone := (hnew Q' hQ').2 k (Nat.zero_le k) (by simpa using hk) i hk'
      cases hnone.symm.trans hI
    · cases hok

end Losses

end Tiovx
