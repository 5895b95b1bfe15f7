import Mathlib.Tactic
import Tiovx.Lib.Run
import Tiovx.Lib.SlotTable
/-!
# SubimageLists — an image and its sub-images (`vx_image.c`, `vx_reference.c`)

A sub-image is put into the list of its parent when it is created, and refers to the parent until it is destroyed.
`vxReleaseImage` takes it off the list; an image is destroyed by whichever release brings its two counts to zero.
-/
namespace Tiovx

open StepSystem SlotTable

/-- `TIVX_IMAGE_MAX_SUBIMAGES`. -/
def imageMaxSubimages : Nat := 16

/-- `TIVX_IMAGE_MAX_SUBIMAGE_DEPTH`. -/
def imageMaxSubimageDepth : Nat := 2

/-- The kinds of a reference, `VX_INTERNAL` and `VX_EXTERNAL`. -/
inductive RefKind
  | vxInternal
  | vxExternal
deriving DecidableEq

/-- `vx_image` as a reference with a parent and a list of sub-images.  `held` are the internal references of nodes and
graphs. -/
structure ImageRef where
  parent : Option Nat := none
  subimages : List (Option Nat) := List.replicate imageMaxSubimages none
  internalCount : UInt32 := 0
  externalCount : UInt32 := 1
  held : Nat := 0
deriving DecidableEq

/-- The images that are not destroyed. -/
abbrev Images := Nat → Option ImageRef

namespace ImageRef

/-- The result of `ownIncrementReference` and `ownDecrementReference`. -/
def count (I : ImageRef) : UInt32 := I.internalCount + I.externalCount

/-- `ownIncrementReference`. -/
def increment (I : ImageRef) : RefKind → ImageRef
  | .vxInternal => { I with internalCount := I.internalCount + 1 }
  | .vxExternal => { I with externalCount := I.externalCount + 1 }

/-- `ownDecrementReference`; a count that is zero stays so. -/
def decrement (I : ImageRef) : RefKind → ImageRef
  | .vxInternal => { I with internalCount := if I.internalCount = 0 then 0 else I.internalCount - 1 }
  | .vxExternal => { I with externalCount := if I.externalCount = 0 then 0 else I.externalCount - 1 }

/-- A release of this kind is the last. -/
def isLast (I : ImageRef) (kind : RefKind) : Bool := (I.decrement kind).count = 0

/-- One more reference can be counted. -/
def hasRoom (I : ImageRef) : Bool := I.internalCount.toNat + I.externalCount.toNat + 1 < 2 ^ 32

end ImageRef

namespace Images

/-- `ownGetNumParentSubimages`, up to the bound it is compared with. -/
def ownGetNumParentSubimages (s : Images) : Nat → Nat → Nat
  | 0, _ => 0
  | n + 1, i =>
    match (s i).bind (·.parent) with
    | none => 0
    | some p => s.ownGetNumParentSubimages n p + 1

/-- `ownReleaseReferenceInt` of an image; the last release calls `ownDestructImage`, which releases the parent.  An image has
no more than `n` parents. -/
def ownReleaseReferenceInt (s : Images) : Nat → Nat → RefKind → Images
  | 0, _, _ => s
  | n + 1, i, kind =>
    match s i with
    | none => s
    | some I =>
      if (I.decrement kind).count = 0 then
        match I.parent with
        | none => Function.update s i none
        | some p => ownReleaseReferenceInt (Function.update s i none) n p .vxInternal
      else Function.update s i (some (I.decrement kind))

/-- A release of an image and of the parents that go with it. -/
def release (s : Images) (i : Nat) (kind : RefKind) : Images :=
  s.ownReleaseReferenceInt (imageMaxSubimageDepth + 1) i kind

/-- `ownLinkParentSubimage` of a new sub-image `i` whose place in the list of `p` is found. -/
def ownLinkParentSubimage (s : Images) (p : Nat) (P : ImageRef) (i : Nat) (subimages : List (Option Nat)) : Images :=
  Function.update (Function.update s p (some ({ P with subimages := subimages }.increment .vxInternal))) i
    (some { parent := some p })

/-- `vxReleaseImage` takes the image off its parent's list. -/
def clearFromParent (s : Images) (i : Nat) (I : ImageRef) : Images :=
  match I.parent with
  | none => s
  | some p =>
    match s p with
    | none => s
    | some P =>
      match clearFirst i P.subimages with
      | none => s
      | some t => Function.update s p (some { P with subimages := t })

/-- `vxReleaseImage`. -/
def vxReleaseImage (s : Images) (i : Nat) : Images :=
  match s i with
  | none => s
  | some I => (s.clearFromParent i I).release i .vxExternal

end Images

/-- What is called: an image is created at an address, a sub-image of `p` is created there (whether its parameters are accepted
and its memory is there), and references are retained and released by the application, by nodes and by graphs. -/
inductive ImageAction
  | createImage (i : Nat)
  | createSubimage (p i : Nat) (accepted : Bool)
  | vxRetainReference (i : Nat)
  | vxReleaseImage (i : Nat)
  | vxReleaseReference (i : Nat)
  | retainInternal (i : Nat)
  | releaseInternal (i : Nat)

/-- One call. -/
def imageStep (s : Images) : ImageAction → Option Images
  | .createImage i => if s i = none then some (Function.update s i (some {})) else none
  | .createSubimage p i accepted =>
    match s p with
    | none => some s
    | some P =>
      if !accepted || imageMaxSubimageDepth ≤ s.ownGetNumParentSubimages imageMaxSubimageDepth p then some s
      else
        match putFirst i P.subimages with
        | none => some s
        | some t => if s i = none then some (s.ownLinkParentSubimage p P i t) else none
  | .vxRetainReference i => some (Function.update s i ((s i).map (·.increment .vxExternal)))
  | .vxReleaseImage i => some (s.vxReleaseImage i)
  -- `release_callback` of an image is `ownReleaseReferenceBufferGeneric`
  | .vxReleaseReference i => some (s.release i .vxExternal)
  | .retainInternal i =>
    some (Function.update s i ((s i).map (fun I => { I.increment .vxInternal with held := I.held + 1 })))
  | .releaseInternal i =>
    match s i with
    | none => none
    | some I =>
      -- a node or a graph releases what it holds
      if I.held = 0 then none
      else some (Images.release (Function.update s i (some { I with held := I.held - 1 })) i .vxInternal)

/-- A sub-image is released by `vxReleaseImage` when, and only when, it is the last release, and no parent that is itself a
sub-image goes with it; no count runs over. -/
def keepsSubimages (s : Images) : ImageAction → Bool
  | .createImage _ => true
  | .createSubimage p _ _ => (s p).all (·.hasRoom)
  | .vxRetainReference i => (s i).all (·.hasRoom)
  | .retainInternal i => (s i).all (·.hasRoom)
  | .vxReleaseImage i => (s i).all (fun I => I.parent.all (fun p => I.isLast .vxExternal &&
      (s p).all (fun P => P.parent.isNone || !P.isLast .vxInternal)))
  | .vxReleaseReference i => (s i).all (fun I => I.parent.isNone || !I.isLast .vxExternal)
  | .releaseInternal i => (s i).all (fun I => I.parent.isNone || !I.isLast .vxInternal)

/-- The list of each image has its sub-images, once each. -/
def SubimagesListed (s : Images) : Prop :=
  ∀ p P, s p = some P → (entries P.subimages).Nodup ∧
    ∀ c, c ∈ entries P.subimages ↔ ∃ C, s c = some C ∧ C.parent = some p

/-! ### What a release does -/

namespace Images

variable {s : Images} {i p : Nat} {I P : ImageRef} {kind : RefKind}

theorem release_of_not_last (hi : s i = some I) (h : I.isLast kind = false) :
    s.release i kind = Function.update s i (some (I.decrement kind)) := by
  have hc : ¬ (I.decrement kind).count = 0 := of_decide_eq_false h
  rw [release, ownReleaseReferenceInt, hi]
  simp only [if_neg hc]

theorem release_of_last (hi : s i = some I) (hp : I.parent = none) (h : I.isLast kind = true) :
    s.release i kind = Function.update s i none := by
  have hc : (I.decrement kind).count = 0 := of_decide_eq_true h
  rw [release, ownReleaseReferenceInt, hi]
  simp only [if_pos hc, hp]

/-- The last release of a sub-image releases a parent that has no parent, or stays. -/
theorem release_of_last_sub (hi : s i = some I) (hp : I.parent = some p) (hP : s p = some P) (hne : p ≠ i)
    (h : I.isLast kind = true) (hroot : P.parent = none ∨ P.isLast .vxInternal = false) :
    s.release i kind = Function.update (Function.update s i none) p
      (if P.isLast .vxInternal then none else some (P.decrement .vxInternal)) := by
  have hc : (I.decrement kind).count = 0 := of_decide_eq_true h
  have hP' : Function.update s i none p = some P := by rw [Function.update_of_ne hne, hP]
  rw [release, ownReleaseReferenceInt, hi]
  simp only [if_pos hc, hp, imageMaxSubimageDepth]
  rw [ownReleaseReferenceInt, hP']
  by_cases hl : P.isLast .vxInternal = true
  · have hcP : (P.decrement .vxInternal).count = 0 := of_decide_eq_true hl
    obtain hr | hr := hroot
    · simp only [if_pos hcP, hr, if_pos hl]
    · exact absurd hl (by rw [hr]; decide)
  · have hcP : ¬ (P.decrement .vxInternal).count = 0 := fun hc => hl (decide_eq_true hc)
    simp only [if_neg hcP, if_neg hl]

end Images

/-! ### Lists that are kept -/

/-- What holds of the images in every state of a run that keeps the lists. -/
structure ImagesInv (s : Images) : Prop where
  listed : SubimagesListed s
  parentLive : ∀ c C p, s c = some C → C.parent = some p → (s p).isSome
  counted : ∀ p P, s p = some P → P.internalCount.toNat = (entries P.subimages).length + P.held
  noWrap : ∀ p P, s p = some P → P.internalCount.toNat + P.externalCount.toNat < 2 ^ 32

theorem ImageRef.count_eq_zero {I : ImageRef} (h : I.internalCount.toNat + I.externalCount.toNat < 2 ^ 32) :
    I.count = 0 ↔ I.internalCount.toNat = 0 ∧ I.externalCount.toNat = 0 := by
  rw [← UInt32.toNat_inj, ImageRef.count, UInt32.toNat_add, UInt32.toNat_zero, Nat.mod_eq_of_lt h]
  omega

theorem ImageRef.toNat_pred {n : UInt32} : (if n = 0 then 0 else n - 1 : UInt32).toNat = n.toNat - 1 := by
  split
  · rename_i h
    rw [h]
    rfl
  · rename_i h
    exact toNat_sub_one (Nat.pos_of_ne_zero (fun h0 => h (UInt32.toNat_inj.1 h0)))

namespace ImagesInv

variable {s : Images} {i p : Nat} {I J P : ImageRef}

theorem start : ImagesInv (fun _ => none) where
  listed := fun _ _ h => nomatch h
  parentLive := fun _ _ _ h => nomatch h
  counted := fun _ _ h => nomatch h
  noWrap := fun _ _ h => nomatch h

/-- An image whose parent and list stay. -/
theorem setCounts (h : ImagesInv s) (hi : s i = some I) (hp : J.parent = I.parent) (hl : J.subimages = I.subimages)
    (hc : J.internalCount.toNat = (entries J.subimages).length + J.held)
    (hw : J.internalCount.toNat + J.externalCount.toNat < 2 ^ 32) : ImagesInv (Function.update s i (some J)) := by
  -- the images keep their parents
  have hpar : ∀ c q, (∃ C, Function.update s i (some J) c = some C ∧ C.parent = some q) ↔
      ∃ C, s c = some C ∧ C.parent = some q := by
    intro c q
    by_cases hci : c = i
    · subst hci
      simp [hi, hp]
    · rw [Function.update_of_ne hci]
  refine ⟨fun q Q hq => ?_, fun c C q hcC hCq => ?_, fun q Q hq => ?_, fun q Q hq => ?_⟩
  · have hlist : (entries Q.subimages).Nodup ∧ ∀ c, c ∈ entries Q.subimages ↔ ∃ C, s c = some C ∧ C.parent = some q := by
      by_cases hqi : q = i
      · subst hqi
        obtain rfl : J = Q := by simpa using hq
        rw [hl]
        exact h.listed q I hi
      · exact h.listed q Q (by rwa [Function.update_of_ne hqi] at hq)
    exact ⟨hlist.1, fun c => (hlist.2 c).trans (hpar c q).symm⟩
  · obtain ⟨C', hC', hC'q⟩ := (hpar c q).1 ⟨C, hcC, hCq⟩
    have := h.parentLive c C' q hC' hC'q
    by_cases hqi : q = i
    · simp [hqi]
    · rwa [Function.update_of_ne hqi]
  · by_cases hqi : q = i
    · subst hqi
      obtain rfl : J = Q := by simpa using hq
      exact hc
    · exact h.counted q Q (by rwa [Function.update_of_ne hqi] at hq)
  · by_cases hqi : q = i
    · subst hqi
      obtain rfl : J = Q := by simpa using hq
      exact hw
    · exact h.noWrap q Q (by rwa [Function.update_of_ne hqi] at hq)

/-- An image without a parent and without sub-images is destroyed. -/
theorem removeRoot (h : ImagesInv s) (hi : s i = some I) (hp : I.parent = none) (hl : entries I.subimages = []) :
    ImagesInv (Function.update s i none) := by
  have hchild : ∀ c C, s c = some C → C.parent ≠ some i := by
    intro c C hc hC
    have := ((h.listed i I hi).2 c).2 ⟨C, hc, hC⟩
    rw [hl] at this
    cases this
  have hget : ∀ {q Q}, Function.update s i none q = some Q → q ≠ i ∧ s q = some Q := by
    intro q Q hq
    by_cases hqi : q = i
    · simp [hqi] at hq
    · exact ⟨hqi, by rwa [Function.update_of_ne hqi] at hq⟩
  refine ⟨fun q Q hq => ?_, fun c C q hcC hCq => ?_, fun q Q hq => h.counted q Q (hget hq).2,
    fun q Q hq => h.noWrap q Q (hget hq).2⟩
  · obtain ⟨_, hq⟩ := hget hq
    refine ⟨(h.listed q Q hq).1, fun c => ((h.listed q Q hq).2 c).trans ⟨fun ⟨C, hc, hC⟩ => ⟨C, ?_, hC⟩,
      fun ⟨C, hc, hC⟩ => ⟨C, (hget hc).2, hC⟩⟩⟩
    have hci : c ≠ i := by
      rintro rfl
      rw [hi] at hc
      cases hc
      simp [hp] at hC
    rw [Function.update_of_ne hci, hc]
  · have hc := (hget hcC).2
    have hqi : q ≠ i := fun he => hchild c C hc (by rw [hCq, he])
    rw [Function.update_of_ne hqi]
    exact h.parentLive c C q hc hCq

/-- A new image has no parent, and no image has it as a parent yet. -/
theorem createImage (h : ImagesInv s) (hi : s i = none) : ImagesInv (Function.update s i (some {})) := by
  have hget : ∀ {q Q}, Function.update s i (some {}) q = some Q → Q = {} ∧ q = i ∨ q ≠ i ∧ s q = some Q := by
    intro q Q hq
    by_cases hqi : q = i
    · subst hqi
      exact .inl ⟨by simpa using hq.symm, rfl⟩
    · exact .inr ⟨hqi, by rwa [Function.update_of_ne hqi] at hq⟩
  have hpar : ∀ c q, (∃ C, Function.update s i (some {}) c = some C ∧ C.parent = some q) ↔
      ∃ C, s c = some C ∧ C.parent = some q := by
    intro c q
    by_cases hci : c = i
    · subst hci
      simp [hi]
    · rw [Function.update_of_ne hci]
  refine ⟨fun q Q hq => ?_, fun c C q hcC hCq => ?_, fun q Q hq => ?_, fun q Q hq => ?_⟩
  · obtain ⟨rfl, rfl⟩ | ⟨_, hq⟩ := hget hq
    · refine ⟨by rw [entries_replicate]; exact List.nodup_nil, fun c => ?_⟩
      rw [hpar, entries_replicate]
      refine ⟨fun hc => absurd hc List.not_mem_nil, fun ⟨C, hc, hC⟩ => ?_⟩
      have := h.parentLive c C q hc hC
      rw [hi] at this
      cases this
    · exact ⟨(h.listed q Q hq).1, fun c => ((h.listed q Q hq).2 c).trans (hpar c q).symm⟩
  · obtain ⟨C', hC', hC'q⟩ := (hpar c q).1 ⟨C, hcC, hCq⟩
    have := h.parentLive c C' q hC' hC'q
    by_cases hqi : q = i
    · simp [hqi]
    · rwa [Function.update_of_ne hqi]
  · obtain ⟨rfl, rfl⟩ | ⟨_, hq⟩ := hget hq
    · rw [entries_replicate]
      rfl
    · exact h.counted q Q hq
  · obtain ⟨rfl, rfl⟩ | ⟨_, hq⟩ := hget hq
    · exact Nat.lt_of_sub_eq_succ rfl
    · exact h.noWrap q Q hq

theorem toNat_internal_increment {n m : UInt32} (h : n.toNat + m.toNat + 1 < 2 ^ 32) : (n + 1).toNat = n.toNat + 1 :=
  toNat_add_one (m := 2 ^ 32 - 1) (by omega) (by omega)

/-- A new sub-image is put into the list of its parent. -/
theorem createSubimage (h : ImagesInv s) {t : List (Option Nat)} (hP : s p = some P) (hi : s i = none)
    (ht : putFirst i P.subimages = some t) (hroom : P.hasRoom = true) :
    ImagesInv (s.ownLinkParentSubimage p P i t) := by
  have hne : p ≠ i := fun he => by simp [he, hi] at hP
  have hroom' : P.internalCount.toNat + P.externalCount.toNat + 1 < 2 ^ 32 := of_decide_eq_true hroom
  have hadd : (P.internalCount + 1).toNat = P.internalCount.toNat + 1 := toNat_internal_increment hroom'
  obtain ⟨_, hperm⟩ := putFirst_spec ht
  have hmem : ∀ c, c ∈ entries t ↔ c = i ∨ c ∈ entries P.subimages := fun c => (hperm.mem_iff).trans List.mem_cons
  have hnot : i ∉ entries P.subimages := fun hm => by
    obtain ⟨C, hC, _⟩ := ((h.listed p P hP).2 i).1 hm
    rw [hi] at hC
    cases hC
  have hget : ∀ {q Q}, s.ownLinkParentSubimage p P i t q = some Q →
      q = i ∧ Q = { parent := some p } ∨
      q = p ∧ Q = { P with subimages := t, internalCount := P.internalCount + 1 } ∨ q ≠ i ∧ q ≠ p ∧ s q = some Q := by
    intro q Q hq
    unfold Images.ownLinkParentSubimage at hq
    by_cases hqi : q = i
    · subst hqi
      exact .inl ⟨rfl, by simpa using hq.symm⟩
    · rw [Function.update_of_ne hqi] at hq
      by_cases hqp : q = p
      · subst hqp
        exact .inr (.inl ⟨rfl, by simpa [ImageRef.increment] using hq.symm⟩)
      · exact .inr (.inr ⟨hqi, hqp, by rwa [Function.update_of_ne hqp] at hq⟩)
  have hold : ∀ c C, s c = some C → ∃ C', s.ownLinkParentSubimage p P i t c = some C' ∧ C'.parent = C.parent := by
    intro c C hc
    have hci : c ≠ i := fun he => by simp [he, hi] at hc
    unfold Images.ownLinkParentSubimage
    rw [Function.update_of_ne hci]
    by_cases hcp : c = p
    · subst hcp
      rw [hP] at hc
      cases hc
      exact ⟨_, Function.update_self .., rfl⟩
    · exact ⟨C, by rw [Function.update_of_ne hcp, hc], rfl⟩
  have hpar : ∀ c q, (∃ C, s.ownLinkParentSubimage p P i t c = some C ∧ C.parent = some q) ↔
      c = i ∧ q = p ∨ ∃ C, s c = some C ∧ C.parent = some q := by
    intro c q
    constructor
    · rintro ⟨C, hc, hC⟩
      obtain ⟨rfl, rfl⟩ | ⟨rfl, rfl⟩ | ⟨_, _, hc⟩ := hget hc
      · exact .inl ⟨rfl, by simpa using hC.symm⟩
      · exact .inr ⟨P, hP, hC⟩
      · exact .inr ⟨C, hc, hC⟩
    · rintro (⟨rfl, rfl⟩ | ⟨C, hc, hC⟩)
      · exact ⟨{ parent := some q }, Function.update_self .., rfl⟩
      · obtain ⟨C', hc', hC'⟩ := hold c C hc
        exact ⟨C', hc', hC'.trans hC⟩
  refine ⟨fun q Q hq => ?_, fun c C q hcC hCq => ?_, fun q Q hq => ?_, fun q Q hq => ?_⟩
  · obtain ⟨rfl, rfl⟩ | ⟨rfl, rfl⟩ | ⟨hqi, hqp, hq⟩ := hget hq
    · refine ⟨by rw [entries_replicate]; exact List.nodup_nil, fun c => ?_⟩
      rw [hpar, entries_replicate]
      refine ⟨fun hc => absurd hc List.not_mem_nil, ?_⟩
      rintro (⟨_, he⟩ | ⟨C, hc, hC⟩)
      · exact absurd he.symm hne
      · have := h.parentLive c C q hc hC
        rw [hi] at this
        cases this
    · refine ⟨(hperm.nodup_iff).2 (List.nodup_cons.2 ⟨hnot, (h.listed q P hP).1⟩), fun c => ?_⟩
      rw [hpar, hmem, (h.listed q P hP).2 c]
      simp
    · refine ⟨(h.listed q Q hq).1, fun c => ?_⟩
      rw [hpar, (h.listed q Q hq).2 c]
      simp [hqp]
  · obtain ⟨_, rfl⟩ | ⟨C', hC', hC'q⟩ := (hpar c q).1 ⟨C, hcC, hCq⟩
    · obtain ⟨C', hc', _⟩ := hold q P hP
      rw [hc']
      rfl
    · obtain ⟨Q, hQ⟩ := Option.isSome_iff_exists.1 (h.parentLive c C' q hC' hC'q)
      obtain ⟨Q', hQ', _⟩ := hold q Q hQ
      rw [hQ']
      rfl
  · obtain ⟨_, rfl⟩ | ⟨rfl, rfl⟩ | ⟨_, _, hq⟩ := hget hq
    · rw [entries_replicate]
      rfl
    · have := h.counted q P hP
      simp only [hadd, hperm.length_eq, List.length_cons]
      omega
    · exact h.counted q Q hq
  · obtain ⟨_, rfl⟩ | ⟨rfl, rfl⟩ | ⟨_, _, hq⟩ := hget hq
    · exact Nat.lt_of_sub_eq_succ rfl
    · simp only [hadd]
      omega
    · exact h.noWrap q Q hq

/-- A sub-image that is taken off the list of its parent is destroyed, and the parent has one internal reference less. -/
theorem unlink (h : ImagesInv s) {t : List (Option Nat)} (hi : s i = some I) (hp : I.parent = some p) (hP : s p = some P)
    (hne : p ≠ i) (hl : entries I.subimages = []) (ht : clearFirst i P.subimages = some t) :
    ImagesInv (Function.update (Function.update s i none) p
      (some ({ P with subimages := t }.decrement .vxInternal))) := by
  obtain ⟨_, hperm⟩ := clearFirst_spec ht
  have hnd := (hperm.nodup_iff).1 (h.listed p P hP).1
  have hmem : ∀ c, c ∈ entries t ↔ c ≠ i ∧ c ∈ entries P.subimages := by
    intro c
    rw [hperm.mem_iff, List.mem_cons]
    exact ⟨fun hc => ⟨fun he => (List.nodup_cons.1 hnd).1 (he ▸ hc), .inr hc⟩, fun ⟨h1, h2⟩ => h2.resolve_left h1⟩
  have hdec : ({ P with subimages := t }.decrement .vxInternal).internalCount.toNat = P.internalCount.toNat - 1 :=
    ImageRef.toNat_pred
  have hget : ∀ {q Q}, Function.update (Function.update s i none) p
      (some ({ P with subimages := t }.decrement .vxInternal)) q = some Q →
      q = p ∧ Q = { P with subimages := t }.decrement .vxInternal ∨ q ≠ p ∧ q ≠ i ∧ s q = some Q := by
    intro q Q hq
    by_cases hqp : q = p
    · subst hqp
      exact .inl ⟨rfl, by simpa using hq.symm⟩
    · rw [Function.update_of_ne hqp] at hq
      by_cases hqi : q = i
      · simp [hqi] at hq
      · exact .inr ⟨hqp, hqi, by rwa [Function.update_of_ne hqi] at hq⟩
  have hold : ∀ c C, c ≠ i → s c = some C → ∃ C', Function.update (Function.update s i none) p
      (some ({ P with subimages := t }.decrement .vxInternal)) c = some C' ∧ C'.parent = C.parent := by
    intro c C hci hc
    by_cases hcp : c = p
    · subst hcp
      rw [hP] at hc
      cases hc
      exact ⟨_, Function.update_self .., rfl⟩
    · exact ⟨C, by rw [Function.update_of_ne hcp, Function.update_of_ne hci, hc], rfl⟩
  have hpar : ∀ c q, (∃ C, Function.update (Function.update s i none) p
      (some ({ P with subimages := t }.decrement .vxInternal)) c = some C ∧ C.parent = some q) ↔
      c ≠ i ∧ ∃ C, s c = some C ∧ C.parent = some q := by
    intro c q
    constructor
    · rintro ⟨C, hc, hC⟩
      obtain ⟨rfl, rfl⟩ | ⟨_, hci, hc⟩ := hget hc
      · exact ⟨hne, P, hP, hC⟩
      · exact ⟨hci, C, hc, hC⟩
    · rintro ⟨hci, C, hc, hC⟩
      obtain ⟨C', hc', hC'⟩ := hold c C hci hc
      exact ⟨C', hc', hC'.trans hC⟩
  refine ⟨fun q Q hq => ?_, fun c C q hcC hCq => ?_, fun q Q hq => ?_, fun q Q hq => ?_⟩
  · obtain ⟨rfl, rfl⟩ | ⟨hqp, _, hq⟩ := hget hq
    · refine ⟨(List.nodup_cons.1 hnd).2, fun c => ?_⟩
      rw [hpar, ← (h.listed q P hP).2 c]
      exact hmem c
    · refine ⟨(h.listed q Q hq).1, fun c => ?_⟩
      rw [hpar, (h.listed q Q hq).2 c]
      refine ⟨fun hc => ⟨?_, hc⟩, fun hc => hc.2⟩
      rintro rfl
      obtain ⟨C, hc, hC⟩ := hc
      rw [hi] at hc
      cases hc
      exact hqp (Option.some.inj (hC.symm.trans hp))
  · obtain ⟨hci, C', hC', hC'q⟩ := (hpar c q).1 ⟨C, hcC, hCq⟩
    obtain ⟨Q, hQ⟩ := Option.isSome_iff_exists.1 (h.parentLive c C' q hC' hC'q)
    have hqi : q ≠ i := by
      rintro rfl
      have hc := ((h.listed q I hi).2 c).2 ⟨C', hC', hC'q⟩
      rw [hl] at hc
      cases hc
    obtain ⟨Q', hQ', _⟩ := hold q Q hqi hQ
    rw [hQ']
    rfl
  · obtain ⟨rfl, rfl⟩ | ⟨_, _, hq⟩ := hget hq
    · have h1 := h.counted q P hP
      have h2 := hperm.length_eq
      rw [List.length_cons] at h2
      rw [hdec]
      show _ = (entries t).length + P.held
      omega
    · exact h.counted q Q hq
  · obtain ⟨rfl, rfl⟩ | ⟨_, _, hq⟩ := hget hq
    · have := h.noWrap q P hP
      rw [hdec]
      show _ + P.externalCount.toNat < _
      omega
    · exact h.noWrap q Q hq

/-- An image whose last reference goes has no sub-images. -/
theorem entries_eq_nil (h : ImagesInv s) (hi : s i = some I) (hlast : I.isLast .vxExternal = true) :
    entries I.subimages = [] := by
  have hc : (I.decrement .vxExternal).count = 0 := of_decide_eq_true hlast
  have hw := h.noWrap i I hi
  have hdec : (I.decrement .vxExternal).externalCount.toNat = I.externalCount.toNat - 1 := ImageRef.toNat_pred
  have hz := (ImageRef.count_eq_zero (I := I.decrement .vxExternal)
    (by rw [hdec]; show I.internalCount.toNat + _ < _; omega)).1 hc
  have hi0 : I.internalCount.toNat = 0 := hz.1
  have := h.counted i I hi
  exact List.length_eq_zero_iff.1 (by omega)

theorem releaseExternal (h : ImagesInv s) (hi : s i = some I) (hc : I.parent = none ∨ I.isLast .vxExternal = false) :
    ImagesInv (s.release i .vxExternal) := by
  by_cases hl : I.isLast .vxExternal = true
  · have hp : I.parent = none := hc.resolve_right (by rw [hl]; decide)
    rw [Images.release_of_last hi hp hl]
    exact h.removeRoot hi hp (h.entries_eq_nil hi hl)
  · rw [Images.release_of_not_last hi (Bool.eq_false_iff.2 hl)]
    have hdec : (I.decrement .vxExternal).externalCount.toNat = I.externalCount.toNat - 1 := ImageRef.toNat_pred
    have hw := h.noWrap i I hi
    refine h.setCounts hi rfl rfl (h.counted i I hi) ?_
    rw [hdec]
    show I.internalCount.toNat + _ < _
    omega

theorem releaseInternal (h : ImagesInv s) (hi : s i = some I) (hheld : I.held ≠ 0)
    (hc : I.parent = none ∨ I.isLast .vxInternal = false) :
    ImagesInv (Images.release (Function.update s i (some { I with held := I.held - 1 })) i .vxInternal) := by
  have hi' : Function.update s i (some { I with held := I.held - 1 }) i = some { I with held := I.held - 1 } :=
    Function.update_self ..
  have hcnt := h.counted i I hi
  have hw := h.noWrap i I hi
  have hdec : (I.decrement .vxInternal).internalCount.toNat = I.internalCount.toNat - 1 := ImageRef.toNat_pred
  by_cases hl : I.isLast .vxInternal = true
  · have hp : I.parent = none := hc.resolve_right (by rw [hl]; decide)
    have hl' : ImageRef.isLast { I with held := I.held - 1 } .vxInternal = true := hl
    rw [Images.release_of_last hi' hp hl', Function.update_idem]
    refine h.removeRoot hi hp (List.length_eq_zero_iff.1 ?_)
    have hz := (ImageRef.count_eq_zero (I := I.decrement .vxInternal)
      (by rw [hdec]; show _ + I.externalCount.toNat < _; omega)).1 (of_decide_eq_true hl)
    omega
  · have hl' : ImageRef.isLast { I with held := I.held - 1 } .vxInternal = false := Bool.eq_false_iff.2 hl
    rw [Images.release_of_not_last hi' hl', Function.update_idem]
    refine h.setCounts hi rfl rfl ?_ ?_
    · show (I.decrement .vxInternal).internalCount.toNat = (entries I.subimages).length + (I.held - 1)
      omega
    · show (I.decrement .vxInternal).internalCount.toNat + I.externalCount.toNat < _
      omega

/-- The last release of a sub-image by `vxReleaseImage`. -/
theorem vxReleaseImage_last (h : ImagesInv s) (hi : s i = some I) (hp : I.parent = some p) (hP : s p = some P)
    (hl : I.isLast .vxExternal = true) (hroot : P.parent = none ∨ P.isLast .vxInternal = false) :
    ImagesInv (s.vxReleaseImage i) := by
  have hnil := h.entries_eq_nil hi hl
  have hm : i ∈ entries P.subimages := ((h.listed p P hP).2 i).2 ⟨I, hi, hp⟩
  have hne : p ≠ i := by
    rintro rfl
    rw [hi] at hP
    cases hP
    rw [hnil] at hm
    cases hm
  obtain ⟨t, ht⟩ := Option.ne_none_iff_exists'.1 (fun hn => clearFirst_eq_none.1 hn hm)
  have hclear : s.clearFromParent i I = Function.update s p (some { P with subimages := t }) := by
    simp only [Images.clearFromParent, hp, hP, ht]
  have hcomm : ∀ x, Function.update (Function.update (Function.update s p (some { P with subimages := t })) i none) p x =
      Function.update (Function.update s i none) p x := by
    intro x
    rw [Function.update_comm hne, Function.update_idem]
  have hrel : s.vxReleaseImage i = Function.update (Function.update s i none) p
      (if P.isLast .vxInternal then none else some ({ P with subimages := t }.decrement .vxInternal)) := by
    simp only [Images.vxReleaseImage, hi]
    rw [hclear, Images.release_of_last_sub (P := { P with subimages := t }) (by rw [Function.update_of_ne hne.symm, hi]) hp
      (Function.update_self ..) hne hl hroot, hcomm]
    rfl
  have hu := h.unlink hi hp hP hne hnil ht
  rw [hrel]
  by_cases hlP : P.isLast .vxInternal = true
  · have hpP : P.parent = none := hroot.resolve_right (by rw [hlP]; decide)
    have hcnt := hu.counted p _ (Function.update_self ..)
    have hw := hu.noWrap p _ (Function.update_self ..)
    have hz := (ImageRef.count_eq_zero hw).1 (of_decide_eq_true hlP)
    have hr := hu.removeRoot (Function.update_self ..) hpP (List.length_eq_zero_iff.1 (by omega))
    rw [Function.update_idem] at hr
    rw [if_pos hlP]
    exact hr
  · rw [if_neg hlP]
    exact hu

/-- Every call that keeps the lists keeps the invariant. -/
theorem step (h : ImagesInv s) {a : ImageAction} {s' : Images} (hc : keepsSubimages s a = true)
    (hs : imageStep s a = some s') : ImagesInv s' := by
  cases a with
  | createImage i =>
    simp only [imageStep] at hs
    split at hs
    · rename_i hi
      cases hs
      exact h.createImage hi
    · cases hs
  | createSubimage p i accepted =>
    simp only [imageStep] at hs
    split at hs
    · cases hs; exact h
    · rename_i P hP
      split at hs
      · cases hs; exact h
      · split at hs
        · cases hs; exact h
        · rename_i t ht
          split at hs
          · rename_i hi
            cases hs
            exact h.createSubimage hP hi ht (by simpa [keepsSubimages, hP] using hc)
          · cases hs
  | vxRetainReference i =>
    cases hs
    cases hi : s i with
    | none => rwa [Option.map_none, ← hi, Function.update_eq_self]
    | some I =>
      have hroom : I.internalCount.toNat + I.externalCount.toNat + 1 < 2 ^ 32 := by
        simpa [keepsSubimages, hi, ImageRef.hasRoom] using hc
      have hadd : (I.externalCount + 1).toNat = I.externalCount.toNat + 1 :=
        toNat_internal_increment (m := I.internalCount) (by omega)
      refine h.setCounts hi rfl rfl (h.counted i I hi) ?_
      show I.internalCount.toNat + (I.externalCount + 1).toNat < _
      omega
  | vxReleaseImage i =>
    cases hs
    cases hi : s i with
    | none => simpa only [Images.vxReleaseImage, hi] using h
    | some I =>
      cases hp : I.parent with
      | none =>
        have he : s.vxReleaseImage i = s.release i .vxExternal := by
          simp only [Images.vxReleaseImage, hi, Images.clearFromParent, hp]
        rw [he]
        exact h.releaseExternal hi (.inl hp)
      | some p =>
        obtain ⟨P, hP⟩ := Option.isSome_iff_exists.1 (h.parentLive i I p hi hp)
        have hc' : I.isLast .vxExternal = true ∧ (P.parent = none ∨ P.isLast .vxInternal = false) := by
          simpa [keepsSubimages, hi, hp, hP] using hc
        exact h.vxReleaseImage_last hi hp hP hc'.1 hc'.2
  | vxReleaseReference i =>
    cases hs
    cases hi : s i with
    | none => simpa only [Images.release, Images.ownReleaseReferenceInt, hi] using h
    | some I => exact h.releaseExternal hi (by simpa [keepsSubimages, hi] using hc)
  | retainInternal i =>
    cases hs
    cases hi : s i with
    | none => rwa [Option.map_none, ← hi, Function.update_eq_self]
    | some I =>
      have hroom : I.internalCount.toNat + I.externalCount.toNat + 1 < 2 ^ 32 := by
        simpa [keepsSubimages, hi, ImageRef.hasRoom] using hc
      have hadd : (I.internalCount + 1).toNat = I.internalCount.toNat + 1 := toNat_internal_increment hroom
      have hcnt := h.counted i I hi
      refine h.setCounts hi rfl rfl ?_ ?_
      · show (I.internalCount + 1).toNat = (entries I.subimages).length + (I.held + 1)
        omega
      · show (I.internalCount + 1).toNat + I.externalCount.toNat < _
        omega
  | releaseInternal i =>
    simp only [imageStep] at hs
    split at hs
    · cases hs
    · rename_i I hi
      split at hs
      · cases hs
      · rename_i hheld
        cases hs
        exact h.releaseInternal hi hheld (by simpa [keepsSubimages, hi] using hc)

end ImagesInv

/-- **The list of an image is that of its sub-images**, in every run whose releases keep the lists. -/
theorem subimagesListed_of_reach {s : Images}
    (h : Reach imageStep (fun s a => keepsSubimages s a = true) (fun _ => none) s) : SubimagesListed s :=
  (h.inv (I := ImagesInv) .start (fun _ _ _ I hc hs => I.step hc hs)).listed

/-- A sub-image of a sub-image is held by a graph and released again by it, and each is released at the end. -/
def subimageRun : List ImageAction :=
  [.createImage 0, .createSubimage 0 1 true, .createSubimage 1 2 true, .retainInternal 2, .vxRetainReference 1,
    .releaseInternal 2, .vxReleaseReference 1, .vxReleaseImage 2, .createSubimage 1 2 true]

theorem subimagesListed_run : ∃ s : Images, (s 0).map (fun I => entries I.subimages) = some [1] ∧
    (s 1).map (fun I => entries I.subimages) = some [2] ∧ SubimagesListed s := by
  have hexec : (exec imageStep keepsSubimages (fun _ => none) subimageRun).map
      (fun s => ((s 0).map (fun I => entries I.subimages), (s 1).map (fun I => entries I.subimages))) =
      some (some [1], some [2]) := by
    decide +kernel
  obtain ⟨s, hr, hs⟩ := exists_reach_of_exec hexec
  simp only [Prod.mk.injEq] at hs
  exact ⟨s, hs.1, hs.2, subimagesListed_of_reach hr⟩

/-- What an image lists, and whether another is live and has it as its parent. -/
def listedAndParent (s : Images) : Option (List Nat) × Option (Option Nat) :=
  ((s 0).map (fun I => entries I.subimages), (s 1).map (·.parent))

theorem not_listed_of_missing {s : Images} (h : listedAndParent s = (some [], some (some 0))) : ¬ SubimagesListed s := by
  intro hs
  obtain ⟨hl, hp⟩ := Prod.mk.inj h
  obtain ⟨P, hP, hl⟩ := Option.map_eq_some_iff.1 hl
  obtain ⟨C, hC, hp⟩ := Option.map_eq_some_iff.1 hp
  have := ((hs 0 P hP).2 1).2 ⟨C, hC, hp⟩
  rw [hl] at this
  exact absurd this List.not_mem_nil

theorem not_listed_of_destroyed {s : Images} (h : listedAndParent s = (some [1], none)) : ¬ SubimagesListed s := by
  intro hs
  obtain ⟨hl, hp⟩ := Prod.mk.inj h
  obtain ⟨P, hP, hl⟩ := Option.map_eq_some_iff.1 hl
  obtain ⟨C, hC, _⟩ := ((hs 0 P hP).2 1).1 (by rw [hl]; exact List.mem_singleton_self 1)
  rw [Option.map_eq_none_iff] at hp
  rw [hp] at hC
  cases hC

/-- A release that is not the last takes a live sub-image off the list; a last one that is not `vxReleaseImage` of the sub-image
itself leaves a destroyed sub-image on it, and so does the release of the last sub-image of a sub-image. -/
theorem releases_unlisted :
    (∃ s, Reach imageStep (fun s a => anyStep s a = true) (fun _ => none) s ∧ ¬ SubimagesListed s ∧
      listedAndParent s = (some [], some (some 0))) ∧
    (∃ s, Reach imageStep (fun s a => anyStep s a = true) (fun _ => none) s ∧ ¬ SubimagesListed s ∧
      listedAndParent s = (some [1], none) ∧ s 2 = none) ∧
    (∃ s, Reach imageStep (fun s a => anyStep s a = true) (fun _ => none) s ∧ ¬ SubimagesListed s ∧
      listedAndParent s = (some [1], none) ∧ s 2 = none) := by
  have h1 : (exec imageStep anyStep (fun _ => none) [.createImage 0, .createSubimage 0 1 true, .vxRetainReference 1,
      .vxReleaseImage 1]).map listedAndParent = some (some [], some (some 0)) := by decide +kernel
  have h2 : (exec imageStep anyStep (fun _ => none) [.createImage 0, .createSubimage 0 1 true,
      .vxReleaseReference 1]).map (fun s => (listedAndParent s, s 2)) = some ((some [1], none), none) := by decide +kernel
  have h3 : (exec imageStep anyStep (fun _ => none) [.createImage 0, .createSubimage 0 1 true, .createSubimage 1 2 true,
      .vxReleaseReference 1, .vxReleaseImage 2]).map (fun s => (listedAndParent s, s 2)) =
      some ((some [1], none), none) := by decide +kernel
  obtain ⟨s1, hr1, hx1⟩ := exists_reach_of_exec h1
  obtain ⟨s2, hr2, hx2⟩ := exists_reach_of_exec h2
  obtain ⟨s3, hr3, hx3⟩ := exists_reach_of_exec h3
  have hx2 := Prod.mk.inj hx2
  have hx3 := Prod.mk.inj hx3
  exact ⟨⟨s1, hr1, not_listed_of_missing hx1, hx1⟩, ⟨s2, hr2, not_listed_of_destroyed hx2.1, hx2⟩,
    ⟨s3, hr3, not_listed_of_destroyed hx3.1, hx3⟩⟩

end Tiovx
