import Tiovx.ImagePointers
/-!
# PointerMoves — moving an image with what was created from it (`vx_image.c`, `vx_reference.c`)

Each of the three functions keeps the pointers where its walk reaches what was created from the image.
-/
namespace Tiovx

open StepSystem SlotTable StackWalk

namespace PtrStore

/-! ### Moving what was created from an image -/

section Adjust

variable {host2Shared : UInt64 → UInt64} {offset : Nat → UInt64} {s : PtrStore}

theorem adjustVisit_sameLinks (s : PtrStore) (r : PtrRef) : SameLinks s (adjustVisit host2Shared offset s r) := by
  cases r with
  | image i =>
    unfold adjustVisit
    split
    · rename_i h
      cases h
      split
      · exact .refl s
      · split <;> exact ⟨rfl, rfl⟩
    · rename_i h
      cases h
  | tensor t =>
    unfold adjustVisit
    split
    · rename_i h
      cases h
    · rename_i h
      cases h
      split
      · exact .refl s
      · exact ⟨rfl, rfl⟩

/-- The pointers of what is moved are moved, once; the others stay. -/
structure Moved (host2Shared : UInt64 → UInt64) (offset : Nat → UInt64) (l : List PtrRef) (s s' : PtrStore) : Prop where
  links : SameLinks s s'
  image : ∀ i I, s.images i = some I → ∀ k < I.planes,
    s'.memPtr i k = if PtrRef.image i ∈ l then shift host2Shared (s.memPtr i k) (offset k) else s.memPtr i k
  tensor : ∀ t T, s.tensors t = some T → s'.tensorPtr t =
    if PtrRef.tensor t ∈ l then shift host2Shared (s.tensorPtr t) (offset T.channelPlane) else s.tensorPtr t

theorem moved_visit (s : PtrStore) (r : PtrRef) : Moved host2Shared offset [r] s (adjustVisit host2Shared offset s r) := by
  refine ⟨adjustVisit_sameLinks s r, fun i I hi k hk => ?_, fun t T ht => ?_⟩
  · cases r with
    | tensor t =>
      simp only [List.mem_singleton, reduceCtorEq, if_false, adjustVisit]
      split <;> rfl
    | image j =>
      simp only [List.mem_singleton, PtrRef.image.injEq, adjustVisit]
      by_cases hj : i = j
      · subst hj
        simp only [hi, if_pos (Nat.zero_lt_of_lt hk), setMemPtr, Function.update_self, if_pos hk, if_true]
      · rw [if_neg hj]
        split
        · rfl
        · split <;> simp only [setMemPtr, Function.update_of_ne hj]
  · cases r with
    | image i =>
      simp only [List.mem_singleton, reduceCtorEq, if_false, adjustVisit]
      split
      · rfl
      · split <;> rfl
    | tensor u =>
      simp only [List.mem_singleton, PtrRef.tensor.injEq, adjustVisit]
      by_cases hu : t = u
      · subst hu
        simp only [ht, setTensorPtr, Function.update_self, if_true]
      · rw [if_neg hu]
        split
        · rfl
        · simp only [setTensorPtr, Function.update_of_ne hu]

theorem moved_foldl : ∀ (l : List PtrRef) (s : PtrStore), l.Nodup →
    Moved host2Shared offset l s (l.foldl (adjustVisit host2Shared offset) s)
  | [], s, _ => ⟨.refl s, fun _ _ _ _ _ => rfl, fun _ _ _ => rfl⟩
  | r :: l, s, hl => by
    obtain ⟨hr, hl⟩ := List.nodup_cons.1 hl
    have h1 : Moved host2Shared offset [r] s (adjustVisit host2Shared offset s r) := moved_visit s r
    have h2 := moved_foldl l (adjustVisit host2Shared offset s r) hl
    refine ⟨h1.links.trans h2.links, fun i I hi k hk => ?_, fun t T ht => ?_⟩
    · rw [List.foldl_cons, h2.image i I (by rw [h1.links.1, hi]) k hk, h1.image i I hi k hk]
      simp only [List.mem_cons, List.not_mem_nil, or_false]
      by_cases hi1 : PtrRef.image i = r
      · subst hi1
        rw [if_neg hr, if_pos rfl, if_pos (.inl rfl)]
      · rw [if_neg hi1]
        simp only [hi1, false_or]
    · rw [List.foldl_cons, h2.tensor t T (by rw [h1.links.2, ht]), h1.tensor t T ht]
      simp only [List.mem_cons, List.not_mem_nil, or_false]
      by_cases ht1 : PtrRef.tensor t = r
      · subst ht1
        rw [if_neg hr, if_pos rfl, if_pos (.inl rfl)]
      · rw [if_neg ht1]
        simp only [ht1, false_or]

/-- `adjustMemoryPointer` moves an image and what was created from it, where its stack has room. -/
theorem adjustMemoryPointer_spec (host2Shared : UInt64 → UInt64) (offset : Nat → UInt64) (L : LinksOk s) {i : Nat}
    (hneed : need s.adjustChildren levels (.image i) ≤ subimageStackSize) :
    ∃ s', adjustMemoryPointer host2Shared s (.image i) offset = some (s', true) ∧ Moved host2Shared offset (s.tree i) s s' := by
  have hsize : size s.adjustChildren levels (.image i) ≤ maxVisits := size_le (length_adjustChildren L) levels (.image i)
  have hw : adjustMemoryPointer host2Shared s (.image i) offset =
      some (([PtrRef.image i].flatMap (order s.adjustChildren levels)).foldl (adjustVisit host2Shared offset) s, true) :=
    walk_eq (SameLinks s) (fun t ht => adjustChildren_of_sameLinks ht)
      (fun t r ht => ht.trans (adjustVisit_sameLinks t r)) (ranked L) maxVisits (.refl s) (fun r _ => refRank_lt s r)
      ⟨by rw [List.length_nil, Nat.zero_add]; exact hneed, trivial⟩ (by simpa using hsize)
  refine ⟨_, hw, ?_⟩
  rw [List.flatMap_singleton]
  exact moved_foldl _ s ((forest L).nodup_order (ranked L) levels (.image i))

theorem offsetFits_iff {host off : UInt64} : offsetFits host off = true ↔ host ≠ 0 ∨ off = 0 := by
  simp [offsetFits]

/-- A pointer at an offset from another is so after both are moved, where none of them is NULL or there is no offset. -/
theorem host_moved {host hostP off d : UInt64} (h : host = if hostP = 0 then 0 else hostP + off)
    (h1 : offsetFits hostP off = true) (h2 : offsetFits (hostP + d) off = true) :
    host + d = if hostP + d = 0 then 0 else hostP + d + off := by
  rw [offsetFits_iff] at h1 h2
  by_cases h0 : off = 0
  · subst h0
    have hh : host = hostP := by
      rw [h]
      split
      · rename_i hz
        exact hz.symm
      · exact UInt64.add_zero _
    rw [hh, UInt64.add_zero]
    split
    · assumption
    · rfl
  · have h1' := h1.resolve_right h0
    have h2' := h2.resolve_right h0
    rw [if_neg h1'] at h
    rw [if_neg h2', h, UInt64.add_assoc, UInt64.add_comm off d, UInt64.add_assoc]

/-- The plane of the parent is one of its planes. -/
theorem parentPlane_lt {C P : PtrImage} (h : IsSubimage C P) {k : Nat} (hk : k < C.planes) : C.parentPlane k < P.planes := by
  unfold PtrImage.parentPlane
  rcases h with ⟨h1, h2, h3, -⟩ | ⟨h1, h2, -⟩
  · rw [if_pos h1]
    exact h3
  · rw [if_neg (by rw [h1]; decide), ← h2]
    exact hk

/-- Moving an image and what was created from it keeps the pointers. -/
theorem Moved.pointersOk (L : LinksOk s) (hok : PointersOk host2Shared s) {i : Nat} {I : PtrImage} (hi : s.images i = some I)
    (hroot : I.parent = none) (hfits : ∀ r ∈ s.tree i, s.adjustFits offset r = true) {s' : PtrStore}
    (M : Moved host2Shared offset (s.tree i) s s') : PointersOk host2Shared s' := by
  refine ⟨fun c C p hc hpar k hk => ?_, fun t T ht => ?_, fun j J hj k hk => ?_, fun t T ht => ?_⟩
  · rw [M.links.1] at hc
    obtain ⟨P, hP, -, -, hsub⟩ := L.parent c C p hc hpar
    have hpl := parentPlane_lt hsub hk
    have hold := hok.subimage c C p hc hpar k hk
    rw [M.image c C hc k hk, M.image p P hP _ hpl]
    by_cases hin : PtrRef.image p ∈ s.tree i
    · have hin' := (mem_tree_iff L hi hroot hc hpar).2 hin
      rw [if_pos hin, if_pos hin']
      have hf := hfits _ hin'
      simp only [adjustFits, hc, hpar, Bool.and_eq_true, Option.all_some, List.all_eq_true, List.mem_range, Bool.or_eq_true,
        bne_iff_ne, ne_eq, beq_iff_eq] at hf
      -- a channel is moved as far as its plane
      have hoff : offset k = offset (C.parentPlane k) := by
        rcases hsub with ⟨h1, h2, -, -⟩ | ⟨h1, -, -⟩
        · obtain rfl : k = 0 := by omega
          rw [PtrImage.parentPlane, if_pos h1]
          exact (hf.1.resolve_left (fun hn => hn h1)).symm
        · rw [PtrImage.parentPlane, if_neg (by rw [h1]; decide)]
      simp only [shift]
      rw [hoff]
      exact host_moved hold (hf.2 k hk).1 (hf.2 k hk).2
    · rw [if_neg hin, if_neg (mt (mem_tree_iff L hi hroot hc hpar).1 hin)]
      exact hold
  · rw [M.links.2] at ht
    obtain ⟨P, hP, -, hcp, hpl⟩ := L.tensorParent t T ht
    have hold := hok.subtensor t T ht
    rw [M.tensor t T ht, M.image T.parent P hP 0 (by rw [hpl]; exact Nat.one_pos)]
    by_cases hin : PtrRef.image T.parent ∈ s.tree i
    · have hin' := (tensor_mem_tree_iff L ht).2 hin
      rw [if_pos hin, if_pos hin']
      have hf := hfits _ hin'
      simp only [adjustFits, ht, Bool.and_eq_true] at hf
      have hfP := hfits _ hin
      simp only [adjustFits, hP, Bool.and_eq_true, Bool.or_eq_true, bne_iff_ne, ne_eq, beq_iff_eq] at hfP
      have hoff : offset T.channelPlane = offset 0 := by
        rw [hcp]
        by_cases hch : P.createType = .fromChannel
        · exact hfP.1.resolve_left (fun hn => hn hch)
        · have h0 : P.channelPlane = 0 := by
            cases hpp : P.parent with
            | none => exact (L.root _ P hP hpp).2
            | some q =>
              obtain ⟨Q, -, -, -, hsub⟩ := L.parent _ P q hP hpp
              rcases hsub with ⟨h1, -⟩ | ⟨-, -, h2⟩
              · exact absurd h1 hch
              · exact h2
          rw [h0]
      simp only [shift]
      rw [hoff]
      exact host_moved hold hf.1 hf.2
    · rw [if_neg hin, if_neg (mt (tensor_mem_tree_iff L ht).1 hin)]
      exact hold
  · rw [M.links.1] at hj
    rw [M.image j J hj k hk]
    split
    · rfl
    · exact hok.shared j J hj k hk
  · rw [M.links.2] at ht
    rw [M.tensor t T ht]
    split
    · rfl
    · exact hok.sharedTensor t T ht

/-- Two roots have nothing below them in common. -/
theorem tree_disjoint (L : LinksOk s) {i j : Nat} {I J : PtrImage} (hi : s.images i = some I) (hj : s.images j = some J)
    (hri : I.parent = none) (hrj : J.parent = none) (hne : i ≠ j) : ∀ {n : Nat} {r : PtrRef},
    levels ≤ s.refRank r + n → r ∈ s.tree i → r ∉ s.tree j
  | 0, r, hn, _, _ => by
    have := refRank_lt s r
    omega
  | n + 1, r, hn, h, h' => by
    -- nothing is above a root
    have hup : ∀ {i : Nat} {I : PtrImage} {q : PtrRef}, s.images i = some I → I.parent = none →
        PtrRef.image i ∉ s.adjustChildren q := by
      intro i I q hi hr hq
      obtain ⟨p, P, rfl, hp⟩ := exists_of_mem_adjustChildren hq
      rcases (mem_adjustChildren hp).1 hq with ⟨c, hc, he⟩ | ⟨t, -, he⟩
      · cases he
        obtain ⟨C, hC, hpar⟩ := L.listed p P i hp hc
        obtain rfl : I = C := Option.some.inj (hi.symm.trans hC)
        rw [hr] at hpar
        cases hpar
      · cases he
    rcases parent_of_mem_order h with rfl | ⟨q, hq, hrq⟩
    · rcases parent_of_mem_order h' with he | ⟨q', -, hrq'⟩
      · cases he
        exact hne rfl
      · exact hup hi hri hrq'
    · rcases parent_of_mem_order h' with rfl | ⟨q', hq', hrq'⟩
      · exact hup hj hrj hrq
      · obtain rfl := (forest L).unique q q' r hrq hrq'
        have := ranked L q r hrq
        exact tree_disjoint L hi hj hri hrj hne (n := n) (by omega) hq hq'

/-- The offsets back. -/
theorem not_sub_one (a b : UInt64) : ~~~((a - b) - 1) = b - a := by
  rw [← UInt64.toBitVec_inj]
  simp only [UInt64.toBitVec_not, UInt64.toBitVec_sub, UInt64.toBitVec_one]
  bv_omega

/-- The condition depends on the pointers of the parents in the tree. -/
theorem adjustFits_congr (L : LinksOk s) {s' : PtrStore} (hs : SameLinks s s') {i : Nat} {I : PtrImage}
    (hi : s.images i = some I) (hroot : I.parent = none)
    (hh : ∀ p P, s.images p = some P → PtrRef.image p ∈ s.tree i → ∀ k < P.planes, (s'.memPtr p k).host = (s.memPtr p k).host)
    {r : PtrRef} (hr : r ∈ s.tree i) (hf : s.adjustFits offset r = true) : s'.adjustFits offset r = true := by
  cases r with
  | image c =>
    cases hc : s.images c with
    | none => simp only [adjustFits, hs.1, hc]
    | some C =>
      simp only [adjustFits, hs.1, hc, Bool.and_eq_true] at hf ⊢
      refine ⟨hf.1, ?_⟩
      cases hpar : C.parent with
      | none => rfl
      | some p =>
        obtain ⟨P, hP, -, -, hsub⟩ := L.parent c C p hc hpar
        have hin := (mem_tree_iff L hi hroot hc hpar).1 hr
        simp only [hpar, Option.all_some, List.all_eq_true, List.mem_range] at hf ⊢
        intro k hk
        rw [hh p P hP hin _ (parentPlane_lt hsub hk)]
        exact hf.2 k hk
  | tensor t =>
    cases ht : s.tensors t with
    | none => simp only [adjustFits, hs.2, ht]
    | some T =>
      obtain ⟨P, hP, -, -, hpl⟩ := L.tensorParent t T ht
      have hin := (tensor_mem_tree_iff L ht).1 hr
      simp only [adjustFits, hs.2, ht] at hf ⊢
      rw [hh _ P hP hin 0 (by rw [hpl]; exact Nat.one_pos)]
      exact hf

/-- `swapImage` keeps the pointers where what was created from the two images can be followed. -/
theorem swapImage_spec (L : LinksOk s) (hok : PointersOk host2Shared s) {i o : Nat} {I O : PtrImage} (hi : s.images i = some I)
    (ho : s.images o = some O) (hri : I.parent = none) (hro : O.parent = none)
    (hfi : s.treeFits i (s.planeOffsets i o) = true) (hfo : s.treeFits o (s.planeOffsets o i) = true) {s' : PtrStore}
    (h : s.swapImage host2Shared i o = some s') : SameLinks s s' ∧ PointersOk host2Shared s' := by
  simp only [treeFits, Bool.and_eq_true, decide_eq_true_eq, List.all_eq_true] at hfi hfo
  have L0 : LinksOk { s with
      memSize := Function.update (Function.update s.memSize o (s.memSize i)) i (s.memSize o) } :=
    SameLinks.linksOk (s := s) ⟨rfl, rfl⟩ L
  obtain ⟨s1, hs1, M⟩ := adjustMemoryPointer_spec host2Shared (s.planeOffsets i o) L0 hfi.1
  have hok1 := M.pointersOk L0 ⟨hok.subimage, hok.subtensor, hok.shared, hok.sharedTensor⟩ hi hri hfi.2
  have L1 := M.links.linksOk L0
  have hsame : SameLinks s s1 := M.links
  have hback : (fun k => ~~~(s.planeOffsets i o k - 1)) = s.planeOffsets o i := funext (fun k => not_sub_one _ _)
  have hho : ∀ p P, s.images p = some P → PtrRef.image p ∈ s.tree o → ∀ k < P.planes,
      (s1.memPtr p k).host = (s.memPtr p k).host := by
    intro p P hP hin k hk
    rw [M.image p P hP k hk]
    by_cases hio : i = o
    · subst hio
      split
      · exact (congrArg ((s.memPtr p k).host + ·) (UInt64.sub_self _)).trans (UInt64.add_zero _)
      · rfl
    · have hnot : PtrRef.image p ∉ s.tree i := fun hin' =>
        tree_disjoint L hi ho hri hro hio (n := levels) (Nat.le_add_left _ _) hin' hin
      exact congrArg PlanePtr.host (if_neg hnot)
  have htree : s1.tree o = s.tree o := by rw [tree, tree, adjustChildren_of_sameLinks hsame]
  obtain ⟨s2, hs2, M2⟩ := adjustMemoryPointer_spec host2Shared (s.planeOffsets o i) (i := o) L1
    (by rw [adjustChildren_of_sameLinks hsame]; exact hfo.1)
  have hok2 := M2.pointersOk L1 hok1 (by rw [hsame.1]; exact ho) hro (fun r hr => by
    rw [htree] at hr
    exact adjustFits_congr L hsame ho hro hho hr (hfo.2 r hr))
  simp only [swapImage, hs1, Option.bind_some, if_true, hback, hs2, Option.map_some, Option.some.injEq] at h
  subst h
  exact ⟨hsame.trans M2.links, hok2⟩

end Adjust

/-! ### Replacing the pointers of what was created from an image -/

section Swap

variable {host2Shared : UInt64 → UInt64} {s : PtrStore}

/-- The pointer of a plane among those an image is given. -/
def givenPtr (newPtrs : Option (Nat → UInt64)) (k : Nat) : UInt64 :=
  match newPtrs with
  | none => 0
  | some ptrs => ptrs k

theorem swapVisit_sameLinks (s : PtrStore) (r : Nat × Option (Nat → UInt64)) : SameLinks s (swapVisit host2Shared s r) := by
  unfold swapVisit
  split <;> exact ⟨rfl, rfl⟩

theorem swapChildren_of_sameLinks {s s' : PtrStore} (h : SameLinks s s') : swapChildren s' = swapChildren s := by
  funext r
  simp only [swapChildren, h.1]

theorem mem_swapChildren {r q : Nat × Option (Nat → UInt64)} : q ∈ s.swapChildren r ↔
    ∃ P C, s.images r.1 = some P ∧ q.1 ∈ entries P.subimages ∧ s.images q.1 = some C ∧ subimagePtrs C r.2 = some q.2 := by
  obtain ⟨c, a⟩ := q
  unfold swapChildren
  cases hP : s.images r.1 with
  | none => simp
  | some P =>
    simp only [List.mem_filterMap, Option.bind_eq_some_iff, Option.map_eq_some_iff, Prod.mk.injEq, Option.some.injEq]
    constructor
    · rintro ⟨c', hc', C, hC, a', ha', rfl, rfl⟩
      exact ⟨P, C, rfl, hc', hC, ha'⟩
    · rintro ⟨P', C, rfl, hc, hC, ha⟩
      exact ⟨c, hc, C, hC, a, ha, rfl, rfl⟩

/-- The rank of an image among those that are swapped. -/
def swapRank (s : PtrStore) (r : Nat × Option (Nat → UInt64)) : Nat :=
  match s.images r.1 with
  | none => 0
  | some I => imageMaxSubimageDepth - I.numParents

theorem swapRank_lt (s : PtrStore) (r : Nat × Option (Nat → UInt64)) : s.swapRank r ≤ imageMaxSubimageDepth := by
  unfold swapRank
  split <;> omega

theorem swapRanked (L : LinksOk s) : Ranked s.swapChildren s.swapRank := by
  intro r q hq
  obtain ⟨P, C, hP, hc, hC, -⟩ := mem_swapChildren.1 hq
  obtain ⟨C', hC', hpar⟩ := L.listed r.1 P q.1 hP hc
  obtain rfl : C = C' := Option.some.inj (hC.symm.trans hC')
  obtain ⟨P', hP', -, hn, -⟩ := L.parent q.1 C r.1 hC hpar
  obtain rfl : P = P' := Option.some.inj (hP.symm.trans hP')
  have hd := L.depth q.1 C hC
  simp only [swapRank, hP, hC]
  omega

theorem length_swapChildren (L : LinksOk s) (r : Nat × Option (Nat → UInt64)) : (s.swapChildren r).length ≤ 16 := by
  unfold swapChildren
  split
  · exact Nat.zero_le _
  · rename_i I hI
    have h1 := (L.slots r.1 I hI).1
    have h2 := length_entries_le I.subimages
    have h3 : imageMaxSubimages = 16 := rfl
    exact Nat.le_trans (List.length_filterMap_le _ _) (by omega)

/-- The stack has room for every image with its sub-images. -/
theorem swap_room (L : LinksOk s) (r : Nat × Option (Nat → UInt64)) : need s.swapChildren levels r ≤ subimageStackSize := by
  have h1 := need_le (swapRanked L) (length_swapChildren L) levels r
  have h2 := Nat.mul_le_mul_left (16 - 1) (swapRank_lt s r)
  have h3 : (16 - 1) * imageMaxSubimageDepth + 1 ≤ subimageStackSize := by decide
  omega

/-- The images that are swapped, with the pointers they are given. -/
def swapped (s : PtrStore) (r : Nat × Option (Nat → UInt64)) : List (Nat × Option (Nat → UInt64)) :=
  order s.swapChildren levels r

theorem swapRank_lt_levels (s : PtrStore) (r : Nat × Option (Nat → UInt64)) : s.swapRank r < levels :=
  Nat.lt_of_le_of_lt (swapRank_lt s r) (show imageMaxSubimageDepth < levels by decide)

theorem vxSwapImageHandle_eq (L : LinksOk s) (i : Nat) (newPtrs : Option (Nat → UInt64)) :
    s.vxSwapImageHandle host2Shared i newPtrs = some ((s.swapped (i, newPtrs)).foldl (swapVisit host2Shared) s) := by
  have hsize : size s.swapChildren levels (i, newPtrs) ≤ maxVisits :=
    Nat.le_trans (size_le (length_swapChildren L) levels _) (show total 16 4 ≤ maxVisits by decide)
  have hw : walk subimageStackSize swapChildren (swapVisit host2Shared) maxVisits [(i, newPtrs)] s true =
      some (([(i, newPtrs)].flatMap (order s.swapChildren levels)).foldl (swapVisit host2Shared) s, true) :=
    walk_eq (SameLinks s) (fun t ht => swapChildren_of_sameLinks ht)
      (fun t r ht => ht.trans (swapVisit_sameLinks t r)) (swapRanked L) maxVisits (.refl s) (fun r _ => swapRank_lt_levels s r)
      ⟨by rw [List.length_nil, Nat.zero_add]; exact swap_room L _, trivial⟩ (by simpa using hsize)
  rw [vxSwapImageHandle, hw, List.flatMap_singleton]
  rfl

/-- Pointers that are not NULL and stay so when the offsets of `n` sub-images are added. -/
def PtrsFit (n planes : Nat) (newPtrs : Option (Nat → UInt64)) : Prop :=
  ∀ ptrs ∈ newPtrs, ∀ k < planes, 0 < (ptrs k).toNat ∧ (ptrs k).toNat ≤ 2 ^ 62 + n * 2 ^ 32

/-- The pointers of a sub-image are accepted, and are those of its parent with its offsets. -/
theorem subimagePtrs_spec {C P : PtrImage} (h : IsSubimage C P) {n : Nat} (hn : n ≤ imageMaxSubimageDepth)
    {newPtrs : Option (Nat → UInt64)} (hf : PtrsFit n P.planes newPtrs) :
    ∃ a, subimagePtrs C newPtrs = some a ∧ PtrsFit (n + 1) C.planes a ∧ ∀ k < C.planes,
      givenPtr a k =
        if givenPtr newPtrs (C.parentPlane k) = 0 then 0
        else givenPtr newPtrs (C.parentPlane k) + (C.memOffset k).toUInt64 := by
  have hn2 : n ≤ 2 := hn
  cases newPtrs with
  | none => exact ⟨none, rfl, fun _ h => (Option.not_mem_none _ h).elim, fun _ _ => rfl⟩
  | some ptrs =>
    have hp := hf ptrs rfl
    have hne : ∀ k < P.planes, ptrs k ≠ 0 := fun k hk h0 => absurd (hp k hk).1 (by rw [h0]; decide)
    rcases h with ⟨h1, h2, h3, h4⟩ | ⟨h1, h2, -⟩
    · have hch : (List.range C.planes).all (fun k => (if k = 0 then ptrs C.channelPlane else 0) != 0) = true := by
        simp only [h2, List.all_eq_true, List.mem_range, bne_iff_ne, ne_eq]
        intro k hk
        rw [if_pos (by omega)]
        exact hne _ h3
      refine ⟨some (fun k => if k = 0 then ptrs C.channelPlane else 0), ?_, ?_, ?_⟩
      · simp only [subimagePtrs, h1]
        exact if_pos hch
      · intro q hq k hk
        cases hq
        obtain rfl : k = 0 := by omega
        refine ⟨(hp _ h3).1, Nat.le_trans (hp _ h3).2 ?_⟩
        omega
      · intro k hk
        obtain rfl : k = 0 := by omega
        simp only [givenPtr, if_true, PtrImage.parentPlane, h1]
        rw [if_neg (hne _ h3), h4]
        exact (UInt64.add_zero _).symm
    · have hadd : ∀ k < C.planes, (ptrs k + (C.memOffset k).toUInt64).toNat = (ptrs k).toNat + (C.memOffset k).toNat := by
        intro k hk
        have h5 := hp k (by rw [← h2]; exact hk)
        have h6 := (C.memOffset k).toNat_lt
        rw [UInt64.toNat_add, UInt32.toNat_toUInt64, Nat.mod_eq_of_lt (by omega)]
      have hch : (List.range C.planes).all (fun k => ptrs k + (C.memOffset k).toUInt64 != 0) = true := by
        simp only [List.all_eq_true, List.mem_range, bne_iff_ne, ne_eq]
        intro k hk h0
        have h5 := (hp k (by rw [← h2]; exact hk)).1
        have h6 := hadd k hk
        rw [h0] at h6
        simp only [UInt64.toNat_zero] at h6
        omega
      refine ⟨some (fun k => ptrs k + (C.memOffset k).toUInt64), ?_, ?_, ?_⟩
      · simp only [subimagePtrs, h1]
        exact if_pos hch
      · intro q hq k hk
        cases hq
        have h5 := hp k (by rw [← h2]; exact hk)
        have h6 := (C.memOffset k).toNat_lt
        have h7 := hadd k hk
        simp only [h7]
        omega
      · intro k hk
        simp only [givenPtr, PtrImage.parentPlane, h1, reduceCtorEq, if_false]
        rw [if_neg (hne k (by rw [← h2]; exact hk))]

variable {i : Nat} {I : PtrImage} {newPtrs : Option (Nat → UInt64)}

/-- What is swapped is in the tree. -/
theorem mem_tree_of_swapped : ∀ {n : Nat} {r q : Nat × Option (Nat → UInt64)}, q ∈ order s.swapChildren n r →
    PtrRef.image q.1 ∈ order s.adjustChildren n (.image r.1)
  | 0, _, _, h => nomatch h
  | n + 1, r, q, h => by
    rcases mem_order_succ.1 h with rfl | ⟨d, hd, hq⟩
    · exact mem_order_self (Nat.succ_pos n) _
    · obtain ⟨P, C, hP, hc, -, -⟩ := mem_swapChildren.1 hd
      exact mem_order_succ.2 (.inr ⟨.image d.1, (mem_adjustChildren hP).2 (.inl ⟨d.1, hc, rfl⟩), mem_tree_of_swapped hq⟩)

/-- The pointers of each image that is swapped are found in one way, from those of its parent, and are not NULL. -/
theorem swapped_step (L : LinksOk s) {c : Nat} {a : Option (Nat → UInt64)} (h : (c, a) ∈ s.swapped (i, newPtrs)) :
    (c = i ∧ a = newPtrs) ∨ ∃ C p P x, s.images c = some C ∧ C.parent = some p ∧ s.images p = some P ∧ IsSubimage C P ∧
      C.numParents = P.numParents + 1 ∧ (p, x) ∈ s.swapped (i, newPtrs) ∧ subimagePtrs C x = some a := by
  rcases parent_of_mem_order h with h | ⟨⟨p, x⟩, hpx, hc⟩
  · cases h
    exact .inl ⟨rfl, rfl⟩
  · obtain ⟨P, C, hP, hcP, hC, ha⟩ := mem_swapChildren.1 hc
    obtain ⟨C', hC', hpar⟩ := L.listed p P c hP hcP
    obtain rfl : C = C' := Option.some.inj (hC.symm.trans hC')
    obtain ⟨P', hP', -, hn, hsub⟩ := L.parent c C p hC hpar
    obtain rfl : P = P' := Option.some.inj (hP.symm.trans hP')
    exact .inr ⟨C, p, P, x, hC, hpar, hP, hsub, hn, hpx, ha⟩

theorem swapped_unique (L : LinksOk s) (hi : s.images i = some I) (hroot : I.parent = none) : ∀ (n : Nat) {c : Nat} {C : PtrImage}
    {a b : Option (Nat → UInt64)}, s.images c = some C → C.numParents ≤ n → (c, a) ∈ s.swapped (i, newPtrs) →
      (c, b) ∈ s.swapped (i, newPtrs) → a = b := by
  intro n c C a b hC hn ha hb
  rcases swapped_step L ha with ⟨rfl, rfl⟩ | ⟨C1, p, P, x, hC1, hpar, hP, -, hnp, hx, hax⟩
  · rcases swapped_step L hb with ⟨-, rfl⟩ | ⟨C2, p, P, x, hC2, hpar, -⟩
    · rfl
    · obtain rfl : I = C2 := Option.some.inj (hi.symm.trans hC2)
      rw [hroot] at hpar
      cases hpar
  · obtain rfl : C1 = C := Option.some.inj (hC1.symm.trans hC)
    rcases swapped_step L hb with ⟨rfl, rfl⟩ | ⟨C2, p', P', y, hC2, hpar', hP', -, -, hy, hby⟩
    · obtain rfl : I = C1 := Option.some.inj (hi.symm.trans hC1)
      rw [hroot] at hpar
      cases hpar
    · obtain rfl : C2 = C1 := Option.some.inj (hC2.symm.trans hC)
      obtain rfl : p = p' := Option.some.inj (hpar.symm.trans hpar')
      cases n with
      | zero => omega
      | succ n =>
        obtain rfl := swapped_unique L hi hroot n hP (by omega) hx hy
        exact Option.some.inj (hax.symm.trans hby)

/-- The pointers an image is given fit it, where those of the first do. -/
theorem swapped_fits (L : LinksOk s) (hi : s.images i = some I) (hroot : I.parent = none)
    (hfit : PtrsFit I.numParents I.planes newPtrs) : ∀ (n : Nat) {c : Nat} {C : PtrImage} {a : Option (Nat → UInt64)},
    s.images c = some C → C.numParents ≤ n → (c, a) ∈ s.swapped (i, newPtrs) → PtrsFit C.numParents C.planes a := by
  intro n c C a hC hn h
  rcases swapped_step L h with ⟨rfl, rfl⟩ | ⟨C', p, P, x, hC', -, hP, hsub, hnp, hx, ha⟩
  · obtain rfl : I = C := Option.some.inj (hi.symm.trans hC)
    exact hfit
  · obtain rfl : C' = C := Option.some.inj (hC'.symm.trans hC)
    cases n with
    | zero => omega
    | succ n =>
      have hdp : P.numParents ≤ imageMaxSubimageDepth := L.depth p P hP
      obtain ⟨a', ha', hf, -⟩ := subimagePtrs_spec hsub hdp
        (swapped_fits L hi hroot hfit n hP (by omega) hx)
      obtain rfl : a' = a := Option.some.inj (ha'.symm.trans ha)
      rw [hnp]
      exact hf

/-- With an image its sub-images are swapped. -/
theorem swapped_child (L : LinksOk s) (hi : s.images i = some I) (hroot : I.parent = none)
    (hfit : PtrsFit I.numParents I.planes newPtrs) {c p : Nat} {C : PtrImage} {x : Option (Nat → UInt64)}
    (hC : s.images c = some C) (hpar : C.parent = some p) (hx : (p, x) ∈ s.swapped (i, newPtrs)) :
    ∃ a, (c, a) ∈ s.swapped (i, newPtrs) ∧ ∀ k < C.planes, givenPtr a k =
        if givenPtr x (C.parentPlane k) = 0 then 0
        else givenPtr x (C.parentPlane k) + (C.memOffset k).toUInt64 := by
  obtain ⟨P, hP, hc, -, hsub⟩ := L.parent c C p hC hpar
  obtain ⟨a, ha, -, hk⟩ := subimagePtrs_spec hsub (L.depth p P hP)
    (swapped_fits L hi hroot hfit P.numParents hP (Nat.le_refl _) hx)
  exact ⟨a, mem_order_of_child (swapRanked L) (swapRank_lt_levels s _) hx (mem_swapChildren.2 ⟨P, C, hP, hc, hC, ha⟩), hk⟩

/-- Every image of the tree is swapped. -/
theorem swapped_of_mem_tree (L : LinksOk s) (hi : s.images i = some I) (hroot : I.parent = none)
    (hfit : PtrsFit I.numParents I.planes newPtrs) : ∀ (n : Nat) {c : Nat} {C : PtrImage}, s.images c = some C →
    C.numParents ≤ n → PtrRef.image c ∈ s.tree i → ∃ a, (c, a) ∈ s.swapped (i, newPtrs) := by
  intro n c C hC hn h
  rcases parent_of_mem_order h with h | ⟨q, hq, hcq⟩
  · cases h
    exact ⟨newPtrs, mem_order_self (Nat.succ_pos _) _⟩
  · obtain ⟨p, P, rfl, hP⟩ := exists_of_mem_adjustChildren hcq
    rcases (mem_adjustChildren hP).1 hcq with ⟨c', hc, he⟩ | ⟨t, -, he⟩
    · cases he
      obtain ⟨C', hC', hpar⟩ := L.listed p P c hP hc
      obtain rfl : C = C' := Option.some.inj (hC.symm.trans hC')
      obtain ⟨P', hP', -, hnp, -⟩ := L.parent c C p hC hpar
      obtain rfl : P = P' := Option.some.inj (hP.symm.trans hP')
      cases n with
      | zero => omega
      | succ n =>
        obtain ⟨x, hx⟩ := swapped_of_mem_tree L hi hroot hfit n hP (by omega) hq
        obtain ⟨a, ha, -⟩ := swapped_child L hi hroot hfit hC hpar hx
        exact ⟨a, ha⟩
    · cases he

/-- The images of the list have the pointers they are given; the others, and the tensors, keep theirs. -/
theorem swapVisit_foldl (h0 : host2Shared 0 = 0) : ∀ (l : List (Nat × Option (Nat → UInt64))) (s : PtrStore),
    (∀ c C a b, s.images c = some C → (c, a) ∈ l → (c, b) ∈ l → a = b) →
    let s' := l.foldl (swapVisit host2Shared) s
    SameLinks s s' ∧ s'.tensorPtr = s.tensorPtr ∧ ∀ c C, s.images c = some C →
      (∀ a, (c, a) ∈ l → ∀ k < C.planes, s'.memPtr c k = ⟨givenPtr a k, host2Shared (givenPtr a k)⟩) ∧
        ((∀ a, (c, a) ∉ l) → s'.memPtr c = s.memPtr c)
  | [], s, _ => ⟨.refl s, rfl, fun _ _ _ => ⟨fun _ h => absurd h List.not_mem_nil, fun _ => rfl⟩⟩
  | (j, b) :: l, s, hl => by
    have h1 : SameLinks s (swapVisit host2Shared s (j, b)) := swapVisit_sameLinks s (j, b)
    obtain ⟨h2, ht, hm⟩ := swapVisit_foldl h0 l (swapVisit host2Shared s (j, b)) (fun c C a a' hC ha ha' =>
      hl c C a a' (by rw [← h1.1]; exact hC) (List.mem_cons_of_mem _ ha) (List.mem_cons_of_mem _ ha'))
    have ht1 : (swapVisit host2Shared s (j, b)).tensorPtr = s.tensorPtr := by
      unfold swapVisit
      split <;> rfl
    refine ⟨h1.trans h2, ht.trans ht1, fun c C hC => ?_⟩
    obtain ⟨hin, hout⟩ := hm c C (by rw [h1.1]; exact hC)
    constructor
    · intro a ha k hk
      by_cases hal : (c, a) ∈ l
      · exact hin a hal k hk
      · obtain ⟨rfl, rfl⟩ := Prod.mk.inj ((List.mem_cons.1 ha).resolve_right hal)
        have hno : ∀ a', (c, a') ∉ l := by
          intro a' ha'
          rw [hl c C a a' hC ha (List.mem_cons_of_mem _ ha')] at hal
          exact hal ha'
        rw [List.foldl_cons, hout hno, swapVisit]
        simp only [hC, ownSwapImageUnmap, setMemPtr, Function.update_self, if_pos hk]
        cases a with
        | none => rw [givenPtr, h0]
        | some ptrs => rfl
    · intro hno
      have hne : c ≠ j := by
        rintro rfl
        exact hno b List.mem_cons_self
      rw [List.foldl_cons, hout (fun a ha => hno a (List.mem_cons_of_mem _ ha)), swapVisit]
      split
      · rfl
      · simp only [ownSwapImageUnmap, setMemPtr, Function.update_of_ne hne]

/-- **`vxSwapImageHandle` keeps the pointers** of what was created from an image that is no sub-image, without sub-tensors. -/
theorem vxSwapImageHandle_spec (h0 : host2Shared 0 = 0) (L : LinksOk s) (hok : PointersOk host2Shared s)
    (hi : s.images i = some I) (hroot : I.parent = none) (hfit : PtrsFit I.numParents I.planes newPtrs)
    (hno : ∀ t, PtrRef.tensor t ∉ s.tree i) {s' : PtrStore} (h : s.vxSwapImageHandle host2Shared i newPtrs = some s') :
    SameLinks s s' ∧ PointersOk host2Shared s' := by
  rw [vxSwapImageHandle_eq L, Option.some.injEq] at h
  have hw := swapVisit_foldl h0 (s.swapped (i, newPtrs)) s (fun c C a b hC ha hb =>
    swapped_unique L hi hroot C.numParents hC (Nat.le_refl _) ha hb)
  simp only [h] at hw
  obtain ⟨hs, ht, hm⟩ := hw
  -- an image is given pointers when it is in the tree
  have hgiven : ∀ c C, s.images c = some C → PtrRef.image c ∈ s.tree i → ∃ a, (c, a) ∈ s.swapped (i, newPtrs) ∧
      ∀ k < C.planes, s'.memPtr c k = ⟨givenPtr a k, host2Shared (givenPtr a k)⟩ := by
    intro c C hC hin
    obtain ⟨a, ha⟩ := swapped_of_mem_tree L hi hroot hfit C.numParents hC (Nat.le_refl _) hin
    exact ⟨a, ha, (hm c C hC).1 a ha⟩
  have hkept : ∀ c C, s.images c = some C → PtrRef.image c ∉ s.tree i → s'.memPtr c = s.memPtr c :=
    fun c C hC hout => (hm c C hC).2 (fun a ha => hout (mem_tree_of_swapped ha))
  refine ⟨hs, fun c C p hc hpar k hk => ?_, fun t T hT => ?_, fun j J hj k hk => ?_, fun t T hT => ?_⟩
  · rw [hs.1] at hc
    obtain ⟨P, hP, -, -, hsub⟩ := L.parent c C p hc hpar
    by_cases hin : PtrRef.image p ∈ s.tree i
    · obtain ⟨x, hx, hpx⟩ := hgiven p P hP hin
      obtain ⟨a, ha, hak⟩ := swapped_child L hi hroot hfit hc hpar hx
      rw [(hm c C hc).1 a ha k hk, hpx _ (parentPlane_lt hsub hk)]
      exact hak k hk
    · rw [hkept p P hP hin, hkept c C hc (mt (mem_tree_iff L hi hroot hc hpar).1 hin)]
      exact hok.subimage c C p hc hpar k hk
  · rw [hs.2] at hT
    obtain ⟨P, hP, -, -, -⟩ := L.tensorParent t T hT
    rw [ht, hkept _ P hP (mt (tensor_mem_tree_iff L hT).2 (hno t))]
    exact hok.subtensor t T hT
  · rw [hs.1] at hj
    by_cases hin : PtrRef.image j ∈ s.tree i
    · obtain ⟨a, -, hak⟩ := hgiven j J hj hin
      rw [hak k hk]
    · rw [hkept j J hj hin]
      exact hok.shared j J hj k hk
  · rw [hs.2] at hT
    rw [ht]
    exact hok.sharedTensor t T hT

end Swap

/-! ### Importing a handle -/

section Import

variable {host2Shared : UInt64 → UInt64} {s : PtrStore} {i : Nat} {I : PtrImage} {addr : UInt64}

/-- The pointer of a sub-image from that of the plane it is in. -/
def offsetPtr (q : PlanePtr) (offset : UInt64) : PlanePtr := ⟨q.host + offset, q.shared + offset⟩

theorem importSubimage_sameLinks (s : PtrStore) (mem : Nat → PlanePtr) (c : Nat) : SameLinks s (s.importSubimage mem c) := by
  unfold importSubimage
  split <;> exact ⟨rfl, rfl⟩

theorem importSubimage_of_ne (s : PtrStore) (mem : Nat → PlanePtr) {c j : Nat} (h : j ≠ c) :
    (s.importSubimage mem c).memPtr j = s.memPtr j := by
  unfold importSubimage
  split
  · rfl
  · simp only [setMemPtr, Function.update_of_ne h]

theorem importSubimage_foldl (mem : Nat → PlanePtr) : ∀ (l : List Nat) (s : PtrStore), l.Nodup →
    let s' := l.foldl (fun s c => s.importSubimage mem c) s
    SameLinks s s' ∧ s'.tensorPtr = s.tensorPtr ∧ (∀ c, c ∉ l → s'.memPtr c = s.memPtr c) ∧
      ∀ c ∈ l, ∀ C, s.images c = some C → ∀ k < C.planes,
        s'.memPtr c k = offsetPtr (mem (C.parentPlane k)) (C.memOffset k).toUInt64
  | [], s, _ => ⟨.refl s, rfl, fun _ _ => rfl, fun _ h => absurd h List.not_mem_nil⟩
  | d :: l, s, hl => by
    obtain ⟨hd, hl⟩ := List.nodup_cons.1 hl
    have h1 := importSubimage_sameLinks s mem d
    obtain ⟨h2, ht, hout, hin⟩ := importSubimage_foldl mem l (s.importSubimage mem d) hl
    have ht1 : (s.importSubimage mem d).tensorPtr = s.tensorPtr := by
      unfold importSubimage
      split <;> rfl
    refine ⟨h1.trans h2, ht.trans ht1, fun c hc => ?_, fun c hc C hC k hk => ?_⟩
    · obtain ⟨hcd, hcl⟩ := not_or.1 (mt List.mem_cons.2 hc)
      rw [List.foldl_cons, hout c hcl, importSubimage_of_ne s mem hcd]
    · by_cases hcl : c ∈ l
      · exact hin c hcl C (by rw [h1.1]; exact hC) k hk
      · obtain rfl := (List.mem_cons.1 hc).resolve_right hcl
        rw [List.foldl_cons, hout c hcl, importSubimage]
        simp only [hC, setMemPtr, Function.update_self, if_pos hk, offsetPtr]

theorem importPtrs_shared (h0 : host2Shared 0 = 0) (s : PtrStore) (i : Nat) (addr : UInt64) (k : Nat) :
    (s.importPtrs host2Shared i addr k).shared = host2Shared (s.importPtrs host2Shared i addr k).host := by
  unfold importPtrs
  split
  · exact h0.symm
  · rfl

/-- Where all sub-images come before the first free place, all are followed. -/
theorem entries_takeWhile {t : List (Option Nat)} (h : entries (t.dropWhile Option.isSome) = []) :
    entries (t.takeWhile Option.isSome) = entries t := by
  have he : entries t = entries (t.takeWhile Option.isSome) ++ entries (t.dropWhile Option.isSome) := by
    rw [entries, entries, entries, ← List.filterMap_append, List.takeWhile_append_dropWhile]
  rw [he, h, List.append_nil]

/-- `tivxReferenceImportHandle` keeps the pointers where it can follow what was created from the image. -/
theorem tivxReferenceImportHandle_spec (h0 : host2Shared 0 = 0) (L : LinksOk s) (hok : PointersOk host2Shared s)
    (hi : s.images i = some I) (hroot : I.parent = none) (hfit : s.importFits host2Shared i I addr = true) :
    SameLinks s (s.tivxReferenceImportHandle host2Shared i I addr) ∧
      PointersOk host2Shared (s.tivxReferenceImportHandle host2Shared i I addr) := by
  simp only [importFits, Bool.and_eq_true, List.isEmpty_iff, List.all_eq_true, List.mem_range, beq_iff_eq, isMapped,
    offsetFits_iff, Option.all_eq_true] at hfit
  obtain ⟨⟨hten, hdrop⟩, hsub⟩ := hfit
  rw [tivxReferenceImportHandle, entries_takeWhile hdrop]
  set mem := fun k => if k < I.planes then s.importPtrs host2Shared i addr k else s.memPtr i k with hmem
  have hmemk : ∀ k < I.planes, mem k = s.importPtrs host2Shared i addr k := fun k hk => if_pos hk
  obtain ⟨hs, ht, hout, hin⟩ := importSubimage_foldl mem (entries I.subimages) (s.setMemPtr i mem) (L.nodup i I hi).1
  generalize (entries I.subimages).foldl (fun s c => s.importSubimage mem c) (s.setMemPtr i mem) = s' at hs ht hout hin
  -- an image is in the list when its parent is `i`
  have hlist : ∀ c C, s.images c = some C → (c ∈ entries I.subimages ↔ C.parent = some i) := by
    intro c C hC
    constructor
    · intro hc
      obtain ⟨C', hC', hpar⟩ := L.listed i I c hi hc
      obtain rfl : C = C' := Option.some.inj (hC.symm.trans hC')
      exact hpar
    · intro hpar
      obtain ⟨P, hP, hc, -⟩ := L.parent c C i hC hpar
      obtain rfl : P = I := Option.some.inj (hP.symm.trans hi)
      exact hc
  have hself : s'.memPtr i = mem := by
    rw [hout i (fun hc => by rw [hlist i I hi, hroot] at hc; cases hc)]
    exact Function.update_self ..
  have hother : ∀ j J, s.images j = some J → j ≠ i → J.parent ≠ some i → s'.memPtr j = s.memPtr j := by
    intro j J hJ hne hpar
    rw [hout j (mt (hlist j J hJ).1 hpar)]
    exact Function.update_of_ne hne ..
  have hlinks : SameLinks s s' := hs
  refine ⟨hlinks, fun c C p hc hpar k hk => ?_, fun t T hT => ?_, fun j J hj k hk => ?_, fun t T hT => ?_⟩
  · rw [hlinks.1] at hc
    obtain ⟨P, hP, hcP, -, hsubP⟩ := L.parent c C p hc hpar
    by_cases hpi : p = i
    · subst hpi
      obtain rfl : P = I := Option.some.inj (hP.symm.trans hi)
      have hoff := (((hsub c hcP) C hc).2 k hk).1
      rw [hin c hcP C hc k hk, hself, hmemk _ (parentPlane_lt hsubP hk)]
      simp only [offsetPtr]
      split
      · rename_i hz
        rw [hz, hoff.resolve_left (fun hn => hn hz)]
        rfl
      · rfl
    · have hci : c ≠ i := by
        rintro rfl
        obtain rfl : I = C := Option.some.inj (hi.symm.trans hc)
        rw [hroot] at hpar
        cases hpar
      -- nothing is created from the sub-images
      have hpp : P.parent ≠ some i := by
        intro hpp
        have hne := ((hsub p ((hlist p P hP).2 hpp)) P hP).1.1
        rw [hne] at hcP
        cases hcP
      rw [hother c C hc hci (by rw [hpar]; exact fun h => hpi (Option.some.inj h)), hother p P hP hpi hpp]
      exact hok.subimage c C p hc hpar k hk
  · rw [hlinks.2] at hT
    obtain ⟨P, hP, htP, -, -⟩ := L.tensorParent t T hT
    have hne : T.parent ≠ i := by
      intro h
      rw [h] at hP
      obtain rfl : P = I := Option.some.inj (hP.symm.trans hi)
      rw [hten] at htP
      cases htP
    have hpp : P.parent ≠ some i := by
      intro hpp
      have hte := ((hsub _ ((hlist _ P hP).2 hpp)) P hP).1.2
      rw [hte] at htP
      cases htP
    rw [ht, hother _ P hP hne hpp]
    exact hok.subtensor t T hT
  · rw [hlinks.1] at hj
    by_cases hji : j = i
    · subst hji
      obtain rfl : J = I := Option.some.inj (hj.symm.trans hi)
      rw [hself, hmemk k hk]
      exact importPtrs_shared h0 s j addr k
    · by_cases hpar : J.parent = some i
      · have hc := (hlist j J hj).2 hpar
        obtain ⟨P, hP, -, -, hsubP⟩ := L.parent j J i hj hpar
        obtain rfl : P = I := Option.some.inj (hP.symm.trans hi)
        have hmap := (((hsub j hc) J hj).2 k hk).2
        rw [hin j hc J hj k hk, hmemk _ (parentPlane_lt hsubP hk)]
        simp only [offsetPtr]
        rw [hmap, importPtrs_shared h0]
      · rw [hother j J hj hji hpar]
        exact hok.shared j J hj k hk
  · rw [hlinks.2] at hT
    rw [ht]
    exact hok.sharedTensor t T hT

end Import

end PtrStore

end Tiovx
