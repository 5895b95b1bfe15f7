import Tiovx.LinkLeaks
/-!
# LinkSettles — what releases leave, and that they end (`vx_reference.c`)

What a release still has to do is done in the end: each part of it takes a count or a link away, and adds less than it takes.
Then the references are those that a holder outside leads to, and the entries of the table in use are theirs.
-/
namespace Tiovx
open HolderCounts StepSystem Relation

namespace LinkStore

variable {S S' : LinkStore} {r : Nat} {o o' : StoredRef} {p : Pending} {rest : List Pending}

/-! ### What is left to do -/

theorem LaidBefore.pop {q : Pending} {a pre : List Pending} {x : Nat} {y : StoredRef} (h : LaidBefore (q :: a) x y)
    (hd : q ≠ .destruct x) (hf : q ≠ .objDescFree x) (ha : ∀ z ∈ a, z ∈ pre) : LaidBefore pre x y := by
  refine ⟨h.noSupplement, ?_⟩
  rcases h.emptied with hmem | ⟨hitems, hparent, hdesc⟩
  · exact .inl (ha _ ((List.mem_cons.1 hmem).resolve_left hd.symm))
  · exact .inr ⟨hitems, hparent, hdesc.imp (fun hmem => ha _ ((List.mem_cons.1 hmem).resolve_left hf.symm)) id⟩

/-- An object that is freed in what was left to do, where nothing that is added frees it. -/
theorem split_pending {add pre post : List Pending} {x : Nat} (h : add ++ rest = pre ++ .objectFree x :: post)
    (hadd : .objectFree x ∉ add) : ∃ a, pre = add ++ a ∧ rest = a ++ .objectFree x :: post := by
  rcases List.append_eq_append_iff.1 h with ⟨a, ha, hrest⟩ | ⟨a, ha, hrest⟩
  · exact ⟨a, ha, hrest⟩
  · cases a with
    | nil =>
      rw [List.append_nil] at ha
      exact ⟨[], by rw [ha, List.append_nil], hrest.symm⟩
    | cons z a =>
      obtain ⟨rfl, -⟩ := List.cons.inj hrest
      exact absurd (by rw [ha]; simp) hadd

/-- What is to be freed of a reference that has not changed is laid where nothing of it has been done. -/
theorem Tight.laid_of_same (hT : S.Tight) (add : List Pending) (hp : S.pending = p :: rest) {pre post : List Pending} {x : Nat}
    {y : StoredRef} (h : add ++ rest = pre ++ .objectFree x :: post) (hadd : .objectFree x ∉ add) (hy : S.refs x = some y)
    (hd : p ≠ .destruct x) (hf : p ≠ .objDescFree x) : LaidBefore pre x y := by
  obtain ⟨a, rfl, rfl⟩ := split_pending h hadd
  exact (hT.laid (p :: a) x post y hp hy).pop hd hf fun z hz => List.mem_append_right _ hz

theorem Tight.skip (hT : S.Tight) (hp : S.pending = p :: rest) (hholds : p.holds = [])
    (hlaid : ∀ x y, S.refs x = some y → p ≠ .destruct x ∧ p ≠ .objDescFree x) :
    ({ S with pending := rest } : LinkStore).Tight where
  accounts := by
    refine hT.accounts.owe (fun k => ?_)
    have howed := S.owed_pending p rest hp k
    rw [hholds, List.count_nil] at howed
    rw [howed]
    exact Nat.le_refl _
  acyclic := hT.acyclic
  plain := hT.plain
  used := hT.used
  laid := fun pre x post y h hy =>
    hT.laid_of_same [] hp h List.not_mem_nil hy (hlaid x y hy).1 (hlaid x y hy).2

/-- A reference whose object is about to be freed is not what is counted. -/
theorem ne_of_freed (hinv : S.Inv) {x : Nat} {y : StoredRef} (hmem : .objectFree x ∈ S.pending) (hy : S.refs x = some y)
    (hr : S.refs r = some o) (hpos : 0 < o.held) : x ≠ r := by
  rintro rfl
  obtain rfl := Option.some.inj (hr.symm.trans hy)
  have := hinv.dying _ hmem x rfl o hy
  omega

theorem Tight.ownReleaseReferenceInt {k : CountKind} (hT : S.Tight) (hinv : S.Inv) (hp : S.pending = .release r k :: rest) :
    (({ S with pending := rest } : LinkStore).ownReleaseReferenceInt r k).Tight := by
  have hcount := fun l => S.owed_pending _ rest hp l
  obtain ⟨o, ho, hpos⟩ := hinv.owed_live (k := ⟨r, k⟩) (by rw [hcount]; simp)
  dsimp only at ho hpos
  have hheld := Nat.lt_of_lt_of_le hpos (o.countOf_le_held k)
  have hsupp : (o.ownDecrementReference k).supplementaryData = o.supplementaryData := by cases k <;> rfl
  have hplain : (o.ownDecrementReference k).type = .userDataObject → (o.ownDecrementReference k).parent = none := by
    have := hT.plain r o ho
    cases k <;> exact this
  unfold LinkStore.ownReleaseReferenceInt
  rw [ho]
  dsimp only
  split
  · have hrep := replaces_destroy ho k rest
    refine hrep.tight hinv hT hplain (fun l => (balanced_destroy hp hpos l).ge) (fun l hl => .inl (List.count_pos_iff.1 ?_))
      (fun pre x post y h hy => ?_)
    · have := List.count_pos_iff.2 hl
      have := count_holds_destroy o k l
      omega
    · -- the object of `r` is freed after its destructor, and what was to be freed before stays behind that
      have hnotin : ∀ z, Pending.objectFree z ∉ o.supplementaryData.toList.map (Pending.release · .external) := by
        intro z hz
        obtain ⟨s, -, hs⟩ := List.mem_map.1 hz
        cases hs
      have hpending : o.supplementaryData.toList.map (Pending.release · .external) ++ .destruct r :: .objectFree r :: rest =
          pre ++ .objectFree x :: post := by
        rw [← hsupp]
        exact h
      by_cases hxr : x = r
      · subst hxr
        obtain rfl := Option.some.inj (hrep.refs_self.symm.trans hy)
        rw [List.append_cons] at hpending
        obtain ⟨a, rfl, -⟩ := split_pending hpending (by simp)
        exact ⟨rfl, .inl (by simp)⟩
      · rw [hrep.refs_ne hxr] at hy
        rw [List.append_cons, List.append_cons] at hpending
        exact hT.laid_of_same _ hp hpending (by simp [hxr]) hy (fun heq => by cases heq) (fun heq => by cases heq)
  · have hrep := replaces_decremented ho k rest
    refine hrep.tight hinv hT hplain (fun l => (balanced_decremented hp hpos l).ge)
      (fun l hl => .inl (by rwa [o.holds_decrement] at hl)) (fun pre x post y h hy => ?_)
    have hold : Pending.objectFree x ∈ S.pending := by
      rw [hp, show rest = pre ++ .objectFree x :: post from h]
      simp
    by_cases hxr : x = r
    · subst hxr
      refine absurd rfl (ne_of_freed hinv hold ho ho hheld)
    · rw [hrep.refs_ne hxr] at hy
      exact hT.laid_of_same [] hp h List.not_mem_nil hy (fun heq => by cases heq) (fun heq => by cases heq)

theorem Tight.releaseItem (hT : S.Tight) (hinv : S.Inv) (hp : S.pending = .releaseItem r :: rest) :
    (({ S with pending := rest } : LinkStore).runPending (.releaseItem r)).Tight := by
  have hcount := fun l => S.owed_pending _ rest hp l
  obtain ⟨o, ho, hint⟩ := hinv.owed_live (k := ⟨r, .internal⟩) (by rw [hcount]; simp [itemHolds])
  dsimp only at ho hint
  have hheld := Nat.lt_of_lt_of_le hint (o.countOf_le_held .internal)
  have hrep := replaces_releaseItem ho rest
  refine hrep.tight hinv hT (hT.plain r o ho) (fun l => (balanced_releaseItem hp hint l).ge)
    (fun l hl => .inl (by rwa [o.holds_decrement] at hl)) (fun pre x post y h hy => ?_)
  have hfreed : Pending.objectFree x ∈ S.pending := by
    have hmem : Pending.objectFree x ∈ Pending.release r .external :: rest := by
      rw [show Pending.release r .external :: rest = pre ++ .objectFree x :: post from h]
      simp
    rw [hp]
    exact List.mem_cons_of_mem _ ((List.mem_cons.1 hmem).resolve_left (fun heq => by cases heq))
  have hxr : x ≠ r := by
    rintro rfl
    exact ne_of_freed hinv hfreed ho ho hheld rfl
  rw [hrep.refs_ne hxr] at hy
  exact hT.laid_of_same [.release r .external] hp h (by simp) hy (fun heq => by cases heq) (fun heq => by cases heq)

/-- A destructor frees the descriptor of what has no parent to share it with. -/
theorem objDescFree_mem_destructor (h : o.type = .userDataObject → o.parent = none) : .objDescFree r ∈ destructor r o := by
  unfold destructor
  refine List.mem_append_right _ ?_
  cases hparent : o.parent with
  | none => exact List.mem_singleton.2 rfl
  | some p =>
    dsimp only
    rw [if_neg fun ht => by rw [h ht] at hparent; cases hparent]
    exact List.mem_cons_self

theorem objectFree_notMem_destructor (x : Nat) : .objectFree x ∉ destructor r o := by
  intro hx
  unfold destructor at hx
  rcases List.mem_append.1 hx with hx | hx
  · obtain ⟨u, -, hu⟩ := List.mem_filterMap.1 hx
    obtain ⟨e, -, he⟩ := Option.map_eq_some_iff.1 hu
    cases he
  · split at hx
    · cases List.mem_singleton.1 hx
    · split at hx
      · cases List.mem_singleton.1 hx
      · rcases List.mem_cons.1 hx with hx | hx
        · cases hx
        · cases List.mem_singleton.1 hx

theorem Tight.destruct (hT : S.Tight) (hinv : S.Inv) (hp : S.pending = .destruct r :: rest) :
    (({ S with pending := rest } : LinkStore).runPending (.destruct r)).Tight := by
  unfold runPending
  dsimp only
  cases ho : S.refs r with
  | none =>
    refine hT.skip hp rfl fun x y hx => ⟨fun heq => ?_, fun heq => by cases heq⟩
    cases heq
    rw [ho] at hx
    cases hx
  | some o =>
    dsimp only
    have hrep := replaces_destruct ho rest
    refine hrep.tight hinv hT (fun _ => rfl) (fun l => (balanced_destruct hp l).ge) (fun l hl => .inl (List.count_pos_iff.1 ?_))
      (fun pre x post y h hy => ?_)
    · have := List.count_pos_iff.2 hl
      have := count_holds_destruct o l
      omega
    · obtain ⟨a, rfl, hrest⟩ := split_pending h (objectFree_notMem_destructor x)
      by_cases hxr : x = r
      · subst hxr
        obtain rfl := Option.some.inj (hrep.refs_self.symm.trans hy)
        rw [hrest] at hp
        have hbefore := hT.laid (.destruct x :: a) x post o hp ho
        exact ⟨hbefore.noSupplement,
          .inr ⟨rfl, rfl, .inl (List.mem_append_left _ (objDescFree_mem_destructor (hT.plain x o ho)))⟩⟩
      · rw [hrep.refs_ne hxr] at hy
        exact hT.laid_of_same _ hp h (objectFree_notMem_destructor x) hy (fun heq => hxr (Pending.destruct.inj heq).symm)
          (fun heq => by cases heq)

theorem Tight.objDescFree (hT : S.Tight) (hp : S.pending = .objDescFree r :: rest) :
    (({ S with pending := rest } : LinkStore).runPending (.objDescFree r)).Tight := by
  unfold runPending
  dsimp only
  split
  · rename_i hnone
    refine ⟨(hT.accounts.owe (fun k => ?_)), hT.acyclic, hT.plain, hT.used, fun pre x post y h hy => ?_⟩
    · rw [S.owed_pending _ rest hp k, Pending.holds_objDescFree, List.count_nil]
      exact Nat.le_refl _
    · by_cases hxr : x = r
      · -- there is no descriptor to be freed
        subst hxr
        have hlaid := hT.laid (.objDescFree x :: pre) x post y (by rw [hp]; exact congrArg _ h) hy
        have hdesc : y.objDesc = none := by
          change (S.refs x).bind (·.objDesc) = none at hnone
          rwa [show S.refs x = some y from hy] at hnone
        refine ⟨hlaid.noSupplement, hlaid.emptied.imp (fun hmem => ?_) fun hrest => ⟨hrest.1, hrest.2.1, .inr hdesc⟩⟩
        exact (List.mem_cons.1 hmem).resolve_left (fun heq => by cases heq)
      · exact hT.laid_of_same [] hp h List.not_mem_nil hy (fun heq => by cases heq)
          (fun heq => hxr (Pending.objDescFree.inj heq).symm)
  · rename_i d hid
    obtain ⟨o, ho, hd⟩ := Option.bind_eq_some_iff.1 hid
    have ho : S.refs r = some o := ho
    have hself := refs_dropDesc ho d rest
    have hother : ∀ x, x ≠ r → ((({ S with pending := rest } : LinkStore).modifyDesc d
        fun x => { x with isUsed := false }).modify r fun x => { x with objDesc := none }).refs x = S.refs x :=
      fun x hx => Function.update_of_ne hx _ _
    obtain ⟨hholds, hcounted⟩ := holds_dropDesc ho hself hother
    refine ⟨?_, hT.acyclic_of_le fun x y hxy => ?_, fun x y hx ht => ?_, fun e he => ?_, fun pre x post y h hy => ?_⟩
    · rw [hholds, hcounted]
      refine hT.accounts.owe (fun k => ?_)
      rw [S.owed_pending _ rest hp k, Pending.holds_objDescFree, List.count_nil]
      exact Nat.le_refl _
    · unfold Points at hxy
      rw [hholds] at hxy
      exact hxy
    · by_cases hxr : x = r
      · subst hxr
        obtain rfl := Option.some.inj (hself.symm.trans hx)
        exact hT.plain x o ho ht
      · rw [hother x hxr] at hx
        exact hT.plain x y hx ht
    · have hed : e ≠ d := by
        rintro rfl
        change (Function.update S.table e _ e).isUsed = true at he
        rw [Function.update_self] at he
        cases he
      have he : (S.table e).isUsed = true := by
        change (Function.update S.table d _ e).isUsed = true at he
        rwa [Function.update_of_ne hed] at he
      obtain ⟨x, hx⟩ := hT.used e he
      have hxr : x ≠ r := by
        rintro rfl
        rw [show S.ownReferenceGetObjDescId x = some d from hid] at hx
        exact hed (Option.some.inj hx).symm
      refine ⟨x, ?_⟩
      unfold ownReferenceGetObjDescId at hx ⊢
      rwa [hother x hxr]
    · by_cases hxr : x = r
      · subst hxr
        obtain rfl := Option.some.inj (hself.symm.trans hy)
        have hlaid := hT.laid (.objDescFree x :: pre) x post o (by rw [hp]; exact congrArg _ h) ho
        refine ⟨hlaid.noSupplement, hlaid.emptied.imp (fun hmem => ?_) fun hrest => ⟨hrest.1, hrest.2.1, .inr rfl⟩⟩
        exact (List.mem_cons.1 hmem).resolve_left (fun heq => by cases heq)
      · rw [hother x hxr] at hy
        exact hT.laid_of_same [] hp h List.not_mem_nil hy (fun heq => by cases heq)
          (fun heq => hxr (Pending.objDescFree.inj heq).symm)

theorem Tight.objectFree (hT : S.Tight) (hinv : S.Inv) (hp : S.pending = .objectFree r :: rest) :
    (({ S with pending := rest } : LinkStore).runPending (.objectFree r)).Tight := by
  have hself : (({ S with pending := rest } : LinkStore).runPending (.objectFree r)).refs r = none := Function.update_self ..
  have hother : ∀ x, x ≠ r → (({ S with pending := rest } : LinkStore).runPending (.objectFree r)).refs x = S.refs x :=
    fun x hx => Function.update_of_ne hx _ _
  -- nothing is left of what is freed
  have hempty : ∀ o, S.refs r = some o → o.holds = [] ∧ o.objDesc = none := by
    intro o ho
    have hlaid := hT.laid [] r rest o hp ho
    rcases hlaid.emptied with hmem | ⟨hitems, hparent, hdesc⟩
    · cases hmem
    · refine ⟨?_, hdesc.resolve_left List.not_mem_nil⟩
      unfold StoredRef.holds
      rw [hitems, hparent, hlaid.noSupplement]
      rfl
  have hholds : (({ S with pending := rest } : LinkStore).runPending (.objectFree r)).holds = S.holds := by
    funext x
    unfold holds
    by_cases hx : x = r
    · rw [hx, hself]
      cases ho : S.refs r with
      | none => rfl
      | some o => exact (hempty o ho).1.symm
    · rw [hother x hx]
  refine ⟨?_, hT.acyclic_of_le fun x y hxy => ?_, fun x y hx ht => ?_, fun e he => ?_, fun pre x post y h hy => ?_⟩
  · rw [hholds, counted_objectFree (hinv.dying _ (by rw [hp]; exact List.mem_cons_self) r rfl)]
    refine hT.accounts.owe (fun k => ?_)
    rw [S.owed_pending _ rest hp k, Pending.holds_objectFree, List.count_nil]
    exact Nat.le_refl _
  · unfold Points at hxy
    rwa [hholds] at hxy
  · have hxr : x ≠ r := by
      rintro rfl
      rw [hself] at hx
      cases hx
    rw [hother x hxr] at hx
    exact hT.plain x y hx ht
  · obtain ⟨x, hx⟩ := hT.used e he
    have hxr : x ≠ r := by
      rintro rfl
      obtain ⟨o, ho, hd⟩ := Option.bind_eq_some_iff.1 hx
      rw [(hempty o ho).2] at hd
      cases hd
    refine ⟨x, ?_⟩
    unfold ownReferenceGetObjDescId at hx ⊢
    rwa [hother x hxr]
  · have hxr : x ≠ r := by
      rintro rfl
      rw [hself] at hy
      cases hy
    rw [hother x hxr] at hy
    exact hT.laid_of_same [] hp h List.not_mem_nil hy (fun heq => by cases heq) (fun heq => by cases heq)

/-- What a release has left to do leaves nothing without a holder. -/
theorem Tight.runPending (hT : S.Tight) (hinv : S.Inv) (hp : S.pending = p :: rest) :
    (({ S with pending := rest } : LinkStore).runPending p).Tight := by
  cases p with
  | release r k => exact hT.ownReleaseReferenceInt hinv hp
  | releaseItem r => exact hT.releaseItem hinv hp
  | destruct r => exact hT.destruct hinv hp
  | objDescFree r => exact hT.objDescFree hp
  | objectFree r => exact hT.objectFree hinv hp

end LinkStore

/-! ### Releases end -/

/-- What a part of a release costs. -/
def Pending.work : Pending → Nat
  | releaseItem _ => 3
  | destruct _ => 2
  | _ => 1

/-- What the releases of a reference may cost. -/
def StoredRef.work (o : StoredRef) : Nat := 5 * o.held + 2 * o.holds.length

theorem work_destructor (r : Nat) (o : StoredRef) :
    ((LinkStore.destructor r o).map Pending.work).sum ≤
      2 * ((o.items.flatMap itemHolds).length + (o.parent.toList.map (⟨·, o.parentKind⟩ : Nat → Hold)).length) + 1 := by
  have hitems : ∀ items : List (Option Nat), ((items.filterMap (·.map Pending.releaseItem)).map Pending.work).sum ≤
      2 * (items.flatMap itemHolds).length := by
    intro items
    induction items with
    | nil => exact Nat.le_refl 0
    | cons x items ih =>
      cases x with
      | none => exact ih
      | some e =>
        simp only [List.filterMap_cons, Option.map_some, List.map_cons, List.sum_cons, List.flatMap_cons, List.length_append]
        change 3 + _ ≤ 2 * (2 + _)
        omega
  unfold LinkStore.destructor
  have := hitems o.items
  rw [List.map_append, List.sum_append]
  cases hp : o.parent with
  | none =>
    change _ + 1 ≤ 2 * (_ + 0) + 1
    omega
  | some q =>
    dsimp only
    split
    · change _ + 1 ≤ 2 * (_ + 1) + 1
      omega
    · change _ + 2 ≤ 2 * (_ + 1) + 1
      omega

namespace LinkStore

variable {S S' : LinkStore} {r : Nat} {o o' : StoredRef} {p : Pending} {rest : List Pending}

/-- What is still to be done costs no more than this. -/
def work (S : LinkStore) : Nat :=
  ∑ x ∈ Finset.range S.next, (S.refs x).elim 0 StoredRef.work + (S.pending.map Pending.work).sum

theorem work_skip (S : LinkStore) (rest : List Pending) : ({ S with pending := rest } : LinkStore).work =
    ∑ x ∈ Finset.range S.next, (S.refs x).elim 0 StoredRef.work + (rest.map Pending.work).sum := rfl

theorem sum_work_update (hr : S.refs r = some o) (hlt : r < S.next) (y : Option StoredRef) :
    ∑ x ∈ Finset.range S.next, (Function.update S.refs r y x).elim 0 StoredRef.work + o.work =
      ∑ x ∈ Finset.range S.next, (S.refs x).elim 0 StoredRef.work + y.elim 0 StoredRef.work := by
  have hmem := Finset.mem_range.2 hlt
  rw [← Finset.add_sum_erase _ (fun x => (Function.update S.refs r y x).elim 0 StoredRef.work) hmem,
    ← Finset.add_sum_erase _ (fun x => (S.refs x).elim 0 StoredRef.work) hmem]
  have hsame : ∑ x ∈ (Finset.range S.next).erase r, (Function.update S.refs r y x).elim 0 StoredRef.work =
      ∑ x ∈ (Finset.range S.next).erase r, (S.refs x).elim 0 StoredRef.work :=
    Finset.sum_congr rfl fun x hx => by rw [Function.update_of_ne (Finset.ne_of_mem_erase hx)]
  rw [hsame, Function.update_self, hr]
  simp only [Option.elim_some]
  omega

theorem length_holds (o : StoredRef) : o.holds.length = (o.items.flatMap itemHolds).length + o.supplementaryData.toList.length +
    (o.parent.toList.map (⟨·, o.parentKind⟩ : Nat → Hold)).length := by
  unfold StoredRef.holds
  simp only [List.length_append, List.length_map]

theorem work_noSupplement (o : StoredRef) :
    ({ o with supplementaryData := none } : StoredRef).work + 2 * o.supplementaryData.toList.length = o.work := by
  have hone := length_holds o
  have htwo := length_holds { o with supplementaryData := none }
  have hsame : ({ o with supplementaryData := none } : StoredRef).held = o.held := rfl
  rw [List.length_map] at hone htwo
  simp only [Option.toList_none, List.length_nil] at htwo
  unfold StoredRef.work
  omega

theorem work_destroy (ho : S.refs r = some o) (hlt : r < S.next) :
    (S.destroy r o).work + o.supplementaryData.toList.length = S.work + 3 := by
  have hsum := sum_work_update ho hlt (some { o with supplementaryData := none })
  have hwork := work_noSupplement o
  have hreleases : (o.supplementaryData.toList.map (Pending.work ∘ (Pending.release · .external))).sum =
      o.supplementaryData.toList.length := by cases o.supplementaryData <;> rfl
  have hafter : (S.destroy r o).work =
      ∑ x ∈ Finset.range S.next, (Function.update S.refs r (some { o with supplementaryData := none }) x).elim 0 StoredRef.work +
        (o.supplementaryData.toList.length + (3 + (S.pending.map Pending.work).sum)) := by
    have hpending : ((S.destroy r o).pending.map Pending.work).sum =
        o.supplementaryData.toList.length + (3 + (S.pending.map Pending.work).sum) := by
      unfold destroy
      rw [List.map_append, List.sum_append, List.map_map, hreleases, List.map_cons, List.map_cons, List.sum_cons, List.sum_cons]
      change _ + (2 + (1 + _)) = _
      omega
    rw [← hpending]
    rfl
  have hbefore : S.work = ∑ x ∈ Finset.range S.next, (S.refs x).elim 0 StoredRef.work + (S.pending.map Pending.work).sum := rfl
  rw [hafter, hbefore]
  simp only [Option.elim_some] at hsum
  omega

theorem work_release {k : CountKind} (hinv : S.Inv) (hp : S.pending = .release r k :: rest) :
    (({ S with pending := rest } : LinkStore).ownReleaseReferenceInt r k).work < S.work := by
  obtain ⟨o, ho, hpos⟩ := hinv.owed_live (k := ⟨r, k⟩) (by rw [S.owed_pending _ rest hp]; simp)
  dsimp only at ho hpos
  have hlt := hinv.fresh r o ho
  have hsum := sum_work_update ho hlt (some (o.ownDecrementReference k))
  have hheld : (o.ownDecrementReference k).held + 1 = o.held := StoredRef.held_decrement hpos
  have hwork : (o.ownDecrementReference k).work + 5 = o.work := by
    unfold StoredRef.work
    rw [o.holds_decrement]
    omega
  have hbefore : S.work = ∑ x ∈ Finset.range S.next, (S.refs x).elim 0 StoredRef.work + (1 + (rest.map Pending.work).sum) := by
    unfold work
    rw [hp, List.map_cons, List.sum_cons]
    rfl
  have hafter : ({ S with pending := rest, refs := Function.update S.refs r (some (o.ownDecrementReference k)) } :
      LinkStore).work = ∑ x ∈ Finset.range S.next, (Function.update S.refs r
        (some (o.ownDecrementReference k)) x).elim 0 StoredRef.work + (rest.map Pending.work).sum := rfl
  simp only [Option.elim_some] at hsum
  unfold ownReleaseReferenceInt
  rw [ho]
  dsimp only
  split
  · have hdestroy := work_destroy (S := { S with
      pending := rest
      refs := Function.update S.refs r (some (o.ownDecrementReference k)) }) (Function.update_self r _ S.refs) hlt
    rw [hafter] at hdestroy
    rw [hbefore]
    omega
  · rw [hbefore, hafter]
    omega

theorem work_emptied (o : StoredRef) : ({ o with items := [], parent := none } : StoredRef).work +
    2 * ((o.items.flatMap itemHolds).length + (o.parent.toList.map (⟨·, o.parentKind⟩ : Nat → Hold)).length) = o.work := by
  have hone := length_holds o
  have htwo := length_holds { o with items := [], parent := none }
  have hsame : ({ o with items := [], parent := none } : StoredRef).held = o.held := rfl
  simp only [List.flatMap_nil, List.length_nil, Option.toList_none, List.map_nil] at htwo
  unfold StoredRef.work
  omega

/-- **Each part of a release costs more than it leaves to do.** -/
theorem work_runPending (hinv : S.Inv) (hp : S.pending = p :: rest) :
    (({ S with pending := rest } : LinkStore).runPending p).work < S.work := by
  have hbefore : S.work = ∑ x ∈ Finset.range S.next, (S.refs x).elim 0 StoredRef.work +
      (p.work + (rest.map Pending.work).sum) := by
    unfold work
    rw [hp, List.map_cons, List.sum_cons]
  cases p with
  | release r k => exact work_release hinv hp
  | releaseItem r =>
    obtain ⟨o, ho, hint⟩ := hinv.owed_live (k := ⟨r, .internal⟩) (by rw [S.owed_pending _ rest hp]; simp [itemHolds])
    dsimp only at ho hint
    have hsum := sum_work_update ho (hinv.fresh r o ho) (some (o.ownDecrementReference .internal))
    have hafter : (({ S with pending := rest } : LinkStore).runPending (.releaseItem r)).work =
        ∑ x ∈ Finset.range S.next, (Function.update S.refs r
          (some (o.ownDecrementReference .internal)) x).elim 0 StoredRef.work + (1 + (rest.map Pending.work).sum) := by
      unfold work runPending modify
      simp only [ho, Option.map_some, List.map_cons, List.sum_cons]
      rfl
    have hwork : (o.ownDecrementReference .internal).work ≤ o.work := by
      have hheld : (o.ownDecrementReference .internal).held + 1 = o.held := StoredRef.held_decrement hint
      unfold StoredRef.work
      rw [o.holds_decrement]
      omega
    rw [hbefore, hafter]
    simp only [Option.elim_some] at hsum
    change _ < _ + (3 + _)
    omega
  | destruct r =>
    cases ho : S.refs r with
    | none =>
      have hafter : ({ S with pending := rest } : LinkStore).runPending (.destruct r) = { S with pending := rest } := by
        unfold runPending
        dsimp only
        rw [ho]
      rw [hbefore, hafter, work_skip]
      change _ < _ + (2 + _)
      omega
    | some o =>
      have hafter : ({ S with pending := rest } : LinkStore).runPending (.destruct r) = { S with
          refs := Function.update S.refs r (some { o with items := [], parent := none })
          pending := destructor r o ++ rest } := by
        unfold runPending
        dsimp only
        rw [ho]
      have hsum := sum_work_update ho (hinv.fresh r o ho) (some { o with items := [], parent := none })
      have hwork := work_emptied o
      have hdestructor := work_destructor r o
      simp only [Option.elim_some] at hsum
      rw [hbefore, hafter]
      unfold work
      dsimp only
      rw [List.map_append, List.sum_append]
      change _ < _ + (2 + _)
      omega
  | objDescFree r =>
    cases hid : S.ownReferenceGetObjDescId r with
    | none =>
      have hafter : ({ S with pending := rest } : LinkStore).runPending (.objDescFree r) = { S with pending := rest } := by
        unfold runPending
        dsimp only
        rw [show ({ S with pending := rest } : LinkStore).ownReferenceGetObjDescId r = none from hid]
      rw [hbefore, hafter, work_skip]
      change _ < _ + (1 + _)
      omega
    | some d =>
      obtain ⟨o, ho, -⟩ := Option.bind_eq_some_iff.1 hid
      have hsum := sum_work_update ho (hinv.fresh r o ho) (some { o with objDesc := none })
      have hafter : (({ S with pending := rest } : LinkStore).runPending (.objDescFree r)).work =
          ∑ x ∈ Finset.range S.next, (Function.update S.refs r (some { o with objDesc := none }) x).elim 0 StoredRef.work +
            (rest.map Pending.work).sum := by
        unfold runPending
        dsimp only
        rw [show ({ S with pending := rest } : LinkStore).ownReferenceGetObjDescId r = some d from hid]
        unfold work modify modifyDesc
        simp only [ho, Option.map_some]
      have hwork : ({ o with objDesc := none } : StoredRef).work = o.work := rfl
      simp only [Option.elim_some] at hsum
      rw [hbefore, hafter]
      change _ < _ + (1 + _)
      omega
  | objectFree r =>
    have hafter : (({ S with pending := rest } : LinkStore).runPending (.objectFree r)).work =
        ∑ x ∈ Finset.range S.next, (Function.update S.refs r none x).elim 0 StoredRef.work + (rest.map Pending.work).sum := rfl
    have hle : ∑ x ∈ Finset.range S.next, (Function.update S.refs r none x).elim 0 StoredRef.work ≤
        ∑ x ∈ Finset.range S.next, (S.refs x).elim 0 StoredRef.work := by
      refine Finset.sum_le_sum fun x _ => ?_
      by_cases hx : x = r
      · rw [hx, Function.update_self]
        exact Nat.zero_le _
      · rw [Function.update_of_ne hx]
    rw [hbefore, hafter]
    change _ < _ + (1 + _)
    omega

/-! ### Runs -/

theorem step_proceed (hp : S.pending = p :: rest) :
    S.step .proceed = some (({ S with pending := rest } : LinkStore).runPending p) := by
  unfold step
  rw [hp]

theorem Inv.settles (hinv : S.Inv) :
    ∃ m ≤ S.work, ∃ S', exec LinkStore.step anyStep S (List.replicate m .proceed) = some S' ∧ S'.pending = [] := by
  induction hn : S.work using Nat.strong_induction_on generalizing S with
  | _ n ih =>
    cases hp : S.pending with
    | nil => exact ⟨0, Nat.zero_le _, S, rfl, hp⟩
    | cons p rest =>
      have hlt := work_runPending hinv hp
      obtain ⟨m, hm, S', hrun, hidle⟩ := ih _ (by omega) (hinv.runPending hp) rfl
      refine ⟨m + 1, by omega, S', ?_, hidle⟩
      rw [List.replicate_succ]
      unfold exec
      rw [step_proceed hp]
      exact hrun

/-- **A release ends**: in any state that a run of calls reaches, carrying on with what is left to do comes to an end, in no more
steps than the counts and what they are held by allow. -/
theorem settles_of_reach {numEntries : Nat} (h : Reach step (fun S c => S.HasRoom c ∧ S.KeepsLinks c) (init numEntries) S) :
    ∃ m ≤ S.work, ∃ S', exec step anyStep S (List.replicate m .proceed) = some S' ∧ S'.pending = [] :=
  (h.inv (inv_init numEntries) (fun _ _ _ hinv hc hs => hinv.step hc.1 hc.2 hs)).settles

/-- The calls that increment no count of what is there already. -/
def addsNoHold : LinkStore → LinkCall → Bool
  | _, .create .. | _, .dropItem .. | _, .release .. | _, .extendSupplementary _ | _, .proceed => true
  | _, _ => false

theorem meets_of_addsNoHold {c : LinkCall} (h : S.addsNoHold c = true) : (S.HasRoom c ∧ S.KeepsLinks c) ∧ S.AddsNew c := by
  have hroom : S.incremented c = [] → S.HasRoom c := fun hc r hr => by
    rw [hc] at hr
    exact absurd hr List.not_mem_nil
  cases c <;> first | exact ⟨⟨hroom rfl, trivial⟩, trivial⟩ | cases h

/-- The run that creates an image and its supplementary data, and releases the image. -/
def releasesImage : List LinkCall := [.create .image 0, .extendSupplementary 0, .release 0 .external]

theorem settles_of_reach_image : ∃ S, exec step addsNoHold (init 2) releasesImage = some S ∧
    ∃ m ≤ S.work, ∃ S', exec step anyStep S (List.replicate m .proceed) = some S' ∧ S'.pending = [] := by
  refine ⟨_, rfl, ?_⟩
  have hr : Reach step (fun S c => S.addsNoHold c = true) (init 2) _ := reach_of_exec releasesImage .start rfl
  exact settles_of_reach (hr.mono fun _ _ h => (meets_of_addsNoHold h).1)

theorem Tight.step {c : LinkCall} (hT : S.Tight) (hinv : S.Inv) (hroom : S.HasRoom c) (hkeeps : S.KeepsLinks c)
    (hnew : S.AddsNew c) (hs : S.step c = some S') : S'.Tight := by
  unfold LinkStore.step at hs
  split at hs
  · rename_i hidle
    exact hT.call hinv hidle hroom hkeeps hnew hs
  · rename_i p rest hp
    split at hs
    · obtain rfl := Option.some.inj hs
      exact hT.runPending hinv hp
    · cases hs

theorem points_live (hinv : S.Inv) {x y : Nat} (h : S.Points x y) : (S.refs y).isSome := by
  obtain ⟨k, hk, rfl⟩ := h
  unfold holds at hk
  cases hx : S.refs x with
  | none =>
    rw [hx] at hk
    cases hk
  | some o =>
    rw [hx] at hk
    obtain ⟨t, ht, -⟩ := hinv.live hx hk
    rw [ht]
    rfl

/-- A reference that is there is held from outside, or by another one. -/
theorem Tight.holder (hT : S.Tight) (hinv : S.Inv) (hidle : S.pending = []) (hr : S.refs r = some o) :
    (∃ k : Hold, 0 < S.handles k ∧ k.ref = r) ∨ ∃ x ∈ Finset.range S.next, S.Points x r := by
  have hlive := hinv.held_pos hidle hr
  rw [o.held_eq] at hlive
  obtain ⟨k, hk⟩ : ∃ k, 0 < o.countOf k := by
    by_cases hint : 0 < o.countOf .internal
    · exact ⟨_, hint⟩
    · exact ⟨.external, by omega⟩
  have hcounted : 0 < S.counted ⟨r, k⟩ := by
    unfold counted
    rw [hr]
    exact hk
  rcases hT.accounts.holder hcounted with howed | ⟨x, hx, hheld⟩
  · refine .inl ⟨⟨r, k⟩, ?_, rfl⟩
    unfold owed at howed
    rw [hidle] at howed
    exact howed
  · exact .inr ⟨x, hx, _, hheld, rfl⟩

theorem Tight.reached (hT : S.Tight) (hinv : S.Inv) (hidle : S.pending = []) (r : Nat) :
    (S.refs r).isSome ↔ ∃ k : Hold, 0 < S.handles k ∧ ReflTransGen S.Points k.ref r := by
  constructor
  · intro hr
    have hholder : ∀ x ∈ (Finset.range S.next).filter (fun x => (S.refs x).isSome), (∃ k : Hold, 0 < S.handles k ∧ k.ref = x) ∨
        ∃ y ∈ (Finset.range S.next).filter (fun x => (S.refs x).isSome), S.Points y x := by
      intro x hx
      obtain ⟨o, ho⟩ := Option.isSome_iff_exists.1 (Finset.mem_filter.1 hx).2
      refine (hT.holder hinv hidle ho).imp id ?_
      rintro ⟨y, hy, hyx⟩
      refine ⟨y, Finset.mem_filter.2 ⟨hy, ?_⟩, hyx⟩
      obtain ⟨k, hk, -⟩ := hyx
      unfold holds at hk
      cases hS : S.refs y with
      | none =>
        rw [hS] at hk
        cases hk
      | some z => rfl
    obtain ⟨o, ho⟩ := Option.isSome_iff_exists.1 hr
    have hmem : r ∈ (Finset.range S.next).filter (fun x => (S.refs x).isSome) :=
      Finset.mem_filter.2 ⟨Finset.mem_range.2 (hinv.fresh r o ho), hr⟩
    obtain ⟨y, ⟨k, hk, rfl⟩, hpath⟩ := reached_of_holders hT.acyclic hholder hmem
    exact ⟨k, hk, hpath⟩
  · rintro ⟨k, hk, hpath⟩
    have howed : 0 < S.owed k := Nat.lt_of_lt_of_le hk (Nat.le_add_right _ _)
    obtain ⟨t, ht, -⟩ := hinv.owed_live howed
    cases hpath.cases_tail with
    | inl heq => rw [heq, ht, Option.isSome_some]
    | inr htail =>
      obtain ⟨x, -, hx⟩ := htail
      exact points_live hinv hx

end LinkStore

end Tiovx
