import Tiovx.LinkCalls
/-!
# LinkReleases — what releases do to the links, and runs (`vx_reference.c`)

A release takes the count that is owed to it; the counts that a destroyed reference holds are owed to the releases its destructor
does.  So a reference is destroyed when nothing that lives points at it.
-/
namespace Tiovx
open HolderCounts StepSystem

theorem flatMap_releases (s : Option Nat) :
    (s.toList.map (Pending.release · .external)).flatMap (·.holds) = s.toList.map (⟨·, .external⟩ : Nat → Hold) := by
  cases s <;> rfl

/-- The destructor releases what the reference holds but its supplementary data, which is released before. -/
theorem count_destructor (r : Nat) (o : StoredRef) (k : Hold) :
    ((LinkStore.destructor r o).flatMap (·.holds)).count k =
      (o.items.flatMap itemHolds).count k + (o.parent.toList.map (⟨·, o.parentKind⟩)).count k := by
  have hitems : ∀ items : List (Option Nat),
      (items.filterMap (·.map Pending.releaseItem)).flatMap (·.holds) = items.flatMap itemHolds := by
    intro items
    induction items with
    | nil => rfl
    | cons x items ih =>
      cases x with
      | none => simpa [itemHolds] using ih
      | some e => simp [ih]
  unfold LinkStore.destructor
  rw [List.flatMap_append, List.count_append, hitems]
  congr 1
  cases hp : o.parent with
  | none => rfl
  | some p =>
    unfold StoredRef.parentKind
    by_cases ht : o.type = .userDataObject
    · simp [ht]
    · simp [ht]

theorem mem_destructor {r : Nat} {o : StoredRef} {p : Pending} (hp : p ∈ LinkStore.destructor r o) {x : Nat}
    (hx : p.dying = some x) : x = r := by
  unfold LinkStore.destructor at hp
  rcases List.mem_append.1 hp with hp | hp
  · obtain ⟨u, _, hu⟩ := List.mem_filterMap.1 hp
    obtain ⟨e, _, rfl⟩ := Option.map_eq_some_iff.1 hu
    cases hx
  · split at hp
    · rw [List.mem_singleton.1 hp] at hx
      exact (Option.some.inj hx).symm
    · split at hp
      · rw [List.mem_singleton.1 hp] at hx
        cases hx
      · rcases List.mem_cons.1 hp with rfl | hp
        · exact (Option.some.inj hx).symm
        · rw [List.mem_singleton.1 hp] at hx
          cases hx

namespace LinkStore

variable {S S' : LinkStore} {r : Nat} {o o' : StoredRef} {p : Pending} {rest : List Pending}

theorem owed_pending (S : LinkStore) (p : Pending) (rest : List Pending) (hp : S.pending = p :: rest) (k : Hold) :
    S.owed k = ({ S with pending := rest } : LinkStore).owed k + p.holds.count k := by
  unfold owed
  rw [hp, List.flatMap_cons, List.count_append]
  dsimp only
  omega

theorem mem_rest (hp : S.pending = p :: rest) {q : Pending} (hq : q ∈ S.pending) (hne : q ≠ p) : q ∈ rest := by
  rw [hp] at hq
  exact (List.mem_cons.1 hq).resolve_left hne

theorem mem_pending (hp : S.pending = p :: rest) {q : Pending} (hq : q ∈ rest) : q ∈ S.pending := by
  rw [hp]
  exact List.mem_cons_of_mem _ hq

/-- What holds nothing and frees nothing is done without effect. -/
theorem Inv.skip (h : S.Inv) (hp : S.pending = p :: rest) (hholds : p.holds = []) (hfree : ∀ x, p ≠ .objectFree x) :
    ({ S with pending := rest } : LinkStore).Inv where
  fresh := h.fresh
  older := h.older
  owns := h.owns
  tells := fun x y hx hheld => by
    obtain ⟨d, hd, ht⟩ := h.tells x y hx hheld
    exact ⟨d, hd, ht.congr rfl (fun _ _ => rfl)⟩
  covers := by
    refine h.covers.owe (fun k => ?_)
    have howed := S.owed_pending p rest hp k
    rw [hholds, List.count_nil] at howed
    rw [howed]
    exact Nat.le_refl _
  room := h.room
  dying := fun q hq => h.dying q (mem_pending hp hq)
  unheld := fun x y hx h0 => mem_rest hp (h.unheld x y hx h0) (hfree x).symm

/-- One count of `r` goes with the release that was owed. -/
theorem countOf_released {k : CountKind} (hpos : 0 < o.countOf k) (l : Hold) :
    (if l = ⟨r, k⟩ then 1 else 0) + (if l.ref = r then (o.ownDecrementReference k).countOf l.kind else 0) =
      if l.ref = r then o.countOf l.kind else 0 := by
  obtain ⟨x, j⟩ := l
  dsimp only
  by_cases hx : x = r
  · subst hx
    rw [if_pos rfl, if_pos rfl, StoredRef.countOf_decrement]
    by_cases hj : j = k
    · subst hj
      rw [if_pos rfl, if_pos rfl]
      omega
    · rw [if_neg (fun heq => hj (Hold.mk.inj heq).2), if_neg hj]
      omega
  · rw [if_neg (fun heq => hx (Hold.mk.inj heq).1), if_neg hx, if_neg hx]

theorem count_singleton_hold (a l : Hold) : ([a] : List Hold).count l = if l = a then 1 else 0 := by
  simp only [List.count_cons, List.count_nil, beq_iff_eq, eq_comm (a := l)]
  omega

/-! ### What a part of a release does -/

theorem replaces_decremented (ho : S.refs r = some o) (k : CountKind) (rest : List Pending) :
    Replaces S { S with pending := rest, refs := Function.update S.refs r (some (o.ownDecrementReference k)) } r o
      (o.ownDecrementReference k) :=
  ⟨ho, rfl, by cases k <;> rfl, rfl, rfl, fun _ _ => rfl, fun _ _ => ⟨rfl, rfl⟩⟩

theorem balanced_decremented {k : CountKind} (hp : S.pending = .release r k :: rest) (hpos : 0 < o.countOf k) :
    Balanced S { S with pending := rest, refs := Function.update S.refs r (some (o.ownDecrementReference k)) } r o
      (o.ownDecrementReference k) := fun l => by
  have hl := countOf_released (r := r) hpos l
  rw [S.owed_pending _ rest hp l, o.holds_decrement, Pending.holds_release, count_singleton_hold]
  show S.handles l + (rest.flatMap (·.holds)).count l + _ + _ = S.handles l + (rest.flatMap (·.holds)).count l + _ + _ + _
  omega

theorem replaces_destroy (ho : S.refs r = some o) (k : CountKind) (rest : List Pending) :
    Replaces S (({ S with pending := rest, refs := Function.update S.refs r (some (o.ownDecrementReference k)) } :
      LinkStore).destroy r (o.ownDecrementReference k)) r o { o.ownDecrementReference k with supplementaryData := none } := by
  refine ⟨ho, ?_, ?_, rfl, rfl, fun _ _ => rfl, fun _ _ => ⟨rfl, rfl⟩⟩
  · exact Function.update_idem ..
  · cases k <;> rfl

theorem count_holds_destroy (o : StoredRef) (k : CountKind) (l : Hold) :
    o.holds.count l = ({ o.ownDecrementReference k with supplementaryData := none } : StoredRef).holds.count l +
      (o.supplementaryData.toList.map (⟨·, .external⟩ : Nat → Hold)).count l := by
  have hsupp : o.supplementaryData = (o.ownDecrementReference k).supplementaryData := by cases k <;> rfl
  rw [(o.holds_decrement k).symm, hsupp]
  unfold StoredRef.holds StoredRef.parentKind
  simp only [List.count_append, Option.toList_none, List.map_nil, List.count_nil]
  omega

theorem balanced_destroy {k : CountKind} (hp : S.pending = .release r k :: rest) (hpos : 0 < o.countOf k) :
    Balanced S (({ S with pending := rest, refs := Function.update S.refs r (some (o.ownDecrementReference k)) } :
      LinkStore).destroy r (o.ownDecrementReference k)) r o { o.ownDecrementReference k with supplementaryData := none } := by
  intro l
  have howed' : (({ S with pending := rest, refs := Function.update S.refs r (some (o.ownDecrementReference k)) } :
      LinkStore).destroy r (o.ownDecrementReference k)).owed l =
        S.handles l + ((o.supplementaryData.toList.map (⟨·, .external⟩ : Nat → Hold)).count l +
          (rest.flatMap (·.holds)).count l) := by
    have hsame : (o.ownDecrementReference k).supplementaryData = o.supplementaryData := by cases k <;> rfl
    unfold LinkStore.owed LinkStore.destroy
    dsimp only
    rw [hsame, List.flatMap_append, List.count_append, flatMap_releases]
    simp
  have hl := countOf_released (r := r) hpos l
  have hcountOf : ({ o.ownDecrementReference k with supplementaryData := none } : StoredRef).countOf l.kind =
      (o.ownDecrementReference k).countOf l.kind := rfl
  rw [howed', S.owed_pending _ rest hp l, Pending.holds_release, count_singleton_hold, count_holds_destroy o k, hcountOf]
  show _ = S.handles l + (rest.flatMap (·.holds)).count l + _ + _ + _
  omega

theorem replaces_releaseItem (ho : S.refs r = some o) (rest : List Pending) :
    Replaces S (({ S with pending := rest } : LinkStore).runPending (.releaseItem r)) r o (o.ownDecrementReference .internal) := by
  refine ⟨ho, ?_, rfl, rfl, rfl, fun _ _ => rfl, fun _ _ => ⟨rfl, rfl⟩⟩
  show Function.update S.refs r ((S.refs r).map _) = _
  rw [ho]
  rfl

/-- The external count of the element is still owed. -/
theorem balanced_releaseItem (hp : S.pending = .releaseItem r :: rest) (hint : 0 < o.countOf .internal) :
    Balanced S (({ S with pending := rest } : LinkStore).runPending (.releaseItem r)) r o (o.ownDecrementReference .internal) := by
  intro l
  have howed : (({ S with pending := rest } : LinkStore).runPending (.releaseItem r)).owed l =
      ({ S with pending := rest } : LinkStore).owed l + if l = ⟨r, .external⟩ then 1 else 0 := by
    show S.handles l + ((Pending.release r .external :: rest).flatMap (·.holds)).count l =
      S.handles l + (rest.flatMap (·.holds)).count l + _
    rw [List.flatMap_cons, List.count_append, Pending.holds_release, count_singleton_hold]
    omega
  have hl := countOf_released (r := r) hint l
  rw [howed, S.owed_pending _ rest hp l, Pending.holds_releaseItem, count_itemHolds_some, o.holds_decrement]
  omega

theorem replaces_destruct (ho : S.refs r = some o) (rest : List Pending) : Replaces S { S with
    refs := Function.update S.refs r (some { o with items := [], parent := none })
    pending := LinkStore.destructor r o ++ rest } r o { o with items := [], parent := none } :=
  ⟨ho, rfl, rfl, rfl, rfl, fun _ _ => rfl, fun _ _ => ⟨rfl, rfl⟩⟩

theorem count_holds_destruct (o : StoredRef) (l : Hold) :
    o.holds.count l = ({ o with items := [], parent := none } : StoredRef).holds.count l +
      (o.items.flatMap itemHolds).count l + (o.parent.toList.map (⟨·, o.parentKind⟩)).count l := by
  unfold StoredRef.holds
  simp only [List.count_append, List.flatMap_nil, List.count_nil, Option.toList_none, List.map_nil]
  omega

theorem balanced_destruct (hp : S.pending = .destruct r :: rest) : Balanced S { S with
    refs := Function.update S.refs r (some { o with items := [], parent := none })
    pending := LinkStore.destructor r o ++ rest } r o { o with items := [], parent := none } := by
  refine balanced_of_holds (fun k => by cases k <;> rfl) (fun l => ?_)
  have hdestructor := count_destructor r o l
  rw [S.owed_pending _ rest hp l, Pending.holds_destruct, List.count_nil, count_holds_destruct o]
  unfold LinkStore.owed
  dsimp only
  rw [List.flatMap_append, List.count_append]
  omega

/-- A reference that only loses its descriptor holds and counts what it did. -/
theorem holds_dropDesc (ho : S.refs r = some o) (hself : S'.refs r = some { o with objDesc := none })
    (hother : ∀ x, x ≠ r → S'.refs x = S.refs x) : S'.holds = S.holds ∧ S'.counted = S.counted := by
  refine ⟨funext fun x => ?_, funext fun k => ?_⟩
  · by_cases hx : x = r
    · rw [hx, holds_of hself, holds_of ho]
      rfl
    · unfold holds
      rw [hother x hx]
  · unfold counted
    by_cases hx : k.ref = r
    · rw [hx, hself, ho]
      rfl
    · rw [hother _ hx]

theorem refs_dropDesc (ho : S.refs r = some o) (d : Nat) (rest : List Pending) :
    ((({ S with pending := rest } : LinkStore).modifyDesc d fun x => { x with isUsed := false }).modify r
      fun x => { x with objDesc := none }).refs r = some { o with objDesc := none } := by
  show Function.update S.refs r ((S.refs r).map _) r = _
  rw [Function.update_self, ho]
  rfl

/-- Nothing that is counted goes with an object that is freed. -/
theorem counted_objectFree (hdead : ∀ o, S.refs r = some o → o.held = 0) (rest : List Pending) :
    (({ S with pending := rest } : LinkStore).runPending (.objectFree r)).counted = S.counted := by
  have hself : (({ S with pending := rest } : LinkStore).runPending (.objectFree r)).refs r = none := Function.update_self ..
  funext k
  unfold counted
  by_cases hx : k.ref = r
  · rw [hx, hself]
    cases ho : S.refs r with
    | none => rfl
    | some o =>
      have := o.countOf_le_held k.kind
      have := hdead o ho
      show 0 = o.countOf k.kind
      omega
  · rw [show (({ S with pending := rest } : LinkStore).runPending (.objectFree r)).refs k.ref = S.refs k.ref from
      Function.update_of_ne hx _ _]

/-- `ownReleaseReferenceInt`. -/
theorem Inv.ownReleaseReferenceInt {k : CountKind} (h : S.Inv) (hp : S.pending = .release r k :: rest) :
    (({ S with pending := rest } : LinkStore).ownReleaseReferenceInt r k).Inv := by
  have hcount := fun l => S.owed_pending _ rest hp l
  obtain ⟨o, ho, hpos⟩ := h.owed_live (k := ⟨r, k⟩) (by rw [hcount]; simp)
  have hheld : (o.ownDecrementReference k).held + 1 = o.held := StoredRef.held_decrement hpos
  have hroom := h.room r o ho
  unfold LinkStore.ownReleaseReferenceInt
  rw [ho]
  dsimp only
  split
  · rename_i hzero
    have hheld0 := (StoredRef.count_eq_zero_iff (by omega)).1 hzero
    have hrep := replaces_destroy ho k rest
    have hdead : ({ o.ownDecrementReference k with supplementaryData := none } : StoredRef).held = 0 := hheld0
    refine hrep.inv h (fun p hp => .inl (by cases k <;> exact hp)) (fun hpos => by omega) (fun hpos => by omega) (by omega)
      (fun l => (balanced_destroy hp hpos l).le) (fun q hq x hx y hy => ?_) (fun x y hx h0 => ?_)
    · rcases List.mem_append.1 hq with hq | hq
      · obtain ⟨s, _, rfl⟩ := List.mem_map.1 hq
        cases hx
      · rcases List.mem_cons.1 hq with rfl | hq
        · obtain rfl := Option.some.inj hx
          obtain rfl := Option.some.inj (hrep.refs_self.symm.trans hy)
          exact hdead
        · rcases List.mem_cons.1 hq with rfl | hq
          · obtain rfl := Option.some.inj hx
            obtain rfl := Option.some.inj (hrep.refs_self.symm.trans hy)
            exact hdead
          · exact hrep.dying h (.inr hdead) (mem_pending hp hq) hx hy
    · by_cases hxr : x = r
      · rw [hxr]
        exact List.mem_append_right _ (List.mem_cons_of_mem _ List.mem_cons_self)
      · rw [hrep.refs_ne hxr] at hx
        have hmem := mem_rest hp (h.unheld x y hx h0) (fun heq => by cases heq)
        exact List.mem_append_right _ (List.mem_cons_of_mem _ (List.mem_cons_of_mem _ hmem))
  · rename_i hnonzero
    have hlive : (o.ownDecrementReference k).held ≠ 0 := fun h0 => hnonzero ((StoredRef.count_eq_zero_iff (by omega)).2 h0)
    have hrep := replaces_decremented ho k rest
    refine hrep.inv h (fun p hp => .inl (by cases k <;> exact hp)) (fun _ => by omega) (fun _ d _ ht => ?_) (by omega)
      (fun l => (balanced_decremented hp hpos l).le) (fun q hq x hx y hy => ?_) (fun x y hx h0 => ?_)
    · exact ht.of_same (by cases k <;> rfl) (by cases k <;> rfl) rfl hrep.objDescId
    · exact hrep.dying h (.inl (by omega)) (mem_pending hp hq) hx hy
    · exact mem_rest hp (hrep.unheld h (.inl (Nat.pos_of_ne_zero hlive)) hx h0) (fun heq => by cases heq)

/-- The internal count of an element is decremented, and its external count is still owed. -/
theorem Inv.releaseItem (h : S.Inv) (hp : S.pending = .releaseItem r :: rest) :
    (({ S with pending := rest } : LinkStore).runPending (.releaseItem r)).Inv := by
  have hcount := fun l => S.owed_pending _ rest hp l
  obtain ⟨o, ho, hint⟩ := h.owed_live (k := ⟨r, .internal⟩) (by rw [hcount]; simp [itemHolds])
  obtain ⟨o', ho', hext⟩ := h.owed_live (k := ⟨r, .external⟩) (by rw [hcount]; simp [itemHolds])
  obtain rfl := Option.some.inj (ho.symm.trans ho')
  have hheld : (o.ownDecrementReference .internal).held + 1 = o.held := StoredRef.held_decrement hint
  have hsum := o.held_eq
  have hroom := h.room r o ho
  have hrep := replaces_releaseItem ho rest
  dsimp only at hint hext
  refine hrep.inv h (fun _ => .inl) (fun _ => by omega) (fun _ d _ ht => ht.of_same rfl rfl rfl hrep.objDescId) (by omega)
    (fun l => (balanced_releaseItem hp hint l).le) (fun q hq x hx y hy => ?_) (fun x y hx h0 => ?_)
  · rcases List.mem_cons.1 hq with rfl | hq
    · cases hx
    · exact hrep.dying h (.inl (by omega)) (mem_pending hp hq) hx hy
  · exact List.mem_cons_of_mem _ (mem_rest hp (hrep.unheld h (.inl (by omega)) hx h0) (fun heq => by cases heq))

/-- What a destroyed reference holds is owed to the releases of its destructor. -/
theorem Inv.destruct (h : S.Inv) (hp : S.pending = .destruct r :: rest) :
    (({ S with pending := rest } : LinkStore).runPending (.destruct r)).Inv := by
  unfold runPending
  dsimp only
  cases ho : S.refs r with
  | none => exact h.skip hp rfl (fun x heq => by cases heq)
  | some o =>
    dsimp only
    have hdead : o.held = 0 := h.dying _ (by rw [hp]; exact List.mem_cons_self) r rfl o ho
    have hrep := replaces_destruct ho rest
    have hdead' : ({ o with items := [], parent := none } : StoredRef).held = 0 := hdead
    refine hrep.inv h (fun p hp => by cases hp) (fun _ => by omega) (fun _ => by omega) (by omega)
      (fun l => (balanced_destruct hp l).le) (fun q hq x hx y hy => ?_) (fun x y hx h0 => ?_)
    · rcases List.mem_append.1 hq with hq | hq
      · obtain rfl := mem_destructor hq hx
        obtain rfl := Option.some.inj (hrep.refs_self.symm.trans hy)
        exact hdead'
      · exact hrep.dying h (.inr hdead') (mem_pending hp hq) hx hy
    · exact List.mem_append_right _ (mem_rest hp (hrep.unheld h (.inr hdead) hx h0) (fun heq => by cases heq))

/-- A reference that nothing holds loses its descriptor, or goes. -/
theorem Inv.lay (h : S.Inv) (hdead : ∀ o, S.refs r = some o → o.held = 0) (hrefs : ∀ x, x ≠ r → S'.refs x = S.refs x)
    (hself : ∀ o', S'.refs r = some o' → ∃ o, S.refs r = some o ∧ o'.held = 0 ∧ o'.objDesc = none ∧ o'.parent = o.parent)
    (htable : ∀ d, S.ownReferenceGetObjDescId r ≠ some d → S'.table d = S.table d) (hentries : S'.numEntries = S.numEntries)
    (hnext : S'.next = S.next) (hcovers : Covers (Finset.range S.next) S'.holds S'.owed S'.counted)
    (hpending : ∀ q ∈ S'.pending, q ∈ S.pending)
    (hunheld : ∀ x y, S'.refs x = some y → y.held = 0 → .objectFree x ∈ S'.pending) : S'.Inv where
  fresh := fun x y hx => by
    rw [hnext]
    by_cases hxr : x = r
    · subst hxr
      obtain ⟨o, ho, _⟩ := hself y hx
      exact h.fresh x o ho
    · rw [hrefs x hxr] at hx
      exact h.fresh x y hx
  older := fun x y p hx hp => by
    by_cases hxr : x = r
    · subst hxr
      obtain ⟨o, ho, _, _, hparent⟩ := hself y hx
      exact h.older x o p ho (hparent.symm.trans hp)
    · rw [hrefs x hxr] at hx
      exact h.older x y p hx hp
  owns := fun x y d hx hd => by
    rw [hentries]
    by_cases hxr : x = r
    · subst hxr
      obtain ⟨o, _, _, hnone, _⟩ := hself y hx
      rw [hnone] at hd
      cases hd
    · rw [hrefs x hxr] at hx
      rw [htable d (fun hid => ?_)]
      · exact h.owns x y d hx hd
      · obtain ⟨o, ho, hod⟩ := Option.bind_eq_some_iff.1 hid
        exact h.ne_desc hx ho hxr hd hod
  tells := fun x y hx hheld => by
    by_cases hxr : x = r
    · subst hxr
      obtain ⟨o, _, hzero, _⟩ := hself y hx
      omega
    · rw [hrefs x hxr] at hx
      obtain ⟨d, hd, ht⟩ := h.tells x y hx hheld
      refine ⟨d, hd, ht.congr (htable d (fun hid => ?_)) (fun k hk => ?_)⟩
      · obtain ⟨o, ho, hod⟩ := Option.bind_eq_some_iff.1 hid
        exact h.ne_desc hx ho hxr hd hod
      · -- what is pointed at lives, so that it is not `r`
        obtain ⟨z, hz, hzlive⟩ := h.live hx hk
        unfold ownReferenceGetObjDescId
        rw [hrefs k.ref (fun heq => by rw [heq] at hz; have := hdead z hz; omega)]
  covers := by
    rw [hnext]
    exact hcovers
  room := fun x y hx => by
    by_cases hxr : x = r
    · subst hxr
      obtain ⟨o, _, hzero, _⟩ := hself y hx
      omega
    · rw [hrefs x hxr] at hx
      exact h.room x y hx
  dying := fun q hq x hx y hy => by
    by_cases hxr : x = r
    · subst hxr
      obtain ⟨o, _, hzero, _⟩ := hself y hy
      exact hzero
    · rw [hrefs x hxr] at hy
      exact h.dying q (hpending q hq) x hx y hy
  unheld := hunheld

theorem Inv.objDescFree (h : S.Inv) (hp : S.pending = .objDescFree r :: rest) :
    (({ S with pending := rest } : LinkStore).runPending (.objDescFree r)).Inv := by
  have hskip := h.skip hp rfl (fun x heq => by cases heq)
  unfold runPending
  dsimp only
  split
  · exact hskip
  · rename_i d hid
    obtain ⟨o, ho, hd⟩ := Option.bind_eq_some_iff.1 hid
    have ho : S.refs r = some o := ho
    have hdead : o.held = 0 := h.dying _ (by rw [hp]; exact List.mem_cons_self) r rfl o ho
    have hself := refs_dropDesc ho d rest
    have hother : ∀ x, x ≠ r → ((({ S with pending := rest } : LinkStore).modifyDesc d
        fun x => { x with isUsed := false }).modify r fun x => { x with objDesc := none }).refs x = S.refs x :=
      fun x hx => Function.update_of_ne hx _ _
    refine hskip.lay (fun o' ho' => ?_) hother (fun o' ho' => ?_) (fun e he => ?_) rfl rfl ?_ (fun q hq => hq)
      (fun x y hx h0 => ?_)
    · obtain rfl := Option.some.inj (ho.symm.trans ho')
      exact hdead
    · obtain rfl := Option.some.inj (hself.symm.trans ho')
      exact ⟨o, ho, hdead, rfl, rfl⟩
    · exact Function.update_of_ne (fun heq => he (by rw [hid, heq])) _ _
    · obtain ⟨hholds, hcounted⟩ := holds_dropDesc ho hself hother
      rw [hholds, hcounted]
      exact hskip.covers
    · by_cases hxr : x = r
      · rw [hxr]
        exact hskip.unheld r o ho hdead
      · rw [hother x hxr] at hx
        exact hskip.unheld x y hx h0

theorem Inv.objectFree (h : S.Inv) (hp : S.pending = .objectFree r :: rest) :
    (({ S with pending := rest } : LinkStore).runPending (.objectFree r)).Inv := by
  have hdead : ∀ o, S.refs r = some o → o.held = 0 := h.dying _ (by rw [hp]; exact List.mem_cons_self) r rfl
  have hself : (({ S with pending := rest } : LinkStore).runPending (.objectFree r)).refs r = none := Function.update_self ..
  have hother : ∀ x, x ≠ r → (({ S with pending := rest } : LinkStore).runPending (.objectFree r)).refs x = S.refs x :=
    fun x hx => Function.update_of_ne hx _ _
  have howed : ∀ k, (({ S with pending := rest } : LinkStore).runPending (.objectFree r)).owed k = S.owed k := by
    intro k
    rw [S.owed_pending _ rest hp k, Pending.holds_objectFree, List.count_nil]
    rfl
  refine h.lay hdead hother (fun o' ho' => ?_) (fun _ _ => rfl) rfl rfl (fun k => ?_)
    (fun q hq => mem_pending hp hq) (fun x y hx h0 => ?_)
  · rw [hself] at ho'
    cases ho'
  · have hle := h.covers k
    have hsum : ∑ x ∈ Finset.range S.next,
        ((({ S with pending := rest } : LinkStore).runPending (.objectFree r)).holds x).count k ≤
          ∑ x ∈ Finset.range S.next, (S.holds x).count k := by
      refine Finset.sum_le_sum (fun x _ => ?_)
      unfold holds
      by_cases hx : x = r
      · rw [hx, hself]
        exact Nat.zero_le _
      · rw [hother x hx]
    rw [howed, counted_objectFree hdead]
    omega
  · have hxr : x ≠ r := by
      rintro rfl
      rw [hself] at hx
      cases hx
    rw [hother x hxr] at hx
    exact mem_rest hp (h.unheld x y hx h0) (fun heq => hxr (Pending.objectFree.inj heq))

/-- What a release has left to do keeps the invariant. -/
theorem Inv.runPending (h : S.Inv) (hp : S.pending = p :: rest) : (({ S with pending := rest } : LinkStore).runPending p).Inv := by
  cases p with
  | release r k => exact h.ownReleaseReferenceInt hp
  | releaseItem r => exact h.releaseItem hp
  | destruct r => exact h.destruct hp
  | objDescFree r => exact h.objDescFree hp
  | objectFree r => exact h.objectFree hp

/-! ### Runs -/

theorem Inv.step {c : LinkCall} (h : S.Inv) (hroom : S.HasRoom c) (hkeeps : S.KeepsLinks c) (hs : S.step c = some S') :
    S'.Inv := by
  unfold LinkStore.step at hs
  split at hs
  · rename_i hidle
    exact h.call hidle hroom hkeeps hs
  · rename_i p rest hp
    split at hs
    · obtain rfl := Option.some.inj hs
      exact h.runPending hp
    · cases hs

/-- **In every run whose calls meet the condition, references and descriptors stay linked**: the descriptor of a reference leads
back to it, its supplementary data and its elements are those that its descriptor names. -/
theorem consistent_of_reach {numEntries : Nat}
    (h : Reach step (fun S c => S.HasRoom c ∧ S.KeepsLinks c) (init numEntries) S) : S.Consistent :=
  (h.inv (inv_init numEntries) (fun _ _ _ hinv hc hs => hinv.step hc.1 hc.2 hs)).consistent

/-- In the run that creates an image and its supplementary data. -/
theorem consistent_of_reach_image :
    ((exec step anyStep (init 2) [.create .image 0, .extendSupplementary 0]).getD (init 2)).Consistent := by
  have hroom : ∀ S : LinkStore, ∀ c, S.incremented c = [] → S.HasRoom c := fun S c hc r hr => by
    rw [hc] at hr
    exact absurd hr List.not_mem_nil
  have hcreate : Reach step (fun S c => S.HasRoom c ∧ S.KeepsLinks c) (init 2) _ :=
    .next (a := LinkCall.create .image 0) .start ⟨hroom _ _ rfl, trivial⟩ rfl
  exact consistent_of_reach (hcreate.next (a := LinkCall.extendSupplementary 0) ⟨hroom _ _ rfl, trivial⟩ rfl)

/-- Two tensors are swapped, and the descriptor of the first leads to the second. -/
def swapsTensors : List LinkCall := [.create .tensor 0, .create .tensor 0, .swap 1 0 1]

/-- A tensor of an image with supplementary data is released, and that data with it. -/
def releasesTensor : List LinkCall :=
  [.create .image 0, .extendSupplementary 0, .createTensorFromROI 0, .release 2 .external] ++ List.replicate 9 .proceed

/-- The supplementary data of an image is handed out for a part of it. -/
def handsOutSupplement : List LinkCall :=
  [.create .image 0, .extendSupplementary 0, .createImageFromROI 0, .getSupplementary 2 false false]

theorem links_lost :
    (∃ S, exec step anyStep (init 2) swapsTensors = some S ∧ ¬ S.Consistent) ∧
      (∃ S, exec step anyStep (init 3) releasesTensor = some S ∧ ¬ S.Consistent) ∧
        ∃ S, exec step anyStep (init 3) handsOutSupplement = some S ∧ ¬ S.Consistent := by
  refine ⟨⟨_, rfl, fun hc => ?_⟩, ⟨_, rfl, fun hc => ?_⟩, ⟨_, rfl, fun hc => ?_⟩⟩
  · have := (hc 0 { type := .tensor, externalCount := 1, objDesc := some 1 } 1 rfl (by decide) rfl).handle
    cases this
  · obtain ⟨o, ho, _⟩ := ((hc 0 { type := .image, externalCount := 1, objDesc := some 0, supplementaryData := some 1 } 0 rfl
      (by decide) rfl).supplement 1 rfl).1
    cases ho
  · have := (hc 3 { type := .userDataObject, externalCount := 1, objDesc := some 1, parent := some 1, owner := some 2 } 1 rfl
      (by decide) rfl).handle
    cases this

end LinkStore

end Tiovx
