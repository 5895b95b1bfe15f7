import Tiovx.DescriptorLinks
/-!
# LinkRuns — the links between references and descriptors, over runs of calls

No count is below the number of its holders: handles, containers, what is built on an image, the objects whose supplementary data it
is, and releases that are yet to be done.  So what a reference that lives points at lives, and their descriptors are theirs.
-/
namespace Tiovx
open HolderCounts

namespace StoredRef

def countOf (o : StoredRef) : CountKind → Nat
  | .internal => o.internalCount.toNat
  | .external => o.externalCount.toNat

/-- The counts of a reference; it lives as long as this is not zero. -/
def held (o : StoredRef) : Nat := o.internalCount.toNat + o.externalCount.toNat

theorem held_eq (o : StoredRef) : o.held = o.countOf .internal + o.countOf .external := rfl

theorem countOf_le_held (o : StoredRef) (k : CountKind) : o.countOf k ≤ o.held := by
  cases k with
  | internal => exact Nat.le_add_right _ _
  | external => exact Nat.le_add_left _ _

theorem countOf_increment {o : StoredRef} (h : o.held + 1 < 2 ^ 32) (k l : CountKind) :
    (o.ownIncrementReference k).countOf l = o.countOf l + if l = k then 1 else 0 := by
  unfold held at h
  have hone : (1 : UInt32).toNat = 1 := rfl
  cases k <;> cases l <;> simp only [ownIncrementReference, countOf, UInt32.toNat_add, hone, if_true, reduceCtorEq, if_false,
    Nat.add_zero]
  all_goals omega

theorem held_increment {o : StoredRef} (h : o.held + 1 < 2 ^ 32) (k : CountKind) :
    (o.ownIncrementReference k).held = o.held + 1 := by
  have hint := countOf_increment h k .internal
  have hext := countOf_increment h k .external
  rw [held_eq, held_eq]
  cases k with
  | internal =>
    rw [if_pos rfl] at hint
    rw [if_neg (by decide)] at hext
    omega
  | external =>
    rw [if_neg (by decide)] at hint
    rw [if_pos rfl] at hext
    omega

theorem countOf_decrement (o : StoredRef) (k l : CountKind) :
    (o.ownDecrementReference k).countOf l = o.countOf l - if l = k then 1 else 0 := by
  have hsub : ∀ n : UInt32, (if n = 0 then 0 else n - 1).toNat = n.toNat - 1 := by
    intro n
    split
    · rename_i h
      rw [h]
      rfl
    · rename_i h
      have hone : (1 : UInt32).toNat = 1 := rfl
      have hpos : 0 < n.toNat := Nat.pos_of_ne_zero (fun h0 => h (UInt32.toNat_inj.1 h0))
      rw [UInt32.toNat_sub_of_le _ _ (UInt32.le_iff_toNat_le.2 (by omega)), hone]
  cases k <;> cases l <;> simp only [ownDecrementReference, countOf, hsub, if_true, reduceCtorEq, if_false, Nat.sub_zero]

theorem held_decrement {o : StoredRef} {k : CountKind} (h : 0 < o.countOf k) :
    (o.ownDecrementReference k).held + 1 = o.held := by
  have hint := countOf_decrement o k .internal
  have hext := countOf_decrement o k .external
  rw [held_eq, held_eq]
  cases k with
  | internal =>
    rw [if_pos rfl] at hint
    rw [if_neg (by decide)] at hext
    omega
  | external =>
    rw [if_neg (by decide)] at hint
    rw [if_pos rfl] at hext
    omega

/-- Nothing is counted where the sum is zero, as it does not wrap around. -/
theorem count_eq_zero_iff {o : StoredRef} (h : o.held < 2 ^ 32) : o.count = 0 ↔ o.held = 0 := by
  unfold held at h
  have hsum : o.count.toNat = o.held := by
    unfold count held
    rw [UInt32.toNat_add]
    omega
  rw [← UInt32.toNat_inj, hsum]
  rfl

/-! ### What a reference points at -/

variable {o : StoredRef}

theorem mem_holds_supp {s : Nat} (h : o.supplementaryData = some s) : (⟨s, .external⟩ : Hold) ∈ o.holds := by
  unfold holds
  rw [h]
  simp

theorem mem_holds_item {i e : Nat} (h : o.items[i]? = some (some e)) : (⟨e, .external⟩ : Hold) ∈ o.holds := by
  unfold holds
  refine List.mem_append_left _ (List.mem_append_left _ (List.mem_flatMap.2 ⟨some e, List.mem_of_getElem? h, ?_⟩))
  simp [itemHolds]

end StoredRef

namespace Pending

/-- The reference that is destroyed in what is left to do. -/
def dying : Pending → Option Nat
  | destruct r | objDescFree r | objectFree r => some r
  | _ => none

@[simp] theorem holds_release (r : Nat) (k : CountKind) : (release r k).holds = [⟨r, k⟩] := rfl

@[simp] theorem holds_releaseItem (r : Nat) : (releaseItem r).holds = itemHolds (some r) := rfl

@[simp] theorem holds_destruct (r : Nat) : (destruct r).holds = [] := rfl

@[simp] theorem holds_objDescFree (r : Nat) : (objDescFree r).holds = [] := rfl

@[simp] theorem holds_objectFree (r : Nat) : (objectFree r).holds = [] := rfl

end Pending

namespace LinkStore

def IsLive (S : LinkStore) (r : Nat) : Prop := ∃ o, S.refs r = some o ∧ 0 < o.held

/-- The links of the reference `r` with the descriptor `d`. -/
structure Linked (S : LinkStore) (r : Nat) (o : StoredRef) (d : Nat) : Prop where
  handle : S.ownReferenceGetHandleFromObjDescId d = some r
  noSupplement : o.supplementaryData = none → (S.table d).suppDataId = none
  supplement : ∀ s, o.supplementaryData = some s →
    S.IsLive s ∧ ∃ id, (S.table d).suppDataId = some id ∧ S.ownReferenceGetHandleFromObjDescId id = some s
  items : ∀ i e : Nat, o.items[i]? = some (some e) →
    S.IsLive e ∧ ∃ id, S.ownReferenceGetObjDescId e = some id ∧ (S.table d).itemIds[i]? = some id

/-- The references that live are linked with their descriptors. -/
def Consistent (S : LinkStore) : Prop :=
  ∀ r o d, S.refs r = some o → 0 < o.held → o.objDesc = some d → S.Linked r o d

/-! ### The invariant -/

def holds (S : LinkStore) (r : Nat) : List Hold := (S.refs r).elim [] (·.holds)

/-- What is owed to holders outside, and to the releases that are left to do. -/
def owed (S : LinkStore) (h : Hold) : Nat := S.handles h + (S.pending.flatMap (·.holds)).count h

def counted (S : LinkStore) (h : Hold) : Nat := (S.refs h.ref).elim 0 (·.countOf h.kind)

/-- The descriptor `d` of a reference tells what the reference points at. -/
structure Tells (S : LinkStore) (o : StoredRef) (d : Nat) : Prop where
  noSupplement : o.supplementaryData = none → (S.table d).suppDataId = none
  supplement : ∀ s, o.supplementaryData = some s →
    ∃ id, S.ownReferenceGetObjDescId s = some id ∧ (S.table d).suppDataId = some id
  length : (S.table d).itemIds.length = o.items.length
  items : ∀ i e : Nat, o.items[i]? = some (some e) →
    ∃ id, S.ownReferenceGetObjDescId e = some id ∧ (S.table d).itemIds[i]? = some id

structure Inv (S : LinkStore) : Prop where
  fresh : ∀ r o, S.refs r = some o → r < S.next
  /-- A parent was created before what is built on it. -/
  older : ∀ r o p, S.refs r = some o → o.parent = some p → p < r
  /-- A descriptor belongs to one reference. -/
  owns : ∀ r o d, S.refs r = some o → o.objDesc = some d →
    d < S.numEntries ∧ (S.table d).isUsed = true ∧ (S.table d).hostRef = some r
  tells : ∀ r o, S.refs r = some o → 0 < o.held → ∃ d, o.objDesc = some d ∧ S.Tells o d
  covers : Covers (Finset.range S.next) S.holds S.owed S.counted
  /-- The counts do not wrap around. -/
  room : ∀ r o, S.refs r = some o → o.held < 2 ^ 32
  dying : ∀ p ∈ S.pending, ∀ r, p.dying = some r → ∀ o, S.refs r = some o → o.held = 0
  unheld : ∀ r o, S.refs r = some o → o.held = 0 → .objectFree r ∈ S.pending

theorem inv_init (numEntries : Nat) : (init numEntries).Inv where
  fresh := fun _ _ hr => by cases hr
  older := fun _ _ _ hr => by cases hr
  owns := fun _ _ _ hr => by cases hr
  tells := fun _ _ hr => by cases hr
  covers := fun _ => Nat.le_refl 0
  room := fun _ _ hr => by cases hr
  dying := fun _ hp => absurd hp List.not_mem_nil
  unheld := fun _ _ hr => by cases hr

namespace Inv

variable {S S' : LinkStore} {r : Nat} {o o' : StoredRef}

/-- What a reference holds lives. -/
theorem live (h : S.Inv) (hr : S.refs r = some o) {k : Hold} (hk : k ∈ o.holds) : S.IsLive k.ref := by
  have hpos := h.covers.pos (x := r) (Finset.mem_range.2 (h.fresh r o hr)) (k := k) (by unfold holds; rw [hr]; exact hk)
  unfold counted at hpos
  cases ht : S.refs k.ref with
  | none =>
    rw [ht] at hpos
    exact absurd hpos (Nat.lt_irrefl 0)
  | some t =>
    rw [ht] at hpos
    exact ⟨t, ht, lt_of_lt_of_le hpos (t.countOf_le_held _)⟩

theorem owed_live (h : S.Inv) {k : Hold} (hk : 0 < S.owed k) : ∃ t, S.refs k.ref = some t ∧ 0 < t.countOf k.kind := by
  have hpos := lt_of_lt_of_le hk (h.covers.owed_le k)
  unfold counted at hpos
  cases ht : S.refs k.ref with
  | none =>
    rw [ht] at hpos
    exact absurd hpos (Nat.lt_irrefl 0)
  | some t =>
    rw [ht] at hpos
    exact ⟨t, rfl, hpos⟩

/-- Two references do not share a descriptor. -/
theorem ne_desc (h : S.Inv) {x : Nat} {y : StoredRef} {d : Nat} (hx : S.refs x = some y) (hr : S.refs r = some o) (hne : x ≠ r)
    (hd : y.objDesc = some d) : o.objDesc ≠ some d := by
  intro hod
  have hone := (h.owns x y d hx hd).2.2
  have htwo := (h.owns r o d hr hod).2.2
  rw [hone] at htwo
  exact hne (Option.some.inj htwo)

theorem consistent (h : S.Inv) : S.Consistent := by
  intro r o d hr hlive hd
  obtain ⟨d', hd', ht⟩ := h.tells r o hr hlive
  obtain rfl : d = d' := Option.some.inj (hd.symm.trans hd')
  have hhandle : ∀ x y e, S.refs x = some y → y.objDesc = some e → S.ownReferenceGetHandleFromObjDescId e = some x := by
    intro x y e hx he
    obtain ⟨hlt, _, hhost⟩ := h.owns x y e hx he
    unfold ownReferenceGetHandleFromObjDescId
    rw [if_pos hlt, hhost]
  refine ⟨hhandle r o d hr hd, ht.noSupplement, fun s hs => ?_, fun i e he => ⟨h.live hr (o.mem_holds_item he), ht.items i e he⟩⟩
  refine ⟨h.live hr (o.mem_holds_supp hs), ?_⟩
  obtain ⟨id, hid, htable⟩ := ht.supplement s hs
  obtain ⟨y, hy, hyd⟩ := Option.bind_eq_some_iff.1 hid
  exact ⟨id, htable, hhandle s y id hy hyd⟩

/-- Between calls every reference lives. -/
theorem held_pos (h : S.Inv) (hidle : S.pending = []) (hr : S.refs r = some o) : 0 < o.held := by
  refine Nat.pos_of_ne_zero (fun h0 => ?_)
  have hmem := h.unheld r o hr h0
  rw [hidle] at hmem
  exact absurd hmem List.not_mem_nil

/-- The loop over the parents ends where it has found supplementary data, or has no parent to go on with. -/
theorem searchParents_ends (h : S.Inv) : ∀ (fuel x : Nat), x ≤ fuel → ∀ y, S.refs (S.searchParents fuel x) = some y →
    y.supplementaryData = none ∧ (y.type = .image ∨ y.type = .tensor) → y.parent = none
  | 0, x, hle, y, hy, _ => by
    cases hp : y.parent with
    | none => rfl
    | some p =>
      have hx : S.searchParents 0 x = x := rfl
      rw [hx] at hy
      have := h.older x y p hy hp
      omega
  | fuel + 1, x, hle, y, hy, hgo => by
    unfold searchParents at hy
    split at hy
    · rename_i z hz
      split at hy
      · split at hy
        · rename_i p hp
          have := h.older x z p hz hp
          exact h.searchParents_ends fuel p (by omega) y hy hgo
        · rename_i hp
          obtain rfl := Option.some.inj (hz.symm.trans hy)
          exact hp
      · rename_i hstop
        obtain rfl := Option.some.inj (hz.symm.trans hy)
        exact absurd hgo hstop
    · rename_i hz
      rw [hz] at hy
      cases hy

end Inv

/-! ### One reference changes -/

variable {S S' : LinkStore} {r : Nat} {o o' : StoredRef}

theorem Tells.congr {d : Nat} (h : S.Tells o d) (htable : S'.table d = S.table d)
    (hid : ∀ k ∈ o.holds, S'.ownReferenceGetObjDescId k.ref = S.ownReferenceGetObjDescId k.ref) : S'.Tells o d where
  noSupplement := by
    rw [htable]
    exact h.noSupplement
  supplement := fun s hs => by
    rw [htable, hid _ (o.mem_holds_supp hs)]
    exact h.supplement s hs
  length := by
    rw [htable]
    exact h.length
  items := fun i e he => by
    rw [htable, hid _ (o.mem_holds_item he)]
    exact h.items i e he

/-- The reference `r` changes, and what its descriptor tells of it. -/
structure Replaces (S S' : LinkStore) (r : Nat) (o o' : StoredRef) : Prop where
  ref : S.refs r = some o
  refs : S'.refs = Function.update S.refs r (some o')
  objDesc : o'.objDesc = o.objDesc
  numEntries : S'.numEntries = S.numEntries
  next : S'.next = S.next
  table : ∀ d, o.objDesc ≠ some d → S'.table d = S.table d
  entry : ∀ d, o.objDesc = some d → (S'.table d).isUsed = (S.table d).isUsed ∧ (S'.table d).hostRef = (S.table d).hostRef

namespace Replaces

theorem refs_self (h : Replaces S S' r o o') : S'.refs r = some o' := by rw [h.refs, Function.update_self]

theorem refs_ne (h : Replaces S S' r o o') {x : Nat} (hx : x ≠ r) : S'.refs x = S.refs x := by
  rw [h.refs, Function.update_of_ne hx]

theorem objDescId (h : Replaces S S' r o o') (x : Nat) : S'.ownReferenceGetObjDescId x = S.ownReferenceGetObjDescId x := by
  unfold ownReferenceGetObjDescId
  by_cases hx : x = r
  · rw [hx, h.refs_self, h.ref]
    exact h.objDesc
  · rw [h.refs_ne hx]

/-- The counts cover their holders if what is held and owed of each grows by no more than the count. -/
theorem covers (h : Replaces S S' r o o') (hinv : S.Inv)
    (hk : ∀ k, S'.owed k + o'.holds.count k + (if k.ref = r then o.countOf k.kind else 0) ≤
      S.owed k + o.holds.count k + if k.ref = r then o'.countOf k.kind else 0) :
    Covers (Finset.range S'.next) S'.holds S'.owed S'.counted := by
  have hself : S.holds r = o.holds := by
    unfold holds
    rw [h.ref]
    rfl
  have hself' : S'.holds r = o'.holds := by
    unfold holds
    rw [h.refs_self]
    rfl
  rw [h.next]
  refine hinv.covers.update (Finset.mem_range.2 (hinv.fresh r o h.ref)) (fun y hy => ?_) (fun k => ?_)
  · unfold holds
    rw [h.refs_ne hy]
  · rw [hself, hself']
    have hk := hk k
    unfold counted
    by_cases hr : k.ref = r
    · rw [if_pos hr, if_pos hr] at hk
      rw [hr, h.ref, h.refs_self]
      exact hk
    · rw [if_neg hr, if_neg hr] at hk
      rw [h.refs_ne hr]
      omega

/-- The invariant is kept where the descriptor tells of the changed reference what it points at. -/
theorem inv (h : Replaces S S' r o o') (hinv : S.Inv) (hparent : ∀ p, o'.parent = some p → o.parent = some p ∨ p < r)
    (hlive : 0 < o'.held → 0 < o.held)
    (htells : 0 < o'.held → ∀ d, o.objDesc = some d → S.Tells o d → S'.Tells o' d) (hroom : o'.held < 2 ^ 32)
    (hk : ∀ k, S'.owed k + o'.holds.count k + (if k.ref = r then o.countOf k.kind else 0) ≤
      S.owed k + o.holds.count k + if k.ref = r then o'.countOf k.kind else 0)
    (hdying : ∀ p ∈ S'.pending, ∀ x, p.dying = some x → ∀ y, S'.refs x = some y → y.held = 0)
    (hunheld : ∀ x y, S'.refs x = some y → y.held = 0 → .objectFree x ∈ S'.pending) : S'.Inv where
  fresh := fun x y hx => by
    rw [h.next]
    by_cases hxr : x = r
    · rw [hxr]
      exact hinv.fresh r o h.ref
    · rw [h.refs_ne hxr] at hx
      exact hinv.fresh x y hx
  older := fun x y p hx hp => by
    by_cases hxr : x = r
    · subst hxr
      obtain rfl := Option.some.inj (h.refs_self.symm.trans hx)
      exact (hparent p hp).elim (hinv.older x o p h.ref) id
    · rw [h.refs_ne hxr] at hx
      exact hinv.older x y p hx hp
  owns := fun x y d hx hd => by
    rw [h.numEntries]
    by_cases hxr : x = r
    · subst hxr
      obtain rfl := Option.some.inj (h.refs_self.symm.trans hx)
      have hod := h.objDesc.symm.trans hd
      rw [(h.entry d hod).1, (h.entry d hod).2]
      exact hinv.owns x o d h.ref hod
    · rw [h.refs_ne hxr] at hx
      rw [h.table d (hinv.ne_desc hx h.ref hxr hd)]
      exact hinv.owns x y d hx hd
  tells := fun x y hx hheld => by
    by_cases hxr : x = r
    · subst hxr
      obtain rfl := Option.some.inj (h.refs_self.symm.trans hx)
      obtain ⟨d, hd, ht⟩ := hinv.tells x o h.ref (hlive hheld)
      exact ⟨d, h.objDesc.trans hd, htells hheld d hd ht⟩
    · rw [h.refs_ne hxr] at hx
      obtain ⟨d, hd, ht⟩ := hinv.tells x y hx hheld
      exact ⟨d, hd, ht.congr (h.table d (hinv.ne_desc hx h.ref hxr hd)) (fun k _ => h.objDescId k.ref)⟩
  covers := h.covers hinv hk
  room := fun x y hx => by
    by_cases hxr : x = r
    · subst hxr
      obtain rfl := Option.some.inj (h.refs_self.symm.trans hx)
      exact hroom
    · rw [h.refs_ne hxr] at hx
      exact hinv.room x y hx
  dying := hdying
  unheld := hunheld

/-- What is about to be destroyed has no count, unless the changed reference had one and has lost it. -/
theorem dying (h : Replaces S S' r o o') (hinv : S.Inv) (hdead : 0 < o.held ∨ o'.held = 0) {q : Pending} (hq : q ∈ S.pending)
    {x : Nat} (hx : q.dying = some x) {y : StoredRef} (hy : S'.refs x = some y) : y.held = 0 := by
  by_cases hxr : x = r
  · subst hxr
    obtain rfl := Option.some.inj (h.refs_self.symm.trans hy)
    have := hinv.dying q hq x hx o h.ref
    omega
  · rw [h.refs_ne hxr] at hy
    exact hinv.dying q hq x hx y hy

theorem unheld (h : Replaces S S' r o o') (hinv : S.Inv) (hlive : 0 < o'.held ∨ o.held = 0) {x : Nat} {y : StoredRef}
    (hx : S'.refs x = some y) (h0 : y.held = 0) : .objectFree x ∈ S.pending := by
  by_cases hxr : x = r
  · subst hxr
    obtain rfl := Option.some.inj (h.refs_self.symm.trans hx)
    exact hinv.unheld x o h.ref (by omega)
  · rw [h.refs_ne hxr] at hx
    exact hinv.unheld x y hx h0

/-- A reference that goes on living changes, and nothing else is left to do than before. -/
theorem inv_live (h : Replaces S S' r o o') (hinv : S.Inv) (hpending : S'.pending = S.pending)
    (hparent : ∀ p, o'.parent = some p → o.parent = some p ∨ p < r) (hlive : 0 < o.held) (hlive' : 0 < o'.held)
    (htells : ∀ d, o.objDesc = some d → S.Tells o d → S'.Tells o' d) (hroom : o'.held < 2 ^ 32)
    (hk : ∀ k, S'.owed k + o'.holds.count k + (if k.ref = r then o.countOf k.kind else 0) ≤
      S.owed k + o.holds.count k + if k.ref = r then o'.countOf k.kind else 0) : S'.Inv := by
  refine h.inv hinv hparent (fun _ => hlive) (fun _ => htells) hroom hk (fun p hp x hx y hy => ?_) (fun x y hx h0 => ?_)
  · rw [hpending] at hp
    exact h.dying hinv (.inl hlive) hp hx hy
  · rw [hpending]
    exact h.unheld hinv (.inl hlive') hx h0

end Replaces

end LinkStore

end Tiovx
