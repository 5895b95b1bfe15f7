import Tiovx.LinkReleases
/-!
# LinkLeaks — what is not reached from outside is gone (`vx_reference.c`, `vx_obj_desc.c`)

Each count of a reference is owed to a holder outside, to a release that is left to do, or to another reference, and the
references lead in no circle.  So between calls a reference is there as long as a holder outside leads to it, and an entry of
the descriptor table is used as long as a reference has it.
-/
namespace Tiovx
open HolderCounts StepSystem Relation

namespace LinkStore

/-- Reference `x` holds a count of `y`. -/
def Points (S : LinkStore) (x y : Nat) : Prop := ∃ k ∈ S.holds x, k.ref = y

/-- What is done of a reference, or before it among what is left to do, when its object is freed. -/
structure LaidBefore (pre : List Pending) (r : Nat) (o : StoredRef) : Prop where
  noSupplement : o.supplementaryData = none
  emptied : .destruct r ∈ pre ∨ o.items = [] ∧ o.parent = none ∧ (.objDescFree r ∈ pre ∨ o.objDesc = none)

def Laid (S : LinkStore) : Prop :=
  ∀ pre r post o, S.pending = pre ++ .objectFree r :: post → S.refs r = some o → LaidBefore pre r o

/-- **Nothing is counted, used or left over without a holder.** -/
structure Tight (S : LinkStore) : Prop where
  accounts : Accounts (Finset.range S.next) S.holds S.owed S.counted
  acyclic : ∀ x, ¬ TransGen S.Points x x
  /-- The supplementary data of a parent is handed out with its own reference only. -/
  plain : ∀ r o, S.refs r = some o → o.type = .userDataObject → o.parent = none
  used : ∀ d, (S.table d).isUsed = true → ∃ r, S.ownReferenceGetObjDescId r = some d
  laid : S.Laid

variable {S S' : LinkStore} {r : Nat} {o o' : StoredRef} {p : Pending} {rest : List Pending}

theorem laid_idle (h : S.pending = []) : S.Laid := fun pre _ _ _ hp => by
  rw [h] at hp
  cases pre <;> cases hp

/-- Fewer edges lead in no circle either. -/
theorem Tight.acyclic_of_le (hT : S.Tight) (h : ∀ x y, S'.Points x y → S.Points x y) (x : Nat) : ¬ TransGen S'.Points x x :=
  fun hx => hT.acyclic x (TransGen.mono h x x hx)

namespace Replaces

/-- The counts have holders if what is held and owed of each shrinks by no more than the count. -/
theorem accounts (h : Replaces S S' r o o') (hinv : S.Inv) (hT : S.Tight)
    (hk : ∀ k, S.owed k + o.holds.count k + (if k.ref = r then o'.countOf k.kind else 0) ≤
      S'.owed k + o'.holds.count k + if k.ref = r then o.countOf k.kind else 0) :
    Accounts (Finset.range S'.next) S'.holds S'.owed S'.counted := by
  rw [h.next]
  refine hT.accounts.update (Finset.mem_range.2 (hinv.fresh r o h.ref)) (fun y hy => ?_) (fun k => ?_)
  · unfold holds
    rw [h.refs_ne hy]
  · rw [holds_of h.ref, holds_of h.refs_self]
    have hk := hk k
    unfold counted
    by_cases hr : k.ref = r
    · rw [if_pos hr, if_pos hr] at hk
      rw [hr, h.ref, h.refs_self]
      exact hk
    · rw [if_neg hr, if_neg hr] at hk
      rw [h.refs_ne hr]
      omega

theorem acyclic (h : Replaces S S' r o o') (hT : S.Tight)
    (hnew : ∀ k ∈ o'.holds, k ∈ o.holds ∨ ¬ ReflTransGen S.Points k.ref r) (x : Nat) : ¬ TransGen S'.Points x x := by
  refine acyclic_of_new (r := r) hT.acyclic (fun x y hxy => ?_) x
  obtain ⟨k, hk, rfl⟩ := hxy
  by_cases hxr : x = r
  · subst hxr
    rw [holds_of h.refs_self] at hk
    rcases hnew k hk with hold | hnot
    · exact .inl ⟨k, by rw [holds_of h.ref]; exact hold, rfl⟩
    · exact .inr ⟨rfl, hnot⟩
  · refine .inl ⟨k, ?_, rfl⟩
    unfold holds at hk ⊢
    rwa [h.refs_ne hxr] at hk

theorem tight (h : Replaces S S' r o o') (hinv : S.Inv) (hT : S.Tight)
    (hplain : o'.type = .userDataObject → o'.parent = none)
    (hk : ∀ k, S.owed k + o.holds.count k + (if k.ref = r then o'.countOf k.kind else 0) ≤
      S'.owed k + o'.holds.count k + if k.ref = r then o.countOf k.kind else 0)
    (hnew : ∀ k ∈ o'.holds, k ∈ o.holds ∨ ¬ ReflTransGen S.Points k.ref r) (hlaid : S'.Laid) : S'.Tight where
  accounts := h.accounts hinv hT hk
  acyclic := h.acyclic hT hnew
  plain := fun x y hx ht => by
    by_cases hxr : x = r
    · subst hxr
      obtain rfl := Option.some.inj (h.refs_self.symm.trans hx)
      exact hplain ht
    · rw [h.refs_ne hxr] at hx
      exact hT.plain x y hx ht
  used := fun d hd => by
    have hsame : (S'.table d).isUsed = (S.table d).isUsed := by
      by_cases hod : o.objDesc = some d
      · exact (h.entry d hod).1
      · rw [h.table d hod]
    rw [hsame] at hd
    obtain ⟨x, hx⟩ := hT.used d hd
    exact ⟨x, (h.objDescId x).trans hx⟩
  laid := hlaid

end Replaces

/-! ### Calls -/

theorem Tight.retain (hT : S.Tight) (hinv : S.Inv) (hidle : S.pending = []) (hr : S.refs r = some o)
    (hroom : o.held + 1 < 2 ^ 32) (k : CountKind) : (S.retain r k).Tight := by
  have hrep := replaces_retain hr k
  refine hrep.tight hinv hT (fun ht => ?_) (fun l => (balanced_retain S r hroom k l).ge)
    (fun l hl => .inl (by rwa [o.holds_increment] at hl)) (laid_idle hidle)
  have := hT.plain r o hr (by cases k <;> exact ht)
  cases k <;> exact this

theorem points_retain (S : LinkStore) (r : Nat) (k : CountKind) : (S.retain r k).Points = S.Points := by
  have hholds : ∀ x, (S.retain r k).holds x = S.holds x := by
    intro x
    unfold holds
    change (Function.update S.refs r ((S.refs r).map (·.ownIncrementReference k)) x).elim [] _ = _
    by_cases hx : x = r
    · subst hx
      rw [Function.update_self]
      cases S.refs x with
      | none => rfl
      | some o => exact o.holds_increment k
    · rw [Function.update_of_ne hx]
  unfold Points
  simp only [hholds]

theorem Retains.tight (h : Retains S r S') (hinv : S.Inv) (hT : S.Tight) (hidle : S.pending = []) :
    S'.Tight ∧ S'.pending = [] ∧ S'.Points = S.Points := by
  induction h with
  | refl => exact ⟨hT, hidle, rfl⟩
  | retain h ho hlive hroom k ih =>
    obtain ⟨hT, hidle, hpoints⟩ := ih
    exact ⟨hT.retain (h.inv hinv) hidle ho hroom k, hidle, (points_retain _ r k).trans hpoints⟩

/-- A container gets an element where it has none, and that does not lead to it. -/
theorem Tight.setItem {c d i e : Nat} {x : StoredRef} (hT : S.Tight) (hinv : S.Inv) (hidle : S.pending = [])
    (hc : S.refs c = some x) (hd : x.objDesc = some d) (hi : x.items[i]? = some none) (hpath : ¬ ReflTransGen S.Points r c)
    (hint : 0 < S.handles ⟨r, .internal⟩) (hext : 0 < S.handles ⟨r, .external⟩) : (S.setItem c d i r e).Tight := by
  have hnone : ∀ k, (itemHolds none).count k = 0 := fun _ => rfl
  refine (replaces_setItem hc hd i r e).tight hinv hT (hT.plain c x hc) (fun k => ?_) (fun k hk => ?_) (laid_idle hidle)
  · have hbalance := balance_setItem (c := c) hi hint hext d e k
    have hcount : ({ x with items := x.items.set i (some r) } : StoredRef).countOf k.kind = x.countOf k.kind := by
      cases k.kind <;> rfl
    rw [hnone] at hbalance
    rw [hcount]
    omega
  · -- what the container holds now is the element, or was held before
    by_cases hkr : k.ref = r
    · exact .inr (by rw [hkr]; exact hpath)
    · refine .inl (List.count_pos_iff.1 ?_)
      have hpos := List.count_pos_iff.2 hk
      have hset := count_holds_set hi (some r) k
      rw [hnone, count_itemHolds_some, if_neg (fun h => hkr (by rw [h])), if_neg (fun h => hkr (by rw [h]))] at hset
      omega

theorem Tight.ownAddRefToObjArray {c i : Nat} {isFromList : Bool} (hT : S.Tight) (hinv : S.Inv) (hidle : S.pending = [])
    (hheld : isFromList = true ∨ 0 < S.handles ⟨r, .external⟩)
    (hroom : ∀ o, S.refs r = some o → o.held + (if isFromList then 2 else 1) < 2 ^ 32)
    (hempty : ∀ x, S.refs c = some x → ∀ e, x.items[i]? ≠ some (some e)) (hpath : ¬ ReflTransGen S.Points r c)
    (hs : S.ownAddRefToObjArray c i r isFromList = some S') : S'.Tight := by
  obtain ⟨x, d, e, T, z, hx, hi, hret, hz, hd, hzi, -, -, hint, hext, rfl⟩ := addItem_cases hinv hidle hheld hroom hs
  have hnone : x.items[i]? = some none := by
    cases hxi : x.items[i] with
    | none => rw [List.getElem?_eq_getElem hi, hxi]
    | some e => exact absurd (by rw [List.getElem?_eq_getElem hi, hxi]) (hempty x hx e)
  obtain ⟨hT, hidle, hpoints⟩ := hret.tight hinv hT hidle
  rw [← hpoints] at hpath
  exact hT.setItem (hret.inv hinv) hidle hz hd (by rw [hzi]; exact hnone) hpath hint hext

theorem Tight.ownReleaseRefFromObjArray {c i : Nat} (hT : S.Tight) (hinv : S.Inv) (hidle : S.pending = [])
    (hs : S.ownReleaseRefFromObjArray c i = some S') : S'.Tight := by
  obtain ⟨x, hx, hs⟩ := Option.bind_eq_some_iff.1 hs
  obtain ⟨e, he, hs⟩ := Option.bind_eq_some_iff.1 hs
  obtain rfl := Option.some.inj hs
  have he := Option.join_eq_some_iff.1 he
  refine (replaces_dropItem hx i [.releaseItem e]).tight hinv hT (hT.plain c x hx) (fun k => (balanced_dropItem hidle he k).ge)
    (fun k hk => .inl (List.count_pos_iff.1 ?_)) (fun pre x post y hp => ?_)
  · have hpos := List.count_pos_iff.2 hk
    have hset := count_holds_set he none k
    have hnone : (itemHolds none).count k = 0 := rfl
    omega
  · cases pre with
    | nil => cases hp
    | cons q pre => cases pre <;> cases hp

/-- Nothing leads to a reference that is not there, and nothing from it. -/
theorem not_points_of_none (hinv : S.Inv) (hr : S.refs r = none) (x : Nat) : ¬ S.Points x r ∧ ¬ S.Points r x := by
  refine ⟨?_, ?_⟩
  · rintro ⟨k, hk, rfl⟩
    unfold holds at hk
    cases hx : S.refs x with
    | none =>
      rw [hx] at hk
      cases hk
    | some y =>
      rw [hx] at hk
      obtain ⟨z, hz, -⟩ := hinv.live hx hk
      rw [hr] at hz
      cases hz
  · rintro ⟨k, hk, -⟩
    unfold holds at hk
    rw [hr] at hk
    cases hk

namespace Created

variable {t : StoredType} {d : Nat}

theorem points_of (h : Created S S' t d) {x y : Nat} (hxy : S'.Points x y) : S.Points x y := by
  obtain ⟨k, hk, rfl⟩ := hxy
  by_cases hx : x = S.next
  · rw [hx, h.holds_new] at hk
    cases hk
  · unfold holds at hk
    rw [h.refs_ne hx] at hk
    exact ⟨k, hk, rfl⟩

theorem tight (h : Created S S' t d) (hinv : S.Inv) (hT : S.Tight) (hidle : S.pending = []) : S'.Tight where
  accounts := by
    rw [h.next, Finset.range_add_one]
    refine hT.accounts.insert Finset.notMem_range_self (fun x hx => ?_) (fun k => ?_)
    · unfold holds
      rw [h.refs_ne (Nat.ne_of_lt (Finset.mem_range.1 hx))]
    · have howed := h.owed_new k
      have hcounted := h.counted_new hinv k
      rw [h.holds_new, List.count_nil]
      omega
  acyclic := hT.acyclic_of_le fun _ _ => h.points_of
  plain := fun x y hx ht => by
    by_cases hxn : x = S.next
    · obtain ⟨n, hn⟩ := h.refs_new
      rw [hxn, hn] at hx
      obtain rfl := Option.some.inj hx
      rfl
    · rw [h.refs_ne hxn] at hx
      exact hT.plain x y hx ht
  used := fun e he => by
    by_cases hed : e = d
    · exact ⟨S.next, by rw [h.objDescId_new, hed]⟩
    · rw [h.table_ne hed] at he
      obtain ⟨x, hx⟩ := hT.used e he
      have hxn : x ≠ S.next := by
        rintro rfl
        unfold ownReferenceGetObjDescId at hx
        rw [refs_next hinv] at hx
        cases hx
      refine ⟨x, ?_⟩
      unfold ownReferenceGetObjDescId at hx ⊢
      rw [h.refs_ne hxn]
      exact hx
  laid := laid_idle (h.pending.trans hidle)

end Created

/-- What is held is what was held before, or the one count by which it has grown. -/
theorem mem_of_count {l l' : List Hold} {a k : Hold} (h : l'.count k = l.count k + if k = a then 1 else 0) (hk : k ∈ l') :
    k ∈ l ∨ k = a := by
  by_cases hka : k = a
  · exact .inr hka
  · rw [if_neg hka] at h
    exact .inl (List.count_pos_iff.1 (by have := List.count_pos_iff.2 hk; omega))

theorem Tight.linkParent {child image : Nat} {x y : StoredRef} (hT : S.Tight) (hinv : S.Inv) (hidle : S.pending = [])
    (hi : S.refs image = some y) (hroom : y.held + 1 < 2 ^ 32) (hc : S.refs child = some x) (hne : image ≠ child)
    (hparent : x.parent = none) (htype : x.type ≠ .userDataObject) (hpath : ¬ ReflTransGen S.Points image child) :
    (S.linkParent child image).Tight := by
  have h1 := hinv.retain hi (hinv.held_pos hidle hi) hroom .internal
  have hT1 := hT.retain hinv hidle hi hroom .internal
  refine (replaces_linkParent hc hne.symm).tight h1 hT1 (fun ht => absurd ht htype)
    (fun k => (balanced_linkParent hparent htype k).ge) (fun k hk => ?_) (laid_idle hidle)
  refine (mem_of_count (count_holds_linkParent hparent htype image k) hk).imp id ?_
  rintro rfl
  rwa [points_retain]

theorem Tight.attach {destination d s : Nat} {y z : StoredRef} (hT : S.Tight) (hinv : S.Inv) (hidle : S.pending = [])
    (hy : S.refs destination = some y) (hd : y.objDesc = some d) (hnone : y.supplementaryData = none) (hz : S.refs s = some z)
    (hne : destination ≠ s) (hheld : 0 < S.handles ⟨s, .external⟩) (hpath : ¬ ReflTransGen S.Points s destination) :
    (S.attach destination d s).Tight := by
  have hrep0 := replaces_owner hz destination
  have h0 := hinv.owner hidle hz destination
  have hT0 := hrep0.tight hinv hT (hT.plain s z hz) (fun k => Nat.le_refl _) (fun _ hk => .inl hk) (laid_idle hidle)
  have hpoints : ∀ a b, (S.modify s fun x => { x with owner := some destination }).Points a b → S.Points a b := by
    rintro a b ⟨k, hk, rfl⟩
    refine ⟨k, ?_, rfl⟩
    by_cases ha : a = s
    · subst ha
      rw [holds_of hrep0.refs_self] at hk
      rw [holds_of hz]
      exact hk
    · unfold holds at hk ⊢
      rwa [hrep0.refs_ne ha] at hk
  refine (replaces_attach hy hd hz hne).tight h0 hT0 (hT.plain destination y hy) (fun k => (balanced_attach hnone hheld k).ge)
    (fun k hk => ?_) (laid_idle hidle)
  refine (mem_of_count (count_holds_attach hnone s k) hk).imp id ?_
  rintro rfl
  exact fun h => hpath (ReflTransGen.mono hpoints s destination h)

theorem Tight.linksPart {image : Nat} (hT : S.Tight) (hinv : S.Inv) (hidle : S.pending = []) (hs : LinksPart S S' image) :
    S'.Tight := by
  obtain rfl | ⟨y, T, d, t, hy, hroom, ht, hC, rfl⟩ := hs
  · exact hT
  · obtain ⟨n, hn⟩ := hC.refs_new
    have hne := Nat.ne_of_lt (hinv.fresh image y hy)
    refine (hC.tight hinv hT hidle).linkParent (hC.inv hinv hidle) (hC.pending.trans hidle) (hC.refs_of hinv hy) hroom hn hne
      rfl ht (fun hpath => ?_)
    rcases ReflTransGen.cases_tail hpath with heq | ⟨z, -, hz⟩
    · exact hne heq.symm
    · exact (not_points_of_none hinv (refs_next hinv) z).1 (hC.points_of hz)

theorem Tight.extendSupplementary {destination : Nat} (hT : S.Tight) (hinv : S.Inv) (hidle : S.pending = [])
    (hs : S.vxExtendSupplementaryUserDataObject destination = some S') : S'.Tight := by
  obtain rfl | ⟨y, d, T, t, e, hy, hd, hnone, hC, rfl⟩ := extend_cases hs
  · exact hT
  · obtain ⟨n, hn⟩ := hC.refs_new
    have hne := Nat.ne_of_lt (hinv.fresh destination y hy)
    refine (hC.tight hinv hT hidle).attach (hC.inv hinv hidle) (hC.pending.trans hidle) (hC.refs_of hinv hy) hd hnone hn hne
      hC.handles_new (fun hpath => ?_)
    rcases ReflTransGen.cases_head hpath with heq | ⟨z, hz, -⟩
    · exact hne heq.symm
    · exact (not_points_of_none hinv (refs_next hinv) z).2 (hC.points_of hz)

theorem Tight.giveUp {k : CountKind} (hT : S.Tight) (hidle : S.pending = []) (hheld : 0 < S.handles ⟨r, k⟩) :
    ({ S.revoke ⟨r, k⟩ with pending := [.release r k] } : LinkStore).Tight where
  accounts := hT.accounts.owe (fun l => Nat.add_le_add_right (owed_giveUp hidle hheld l).ge _)
  acyclic := hT.acyclic
  plain := hT.plain
  used := hT.used
  laid := fun pre x post y hp => by
    cases pre with
    | nil => cases hp
    | cons q pre => cases pre <;> cases hp

/-- An element is added where the container has none, and does not lead to the container. -/
def AddsNew (S : LinkStore) : LinkCall → Prop
  | .addItem c i r _ => (∀ x, S.refs c = some x → ∀ e, x.items[i]? ≠ some (some e)) ∧ ¬ ReflTransGen S.Points r c
  | _ => True

/-- **A call leaves nothing without a holder.** -/
theorem Tight.call {c : LinkCall} (hT : S.Tight) (hinv : S.Inv) (hidle : S.pending = []) (hroom : S.HasRoom c)
    (hkeeps : S.KeepsLinks c) (hnew : S.AddsNew c) (hs : S.call c = some S') : S'.Tight := by
  cases c with
  | create type numItems =>
    obtain rfl := Option.some.inj hs
    cases hC : S.ownCreateReference type (if type.isContainer then numItems else 0) with
    | none => exact hT
    | some T =>
      obtain ⟨d, hC⟩ := created_of_create hC
      exact hC.tight hinv hT hidle
  | addItem c i r isFromList =>
    simp only [LinkStore.call] at hs
    split at hs
    · rename_i hheld
      simp only [Bool.or_eq_true, decide_eq_true_eq] at hheld
      refine hT.ownAddRefToObjArray hinv hidle hheld (fun o ho => ?_) hnew.1 hnew.2 hs
      have := hroom r (by cases isFromList <;> simp [incremented]) o ho
      cases isFromList <;> simpa [incremented] using this
    · cases hs
  | dropItem c i => exact hT.ownReleaseRefFromObjArray hinv hidle hs
  | getItem c i =>
    obtain ⟨r, hr, hs⟩ := Option.bind_eq_some_iff.1 hs
    obtain ⟨o, ho, hs⟩ := Option.bind_eq_some_iff.1 hs
    obtain rfl := Option.some.inj hs
    have := hroom r (by simp [incremented, hr]) o ho
    exact hT.retain hinv hidle ho (by simpa [incremented, hr] using this) .external
  | retain r k =>
    obtain ⟨o, ho, rfl⟩ := Option.map_eq_some_iff.1 hs
    have := hroom r (by simp [incremented]) o ho
    exact hT.retain hinv hidle ho (by simpa [incremented] using this) k
  | release r k =>
    simp only [LinkStore.call] at hs
    split at hs
    · obtain rfl := Option.some.inj hs
      exact hT.giveUp hidle ‹_›
    · cases hs
  | createImageFromROI image => exact hT.linksPart hinv hidle (linksPart_createImageFromROI hroom hs)
  | createTensorFromROI image => exact hT.linksPart hinv hidle (linksPart_createTensorFromROI hinv hidle hroom hkeeps hs)
  | extendSupplementary destination => exact hT.extendSupplementary hinv hidle hs
  | getSupplementary r isInKernel isInput =>
    obtain rfl := Option.some.inj hs
    unfold vxGetSupplementaryUserDataObject
    cases hsupp : S.supplementFor r isInKernel isInput with
    | none => exact hT
    | some s =>
      have hown : S.supplemented r isInKernel isInput = r ∨ isInKernel = true :=
        hkeeps.resolve_left (by rw [hsupp]; exact Option.some_ne_none s)
      dsimp only
      rw [if_pos hown]
      obtain ⟨x, hx, hxs⟩ := Option.bind_eq_some_iff.1 hsupp
      obtain ⟨t, ht, -⟩ := hinv.live hx (x.mem_holds_supp hxs)
      have := hroom s (by simp [incremented, hsupp]) t ht
      exact hT.retain hinv hidle ht (by simpa [incremented, hsupp] using this) .external
  | swap depth a b =>
    obtain rfl := Option.some.inj hs
    rw [swap_eq hkeeps]
    exact hT
  | proceed => cases hs

end LinkStore

end Tiovx
