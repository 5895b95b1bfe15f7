import Tiovx.LinkRuns
/-!
# LinkCalls — what calls do to the links (`vx_reference.c`, `vx_objarray.c`, `vx_image.c`, `vx_tensor.c`)

Every call but three keeps the links: the swap of two tensors, the tensor of a part of an image with supplementary data, and the
supplementary data of a parent that is handed out with the parent's descriptor.
-/
namespace Tiovx
open HolderCounts StepSystem

theorem count_itemHolds_set {items : List (Option Nat)} {i : Nat} {u : Option Nat} (h : items[i]? = some u) (v : Option Nat)
    (k : Hold) :
    ((items.set i v).flatMap itemHolds).count k + (itemHolds u).count k =
      (items.flatMap itemHolds).count k + (itemHolds v).count k := by
  induction items generalizing i with
  | nil => cases h
  | cons w items ih =>
    cases i with
    | zero =>
      obtain rfl := Option.some.inj h
      simp only [List.set_cons_zero, List.flatMap_cons, List.count_append]
      omega
    | succ i =>
      have := ih (i := i) h
      simp only [List.set_cons_succ, List.flatMap_cons, List.count_append]
      omega

namespace StoredRef

theorem holds_increment (o : StoredRef) (k : CountKind) : (o.ownIncrementReference k).holds = o.holds := by
  cases k <;> rfl

theorem holds_decrement (o : StoredRef) (k : CountKind) : (o.ownDecrementReference k).holds = o.holds := by
  cases k <;> rfl

theorem objDesc_increment (o : StoredRef) (k : CountKind) : (o.ownIncrementReference k).objDesc = o.objDesc := by
  cases k <;> rfl

theorem items_increment (o : StoredRef) (k : CountKind) : (o.ownIncrementReference k).items = o.items := by
  cases k <;> rfl

end StoredRef

namespace LinkStore

variable {S S' : LinkStore} {r : Nat} {o o' : StoredRef}

/-- A descriptor tells of two references the same that point at the same. -/
theorem Tells.of_same {d : Nat} (h : S.Tells o d) (hsupp : o'.supplementaryData = o.supplementaryData)
    (hitems : o'.items = o.items) (htable : S'.table d = S.table d)
    (hid : ∀ x, S'.ownReferenceGetObjDescId x = S.ownReferenceGetObjDescId x) : S'.Tells o' d := by
  have h' := h.congr htable (fun k _ => hid k.ref)
  exact ⟨by rw [hsupp]; exact h'.noSupplement, by rw [hsupp]; exact h'.supplement, by rw [hitems]; exact h'.length,
    by rw [hitems]; exact h'.items⟩

/-! ### What is owed -/

/-- What is owed and held with `o'` at `r` is what was with `o`, but for what they count themselves. -/
def Balanced (S S' : LinkStore) (r : Nat) (o o' : StoredRef) : Prop :=
  ∀ k, S'.owed k + o'.holds.count k + (if k.ref = r then o.countOf k.kind else 0) =
    S.owed k + o.holds.count k + if k.ref = r then o'.countOf k.kind else 0

theorem balanced_of_holds (hcount : ∀ k, o'.countOf k = o.countOf k)
    (h : ∀ k, S'.owed k + o'.holds.count k = S.owed k + o.holds.count k) : Balanced S S' r o o' := fun k => by
  rw [hcount, h]

theorem owed_grant (S : LinkStore) (h k : Hold) : (S.grant h).owed k = S.owed k + if k = h then 1 else 0 := by
  have hupdate : (S.grant h).handles k = S.handles k + if k = h then 1 else 0 := by
    show Function.update S.handles h (S.handles h + 1) k = _
    rw [Function.update_apply]
    split
    · rename_i heq
      rw [heq]
    · rfl
  unfold owed
  rw [hupdate]
  show S.handles k + _ + (S.pending.flatMap (·.holds)).count k = _
  omega

theorem owed_revoke {h : Hold} (hpos : 0 < S.handles h) (k : Hold) :
    (S.revoke h).owed k + (if k = h then 1 else 0) = S.owed k := by
  have hupdate : (S.revoke h).handles k + (if k = h then 1 else 0) = S.handles k := by
    show Function.update S.handles h (S.handles h - 1) k + _ = _
    rw [Function.update_apply]
    split
    · rename_i heq
      rw [heq]
      omega
    · rfl
  unfold owed
  rw [← hupdate]
  show (S.revoke h).handles k + (S.pending.flatMap (·.holds)).count k + _ = _
  omega

/-! ### Retaining -/

theorem refs_retain (S : LinkStore) (r : Nat) (k : CountKind) (hr : S.refs r = some o) :
    (S.retain r k).refs r = some (o.ownIncrementReference k) := by
  show Function.update S.refs r ((S.refs r).map _) r = _
  rw [Function.update_self, hr]
  rfl

theorem replaces_retain (hr : S.refs r = some o) (k : CountKind) :
    Replaces S (S.retain r k) r o (o.ownIncrementReference k) where
  ref := hr
  refs := by
    show Function.update S.refs r ((S.refs r).map _) = _
    rw [hr]
    rfl
  objDesc := o.objDesc_increment k
  numEntries := rfl
  next := rfl
  table := fun _ _ => rfl
  entry := fun _ _ => ⟨rfl, rfl⟩

theorem balanced_retain (S : LinkStore) (r : Nat) (hroom : o.held + 1 < 2 ^ 32) (k : CountKind) :
    Balanced S (S.retain r k) r o (o.ownIncrementReference k) := fun l => by
  have howed : (S.retain r k).owed l = S.owed l + if l = ⟨r, k⟩ then 1 else 0 := owed_grant (S.modify r _) ⟨r, k⟩ l
  rw [howed, o.holds_increment, StoredRef.countOf_increment hroom]
  obtain ⟨x, j⟩ := l
  by_cases hx : x = r
  · simp only [hx, Hold.mk.injEq, true_and, if_true]
    omega
  · simp only [Hold.mk.injEq, hx, false_and, if_false]
    omega

theorem Inv.retain (h : S.Inv) (hr : S.refs r = some o) (hlive : 0 < o.held) (hroom : o.held + 1 < 2 ^ 32) (k : CountKind) :
    (S.retain r k).Inv := by
  have hrep := replaces_retain hr k
  have hheld := StoredRef.held_increment hroom k
  refine hrep.inv_live h rfl (fun p hp => .inl (by cases k <;> exact hp)) hlive (by omega) (fun d _ ht => ?_) (by omega)
    (fun l => (balanced_retain S r hroom k l).le)
  exact ht.of_same (by cases k <;> rfl) (o.items_increment k) rfl hrep.objDescId

/-! ### Containers -/

theorem replaces_setItem {c d : Nat} {x : StoredRef} (hc : S.refs c = some x) (hd : x.objDesc = some d) (i r e : Nat) :
    Replaces S (S.setItem c d i r e) c x { x with items := x.items.set i (some r) } := by
  refine ⟨hc, ?_, rfl, rfl, rfl, fun d' hne => ?_, fun d' hd' => ?_⟩
  · show Function.update S.refs c ((S.refs c).map _) = _
    rw [hc]
    rfl
  · exact Function.update_of_ne (fun heq => hne (by rw [hd, heq])) _ _
  · obtain rfl := Option.some.inj (hd.symm.trans hd')
    show (Function.update S.table d _ d).isUsed = _ ∧ (Function.update S.table d _ d).hostRef = _
    rw [Function.update_self]
    exact ⟨rfl, rfl⟩

theorem count_itemHolds_some (r : Nat) (k : Hold) : (itemHolds (some r)).count k =
    (if k = ⟨r, .internal⟩ then 1 else 0) + if k = ⟨r, .external⟩ then 1 else 0 := by
  simp only [itemHolds, List.count_cons, List.count_nil, beq_iff_eq, eq_comm (a := k)]
  omega

/-- What a container holds with another item. -/
theorem count_holds_set {x : StoredRef} {i : Nat} {u : Option Nat} (hi : x.items[i]? = some u) (v : Option Nat) (k : Hold) :
    ({ x with items := x.items.set i v } : StoredRef).holds.count k + (itemHolds u).count k =
      x.holds.count k + (itemHolds v).count k := by
  have hset := count_itemHolds_set hi v k
  unfold StoredRef.holds
  simp only [List.count_append]
  unfold StoredRef.parentKind
  dsimp only
  omega

/-- The two counts of the element are no longer owed to the caller but to the container. -/
theorem balance_setItem {c i : Nat} {x : StoredRef} {u : Option Nat} (hi : x.items[i]? = some u)
    (hint : 0 < S.handles ⟨r, .internal⟩) (hext : 0 < S.handles ⟨r, .external⟩) (d e : Nat) (k : Hold) :
    (S.setItem c d i r e).owed k + ({ x with items := x.items.set i (some r) } : StoredRef).holds.count k +
      (itemHolds u).count k = S.owed k + x.holds.count k := by
  have hinner : 0 < (((S.modify c fun x => { x with items := x.items.set i (some r) }).modifyDesc d
      fun x => { x with itemIds := x.itemIds.set i e }).revoke ⟨r, .internal⟩).handles ⟨r, .external⟩ := by
    show 0 < Function.update S.handles _ _ _
    rw [Function.update_of_ne (fun heq => by cases heq)]
    exact hext
  have hone := owed_revoke hinner k
  have htwo := owed_revoke (S := (S.modify c fun x => { x with items := x.items.set i (some r) }).modifyDesc d
      fun x => { x with itemIds := x.itemIds.set i e }) hint k
  have hsame : ((S.modify c fun x => { x with items := x.items.set i (some r) }).modifyDesc d
      fun x => { x with itemIds := x.itemIds.set i e }).owed k = S.owed k := rfl
  have hset := count_holds_set hi (some r) k
  rw [count_itemHolds_some] at hset
  rw [hsame] at htwo
  show ((((S.modify c _).modifyDesc d _).revoke _).revoke _).owed k + _ + _ = _
  omega

/-- A container gets an element that is held for it. -/
theorem Inv.setItem {c d i e : Nat} {x : StoredRef} (h : S.Inv) (hc : S.refs c = some x) (hd : x.objDesc = some d)
    (hlive : 0 < x.held) (hi : i < x.items.length) (he : S.ownReferenceGetObjDescId r = some e)
    (hint : 0 < S.handles ⟨r, .internal⟩) (hext : 0 < S.handles ⟨r, .external⟩) : (S.setItem c d i r e).Inv := by
  have hrep := replaces_setItem hc hd i r e
  have htable : (S.setItem c d i r e).table d = { S.table d with itemIds := (S.table d).itemIds.set i e } :=
    Function.update_self ..
  refine hrep.inv_live h rfl (fun _ => .inl) hlive hlive (fun d' hd' ht => ?_) (h.room c x hc) (fun k => ?_)
  · obtain rfl := Option.some.inj (hd.symm.trans hd')
    refine ⟨?_, fun s hs => ?_, ?_, fun j f hf => ?_⟩
    · rw [htable]
      exact ht.noSupplement
    · rw [htable, hrep.objDescId]
      exact ht.supplement s hs
    · rw [htable]
      simpa using ht.length
    · rw [htable, hrep.objDescId]
      dsimp only at hf ⊢
      rw [List.getElem?_set] at hf ⊢
      split at hf
      · rename_i hij
        obtain rfl := Option.some.inj (Option.some.inj hf)
        refine ⟨e, he, ?_⟩
        rw [if_pos hij, if_pos (by rw [ht.length]; exact hi)]
      · rename_i hij
        rw [if_neg hij]
        exact ht.items j f hf
  · have hbalance := balance_setItem (c := c) (List.getElem?_eq_getElem hi) hint hext d e k
    have hcount : ({ x with items := x.items.set i (some r) } : StoredRef).countOf k.kind = x.countOf k.kind := by
      cases k.kind <;> rfl
    rw [hcount]
    omega

theorem handles_retain (S : LinkStore) (r : Nat) (k : CountKind) : 0 < (S.retain r k).handles ⟨r, k⟩ := by
  show 0 < Function.update S.handles ⟨r, k⟩ (S.handles ⟨r, k⟩ + 1) ⟨r, k⟩
  rw [Function.update_self]
  exact Nat.succ_pos _

theorem handles_retain_of (h : Hold) (k : CountKind) (hpos : 0 < S.handles h) : 0 < (S.retain r k).handles h := by
  show 0 < Function.update S.handles ⟨r, k⟩ (S.handles ⟨r, k⟩ + 1) h
  rw [Function.update_apply]
  split
  · exact Nat.succ_pos _
  · exact hpos

/-- A reference that is retained, itself or another, points at what it did. -/
theorem refs_retain_of {x : Nat} {y : StoredRef} (hx : S.refs x = some y) (hlive : 0 < y.held) (k : CountKind)
    (hroom : ∀ o, S.refs r = some o → o.held + 1 < 2 ^ 32) :
    ∃ z, (S.retain r k).refs x = some z ∧ z.objDesc = y.objDesc ∧ z.items = y.items ∧ 0 < z.held := by
  by_cases hxr : x = r
  · subst hxr
    have := StoredRef.held_increment (hroom y hx) k
    exact ⟨_, S.refs_retain x k hx, y.objDesc_increment k, y.items_increment k, by omega⟩
  · refine ⟨y, ?_, rfl, rfl, hlive⟩
    show Function.update S.refs r _ x = _
    rw [Function.update_of_ne hxr]
    exact hx

/-- `T` is `S` but for counts of `r` that the caller holds besides. -/
inductive Retains (S : LinkStore) (r : Nat) : LinkStore → Prop
  | refl : Retains S r S
  | retain {T : LinkStore} {o : StoredRef} (h : Retains S r T) (ho : T.refs r = some o) (hlive : 0 < o.held)
      (hroom : o.held + 1 < 2 ^ 32) (k : CountKind) : Retains S r (T.retain r k)

theorem Retains.inv (h : Retains S r S') (hinv : S.Inv) : S'.Inv := by
  induction h with
  | refl => exact hinv
  | retain _ ho hlive hroom k ih => exact ih.retain ho hlive hroom k

/-- A container is given the counts of an element that the caller holds, or that are incremented for it. -/
theorem addItem_cases {c i : Nat} {isFromList : Bool} (h : S.Inv) (hidle : S.pending = [])
    (hheld : isFromList = true ∨ 0 < S.handles ⟨r, .external⟩)
    (hroom : ∀ o, S.refs r = some o → o.held + (if isFromList then 2 else 1) < 2 ^ 32)
    (hs : S.ownAddRefToObjArray c i r isFromList = some S') : ∃ x d e T z, S.refs c = some x ∧ i < x.items.length ∧
      Retains S r T ∧ T.refs c = some z ∧ z.objDesc = some d ∧ z.items = x.items ∧ 0 < z.held ∧
      T.ownReferenceGetObjDescId r = some e ∧ 0 < T.handles ⟨r, .internal⟩ ∧ 0 < T.handles ⟨r, .external⟩ ∧
      S' = T.setItem c d i r e := by
  obtain ⟨x, hx, hs⟩ := Option.bind_eq_some_iff.1 hs
  obtain ⟨d, hd, hs⟩ := Option.bind_eq_some_iff.1 hs
  obtain ⟨e, he, hs⟩ := Option.bind_eq_some_iff.1 hs
  obtain ⟨o, ho, hoe⟩ := Option.bind_eq_some_iff.1 he
  split at hs
  · rename_i hi
    obtain rfl := Option.some.inj hs
    have hone : ∀ o, S.refs r = some o → o.held + 1 < 2 ^ 32 := by
      intro o ho
      have := hroom o ho
      split at this <;> omega
    have h1 := Retains.refl.retain ho (h.held_pos hidle ho) (hone o ho) .internal
    have he1 := ((replaces_retain ho .internal).objDescId r).trans he
    obtain ⟨y, hy, hyd, hyi, hylive⟩ := refs_retain_of hx (h.held_pos hidle hx) .internal hone
    cases isFromList with
    | false =>
      exact ⟨x, d, e, _, y, hx, hi, h1, hy, hyd.trans hd, hyi, hylive, he1, S.handles_retain r .internal,
        handles_retain_of _ _ (hheld.resolve_left Bool.false_ne_true), rfl⟩
    | true =>
      have ho1 := S.refs_retain r .internal ho
      have hheld1 := StoredRef.held_increment (hone o ho) .internal
      have htwo : ∀ o, (S.retain r .internal).refs r = some o → o.held + 1 < 2 ^ 32 := by
        intro o' ho'
        obtain rfl := Option.some.inj (ho1.symm.trans ho')
        have := hroom o ho
        rw [if_pos rfl] at this
        omega
      obtain ⟨z, hz, hzd, hzi, hzlive⟩ := refs_retain_of hy hylive .external htwo
      exact ⟨x, d, e, _, z, hx, hi, h1.retain ho1 (by omega) (htwo _ ho1) .external, hz, hzd.trans (hyd.trans hd),
        hzi.trans hyi, hzlive, ((replaces_retain ho1 .external).objDescId r).trans he1,
        handles_retain_of _ _ (S.handles_retain r .internal), LinkStore.handles_retain _ r .external, rfl⟩
  · cases hs

theorem Inv.ownAddRefToObjArray {c i : Nat} {isFromList : Bool} (h : S.Inv) (hidle : S.pending = [])
    (hheld : isFromList = true ∨ 0 < S.handles ⟨r, .external⟩)
    (hroom : ∀ o, S.refs r = some o → o.held + (if isFromList then 2 else 1) < 2 ^ 32)
    (hs : S.ownAddRefToObjArray c i r isFromList = some S') : S'.Inv := by
  obtain ⟨x, d, e, T, z, -, hi, hT, hz, hd, hzi, hlive, he, hint, hext, rfl⟩ := addItem_cases h hidle hheld hroom hs
  exact (hT.inv h).setItem hz hd hlive (by rw [hzi]; exact hi) he hint hext

theorem replaces_dropItem {c : Nat} {x : StoredRef} (hx : S.refs c = some x) (i : Nat) (l : List Pending) :
    Replaces S { S.modify c (fun x => { x with items := x.items.set i none }) with pending := l } c x
      { x with items := x.items.set i none } := by
  refine ⟨hx, ?_, rfl, rfl, rfl, fun _ _ => rfl, fun _ _ => ⟨rfl, rfl⟩⟩
  show Function.update S.refs c ((S.refs c).map _) = _
  rw [hx]
  rfl

theorem balanced_dropItem {c i e : Nat} {x : StoredRef} (hidle : S.pending = []) (he : x.items[i]? = some (some e)) :
    Balanced S { S.modify c (fun x => { x with items := x.items.set i none }) with pending := [.releaseItem e] } c x
      { x with items := x.items.set i none } := by
  refine balanced_of_holds (fun k => by cases k <;> rfl) (fun k => ?_)
  have hset := count_holds_set he none k
  have hnone : (itemHolds none).count k = 0 := rfl
  unfold owed
  simp only [hidle, List.flatMap_nil, List.count_nil, List.flatMap_cons, List.append_nil]
  show S.handles k + (itemHolds (some e)).count k + _ = _
  omega

/-- An element that is taken out of a container is released. -/
theorem Inv.ownReleaseRefFromObjArray {c i : Nat} (h : S.Inv) (hidle : S.pending = [])
    (hs : S.ownReleaseRefFromObjArray c i = some S') : S'.Inv := by
  obtain ⟨x, hx, hs⟩ := Option.bind_eq_some_iff.1 hs
  obtain ⟨e, he, hs⟩ := Option.bind_eq_some_iff.1 hs
  obtain rfl := Option.some.inj hs
  have he := Option.join_eq_some_iff.1 he
  have hlive := h.held_pos hidle hx
  have hrep := replaces_dropItem hx i [.releaseItem e]
  refine hrep.inv h (fun _ => .inl) (fun _ => hlive) (fun _ d _ ht => ?_) (h.room c x hx)
    (fun k => (balanced_dropItem hidle he k).le) (fun p hp y hy => ?_) (fun y z hy h0 => ?_)
  · refine ⟨ht.noSupplement, fun s hs => ?_, ?_, fun j f hf => ?_⟩
    · rw [hrep.objDescId]
      exact ht.supplement s hs
    · exact ht.length.trans (List.length_set).symm
    · rw [hrep.objDescId]
      dsimp only at hf
      rw [List.getElem?_set] at hf
      split at hf
      · split at hf <;> cases hf
      · exact ht.items j f hf
  · rw [List.mem_singleton.1 hp] at hy
    cases hy
  · have hmem := hrep.unheld h (.inl hlive) hy h0
    rw [hidle] at hmem
    exact absurd hmem List.not_mem_nil

/-! ### Creating -/

theorem freeEntry_spec {d : Nat} (h : S.freeEntry = some d) : d < S.numEntries ∧ (S.table d).isUsed = false := by
  have hfree := List.find?_some h
  obtain ⟨i, hi, rfl⟩ := List.mem_map.1 (List.mem_of_find?_eq_some h)
  have hpos : 0 < S.numEntries := lt_of_le_of_lt (Nat.zero_le i) (List.mem_range.1 hi)
  exact ⟨Nat.mod_lt _ hpos, by simpa using hfree⟩

/-- `S'` has one more reference: of type `t`, with a descriptor, a handle, and nothing it points at. -/
structure Created (S S' : LinkStore) (t : StoredType) (d : Nat) : Prop where
  refs : ∃ n, S'.refs = Function.update S.refs S.next
    (some { type := t, externalCount := 1, objDesc := some d, items := List.replicate n none })
  entry : d < S.numEntries ∧ (S.table d).isUsed = false
  table : ∃ n, S'.table = Function.update S.table d
    { isUsed := true, hostRef := some S.next, itemIds := List.replicate n 0 }
  length : (S'.table d).itemIds.length = ((S'.refs S.next).elim 0 (·.items.length))
  numEntries : S'.numEntries = S.numEntries
  next : S'.next = S.next + 1
  handles : S'.handles = Function.update S.handles ⟨S.next, .external⟩ (S.handles ⟨S.next, .external⟩ + 1)
  pending : S'.pending = S.pending

theorem created_of_create {t : StoredType} {n : Nat} (h : S.ownCreateReference t n = some S') : ∃ d, Created S S' t d := by
  obtain ⟨d, hd, rfl⟩ := Option.map_eq_some_iff.1 h
  refine ⟨d, ⟨n, rfl⟩, freeEntry_spec hd, ⟨n, rfl⟩, ?_, rfl, rfl, rfl, rfl⟩
  show (Function.update S.table d _ d).itemIds.length = (Function.update S.refs S.next _ S.next).elim 0 _
  rw [Function.update_self, Function.update_self]
  simp

theorem refs_next (hinv : S.Inv) : S.refs S.next = none := by
  cases hx : S.refs S.next with
  | none => rfl
  | some y => exact absurd (hinv.fresh _ y hx) (Nat.lt_irrefl _)

theorem holds_of (hr : S.refs r = some o) : S.holds r = o.holds := by
  unfold holds
  rw [hr]
  rfl

namespace Created

variable {t : StoredType} {d : Nat}

theorem refs_new (h : Created S S' t d) : ∃ n, S'.refs S.next =
    some { type := t, externalCount := 1, objDesc := some d, items := List.replicate n none } := by
  obtain ⟨n, hn⟩ := h.refs
  exact ⟨n, by rw [hn, Function.update_self]⟩

theorem refs_ne (h : Created S S' t d) {x : Nat} (hx : x ≠ S.next) : S'.refs x = S.refs x := by
  obtain ⟨n, hn⟩ := h.refs
  rw [hn, Function.update_of_ne hx]

theorem refs_of (h : Created S S' t d) (hinv : S.Inv) {x : Nat} {y : StoredRef} (hx : S.refs x = some y) :
    S'.refs x = some y := by
  rw [h.refs_ne (Nat.ne_of_lt (hinv.fresh x y hx)), hx]

theorem table_ne (h : Created S S' t d) {e : Nat} (he : e ≠ d) : S'.table e = S.table e := by
  obtain ⟨n, hn⟩ := h.table
  rw [hn, Function.update_of_ne he]

/-- A descriptor that was used is another. -/
theorem ne_entry (h : Created S S' t d) (hinv : S.Inv) {x e : Nat} {y : StoredRef} (hx : S.refs x = some y)
    (he : y.objDesc = some e) : e ≠ d := by
  rintro rfl
  have hused := (hinv.owns x y e hx he).2.1
  rw [h.entry.2] at hused
  cases hused

theorem objDescId_new (h : Created S S' t d) : S'.ownReferenceGetObjDescId S.next = some d := by
  obtain ⟨n, hn⟩ := h.refs_new
  unfold ownReferenceGetObjDescId
  rw [hn]
  rfl

theorem holds_new (h : Created S S' t d) : S'.holds S.next = [] := by
  obtain ⟨n, hn⟩ := h.refs_new
  rw [holds_of hn]
  change List.flatMap itemHolds (List.replicate n none) ++ [] ++ [] = []
  rw [List.append_nil, List.append_nil]
  exact List.flatMap_eq_nil_iff.2 (fun x hx => by rw [List.eq_of_mem_replicate hx]; rfl)

theorem handles_new (h : Created S S' t d) : 0 < S'.handles ⟨S.next, .external⟩ := by
  rw [h.handles, Function.update_self]
  exact Nat.succ_pos _

/-- The one count of the new reference is owed to the caller. -/
theorem owed_new (h : Created S S' t d) (k : Hold) : S'.owed k = S.owed k + if k = ⟨S.next, .external⟩ then 1 else 0 := by
  unfold owed
  rw [h.handles, h.pending, Function.update_apply]
  split
  · rename_i hk
    rw [hk]
    omega
  · omega

theorem counted_new (h : Created S S' t d) (hinv : S.Inv) (k : Hold) :
    S'.counted k = S.counted k + if k = ⟨S.next, .external⟩ then 1 else 0 := by
  obtain ⟨n, hn⟩ := h.refs_new
  obtain ⟨x, l⟩ := k
  unfold counted
  by_cases hx : x = S.next
  · subst hx
    dsimp only
    rw [refs_next hinv, hn]
    cases l <;> simp [StoredRef.countOf]
  · dsimp only
    rw [h.refs_ne hx, if_neg (fun heq => hx (Hold.mk.inj heq).1)]
    rfl

theorem inv (h : Created S S' t d) (hinv : S.Inv) (hidle : S.pending = []) : S'.Inv := by
  obtain ⟨n, hn⟩ := h.refs_new
  obtain ⟨m, hm⟩ := h.table
  have hlength := h.length
  rw [hn] at hlength
  have hentry : S'.table d = { isUsed := true, hostRef := some S.next, itemIds := List.replicate m 0 } := by
    rw [hm, Function.update_self]
  have hone : (1 : UInt32).toNat = 1 := rfl
  have hzero : (0 : UInt32).toNat = 0 := rfl
  -- a reference of `S'` is the new one, or one of `S`
  have hcases : ∀ x y, S'.refs x = some y → (x = S.next ∧
      y = { type := t, externalCount := 1, objDesc := some d, items := List.replicate n none }) ∨ S.refs x = some y := by
    intro x y hx
    by_cases hxn : x = S.next
    · rw [hxn, hn] at hx
      exact .inl ⟨hxn, (Option.some.inj hx).symm⟩
    · rw [h.refs_ne hxn] at hx
      exact .inr hx
  refine ⟨fun x y hx => ?_, fun x y p hx hp => ?_, fun x y e hx he => ?_, fun x y hx hheld => ?_, ?_,
    fun x y hx => ?_, fun p hp x hdx y hx => ?_, fun x y hx h0 => ?_⟩
  · rw [h.next]
    rcases hcases x y hx with ⟨rfl, _⟩ | hx
    · exact Nat.lt_succ_self _
    · exact Nat.lt_succ_of_lt (hinv.fresh x y hx)
  · rcases hcases x y hx with ⟨_, rfl⟩ | hx
    · cases hp
    · exact hinv.older x y p hx hp
  · rw [h.numEntries]
    rcases hcases x y hx with ⟨rfl, rfl⟩ | hx
    · obtain rfl := Option.some.inj he
      rw [hentry]
      exact ⟨h.entry.1, rfl, rfl⟩
    · rw [h.table_ne (h.ne_entry hinv hx he)]
      exact hinv.owns x y e hx he
  · rcases hcases x y hx with ⟨rfl, rfl⟩ | hx
    · refine ⟨d, rfl, fun _ => by rw [hentry], fun s hs => (by cases hs), hlength, fun i e he => ?_⟩
      dsimp only at he
      rw [List.getElem?_replicate] at he
      split at he <;> cases he
    · obtain ⟨e, he, ht⟩ := hinv.tells x y hx hheld
      refine ⟨e, he, ht.congr (h.table_ne (h.ne_entry hinv hx he)) (fun k hk => ?_)⟩
      obtain ⟨z, hz, _⟩ := hinv.live hx hk
      unfold ownReferenceGetObjDescId
      rw [h.refs_of hinv hz, hz]
  · rw [h.next, Finset.range_add_one]
    refine hinv.covers.insert Finset.notMem_range_self (fun x hx => ?_) (fun k => ?_)
    · unfold holds
      rw [h.refs_ne (Nat.ne_of_lt (Finset.mem_range.1 hx))]
    · have howed := h.owed_new k
      have hcounted := h.counted_new hinv k
      rw [h.holds_new, List.count_nil]
      omega
  · rcases hcases x y hx with ⟨_, rfl⟩ | hx
    · show (0 : UInt32).toNat + (1 : UInt32).toNat < 2 ^ 32
      omega
    · exact hinv.room x y hx
  · rw [h.pending, hidle] at hp
    exact absurd hp List.not_mem_nil
  · rw [h.pending]
    rcases hcases x y hx with ⟨_, rfl⟩ | hx
    · have h0 : (0 : UInt32).toNat + (1 : UInt32).toNat = 0 := h0
      omega
    · exact hinv.unheld x y hx h0

end Created

/-! ### What is built on an image -/

theorem replaces_linkParent {child image : Nat} {x : StoredRef} (hc : S.refs child = some x) (hne : child ≠ image) :
    Replaces (S.retain image .internal) (S.linkParent child image) child x { x with parent := some image } := by
  have hc1 : (S.retain image .internal).refs child = some x := by
    show Function.update S.refs image _ child = _
    rw [Function.update_of_ne hne]
    exact hc
  refine ⟨hc1, ?_, rfl, rfl, rfl, fun _ _ => rfl, fun _ _ => ⟨rfl, rfl⟩⟩
  show Function.update (S.retain image .internal).refs child (((S.retain image .internal).refs child).map _) = _
  rw [hc1]
  rfl

theorem count_holds_linkParent {x : StoredRef} (hparent : x.parent = none) (htype : x.type ≠ .userDataObject) (image : Nat)
    (k : Hold) : ({ x with parent := some image } : StoredRef).holds.count k =
      x.holds.count k + if k = ⟨image, .internal⟩ then 1 else 0 := by
  unfold StoredRef.holds StoredRef.parentKind
  simp only [hparent, List.count_append, Option.toList_none, Option.toList_some, List.map_nil, List.map_cons, List.count_nil,
    List.count_cons, if_neg htype, beq_iff_eq, eq_comm (a := k)]
  omega

theorem balanced_linkParent {child image : Nat} {x : StoredRef} (hparent : x.parent = none) (htype : x.type ≠ .userDataObject) :
    Balanced (S.retain image .internal) (S.linkParent child image) child x { x with parent := some image } := by
  refine balanced_of_holds (fun k => by cases k <;> rfl) (fun k => ?_)
  have howed := owed_revoke (S := (S.retain image .internal).modify child fun x => { x with parent := some image })
    (S.handles_retain image .internal) k
  have hsame : ((S.retain image .internal).modify child fun x => { x with parent := some image }).owed k =
    (S.retain image .internal).owed k := rfl
  rw [count_holds_linkParent hparent htype]
  show (LinkStore.revoke _ _).owed k + _ = _
  omega

theorem Inv.linkParent {child image : Nat} {x y : StoredRef} (h : S.Inv) (hidle : S.pending = []) (hi : S.refs image = some y)
    (hroom : y.held + 1 < 2 ^ 32) (hc : S.refs child = some x) (hlt : image < child) (hparent : x.parent = none)
    (htype : x.type ≠ .userDataObject) : (S.linkParent child image).Inv := by
  have h1 := h.retain hi (h.held_pos hidle hi) hroom .internal
  have hrep := replaces_linkParent hc (Nat.ne_of_gt hlt)
  have hlive := h1.held_pos hidle hrep.ref
  exact hrep.inv_live h1 rfl (fun p hp => .inr (Option.some.inj hp ▸ hlt)) hlive hlive
    (fun d _ ht => ht.of_same rfl rfl rfl hrep.objDescId) (h1.room child x hrep.ref)
    (fun k => (balanced_linkParent hparent htype k).le)

/-! ### Supplementary data -/

theorem replaces_owner {s : Nat} {z : StoredRef} (hz : S.refs s = some z) (destination : Nat) :
    Replaces S (S.modify s fun x => { x with owner := some destination }) s z { z with owner := some destination } := by
  refine ⟨hz, ?_, rfl, rfl, rfl, fun _ _ => rfl, fun _ _ => ⟨rfl, rfl⟩⟩
  show Function.update S.refs s ((S.refs s).map _) = _
  rw [hz]
  rfl

theorem replaces_attach {destination d s : Nat} {y z : StoredRef} (hy : S.refs destination = some y) (hd : y.objDesc = some d)
    (hz : S.refs s = some z) (hne : destination ≠ s) :
    Replaces (S.modify s fun x => { x with owner := some destination }) (S.attach destination d s) destination y
      { y with supplementaryData := some s } := by
  have hy0 := ((replaces_owner hz destination).refs_ne hne).trans hy
  refine ⟨hy0, ?_, rfl, rfl, rfl, fun d' hne => ?_, fun d' hd' => ?_⟩
  · show Function.update (S.modify s _).refs destination (((S.modify s _).refs destination).map _) = _
    rw [hy0]
    rfl
  · exact Function.update_of_ne (fun heq => hne (by rw [hd, heq])) _ _
  · obtain rfl := Option.some.inj (hd.symm.trans hd')
    show (Function.update S.table d _ d).isUsed = _ ∧ (Function.update S.table d _ d).hostRef = _
    rw [Function.update_self]
    exact ⟨rfl, rfl⟩

theorem count_holds_attach {y : StoredRef} (hnone : y.supplementaryData = none) (s : Nat) (k : Hold) :
    ({ y with supplementaryData := some s } : StoredRef).holds.count k =
      y.holds.count k + if k = ⟨s, .external⟩ then 1 else 0 := by
  unfold StoredRef.holds StoredRef.parentKind
  simp only [hnone, List.count_append, Option.toList_none, Option.toList_some, List.map_nil, List.map_cons, List.count_nil,
    List.count_cons, beq_iff_eq, eq_comm (a := k)]
  omega

theorem balanced_attach {destination d s : Nat} {y : StoredRef} (hnone : y.supplementaryData = none)
    (hheld : 0 < S.handles ⟨s, .external⟩) :
    Balanced (S.modify s fun x => { x with owner := some destination }) (S.attach destination d s) destination y
      { y with supplementaryData := some s } := by
  refine balanced_of_holds (fun k => by cases k <;> rfl) (fun k => ?_)
  have howed := owed_revoke (S := ((S.modify s fun x => { x with owner := some destination }).modify destination
    fun x => { x with supplementaryData := some s }).modifyDesc d
      fun x => { x with suppDataId := S.ownReferenceGetObjDescId s }) hheld k
  have hsame : (((S.modify s fun x => { x with owner := some destination }).modify destination
    fun x => { x with supplementaryData := some s }).modifyDesc d
      fun x => { x with suppDataId := S.ownReferenceGetObjDescId s }).owed k =
        (S.modify s fun x => { x with owner := some destination }).owed k := rfl
  rw [count_holds_attach hnone]
  show (LinkStore.revoke _ _).owed k + _ = _
  omega

theorem Inv.owner {s : Nat} {z : StoredRef} (h : S.Inv) (hidle : S.pending = []) (hz : S.refs s = some z) (destination : Nat) :
    (S.modify s fun x => { x with owner := some destination }).Inv := by
  have hlivez := h.held_pos hidle hz
  have hrep := replaces_owner hz destination
  exact hrep.inv_live h rfl (fun _ => .inl) hlivez hlivez (fun d _ ht => ht.of_same rfl rfl rfl hrep.objDescId) (h.room s z hz)
    (fun k => Nat.le_refl _)

theorem Inv.attach {destination d s : Nat} {y z : StoredRef} (h : S.Inv) (hidle : S.pending = [])
    (hy : S.refs destination = some y) (hd : y.objDesc = some d) (hnone : y.supplementaryData = none) (hz : S.refs s = some z)
    (hne : destination ≠ s) (hheld : 0 < S.handles ⟨s, .external⟩) : (S.attach destination d s).Inv := by
  have h0 := h.owner hidle hz destination
  have hrep := replaces_attach hy hd hz hne
  have hlive := h0.held_pos hidle hrep.ref
  have htable : (S.attach destination d s).table d = { S.table d with suppDataId := S.ownReferenceGetObjDescId s } :=
    Function.update_self ..
  refine hrep.inv_live h0 rfl (fun _ => .inl) hlive hlive (fun d' hd' ht => ?_) (h0.room destination y hrep.ref)
    (fun k => (balanced_attach hnone hheld k).le)
  obtain rfl := Option.some.inj (hd.symm.trans hd')
  refine ⟨fun hs => (by cases hs), fun t ht' => ?_, ?_, fun i e he => ?_⟩
  · obtain rfl := Option.some.inj ht'
    obtain ⟨id, hid, _⟩ := h.tells s z hz (h.held_pos hidle hz)
    have hsid : S.ownReferenceGetObjDescId s = some id := by
      unfold ownReferenceGetObjDescId
      rw [hz]
      exact hid
    rw [htable, hrep.objDescId, (replaces_owner hz destination).objDescId, hsid]
    exact ⟨id, rfl, rfl⟩
  · rw [htable]
    exact ht.length
  · rw [htable, hrep.objDescId]
    exact ht.items i e he

/-! ### Calls -/

/-- The references whose counts a call increments. -/
def incremented (S : LinkStore) : LinkCall → List Nat
  | .addItem _ _ r isFromList => if isFromList then [r, r] else [r]
  | .getItem c i => (S.itemRef c i).toList
  | .retain r _ => [r]
  | .createImageFromROI image | .createTensorFromROI image => [image]
  | .getSupplementary r isInKernel isInput => (S.supplementFor r isInKernel isInput).toList
  | _ => []

/-- No count wraps around. -/
def HasRoom (S : LinkStore) (c : LinkCall) : Prop :=
  ∀ r ∈ S.incremented c, ∀ o, S.refs r = some o → o.held + (S.incremented c).count r < 2 ^ 32

/-- The call does not swap two tensors, nor create a tensor of a part of an image with supplementary data, nor hand out a parent's
supplementary data outside of a kernel. -/
def KeepsLinks (S : LinkStore) : LinkCall → Prop
  | .swap depth a b => ∀ p ∈ S.swapped depth a b, S.isTensor p.1 = true → S.isTensor p.2 = true → p.1 = p.2
  | .createTensorFromROI image => ∀ y, S.refs image = some y → y.type = .image → S.freeEntry ≠ none → y.supplementaryData = none
  | .getSupplementary r isInKernel isInput =>
    S.supplementFor r isInKernel isInput = none ∨ S.supplemented r isInKernel isInput = r ∨ isInKernel = true
  | _ => True

theorem swapPair_self (S : LinkStore) (a : Nat) : S.swapPair a a = S := by
  unfold swapPair
  split
  · cases ha : S.refs a with
    | none =>
      rename_i h
      simp [isTensor, ha] at h
    | some x =>
      have hid : S.ownReferenceGetObjDescId a = x.objDesc := by
        unfold ownReferenceGetObjDescId
        rw [ha]
        rfl
      unfold moveOrSwapTensor modify
      rw [hid, ha]
      simp only [Option.map_some, Function.update_self, Function.update_idem]
      rw [show (some { x with objDesc := x.objDesc } : Option StoredRef) = S.refs a from ha.symm, Function.update_eq_self]
  · rfl

theorem swap_eq {depth a b : Nat} (h : S.KeepsLinks (.swap depth a b)) :
    (S.swapped depth a b).foldl (fun T p => T.swapPair p.1 p.2) S = S := by
  have hpairs : ∀ ps : List (Nat × Nat), (∀ p ∈ ps, S.isTensor p.1 = true → S.isTensor p.2 = true → p.1 = p.2) →
      ps.foldl (fun T p => T.swapPair p.1 p.2) S = S := by
    intro ps hps
    induction ps with
    | nil => rfl
    | cons p ps ih =>
      have hsame : S.swapPair p.1 p.2 = S := by
        by_cases hboth : S.isTensor p.1 = true ∧ S.isTensor p.2 = true
        · rw [hps p List.mem_cons_self hboth.1 hboth.2]
          exact S.swapPair_self p.2
        · unfold swapPair
          rw [if_neg (by simpa using hboth)]
      rw [List.foldl_cons, hsame]
      exact ih (fun q hq => hps q (List.mem_cons_of_mem _ hq))
  exact hpairs _ h

/-- Nothing is done, or a part of the image is created and linked with it. -/
def LinksPart (S S' : LinkStore) (image : Nat) : Prop :=
  S' = S ∨ ∃ y T d t, S.refs image = some y ∧ y.held + 1 < 2 ^ 32 ∧ t ≠ .userDataObject ∧ Created S T t d ∧
    S' = T.linkParent S.next image

theorem linksPart_createImageFromROI {image : Nat} (hroom : S.HasRoom (.createImageFromROI image))
    (hs : S.vxCreateImageFromROI image = some S') : LinksPart S S' image := by
  obtain ⟨y, hy, hs⟩ := Option.bind_eq_some_iff.1 hs
  split at hs
  · exact .inl (Option.some.inj hs).symm
  · obtain ⟨T, hT, hs⟩ := Option.bind_eq_some_iff.1 hs
    obtain ⟨d, hT⟩ := created_of_create hT
    have hroom := hroom image (by simp [incremented]) y hy
    exact .inr ⟨y, T, d, _, hy, by simpa [incremented] using hroom, StoredType.noConfusion, hT, (Option.some.inj hs).symm⟩

theorem linksPart_createTensorFromROI {image : Nat} (h : S.Inv) (hidle : S.pending = [])
    (hroom : S.HasRoom (.createTensorFromROI image)) (hkeeps : S.KeepsLinks (.createTensorFromROI image))
    (hs : S.vxCreateTensorFromROI image = some S') : LinksPart S S' image := by
  obtain ⟨y, hy, hs⟩ := Option.bind_eq_some_iff.1 hs
  obtain ⟨d, hd, hs⟩ := Option.bind_eq_some_iff.1 hs
  split at hs
  · exact .inl (Option.some.inj hs).symm
  · rename_i htype
    split at hs
    · exact .inl (Option.some.inj hs).symm
    · rename_i T hT
      have hfree : S.freeEntry ≠ none := by
        obtain ⟨e, he, _⟩ := Option.map_eq_some_iff.1 hT
        rw [he]
        exact Option.some_ne_none e
      have hnone := hkeeps y hy (Decidable.not_not.1 htype) hfree
      obtain ⟨e, he, ht⟩ := h.tells image y hy (h.held_pos hidle hy)
      obtain rfl := Option.some.inj (hd.symm.trans he)
      rw [ht.noSupplement hnone] at hs
      obtain ⟨d, hT⟩ := created_of_create hT
      have hroom := hroom image (by simp [incremented]) y hy
      exact .inr ⟨y, T, d, _, hy, by simpa [incremented] using hroom, StoredType.noConfusion, hT, (Option.some.inj hs).symm⟩

theorem Inv.linksPart {image : Nat} (h : S.Inv) (hidle : S.pending = []) (hs : LinksPart S S' image) : S'.Inv := by
  obtain rfl | ⟨y, T, d, t, hy, hroom, ht, hT, rfl⟩ := hs
  · exact h
  · obtain ⟨n, hn⟩ := hT.refs_new
    exact (hT.inv h hidle).linkParent (hT.pending.trans hidle) (hT.refs_of h hy) hroom hn (h.fresh image y hy) rfl ht

/-- Supplementary data that is made for a reference is created and attached to it. -/
theorem extend_cases {destination : Nat} (hs : S.vxExtendSupplementaryUserDataObject destination = some S') :
    S' = S ∨ ∃ y d T t e, S.refs destination = some y ∧ y.objDesc = some d ∧ y.supplementaryData = none ∧ Created S T t e ∧
      S' = T.attach destination d S.next := by
  obtain ⟨y, hy, hs⟩ := Option.bind_eq_some_iff.1 hs
  obtain ⟨d, hd, hs⟩ := Option.bind_eq_some_iff.1 hs
  split at hs
  · rename_i hnone
    split at hs
    · exact .inl (Option.some.inj hs).symm
    · rename_i T hT
      obtain ⟨e, hT⟩ := created_of_create hT
      exact .inr ⟨y, d, T, _, e, hy, hd, hnone.1, hT, (Option.some.inj hs).symm⟩
  · exact .inl (Option.some.inj hs).symm

theorem Inv.extendSupplementary {destination : Nat} (h : S.Inv) (hidle : S.pending = [])
    (hs : S.vxExtendSupplementaryUserDataObject destination = some S') : S'.Inv := by
  obtain rfl | ⟨y, d, T, t, e, hy, hd, hnone, hT, rfl⟩ := extend_cases hs
  · exact h
  · obtain ⟨n, hn⟩ := hT.refs_new
    exact (hT.inv h hidle).attach (hT.pending.trans hidle) (hT.refs_of h hy) hd hnone hn
      (Nat.ne_of_lt (h.fresh destination y hy)) hT.handles_new

/-- A release that is left to do owes what the caller held. -/
theorem owed_giveUp {k : CountKind} (hidle : S.pending = []) (hheld : 0 < S.handles ⟨r, k⟩) (l : Hold) :
    ({ S.revoke ⟨r, k⟩ with pending := [.release r k] } : LinkStore).owed l = S.owed l := by
  have hrevoke := owed_revoke hheld l
  have hone : (([.release r k] : List Pending).flatMap (·.holds)).count l = if l = ⟨r, k⟩ then 1 else 0 := by
    simp only [List.flatMap_cons, List.flatMap_nil, List.append_nil, Pending.holds_release, List.count_cons, List.count_nil,
      beq_iff_eq, eq_comm (a := l)]
    omega
  unfold owed at hrevoke ⊢
  rw [hone]
  rw [show (S.revoke ⟨r, k⟩).pending = [] from hidle] at hrevoke
  rw [hidle] at hrevoke ⊢
  exact hrevoke

/-- An application or a node releases what it holds. -/
theorem Inv.giveUp {k : CountKind} (h : S.Inv) (hidle : S.pending = []) (hheld : 0 < S.handles ⟨r, k⟩) :
    ({ S.revoke ⟨r, k⟩ with pending := [.release r k] } : LinkStore).Inv where
  fresh := h.fresh
  older := h.older
  owns := h.owns
  tells := fun x y hx hlive => by
    obtain ⟨d, hd, ht⟩ := h.tells x y hx hlive
    exact ⟨d, hd, ht.congr rfl (fun _ _ => rfl)⟩
  covers := h.covers.owe (fun l => Nat.add_le_add_right (owed_giveUp hidle hheld l).le _)
  room := h.room
  dying := fun q hq x hx => by
    rw [List.mem_singleton.1 hq] at hx
    cases hx
  unheld := fun x y hx h0 => absurd h0 (Nat.ne_of_gt (h.held_pos hidle hx))

/-- **A call that meets the condition keeps the invariant.** -/
theorem Inv.call {c : LinkCall} (h : S.Inv) (hidle : S.pending = []) (hroom : S.HasRoom c) (hkeeps : S.KeepsLinks c)
    (hs : S.call c = some S') : S'.Inv := by
  cases c with
  | create type numItems =>
    obtain rfl := Option.some.inj hs
    cases hT : S.ownCreateReference type (if type.isContainer then numItems else 0) with
    | none => exact h
    | some T =>
      obtain ⟨d, hT⟩ := created_of_create hT
      exact hT.inv h hidle
  | addItem c i r isFromList =>
    simp only [LinkStore.call] at hs
    split at hs
    · rename_i hheld
      simp only [Bool.or_eq_true, decide_eq_true_eq] at hheld
      refine h.ownAddRefToObjArray hidle hheld (fun o ho => ?_) hs
      have := hroom r (by cases isFromList <;> simp [incremented]) o ho
      cases isFromList <;> simpa [incremented] using this
    · cases hs
  | dropItem c i => exact h.ownReleaseRefFromObjArray hidle hs
  | getItem c i =>
    obtain ⟨r, hr, hs⟩ := Option.bind_eq_some_iff.1 hs
    obtain ⟨o, ho, hs⟩ := Option.bind_eq_some_iff.1 hs
    obtain rfl := Option.some.inj hs
    have := hroom r (by simp [incremented, hr]) o ho
    exact h.retain ho (h.held_pos hidle ho) (by simpa [incremented, hr] using this) .external
  | retain r k =>
    obtain ⟨o, ho, rfl⟩ := Option.map_eq_some_iff.1 hs
    have := hroom r (by simp [incremented]) o ho
    exact h.retain ho (h.held_pos hidle ho) (by simpa [incremented] using this) k
  | release r k =>
    simp only [LinkStore.call] at hs
    split at hs
    · obtain rfl := Option.some.inj hs
      exact h.giveUp hidle ‹_›
    · cases hs
  | createImageFromROI image => exact h.linksPart hidle (linksPart_createImageFromROI hroom hs)
  | createTensorFromROI image => exact h.linksPart hidle (linksPart_createTensorFromROI h hidle hroom hkeeps hs)
  | extendSupplementary destination => exact h.extendSupplementary hidle hs
  | getSupplementary r isInKernel isInput =>
    obtain rfl := Option.some.inj hs
    unfold vxGetSupplementaryUserDataObject
    cases hsupp : S.supplementFor r isInKernel isInput with
    | none => exact h
    | some s =>
      have hown : S.supplemented r isInKernel isInput = r ∨ isInKernel = true :=
        hkeeps.resolve_left (by rw [hsupp]; exact Option.some_ne_none s)
      dsimp only
      rw [if_pos hown]
      -- the supplementary data of a reference lives
      obtain ⟨x, hx, hxs⟩ := Option.bind_eq_some_iff.1 hsupp
      obtain ⟨t, ht, hlive⟩ := h.live hx (x.mem_holds_supp hxs)
      have := hroom s (by simp [incremented, hsupp]) t ht
      exact h.retain ht hlive (by simpa [incremented, hsupp] using this) .external
  | swap depth a b =>
    obtain rfl := Option.some.inj hs
    rw [swap_eq hkeeps]
    exact h
  | proceed => cases hs

end LinkStore

end Tiovx
