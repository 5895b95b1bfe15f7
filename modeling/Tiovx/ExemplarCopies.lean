import Tiovx.ExemplarAttributes
/-!
# ExemplarCopies — copies and their exemplars (`vx_exemplar.c`)

A copy that is created has the meta format of its exemplar, here and in all elements, and its supplementary data.  Levels and
elements have that of the pyramid or the array they are in.  Where no copy is created, nothing that was created is left.
-/
namespace Tiovx

/-! ### Supplementary data that is set -/

namespace SuppData

/-- The type, the sizes and the valid bytes are the same. -/
def Equal (d s : SuppData) : Prop :=
  d.typeName = s.typeName ∧ d.memSize = s.memSize ∧ d.validMemSize = s.validMemSize ∧
    ∀ i < s.validMemSize.toNat, d.bytes i = s.bytes i

/-- There are bytes, and all of them are valid. -/
def Full (s : SuppData) : Prop := s.memSize ≠ 0 ∧ s.validMemSize = s.memSize

variable {d s t : SuppData}

theorem extendFrom_type (source : Option SuppData) (sourceBytes userBytes : UInt32) :
    (d.extendFrom source none sourceBytes userBytes).2.typeName = d.typeName ∧
      (d.extendFrom source none sourceBytes userBytes).2.memSize = d.memSize := by
  unfold extendFrom
  split
  · exact ⟨rfl, rfl⟩
  · split
    · exact ⟨rfl, rfl⟩
    · split
      · exact ⟨rfl, rfl⟩
      · cases source <;> exact ⟨rfl, rfl⟩

/-- All bytes of a source are set on supplementary data of its type. -/
theorem extendFrom_full (hs : s.Full) (hn : d.typeName = s.typeName) (hm : d.memSize = s.memSize)
    (hv : d.validMemSize ≤ d.memSize) :
    ∃ d', d.extendFrom (some s) none s.validMemSize s.validMemSize = (vxSuccess, d') ∧ d'.Equal s := by
  have hsize : ¬ (s.validMemSize > s.memSize ∨ s.validMemSize > s.memSize) := by
    rw [hs.2, or_self]
    exact UInt32.lt_irrefl _
  have hok : (d.extendFrom (some s) none s.validMemSize s.validMemSize).1 = vxSuccess := by
    by_contra h
    exact hs.1 (hs.2 ▸ (zero_of_error hm hn hsize h).1)
  obtain ⟨hbytes, hvalid⟩ := extendFrom_spec (Prod.ext hok rfl)
  obtain ⟨hname, hmem⟩ := extendFrom_type (d := d) (some s) s.validMemSize s.validMemSize
  refine ⟨_, Prod.ext hok rfl, hname.trans hn, hmem.trans hm, ?_, fun i hi => ?_⟩
  · apply UInt32.toNat_inj.1
    have hle := UInt32.le_iff_toNat_le.1 hv
    rw [hm, ← hs.2] at hle
    omega
  · rw [hbytes, hostBytes, if_pos (Nat.le_refl _), if_pos hi]
    exact if_pos (decide_eq_true hi)

end SuppData

/-- There is none of both, or they are equal. -/
def SuppAlike : Option SuppData → Option SuppData → Prop
  | none, none => True
  | some d, some s => d.Equal s
  | _, _ => False

theorem SuppAlike.refl : ∀ s : Option SuppData, SuppAlike s s
  | none => trivial
  | some _ => ⟨rfl, rfl, rfl, fun _ _ => rfl⟩

theorem SuppAlike.suppReferences_eq : ∀ {t s : Option SuppData}, SuppAlike t s → suppReferences t = suppReferences s
  | none, none, _ => rfl
  | some _, some _, _ => rfl

/-- A source, where there is one, can be set on a destination: there is room for it, it is full, and a destination that is there is
of its type. -/
def SuppGrant.Supplies (g : SuppGrant) (destination source : Option SuppData) : Prop :=
  ∀ s, source = some s → g.creates = true ∧ g.allocates = true ∧ s.Full ∧
    ∀ d, destination = some d → d.typeName = s.typeName ∧ d.memSize = s.memSize ∧ d.validMemSize ≤ d.memSize

/-- With memory for it, supplementary data that is there or is created is extended. -/
theorem HostCall.extend_of_supplement {c : HostCall} {destination : Option SuppData} {s d : SuppData} {st : Int}
    {sourceBytes userBytes : UInt32} (hc : c.checks = vxSuccess) (ha : c.allocates = true)
    (h : c.supplement destination (some s) sourceBytes userBytes = (st, some d)) :
    c.vxExtendSupplementaryUserDataObject destination (some s) none sourceBytes userBytes =
      (({ d with hasMemory := true }.extendFrom (some s) none sourceBytes userBytes).1,
        some ({ d with hasMemory := true }.extendFrom (some s) none sourceBytes userBytes).2) := by
  unfold vxExtendSupplementaryUserDataObject
  rw [if_neg (fun h => h hc), h, ha]
  rfl

namespace SuppGrant

variable {g : SuppGrant} {destination : Option SuppData} {source : SuppData}

theorem supplies_none : g.Supplies destination none := fun _ h => by cases h

theorem supplies_new (h : source.Full) : ({} : SuppGrant).Supplies none (some source) := by
  rintro _ ⟨⟩
  exact ⟨rfl, rfl, h, fun _ hd => by cases hd⟩

theorem vxSetSupplementaryUserDataObject_spec (h : g.Supplies destination (some source)) :
    ∃ d, g.vxSetSupplementaryUserDataObject destination source = (vxSuccess, some d) ∧ d.Equal source := by
  obtain ⟨hc, ha, hfull, hd⟩ := h source rfl
  unfold vxSetSupplementaryUserDataObject
  cases destination with
  | some d =>
    obtain ⟨hn, hm, hv⟩ := hd d rfl
    obtain ⟨d', hd', he⟩ := SuppData.extendFrom_full (d := { d with hasMemory := true }) hfull hn hm hv
    rw [HostCall.extend_of_supplement rfl ha rfl, hd']
    exact ⟨d', rfl, he⟩
  | none =>
    have hcreates : (!(g.creates && source.memSize != 0)) = false := by
      rw [hc, Bool.true_and, bne_iff_ne.2 hfull.1]
      rfl
    have hsize : ¬ (source.validMemSize > source.memSize ∨ source.validMemSize > source.memSize) := by
      rw [hfull.2, or_self]
      exact UInt32.lt_irrefl _
    obtain ⟨d', hd', he⟩ := SuppData.extendFrom_full
      (d := { SuppData.ownCreateUserDataObject source.typeName source.memSize with hasMemory := true }) hfull rfl rfl
      (UInt32.le_refl _)
    have hsupp : HostCall.supplement { creates := g.creates && source.memSize != 0, allocates := g.allocates } none (some source)
        source.validMemSize source.validMemSize =
          (vxSuccess, some (.ownCreateUserDataObject source.typeName source.memSize)) := by
      simp only [HostCall.supplement, hcreates, if_neg hsize]
      rfl
    rw [HostCall.extend_of_supplement rfl ha hsupp, hd']
    exact ⟨d', rfl, he⟩

end SuppGrant

/-! ### What a copy is -/

def levelSupplementary (l : Option LevelImage) : Option SuppData := l.bind (·.supplementary)

/-- The supplementary data of the copies of a level and of an element, from that of what it is in and that of its exemplar. -/
structure SuppRule where
  level : Option SuppData → Option SuppData → Option SuppData
  item : Option SuppData → Option SuppData → Option SuppData

/-- That of the exemplar. -/
def SuppRule.own : SuppRule := ⟨fun _ s => s, fun _ s => s⟩

/-- A level has that of the pyramid, and an element that of the array, or its exemplar's where the array has none. -/
def SuppRule.passedOn : SuppRule := ⟨fun c _ => c, fun c s => c.or s⟩

namespace DataObject

mutual

/-- The meta format of the copy is equal to that of the exemplar, and those of the elements and the levels are. -/
def Accepts : DataObject → DataObject → Prop
  | element d s, element e t => (element e t).isMetaFormatEqual (element d s) = true
  | pyramid P ls s, pyramid Q ms t =>
    (pyramid Q ms t).isMetaFormatEqual (pyramid P ls s) = true ∧ (P.isVirtual = false → List.Forall₂ LevelAlike ls ms)
  | objectArray A xs s, objectArray B ys t =>
    (objectArray B ys t).isMetaFormatEqual (objectArray A xs s) = true ∧ ItemsAccept xs ys
  | _, _ => False

def ItemsAccept : List DataObject → List DataObject → Prop
  | [], [] => True
  | x :: xs, y :: ys => Accepts x y ∧ ItemsAccept xs ys
  | _, _ => False

end

mutual

/-- The supplementary data of the copy is `want`, and what is in the copy has its own by the rule. -/
def HasSupplementary (rule : SuppRule) (want : Option SuppData) : DataObject → DataObject → Prop
  | element _ _, element _ t => SuppAlike t want
  | pyramid _ ls s, pyramid _ ms t => SuppAlike t want ∧
      List.Forall₂ (fun l m => SuppAlike (levelSupplementary m) (rule.level s (levelSupplementary l))) ls ms
  | objectArray _ xs s, objectArray _ ys t => SuppAlike t want ∧ ItemsHaveSupplementary rule s xs ys
  | _, _ => False

def ItemsHaveSupplementary (rule : SuppRule) (container : Option SuppData) : List DataObject → List DataObject → Prop
  | [], [] => True
  | x :: xs, y :: ys =>
    HasSupplementary rule (rule.item container x.supplementary) x y ∧ ItemsHaveSupplementary rule container xs ys
  | _, _ => False

end

/-- What is made of an exemplar: a copy with its meta format and with supplementary data by the rule, or an error object or `NULL`
and no reference that was not there before. -/
def IsCopied (rule : SuppRule) (x : DataObject) (live : Nat) (made : Option (MadeReference × Nat)) : Prop :=
  ∃ r live', made = some (r, live') ∧
    match r with
    | .object y => Accepts x y ∧ HasSupplementary rule x.supplementary x y
    | _ => live' = live

/-! ### Exemplars -/

section

variable (itemSizes : Int → UInt64)

mutual

/-- All elements are there and are such as an object array takes. -/
def Whole : DataObject → Prop
  | null => False
  | element d _ => d.IsOf itemSizes
  | pyramid .. => True
  | objectArray _ items _ => ItemsWhole items

def ItemsWhole : List DataObject → Prop
  | [] => True
  | x :: xs => x.Whole ∧ x.ownIsValidObjArrayType = true ∧ ItemsWhole xs

end

variable (scaled : UInt32 → UInt32 → Nat → UInt32)

mutual

/-- The attributes of the exemplar are taken, and there is what is needed for the copy. -/
def Creatable (G : Grants) : DataObject → Prop
  | null => False
  | element d _ => (d.fromExemplar itemSizes).isSome = true ∧ G.own [] = .both
  | pyramid P ls _ => P.isAccepted ls.length = true ∧ G.own [] = .both ∧
      ∀ k < ls.length, (P.level scaled k).isSome = true ∧ (G.part k).own [] = .both
  | objectArray _ items _ => G.own [] = .both ∧ ItemsCreatable G 0 items

def ItemsCreatable (G : Grants) : Nat → List DataObject → Prop
  | _, [] => True
  | i, x :: xs => x.Creatable (G.part i) ∧ ItemsCreatable G (i + 1) xs

end

mutual

/-- What the copy does not take is as the creators set it, supplementary data is full and can be set, and an object array has
elements that can be copied, and has a descriptor if it has a reference. -/
def Kept (G : Grants) : DataObject → Prop
  | null => False
  | element d s => d.Plain ∧ (G.supplement []).Supplies none s
  | pyramid P ls s => isNumber P.scale = true ∧ (G.supplement []).Supplies none s ∧
      ∀ k < ls.length, ((G.part k).container []).Supplies none s
  | objectArray _ items s => G.own [] ≠ .noDescriptor ∧ (G.supplement []).Supplies none s ∧
      ItemsCreatable itemSizes scaled G 0 items ∧ ItemsKept G s 0 items

def ItemsKept (G : Grants) (container : Option SuppData) : Nat → List DataObject → Prop
  | _, [] => True
  | i, x :: xs => x.Kept (G.part i) ∧ ((G.part i).container []).Supplies x.supplementary container ∧
      ItemsKept G container (i + 1) xs

end

end

/-! ### Supplementary data that is set on an object -/

variable {x y : DataObject} {rule : SuppRule} {want t : Option SuppData}

@[simp] theorem metaFormat_setSupplementary : (y.setSupplementary t).metaFormat = y.metaFormat := by
  cases y <;> rfl

theorem Accepts.setSupplementary (h : Accepts x y) : Accepts x (y.setSupplementary t) := by
  cases x <;> cases y <;> exact h

theorem HasSupplementary.setSupplementary {want' : Option SuppData} (h : HasSupplementary rule want x y) (ht : SuppAlike t want') :
    HasSupplementary rule want' x (y.setSupplementary t) := by
  cases x <;> cases y <;> first | exact h.elim | exact ht | exact ⟨ht, h.2⟩

theorem HasSupplementary.supplementary (h : HasSupplementary rule want x y) : SuppAlike y.supplementary want := by
  cases x <;> cases y <;> first | exact h.elim | exact h | exact h.1

theorem HasSupplementary.references (h : HasSupplementary rule want x y) :
    (y.setSupplementary t).references + suppReferences y.supplementary = y.references + suppReferences t := by
  cases y with
  | null => cases x <;> exact h.elim
  | _ =>
    simp only [DataObject.setSupplementary, DataObject.references, DataObject.supplementary]
    omega

end DataObject

open DataObject

theorem SuppGrant.Supplies.of_alike {g : SuppGrant} {s t source : Option SuppData} (h : g.Supplies s source) (ht : SuppAlike t s) :
    g.Supplies t source := by
  intro c hc
  obtain ⟨h1, h2, h3, h4⟩ := h c hc
  refine ⟨h1, h2, h3, fun d hd => ?_⟩
  subst hd
  cases s with
  | none => exact ht.elim
  | some e =>
    obtain ⟨hn, hm, hv⟩ := h4 e rfl
    exact ⟨ht.1.trans hn, ht.2.1.trans hm, by rwa [ht.2.2.1, ht.2.1]⟩

/-- A copy is given supplementary data; where there is none to give it keeps its own. -/
theorem MadeReference.supply_object {x y : DataObject} {rule : SuppRule} {want source : Option SuppData} {g : SuppGrant}
    (ha : Accepts x y) (hy : HasSupplementary rule want x y) (hs : g.Supplies y.supplementary source) (live : Nat) :
    ∃ z, (object y).supply g source (live + y.references) = (vxSuccess, .object z, live + z.references) ∧ Accepts x z ∧
      HasSupplementary rule (source.or want) x z := by
  cases source with
  | none => exact ⟨y, rfl, ha, hy⟩
  | some s =>
    obtain ⟨d, hd, he⟩ := SuppGrant.vxSetSupplementaryUserDataObject_spec hs
    refine ⟨y.setSupplementary (some d), ?_, ha.setSupplementary, hy.setSupplementary he⟩
    have hrefs := hy.references (t := some d)
    have hle : suppReferences y.supplementary ≤ suppReferences (some d) := by
      cases y.supplementary with
      | none => exact Nat.zero_le _
      | some _ => exact Nat.le_refl _
    simp only [supply, hd, Prod.mk.injEq, true_and]
    omega

/-! ### Pyramids -/

section

variable {scaled : UInt32 → UInt32 → Nat → UInt32} {G : Grants} {P : PyramidDesc}

theorem initLevels_of_creatable : ∀ {n k : Nat} (levels : List LevelImage) (live : Nat),
    (∀ j < n, (P.level scaled (k + j)).isSome = true ∧ (G.part (k + j)).own [] = .both) →
    ∃ ds : List ImageDesc, ds.length = n ∧ (∀ j < n, P.level scaled (k + j) = ds[j]?) ∧
      initLevels scaled G P n k levels live = (some (levels ++ ds.map (⟨·, none⟩)), live + n)
  | 0, _, levels, live, _ => ⟨[], rfl, fun _ h => absurd h (Nat.not_lt_zero _), by rw [List.map_nil, List.append_nil]; rfl⟩
  | n + 1, k, levels, live, h => by
    obtain ⟨hsome, hown⟩ := h 0 (Nat.succ_pos n)
    obtain ⟨d, hd⟩ := Option.isSome_iff_exists.1 hsome
    rw [Nat.add_zero] at hd hown
    have hnext : ∀ j < n, (P.level scaled (k + 1 + j)).isSome = true ∧ (G.part (k + 1 + j)).own [] = .both := by
      intro j hj
      rw [Nat.add_assoc, Nat.add_comm 1 j]
      exact h (j + 1) (Nat.succ_lt_succ hj)
    obtain ⟨ds, hlen, hds, hrun⟩ := initLevels_of_creatable (levels ++ [⟨d, none⟩]) (live + 1) hnext
    refine ⟨d :: ds, congrArg (· + 1) hlen, fun j hj => ?_, ?_⟩
    · cases j with
      | zero => exact hd
      | succ j =>
        rw [← Nat.add_assoc, Nat.add_right_comm, hds j (Nat.lt_of_succ_lt_succ hj)]
        rfl
    · rw [initLevels, hd, hown]
      dsimp only
      rw [hrun, List.append_assoc, Nat.add_assoc, Nat.add_comm 1 n]
      rfl

/-- The levels are made only where there is what is needed for all of them; otherwise those that were made are released. -/
theorem initLevels_cases : ∀ (n k : Nat) (levels : List LevelImage) (live : Nat),
    (∀ j < n, (P.level scaled (k + j)).isSome = true ∧ (G.part (k + j)).own [] = .both) ∨
      initLevels scaled G P n k levels live = (none, live - levels.length)
  | 0, _, _, _ => .inl (fun _ h => absurd h (Nat.not_lt_zero _))
  | n + 1, k, levels, live => by
    cases hd : P.level scaled k with
    | none =>
      refine .inr ?_
      rw [initLevels, hd]
    | some d =>
      cases hown : (G.part k).own [] with
      | both =>
        refine (initLevels_cases n (k + 1) (levels ++ [⟨d, none⟩]) (live + 1)).imp ?_ ?_
        · intro h j hj
          cases j with
          | zero => exact ⟨by rw [Nat.add_zero, hd]; rfl, by rw [Nat.add_zero, hown]⟩
          | succ j =>
            rw [Nat.add_comm j 1, ← Nat.add_assoc]
            exact h j (Nat.lt_of_succ_lt_succ hj)
        · intro h
          rw [initLevels, hd, hown]
          dsimp only
          rw [h, List.length_append, List.length_singleton, Nat.add_sub_add_right]
      | noReference =>
        refine .inr ?_
        rw [initLevels, hd, hown]
      | noDescriptor =>
        refine .inr ?_
        rw [initLevels, hd, hown]

/-- A level with its image and the supplementary data of its pyramid. -/
def LevelOf (supplementary : Option SuppData) (d : ImageDesc) (L : LevelImage) : Prop :=
  L.desc = d ∧ SuppAlike L.supplementary supplementary

/-- Each level is given the supplementary data of the pyramid. -/
theorem supplyLevels_spec {source : SuppData} : ∀ {k : Nat} (ds : List ImageDesc) (live : Nat),
    (∀ j < ds.length, ((G.part (k + j)).container []).Supplies none (some source)) →
    ∃ levels, supplyLevels G source k (ds.map (⟨·, none⟩)) live =
        (levels, live + ds.length) ∧ List.Forall₂ (LevelOf (some source)) ds levels
  | _, [], live, _ => ⟨[], rfl, .nil⟩
  | k, d :: ds, live, h => by
    obtain ⟨e, hset, he⟩ := SuppGrant.vxSetSupplementaryUserDataObject_spec (h 0 (Nat.succ_pos _))
    have hnext : ∀ j < ds.length, ((G.part (k + 1 + j)).container []).Supplies none (some source) := by
      intro j hj
      rw [Nat.add_assoc, Nat.add_comm 1 j]
      exact h (j + 1) (Nat.succ_lt_succ hj)
    obtain ⟨levels, hrun, hlevels⟩ := supplyLevels_spec ds (live + 1) hnext
    refine ⟨⟨d, some e⟩ :: levels, ?_, .cons ⟨rfl, he⟩ hlevels⟩
    rw [Nat.add_zero] at hset
    rw [List.map_cons, supplyLevels]
    dsimp only
    rw [hset, if_pos rfl]
    dsimp only [suppReferences, Option.elim]
    rw [hrun, List.length_cons, Nat.add_assoc, Nat.add_comm 1]

theorem sum_levelReferences {source : Option SuppData} : ∀ {ds : List ImageDesc} {levels : List LevelImage},
    List.Forall₂ (LevelOf source) ds levels →
      ((levels.map some).map levelReferences).sum = ds.length + ds.length * suppReferences source
  | _, _, .nil => by rw [List.length_nil, Nat.zero_mul]; rfl
  | d :: ds, L :: levels, .cons h hlevels => by
    have hlevel : levelReferences (some L) = 1 + suppReferences source := congrArg (1 + ·) h.2.suppReferences_eq
    rw [List.map_cons, List.map_cons, List.sum_cons, hlevel, sum_levelReferences hlevels, List.length_cons, Nat.succ_mul]
    omega

/-- The levels of a copy, with the supplementary data of the pyramid, if it has any. -/
theorem levels_spec {n : Nat} {supplementary : Option SuppData} (live : Nat)
    (hlevels : ∀ k < n, (P.level scaled k).isSome = true ∧ (G.part k).own [] = .both)
    (hs : ∀ k < n, ((G.part k).container []).Supplies none supplementary) (hacc : P.isAccepted n = true)
    (hown : G.own [] = .both) :
    ∃ ds levels, ds.length = n ∧ (∀ k < n, P.level scaled k = ds[k]?) ∧
      List.Forall₂ (LevelOf supplementary) ds levels ∧
      ownCreatePyramidFromExemplar scaled G P n supplementary live =
        (.object (.pyramid { P with isVirtual := false } (levels.map some) none),
          live + 1 + ((levels.map some).map levelReferences).sum) := by
  obtain ⟨ds, hlen, hds, hrun⟩ := initLevels_of_creatable (k := 0) (n := n) [] (live + 1) (fun j hj => by
    rw [Nat.zero_add]
    exact hlevels j hj)
  have hcreate : vxCreatePyramid scaled G P n live = (.ok (ds.map (⟨·, none⟩)), live + 1 + n) := by
    rw [vxCreatePyramid, if_pos hacc, hown]
    dsimp only
    rw [hrun, List.nil_append]
  simp only [Nat.zero_add] at hds
  cases supplementary with
  | none =>
    have hlevels : List.Forall₂ (LevelOf none) ds (ds.map (⟨·, none⟩)) := by
      rw [List.forall₂_map_right_iff]
      exact List.forall₂_same.2 (fun _ _ => ⟨rfl, trivial⟩)
    refine ⟨ds, ds.map (⟨·, none⟩), hlen, hds, hlevels, ?_⟩
    rw [ownCreatePyramidFromExemplar, hcreate, sum_levelReferences hlevels, hlen]
    rfl
  | some source =>
    obtain ⟨levels, hsupply, hlevels⟩ := supplyLevels_spec (k := 0) ds (live + 1 + n) (fun j hj => by
      rw [Nat.zero_add]
      exact hs j (hlen ▸ hj))
    refine ⟨ds, levels, hlen, hds, hlevels, ?_⟩
    rw [ownCreatePyramidFromExemplar, hcreate, sum_levelReferences hlevels, hlen]
    dsimp only
    rw [hsupply, hlen, Nat.add_assoc (live + 1)]
    dsimp only [suppReferences, Option.elim]
    rw [Nat.mul_one]

end

/-! ### Object arrays -/

/-- Whether an object array takes an element is told by its meta format. -/
def MetaFormat.isObjArrayType : MetaFormat → Bool
  | convolution _ => false
  | objectArray q => q.itemType ≠ .objectArray
  | _ => true

theorem MetaFormat.isObjArrayType_compared {m : MetaFormat} : m.compared.isObjArrayType = m.isObjArrayType := by
  cases m <;> rfl

namespace DataObject

variable {x y : DataObject}

theorem Accepts.isMetaFormatEqual (h : Accepts x y) : y.isMetaFormatEqual x = true := by
  cases x <;> cases y <;> first | exact h.elim | exact h | exact h.1

theorem ownIsValidObjArrayType_eq : x.ownIsValidObjArrayType = x.metaFormat.any MetaFormat.isObjArrayType := by
  cases x with
  | element d s => cases d <;> rfl
  | _ => rfl

theorem Accepts.ownIsValidObjArrayType (h : Accepts x y) (hx : x.ownIsValidObjArrayType = true) :
    y.ownIsValidObjArrayType = true := by
  obtain ⟨m, n, hm, hn, hc, -⟩ := isMetaFormatEqual_iff.1 h.isMetaFormatEqual
  rw [ownIsValidObjArrayType_eq, hn] at hx
  rw [ownIsValidObjArrayType_eq, hm, ← hx, Option.any_some, Option.any_some, ← MetaFormat.isObjArrayType_compared, hc,
    MetaFormat.isObjArrayType_compared]

theorem Accepts.ne_null (h : Accepts x y) : y ≠ .null := by
  rintro rfl
  cases x <;> exact h.elim

theorem ItemsWhole.valid {itemSizes : Int → UInt64} : ∀ {xs : List DataObject}, ItemsWhole itemSizes xs →
    ∀ x ∈ xs, x.ownIsValidObjArrayType = true
  | [], _, _, hx => absurd hx List.not_mem_nil
  | _ :: _, h, _, hx => by
    rcases List.mem_cons.1 hx with rfl | hx
    · exact h.2.1
    · exact h.2.2.valid _ hx

/-- Every copy is one of an exemplar of the list. -/
theorem ItemsAccept.exists_of_mem : ∀ {xs ys : List DataObject}, ItemsAccept xs ys → ∀ y ∈ ys, ∃ x ∈ xs, Accepts x y
  | [], [], _, _, hy => absurd hy List.not_mem_nil
  | x :: xs, z :: ys, h, y, hy => by
    rcases List.mem_cons.1 hy with rfl | hy
    · exact ⟨x, List.mem_cons_self .., h.1⟩
    · obtain ⟨x', hx', h'⟩ := h.2.exists_of_mem y hy
      exact ⟨x', List.mem_cons_of_mem _ hx', h'⟩

theorem ItemsAccept.length_eq : ∀ {xs ys : List DataObject}, ItemsAccept xs ys → ys.length = xs.length
  | [], [], _ => rfl
  | _ :: _, _ :: _, h => congrArg (· + 1) h.2.length_eq

end DataObject

namespace MadeReference

variable {ys : List DataObject} {type : Option MetaType}

theorem ownInitObjArrayFromList_objects : ∀ {ys : List DataObject}, (∀ y ∈ ys, y.metaFormat.map MetaFormat.type = type) →
    ownInitObjArrayFromList type true (ys.map .object) = (true, ys)
  | [], _ => rfl
  | y :: ys, h => by
    rw [List.map_cons, ownInitObjArrayFromList, if_pos (h y (List.mem_cons_self ..)),
      ownInitObjArrayFromList_objects (fun z hz => h z (List.mem_cons_of_mem _ hz))]

end MadeReference

/-- The references of a list that is in no array are all gone. -/
theorem releaseList_nil : ∀ (ys : List DataObject) (live : Nat), releaseList (ys.map .object) [] (live + itemReferences ys) = live
  | [], _ => rfl
  | y :: ys, live => by
    rw [List.map_cons, releaseList]
    show releaseList (ys.map .object) [] (live + (y.references + itemReferences ys) - y.references) = live
    rw [Nat.add_left_comm, Nat.add_sub_cancel_left, releaseList_nil ys]

/-- Those that are in an array are all still there. -/
theorem releaseList_held : ∀ {ys : List DataObject} {live : Nat}, (∀ y ∈ ys, y ≠ .null) →
    releaseList (ys.map .object) ys live = live
  | [], _, _ => rfl
  | y :: ys, live, h => by
    have hy := h y (List.mem_cons_self ..)
    rw [List.map_cons, releaseList]
    · exact releaseList_held (fun z hz => h z (List.mem_cons_of_mem _ hz))
    · exact hy

section

variable {ys : List DataObject} {itemType : MetaType}

/-- An object array is made of copies of elements, or nothing is left where it gets no reference. -/
theorem objectArrayFromList_spec (isFromList : Bool) (live : Nat) (hne : ys ≠ []) (hlen : ys.length ≤ objectArrayMaxItems)
    (htype : ∀ y ∈ ys, y.metaFormat.map MetaFormat.type = some itemType) (hvalid : ∀ y ∈ ys, y.ownIsValidObjArrayType = true)
    (hnull : ∀ y ∈ ys, y ≠ .null) :
    objectArrayFromList .both isFromList (ys.map .object) (live + itemReferences ys) =
        some (.object (.objectArray ⟨itemType, isFromList⟩ ys none), live + itemReferences ys + 1) ∧
      objectArrayFromList .noReference isFromList (ys.map .object) (live + itemReferences ys) = some (.null, live) := by
  cases ys with
  | nil => exact absurd rfl hne
  | cons y ys =>
    have hmem : y ∈ y :: ys := List.mem_cons_self ..
    have hchecks : ¬ (objectArrayMaxItems < ((y :: ys).map MadeReference.object).length ∨ (!y.ownIsValidObjArrayType) = true) := by
      rw [List.length_map, hvalid y hmem]
      exact not_or.2 ⟨Nat.not_lt.2 hlen, Bool.false_ne_true⟩
    obtain ⟨m, hm, rfl⟩ := Option.map_eq_some_iff.1 (htype y hmem)
    have hinit := MadeReference.ownInitObjArrayFromList_objects htype
    rw [List.map_cons] at hchecks hinit
    constructor
    · unfold objectArrayFromList MadeReference.tivxCreateObjectArrayFromList
      rw [List.map_cons]
      dsimp only
      rw [if_neg hchecks, hm, Option.map_some, hinit]
      dsimp only
      rw [← List.map_cons, releaseList_held hnull]
    · unfold objectArrayFromList MadeReference.tivxCreateObjectArrayFromList
      rw [List.map_cons]
      dsimp only
      rw [if_neg hchecks]
      dsimp only
      rw [← List.map_cons, releaseList_nil]

end

/-! ### Copies -/

section

variable {scaled : UInt32 → UInt32 → Nat → UInt32} {itemSizes : Int → UInt64}

namespace DataObject

/-- A copy of an exemplar is made. -/
def CopyMade (x : DataObject) (live : Nat) (made : Option (MadeReference × Nat)) : Prop :=
  ∃ y, made = some (.object y, live + y.references) ∧ Accepts x y ∧ HasSupplementary .passedOn x.supplementary x y

theorem element_made {G : Grants} {d : DataDesc} {s : Option SuppData} (live : Nat) (hd : d.Created) (hw : d.IsOf itemSizes)
    (hk : (element d s).Kept itemSizes scaled G) (hc : (element d s).Creatable itemSizes scaled G) :
    CopyMade (element d s) live (tivxCreateReferenceFromExemplar scaled itemSizes G (element d s) live) := by
  obtain ⟨e, he⟩ := Option.isSome_iff_exists.1 hc.1
  have hcompared := (DataDesc.compared_iff hd hw he).2 hk.1
  have hset : (G.supplement []).Supplies none s := hk.2
  have ha : Accepts (element d s) (element e none) := by
    refine isMetaFormatEqual_iff.2 ⟨_, _, rfl, rfl, hcompared, ?_⟩
    exact (hasNumber_iff (x := element e none) rfl).2 trivial
  have hsupp : HasSupplementary .passedOn none (element d s) (element e none) := trivial
  obtain ⟨z, hz, haz, hsz⟩ := MadeReference.supply_object ha hsupp hset live
  refine ⟨z, ?_, haz, ?_⟩
  · have hcreate : createElement (G.own []) itemSizes d live = (.object (element e none), live + 1) := by
      unfold createElement
      rw [he, hc.2]
    rw [tivxCreateReferenceFromExemplar, hcreate]
    exact congrArg (fun R => some R.2) hz
  · rwa [Option.or_none] at hsz

theorem pyramid_made {G : Grants} {P : PyramidDesc} {ls : List (Option LevelImage)} {s : Option SuppData} (live : Nat)
    (hP : P.HasLevels scaled ls) (hk : (pyramid P ls s).Kept itemSizes scaled G)
    (hc : (pyramid P ls s).Creatable itemSizes scaled G) :
    CopyMade (pyramid P ls s) live (tivxCreateReferenceFromExemplar scaled itemSizes G (pyramid P ls s) live) := by
  obtain ⟨hnumber, hown, hcontainer⟩ := hk
  obtain ⟨hacc, hgrant, hlevels⟩ := hc
  obtain ⟨ds, levels, hlen, hds, hall, hcreate⟩ := levels_spec live hlevels hcontainer hacc hgrant
  have hcount : levels.length = ls.length := hall.length_eq.symm.trans hlen
  have ha : Accepts (pyramid P ls s) (pyramid { P with isVirtual := false } (levels.map some) none) := by
    refine ⟨isMetaFormatEqual_iff.2 ⟨_, _, rfl, rfl, ?_, hnumber⟩, fun hv => ?_⟩
    · rw [List.length_map, hcount]
    · apply List.forall₂_iff_get.2
      refine ⟨by rw [List.length_map, hcount], fun k hk hk' => ?_⟩
      obtain ⟨d, L, hd, hL, hw, hh, hf⟩ := hP.2 hv k hk
      have hk'' : k < levels.length := by rwa [List.length_map] at hk'
      obtain ⟨hdesc, -⟩ := (List.forall₂_iff_get.1 hall).2 k (hlen ▸ hk) hk''
      rw [hds k hk, List.getElem?_eq_getElem (hlen ▸ hk)] at hd
      rw [List.getElem?_eq_getElem hk] at hL
      rw [List.get_eq_getElem, List.get_eq_getElem, Option.some.inj hL, List.getElem_map]
      rw [List.get_eq_getElem, List.get_eq_getElem, Option.some.inj hd] at hdesc
      show L.desc.width = _ ∧ L.desc.height = _ ∧ L.desc.format = _
      rw [hdesc]
      exact ⟨hw, hh, hf⟩
  have hsupp : HasSupplementary .passedOn none (pyramid P ls s)
      (pyramid { P with isVirtual := false } (levels.map some) none) := by
    refine ⟨trivial, List.forall₂_iff_get.2 ⟨by rw [List.length_map, hcount], fun k hk hk' => ?_⟩⟩
    have hk'' : k < levels.length := by rwa [List.length_map] at hk'
    obtain ⟨-, hlevel⟩ := (List.forall₂_iff_get.1 hall).2 k (hlen ▸ hk) hk''
    rw [List.get_eq_getElem, List.get_eq_getElem, List.getElem_map]
    exact hlevel
  obtain ⟨z, hz, haz, hsz⟩ := MadeReference.supply_object ha hsupp hown live
  refine ⟨z, ?_, haz, ?_⟩
  · rw [tivxCreateReferenceFromExemplar, hcreate]
    rw [references, suppReferences, Option.elim, Nat.add_zero, ← Nat.add_assoc] at hz
    exact congrArg (fun R => some R.2) hz
  · rwa [Option.or_none] at hsz

/-- The facts about the copies of elements that an object array is made of. -/
theorem items_spec {A : ObjectArrayDesc} {xs ys : List DataObject} (h : ItemsAccept xs ys) (hw : ItemsWhole itemSizes xs)
    (htype : ∀ x ∈ xs, ∀ m, x.metaFormat = some m → m.type = A.itemType) :
    ∀ y ∈ ys, y.metaFormat.map MetaFormat.type = some A.itemType ∧ y.ownIsValidObjArrayType = true ∧ y ≠ .null := by
  intro y hy
  obtain ⟨x, hx, hxy⟩ := h.exists_of_mem y hy
  refine ⟨?_, hxy.ownIsValidObjArrayType (hw.valid x hx), hxy.ne_null⟩
  obtain ⟨m, n, hm, hn, hc, -⟩ := isMetaFormatEqual_iff.1 hxy.isMetaFormatEqual
  rw [hm, Option.map_some, type_eq_of_compared hc, htype x hx n hn]

mutual

/-- A copy of an exemplar is made where there is what is needed, whatever else there is. -/
theorem copy_made : ∀ {x : DataObject} {G : Grants} (live : Nat), x.Created scaled → x.Whole itemSizes →
    x.Kept itemSizes scaled G → x.Creatable itemSizes scaled G →
      CopyMade x live (tivxCreateReferenceFromExemplar scaled itemSizes G x live)
  | null, _, _, _, hw, _, _ => hw.elim
  | element d s, G, live, hx, hw, hk, hc => by
    cases hx with
    | element _ hd => exact element_made live hd hw hk hc
  | pyramid P ls s, G, live, hx, hw, hk, hc => by
    cases hx with
    | pyramid _ _ _ _ hP => exact pyramid_made live hP hk hc
  | objectArray A xs s, G, live, hx, hw, hk, hc => by
    cases hx with
    | objectArray _ hpos hmax hitems htypes =>
      obtain ⟨-, hown, -, hkept⟩ := hk
      obtain ⟨ys, hlist, ha, hs⟩ := copies_made live hitems hw hkept hc.2
      have hspec := items_spec ha hw (fun x hx m hm => (htypes x hx m hm).1)
      have hlen := ha.length_eq
      have hne : ys ≠ [] := List.ne_nil_of_length_pos (hlen ▸ hpos)
      obtain ⟨hboth, -⟩ := objectArrayFromList_spec A.isFromList live hne (hlen ▸ hmax) (fun y hy => (hspec y hy).1)
        (fun y hy => (hspec y hy).2.1) (fun y hy => (hspec y hy).2.2)
      have harray : Accepts (objectArray A xs s) (objectArray ⟨A.itemType, A.isFromList⟩ ys none) := by
        refine ⟨isMetaFormatEqual_iff.2 ⟨_, _, rfl, rfl, ?_, rfl⟩, ha⟩
        rw [hlen]
      have hsupp : HasSupplementary .passedOn none (objectArray A xs s) (objectArray ⟨A.itemType, A.isFromList⟩ ys none) :=
        ⟨trivial, hs⟩
      obtain ⟨z, hz, haz, hsz⟩ := MadeReference.supply_object harray hsupp hown live
      refine ⟨z, ?_, haz, ?_⟩
      · rw [tivxCreateReferenceFromExemplar, hlist]
        dsimp only
        rw [hc.1, hboth]
        rw [references, suppReferences, Option.elim, Nat.add_zero, Nat.add_comm 1, ← Nat.add_assoc] at hz
        exact congrArg (fun R => some R.2) hz
      · rwa [Option.or_none] at hsz

theorem copies_made : ∀ {xs : List DataObject} {G : Grants} {s : Option SuppData} {i : Nat} (live : Nat),
    (∀ x ∈ xs, x.Created scaled) → ItemsWhole itemSizes xs → ItemsKept itemSizes scaled G s i xs →
      ItemsCreatable itemSizes scaled G i xs →
        ∃ ys, refList scaled itemSizes G s i xs live = some (ys.map .object, live + itemReferences ys) ∧
          ItemsAccept xs ys ∧ ItemsHaveSupplementary .passedOn s xs ys
  | [], _, _, _, _, _, _, _, _ => ⟨[], rfl, trivial, trivial⟩
  | x :: xs, G, s, i, live, hx, hw, hk, hc => by
    obtain ⟨y, hy, hay, hsy⟩ := copy_made live (hx x (List.mem_cons_self ..)) hw.1 hk.1 hc.1
    obtain ⟨z, hz, haz, hsz⟩ := MadeReference.supply_object hay hsy (hk.2.1.of_alike hsy.supplementary) live
    have hxs : ∀ w ∈ xs, w.Created scaled := fun w hw' => hx w (List.mem_cons_of_mem _ hw')
    obtain ⟨ys, hys, ha, hs⟩ := copies_made (live + z.references) hxs hw.2.2 hk.2.2 hc.2
    refine ⟨z :: ys, ?_, ⟨haz, ha⟩, hsz, hs⟩
    rw [refList, hy]
    dsimp only
    rw [hz, if_pos rfl, hys, Nat.add_assoc]
    rfl

end

/-- An error object or `NULL` is made, and no reference is left. -/
def NothingMade (live : Nat) (made : Option (MadeReference × Nat)) : Prop := made = some (.null, live) ∨ made = some (.error, live)

theorem nothingMade_supply {r : MadeReference} {g : SuppGrant} {s : Option SuppData} {live : Nat} (hr : ∀ x, r ≠ .object x) :
    NothingMade live (some (r.supply g s live).2) := by
  cases r with
  | null =>
    refine .inl ?_
    cases s <;> rfl
  | error =>
    refine .inr ?_
    cases s <;> rfl
  | object x => exact absurd rfl (hr x)

theorem createElement_nothing {g : Grant} {d : DataDesc} (live : Nat)
    (h : ¬ ((d.fromExemplar itemSizes).isSome = true ∧ g = .both)) :
    ∃ r, createElement g itemSizes d live = (r, live) ∧ ∀ x, r ≠ .object x := by
  unfold createElement
  cases he : d.fromExemplar itemSizes with
  | none =>
    refine ⟨d.refusal, rfl, fun x => ?_⟩
    cases d <;> exact MadeReference.noConfusion
  | some e =>
    cases g with
    | both => exact absurd ⟨by rw [he]; rfl, rfl⟩ h
    | noReference =>
      refine ⟨d.unreferenced, rfl, fun x => ?_⟩
      cases d <;> exact MadeReference.noConfusion
    | noDescriptor => exact ⟨.error, rfl, fun _ => MadeReference.noConfusion⟩

/-- Where a level cannot be created, the pyramid and the levels before it are released. -/
theorem ownCreatePyramidFromExemplar_nothing {G : Grants} {P : PyramidDesc} {n : Nat} {s : Option SuppData} (live : Nat)
    (h : ¬ (P.isAccepted n = true ∧ G.own [] = .both ∧
      ∀ k < n, (P.level scaled k).isSome = true ∧ (G.part k).own [] = .both)) :
    ∃ r, ownCreatePyramidFromExemplar scaled G P n s live = (r, live) ∧ ∀ x, r ≠ .object x := by
  have hcreate : ∃ r, vxCreatePyramid scaled G P n live = (.error r, live) ∧ ∀ x, r ≠ .object x := by
    unfold vxCreatePyramid
    split
    · rename_i hacc
      cases hown : G.own [] with
      | both =>
        have hcases : _ ∨ initLevels scaled G P n 0 [] (live + 1) = _ := initLevels_cases n 0 [] (live + 1)
        rcases hcases with hall | hnone
        · refine absurd ⟨hacc, hown, fun k hk => ?_⟩ h
          rw [← Nat.zero_add k]
          exact hall k hk
        · dsimp only
          rw [hnone]
          exact ⟨.null, rfl, fun _ => MadeReference.noConfusion⟩
      | noReference => exact ⟨.null, rfl, fun _ => MadeReference.noConfusion⟩
      | noDescriptor => exact ⟨.error, rfl, fun _ => MadeReference.noConfusion⟩
    · exact ⟨.null, rfl, fun _ => MadeReference.noConfusion⟩
  obtain ⟨r, hr, hne⟩ := hcreate
  refine ⟨r, ?_, hne⟩
  rw [ownCreatePyramidFromExemplar, hr]

theorem nothing_made {x : DataObject} {G : Grants} (live : Nat) (hx : x.Created scaled) (hw : x.Whole itemSizes)
    (hk : x.Kept itemSizes scaled G) (hc : ¬ x.Creatable itemSizes scaled G) :
    NothingMade live (tivxCreateReferenceFromExemplar scaled itemSizes G x live) := by
  cases hx with
  | null => exact hw.elim
  | @element d s hd =>
    obtain ⟨r, hr, hne⟩ := createElement_nothing live hc
    rw [tivxCreateReferenceFromExemplar, hr]
    exact nothingMade_supply hne
  | @pyramid P ls s =>
    obtain ⟨r, hr, hne⟩ := ownCreatePyramidFromExemplar_nothing (s := s) live hc
    rw [tivxCreateReferenceFromExemplar, hr]
    exact nothingMade_supply hne
  | @objectArray A xs s hpos hmax hitems htypes =>
    obtain ⟨hdescriptor, -, hall, hkept⟩ := hk
    have hown : G.own [] = .noReference := by
      cases hg : G.own [] with
      | both => exact absurd ⟨hg, hall⟩ hc
      | noReference => rfl
      | noDescriptor => exact absurd hg hdescriptor
    obtain ⟨ys, hlist, ha, -⟩ := copies_made live hitems hw hkept hall
    have hspec := items_spec ha hw (fun x hx m hm => (htypes x hx m hm).1)
    have hlen := ha.length_eq
    have hne : ys ≠ [] := List.ne_nil_of_length_pos (hlen ▸ hpos)
    obtain ⟨-, hnull⟩ := objectArrayFromList_spec A.isFromList live hne (hlen ▸ hmax) (fun y hy => (hspec y hy).1)
      (fun y hy => (hspec y hy).2.1) (fun y hy => (hspec y hy).2.2)
    rw [tivxCreateReferenceFromExemplar, hlist]
    dsimp only
    rw [hown, hnull]
    exact nothingMade_supply (fun _ => MadeReference.noConfusion)

/-- A copy has the meta format of its exemplar, here and in all elements and levels, and the supplementary data of it, which a
pyramid passes on to its levels and an object array to its elements; or nothing is made, and nothing is left. -/
theorem tivxCreateReferenceFromExemplar_isCopied {x : DataObject} {G : Grants} (live : Nat) (hx : x.Created scaled)
    (hw : x.Whole itemSizes) (hk : x.Kept itemSizes scaled G) :
    IsCopied .passedOn x live (tivxCreateReferenceFromExemplar scaled itemSizes G x live) := by
  by_cases hc : x.Creatable itemSizes scaled G
  · obtain ⟨y, hy, ha, hs⟩ := copy_made live hx hw hk hc
    exact ⟨_, _, hy, ha, hs⟩
  · rcases nothing_made live hx hw hk hc with h | h
    · exact ⟨_, _, h, rfl⟩
    · exact ⟨_, _, h, rfl⟩

/-- A reference that is no object ends the loop over a list. -/
theorem ownInitObjArrayFromList_stops {r : MadeReference} (hr : ∀ y, r ≠ .object y) {type : Option MetaType} :
    ∀ {list : List MadeReference} {success : Bool}, r ∈ list → (MadeReference.ownInitObjArrayFromList type success list).1 = false
  | .null :: _, _, _ => rfl
  | .error :: _, _, _ => rfl
  | .object y :: list, _, hmem => by
    have hlist : r ∈ list := (List.mem_cons.1 hmem).resolve_left (hr y)
    rw [MadeReference.ownInitObjArrayFromList]
    split
    · exact ownInitObjArrayFromList_stops hr hlist
    · exact ownInitObjArrayFromList_stops hr hlist

theorem objectArrayFromList_dereferences {g : Grant} {isFromList : Bool} {list : List MadeReference} {live : Nat}
    (hg : g ≠ .noReference) (h : g = .noDescriptor ∨ ∃ r ∈ list, ∀ y, r ≠ .object y) :
    objectArrayFromList g isFromList list live = none := by
  have herror : (MadeReference.tivxCreateObjectArrayFromList g list live).1 = .error .error := by
    unfold MadeReference.tivxCreateObjectArrayFromList
    split
    · split
      · rfl
      · cases g with
        | noReference => exact absurd rfl hg
        | noDescriptor => rfl
        | both =>
          obtain ⟨r, hmem, hr⟩ := h.resolve_left Grant.noConfusion
          dsimp only
          split
          · rename_i hinit
            have hstop := congrArg Prod.fst hinit
            rw [ownInitObjArrayFromList_stops hr hmem] at hstop
            cases hstop
          · rfl
    · rfl
  unfold objectArrayFromList
  cases hrun : MadeReference.tivxCreateObjectArrayFromList g list live with
  | mk made live =>
    rw [hrun] at herror
    obtain rfl : made = .error .error := herror
    rfl

theorem supply_ne_object {r : MadeReference} {g : SuppGrant} {s : Option SuppData} {live live' : Nat}
    (h : NothingMade live (some (r, live'))) (y : DataObject) : (r.supply g s live').2.1 ≠ .object y := by
  rcases h with h | h
  · cases h
    cases s <;> exact MadeReference.noConfusion
  · cases h
    cases s <;> exact MadeReference.noConfusion

/-- The list has a reference that is no object where an element cannot be copied. -/
theorem refList_stops {G : Grants} {s : Option SuppData} {x : DataObject} : ∀ {xs : List DataObject} {i k live n : Nat}
    {list : List MadeReference}, xs[k]? = some x →
      (∀ live, NothingMade live (tivxCreateReferenceFromExemplar scaled itemSizes (G.part (i + k)) x live)) →
        refList scaled itemSizes G s i xs live = some (list, n) → ∃ r ∈ list, ∀ y, r ≠ .object y
  | [], _, _, _, _, _, hx, _, _ => by cases hx
  | x' :: xs, i, k, live, n, list, hx, hnone, hlist => by
    rw [refList] at hlist
    split at hlist
    · cases hlist
    · rename_i r live' hrun
      dsimp only at hlist
      split at hlist
      · split at hlist
        · cases hlist
        · rename_i list' n' hlist'
          cases hlist
          cases k with
          | zero =>
            obtain rfl := Option.some.inj hx
            exact ⟨_, List.mem_cons_self .., supply_ne_object (hrun ▸ hnone live)⟩
          | succ k =>
            have hnext : ∀ live, NothingMade live
                (tivxCreateReferenceFromExemplar scaled itemSizes (G.part (i + 1 + k)) x live) := by
              rw [Nat.add_assoc, Nat.add_comm 1 k]
              exact hnone
            have hx' : xs[k]? = some x := hx
            obtain ⟨r', hmem, hr'⟩ := refList_stops hx' hnext hlist'
            exact ⟨r', List.mem_cons_of_mem _ hmem, hr'⟩
      · cases hlist
        cases k with
        | zero =>
          obtain rfl := Option.some.inj hx
          exact ⟨_, List.mem_cons_self .., supply_ne_object (hrun ▸ hnone live)⟩
        | succ k =>
          have hpos : xs.length ≠ 0 := by
            intro h0
            rw [List.length_eq_zero_iff.1 h0] at hx
            cases hx
          exact ⟨.null, List.mem_cons_of_mem _ (List.mem_replicate.2 ⟨hpos, rfl⟩), fun _ => MadeReference.noConfusion⟩

/-- Where an element of an object array cannot be copied, or the array gets no descriptor, an error object is dereferenced. -/
theorem objectArray_dereferences {A : ObjectArrayDesc} {xs : List DataObject} {s : Option SuppData} {G : Grants} {live : Nat}
    (hown : G.own [] ≠ .noReference) (h : G.own [] = .noDescriptor ∨ ∃ k x, xs[k]? = some x ∧
      ∀ live, NothingMade live (tivxCreateReferenceFromExemplar scaled itemSizes (G.part k) x live)) :
    tivxCreateReferenceFromExemplar scaled itemSizes G (objectArray A xs s) live = none := by
  rw [tivxCreateReferenceFromExemplar]
  cases hl : refList scaled itemSizes G s 0 xs live with
  | none => rfl
  | some R =>
    dsimp only
    rw [objectArrayFromList_dereferences hown (h.imp_right ?_)]
    rintro ⟨k, x, hx, hnone⟩
    exact refList_stops (i := 0) hx (by rwa [Nat.zero_add]) hl

end DataObject

end

/-- All bytes of supplementary data that is created are valid, also where those of the source are not. -/
theorem SuppGrant.validMemSize_created {g : SuppGrant} {source d : SuppData} (hle : source.validMemSize ≤ source.memSize)
    (h : g.vxSetSupplementaryUserDataObject none source = (vxSuccess, some d)) : d.validMemSize = source.memSize := by
  obtain ⟨e, d', he, hd, -, hvalid⟩ := host_spec h
  obtain rfl := Option.some.inj hd
  obtain rfl := Option.some.inj he
  apply UInt32.toNat_inj.1
  have hmax := UInt32.le_iff_toNat_le.1 hle
  rw [hvalid]
  exact Nat.max_eq_left (Nat.max_le.2 ⟨hmax, hmax⟩)

namespace DataObject

/-- An object array of two images, with supplementary data that the images do not have. -/
def suppliedArray : DataObject := (imageArray 16 16).setSupplementary (some (eightBytes 7 8))

theorem created_suppliedArray : suppliedArray.Created halved := by
  cases (created_imageArray : (imageArray 16 16).Created halved) with
  | objectArray _ hpos hmax hitems htypes => exact .objectArray _ hpos hmax hitems htypes

theorem whole_suppliedArray : suppliedArray.Whole (fun _ => 0) := ⟨trivial, rfl, trivial, rfl, trivial⟩

theorem creatable_suppliedArray : suppliedArray.Creatable (fun _ => 0) halved {} := ⟨rfl, ⟨rfl, rfl⟩, ⟨rfl, rfl⟩, trivial⟩

theorem kept_suppliedArray : suppliedArray.Kept (fun _ => 0) halved {} := by
  have hfull : (eightBytes 7 8).Full := ⟨by decide, rfl⟩
  have hsupp : ({} : SuppGrant).Supplies none (some (eightBytes 7 8)) := SuppGrant.supplies_new hfull
  refine ⟨fun h => (by cases h), hsupp, creatable_suppliedArray.2, ⟨trivial, ?_⟩, hsupp, ⟨trivial, ?_⟩, hsupp, trivial⟩
  · exact SuppGrant.supplies_none
  · exact SuppGrant.supplies_none

theorem suppliedArray_isCopied :
    IsCopied .passedOn suppliedArray 3 (tivxCreateReferenceFromExemplar halved (fun _ => 0) {} suppliedArray 3) :=
  tivxCreateReferenceFromExemplar_isCopied 3 created_suppliedArray whole_suppliedArray kept_suppliedArray

/-- With everything that is needed, the images of the copy have supplementary data that those of the exemplar do not have. -/
theorem suppliedElements_wrong : suppliedArray.Created halved ∧ suppliedArray.Whole (fun _ => 0) ∧
    ¬ IsCopied .own suppliedArray 3 (tivxCreateReferenceFromExemplar halved (fun _ => 0) {} suppliedArray 3) := by
  refine ⟨created_suppliedArray, whole_suppliedArray, ?_⟩
  obtain ⟨y, hy, -, hs⟩ := copy_made 3 created_suppliedArray whole_suppliedArray kept_suppliedArray creatable_suppliedArray
  rintro ⟨r, live', hr, h⟩
  rw [hy] at hr
  obtain ⟨rfl, rfl⟩ := Prod.mk.inj (Option.some.inj hr)
  obtain ⟨-, hown⟩ := h
  cases y with
  | objectArray B ys t =>
    cases ys with
    | nil => exact hs.2
    | cons z ys =>
      have hz : SuppAlike z.supplementary (some (eightBytes 7 8)) := hs.2.1.supplementary
      have hz' : SuppAlike z.supplementary none := hown.2.1.supplementary
      cases hzs : z.supplementary with
      | none =>
        rw [hzs] at hz
        exact hz
      | some e =>
        rw [hzs] at hz'
        exact hz'
  | _ => exact hs

end DataObject

end Tiovx
