import Mathlib.Data.List.Basic
import Mathlib.Logic.Function.Basic
import Tiovx.CmdObjects
import Tiovx.ObjDesc
import Tiovx.ScheduleStatus
/-!
# ObjectArrayList — `tivxCreateObjectArrayFromList` (`vx_objarray.c`)

The entries of the list are put into the array one after the other, each counted once more internally and externally and
rescoped to the array.  Where the loop ends with an error the entries put in are released again.
-/
namespace Tiovx

/-- `TIVX_OBJECT_ARRAY_MAX_ITEMS`. -/
def objectArrayMaxItems : Nat := 32

def vxErrorNotCompatible : Int := -6

def vxErrorInvalidType : Int := -17

def vxErrorInvalidScope : Int := -20

theorem vxErrorNotCompatible_ne : vxErrorNotCompatible ≠ vxSuccess := by decide

theorem vxErrorInvalidType_ne : vxErrorInvalidType ≠ vxSuccess := by decide

theorem vxErrorInvalidScope_ne : vxErrorInvalidScope ≠ vxSuccess := by decide

/-- The types an element of an object array can have, and the others. -/
inductive ElementType
  | image
  | tensor
  | array
  | userDataObject
  | rawImage
  | scalar
  | distribution
  | threshold
  | pyramid
  | matrix
  | remap
  | lut
  | objectArray
  | other
deriving DecidableEq

/-- A reference that is listed, with the fields of its descriptor; `itemType` is that of an object array, and the scope
`none` is the context. -/
structure ListedRef where
  type : ElementType
  itemType : ElementType := .other
  isVirtual : Bool := false
  scope : Option Nat := none
  internalCount : UInt32 := 0
  externalCount : UInt32 := 1
  objDescId : Nat
  scopeObjDescId : Nat := objDescInvalid
  elementIdx : Nat := 0
deriving DecidableEq

/-- The references that are valid, and `ref` and `obj_desc_id` of the array. -/
structure ListCall where
  refs : Nat → Option ListedRef
  ref : Nat → Option Nat := fun _ => none
  objDescIds : Nat → Nat := fun _ => 0

/-- What the call returns, if it is not an error object, and the references after it. -/
structure ListOutcome where
  array : Option ListCall
  refs : Nat → Option ListedRef

/-- `ownIsValidObjArrayType`. -/
def ListedRef.isValidObjArrayType (R : ListedRef) : Bool :=
  match R.type with
  | .other => false
  | .objectArray => R.itemType != .objectArray
  | _ => true

/-- The changes that `ownAddRefToObjArray` makes to the reference put at `i` into the array `a`, whose descriptor is
`arrayId`. -/
def ListedRef.added (a arrayId i : Nat) (R : ListedRef) : ListedRef :=
  { R with
    elementIdx := i
    internalCount := R.internalCount + 1
    externalCount := R.externalCount + 1
    scope := some a
    scopeObjDescId := arrayId }

/-- The changes that `ownReleaseRefFromObjArray` makes, for an array in the context; a count that is zero stays so. -/
def ListedRef.released (R : ListedRef) : ListedRef :=
  { R with
    internalCount := if R.internalCount = 0 then 0 else R.internalCount - 1
    scope := none
    externalCount := if R.externalCount = 0 then 0 else R.externalCount - 1 }

section

variable (a arrayId : Nat) (itemType : ElementType)

/-- `ownAddRefToObjArray` of a valid reference. -/
def ListCall.ownAddRefToObjArray (s : ListCall) (r : Nat) (R : ListedRef) (i : Nat) : ListCall where
  refs := Function.update s.refs r (some (R.added a arrayId i))
  ref := Function.update s.ref i (some r)
  objDescIds := Function.update s.objDescIds i R.objDescId

/-- The loop of `ownInitObjArrayFromList` from `i` on, with the status so far: only an invalid reference ends it. -/
def ListCall.addList : List Nat → Nat → ListCall → Int → ListCall × Nat × Int
  | [], i, s, status => (s, i, status)
  | r :: l, i, s, _ =>
    match s.refs r with
    | none => (s, i, vxErrorNoResources)
    | some R =>
      if R.type ≠ itemType then addList l (i + 1) s vxErrorInvalidType
      else if R.isVirtual then addList l (i + 1) s vxErrorNotCompatible
      else if R.scope ≠ none then addList l (i + 1) s vxErrorInvalidScope
      else addList l (i + 1) (s.ownAddRefToObjArray a arrayId r R i) vxSuccess

/-- `ownReleaseRefFromObjArray`; a reference without counts is destroyed. -/
def ListCall.ownReleaseRefFromObjArray (s : ListCall) (k : Nat) : ListCall :=
  match s.ref k with
  | none => s
  | some r =>
    { s with
      refs := Function.update s.refs r ((s.refs r).bind (fun R =>
        if R.released.internalCount + R.released.externalCount = 0 then none else some R.released))
      ref := Function.update s.ref k none }

/-- `ownInitObjArrayFromList`, with the release of the entries put in where the status is an error. -/
def ListCall.ownInitObjArrayFromList (s : ListCall) (list : List Nat) : ListCall × Int :=
  let t := s.addList a arrayId itemType list 0 vxSuccess
  if t.2.2 = vxSuccess then (t.1, vxSuccess)
  else ((List.range t.2.1).foldl ListCall.ownReleaseRefFromObjArray t.1, t.2.2)

end

/-- The checks of `ownCreateObjArrayInt`: the item type, or none where no array is made. -/
def listItemType (refs : Nat → Option ListedRef) (list : List Nat) : Option ElementType :=
  (list.head?.bind refs).bind (fun R =>
    if list.length ≤ objectArrayMaxItems ∧ R.isValidObjArrayType = true then some R.type else none)

/-- `tivxCreateObjectArrayFromList`; where there are resources the array gets the reference `a` and the descriptor `arrayId`. -/
def tivxCreateObjectArrayFromList (resources : Bool) (a arrayId : Nat) (refs : Nat → Option ListedRef) (list : List Nat) :
    ListOutcome :=
  match listItemType refs list with
  | none => ⟨none, refs⟩
  | some itemType =>
    if resources then
      match ListCall.ownInitObjArrayFromList a arrayId itemType { refs := refs } list with
      | (s, status) => ⟨if status = vxSuccess then some s else none, s.refs⟩
    else ⟨none, refs⟩

/-- A valid reference of the item type, virtuality and scope of the array. -/
def isListable (refs : Nat → Option ListedRef) (itemType : ElementType) (r : Nat) : Bool :=
  (refs r).any (fun R => R.type = itemType && !R.isVirtual && R.scope.isNone)

/-- **A list makes an array when, and only when, each entry can be in it**; its elements are then the entries, and where it
does not the references are as before. -/
structure MakesArray (resources : Bool) (refs : Nat → Option ListedRef) (list : List Nat) (out : ListOutcome) : Prop where
  succeeds : out.array.isSome = true ↔
    ∃ itemType, listItemType refs list = some itemType ∧ resources = true ∧ ∀ r ∈ list, isListable refs itemType r = true
  elements : ∀ A, out.array = some A → ∀ i r, list[i]? = some r →
    A.ref i = some r ∧ ∃ R, refs r = some R ∧ A.objDescIds i = R.objDescId
  restored : out.array = none → ∀ r ∈ list, out.refs r = refs r

/-- The entries put in, with their places: those that can be in the array and are not in it, up to an invalid one. -/
def entriesAdded (refs : Nat → Option ListedRef) (itemType : ElementType) : List Nat → List Nat → Nat → List (Nat × Nat)
  | _, [], _ => []
  | seen, r :: l, i =>
    if (refs r).isNone then []
    else if isListable refs itemType r && !seen.contains r then (i, r) :: entriesAdded refs itemType (r :: seen) l (i + 1)
    else entriesAdded refs itemType seen l (i + 1)

/-- Being put in and released again leaves a reference as it is: its descriptor names this array and place already, and its
counts do not run over. -/
def ListedRef.keepsMarks (arrayId i : Nat) (R : ListedRef) : Bool :=
  R.scopeObjDescId = arrayId && R.elementIdx = i && R.internalCount + 1 != 0 && R.externalCount + 1 != 0 &&
    R.internalCount + R.externalCount != 0

/-- Every entry can be in the array and none is listed twice; or one cannot, the loop ends with an invalid reference or with
an entry that is not put in, and those put in are left as they are. -/
def listFits (resources : Bool) (arrayId : Nat) (refs : Nat → Option ListedRef) (list : List Nat) : Bool :=
  !resources || (listItemType refs list).all (fun itemType =>
    if list.all (isListable refs itemType) then decide list.Nodup
    else
      (list.any (fun r => (refs r).isNone) ||
        list.getLast?.any (fun r => !isListable refs itemType r || list.dropLast.contains r)) &&
      (entriesAdded refs itemType [] list 0).all (fun p => (refs p.2).all (·.keepsMarks arrayId p.1)))

variable {resources : Bool} {a arrayId : Nat} {itemType : ElementType} {refs : Nat → Option ListedRef} {list seen l : List Nat}
  {s : ListCall} {ps : List (Nat × Nat)} {r i : Nat}

theorem isListable_iff :
    isListable refs itemType r = true ↔ ∃ R, refs r = some R ∧ R.type = itemType ∧ R.isVirtual = false ∧ R.scope = none := by
  unfold isListable
  cases refs r with
  | none => simp
  | some R => simp [and_assoc]

/-! ### What the loop puts in -/

/-- The entries `ps` are in the array, with their places. -/
structure Adding (a arrayId : Nat) (itemType : ElementType) (refs : Nat → Option ListedRef) (ps : List (Nat × Nat))
    (s : ListCall) : Prop where
  put : ∀ k r, (k, r) ∈ ps → isListable refs itemType r = true ∧ s.refs r = (refs r).map (·.added a arrayId k) ∧
    s.ref k = some r ∧ ∃ R, refs r = some R ∧ s.objDescIds k = R.objDescId
  off : ∀ r, (∀ k, (k, r) ∉ ps) → s.refs r = refs r
  free : ∀ k, (∀ r, (k, r) ∉ ps) → s.ref k = none

theorem Adding.start : Adding a arrayId itemType refs [] { refs := refs } where
  put _ _ h := by cases h
  off _ _ := rfl
  free _ _ := rfl

/-- Nothing is put in twice, nor at two places. -/
theorem Adding.unique (h : Adding a arrayId itemType refs ps s) {k k' : Nat} (hk : (k, r) ∈ ps) (hk' : (k', r) ∈ ps) :
    k = k' := by
  obtain ⟨hl, h1, -, -⟩ := h.put k r hk
  obtain ⟨-, h2, -, -⟩ := h.put k' r hk'
  obtain ⟨R, hR, -⟩ := isListable_iff.1 hl
  rw [h1, hR] at h2
  simp only [Option.map_some, Option.some.injEq] at h2
  exact congrArg ListedRef.elementIdx h2

theorem Adding.unique_place (h : Adding a arrayId itemType refs ps s) {k r' : Nat} (hr : (k, r) ∈ ps) (hr' : (k, r') ∈ ps) :
    r = r' := by
  have h1 := (h.put k r hr).2.2.1
  rw [(h.put k r' hr').2.2.1] at h1
  exact (Option.some.inj h1).symm

theorem Adding.add (h : Adding a arrayId itemType refs ps s) {R : ListedRef} (hR : refs r = some R)
    (hl : isListable refs itemType r = true) (hnew : ∀ k, (k, r) ∉ ps) (hi : ∀ p ∈ ps, p.1 < i) :
    Adding a arrayId itemType refs (ps ++ [(i, r)]) (s.ownAddRefToObjArray a arrayId r R i) where
  put k r' hk := by
    rcases List.mem_append.1 hk with hold | hk
    · obtain ⟨h1, h2, h3, h4⟩ := h.put k r' hold
      have hne : r' ≠ r := by
        rintro rfl
        exact hnew k hold
      have hki : k ≠ i := by
        have := hi _ hold
        simp only at this
        omega
      exact ⟨h1, (Function.update_of_ne hne _ _).trans h2, (Function.update_of_ne hki _ _).trans h3,
        by obtain ⟨R', hR', hd⟩ := h4; exact ⟨R', hR', (Function.update_of_ne hki _ _).trans hd⟩⟩
    · obtain ⟨rfl, rfl⟩ := Prod.mk.inj (List.mem_singleton.1 hk)
      refine ⟨hl, ?_, Function.update_self _ _ _, R, hR, Function.update_self _ _ _⟩
      rw [hR]
      exact Function.update_self _ _ _
  off r' hr' := by
    have hne : r' ≠ r := by
      rintro rfl
      exact hr' i (by simp)
    exact (Function.update_of_ne hne _ _).trans (h.off r' (fun k hk => hr' k (List.mem_append_left _ hk)))
  free k hk := by
    have hne : k ≠ i := by
      rintro rfl
      exact hk r (by simp)
    exact (Function.update_of_ne hne _ _).trans (h.free k (fun r' hr' => hk r' (List.mem_append_left _ hr')))

/-- What the loop does with an entry. -/
theorem Adding.cons (h : Adding a arrayId itemType refs ps s) (r i : Nat) :
    refs r = none ∧ (∀ l status, s.addList a arrayId itemType (r :: l) i status = (s, i, vxErrorNoResources)) ∨
    (∃ R, refs r = some R ∧ isListable refs itemType r = true ∧ (∀ k, (k, r) ∉ ps) ∧
      ∀ l status, s.addList a arrayId itemType (r :: l) i status =
        (s.ownAddRefToObjArray a arrayId r R i).addList a arrayId itemType l (i + 1) vxSuccess) ∨
    refs r ≠ none ∧ (isListable refs itemType r = true → ∃ k, (k, r) ∈ ps) ∧
      ∃ e, e ≠ vxSuccess ∧ ∀ l status, s.addList a arrayId itemType (r :: l) i status =
        s.addList a arrayId itemType l (i + 1) e := by
  by_cases hin : ∃ k, (k, r) ∈ ps
  · obtain ⟨k, hk⟩ := hin
    obtain ⟨hl, hs, -, -⟩ := h.put k r hk
    obtain ⟨R, hR, hty, hvi, hsc⟩ := isListable_iff.1 hl
    rw [hR] at hs
    refine .inr (.inr ⟨by rw [hR]; exact nofun, fun _ => ⟨k, hk⟩, vxErrorInvalidScope, by decide, fun l status => ?_⟩)
    rw [ListCall.addList, hs]
    simp [ListedRef.added, hty, hvi]
  · have hnot : ∀ k, (k, r) ∉ ps := fun k hk => hin ⟨k, hk⟩
    have hs := h.off r hnot
    cases hR : refs r with
    | none =>
      refine .inl ⟨rfl, fun l status => ?_⟩
      rw [ListCall.addList, hs, hR]
    | some R =>
      rw [hR] at hs
      by_cases hl : isListable refs itemType r = true
      · obtain ⟨R', hR', hty, hvi, hsc⟩ := isListable_iff.1 hl
        rw [hR] at hR'
        cases hR'
        refine .inr (.inl ⟨R, rfl, hl, hnot, fun l status => ?_⟩)
        rw [ListCall.addList, hs]
        simp [hty, hvi, hsc]
      · refine .inr (.inr ⟨nofun, fun h => absurd h hl, ?_⟩)
        have hno : ¬(R.type = itemType ∧ R.isVirtual = false ∧ R.scope = none) :=
          fun hok => hl (isListable_iff.2 ⟨R, hR, hok⟩)
        by_cases hty : R.type = itemType
        · by_cases hvi : R.isVirtual = true
          · refine ⟨vxErrorNotCompatible, by decide, fun l status => ?_⟩
            rw [ListCall.addList, hs]
            simp [hty, hvi]
          · rw [Bool.not_eq_true] at hvi
            have hsc : R.scope ≠ none := fun hsc => hno ⟨hty, hvi, hsc⟩
            refine ⟨vxErrorInvalidScope, by decide, fun l status => ?_⟩
            rw [ListCall.addList, hs]
            simp [hty, hvi, hsc]
        · refine ⟨vxErrorInvalidType, by decide, fun l status => ?_⟩
          rw [ListCall.addList, hs]
          simp [hty]

/-- The entries put in so far and those still to come. -/
theorem Adding.addList {s : ListCall} {ps : List (Nat × Nat)} (h : Adding a arrayId itemType refs ps s) :
    ∀ (l seen : List Nat) (i : Nat) (status : Int), (∀ r, r ∈ seen ↔ ∃ k, (k, r) ∈ ps) → (∀ p ∈ ps, p.1 < i) →
    Adding a arrayId itemType refs (ps ++ entriesAdded refs itemType seen l i)
        (s.addList a arrayId itemType l i status).1 ∧
      ∀ p ∈ ps ++ entriesAdded refs itemType seen l i, p.1 < (s.addList a arrayId itemType l i status).2.1
  | [], seen, i, status, hseen, hi => by
    simpa only [entriesAdded, List.append_nil, ListCall.addList] using And.intro h hi
  | r :: l, seen, i, status, hseen, hi => by
    rcases h.cons r i with ⟨hR, heq⟩ | ⟨R, hR, hl, hnew, heq⟩ | ⟨hR, hno, e, -, heq⟩
    · rw [heq l status, entriesAdded, hR]
      simpa using And.intro h hi
    · have hns : r ∉ seen := fun hr => by
        obtain ⟨k, hk⟩ := (hseen r).1 hr
        exact hnew k hk
      have hcons : entriesAdded refs itemType seen (r :: l) i =
          (i, r) :: entriesAdded refs itemType (r :: seen) l (i + 1) := by
        rw [entriesAdded, hR, hl]
        simp [hns]
      rw [heq l status, hcons, List.append_cons]
      refine (h.add hR hl hnew hi).addList l (r :: seen) (i + 1) vxSuccess (fun x => ?_) (fun p hp => ?_)
      · rw [List.mem_cons, hseen x]
        constructor
        · rintro (rfl | ⟨k, hk⟩)
          · exact ⟨i, by simp⟩
          · exact ⟨k, List.mem_append_left _ hk⟩
        · rintro ⟨k, hk⟩
          rcases List.mem_append.1 hk with hk | hk
          · exact .inr ⟨k, hk⟩
          · exact .inl (Prod.mk.inj (List.mem_singleton.1 hk)).2
      · rcases List.mem_append.1 hp with hp | hp
        · exact Nat.lt_succ_of_lt (hi p hp)
        · rw [List.mem_singleton.1 hp]
          exact Nat.lt_succ_self i
    · have hcons : entriesAdded refs itemType seen (r :: l) i = entriesAdded refs itemType seen l (i + 1) := by
        have hnone : (refs r).isNone = false := by
          rw [Bool.eq_false_iff, Ne, Option.isNone_iff_eq_none]
          exact hR
        have hfalse : (isListable refs itemType r && !seen.contains r) = false := by
          rw [Bool.and_eq_false_iff]
          by_cases hl : isListable refs itemType r = true
          · right
            simpa using (hseen r).2 (hno hl)
          · left
            simpa using hl
        rw [entriesAdded, hnone, hfalse]
        rfl
      rw [heq l status, hcons]
      exact h.addList l seen (i + 1) e hseen (fun p hp => Nat.lt_succ_of_lt (hi p hp))

/-- The status of the loop is that of the last entry, unless an invalid one ends it. -/
theorem Adding.status : ∀ {l : List Nat} {i : Nat} {s : ListCall} {ps : List (Nat × Nat)} {status : Int},
    Adding a arrayId itemType refs ps s → (∀ p ∈ ps, p.1 < i) → l ≠ [] →
    ((s.addList a arrayId itemType l i status).2.2 = vxSuccess ↔
      (∀ r ∈ l, refs r ≠ none) ∧ ∀ r ∈ l.getLast?, isListable refs itemType r = true ∧ (∀ k, (k, r) ∉ ps) ∧ r ∉ l.dropLast)
  | [], _, _, _, _, _, _, hne => absurd rfl hne
  | r :: l, i, s, ps, status, h, hi, _ => by
    rcases h.cons r i with ⟨hR, heq⟩ | ⟨R, hR, hl, hnew, heq⟩ | ⟨hR, hno, e, he, heq⟩
    · rw [heq l status]
      exact iff_of_false vxErrorNoResources_ne (fun hall => hall.1 r List.mem_cons_self hR)
    · rw [heq l status]
      cases l with
      | nil =>
        simp only [ListCall.addList]
        refine iff_of_true trivial ⟨?_, ?_⟩
        · intro x hx
          rw [List.mem_singleton.1 hx, hR]
          exact nofun
        · intro x hx
          simp only [List.getLast?_singleton, Option.mem_def, Option.some.injEq] at hx
          subst hx
          exact ⟨hl, hnew, List.not_mem_nil⟩
      | cons y l =>
        rw [Adding.status (h.add hR hl hnew hi) (fun p hp => ?_) (List.cons_ne_nil y l)]
        · rw [List.getLast?_cons_cons, List.dropLast_cons_of_ne_nil (List.cons_ne_nil y l)]
          have hval : refs r ≠ none := by rw [hR]; exact nofun
          refine and_congr ⟨fun hv x hx => ?_, fun hv x hx => hv x (List.mem_cons_of_mem _ hx)⟩ ?_
          · rcases List.mem_cons.1 hx with rfl | hx
            · exact hval
            · exact hv x hx
          · refine forall₂_congr (fun x _ => and_congr_right (fun _ => ?_))
            constructor
            · rintro ⟨hps, hd⟩
              refine ⟨fun k hk => hps k (List.mem_append_left _ hk), fun hm => ?_⟩
              rcases List.mem_cons.1 hm with rfl | hm
              · exact hps i (by simp)
              · exact hd hm
            · rintro ⟨hps, hd⟩
              refine ⟨fun k hk => ?_, fun hm => hd (List.mem_cons_of_mem _ hm)⟩
              rcases List.mem_append.1 hk with hk | hk
              · exact hps k hk
              · rw [(Prod.mk.inj (List.mem_singleton.1 hk)).2] at hd
                exact hd List.mem_cons_self
        · rcases List.mem_append.1 hp with hp | hp
          · exact Nat.lt_succ_of_lt (hi p hp)
          · rw [List.mem_singleton.1 hp]
            exact Nat.lt_succ_self i
    · rw [heq l status]
      cases l with
      | nil =>
        simp only [ListCall.addList]
        refine iff_of_false he (fun hall => ?_)
        obtain ⟨hl, hps, -⟩ := hall.2 r rfl
        obtain ⟨k, hk⟩ := hno hl
        exact hps k hk
      | cons y l =>
        rw [Adding.status h (fun p hp => Nat.lt_succ_of_lt (hi p hp)) (List.cons_ne_nil y l)]
        rw [List.getLast?_cons_cons, List.dropLast_cons_of_ne_nil (List.cons_ne_nil y l)]
        refine and_congr ⟨fun hv x hx => ?_, fun hv x hx => hv x (List.mem_cons_of_mem _ hx)⟩ ?_
        · rcases List.mem_cons.1 hx with rfl | hx
          · exact hR
          · exact hv x hx
        · refine forall₂_congr (fun x _ => and_congr_right (fun hx => and_congr_right (fun hps => not_congr ?_)))
          rw [List.mem_cons, or_iff_right_of_imp]
          rintro rfl
          obtain ⟨k, hk⟩ := hno hx
          exact absurd hk (hps k)

/-! ### What the release of the entries leaves -/

/-- A reference that was put in at `k` and released again. -/
def ListedRef.undone (a arrayId k : Nat) (R : ListedRef) : Option ListedRef :=
  if (R.added a arrayId k).released.internalCount + (R.added a arrayId k).released.externalCount = 0 then none
  else some (R.added a arrayId k).released

theorem Adding.undo (h : Adding a arrayId itemType refs ps s) : ∀ m : Nat,
    (∀ k r, (k, r) ∈ ps → ((List.range m).foldl ListCall.ownReleaseRefFromObjArray s).refs r =
      if k < m then (refs r).bind (·.undone a arrayId k) else s.refs r) ∧
    (∀ r, (∀ k, (k, r) ∉ ps) → ((List.range m).foldl ListCall.ownReleaseRefFromObjArray s).refs r = refs r) ∧
    ∀ k, m ≤ k → ((List.range m).foldl ListCall.ownReleaseRefFromObjArray s).ref k = s.ref k
  | 0 => ⟨fun k r _ => by simp, h.off, fun _ _ => rfl⟩
  | m + 1 => by
    obtain ⟨hput, hoff, href⟩ := h.undo m
    rw [List.range_succ, List.foldl_append, List.foldl_cons, List.foldl_nil]
    generalize (List.range m).foldl ListCall.ownReleaseRefFromObjArray s = t at hput hoff href
    have hm := href m (Nat.le_refl m)
    cases hs : s.ref m with
    | none =>
      have hnot : ∀ r, (m, r) ∉ ps := by
        intro r hr
        have := (h.put m r hr).2.2.1
        rw [hs] at this
        cases this
      rw [hs] at hm
      rw [ListCall.ownReleaseRefFromObjArray, hm]
      refine ⟨fun k r hk => ?_, hoff, fun k hk => href k (by omega)⟩
      rw [hput k r hk]
      have hne : k ≠ m := by
        rintro rfl
        exact hnot r hk
      by_cases hlt : k < m
      · rw [if_pos hlt, if_pos (by omega)]
      · rw [if_neg hlt, if_neg (by omega)]
    | some r =>
      have hin : (m, r) ∈ ps := by
        by_contra hnot
        have hfree : s.ref m = none := by
          apply h.free
          intro r' hr'
          have := (h.put m r' hr').2.2.1
          rw [hs] at this
          cases this
          exact hnot hr'
        rw [hs] at hfree
        cases hfree
      rw [hs] at hm
      rw [ListCall.ownReleaseRefFromObjArray, hm]
      refine ⟨fun k r' hk => ?_, fun r' hr' => ?_, fun k hk => ?_⟩
      · show Function.update t.refs r _ r' = _
        by_cases hrr : r' = r
        · subst hrr
          obtain rfl : k = m := h.unique hk hin
          rw [Function.update_self, hput k r' hk, if_neg (Nat.lt_irrefl k), if_pos (Nat.lt_succ_self k),
            (h.put k r' hk).2.1]
          cases refs r' <;> rfl
        · rw [Function.update_of_ne hrr, hput k r' hk]
          have hne : k ≠ m := by
            rintro rfl
            exact hrr (h.unique_place hk hin)
          by_cases hlt : k < m
          · rw [if_pos hlt, if_pos (by omega)]
          · rw [if_neg hlt, if_neg (by omega)]
      · have hrr : r' ≠ r := by
          rintro rfl
          exact hr' m hin
        exact (Function.update_of_ne hrr _ _).trans (hoff r' hr')
      · exact (Function.update_of_ne (by omega) _ _).trans (href k (by omega))

theorem ListedRef.undone_eq_iff {R : ListedRef} (hscope : R.scope = none) (k : Nat) :
    R.undone a arrayId k = some R ↔ R.keepsMarks arrayId k = true := by
  have hcancel : ∀ c : UInt32, (if c + 1 = 0 then 0 else c + 1 - 1) = c ↔ c + 1 ≠ 0 := by
    intro c
    by_cases hc : c + 1 = 0
    · rw [if_pos hc]
      refine iff_of_false ?_ (fun h => h hc)
      rintro rfl
      exact absurd hc (by decide)
    · rw [if_neg hc]
      exact iff_of_true (UInt32.add_sub_cancel c 1) hc
  have hfields : (R.added a arrayId k).released = R ↔
      arrayId = R.scopeObjDescId ∧ k = R.elementIdx ∧ R.internalCount + 1 ≠ 0 ∧ R.externalCount + 1 ≠ 0 := by
    have hrec : (R.added a arrayId k).released =
        { R with
          internalCount := (R.added a arrayId k).released.internalCount
          externalCount := (R.added a arrayId k).released.externalCount
          scope := none
          scopeObjDescId := arrayId
          elementIdx := k } := rfl
    constructor
    · intro h
      exact ⟨congrArg ListedRef.scopeObjDescId h, congrArg ListedRef.elementIdx h,
        (hcancel _).1 (congrArg ListedRef.internalCount h), (hcancel _).1 (congrArg ListedRef.externalCount h)⟩
    · rintro ⟨h1, h2, h3, h4⟩
      have e1 : (R.added a arrayId k).released.internalCount = R.internalCount := (hcancel _).2 h3
      have e2 : (R.added a arrayId k).released.externalCount = R.externalCount := (hcancel _).2 h4
      rw [hrec, e1, e2, h1, h2, ← hscope]
  unfold ListedRef.undone ListedRef.keepsMarks
  simp only [Bool.and_eq_true, decide_eq_true_eq, bne_iff_ne]
  constructor
  · intro h
    split at h
    · cases h
    · rename_i hsum
      have heq := Option.some.inj h
      rw [heq] at hsum
      obtain ⟨h1, h2, h3, h4⟩ := hfields.1 heq
      exact ⟨⟨⟨⟨h1.symm, h2.symm⟩, h3⟩, h4⟩, hsum⟩
  · rintro ⟨⟨⟨⟨h1, h2⟩, h3⟩, h4⟩, h5⟩
    have heq := hfields.2 ⟨h1.symm, h2.symm, h3, h4⟩
    rw [heq, if_neg h5]

/-! ### The call -/

theorem mem_entriesAdded : ∀ (l seen : List Nat) (i : Nat), (∀ r ∈ l, isListable refs itemType r = true) →
    (∀ r ∈ l, r ∉ seen) → l.Nodup → ∀ {j r : Nat}, l[j]? = some r →
    (i + j, r) ∈ entriesAdded refs itemType seen l i
  | [], _, _, _, _, _, j, r, hj => by cases hj
  | y :: l, seen, i, hl, hs, hn, j, r, hj => by
    have hy := hl y List.mem_cons_self
    obtain ⟨R, hR, -⟩ := isListable_iff.1 hy
    have hcons : entriesAdded refs itemType seen (y :: l) i =
        (i, y) :: entriesAdded refs itemType (y :: seen) l (i + 1) := by
      rw [entriesAdded, hR, hy]
      simp [hs y List.mem_cons_self]
    rw [hcons]
    cases j with
    | zero =>
      cases hj
      exact List.mem_cons_self
    | succ j =>
      have hmem := mem_entriesAdded l (y :: seen) (i + 1) (fun r hr => hl r (List.mem_cons_of_mem _ hr)) ?_
        (List.nodup_cons.1 hn).2 hj
      · rw [Nat.add_right_comm] at hmem
        exact List.mem_cons_of_mem _ hmem
      · intro r hr hmem
        rcases List.mem_cons.1 hmem with rfl | hmem
        · exact (List.nodup_cons.1 hn).1 hr
        · exact hs r (List.mem_cons_of_mem _ hr) hmem

theorem mem_of_mem_entriesAdded : ∀ {l seen : List Nat} {i : Nat} {p : Nat × Nat},
    p ∈ entriesAdded refs itemType seen l i → p.2 ∈ l
  | [], _, _, _, h => by cases h
  | y :: l, seen, i, p, h => by
    rw [entriesAdded] at h
    split at h
    · cases h
    · split at h
      · rcases List.mem_cons.1 h with rfl | h
        · exact List.mem_cons_self
        · exact List.mem_cons_of_mem _ (mem_of_mem_entriesAdded h)
      · exact List.mem_cons_of_mem _ (mem_of_mem_entriesAdded h)

/-- The entries that were put in are as before when their marks are kept. -/
theorem Adding.undone_iff (h : Adding a arrayId itemType refs ps s) {m : Nat} (hlt : ∀ p ∈ ps, p.1 < m)
    (hmem : ∀ p ∈ ps, p.2 ∈ list) :
    (∀ r ∈ list, ((List.range m).foldl ListCall.ownReleaseRefFromObjArray s).refs r = refs r) ↔
      ps.all (fun p => (refs p.2).all (·.keepsMarks arrayId p.1)) = true := by
  obtain ⟨hput, hoff, -⟩ := h.undo m
  have hone : ∀ k r, (k, r) ∈ ps → (((List.range m).foldl ListCall.ownReleaseRefFromObjArray s).refs r = refs r ↔
      (refs r).all (·.keepsMarks arrayId k) = true) := by
    intro k r hk
    obtain ⟨R, hR, -, -, hscope⟩ := isListable_iff.1 (h.put k r hk).1
    rw [hput k r hk, if_pos (hlt _ hk), hR]
    exact ListedRef.undone_eq_iff hscope k
  rw [List.all_eq_true]
  constructor
  · rintro hall ⟨k, r⟩ hk
    exact (hone k r hk).1 (hall r (hmem _ hk))
  · intro hall r hr
    by_cases hin : ∃ k, (k, r) ∈ ps
    · obtain ⟨k, hk⟩ := hin
      exact (hone k r hk).2 (hall (k, r) hk)
    · exact hoff r (fun k hk => hin ⟨k, hk⟩)

/-- An entry the array has at its place was put in there. -/
theorem Adding.mem_of_ref (h : Adding a arrayId itemType refs ps s) {k : Nat} (hk : s.ref k = some r) : (k, r) ∈ ps := by
  by_contra hnot
  have hfree : s.ref k = none := by
    apply h.free
    intro r' hr'
    have hr := (h.put k r' hr').2.2.1
    rw [hk] at hr
    cases hr
    exact hnot hr'
  rw [hk] at hfree
  cases hfree

theorem ownInitObjArrayFromList_success (h : (s.addList a arrayId itemType list 0 vxSuccess).2.2 = vxSuccess) :
    s.ownInitObjArrayFromList a arrayId itemType list = ((s.addList a arrayId itemType list 0 vxSuccess).1, vxSuccess) :=
  if_pos h

theorem ownInitObjArrayFromList_error (h : (s.addList a arrayId itemType list 0 vxSuccess).2.2 ≠ vxSuccess) :
    s.ownInitObjArrayFromList a arrayId itemType list =
      ((List.range (s.addList a arrayId itemType list 0 vxSuccess).2.1).foldl ListCall.ownReleaseRefFromObjArray
        (s.addList a arrayId itemType list 0 vxSuccess).1, (s.addList a arrayId itemType list 0 vxSuccess).2.2) :=
  if_neg h

/-- The last entry is put in, and none is invalid, where the loop ends well. -/
theorem addList_success_iff (a arrayId : Nat) (itemType : ElementType) (refs : Nat → Option ListedRef) (hne : list ≠ []) :
    (ListCall.addList a arrayId itemType list 0 { refs := refs } vxSuccess).2.2 = vxSuccess ↔
      (list.any (fun r => (refs r).isNone) ||
        list.getLast?.any (fun r => !isListable refs itemType r || list.dropLast.contains r)) = false := by
  rw [Adding.start.status (fun _ h => by cases h) hne, Bool.or_eq_false_iff]
  refine and_congr ?_ ?_
  · simp
  · cases list.getLast? with
    | none => simp
    | some r => simp

theorem list_ne_nil (h : listItemType refs list = some itemType) : list ≠ [] := by
  rintro rfl
  cases h

/-- **A list makes an array exactly where it fits.** -/
theorem makesArray_iff (resources : Bool) (a arrayId : Nat) (refs : Nat → Option ListedRef) (list : List Nat) :
    MakesArray resources refs list (tivxCreateObjectArrayFromList resources a arrayId refs list) ↔
      listFits resources arrayId refs list = true := by
  unfold tivxCreateObjectArrayFromList listFits
  cases hT : listItemType refs list with
  | none =>
    refine iff_of_true ⟨?_, nofun, fun _ _ _ => rfl⟩ (by simp)
    refine iff_of_false (by simp) ?_
    rintro ⟨_, h, -⟩
    rw [hT] at h
    cases h
  | some itemType =>
    cases resources with
    | false =>
      refine iff_of_true ⟨?_, nofun, fun _ _ _ => rfl⟩ rfl
      exact iff_of_false (by simp) (fun ⟨_, _, h, _⟩ => by cases h)
    | true =>
      have hgood : (∃ it, listItemType refs list = some it ∧ true = true ∧ ∀ r ∈ list, isListable refs it r = true) ↔
          list.all (isListable refs itemType) = true := by
        rw [List.all_eq_true, hT]
        exact ⟨fun ⟨it, h, _, hl⟩ => by cases h; exact hl, fun hl => ⟨itemType, rfl, rfl, hl⟩⟩
      have hstart : Adding a arrayId itemType refs [] { refs := refs } := .start
      obtain ⟨hadd, hlt⟩ := hstart.addList list [] 0 vxSuccess (fun r => by simp) (fun _ h => by cases h)
      rw [List.nil_append] at hadd hlt
      have hst := addList_success_iff a arrayId itemType refs (list_ne_nil hT)
      simp only [Bool.not_true, Bool.false_or, Option.all_some, if_true]
      by_cases hok : ((ListCall.addList a arrayId itemType list 0 { refs := refs } vxSuccess).2.2 = vxSuccess)
      · rw [ownInitObjArrayFromList_success hok]
        simp only [if_true]
        rw [hst.1 hok]
        have hcond : ((if list.all (isListable refs itemType) then decide list.Nodup
            else false && (entriesAdded refs itemType [] list 0).all (fun p => (refs p.2).all (·.keepsMarks arrayId p.1))) =
            true) ↔ list.all (isListable refs itemType) = true ∧ list.Nodup := by
          split
          · rename_i hall
            simp [hall]
          · rename_i hall
            simp [hall]
        rw [hcond]
        constructor
        · intro h
          have hall := hgood.1 (h.succeeds.1 rfl)
          refine ⟨hall, List.nodup_iff_injective_getElem.2 ?_⟩
          rintro ⟨i, hi⟩ ⟨j, hj⟩ hij
          have h1 := hadd.mem_of_ref (h.elements _ rfl i _ (List.getElem?_eq_getElem hi)).1
          have h2 := hadd.mem_of_ref (h.elements _ rfl j _ (List.getElem?_eq_getElem hj)).1
          have hij : list[i] = list[j] := hij
          rw [← hij] at h2
          exact Fin.ext (hadd.unique h1 h2)
        · rintro ⟨hall, hn⟩
          refine ⟨iff_of_true rfl (hgood.2 hall), ?_, nofun⟩
          intro A hA i r hi
          cases hA
          have hmem := mem_entriesAdded list [] 0 (List.all_eq_true.1 hall) (fun _ _ => List.not_mem_nil) hn hi
          rw [Nat.zero_add] at hmem
          exact (hadd.put i r hmem).2.2
      · rw [ownInitObjArrayFromList_error hok]
        simp only [if_neg hok]
        have hor : (list.any (fun r => (refs r).isNone) ||
            list.getLast?.any (fun r => !isListable refs itemType r || list.dropLast.contains r)) = true := by
          by_contra h
          rw [Bool.not_eq_true] at h
          exact hok (hst.2 h)
        rw [hor, Bool.true_and]
        have hback := hadd.undone_iff hlt (fun p hp => mem_of_mem_entriesAdded hp)
        by_cases hall : list.all (isListable refs itemType) = true
        · rw [if_pos hall]
          refine iff_of_false (fun h => ?_) (fun hn => ?_)
          · have := h.succeeds.2 (hgood.2 hall)
            cases this
          · -- without repeats the last entry would be put in
            rw [decide_eq_true_eq] at hn
            have hno := hor
            rw [Bool.or_eq_true, List.any_eq_true] at hno
            rcases hno with ⟨r, hr, hnone⟩ | hlast
            · obtain ⟨R, hR, -⟩ := isListable_iff.1 (List.all_eq_true.1 hall r hr)
              rw [hR] at hnone
              cases hnone
            · obtain ⟨r, hr, hbad⟩ := (Option.any_eq_true _ _).1 hlast
              have hsplit := List.dropLast_append_getLast? r hr
              rw [List.all_eq_true.1 hall r (List.mem_of_getLast? hr)] at hbad
              rw [← hsplit] at hn
              exact (List.disjoint_of_nodup_append hn) (by simpa using hbad) (List.mem_singleton_self r)
        · rw [if_neg hall, ← hback]
          constructor
          · intro h
            exact h.restored rfl
          · intro h
            exact ⟨iff_of_false (by simp) (fun hex => hall (hgood.1 hex)), nofun, fun _ => h⟩

/-- Images, and a tensor among them. -/
def imagesAndTensor (r : Nat) : Option ListedRef := some { type := if r = 1 then .tensor else .image, objDescId := r }

/-- A tensor between images is reported only where it is the last; the image before it is then left with the descriptor of
the array as its scope. -/
theorem tensor_listed :
    (¬ MakesArray true imagesAndTensor [0, 1, 2] (tivxCreateObjectArrayFromList true 5 9 imagesAndTensor [0, 1, 2])) ∧
      ¬ MakesArray true imagesAndTensor [0, 1] (tivxCreateObjectArrayFromList true 5 9 imagesAndTensor [0, 1]) := by
  constructor
  · intro h
    obtain ⟨itemType, hT, -, hl⟩ := h.succeeds.1 (by decide)
    have himage : listItemType imagesAndTensor [0, 1, 2] = some .image := by decide
    rw [himage] at hT
    cases hT
    exact absurd (hl 1 (by decide)) (by decide)
  · intro h
    have hnone : (tivxCreateObjectArrayFromList true 5 9 imagesAndTensor [0, 1]).array.isNone = true := by decide
    have hback := h.restored (Option.isNone_iff_eq_none.1 hnone) 0 (by decide)
    exact absurd hback (by decide)

end Tiovx
