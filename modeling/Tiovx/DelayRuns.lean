import Tiovx.DelayAging
/-!
# DelayRuns — what holds of a delay in every run (`vx_delay.c`)

A delay that `vxCreateDelay` returns is given associations, loses them and ages, in any order.  As long as it has a slot, gets its
associations before it has aged and has one in every slot when it does, what is added can be removed, and every node parameter has
the reference of its slot.
-/
namespace Tiovx

open StepSystem NodeParameters

namespace DelayState

/-- A delay, or one of its levels or items, and a reference of it by its place there. -/
abbrev PartRef := Option Nat × Nat

/-- A delay of `count` references, with `numParts` levels or items each. -/
def createdShape (count numParts : Nat) (objDescId : PartRef → Nat) : DelayShape PartRef (Option Nat) where
  count := fun _ => count
  refs := fun d i => (d, i)
  parts
    | none => (List.range numParts).map some
    | some _ => []
  objDescId := objDescId

/-- The delay itself and those of its levels or items. -/
def IsPart (numParts : Nat) (d : Option Nat) : Prop := ∀ l, d = some l → l < numParts

instance (numParts : Nat) (d : Option Nat) : Decidable (IsPart numParts d) :=
  match d with
  | none => isTrue (fun _ h => nomatch h)
  | some l => if h : l < numParts then isTrue (fun _ hl => Option.some.inj hl ▸ h) else isFalse (fun hl => h (hl l rfl))

/-- `ref->delay` of the references of a new delay. -/
def createdDelay (count numParts : Nat) (r : PartRef) : Option (Option Nat) :=
  if r.2 < count ∧ IsPart numParts r.1 then some r.1 else none

/-- `vxCreateDelay`, where the copies of the exemplar can be created; the delays of levels and items are held by that of the
pyramids or object arrays. -/
def vxCreateDelay (count numParts : Nat) (objDescId : PartRef → Nat) (params : NodeParameters PartRef) :
    Option (DelayState (createdShape count numParts objDescId)) :=
  if count ≤ delayMaxObject then
    some
      { index := fun _ => 0
        head := fun _ _ => none
        chain := fun _ _ => []
        prmUsed := fun _ => 0
        internalCount := fun d => if d = none then 0 else 1
        delay := createdDelay count numParts
        slotIndex := Prod.snd
        params
        slot_lt := fun r d h => by
          unfold createdDelay at h
          split at h
          · rename_i hr
            exact hr.1
          · cases h }
  else none

/-- A call about a delay; `age` is `vxAgeDelay` of the delay itself. -/
inductive DelayAct
  | addAssociation (r : PartRef) (o : Place)
  | removeAssociation (r : PartRef) (o : Place)
  | age

section Run

variable {count numParts : Nat} {objDescId : PartRef → Nat}

/-- One call.  References that are in no delay have no associations; nothing comes of a division by zero. -/
def delayStep (s : DelayState (createdShape count numParts objDescId)) :
    DelayAct → Option (DelayState (createdShape count numParts objDescId))
  | .addAssociation r o => (s.delay r).map (fun d => (s.ownAddAssociationToDelay d (s.slotIndex r) o).1)
  | .removeAssociation r o => (s.delay r).map (fun d => (s.ownRemoveAssociationToDelay d (s.slotIndex r) o).1)
  | .age => s.vxAgeDelay none

/-- Every node parameter that is associated with a slot has its reference. -/
def Bound (s : DelayState (createdShape count numParts objDescId)) (d : Option Nat) : Prop :=
  ∀ i < count, ∀ o ∈ s.associated d i, s.binding o = boundTo (createdShape count numParts objDescId) (s.inSlot d i)

/-- The reference in each slot is told the slot. -/
def SlotsTold (s : DelayState (createdShape count numParts objDescId)) (d : Option Nat) : Prop :=
  ∀ i < count, s.slotIndex (s.inSlot d i) = i ∧ s.delay (s.inSlot d i) = some d

/-- What is claimed of a state: the delay can age, and what is associated with a slot can be removed through its reference. -/
structure FollowsDelay (s : DelayState (createdShape count numParts objDescId)) : Prop where
  ages : s.vxAgeDelay none ≠ none
  removes : ∀ d i o, i < count → o ∈ s.associated d i → ∃ t,
    s.ownRemoveAssociationToDelay d (s.slotIndex (s.inSlot d i)) o = (t, true) ∧
      ∀ d' i', t.associated d' i' = if d' = d ∧ i' = i then (s.associated d' i').erase o else s.associated d' i'

/-- What is claimed of a call: what is added can be removed, which restores all as it was; and after the delay has aged, every
node parameter has the reference of its slot, and every reference is told its slot. -/
def CallFollows (s t : DelayState (createdShape count numParts objDescId)) : DelayAct → Prop
  | .addAssociation r o => ∀ d, s.delay r = some d → s.ownAddAssociationToDelay d (s.slotIndex r) o = (t, true) →
      t.ownRemoveAssociationToDelay d (t.slotIndex r) o = (s, true)
  | .removeAssociation _ _ => True
  | .age => ∀ d, IsPart numParts d → Bound t d ∧ SlotsTold t d

/-- The calls that keep to what a delay can do: a node parameter that has no association yet gets one while the delay stands at its
first reference, and a delay of more than one reference has an association in every slot when it ages, and so have its parts. -/
def KeepsToSlots (s : DelayState (createdShape count numParts objDescId)) : DelayAct → Prop
  | .addAssociation r o => (∀ d, s.delay r = some d → s.index d = 0) ∧ ∀ d i, o ∉ s.associated d i
  | .removeAssociation _ _ => True
  | .age => count = 1 ∨ ∀ d, IsPart numParts d → ∀ i < count, s.associated d i ≠ []

/-- What a run keeps. -/
structure DelayInv (s : DelayState (createdShape count numParts objDescId)) : Prop where
  index_lt : ∀ d, s.index d < count
  delay : s.delay = createdDelay count numParts
  slots : ∀ d, IsPart numParts d → ∀ i < count, s.slotIndex (s.inSlot d i) = i
  unique : ∀ d i d' i' o, o ∈ s.associated d i → o ∈ s.associated d' i' → d = d' ∧ i = i'
  nodup : ∀ d i, (s.associated d i).Nodup
  only : ∀ d i, s.associated d i ≠ [] → IsPart numParts d ∧ i < count

variable {s t : DelayState (createdShape count numParts objDescId)}

theorem inSlot_eq (s : DelayState (createdShape count numParts objDescId)) (d : Option Nat) (i : Nat) :
    s.inSlot d i = (d, (s.index d + i) % count) := rfl

/-- The references of two slots are two. -/
theorem inSlot_inj {d : Option Nat} {i i' : Nat} (hi : i < count) (hi' : i' < count)
    (h : s.inSlot d i = s.inSlot d i') : i = i' := by
  simp only [inSlot_eq, Prod.mk.injEq, true_and] at h
  have hmod : i ≡ i' [MOD count] := Nat.ModEq.add_left_cancel' (s.index d) h
  exact Nat.ModEq.eq_of_lt_of_lt hmod hi hi'

theorem DelayInv.delay_inSlot (h : DelayInv s) {d : Option Nat} (hd : IsPart numParts d) (i : Nat) (hc : 0 < count) :
    s.delay (s.inSlot d i) = some d := by
  rw [h.delay, createdDelay, if_pos ⟨Nat.mod_lt _ hc, hd⟩]
  rfl

/-- A new delay. -/
theorem DelayInv.start {params : NodeParameters PartRef} (hc : 0 < count)
    (h : vxCreateDelay count numParts objDescId params = some s) : DelayInv s := by
  unfold vxCreateDelay at h
  split at h
  · obtain rfl := Option.some.inj h
    refine ⟨fun _ => hc, rfl, fun d _ i hi => ?_, fun d i _ _ o ho => ?_, fun _ _ => .nil, fun d i hne => absurd rfl hne⟩
    · show (0 + i) % count = i
      rw [Nat.zero_add, Nat.mod_eq_of_lt hi]
    · cases ho
  · cases h

/-- The same delays, at the same references, in the same slots. -/
theorem DelayInv.congr (h : DelayInv s) (hi : t.index = s.index) (hd : t.delay = s.delay) (hs : t.slotIndex = s.slotIndex)
    (unique : ∀ d i d' i' o, o ∈ t.associated d i → o ∈ t.associated d' i' → d = d' ∧ i = i')
    (nodup : ∀ d i, (t.associated d i).Nodup) (only : ∀ d i, t.associated d i ≠ [] → IsPart numParts d ∧ i < count) :
    DelayInv t := by
  refine ⟨fun d => ?_, hd.trans h.delay, fun d hp i hlt => ?_, unique, nodup, only⟩
  · rw [hi]
    exact h.index_lt d
  · rw [hs, inSlot_eq, hi]
    exact h.slots d hp i hlt

/-- Where the delay stands at its first reference, its slots are as its references. -/
theorem addedTo_eq {d : Option Nat} {slot : Nat} (h0 : s.index d = 0) (hlt : slot < count) : s.addedTo d slot = slot := by
  show (s.index d + slot) % count = slot
  rw [h0, Nat.zero_add, Nat.mod_eq_of_lt hlt]

theorem createdDelay_isPart {r : PartRef} {d : Option Nat} (h : createdDelay count numParts r = some d) : IsPart numParts d := by
  unfold createdDelay at h
  split at h
  · rename_i hr
    obtain rfl := Option.some.inj h
    exact hr.2
  · cases h

theorem DelayInv.add (h : DelayInv s) {r : PartRef} {o : Place} {d : Option Nat} (hr : s.delay r = some d) (h0 : s.index d = 0)
    (hnew : ∀ d i, o ∉ s.associated d i) : DelayInv (s.ownAddAssociationToDelay d (s.slotIndex r) o).1 := by
  have hframe := s.add_frame d (s.slotIndex r) o
  generalize hres : s.ownAddAssociationToDelay d (s.slotIndex r) o = res at hframe
  obtain ⟨t, b⟩ := res
  obtain ⟨hi, hd, hs, -, hfail⟩ := hframe
  cases b with
  | false =>
    obtain rfl : t = s := hfail rfl
    exact h
  | true =>
    have hass := add_associated hres
    have hlt : s.slotIndex r < count := s.slot_lt r d hr
    rw [addedTo_eq h0 hlt] at hass
    have hmem : ∀ d' i o', o' ∈ t.associated d' i ↔
        (d' = d ∧ i = s.slotIndex r) ∧ o' = o ∨ o' ∈ s.associated d' i := by
      intro d' i o'
      rw [(hass d' i).mem_iff]
      split
      · rename_i hslot
        simp [hslot]
      · rename_i hslot
        simp [hslot]
    refine h.congr hi hd hs (fun d1 i1 d2 i2 o' h1 h2 => ?_) (fun d' i => ?_) (fun d' i hne => ?_)
    · obtain ⟨⟨rfl, rfl⟩, rfl⟩ | h1 := (hmem _ _ _).1 h1
      · obtain ⟨⟨rfl, rfl⟩, -⟩ | h2 := (hmem _ _ _).1 h2
        · exact ⟨rfl, rfl⟩
        · exact absurd h2 (hnew _ _)
      · obtain ⟨-, rfl⟩ | h2 := (hmem _ _ _).1 h2
        · exact absurd h1 (hnew _ _)
        · exact h.unique _ _ _ _ _ h1 h2
    · refine (hass d' i).nodup_iff.2 ?_
      split
      · exact List.nodup_cons.2 ⟨hnew _ _, h.nodup _ _⟩
      · exact h.nodup _ _
    · obtain ⟨o', ho'⟩ := List.exists_mem_of_ne_nil _ hne
      obtain ⟨⟨rfl, rfl⟩, -⟩ | ho' := (hmem _ _ _).1 ho'
      · rw [h.delay] at hr
        exact ⟨createdDelay_isPart hr, hlt⟩
      · exact h.only d' i (List.ne_nil_of_mem ho')

theorem DelayInv.remove (h : DelayInv s) (d : Option Nat) (slot : Nat) (o : Place) :
    DelayInv (s.ownRemoveAssociationToDelay d slot o).1 := by
  have hframe := s.remove_frame d slot o
  obtain ⟨-, heq⟩ | ⟨-, t, heq⟩ := s.remove_cases d slot o
  · rw [heq]
    exact h
  · rw [heq] at hframe ⊢
    obtain ⟨hi, hd, hs, -⟩ := hframe
    have hass := remove_associated heq
    have hsub : ∀ d' i, (t.associated d' i).Sublist (s.associated d' i) := by
      intro d' i
      rw [hass]
      split
      · exact List.erase_sublist
      · exact List.Sublist.refl _
    refine h.congr hi hd hs (fun d1 i1 d2 i2 o' h1 h2 => ?_) (fun d' i => (h.nodup d' i).sublist (hsub d' i)) (fun d' i hne => ?_)
    · exact h.unique _ _ _ _ _ ((hsub _ _).subset h1) ((hsub _ _).subset h2)
    · obtain ⟨o', ho'⟩ := List.exists_mem_of_ne_nil _ hne
      exact h.only d' i (List.ne_nil_of_mem ((hsub _ _).subset ho'))

/-! ### The delay ages -/

/-- A delay has an association in every slot, or only one slot. -/
def SlotsFilled (s : DelayState (createdShape count numParts objDescId)) (d : Option Nat) : Prop :=
  count = 1 ∨ ∀ i < count, s.associated d i ≠ []

/-- What one delay, of those that age together, leaves for the others. -/
theorem DelayInv.age (h : DelayInv s) {d : Option Nat} (hd : IsPart numParts d) (hfull : SlotsFilled s d) (hc : 0 < count) :
    ∃ t, s.ownAgeDelay d = some t ∧ DelayInv t ∧ Bound t d ∧ t.associated = s.associated ∧
      (∀ d', d' ≠ d → Bound s d' → Bound t d') := by
  have hspec := reassignAll_spec d (List.finRange count) (s.nextIndex d) (List.nodup_finRange count)
  have hnext : s.ownAgeDelay d = some ((s.nextIndex d).reassignAll d (List.finRange count)) := if_neg hc.ne'
  rw [hnext]
  generalize (s.nextIndex d).reassignAll d (List.finRange count) = t at hspec
  have hass : t.associated = s.associated := hspec.associated
  have hin : ∀ d' i, t.inSlot d' i = (s.nextIndex d).inSlot d' i := fun d' i => by
    rw [inSlot_eq, inSlot_eq, hspec.index]
  have hother : ∀ d', d' ≠ d → ∀ i, t.inSlot d' i = s.inSlot d' i := fun d' hne i => by
    rw [hin, inSlot_eq, inSlot_eq, show (s.nextIndex d).index d' = s.index d' from Function.update_of_ne hne ..]
  have huniq : ∀ i ∈ List.finRange count, ∀ i' ∈ List.finRange count,
      (s.nextIndex d).inSlot d i' = (s.nextIndex d).inSlot d i → i' = i :=
    fun i _ i' _ heq => Fin.ext (inSlot_inj i'.isLt i.isLt heq)
  refine ⟨t, rfl, ⟨fun d' => ?_, ?_, fun d' hd' i hi => ?_, ?_, ?_, ?_⟩, fun i hi o ho => ?_, hass,
    fun d' hne hb i hi o ho => ?_⟩
  · rw [hspec.index]
    by_cases hne : d' = d
    · subst hne
      rw [show (s.nextIndex d').index d' = (s.index d' + 1) % count from Function.update_self ..]
      exact Nat.mod_lt _ hc
    · rw [show (s.nextIndex d).index d' = s.index d' from Function.update_of_ne hne ..]
      exact h.index_lt d'
  · funext r
    by_cases hex : ∃ i : Fin count, s.associated d i ≠ [] ∧ r = (s.nextIndex d).inSlot d i
    · obtain ⟨i, hne, rfl⟩ := hex
      rw [(hspec.slotSet i (List.mem_finRange i) hne (huniq i (List.mem_finRange i))).2]
      exact (if_pos ⟨Nat.mod_lt _ hc, hd⟩).symm
    · rw [(hspec.slotKept r (fun i _ hne hr => hex ⟨i, hne, hr⟩)).2]
      exact congrFun h.delay r
  · by_cases hdd : d' = d
    · subst hdd
      rw [hin]
      by_cases hne : s.associated d' i = []
      · -- without an association there is only the one reference
        obtain rfl : count = 1 := hfull.resolve_right (fun hall => hall i hi hne)
        obtain rfl : i = 0 := Nat.lt_one_iff.1 hi
        have hone : (s.nextIndex d').inSlot d' 0 = s.inSlot d' 0 := by
          rw [inSlot_eq, inSlot_eq, Nat.mod_one, Nat.mod_one]
        rw [hone, (hspec.slotKept _ (fun k _ hk => absurd (by rwa [Nat.lt_one_iff.1 k.isLt]) hk)).1]
        exact h.slots d' hd' 0 hi
      · exact (hspec.slotSet ⟨i, hi⟩ (List.mem_finRange _) hne (huniq _ (List.mem_finRange _))).1
    · rw [hother d' hdd, (hspec.slotKept _ (fun k _ _ heq => hdd (congrArg Prod.fst heq))).1]
      exact h.slots d' hd' i hi
  · rw [hass]
    exact h.unique
  · rw [hass]
    exact h.nodup
  · rw [hass]
    exact h.only
  · rw [hass] at ho
    rw [hin]
    exact hspec.bound ⟨i, hi⟩ (List.mem_finRange _) o ho (fun k _ hk => Fin.ext (h.unique _ _ _ _ _ hk ho).2)
  · rw [hass] at ho
    rw [hother d' hne, hspec.kept o (fun k _ hk => hne (h.unique _ _ _ _ _ ho hk).1)]
    exact hb i hi o ho

/-- The parts age one after the other. -/
theorem DelayInv.ageParts (hc : 0 < count) : ∀ (ds : List (Option Nat)) (s : DelayState (createdShape count numParts objDescId)),
    DelayInv s → (∀ d ∈ ds, IsPart numParts d ∧ SlotsFilled s d) → ∃ t, s.ageParts ds = some t ∧ DelayInv t ∧
      t.associated = s.associated ∧ ∀ d, d ∈ ds ∨ Bound s d → Bound t d
  | [], s, h, _ => ⟨s, rfl, h, rfl, fun d hd => hd.resolve_left List.not_mem_nil⟩
  | d :: ds, s, h, hds => by
    obtain ⟨hd, hfull⟩ := hds d List.mem_cons_self
    obtain ⟨t, ht, hinv, hbound, hass, hkeep⟩ := h.age hd hfull hc
    obtain ⟨u, hu, hinv', hass', hbound'⟩ := DelayInv.ageParts hc ds t hinv (fun d' hd' => by
      unfold SlotsFilled
      rw [hass]
      exact hds d' (List.mem_cons_of_mem _ hd'))
    refine ⟨u, ?_, hinv', hass'.trans hass, fun d' hd' => hbound' d' ?_⟩
    · rw [DelayState.ageParts, ht]
      exact hu
    · by_cases hdd : d' = d
      · subst hdd
        exact .inr hbound
      · obtain hd' | hd' := hd'
        · exact .inl ((List.mem_cons.1 hd').resolve_left hdd)
        · exact .inr (hkeep d' hdd hd')

theorem mem_parts {d : Option Nat} (hd : IsPart numParts d) :
    d ∈ none :: (createdShape count numParts objDescId).parts none := by
  cases d with
  | none => exact List.mem_cons_self
  | some l => exact List.mem_cons_of_mem _ (List.mem_map.2 ⟨l, List.mem_range.2 (hd l rfl), rfl⟩)

theorem isPart_of_mem {d : Option Nat} (hd : d ∈ none :: (createdShape count numParts objDescId).parts none) :
    IsPart numParts d := by
  obtain rfl | hd := List.mem_cons.1 hd
  · intro l hl
    cases hl
  · obtain ⟨l, hl, rfl⟩ := List.mem_map.1 hd
    intro l' hl'
    obtain rfl := Option.some.inj hl'
    exact List.mem_range.1 hl

/-- `vxAgeDelay` is the same loop, with the delay itself first. -/
theorem vxAgeDelay_eq (s : DelayState (createdShape count numParts objDescId)) :
    s.vxAgeDelay none = s.ageParts (none :: (createdShape count numParts objDescId).parts none) := rfl

theorem DelayInv.vxAge (h : DelayInv s) (hc : 0 < count) (hk : KeepsToSlots s .age) (hs : s.vxAgeDelay none = some t) :
    DelayInv t ∧ ∀ d, IsPart numParts d → Bound t d := by
  have hfull : ∀ d, IsPart numParts d → SlotsFilled s d := fun d hd => hk.imp_right (fun hall => hall d hd)
  obtain ⟨u, hu, hinv, -, hbound⟩ := DelayInv.ageParts hc _ s h
    (fun d hd => ⟨isPart_of_mem hd, hfull d (isPart_of_mem hd)⟩)
  rw [vxAgeDelay_eq, hu] at hs
  obtain rfl := Option.some.inj hs
  exact ⟨hinv, fun d hd => hbound d (.inl (mem_parts hd))⟩

/-- With a reference to divide by, every part can age. -/
theorem ageParts_ne_none (hc : 0 < count) : ∀ (ds : List (Option Nat)) (s : DelayState (createdShape count numParts objDescId)),
    s.ageParts ds ≠ none
  | [], _ => Option.some_ne_none _
  | d :: ds, s => by
    have hage : s.ownAgeDelay d = some ((s.nextIndex d).reassignAll d (List.finRange count)) := if_neg hc.ne'
    rw [DelayState.ageParts, hage]
    exact ageParts_ne_none hc ds _

theorem DelayInv.step (h : DelayInv s) (hc : 0 < count) {a : DelayAct} (hk : KeepsToSlots s a) (hs : delayStep s a = some t) :
    DelayInv t := by
  cases a with
  | addAssociation r o =>
    obtain ⟨d, hd, rfl⟩ := Option.map_eq_some_iff.1 hs
    exact h.add hd (hk.1 d hd) hk.2
  | removeAssociation r o =>
    obtain ⟨d, hd, rfl⟩ := Option.map_eq_some_iff.1 hs
    exact h.remove d _ o
  | age => exact (h.vxAge hc hk hs).1

theorem DelayInv.followsDelay (h : DelayInv s) (hc : 0 < count) : FollowsDelay s where
  ages := by
    rw [vxAgeDelay_eq]
    exact ageParts_ne_none hc _ s
  removes d i o hi ho := by
    rw [h.slots d (h.only d i (List.ne_nil_of_mem ho)).1 i hi]
    obtain ⟨hno, -⟩ | ⟨-, t, ht⟩ := s.remove_cases d i o
    · exact absurd ho hno
    · exact ⟨t, ht, fun d' i' => remove_associated ht d' i'⟩

theorem DelayInv.callFollows (h : DelayInv s) (hc : 0 < count) {a : DelayAct} (hk : KeepsToSlots s a)
    (hs : delayStep s a = some t) :
    CallFollows s t a := by
  cases a with
  | addAssociation r o =>
    intro d hd hadd
    have hframe := s.add_frame d (s.slotIndex r) o
    rw [hadd] at hframe
    rw [hframe.2.2.1]
    exact remove_add hadd (addedTo_eq (hk.1 d hd) (s.slot_lt r d hd)) (hk.2 d _)
  | removeAssociation r o => exact trivial
  | age =>
    obtain ⟨hinv, hbound⟩ := h.vxAge hc hk hs
    intro d hd
    exact ⟨hbound d hd, fun i hi => ⟨hinv.slots d hd i hi, hinv.delay_inSlot hd i hc⟩⟩

end Run

/-- A delay that is created with a slot, in every run that keeps to its slots. -/
theorem followsDelay_of_reach {count numParts : Nat} {objDescId : PartRef → Nat} {params : NodeParameters PartRef}
    {s0 s : DelayState (createdShape count numParts objDescId)} (hc : 0 < count)
    (h0 : vxCreateDelay count numParts objDescId params = some s0) (h : Reach delayStep KeepsToSlots s0 s) :
    FollowsDelay s ∧ ∀ a t, KeepsToSlots s a → delayStep s a = some t → CallFollows s t a := by
  have hinv : DelayInv s := h.inv (DelayInv.start hc h0) (fun _ _ _ hi hk hs => hi.step hc hk hs)
  exact ⟨hinv.followsDelay hc, fun a t hk hs => hinv.callFollows hc hk hs⟩

/-! ### A run, and what goes wrong -/

/-- No node parameter is set. -/
def noParams : NodeParameters PartRef := ⟨fun _ => none, fun _ _ => none, fun _ => 0⟩

/-- A new delay of two references. -/
def twoSlots : DelayState (createdShape 2 0 Prod.snd) where
  index := fun _ => 0
  head := fun _ _ => none
  chain := fun _ _ => []
  prmUsed := fun _ => 0
  internalCount := fun d => if d = none then 0 else 1
  delay := createdDelay 2 0
  slotIndex := Prod.snd
  params := noParams
  slot_lt := fun r d h => by
    unfold createdDelay at h
    split at h
    · rename_i hr
      exact hr.1
    · cases h

/-- The same with a node parameter in the first slot, and in both. -/
def oneFilled : DelayState (createdShape 2 0 Prod.snd) := (twoSlots.ownAddAssociationToDelay none 0 (7, 0)).1

def bothFilled : DelayState (createdShape 2 0 Prod.snd) := (oneFilled.ownAddAssociationToDelay none 1 (8, 0)).1

theorem oneFilled_associated (d : Option Nat) (i : Nat) : (8, 0) ∉ oneFilled.associated d i := by
  intro h
  have hadd : twoSlots.ownAddAssociationToDelay none 0 (7, 0) = (oneFilled, true) := rfl
  have hmem := (add_associated hadd d i).mem_iff.1 h
  split at hmem
  · obtain h | h := List.mem_cons.1 hmem
    · cases h
    · cases h
  · cases hmem

theorem reach_bothFilled : Reach delayStep KeepsToSlots twoSlots bothFilled := by
  have hk1 : KeepsToSlots twoSlots (.addAssociation (none, 0) (7, 0)) := ⟨fun _ _ => rfl, fun _ _ h => (nomatch h)⟩
  have hk2 : KeepsToSlots oneFilled (.addAssociation (none, 1) (8, 0)) := ⟨fun _ _ => rfl, oneFilled_associated⟩
  have h1 : Reach delayStep KeepsToSlots twoSlots oneFilled := .next .start hk1 rfl
  exact .next h1 hk2 rfl

/-- A delay of two references, with a node parameter in each slot, that is about to age. -/
theorem followsDelay_bothFilled : FollowsDelay bothFilled ∧
    ∀ a t, KeepsToSlots bothFilled a → delayStep bothFilled a = some t → CallFollows bothFilled t a :=
  followsDelay_of_reach (by decide) (show vxCreateDelay 2 0 Prod.snd noParams = some twoSlots from rfl) reach_bothFilled

/-- What is claimed of all delays with so many references and parts. -/
def AlwaysFollows (count numParts : Nat) : Prop :=
  ∀ (objDescId : PartRef → Nat) (params : NodeParameters PartRef) (s0 s : DelayState (createdShape count numParts objDescId)),
    vxCreateDelay count numParts objDescId params = some s0 → Reach delayStep (fun _ _ => True) s0 s →
      FollowsDelay s ∧ ∀ a t, delayStep s a = some t → CallFollows s t a

/-- The delay of two references when it has aged. -/
def agedOnce : DelayState (createdShape 2 0 Prod.snd) := (twoSlots.nextIndex none).reassignAll none (List.finRange 2)

/-- A delay without references divides by zero when it ages; one of two references that has aged takes a node parameter that it
cannot give back, and one that ages without node parameters does not tell its references their slots. -/
theorem delay_not_followed : ¬ AlwaysFollows 0 0 ∧ ¬ AlwaysFollows 2 0 ∧
    ∃ o t, delayStep agedOnce (.addAssociation (none, 0) o) = some t ∧
      ¬ CallFollows agedOnce t (.addAssociation (none, 0) o) := by
  refine ⟨fun h => ?_, fun h => ?_, (7, 0), (agedOnce.ownAddAssociationToDelay none 0 (7, 0)).1, rfl, fun h => ?_⟩
  · exact (h Prod.snd noParams _ _ rfl .start).1.ages rfl
  · have hcall := (h Prod.snd noParams twoSlots twoSlots rfl .start).2 .age agedOnce rfl
    have htold := ((hcall none (fun l hl => (nomatch hl))).2 0 (by decide)).1
    revert htold
    decide
  · have hback := congrArg Prod.snd (h none rfl rfl)
    revert hback
    decide

end DelayState

end Tiovx
