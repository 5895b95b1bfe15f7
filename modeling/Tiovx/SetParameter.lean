import Tiovx.DelayAssociations
import Tiovx.InAndOutNodes
/-!
# SetParameter — a new reference for a node parameter (`vx_parameter.c`, `vx_node.c`)

`vxSetParameterByIndex` takes the association of the old reference with its delay away, and makes that of the new one, before the
last check; and it does nothing where an optional parameter is to be `NULL`.
-/
namespace Tiovx

open NodeParameters

/-- What the call checks and does not change: the nodes, the number and the signature of their parameters, and the references, as
`PlaceSignature` and `ParameterValue` have them. -/
structure ParameterChecks (R : Type) where
  isNode : Nat → Bool
  numParameters : Nat → Nat
  signature : Place → PlaceSignature
  isValid : R → Bool
  type : R → Int
  scalarType : R → Option Int
  isFirstOfScope : R → Bool

namespace DelayState

variable {R D : Type} {F : DelayShape R D} {s t u : DelayState F} {o : Place} {v : Option R} {r : R}
  {gone come : Option (D × Nat)}

/-- `delay` and `delay_slot_index` of a reference. -/
def slotOf (s : DelayState F) (v : Option R) : Option (D × Nat) :=
  v.bind (fun r => (s.delay r).map (fun d => (d, s.slotIndex r)))

/-- The slot to whose list an association of the reference is added. -/
def targetOf (s : DelayState F) (v : Option R) : Option (D × Nat) := (s.slotOf v).map (fun p => (p.1, s.addedTo p.1 p.2))

theorem slotOf_lt {p : D × Nat} (h : s.slotOf v = some p) : p.2 < F.count p.1 := by
  obtain ⟨r, -, hr⟩ := Option.bind_eq_some_iff.1 h
  obtain ⟨d, hd, rfl⟩ := Option.map_eq_some_iff.1 hr
  exact s.slot_lt r d hd

theorem targetOf_lt {p : D × Nat} (h : s.targetOf v = some p) : p.2 < F.count p.1 := by
  obtain ⟨q, hq, rfl⟩ := Option.map_eq_some_iff.1 h
  exact Nat.mod_lt _ (Nat.lt_of_le_of_lt (Nat.zero_le _) (slotOf_lt hq))

/-- The delays are held by their associations, and the references by the node parameters that have them. -/
structure Counted [DecidableEq R] (s : DelayState F) : Prop where
  delays : ∀ d, ∑ i ∈ Finset.range (F.count d), (s.associated d i).length ≤ s.internalCount d
  params : ∀ (T : Finset Place) (r : R), (T.filter (fun o => s.params.parameter o = some r)).card ≤ s.params.internalCount r

/-- A state in which all that is held is counted. -/
structure CountedDelays {R D : Type} [DecidableEq R] (F : DelayShape R D) extends DelayState F where
  counted : toDelayState.Counted

/-- The delay of an association is counted. -/
theorem CountedDelays.count_pos [DecidableEq R] (s : CountedDelays F) {p : D × Nat} (hp : s.slotOf v = some p)
    (h : 0 < s.times o p) : 0 < s.internalCount p.1 := by
  have hmem : o ∈ s.associated p.1 p.2 := List.count_pos_iff.1 h
  have hsum := Finset.single_le_sum (f := fun i => (s.associated p.1 i).length) (fun i _ => Nat.zero_le _)
    (Finset.mem_range.2 (slotOf_lt hp))
  have hlen := List.length_pos_of_mem hmem
  exact Nat.lt_of_lt_of_le hlen (Nat.le_trans hsum (s.counted.delays p.1))

/-- A reference that is set is counted. -/
theorem CountedDelays.held_pos [DecidableEq R] (s : CountedDelays F) (h : s.params.parameter o = some r) :
    0 < s.params.internalCount r := by
  have hcount := s.counted.params {o} r
  rw [Finset.filter_singleton, if_pos h, Finset.card_singleton] at hcount
  exact hcount

/-- The new reference is counted, and the old one no more. -/
theorem Counted.ownNodeSetParameter [DecidableEq R] (hs : s.Counted) (o : Place) (r : R) :
    (s.ownNodeSetParameter o r).Counted where
  delays := hs.delays
  params := fun T q => by
    have hheld := hs.params (insert o T) q
    generalize hA : (insert o T).filter (fun o => s.params.parameter o = some q) = A at hheld
    have hmem : o ∈ A ↔ s.params.parameter o = some q := by
      rw [← hA, Finset.mem_filter]
      exact and_iff_right (Finset.mem_insert_self o T)
    have hcount : retained (released s.params.internalCount (s.params.parameter o)) (some r) q +
        (if s.params.parameter o = some q then 1 else 0) = s.params.internalCount q + if some r = some q then 1 else 0 := by
      have hreleased : released s.params.internalCount (s.params.parameter o) q + _ = _ := released_add (fun h =>
        Nat.lt_of_lt_of_le (Finset.card_pos.2 ⟨o, hmem.2 h⟩) hheld)
      rw [retained_apply]
      omega
    have hsub : T.filter (fun x => Function.update s.params.parameter o (some r) x = some q) ⊆
        if some r = some q then insert o (A.erase o) else A.erase o := by
      intro x hx
      obtain ⟨hxT, hxq⟩ := Finset.mem_filter.1 hx
      by_cases hxo : x = o
      · subst hxo
        rw [Function.update_self] at hxq
        rw [if_pos hxq]
        exact Finset.mem_insert_self _ _
      · rw [Function.update_of_ne hxo] at hxq
        have hxA : x ∈ A := hA ▸ Finset.mem_filter.2 ⟨Finset.mem_insert_of_mem hxT, hxq⟩
        have hxE : x ∈ A.erase o := Finset.mem_erase.2 ⟨hxo, hxA⟩
        split
        · exact Finset.mem_insert_of_mem hxE
        · exact hxE
    have hcard := Finset.card_le_card hsub
    have herase : (A.erase o).card + (if s.params.parameter o = some q then 1 else 0) = A.card := by
      by_cases ho : s.params.parameter o = some q
      · rw [if_pos ho]
        exact Finset.card_erase_add_one (hmem.2 ho)
      · rw [if_neg ho, Finset.erase_eq_of_notMem (fun h => ho (hmem.1 h))]
        rfl
    show (T.filter (fun x => Function.update s.params.parameter o (some r) x = some q)).card ≤
      retained (released s.params.internalCount (s.params.parameter o)) (some r) q
    split_ifs at * <;> grind

/-- **Nothing has changed** for the node parameters: their references, associations and counts are as before. -/
structure Keeps (s t : DelayState F) : Prop where
  params : t.params = s.params
  associated : ∀ q p, t.times q p = s.times q p
  delays : t.internalCount = s.internalCount

theorem Keeps.refl (s : DelayState F) : Keeps s s := ⟨rfl, fun _ _ => rfl, rfl⟩

/-- **The parameter is set**: it is the new value, and `data_id` in the descriptor of the node its id; the node parameter has the
association of the new value and no other; and the old value and its delay have a reference less, the new ones one more. -/
structure SetsTo [DecidableEq R] [DecidableEq D] (s t : DelayState F) (o : Place) (v : Option R) : Prop where
  parameter : t.params.parameter = Function.update s.params.parameter o v
  dataId : t.params.dataId = Function.update s.params.dataId o (Function.update (s.params.dataId o) 0 (v.map F.objDescId))
  associated : ∀ q p, t.times q p = if q = o then (if s.slotOf v = some p then 1 else 0) else s.times q p
  delays : ∀ d, t.internalCount d + (if (s.slotOf (s.params.parameter o)).map Prod.fst = some d then 1 else 0) =
    s.internalCount d + if (s.slotOf v).map Prod.fst = some d then 1 else 0
  references : ∀ r, t.params.internalCount r + (if s.params.parameter o = some r then 1 else 0) =
    s.params.internalCount r + if v = some r then 1 else 0

variable [DecidableEq D]

/-- The association of the reference that is set is removed, if it is in a delay. -/
def dissociate (s : DelayState F) (o : Place) : DelayState F × Bool :=
  match s.slotOf (s.params.parameter o) with
  | none => (s, true)
  | some p => s.ownRemoveAssociationToDelay p.1 p.2 o

/-- The association of a reference is added, if it is in a delay. -/
def associate (s : DelayState F) (r : R) (o : Place) : DelayState F × Bool :=
  match s.slotOf (some r) with
  | none => (s, true)
  | some p => s.ownAddAssociationToDelay p.1 p.2 o

/-- From `s` to `t` the node parameter loses the association with one slot and gets that with another, for which the delays are
counted, and nothing else has changed. -/
structure Reassociated (s t : DelayState F) (o : Place) (gone come : Option (D × Nat)) : Prop where
  times : ∀ q p, t.times q p + (if q = o ∧ gone = some p then 1 else 0) =
    s.times q p + if q = o ∧ come = some p then 1 else 0
  count : ∀ d, t.internalCount d + (if gone.map Prod.fst = some d then 1 else 0) =
    s.internalCount d + if come.map Prod.fst = some d then 1 else 0
  length : ∀ p : D × Nat, (t.associated p.1 p.2).length + (if gone = some p then 1 else 0) =
    (s.associated p.1 p.2).length + if come = some p then 1 else 0
  index : t.index = s.index
  delay : t.delay = s.delay
  slotIndex : t.slotIndex = s.slotIndex
  params : t.params = s.params

/-- The entries of the pool that are in use without the association of the reference that is set. -/
def prmUsedWithout (s : DelayState F) (o : Place) (d : D) : Nat :=
  match s.slotOf (s.params.parameter o) with
  | none => s.prmUsed d
  | some p => if p.1 = d ∧ s.head p.1 p.2 ≠ some o then s.prmUsed d - 1 else s.prmUsed d

/-- There is a head or an entry of the pool for the association of a new reference, once that of the old one is gone. -/
def HasRoom (s : DelayState F) (o : Place) (v : Option R) : Prop :=
  ∀ p, s.targetOf v = some p →
    s.head p.1 p.2 = none ∨ (s.slotOf (s.params.parameter o) = some p ∧ s.head p.1 p.2 = some o) ∨
      s.prmUsedWithout o p.1 < delayMaxPrmObject

/-- What a removal does, where there is something to remove. -/
theorem reassociated_remove {p : D × Nat} (hcount : 0 < s.internalCount p.1) (ho : 0 < s.times o p)
    (h : s.ownRemoveAssociationToDelay p.1 p.2 o = (t, true)) : Reassociated s t o (some p) none := by
  have hmem : o ∈ s.associated p.1 p.2 := List.count_pos_iff.1 ho
  have hframe := remove_frame s p.1 p.2 o
  rw [h] at hframe
  obtain ⟨hindex, hdelay, hslot, hparams⟩ := hframe
  have hdelays : t.internalCount = released s.internalCount (some p.1) := by
    unfold ownRemoveAssociationToDelay at h
    split at h
    · exact (congrArg (fun x => x.1.internalCount) h).symm
    · split at h
      · exact (congrArg (fun x => x.1.internalCount) h).symm
      · cases (Prod.mk.inj h).2
  refine ⟨fun q p' => ?_, fun d => ?_, fun p' => ?_, hindex, hdelay, hslot, hparams⟩
  · unfold times at *
    rw [remove_associated h]
    by_cases hp : p' = p
    · subst hp
      rw [if_pos ⟨rfl, rfl⟩, List.count_erase]
      by_cases hq : q = o
      · subst hq
        simp only [beq_self_eq_true, if_true, and_self, reduceCtorEq, and_false, if_false]
        omega
      · simp [hq, Ne.symm hq]
    · rw [if_neg (fun e => hp (Prod.ext e.1 e.2))]
      simp [Ne.symm hp]
  · rw [hdelays]
    simpa using released_add (v := some p.1) (r := d) (fun e => by
      cases e
      exact hcount)
  · rw [remove_associated h]
    by_cases hp : p' = p
    · subst hp
      have hpos := List.length_pos_of_mem hmem
      rw [if_pos ⟨rfl, rfl⟩, List.length_erase_of_mem hmem, if_pos rfl, if_neg (fun e => by cases e)]
      omega
    · rw [if_neg (fun e => hp (Prod.ext e.1 e.2))]
      simp [Ne.symm hp]

/-- What an addition does, where there is room. -/
theorem reassociated_add {d : D} {slot : Nat} (h : s.ownAddAssociationToDelay d slot o = (t, true)) :
    Reassociated s t o none (some (d, s.addedTo d slot)) := by
  have hframe := add_frame s d slot o
  rw [h] at hframe
  obtain ⟨hindex, hdelay, hslot, hparams, -⟩ := hframe
  have hdelays : t.internalCount = retained s.internalCount (some d) := by
    unfold ownAddAssociationToDelay at h
    simp only at h
    split at h
    · exact (congrArg (fun x => x.1.internalCount) h).symm
    · split at h
      · exact (congrArg (fun x => x.1.internalCount) h).symm
      · cases (Prod.mk.inj h).2
  refine ⟨fun q p => ?_, fun d' => ?_, fun p => ?_, hindex, hdelay, hslot, hparams⟩
  · unfold times
    rw [(add_associated h p.1 p.2).count_eq]
    by_cases hp : p = (d, s.addedTo d slot)
    · subst hp
      rw [if_pos ⟨rfl, rfl⟩, List.count_cons]
      by_cases hq : q = o
      · simp [hq]
      · simp [hq, Ne.symm hq]
    · rw [if_neg (fun e => hp (Prod.ext e.1 e.2))]
      simp [Ne.symm hp]
  · rw [hdelays, retained_apply]
    simp
  · rw [(add_associated h p.1 p.2).length_eq]
    by_cases hp : p = (d, s.addedTo d slot)
    · subst hp
      simp
    · rw [if_neg (fun e => hp (Prod.ext e.1 e.2))]
      simp [Ne.symm hp]

/-- The head or the entry of an association that is removed is free again. -/
theorem remove_frees {p : D × Nat} (h : s.ownRemoveAssociationToDelay p.1 p.2 o = (t, true)) :
    (∀ q : D × Nat, t.head q.1 q.2 = none ↔ s.head q.1 q.2 = none ∨ (p = q ∧ s.head q.1 q.2 = some o)) ∧
      ∀ d, t.prmUsed d = if p.1 = d ∧ s.head p.1 p.2 ≠ some o then s.prmUsed d - 1 else s.prmUsed d := by
  unfold ownRemoveAssociationToDelay at h
  split at h
  · rename_i hhead
    obtain rfl := (Prod.mk.inj h).1
    refine ⟨fun q => ?_, fun d => ?_⟩
    · by_cases hq : q = p
      · subst hq
        simp [hhead]
      · have hne : ¬ (q.1 = p.1 ∧ q.2 = p.2) := fun e => hq (Prod.ext e.1 e.2)
        simp [setSlot_of_ne _ _ hne, Ne.symm hq]
    · simp [hhead]
  · rename_i hhead
    split at h
    · obtain rfl := (Prod.mk.inj h).1
      refine ⟨fun q => ?_, fun d => ?_⟩
      · have hno : ¬ (p = q ∧ s.head q.1 q.2 = some o) := by
          rintro ⟨rfl, hq⟩
          exact hhead hq
        simp [hno]
      · by_cases hd : p.1 = d
        · subst hd
          simp [hhead]
        · simp [hd, Function.update_of_ne (Ne.symm hd)]
    · cases (Prod.mk.inj h).2

/-- The association of the old reference is removed, if there is one where it is looked for. -/
theorem dissociate_cases [DecidableEq R] (s : CountedDelays F) (o : Place) :
    (∃ p, s.slotOf (s.params.parameter o) = some p ∧ s.times o p = 0 ∧ s.dissociate o = (s.toDelayState, false)) ∨
      (∀ p, s.slotOf (s.params.parameter o) = some p → 0 < s.times o p) ∧
        ∃ t, s.dissociate o = (t, true) ∧ Reassociated s.toDelayState t o (s.slotOf (s.params.parameter o)) none ∧
          (∀ p : D × Nat, t.head p.1 p.2 = none ↔
            s.head p.1 p.2 = none ∨ (s.slotOf (s.params.parameter o) = some p ∧ s.head p.1 p.2 = some o)) ∧
          ∀ d, t.prmUsed d = s.prmUsedWithout o d := by
  unfold dissociate prmUsedWithout
  cases hold : s.slotOf (s.params.parameter o) with
  | none =>
    have hsame : Reassociated s.toDelayState s.toDelayState o none none :=
      ⟨fun _ _ => rfl, fun _ => rfl, fun _ => rfl, rfl, rfl, rfl, rfl⟩
    exact .inr ⟨fun _ h => (by cases h), _, rfl, hsame, fun _ => by simp, fun _ => rfl⟩
  | some p =>
    rcases remove_cases s.toDelayState p.1 p.2 o with ⟨hno, hremove⟩ | ⟨hmem, t, hremove⟩
    · exact .inl ⟨p, rfl, List.count_eq_zero.2 hno, hremove⟩
    · have htimes : 0 < s.times o p := List.count_pos_iff.2 hmem
      obtain ⟨hhead, hused⟩ := remove_frees hremove
      have hgone := reassociated_remove (s.count_pos hold htimes) htimes hremove
      refine .inr ⟨fun q hq => ?_, t, hremove, hgone, fun q => ?_, hused⟩
      · cases hq
        exact htimes
      · rw [hhead q, Option.some.injEq]

/-- The association of the new reference is added, if there is room for it. -/
theorem associate_cases (t : DelayState F) (r : R) (o : Place) :
    ((∀ p, t.targetOf (some r) = some p → t.head p.1 p.2 = none ∨ t.prmUsed p.1 < delayMaxPrmObject) ∧
      ∃ u, t.associate r o = (u, true) ∧ Reassociated t u o none (t.targetOf (some r))) ∨
    (∃ p, t.targetOf (some r) = some p ∧ t.head p.1 p.2 ≠ none ∧ ¬ t.prmUsed p.1 < delayMaxPrmObject) ∧
      t.associate r o = (t, false) := by
  unfold associate targetOf
  cases hslot : t.slotOf (some r) with
  | none =>
    have hsame : Reassociated t t o none none := ⟨fun _ _ => rfl, fun _ => rfl, fun _ => rfl, rfl, rfl, rfl, rfl⟩
    exact .inl ⟨fun _ h => (by cases h), t, rfl, hsame⟩
  | some p =>
    by_cases hroom : t.head p.1 (t.addedTo p.1 p.2) = none ∨ t.prmUsed p.1 < delayMaxPrmObject
    · refine .inl ⟨fun q hq => ?_, ?_⟩
      · cases hq
        exact hroom
      · have hadd : (t.ownAddAssociationToDelay p.1 p.2 o).2 = true := by
          unfold ownAddAssociationToDelay
          simp only
          split
          · rfl
          · rename_i hhead
            rw [if_pos (hroom.resolve_left hhead)]
        exact ⟨_, Prod.ext rfl hadd, reassociated_add (Prod.ext rfl hadd)⟩
    · obtain ⟨hhead, hused⟩ := not_or.1 hroom
      refine .inr ⟨⟨_, rfl, hhead, hused⟩, ?_⟩
      unfold ownAddAssociationToDelay
      simp only [if_neg hhead, if_neg hused]

namespace Reassociated

theorem slotOf_eq (h : Reassociated s t o gone come) (v : Option R) : t.slotOf v = s.slotOf v := by
  unfold slotOf
  rw [h.delay, h.slotIndex]

theorem targetOf_eq (h : Reassociated s t o gone come) (v : Option R) : t.targetOf v = s.targetOf v := by
  unfold targetOf addedTo
  rw [h.slotOf_eq, h.index]

theorem trans (h : Reassociated s t o gone none) (h' : Reassociated t u o none come) : Reassociated s u o gone come where
  times := fun q p => by
    have hout := h.times q p
    have hin := h'.times q p
    simp only [reduceCtorEq, and_false, if_false, Nat.add_zero] at hout hin
    omega
  count := fun d => by
    have hout := h.count d
    have hin := h'.count d
    simp only [Option.map_none, reduceCtorEq, if_false, Nat.add_zero] at hout hin
    omega
  length := fun p => by
    have hout := h.length p
    have hin := h'.length p
    simp only [reduceCtorEq, if_false, Nat.add_zero] at hout hin
    omega
  index := h'.index.trans h.index
  delay := h'.delay.trans h.delay
  slotIndex := h'.slotIndex.trans h.slotIndex
  params := h'.params.trans h.params

end Reassociated

/-- A node parameter that is associated anew is as before if the slot is the same. -/
theorem Reassociated.keeps_iff (h : Reassociated s t o gone come) : Keeps s t ↔ gone = come := by
  constructor
  · intro hk
    apply Option.ext
    intro p
    have htimes := h.times o p
    rw [hk.associated] at htimes
    simp only [true_and, Nat.add_left_cancel_iff] at htimes
    split_ifs at htimes <;> simp_all
  · rintro rfl
    refine ⟨h.params, fun q p => Nat.add_right_cancel (h.times q p), ?_⟩
    funext d
    exact Nat.add_right_cancel (h.count d)

/-- A node parameter that is associated anew, and given the reference, is set if it had no other association, and the new one is
with the reference's slot. -/
theorem Reassociated.setsTo_iff [DecidableEq R] (h : Reassociated s t o (s.slotOf (s.params.parameter o)) (s.targetOf (some r)))
    (hold : ∀ p, s.slotOf (s.params.parameter o) = some p → 0 < s.times o p)
    (hheld : ∀ q, s.params.parameter o = some q → 0 < s.params.internalCount q) :
    SetsTo s (t.ownNodeSetParameter o r) o (some r) ↔
      (∀ p, s.times o p = if s.slotOf (s.params.parameter o) = some p then 1 else 0) ∧
        s.targetOf (some r) = s.slotOf (some r) := by
  have hle : ∀ p, (if s.slotOf (s.params.parameter o) = some p then 1 else 0) ≤ s.times o p := by
    intro p
    split
    · exact hold p ‹_›
    · exact Nat.zero_le _
  have htimes := fun p => h.times o p
  simp only [true_and] at htimes
  constructor
  · intro hs
    have hset : ∀ p, t.times o p = if s.slotOf (some r) = some p then 1 else 0 := fun p => (hs.associated o p).trans (if_pos rfl)
    -- where the association has been added there is one more than there was, so that it is the one of the reference
    have htarget : ∀ p, s.targetOf (some r) = some p → s.slotOf (some r) = some p := by
      intro p hp
      have hone := htimes p
      rw [hset p, if_pos hp] at hone
      by_contra hne
      rw [if_neg hne] at hone
      have := hle p
      omega
    have hsame : s.targetOf (some r) = s.slotOf (some r) := by
      cases hslot : s.slotOf (some r) with
      | none =>
        unfold targetOf
        rw [hslot]
        rfl
      | some p =>
        have hp : s.targetOf (some r) = some (p.1, s.addedTo p.1 p.2) := by
          unfold targetOf
          rw [hslot]
          rfl
        rw [hp, ← htarget _ hp, hslot]
    refine ⟨fun p => ?_, hsame⟩
    have hone := htimes p
    rw [hset p, hsame] at hone
    omega
  · rintro ⟨honly, hsame⟩
    have hdelays := h.count
    rw [hsame] at hdelays
    refine ⟨?_, ?_, fun q p => ?_, hdelays, fun q => ?_⟩
    · show Function.update t.params.parameter o (some r) = _
      rw [h.params]
    · show Function.update t.params.dataId o (Function.update (t.params.dataId o) 0 (some (F.objDescId r))) = _
      rw [h.params]
      rfl
    · show t.times q p = _
      by_cases hq : q = o
      · subst hq
        have hone := htimes p
        rw [honly p, hsame] at hone
        rw [if_pos rfl]
        omega
      · have hother := h.times q p
        simp only [hq, false_and, if_false, Nat.add_zero] at hother
        rw [if_neg hq, hother]
    · show retained (released t.params.internalCount (t.params.parameter o)) (some r) q + _ = _
      have hreleased := released_add (hheld q)
      rw [h.params, retained_apply]
      omega

/-- A slot is one of those of its delay. -/
theorem sum_slots {g : Option (D × Nat)} (hg : ∀ p, g = some p → p.2 < F.count p.1) (d : D) :
    ∑ i ∈ Finset.range (F.count d), (if g = some (d, i) then 1 else 0) = if g.map Prod.fst = some d then 1 else 0 := by
  cases g with
  | none => simp
  | some p =>
    obtain ⟨d', j⟩ := p
    have hj := hg _ rfl
    by_cases hd : d' = d
    · subst hd
      simp only [Option.some.injEq, Prod.mk.injEq, true_and, Option.map_some, if_true]
      rw [Finset.sum_ite_eq, if_pos (Finset.mem_range.2 hj)]
    · simp [hd]

/-- What is associated anew is counted anew. -/
theorem Reassociated.counted [DecidableEq R] (h : Reassociated s t o gone come) (hs : s.Counted)
    (hgone : ∀ p, gone = some p → p.2 < F.count p.1) (hcome : ∀ p, come = some p → p.2 < F.count p.1) : t.Counted where
  delays := fun d => by
    have hlength : ∀ i ∈ Finset.range (F.count d), (t.associated d i).length + (if gone = some (d, i) then 1 else 0) =
        (s.associated d i).length + if come = some (d, i) then 1 else 0 := fun i _ => h.length (d, i)
    have hsum := Finset.sum_congr rfl hlength
    rw [Finset.sum_add_distrib, Finset.sum_add_distrib, sum_slots hgone, sum_slots hcome] at hsum
    have hcount := h.count d
    have hheld := hs.delays d
    omega
  params := by
    rw [h.params]
    exact hs.params

/-- There is room for the association once the old one is gone. -/
theorem hasRoom_iff (hhead : ∀ p : D × Nat, t.head p.1 p.2 = none ↔
      s.head p.1 p.2 = none ∨ (s.slotOf (s.params.parameter o) = some p ∧ s.head p.1 p.2 = some o))
    (hused : ∀ d, t.prmUsed d = s.prmUsedWithout o d) (htarget : t.targetOf v = s.targetOf v) :
    s.HasRoom o v ↔ ∀ p, t.targetOf v = some p → t.head p.1 p.2 = none ∨ t.prmUsed p.1 < delayMaxPrmObject := by
  unfold HasRoom
  simp only [htarget, hhead, hused, or_assoc]

end DelayState

namespace ParameterChecks

open DelayState

variable {R D : Type} {F : DelayShape R D} [DecidableEq R] [DecidableEq D]

/-- The type of the reference is that of the signature. -/
def typeFits (E : ParameterChecks R) (o : Place) (r : R) : Bool :=
  match (E.signature o).type with
  | none => true
  | some type => E.type r = type || E.scalarType r = some type

/-- `vxSetParameterByIndex`.  The node, the references and their delays are held by the application or by others too. -/
def vxSetParameterByIndex (E : ParameterChecks R) (s : DelayState F) (n idx : Nat) (v : Option R) : Int × DelayState F :=
  let o := (n, idx)
  if E.isNode n = false then (vxErrorInvalidReference, s)
  else if E.numParameters n ≤ idx ∨ kernelMaxParams ≤ idx then (vxErrorInvalidValue, s)
  else
    match v with
    | none => (if (E.signature o).optional then vxSuccess else vxErrorInvalidReference, s)
    | some r =>
      if E.isValid r = false then (vxErrorInvalidReference, s)
      else if E.typeFits o r = false then (vxErrorInvalidType, s)
      else
        let (s, removed) := s.dissociate o
        if removed = false then (vxErrorInvalidReference, s)
        else
          let (s, added) := s.associate r o
          if added = false then (vxErrorInvalidReference, s)
          -- what is removed and added stays so
          else if (E.signature o).replicated && !E.isFirstOfScope r then (vxErrorInvalidScope, s)
          else (vxSuccess, s.ownNodeSetParameter o r)

/-- The call sets the parameter, or returns an error and changes nothing. -/
def SetsParameter (E : ParameterChecks R) (s : DelayState F) (n idx : Nat) (v : Option R) : Prop :=
  let (status, t) := E.vxSetParameterByIndex s n idx v
  if status = vxSuccess then SetsTo s t (n, idx) v else Keeps s t

/-- **The condition.**  An optional parameter that is to be `NULL` is so, and without associations.  Where a reference is accepted
and the association of the old one is found: if there is no room for the new one the old one has none; if it is then refused as
that of a replicated node, the two are with the same slot; and otherwise the old one is the only one, and the new one is with the
slot of the reference. -/
def SetFits (E : ParameterChecks R) (s : DelayState F) (o : Place) : Option R → Prop
  | none => (E.signature o).optional = true →
      s.params.parameter o = none ∧ s.params.dataId o 0 = none ∧ ∀ p, s.times o p = 0
  | some r =>
    let old := s.slotOf (s.params.parameter o)
    E.isValid r = true → E.typeFits o r = true → (∀ p, old = some p → 0 < s.times o p) →
      (¬ s.HasRoom o (some r) → old = none) ∧
      (s.HasRoom o (some r) →
        if (E.signature o).replicated && !E.isFirstOfScope r then old = s.targetOf (some r)
        else (∀ p, s.times o p = if old = some p then 1 else 0) ∧ s.targetOf (some r) = s.slotOf (some r))

variable {E : ParameterChecks R} {s : DelayState F} {o : Place} {n idx : Nat} {r : R}

/-- An optional parameter that is to be `NULL` is left alone. -/
theorem setsTo_none_iff : SetsTo s s o none ↔
    s.params.parameter o = none ∧ s.params.dataId o 0 = none ∧ ∀ p, s.times o p = 0 := by
  constructor
  · intro h
    refine ⟨?_, ?_, fun p => ?_⟩
    · rw [h.parameter, Function.update_self]
    · rw [h.dataId, Function.update_self, Function.update_self]
      rfl
    · simpa [slotOf] using h.associated o p
  · rintro ⟨hparameter, hid, htimes⟩
    refine ⟨?_, ?_, fun q p => ?_, fun d => ?_, fun q => ?_⟩
    · rw [← hparameter, Function.update_eq_self]
    · have hnone : (none : Option R).map F.objDescId = s.params.dataId o 0 := hid.symm
      rw [hnone, Function.update_eq_self, Function.update_eq_self]
    · split
      · rename_i hq
        rw [hq, htimes]
        rfl
      · rfl
    · rw [hparameter]
    · rw [hparameter]

/-- A reference of the right type is set, or refused. -/
theorem setsParameter_some (s : CountedDelays F) (hnode : E.isNode n = true)
    (hidx : ¬ (E.numParameters n ≤ idx ∨ kernelMaxParams ≤ idx))
    (hvalid : E.isValid r = true) (htype : E.typeFits (n, idx) r = true) :
    E.SetsParameter s.toDelayState n idx (some r) ↔ E.SetFits s.toDelayState (n, idx) (some r) := by
  unfold SetsParameter vxSetParameterByIndex SetFits
  simp only [hnode, hidx, hvalid, htype, Bool.true_eq_false, if_false, forall_const]
  rcases dissociate_cases s (n, idx) with ⟨p, hold, hzero, hdis⟩ | ⟨hold, t, hdis, hgone, hhead, hused⟩
  · rw [hdis]
    simp only [if_true, vxErrorInvalidReference_ne, if_false]
    refine iff_of_true (Keeps.refl _) (fun h => ?_)
    have := h p hold
    omega
  · rw [hdis]
    have hroom := hasRoom_iff hhead hused (hgone.targetOf_eq (some r))
    simp only [Bool.true_eq_false, if_false]
    rcases associate_cases t r (n, idx) with ⟨hfree, u, hass, hcome⟩ | ⟨⟨p, hp, hfull⟩, hass⟩
    · rw [hass]
      have hmoved := hgone.trans hcome
      rw [hgone.targetOf_eq] at hmoved
      have hheld : ∀ q, s.params.parameter (n, idx) = some q → 0 < s.params.internalCount q := fun _ => s.held_pos
      simp only [Bool.true_eq_false, if_false, hroom.2 hfree, not_true, false_implies, true_and, forall_const]
      by_cases hrefused : ((E.signature (n, idx)).replicated && !E.isFirstOfScope r) = true
      · simp only [hrefused, if_true, vxErrorInvalidScope_ne, if_false]
        rw [hmoved.keeps_iff]
        exact ⟨fun h _ => h, fun h => h hold⟩
      · simp only [Bool.eq_false_of_not_eq_true hrefused, Bool.false_eq_true, if_false, if_true]
        rw [hmoved.setsTo_iff hold hheld]
        exact ⟨fun h _ => h, fun h => h hold⟩
    · rw [hass]
      have hfull : ¬ s.HasRoom (n, idx) (some r) := fun h => (hroom.1 h p hp).elim hfull.1 hfull.2
      simp only [if_true, vxErrorInvalidReference_ne, if_false, hfull, not_false_eq_true, forall_const, false_implies, and_true]
      rw [hgone.keeps_iff]
      exact ⟨fun h _ => h, fun h => h hold⟩

/-- **A node parameter is set**, or the call fails and nothing has changed, in the calls that fit, and in no others. -/
theorem setsParameter_iff (s : CountedDelays F) (v : Option R) :
    E.SetsParameter s.toDelayState n idx v ↔
      (E.isNode n = true → idx < E.numParameters n → idx < kernelMaxParams → E.SetFits s.toDelayState (n, idx) v) := by
  have hkeeps := Keeps.refl s.toDelayState
  by_cases hnode : E.isNode n = true
  · by_cases hidx : E.numParameters n ≤ idx ∨ kernelMaxParams ≤ idx
    · refine iff_of_true ?_ (fun _ hlt hmax => absurd hidx (not_or.2 ⟨Nat.not_le.2 hlt, Nat.not_le.2 hmax⟩))
      simpa [SetsParameter, vxSetParameterByIndex, hnode, hidx, vxErrorInvalidValue_ne] using hkeeps
    · obtain ⟨hlt, hmax⟩ := not_or.1 hidx
      simp only [hnode, Nat.not_le.1 hlt, Nat.not_le.1 hmax, forall_const]
      cases v with
      | none =>
        unfold SetsParameter vxSetParameterByIndex SetFits
        simp only [hnode, hidx, Bool.true_eq_false, if_false]
        by_cases hopt : (E.signature (n, idx)).optional = true
        · simp only [hopt, if_true, forall_const]
          exact setsTo_none_iff
        · simp only [hopt, Bool.false_eq_true, if_false, vxErrorInvalidReference_ne]
          exact iff_of_true hkeeps False.elim
      | some r =>
        by_cases hvalid : E.isValid r = true
        · by_cases htype : E.typeFits (n, idx) r = true
          · exact setsParameter_some s hnode hidx hvalid htype
          · refine iff_of_true ?_ (fun _ h => absurd h htype)
            simpa [SetsParameter, vxSetParameterByIndex, hnode, hidx, hvalid, htype, vxErrorInvalidType_ne] using
              hkeeps
        · refine iff_of_true ?_ (fun h => absurd h hvalid)
          simpa [SetsParameter, vxSetParameterByIndex, hnode, hidx, hvalid, vxErrorInvalidReference_ne] using hkeeps
  · refine iff_of_true ?_ (fun h => absurd h hnode)
    simpa [SetsParameter, vxSetParameterByIndex, hnode, vxErrorInvalidReference_ne] using hkeeps

/-- What is held is counted after the call too. -/
theorem counted_call (s : CountedDelays F) (v : Option R) : (E.vxSetParameterByIndex s.toDelayState n idx v).2.Counted := by
  unfold vxSetParameterByIndex
  split
  · exact s.counted
  · split
    · exact s.counted
    · cases v with
      | none => exact s.counted
      | some r =>
        simp only
        split
        · exact s.counted
        · split
          · exact s.counted
          · rcases dissociate_cases s (n, idx) with ⟨p, -, -, hdis⟩ | ⟨-, t, hdis, hgone, -⟩
            · rw [hdis]
              exact s.counted
            · have ht := hgone.counted s.counted (fun _ => slotOf_lt) (fun _ h => (by cases h))
              rw [hdis]
              rcases associate_cases t r (n, idx) with ⟨-, u, hass, hcome⟩ | ⟨-, hass⟩
              · have hu := hcome.counted ht (fun _ h => (by cases h)) (fun _ => targetOf_lt)
                rw [hass]
                simp only [Bool.true_eq_false, if_false]
                split
                · exact hu
                · exact hu.ownNodeSetParameter (n, idx) r
              · rw [hass]
                exact ht

end ParameterChecks

/-- A delay of two references, 0 and 1; 5 is in no delay. -/
def twoSlots : DelayShape Nat Unit where
  count := fun _ => 2
  refs := fun _ i => i
  parts := fun _ => []
  objDescId := fun r => r + 100

/-- The first parameter of node 0 is set to reference 5. -/
def firstSet : DelayState.CountedDelays twoSlots where
  index := fun _ => 0
  head := fun _ _ => none
  chain := fun _ _ => []
  prmUsed := fun _ => 0
  internalCount := fun _ => 0
  delay := fun r => if r < 2 then some () else none
  slotIndex := fun r => if r < 2 then r else 0
  params :=
    { parameter := fun o => if o = (0, 0) then some 5 else none
      dataId := fun o _ => if o = (0, 0) then some 105 else none
      internalCount := fun _ => 1 }
  slot_lt := fun r d h => by
    show (if r < 2 then r else 0) < 2
    split
    · assumption
    · exact Nat.zero_lt_two
  counted :=
    { delays := fun d => by simp [DelayState.associated]
      params := fun T r => by
        apply Finset.card_le_one.2
        intro a ha b hb
        have hzero : ∀ o : Place, (if o = (0, 0) then some 5 else none) = some r → o = (0, 0) := fun o ho => by
          split at ho
          · assumption
          · cases ho
        rw [hzero a (Finset.mem_filter.1 ha).2, hzero b (Finset.mem_filter.1 hb).2] }

/-- A node whose first parameter is optional and whose second is replicated, and references that are in no object array. -/
def optionalAndReplicated : ParameterChecks Nat where
  isNode := fun n => n == 0
  numParameters := fun _ => 2
  signature := fun o => ⟨none, o.2 == 0, o.2 == 1⟩
  isValid := fun _ => true
  type := fun _ => 0x80F
  scalarType := fun _ => none
  isFirstOfScope := fun _ => false

/-- `NULL` is accepted for the optional parameter, which keeps its reference; and a reference of the delay is refused for the
replicated one, which the delay is associated with from then on. -/
theorem parameter_kept_and_associated :
    let null := optionalAndReplicated.vxSetParameterByIndex firstSet.toDelayState 0 0 none
    let refused := optionalAndReplicated.vxSetParameterByIndex firstSet.toDelayState 0 1 (some 1)
    (null.1 = vxSuccess ∧ null.2.params.parameter (0, 0) = some 5) ∧
      ¬ optionalAndReplicated.SetsParameter firstSet.toDelayState 0 0 none ∧
      (refused.1 = vxErrorInvalidScope ∧ refused.2.associated () 1 = [(0, 1)]) ∧
      ¬ optionalAndReplicated.SetsParameter firstSet.toDelayState 0 1 (some 1) := by
  intro null refused
  have hnull : null.1 = vxSuccess ∧ null.2.params.parameter (0, 0) = some 5 := by decide
  have hrefused : refused.1 = vxErrorInvalidScope ∧ refused.2.associated () 1 = [(0, 1)] := by decide
  refine ⟨hnull, fun h => ?_, hrefused, fun h => ?_⟩
  · have hset : null.2.params.parameter = Function.update firstSet.params.parameter (0, 0) none := by
      have h' : if null.1 = vxSuccess then DelayState.SetsTo firstSet.toDelayState null.2 (0, 0) none
          else DelayState.Keeps firstSet.toDelayState null.2 := h
      rw [if_pos hnull.1] at h'
      exact h'.parameter
    rw [hset, Function.update_self] at hnull
    cases hnull.2
  · have hkeeps : DelayState.Keeps firstSet.toDelayState refused.2 := by
      have h' : if refused.1 = vxSuccess then DelayState.SetsTo firstSet.toDelayState refused.2 (0, 1) (some 1)
          else DelayState.Keeps firstSet.toDelayState refused.2 := h
      rwa [if_neg (by rw [hrefused.1]; decide)] at h'
    have htimes := hkeeps.associated (0, 1) ((), 1)
    unfold DelayState.times at htimes
    rw [hrefused.2] at htimes
    exact absurd htimes (by decide)

end Tiovx
