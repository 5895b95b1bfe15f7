import Mathlib.Tactic
import Tiovx.ReplicateNode
import Tiovx.SetGraphParameter
/-!
# DelayAssociations — the node parameters that follow a delay (`vx_delay.c`)

Each slot of a delay has a list of the node parameters that are given the slot's reference whenever the delay ages: a head in the
slot itself, and a chain of entries from a pool.  An association is added to the list of one slot and looked for, to be removed,
in that of another, unless the delay stands at its first reference.
-/
namespace Tiovx

open NodeParameters (released retained)

/-- `TIVX_DELAY_MAX_OBJECT`. -/
def delayMaxObject : Nat := 8

/-- What the creation of delays fixes: how many references each has and which, the delays of its levels or items (`pyr_delay`,
`obj_arr_delay`), and the descriptors of the references. -/
structure DelayShape (R D : Type) where
  count : D → Nat
  refs : D → Nat → R
  parts : D → List D
  objDescId : R → Nat

/-- The delays with their associations, and the node parameters.  A reference that is in a delay has one of its slots. -/
structure DelayState {R D : Type} (F : DelayShape R D) where
  index : D → Nat
  head : D → Nat → Option Place
  chain : D → Nat → List Place
  prmUsed : D → Nat
  internalCount : D → Nat
  delay : R → Option D
  slotIndex : R → Nat
  params : NodeParameters R
  slot_lt : ∀ r d, delay r = some d → slotIndex r < F.count d

namespace DelayState

variable {R D : Type} {F : DelayShape R D}

/-- The node parameters in the list of a slot. -/
def associated (s : DelayState F) (d : D) (i : Nat) : List Place := (s.head d i).toList ++ s.chain d i

theorem associated_congr {s t : DelayState F} {d : D} {i : Nat} (hh : t.head d i = s.head d i) (hc : t.chain d i = s.chain d i) :
    t.associated d i = s.associated d i := by
  unfold associated
  rw [hh, hc]

/-- The slot that the next association of a slot is added to. -/
def addedTo (s : DelayState F) (d : D) (slot : Nat) : Nat := (s.index d + slot) % F.count d

/-- `ownNodeSetParameter`, where the reference that was set before is valid. -/
def ownNodeSetParameter [DecidableEq R] (s : DelayState F) (o : Place) (r : R) : DelayState F :=
  { s with
    params :=
      { parameter := Function.update s.params.parameter o (some r)
        dataId := Function.update s.params.dataId o (Function.update (s.params.dataId o) 0 (some (F.objDescId r)))
        internalCount := retained (released s.params.internalCount (s.params.parameter o)) (some r) } }

variable [DecidableEq D]

/-- The value of one slot of one delay. -/
def setSlot {A : Type} (f : D → Nat → A) (d : D) (i : Nat) (a : A) : D → Nat → A :=
  Function.update f d (Function.update (f d) i a)

@[simp] theorem setSlot_self {A : Type} (f : D → Nat → A) (d : D) (i : Nat) (a : A) : setSlot f d i a d i = a := by
  rw [setSlot, Function.update_self, Function.update_self]

theorem setSlot_of_ne {A : Type} (f : D → Nat → A) {d d' : D} {i i' : Nat} (a : A) (h : ¬ (d' = d ∧ i' = i)) :
    setSlot f d i a d' i' = f d' i' := by
  unfold setSlot
  by_cases hd : d' = d
  · subst hd
    rw [Function.update_self, Function.update_of_ne (fun hi => h ⟨rfl, hi⟩)]
  · rw [Function.update_of_ne hd]

theorem setSlot_setSlot {A : Type} (f : D → Nat → A) (d : D) (i : Nat) (a b : A) :
    setSlot (setSlot f d i a) d i b = setSlot f d i b := by
  unfold setSlot
  rw [Function.update_self, Function.update_idem, Function.update_idem]

theorem setSlot_eq_self {A : Type} (f : D → Nat → A) (d : D) (i : Nat) : setSlot f d i (f d i) = f := by
  unfold setSlot
  rw [Function.update_eq_self, Function.update_eq_self]

/-- `ownAddAssociationToDelay` of a reference of delay `d` that has slot `slot`, which is one of the delay's. -/
def ownAddAssociationToDelay (s : DelayState F) (d : D) (slot : Nat) (o : Place) : DelayState F × Bool :=
  let idx := s.addedTo d slot
  if s.head d idx = none then
    ({ s with head := setSlot s.head d idx (some o), internalCount := retained s.internalCount (some d) }, true)
  else if s.prmUsed d < delayMaxPrmObject then
    ({ s with
        chain := setSlot s.chain d idx (s.chain d idx ++ [o])
        prmUsed := Function.update s.prmUsed d (s.prmUsed d + 1)
        internalCount := retained s.internalCount (some d) }, true)
  else (s, false)

/-- `ownRemoveAssociationToDelay`, of a delay that others hold too. -/
def ownRemoveAssociationToDelay (s : DelayState F) (d : D) (slot : Nat) (o : Place) : DelayState F × Bool :=
  if s.head d slot = some o then
    ({ s with head := setSlot s.head d slot none, internalCount := released s.internalCount (some d) }, true)
  else if o ∈ s.chain d slot then
    ({ s with
        chain := setSlot s.chain d slot ((s.chain d slot).erase o)
        prmUsed := Function.update s.prmUsed d (s.prmUsed d - 1)
        internalCount := released s.internalCount (some d) }, true)
  else (s, false)

/-! ### What is associated after an addition or a removal -/

/-- How often a node parameter is in the list of a slot. -/
def times (s : DelayState F) (o : Place) (p : D × Nat) : Nat := (s.associated p.1 p.2).count o

/-- An association that is added is in the list of `addedTo`, after those that were there. -/
theorem add_associated {s t : DelayState F} {d : D} {slot : Nat} {o : Place}
    (h : s.ownAddAssociationToDelay d slot o = (t, true)) (d' : D) (i : Nat) :
    (t.associated d' i).Perm (if d' = d ∧ i = s.addedTo d slot then o :: s.associated d' i else s.associated d' i) := by
  unfold ownAddAssociationToDelay at h
  simp only at h
  split at h
  · rename_i hnone
    obtain rfl := (Prod.mk.inj h).1
    split
    · rename_i hi
      obtain ⟨rfl, rfl⟩ := hi
      simp [associated, hnone]
    · rename_i hi
      exact .of_eq (associated_congr (setSlot_of_ne _ _ hi) rfl)
  · split at h
    · obtain rfl := (Prod.mk.inj h).1
      split
      · rename_i hi
        obtain ⟨rfl, rfl⟩ := hi
        unfold associated
        simp only [setSlot_self]
        rw [← List.append_assoc]
        exact List.perm_append_singleton _ _
      · rename_i hi
        exact .of_eq (associated_congr rfl (setSlot_of_ne _ _ hi))
    · cases (Prod.mk.inj h).2

/-- An association that is removed is no more in the list of the slot, as often as it was but for once. -/
theorem remove_associated {s t : DelayState F} {d : D} {slot : Nat} {o : Place}
    (h : s.ownRemoveAssociationToDelay d slot o = (t, true)) (d' : D) (i : Nat) :
    t.associated d' i = if d' = d ∧ i = slot then (s.associated d' i).erase o else s.associated d' i := by
  unfold ownRemoveAssociationToDelay at h
  split at h
  · rename_i hhead
    obtain rfl := (Prod.mk.inj h).1
    split
    · rename_i hi
      obtain ⟨rfl, rfl⟩ := hi
      simp [associated, hhead]
    · rename_i hi
      exact associated_congr (setSlot_of_ne _ _ hi) rfl
  · rename_i hhead
    split at h
    · obtain rfl := (Prod.mk.inj h).1
      split
      · rename_i hi
        obtain ⟨rfl, rfl⟩ := hi
        unfold associated
        simp only [setSlot_self]
        rw [List.erase_append_right]
        rw [Option.mem_toList]
        exact hhead
      · rename_i hi
        exact associated_congr rfl (setSlot_of_ne _ _ hi)
    · cases (Prod.mk.inj h).2

/-- A removal fails only where there is nothing to remove. -/
theorem remove_cases (s : DelayState F) (d : D) (slot : Nat) (o : Place) :
    (o ∉ s.associated d slot ∧ s.ownRemoveAssociationToDelay d slot o = (s, false)) ∨
      o ∈ s.associated d slot ∧ ∃ t, s.ownRemoveAssociationToDelay d slot o = (t, true) := by
  unfold ownRemoveAssociationToDelay associated
  split
  · rename_i hhead
    exact .inr ⟨by simp [hhead], _, rfl⟩
  · rename_i hhead
    split
    · rename_i hmem
      exact .inr ⟨List.mem_append_right _ hmem, _, rfl⟩
    · rename_i hmem
      refine .inl ⟨fun h => ?_, rfl⟩
      obtain h | h := List.mem_append.1 h
      · exact hhead (Option.mem_toList.1 h)
      · exact hmem h

theorem released_retained {A : Type} [DecidableEq A] (count : A → Nat) (a : A) :
    released (retained count (some a)) (some a) = count := by
  unfold released retained
  simp only [Function.update_self, Function.update_idem, Nat.add_sub_cancel]
  exact Function.update_eq_self _ _

/-- An addition, and what it leaves alone. -/
theorem add_frame (s : DelayState F) (d : D) (slot : Nat) (o : Place) :
    (s.ownAddAssociationToDelay d slot o).1.index = s.index ∧ (s.ownAddAssociationToDelay d slot o).1.delay = s.delay ∧
      (s.ownAddAssociationToDelay d slot o).1.slotIndex = s.slotIndex ∧
      (s.ownAddAssociationToDelay d slot o).1.params = s.params ∧
      ((s.ownAddAssociationToDelay d slot o).2 = false → (s.ownAddAssociationToDelay d slot o).1 = s) := by
  unfold ownAddAssociationToDelay
  simp only
  split
  · exact ⟨rfl, rfl, rfl, rfl, fun h => by cases h⟩
  · split
    · exact ⟨rfl, rfl, rfl, rfl, fun h => by cases h⟩
    · exact ⟨rfl, rfl, rfl, rfl, fun _ => rfl⟩

theorem remove_frame (s : DelayState F) (d : D) (slot : Nat) (o : Place) :
    (s.ownRemoveAssociationToDelay d slot o).1.index = s.index ∧ (s.ownRemoveAssociationToDelay d slot o).1.delay = s.delay ∧
      (s.ownRemoveAssociationToDelay d slot o).1.slotIndex = s.slotIndex ∧
      (s.ownRemoveAssociationToDelay d slot o).1.params = s.params := by
  unfold ownRemoveAssociationToDelay
  split
  · exact ⟨rfl, rfl, rfl, rfl⟩
  · split
    · exact ⟨rfl, rfl, rfl, rfl⟩
    · exact ⟨rfl, rfl, rfl, rfl⟩

/-- What is added to its own slot's list, where it was not, can be removed, and all is as it was. -/
theorem remove_add {s t : DelayState F} {d : D} {slot : Nat} {o : Place} (h : s.ownAddAssociationToDelay d slot o = (t, true))
    (hslot : s.addedTo d slot = slot) (hnew : o ∉ s.associated d slot) : t.ownRemoveAssociationToDelay d slot o = (s, true) := by
  have hcount := released_retained s.internalCount d
  have hhead : s.head d slot ≠ some o := fun hh => hnew (List.mem_append_left _ (Option.mem_toList.2 hh))
  have hchain : o ∉ s.chain d slot := fun hc => hnew (List.mem_append_right _ hc)
  unfold ownAddAssociationToDelay at h
  simp only [hslot] at h
  split at h
  · rename_i hnone
    obtain rfl := (Prod.mk.inj h).1
    have hback : setSlot (setSlot s.head d slot (some o)) d slot none = s.head := by
      rw [setSlot_setSlot, ← hnone, setSlot_eq_self]
    unfold ownRemoveAssociationToDelay
    simp only [setSlot_self, if_true, hback, hcount]
  · split at h
    · obtain rfl := (Prod.mk.inj h).1
      have herase : (s.chain d slot ++ [o]).erase o = s.chain d slot := by
        rw [List.erase_append_right _ hchain, List.erase_cons_head, List.append_nil]
      have hback : setSlot (setSlot s.chain d slot (s.chain d slot ++ [o])) d slot (s.chain d slot) = s.chain := by
        rw [setSlot_setSlot, setSlot_eq_self]
      have hused : Function.update (Function.update s.prmUsed d (s.prmUsed d + 1)) d (s.prmUsed d) = s.prmUsed := by
        rw [Function.update_idem, Function.update_eq_self]
      unfold ownRemoveAssociationToDelay
      simp only [if_neg hhead, setSlot_self, List.mem_append, List.mem_singleton, or_true, if_true, herase, hback,
        Function.update_self, Nat.add_sub_cancel, hused, hcount]
    · cases (Prod.mk.inj h).2

end DelayState

end Tiovx
