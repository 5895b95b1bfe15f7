import Tiovx.DelayAssociations
import Tiovx.Lib.Run
/-!
# DelayAging — a delay ages (`vx_delay.c`)

A delay of `count` references stands at one of them, and its slot `i` is the `i`-th from there on.  When it ages it goes on to the
next, and the node parameters in the list of each slot are given the reference that is then in the slot, which is told its slot.
The delays of the levels of pyramids, or of the items of object arrays, age with it.
-/
namespace Tiovx

open StepSystem

namespace DelayState

section Age

variable {R D : Type} [DecidableEq R] {F : DelayShape R D}

/-- The reference in slot `i`. -/
def inSlot (s : DelayState F) (d : D) (i : Nat) : R := F.refs d ((s.index d + i) % F.count d)

def ownInitReferenceForDelay (s : DelayState F) (r : R) (d : D) (i : Fin (F.count d)) : DelayState F :=
  { s with
    delay := Function.update s.delay r (some d)
    slotIndex := Function.update s.slotIndex r i
    slot_lt := fun r' d' h => by
      by_cases hr : r' = r
      · subst hr
        rw [Function.update_self] at h ⊢
        obtain rfl := Option.some.inj h
        exact i.isLt
      · rw [Function.update_of_ne hr] at h ⊢
        exact s.slot_lt r' d' h }

/-- A node parameter is given the reference in slot `i`. -/
def reassign (s : DelayState F) (d : D) (i : Fin (F.count d)) (o : Place) : DelayState F :=
  (s.ownNodeSetParameter o (s.inSlot d i)).ownInitReferenceForDelay (s.inSlot d i) d i

/-- The loop over the list of a slot. -/
def reassignSlot (s : DelayState F) (d : D) (i : Fin (F.count d)) : DelayState F :=
  (s.associated d i).foldl (fun s o => s.reassign d i o) s

/-- The loop over the slots. -/
def reassignAll (s : DelayState F) (d : D) (slots : List (Fin (F.count d))) : DelayState F :=
  slots.foldl (fun s i => s.reassignSlot d i) s

/-! ### What the loops leave -/

/-- A node parameter and its `data_id`. -/
def binding (s : DelayState F) (o : Place) : Option R × Option Nat := (s.params.parameter o, s.params.dataId o 0)

/-- The binding to a reference. -/
def boundTo (F : DelayShape R D) (r : R) : Option R × Option Nat := (some r, some (F.objDescId r))

/-- What a loop that gives the node parameters of `l` the reference `r`, of slot `i`, has done. -/
structure Reassigned (s t : DelayState F) (d : D) (i : Nat) (r : R) (l : List Place) : Prop where
  index : t.index = s.index
  associated : t.associated = s.associated
  binding : ∀ o, t.binding o = if o ∈ l then boundTo F r else s.binding o
  slotIndex : ∀ r', t.slotIndex r' = if l ≠ [] ∧ r' = r then i else s.slotIndex r'
  delay : ∀ r', t.delay r' = if l ≠ [] ∧ r' = r then some d else s.delay r'

theorem reassign_binding (s : DelayState F) (d : D) (i : Fin (F.count d)) (o o' : Place) :
    (s.reassign d i o).binding o' = if o' = o then boundTo F (s.inSlot d i) else s.binding o' := by
  unfold binding reassign ownInitReferenceForDelay ownNodeSetParameter
  by_cases ho : o' = o
  · subst ho
    simp only [Function.update_self, if_true]
    rfl
  · simp only [Function.update_of_ne ho, if_neg ho]

theorem reassigned (d : D) (i : Fin (F.count d)) (r : R) : ∀ (l : List Place) (s : DelayState F), s.inSlot d i = r →
    Reassigned s (l.foldl (fun s o => s.reassign d i o) s) d i r l
  | [], s, _ => ⟨rfl, rfl, fun _ => rfl, fun _ => by simp, fun _ => by simp⟩
  | o :: l, s, hr => by
    have ih := reassigned d i r l (s.reassign d i o) hr
    refine ⟨ih.index, ih.associated, fun o' => ?_, fun r' => ?_, fun r' => ?_⟩
    · rw [List.foldl_cons, ih.binding, reassign_binding, hr]
      by_cases ho : o' = o
      · simp [ho]
      · simp [ho]
    · have hone : (s.reassign d i o).slotIndex r' = if r' = r then i.val else s.slotIndex r' := by
        rw [← hr]
        exact Function.update_apply ..
      rw [List.foldl_cons, ih.slotIndex, hone]
      by_cases hr' : r' = r
      · simp [hr']
      · simp [hr']
    · have hone : (s.reassign d i o).delay r' = if r' = r then some d else s.delay r' := by
        rw [← hr]
        exact Function.update_apply ..
      rw [List.foldl_cons, ih.delay, hone]
      by_cases hr' : r' = r
      · simp [hr']
      · simp [hr']

/-- What the loop over `slots` has done, for node parameters that are in the list of one of the slots and references that are in
one of them. -/
structure ReassignedAll (s t : DelayState F) (d : D) (slots : List (Fin (F.count d))) : Prop where
  index : t.index = s.index
  associated : t.associated = s.associated
  kept : ∀ o, (∀ i ∈ slots, o ∉ s.associated d i) → t.binding o = s.binding o
  bound : ∀ i ∈ slots, ∀ o ∈ s.associated d i, (∀ i' ∈ slots, o ∈ s.associated d i' → i' = i) →
    t.binding o = boundTo F (s.inSlot d i)
  slotKept : ∀ r, (∀ i ∈ slots, s.associated d i ≠ [] → r ≠ s.inSlot d i) →
    t.slotIndex r = s.slotIndex r ∧ t.delay r = s.delay r
  slotSet : ∀ i ∈ slots, s.associated d i ≠ [] → (∀ i' ∈ slots, s.inSlot d i' = s.inSlot d i → i' = i) →
    t.slotIndex (s.inSlot d i) = i ∧ t.delay (s.inSlot d i) = some d

theorem reassignAll_spec (d : D) : ∀ (slots : List (Fin (F.count d))) (s : DelayState F), slots.Nodup →
    ReassignedAll s (s.reassignAll d slots) d slots
  | [], s, _ => ⟨rfl, rfl, fun _ _ => rfl, fun _ hi => (nomatch hi), fun _ _ => ⟨rfl, rfl⟩, fun _ hi => (nomatch hi)⟩
  | i :: slots, s, hnd => by
    obtain ⟨hi, hnd⟩ := List.nodup_cons.1 hnd
    have h1 := reassigned d i (s.inSlot d i) (s.associated d i) s rfl
    have ih := reassignAll_spec d slots (s.reassignSlot d i) hnd
    have hin : ∀ k : Nat, (s.reassignSlot d i).inSlot d k = s.inSlot d k := fun k => by
      unfold inSlot
      rw [show (s.reassignSlot d i).index = s.index from h1.index]
    have hass : (s.reassignSlot d i).associated = s.associated := h1.associated
    have hout := ih.associated
    rw [hass] at hout
    have hkept := ih.kept
    have hbound := ih.bound
    have hslotKept := ih.slotKept
    have hslotSet := ih.slotSet
    simp only [hass, hin] at hkept hbound hslotKept hslotSet
    refine ⟨ih.index.trans h1.index, hout, fun o ho => ?_, fun k hk o ho huniq => ?_, fun r hr => ?_, fun k hk hne huniq => ?_⟩
    · rw [reassignAll, List.foldl_cons]
      refine (hkept o (fun k hk => ho k (List.mem_cons_of_mem _ hk))).trans ?_
      refine (h1.binding o).trans (if_neg (ho i List.mem_cons_self))
    · obtain rfl | hk := List.mem_cons.1 hk
      · rw [reassignAll, List.foldl_cons]
        refine (hkept o (fun k' hk' hok' => ?_)).trans ?_
        · obtain rfl := huniq k' (List.mem_cons_of_mem _ hk') hok'
          exact hi hk'
        · exact (h1.binding o).trans (if_pos ho)
      · exact hbound k hk o ho (fun k' hk' => huniq k' (List.mem_cons_of_mem _ hk'))
    · have hrest := hslotKept r (fun k hk => hr k (List.mem_cons_of_mem _ hk))
      have hno : ¬ (s.associated d i ≠ [] ∧ r = s.inSlot d i) := fun h => hr i List.mem_cons_self h.1 h.2
      exact ⟨hrest.1.trans ((h1.slotIndex r).trans (if_neg hno)), hrest.2.trans ((h1.delay r).trans (if_neg hno))⟩
    · obtain rfl | hk := List.mem_cons.1 hk
      · have hrest := hslotKept (s.inSlot d k) (fun k' hk' _ heq => by
          obtain rfl := huniq k' (List.mem_cons_of_mem _ hk') heq.symm
          exact hi hk')
        exact ⟨hrest.1.trans ((h1.slotIndex _).trans (if_pos ⟨hne, rfl⟩)),
          hrest.2.trans ((h1.delay _).trans (if_pos ⟨hne, rfl⟩))⟩
      · exact hslotSet k hk hne (fun k' hk' => huniq k' (List.mem_cons_of_mem _ hk'))

/-! ### A delay and its parts age -/

variable [DecidableEq D]

/-- The index of a delay that is going to age. -/
def nextIndex (s : DelayState F) (d : D) : DelayState F :=
  { s with index := Function.update s.index d ((s.index d + 1) % F.count d) }

/-- `ownAgeDelay`, which divides by the number of references. -/
def ownAgeDelay (s : DelayState F) (d : D) : Option (DelayState F) :=
  if F.count d = 0 then none else some ((s.nextIndex d).reassignAll d (List.finRange (F.count d)))

/-- The loop over the levels or items. -/
def ageParts (s : DelayState F) : List D → Option (DelayState F)
  | [] => some s
  | d :: ds => (s.ownAgeDelay d).bind (fun t => t.ageParts ds)

def vxAgeDelay (s : DelayState F) (d : D) : Option (DelayState F) :=
  (s.ownAgeDelay d).bind (fun t => t.ageParts (F.parts d))

end Age

end DelayState

end Tiovx
