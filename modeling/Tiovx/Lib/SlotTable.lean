import Mathlib.Tactic
/-!
# Lib.SlotTable — a table of slots

A fixed number of slots, each free or with an entry.  An entry is put into the first free slot, and taken out of the first
slot that holds it.  What the table holds is the list of its entries, up to their order: `putFirst` adds one to it and
`clearFirst` removes one from it, and neither changes the number of slots.
-/
namespace SlotTable

variable {α : Type}

/-- The entries, in the order of the slots. -/
def entries (t : List (Option α)) : List α := t.filterMap id

/-- `x` is put into the first free slot. -/
def putFirst (x : α) : List (Option α) → Option (List (Option α))
  | [] => none
  | none :: t => some (some x :: t)
  | some y :: t => (putFirst x t).map (some y :: ·)

/-- The first slot that holds `x` is cleared. -/
def clearFirst [DecidableEq α] (x : α) : List (Option α) → Option (List (Option α))
  | [] => none
  | none :: t => (clearFirst x t).map (none :: ·)
  | some y :: t => if y = x then some (none :: t) else (clearFirst x t).map (some y :: ·)

@[simp] theorem entries_nil : entries ([] : List (Option α)) = [] := rfl

@[simp] theorem entries_none_cons (t : List (Option α)) : entries (none :: t) = entries t := rfl

@[simp] theorem entries_some_cons (x : α) (t : List (Option α)) : entries (some x :: t) = x :: entries t := rfl

@[simp] theorem entries_replicate (n : Nat) : entries (List.replicate n (none : Option α)) = [] := by
  induction n with
  | zero => rfl
  | succ n ih => rw [List.replicate_succ, entries_none_cons, ih]

theorem length_entries_le (t : List (Option α)) : (entries t).length ≤ t.length := List.length_filterMap_le id t

theorem putFirst_spec {x : α} : ∀ {t t' : List (Option α)}, putFirst x t = some t' →
    t'.length = t.length ∧ (entries t').Perm (x :: entries t)
  | [], _, h => by cases h
  | none :: t, _, h => by
    cases h
    exact ⟨rfl, List.Perm.refl _⟩
  | some y :: t, _, h => by
    obtain ⟨u, hu, rfl⟩ := Option.map_eq_some_iff.1 h
    obtain ⟨hl, hp⟩ := putFirst_spec hu
    refine ⟨by rw [List.length_cons, List.length_cons, hl], ?_⟩
    simp only [entries_some_cons]
    exact (hp.cons y).trans (List.Perm.swap x y _)

/-- There is no free slot where nothing can be put. -/
theorem putFirst_eq_none {x : α} : ∀ {t : List (Option α)}, putFirst x t = none → (entries t).length = t.length
  | [], _ => rfl
  | none :: t, h => by cases h
  | some y :: t, h => by
    rw [entries_some_cons, List.length_cons, List.length_cons, putFirst_eq_none (Option.map_eq_none_iff.1 h)]

theorem putFirst_isSome {x y : α} : ∀ {t : List (Option α)}, (putFirst x t).isSome = (putFirst y t).isSome
  | [] => rfl
  | none :: _ => rfl
  | some z :: t => by
    simp only [putFirst, Option.isSome_map]
    exact putFirst_isSome

section Clear

variable [DecidableEq α]

theorem clearFirst_spec {x : α} : ∀ {t t' : List (Option α)}, clearFirst x t = some t' →
    t'.length = t.length ∧ (entries t).Perm (x :: entries t')
  | [], _, h => by cases h
  | none :: t, _, h => by
    obtain ⟨u, hu, rfl⟩ := Option.map_eq_some_iff.1 h
    obtain ⟨hl, hp⟩ := clearFirst_spec hu
    exact ⟨by rw [List.length_cons, List.length_cons, hl], hp⟩
  | some y :: t, _, h => by
    unfold clearFirst at h
    split at h
    · rename_i hy
      cases h
      subst hy
      exact ⟨rfl, List.Perm.refl _⟩
    · obtain ⟨u, hu, rfl⟩ := Option.map_eq_some_iff.1 h
      obtain ⟨hl, hp⟩ := clearFirst_spec hu
      refine ⟨by rw [List.length_cons, List.length_cons, hl], ?_⟩
      simp only [entries_some_cons]
      exact (hp.cons y).trans (List.Perm.swap x y _)

theorem clearFirst_eq_none {x : α} : ∀ {t : List (Option α)}, clearFirst x t = none ↔ x ∉ entries t
  | [] => by simp [clearFirst]
  | none :: t => by
    rw [clearFirst, Option.map_eq_none_iff, clearFirst_eq_none, entries_none_cons]
  | some y :: t => by
    rw [clearFirst, entries_some_cons, List.mem_cons, not_or]
    split
    · rename_i hy
      simp [hy]
    · rename_i hy
      rw [Option.map_eq_none_iff, clearFirst_eq_none]
      exact ⟨fun h => ⟨Ne.symm hy, h⟩, fun h => h.2⟩

end Clear

/-! ## A counter of the slots in use -/

theorem toNat_add_one {n : UInt32} {m : Nat} (h : n.toNat < m) (hm : m < 2 ^ 32) : (n + 1).toNat = n.toNat + 1 := by
  rw [UInt32.toNat_add, UInt32.toNat_one, Nat.mod_eq_of_lt (by omega)]

theorem toNat_sub_one {n : UInt32} (h : 0 < n.toNat) : (n - 1).toNat = n.toNat - 1 := by
  have h1 : (1 : UInt32) ≤ n := by
    rw [UInt32.le_iff_toNat_le, UInt32.toNat_one]
    exact h
  rw [UInt32.toNat_sub_of_le _ _ h1, UInt32.toNat_one]

end SlotTable
