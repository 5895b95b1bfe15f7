import Mathlib.Data.List.Nodup
import Mathlib.Data.List.Range
import Mathlib.Data.List.Perm.Subperm
import Mathlib.Logic.Function.Basic
/-!
# Lib.SlotPool — slots that are queued or held

A fixed number of slots wait in queues or are held, one at a time, by the parties that use them.  The slots are
partitioned: each is queued once and held by none, or held by one party and not queued.  A party that takes a slot from a
queue, or gives the one it holds to a queue, keeps the partition, and a queue always has room for a slot that is held.
-/
namespace SlotPool

variable {τ : Type} {n : Nat} {queued queued' : List Nat} {held : τ → Option Nat}

/-- Each of `n` slots is queued once or held by one party. -/
structure Partitioned (n : Nat) (queued : List Nat) (held : τ → Option Nat) : Prop where
  nodup : queued.Nodup
  lt : ∀ i ∈ queued, i < n
  apart : ∀ t i, held t = some i → i < n ∧ i ∉ queued
  unique : ∀ t t' i, held t = some i → held t' = some i → t = t'
  covered : ∀ i < n, i ∈ queued ∨ ∃ t, held t = some i

theorem Partitioned.start : Partitioned n (List.range n) (fun _ : τ => none) where
  nodup := List.nodup_range
  lt _ hi := List.mem_range.1 hi
  apart _ _ h := by cases h
  unique _ _ _ h := by cases h
  covered _ hi := .inl (List.mem_range.2 hi)

/-- The order of the queues does not matter. -/
theorem Partitioned.perm (h : Partitioned n queued held) (hp : queued.Perm queued') : Partitioned n queued' held where
  nodup := hp.nodup_iff.1 h.nodup
  lt i hi := h.lt i (hp.mem_iff.2 hi)
  apart t i ht := ⟨(h.apart t i ht).1, fun hi => (h.apart t i ht).2 (hp.mem_iff.2 hi)⟩
  unique := h.unique
  covered i hi := (h.covered i hi).imp_left hp.mem_iff.1

variable [DecidableEq τ]

/-- A party takes a slot. -/
theorem Partitioned.take {i : Nat} (h : Partitioned n (i :: queued) held) {t : τ} (ht : held t = none) :
    Partitioned n queued (Function.update held t (some i)) where
  nodup := (List.nodup_cons.1 h.nodup).2
  lt j hj := h.lt j (List.mem_cons_of_mem i hj)
  apart u j hu := by
    rw [Function.update_apply] at hu
    split at hu
    · cases hu
      exact ⟨h.lt i List.mem_cons_self, (List.nodup_cons.1 h.nodup).1⟩
    · obtain ⟨hj, hn⟩ := h.apart u j hu
      exact ⟨hj, fun hm => hn (List.mem_cons_of_mem i hm)⟩
  unique u v j hu hv := by
    rw [Function.update_apply] at hu hv
    split at hu <;> split at hv
    · rename_i hut hvt
      rw [hut, hvt]
    · cases hu
      exact absurd List.mem_cons_self (h.apart v i hv).2
    · cases hv
      exact absurd List.mem_cons_self (h.apart u i hu).2
    · exact h.unique u v j hu hv
  covered j hj := by
    rcases h.covered j hj with hq | ⟨u, hu⟩
    · rcases List.mem_cons.1 hq with rfl | hq
      · exact .inr ⟨t, Function.update_self _ _ _⟩
      · exact .inl hq
    · refine .inr ⟨u, ?_⟩
      rw [Function.update_of_ne (fun hut => by rw [hut, ht] at hu; cases hu)]
      exact hu

/-- A party gives its slot to a queue. -/
theorem Partitioned.give {i : Nat} (h : Partitioned n queued held) {t : τ} (ht : held t = some i) :
    Partitioned n (i :: queued) (Function.update held t none) where
  nodup := List.nodup_cons.2 ⟨(h.apart t i ht).2, h.nodup⟩
  lt j hj := by
    rcases List.mem_cons.1 hj with rfl | hj
    · exact (h.apart t j ht).1
    · exact h.lt j hj
  apart u j hu := by
    rw [Function.update_apply] at hu
    split at hu
    · cases hu
    · rename_i hut
      obtain ⟨hj, hn⟩ := h.apart u j hu
      refine ⟨hj, fun hm => ?_⟩
      rcases List.mem_cons.1 hm with rfl | hm
      · exact hut (h.unique u t j hu ht)
      · exact hn hm
  unique u v j hu hv := by
    rw [Function.update_apply] at hu hv
    split at hu <;> split at hv
    · cases hu
    · cases hu
    · cases hv
    · exact h.unique u v j hu hv
  covered j hj := by
    rcases h.covered j hj with hq | ⟨u, hu⟩
    · exact .inl (List.mem_cons_of_mem i hq)
    · by_cases hut : u = t
      · subst hut
        rw [ht] at hu
        cases hu
        exact .inl List.mem_cons_self
      · exact .inr ⟨u, by rw [Function.update_of_ne hut]; exact hu⟩

/-- A new slot is held from the start. -/
theorem Partitioned.grow (h : Partitioned n queued held) {t : τ} (ht : held t = none) :
    Partitioned (n + 1) queued (Function.update held t (some n)) where
  nodup := h.nodup
  lt i hi := Nat.lt_succ_of_lt (h.lt i hi)
  apart u i hu := by
    rw [Function.update_apply] at hu
    split at hu
    · cases hu
      exact ⟨Nat.lt_succ_self n, fun hm => Nat.lt_irrefl n (h.lt n hm)⟩
    · exact ⟨Nat.lt_succ_of_lt (h.apart u i hu).1, (h.apart u i hu).2⟩
  unique u v i hu hv := by
    rw [Function.update_apply] at hu hv
    split at hu <;> split at hv
    · rename_i hut hvt
      rw [hut, hvt]
    · cases hu
      exact absurd (h.apart v n hv).1 (Nat.lt_irrefl n)
    · cases hv
      exact absurd (h.apart u n hu).1 (Nat.lt_irrefl n)
    · exact h.unique u v i hu hv
  covered i hi := by
    by_cases hin : i = n
    · subst hin
      exact .inr ⟨t, Function.update_self _ _ _⟩
    · rcases h.covered i (by omega) with hq | ⟨u, hu⟩
      · exact .inl hq
      · have hut : u ≠ t := fun hut => by rw [hut, ht] at hu; cases hu
        exact .inr ⟨u, by rw [Function.update_of_ne hut]; exact hu⟩

omit [DecidableEq τ] in
/-- A queue has room for a slot that is held. -/
theorem Partitioned.room {q : List Nat} {i : Nat} {t : τ} (h : Partitioned n queued held) (hq : q.Sublist queued)
    (ht : held t = some i) : q.length < n := by
  obtain ⟨hi, hn⟩ := h.apart t i ht
  have hnodup : (i :: q).Nodup := List.nodup_cons.2 ⟨fun hm => hn (hq.subset hm), h.nodup.sublist hq⟩
  have hsub : i :: q ⊆ List.range n := by
    intro j hj
    rcases List.mem_cons.1 hj with rfl | hj
    · exact List.mem_range.2 hi
    · exact List.mem_range.2 (h.lt j (hq.subset hj))
  have hle := (List.subperm_of_subset hnodup hsub).length_le
  rw [List.length_cons, List.length_range] at hle
  exact hle

end SlotPool
