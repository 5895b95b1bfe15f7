import Mathlib.Tactic
/-!
# Lib.RingQueue — a ring buffer is a bounded FIFO list

A ring of `n` cells with a read index, a write index and a count, the three related by the structure's own fields.
`RingQueue.toList` reads the entries oldest first; a push appends, a pop takes the head, and both are refused exactly when
the bounded list would refuse them.
-/

/-- A ring buffer of `n` cells. -/
structure RingQueue (α : Type) (n : Nat) where
  mem : Vector α n
  rd : Nat
  wr : Nat
  count : Nat
  rd_lt : rd < n
  count_le : count ≤ n
  wr_eq : wr = (rd + count) % n

namespace RingQueue

variable {α : Type} {n : Nat}

theorem pos (r : RingQueue α n) : 0 < n := Nat.lt_of_le_of_lt (Nat.zero_le _) r.rd_lt

theorem wr_lt (r : RingQueue α n) : r.wr < n := by rw [r.wr_eq]; exact Nat.mod_lt _ r.pos

/-- The cell `i` entries after the read index. -/
def cell (r : RingQueue α n) (i : Nat) : α := r.mem.get ⟨(r.rd + i) % n, Nat.mod_lt _ r.pos⟩

/-- The entries, oldest first. -/
def toList (r : RingQueue α n) : List α := (List.range r.count).map r.cell

/-- An empty ring over any cells. -/
def empty (mem : Vector α n) (h : 0 < n) : RingQueue α n := ⟨mem, 0, 0, 0, h, Nat.zero_le _, by simp⟩

/-- Writes at the write index, unless every cell is taken. -/
def push (r : RingQueue α n) (a : α) : Option (RingQueue α n) :=
  if h : r.count < n then
    some ⟨r.mem.set r.wr a r.wr_lt, r.rd, (r.wr + 1) % n, r.count + 1, r.rd_lt, h, by
      rw [r.wr_eq, Nat.mod_add_mod, Nat.add_assoc]⟩
  else none

/-- Reads at the read index, unless no cell is taken. -/
def pop (r : RingQueue α n) : Option (α × RingQueue α n) :=
  if h : 0 < r.count then
    some (r.mem.get ⟨r.rd, r.rd_lt⟩, ⟨r.mem, (r.rd + 1) % n, r.wr, r.count - 1, Nat.mod_lt _ r.pos,
      Nat.le_trans (Nat.sub_le _ _) r.count_le, by
        rw [r.wr_eq, Nat.mod_add_mod]; congr 1; omega⟩)
  else none

@[simp] theorem length_toList (r : RingQueue α n) : r.toList.length = r.count := by simp [toList]

theorem toList_empty (mem : Vector α n) (h : 0 < n) : (empty mem h).toList = [] := rfl

theorem toList_eq_nil_iff (r : RingQueue α n) : r.toList = [] ↔ r.count = 0 := by
  rw [← List.length_eq_zero_iff, length_toList]

/-- The cells of a ring in use are apart from the one at the write index. -/
theorem cell_ne_wr (r : RingQueue α n) {i : Nat} (hi : i < r.count) (hc : r.count < n) : (r.rd + i) % n ≠ r.wr := by
  rw [r.wr_eq]
  intro h
  have h1 := r.rd_lt
  rcases Nat.lt_or_ge (r.rd + i) n with ha | ha <;> rcases Nat.lt_or_ge (r.rd + r.count) n with hb | hb
  · rw [Nat.mod_eq_of_lt ha, Nat.mod_eq_of_lt hb] at h; omega
  · rw [Nat.mod_eq_of_lt ha, Nat.mod_eq_sub_mod hb, Nat.mod_eq_of_lt (by omega)] at h; omega
  · omega
  · rw [Nat.mod_eq_sub_mod ha, Nat.mod_eq_sub_mod hb, Nat.mod_eq_of_lt (by omega), Nat.mod_eq_of_lt (by omega)] at h
    omega

/-- **A push appends**, and is refused exactly when the list has `n` entries. -/
theorem toList_push (r : RingQueue α n) (a : α) (r' : RingQueue α n) (h : r.push a = some r') :
    r'.toList = r.toList ++ [a] := by
  unfold push at h
  split at h
  · rename_i hc
    cases h
    simp only [toList, List.range_succ, List.map_append, List.map_cons, List.map_nil]
    congr 1
    · refine List.map_congr_left (fun i hi => ?_)
      have := r.cell_ne_wr (List.mem_range.1 hi) hc
      exact Vector.getElem_set_ne r.wr_lt (Nat.mod_lt _ r.pos) (Ne.symm this)
    · simp only [cell, ← r.wr_eq]
      exact congrArg (fun x => [x]) (Vector.getElem_set_self _)
  · cases h

/-- What a push changes of the fields. -/
theorem push_of_lt (r : RingQueue α n) (a : α) (h : r.count < n) : ∃ r' : RingQueue α n, r.push a = some r' ∧
    r'.mem = r.mem.set r.wr a r.wr_lt ∧ r'.rd = r.rd ∧ r'.wr = (r.wr + 1) % n ∧ r'.count = r.count + 1 := by
  unfold push
  rw [dif_pos h]
  exact ⟨_, rfl, rfl, rfl, rfl, rfl⟩

/-- What a pop reads and changes of the fields. -/
theorem pop_of_pos (r : RingQueue α n) (h : 0 < r.count) : ∃ r' : RingQueue α n,
    r.pop = some (r.mem.get ⟨r.rd, r.rd_lt⟩, r') ∧ r'.mem = r.mem ∧ r'.rd = (r.rd + 1) % n ∧ r'.wr = r.wr ∧
      r'.count = r.count - 1 := by
  unfold pop
  rw [dif_pos h]
  exact ⟨_, rfl, rfl, rfl, rfl, rfl⟩

theorem push_eq_none_iff (r : RingQueue α n) (a : α) : r.push a = none ↔ r.toList.length = n := by
  have := r.count_le
  unfold push
  rw [length_toList]
  split
  · simp; omega
  · simp; omega

/-- **A pop takes the head**, and is refused exactly when the list is empty. -/
theorem toList_pop (r : RingQueue α n) (a : α) (r' : RingQueue α n) (h : r.pop = some (a, r')) :
    r.toList = a :: r'.toList := by
  unfold pop at h
  split at h
  · rename_i hc
    cases h
    obtain ⟨k, hk⟩ : ∃ k, r.count = k + 1 := ⟨r.count - 1, by omega⟩
    simp only [toList, hk, Nat.add_sub_cancel, List.range_succ_eq_map, List.map_cons, List.map_map]
    congr 1
    · simp only [cell, Nat.add_zero, Nat.mod_eq_of_lt r.rd_lt]
    · refine List.map_congr_left (fun i _ => ?_)
      have hi : (r.rd + (i + 1)) % n = ((r.rd + 1) % n + i) % n := by
        rw [Nat.mod_add_mod]; congr 1; omega
      simp only [cell, Function.comp_apply, Nat.succ_eq_add_one, hi]
  · cases h

theorem pop_eq_none_iff (r : RingQueue α n) : r.pop = none ↔ r.toList = [] := by
  rw [toList_eq_nil_iff]
  unfold pop
  split
  · simp; omega
  · simp; omega

/-- Takes the oldest `k` entries off, at once. -/
def skip (r : RingQueue α n) (k : Nat) (h : k ≤ r.count) : RingQueue α n :=
  ⟨r.mem, (r.rd + k) % n, r.wr, r.count - k, Nat.mod_lt _ r.pos, Nat.le_trans (Nat.sub_le _ _) r.count_le, by
    rw [r.wr_eq, Nat.mod_add_mod]; congr 1; omega⟩

/-- **Taking entries off drops them.** -/
theorem toList_skip (r : RingQueue α n) {k : Nat} (h : k ≤ r.count) : (r.skip k h).toList = r.toList.drop k := by
  refine List.ext_getElem (by simp [skip]) (fun i h1 h2 => ?_)
  simp only [toList, skip, List.getElem_map, List.getElem_range, List.getElem_drop, cell]
  have hi : ((r.rd + k) % n + i) % n = (r.rd + (k + i)) % n := by
    rw [Nat.mod_add_mod]; congr 1; omega
  simp only [hi]

/-- The cells in use, oldest first: one segment, or two when they go round the end. -/
theorem cells_eq (r : RingQueue α n) (h : 0 < r.count) : (List.range r.count).map (fun i => (r.rd + i) % n) =
    if r.rd < r.wr then List.range' r.rd (r.wr - r.rd)
    else List.range' r.rd (n - r.rd) ++ List.range' 0 r.wr := by
  have hr := r.rd_lt
  have hc := r.count_le
  have hw := r.wr_eq
  rcases Nat.lt_or_ge (r.rd + r.count) n with hl | hl
  · rw [Nat.mod_eq_of_lt hl] at hw
    rw [if_pos (by omega)]
    refine List.ext_getElem (by simp; omega) (fun i h1 h2 => ?_)
    simp only [List.length_map, List.length_range] at h1
    simp only [List.getElem_map, List.getElem_range, List.getElem_range', Nat.one_mul]
    exact Nat.mod_eq_of_lt (by omega)
  · rw [Nat.mod_eq_sub_mod hl, Nat.mod_eq_of_lt (by omega)] at hw
    rw [if_neg (by omega)]
    refine List.ext_getElem (by simp; omega) (fun i h1 h2 => ?_)
    simp only [List.length_map, List.length_range] at h1
    rw [List.getElem_append]
    simp only [List.getElem_map, List.getElem_range, List.getElem_range', List.length_range', Nat.one_mul]
    split
    · exact Nat.mod_eq_of_lt (by omega)
    · rw [Nat.mod_eq_sub_mod (by omega), Nat.mod_eq_of_lt (by omega)]; omega

end RingQueue
