import Mathlib.Data.List.Nodup
import Mathlib.Logic.Function.Basic
/-!
# Lib.CountedArray — an array of which a count of entries is used

The first `count` entries of the array are in use.  The array is compact when these are distinct and not empty and all others
are empty.  An entry is removed by moving the last one that is used into its place: what that leaves is compact and has the
other entries, for exactly the arrays that are compact before.
-/

/-- An array of `capacity` entries, each of which may be empty, and how many of them are used. -/
structure CountedArray (α : Type) where
  entry : Nat → Option α
  count : Nat
  capacity : Nat
  fits : count ≤ capacity

namespace CountedArray

variable {α : Type}

/-- `x` is one of the used entries. -/
def Holds (A : CountedArray α) (x : α) : Prop := ∃ i < A.count, A.entry i = some x

/-- The used entries are distinct and not empty, the others are empty. -/
structure Compact (A : CountedArray α) : Prop where
  nonNull : ∀ i < A.count, A.entry i ≠ none
  distinct : ∀ i < A.count, ∀ j < A.count, A.entry i = A.entry j → i = j
  cleared : ∀ i, A.count ≤ i → i < A.capacity → A.entry i = none

/-- The array with an entry written. -/
def write (A : CountedArray α) (i : Nat) (x : Option α) : CountedArray α := { A with entry := Function.update A.entry i x }

/-- The last used entry takes the place of entry `i` and stays where it is. -/
def moveLast (A : CountedArray α) (i : Nat) : CountedArray α :=
  { A with entry := Function.update A.entry i (A.entry (A.count - 1)) }

/-- The array with one entry less in use. -/
def dropLast (A : CountedArray α) : CountedArray α := { A with count := A.count - 1, fits := Nat.le_trans (Nat.sub_le _ _) A.fits }

/-- The array with the entries of a list in use. -/
def ofList (l : List α) (capacity : Nat) (h : l.length ≤ capacity) : CountedArray α where
  entry i := l[i]?
  count := l.length
  capacity := capacity
  fits := h

theorem compact_ofList {l : List α} {capacity : Nat} {h : l.length ≤ capacity} (hl : l.Nodup) :
    (ofList l capacity h).Compact where
  nonNull i (hi : i < l.length) := by
    show l[i]? ≠ none
    rw [List.getElem?_eq_getElem hi]
    exact Option.some_ne_none _
  distinct i (hi : i < l.length) _ _ h := (List.getElem?_inj hi hl).1 h
  cleared _ hi _ := List.getElem?_eq_none hi

section Remove

variable [DecidableEq α]

/-- The first used entry that is `x`. -/
def firstIndex (A : CountedArray α) (x : α) : Option Nat := (List.range A.count).find? (fun i => A.entry i = some x)

/-- The first entry that is `x` is removed. -/
def remove (A : CountedArray α) (x : α) : CountedArray α :=
  match A.firstIndex x with
  | none => A
  | some i => ((A.moveLast i).write (A.count - 1) none).dropLast

variable {A : CountedArray α} {x y : α} {i : Nat}

instance : Decidable (A.Holds x) := inferInstanceAs (Decidable (∃ i < A.count, A.entry i = some x))

theorem firstIndex_eq_none : A.firstIndex x = none ↔ ¬ A.Holds x := by
  simp only [firstIndex, List.find?_eq_none, List.mem_range, decide_eq_true_eq, Holds, not_exists, not_and]

theorem entry_of_firstIndex (h : A.firstIndex x = some i) : i < A.count ∧ A.entry i = some x := by
  unfold firstIndex at h
  exact ⟨List.mem_range.1 (List.mem_of_find?_eq_some h), by simpa using List.find?_some h⟩

theorem remove_of_not_holds (h : ¬ A.Holds x) : A.remove x = A := by
  unfold remove
  rw [firstIndex_eq_none.2 h]

theorem count_remove (h : A.Holds x) : (A.remove x).count + 1 = A.count := by
  obtain ⟨i, hi⟩ := Option.ne_none_iff_exists'.1 (fun hn => firstIndex_eq_none.1 hn h)
  have hlt := (entry_of_firstIndex hi).1
  unfold remove
  rw [hi]
  show A.count - 1 + 1 = A.count
  omega

@[simp] theorem capacity_remove : (A.remove x).capacity = A.capacity := by
  unfold remove
  split <;> rfl

/-- The entries after entry `i` is removed. -/
theorem entry_remove (h : A.firstIndex x = some i) (k : Nat) :
    (A.remove x).entry k =
      if k = A.count - 1 then none else if k = i then A.entry (A.count - 1) else A.entry k := by
  unfold remove
  rw [h]
  show Function.update (Function.update A.entry i (A.entry (A.count - 1))) (A.count - 1) none k = _
  simp only [Function.update_apply]

theorem count_remove_of (h : A.firstIndex x = some i) : (A.remove x).count = A.count - 1 := by
  unfold remove
  rw [h]
  rfl

/-- What is removed from a compact array is the entry, and it stays compact. -/
theorem Compact.remove (hA : A.Compact) :
    (A.remove x).Compact ∧ ∀ y, (A.remove x).Holds y ↔ A.Holds y ∧ y ≠ x := by
  cases hf : A.firstIndex x with
  | none =>
    have hx := firstIndex_eq_none.1 hf
    rw [remove_of_not_holds hx]
    exact ⟨hA, fun y => ⟨fun hy => ⟨hy, fun e => hx (e ▸ hy)⟩, And.left⟩⟩
  | some i =>
    obtain ⟨hi, hx⟩ := entry_of_firstIndex hf
    have hc := count_remove_of hf
    have he := entry_remove hf
    refine ⟨⟨fun k hk => ?_, fun k hk l hl hkl => ?_, fun k hk hcap => ?_⟩, fun y => ⟨?_, ?_⟩⟩
    · rw [he, if_neg (by omega)]
      split
      · exact hA.nonNull _ (by omega)
      · exact hA.nonNull _ (by omega)
    · rw [he k, he l, if_neg (show k ≠ A.count - 1 by omega), if_neg (show l ≠ A.count - 1 by omega)] at hkl
      split at hkl <;> split at hkl
      · omega
      · have := hA.distinct _ (by omega) _ (by omega) hkl
        omega
      · have := hA.distinct _ (by omega) _ (by omega) hkl
        omega
      · exact hA.distinct _ (by omega) _ (by omega) hkl
    · rw [capacity_remove] at hcap
      rw [he]
      split
      · rfl
      · rw [if_neg (by omega)]
        exact hA.cleared k (by omega) hcap
    · rintro ⟨k, hk, hy⟩
      rw [he, if_neg (by omega)] at hy
      split at hy
      · refine ⟨⟨_, by omega, hy⟩, fun e => ?_⟩
        have := hA.distinct _ (by omega) _ hi (hy.trans ((congrArg some e).trans hx.symm))
        omega
      · rename_i hki
        exact ⟨⟨k, by omega, hy⟩, fun e => hki (hA.distinct _ (by omega) _ hi (hy.trans ((congrArg some e).trans hx.symm)))⟩
    · rintro ⟨⟨k, hk, hy⟩, hyx⟩
      have hki : k ≠ i := fun e => hyx (Option.some.inj (hy.symm.trans ((congrArg A.entry e).trans hx)))
      by_cases hlast : k = A.count - 1
      · refine ⟨i, by omega, ?_⟩
        rw [he, if_neg (by omega), if_pos rfl, ← hlast, hy]
      · refine ⟨k, by omega, ?_⟩
        rw [he, if_neg hlast, if_neg hki, hy]

/-- An array is compact after the entry is removed only if it was before. -/
theorem compact_of_remove (hc : (A.remove x).Compact) (hx : ¬ (A.remove x).Holds x) : A.Compact := by
  cases hf : A.firstIndex x with
  | none => rwa [remove_of_not_holds (firstIndex_eq_none.1 hf)] at hc
  | some i =>
    obtain ⟨hi, hxi⟩ := entry_of_firstIndex hf
    have hcount := count_remove_of hf
    have he := entry_remove hf
    -- what is left holds no other `x`, and the last entry is where `x` was
    have hne : ∀ k < A.count - 1, A.entry k = some x → k = i := fun k hk hkx => by
      by_contra hki
      exact hx ⟨k, by omega, by rw [he, if_neg (by omega), if_neg hki, hkx]⟩
    have hlast : i ≠ A.count - 1 → A.entry (A.count - 1) ≠ some x := fun hil h =>
      hx ⟨i, by omega, by rw [he, if_neg hil, if_pos rfl, h]⟩
    have hmoved : i ≠ A.count - 1 → (A.remove x).entry i = A.entry (A.count - 1) := fun hil => by
      rw [he, if_neg hil, if_pos rfl]
    have hkept : ∀ k < A.count - 1, k ≠ i → (A.remove x).entry k = A.entry k := fun k hk hki => by
      rw [he, if_neg (by omega), if_neg hki]
    -- each entry but `x` is in a place of what is left
    have hplace : ∀ k < A.count, k ≠ i → ∃ l < A.count - 1, (A.remove x).entry l = A.entry k ∧
        l = if k = A.count - 1 then i else k := fun k hk hki => by
      by_cases hkl : k = A.count - 1
      · exact ⟨i, by omega, by rw [hmoved (by omega), hkl], by rw [if_pos hkl]⟩
      · exact ⟨k, by omega, hkept k (by omega) hki, by rw [if_neg hkl]⟩
    have hnot : ∀ k < A.count, k ≠ i → A.entry k ≠ some x := fun k hk hki hkx => by
      obtain ⟨l, hl, hel, -⟩ := hplace k hk hki
      exact hx ⟨l, by omega, hel.trans hkx⟩
    refine ⟨fun k hk => ?_, fun k hk l hl hkl => ?_, fun k hk hcap => ?_⟩
    · by_cases hki : k = i
      · rw [hki, hxi]
        exact Option.some_ne_none x
      · obtain ⟨l, hl, hel, -⟩ := hplace k hk hki
        exact hel ▸ hc.nonNull l (by omega)
    · by_cases hki : k = i
      · by_contra hne
        exact hnot l hl (by omega) (hkl.symm.trans (hki ▸ hxi))
      · have hli : l ≠ i := fun e => hnot k hk hki (hkl.trans (e ▸ hxi))
        obtain ⟨k', hk', hek, hkk⟩ := hplace k hk hki
        obtain ⟨l', hl', hel, hll⟩ := hplace l hl hli
        have := hc.distinct k' (by omega) l' (by omega) (by rw [hek, hel, hkl])
        grind
    · have hcl := hc.cleared k (by omega) (by rwa [capacity_remove])
      rwa [he, if_neg (by omega), if_neg (by omega)] at hcl

/-- **Removing an entry.**  What is left is compact and has all other entries when the array is compact, and only then. -/
theorem remove_iff :
    ((A.remove x).Compact ∧ ∀ y, (A.remove x).Holds y ↔ A.Holds y ∧ y ≠ x) ↔ A.Compact :=
  ⟨fun ⟨hc, hy⟩ => compact_of_remove hc (fun h => ((hy x).1 h).2 rfl), fun hA => hA.remove⟩

end Remove

end CountedArray
