import Mathlib.Data.List.Forall2
import Mathlib.Tactic.Linarith
/-!
# Lib.StridedLayout — elements at strides

The elements of an array of several dimensions, each of `e` bytes, are at sums of multiples of the strides.  They take all bytes
from the first to an end and no others where each axis goes on at most where the axes before it end.
-/

/-- A dimension: how many elements it has, and how far apart they are. -/
structure Axis where
  count : Nat
  stride : Int
deriving DecidableEq

namespace Axis

def place : List Axis → List Nat → Int
  | a :: l, j :: v => a.stride * j + place l v
  | _, _ => 0

/-- An index of an element. -/
abbrev IsIndex (v : List Nat) (l : List Axis) : Prop := List.Forall₂ (fun j a => j < a.count) v l

/-- A byte of an element. -/
def Covers (l : List Axis) (e : Nat) (x : Int) : Prop := ∃ v, IsIndex v l ∧ place l v ≤ x ∧ x < place l v + e

/-- The end of the bytes, where no axis leaves a gap. -/
def spanEnd : Nat → List Axis → Option Nat
  | e, [] => some e
  | e, a :: l =>
    if a.count ≤ 1 then spanEnd e l
    else if 0 ≤ a.stride ∧ a.stride ≤ e then spanEnd (e + a.stride.toNat * (a.count - 1)) l else none

/-- Each axis but the last goes on where those before it end, as far as the ends are below `B`; an end that is too large for
strides may have a negative one. -/
def PackedBelow (B : Nat) : Nat → List Axis → Prop
  | e, a :: b :: l => (e < B → a.stride = e ∨ a.stride < 0) ∧ PackedBelow B (e * a.count) (b :: l)
  | _, _ => True

variable {l : List Axis} {a : Axis} {e n : Nat} {x : Int}

theorem spanEnd_cons : spanEnd e (a :: l) = if a.count ≤ 1 then spanEnd e l
    else if 0 ≤ a.stride ∧ a.stride ≤ e then spanEnd (e + a.stride.toNat * (a.count - 1)) l else none := rfl

theorem covers_nil : Covers [] e x ↔ 0 ≤ x ∧ x < e := by
  constructor
  · rintro ⟨v, hv, h1, h2⟩
    cases hv
    unfold place at h1 h2
    omega
  · rintro ⟨h1, h2⟩
    refine ⟨[], .nil, ?_, ?_⟩ <;> unfold place <;> omega

theorem covers_cons : Covers (a :: l) e x ↔ ∃ j < a.count, Covers l e (x - a.stride * j) := by
  constructor
  · rintro ⟨v, hv, h1, h2⟩
    cases hv with
    | @cons j _ v _ hj hv =>
      unfold place at h1 h2
      refine ⟨j, hj, v, hv, ?_, ?_⟩ <;> omega
  · rintro ⟨j, hj, v, hv, h1, h2⟩
    refine ⟨j :: v, .cons hj hv, ?_, ?_⟩ <;> unfold place <;> omega

/-- The first element. -/
theorem covers_zero (hl : ∀ a ∈ l, 0 < a.count) (h0 : 0 ≤ x) (h : x < e) : Covers l e x := by
  induction l with
  | nil => exact covers_nil.2 ⟨h0, h⟩
  | cons a l ih =>
    apply covers_cons.2
    refine ⟨0, hl a List.mem_cons_self, ?_⟩
    rw [Nat.cast_zero, mul_zero, sub_zero]
    exact ih (fun b hb => hl b (List.mem_cons_of_mem a hb))

/-- Steps of at most `e` bytes leave no gap. -/
theorem exists_step {s c : Nat} {y : Int} (hc : 0 < c) (hs : s ≤ e) :
    (∃ j < c, (s * j : Int) ≤ y ∧ y < s * j + e) ↔ 0 ≤ y ∧ y < (e + s * (c - 1) : Nat) := by
  constructor
  · rintro ⟨j, hj, h1, h2⟩
    have hle : s * j ≤ s * (c - 1) := Nat.mul_le_mul_left s (by omega)
    have hcast : (s : Int) * j = (s * j : Nat) := by push_cast; rfl
    rw [hcast] at h1 h2
    omega
  · rintro ⟨h1, h2⟩
    induction c with
    | zero => omega
    | succ c ih =>
      by_cases hlast : (s * c : Int) ≤ y
      · refine ⟨c, Nat.lt_succ_self c, hlast, ?_⟩
        simp only [Nat.add_sub_cancel] at h2
        push_cast at h2
        omega
      · have hc0 : 0 < c := by
          rcases Nat.eq_zero_or_pos c with rfl | h
          · rw [Nat.cast_zero, mul_zero] at hlast
            omega
          · exact h
        have hstep : s * c = s * (c - 1) + s := by
          rw [← Nat.mul_succ]
          congr 1
          omega
        have hcast : (s : Int) * c = (s * c : Nat) := by push_cast; rfl
        rw [hcast] at hlast
        obtain ⟨j, hj, h3, h4⟩ := ih hc0 (by omega)
        exact ⟨j, Nat.lt_succ_of_lt hj, h3, h4⟩

/-- An axis that leaves no gap makes the elements longer. -/
theorem covers_cons_of_le (hc : 0 < a.count) (h0 : 0 ≤ a.stride) (hs : a.stride ≤ e) :
    Covers (a :: l) e x ↔ Covers l (e + a.stride.toNat * (a.count - 1)) x := by
  have hcast : (a.stride.toNat : Int) = a.stride := Int.toNat_of_nonneg h0
  rw [covers_cons]
  constructor
  · rintro ⟨j, hj, v, hv, h1, h2⟩
    have hstep := (exists_step (e := e) (s := a.stride.toNat) (y := x - place l v) hc (by omega)).1
      ⟨j, hj, by rw [hcast]; omega, by rw [hcast]; omega⟩
    exact ⟨v, hv, by omega, by omega⟩
  · rintro ⟨v, hv, h1, h2⟩
    obtain ⟨j, hj, h3, h4⟩ :=
      (exists_step (e := e) (s := a.stride.toNat) (y := x - place l v) hc (by omega)).2 ⟨by omega, by omega⟩
    rw [hcast] at h3 h4
    exact ⟨j, hj, v, hv, by omega, by omega⟩

theorem covers_cons_of_one (hc : a.count = 1) : Covers (a :: l) e x ↔ Covers l e x := by
  rw [covers_cons, hc]
  constructor
  · rintro ⟨j, hj, h⟩
    obtain rfl : j = 0 := by omega
    rwa [Nat.cast_zero, mul_zero, sub_zero] at h
  · intro h
    refine ⟨0, Nat.one_pos, ?_⟩
    rwa [Nat.cast_zero, mul_zero, sub_zero]

/-- Without gaps the bytes are those from the first to the end. -/
theorem covers_of_spanEnd : ∀ {l : List Axis} {e : Nat}, (∀ a ∈ l, 0 < a.count) → spanEnd e l = some n →
    ∀ x, Covers l e x ↔ 0 ≤ x ∧ x < n
  | [], e, _, h, x => by
    cases h
    exact covers_nil
  | a :: l, e, hl, h, x => by
    have hc := hl a List.mem_cons_self
    have hl' : ∀ b ∈ l, 0 < b.count := fun b hb => hl b (List.mem_cons_of_mem a hb)
    rw [spanEnd_cons] at h
    split at h
    · rename_i h1
      rw [covers_cons_of_one (by omega)]
      exact covers_of_spanEnd hl' h x
    · split at h
      · rename_i hs
        rw [covers_cons_of_le hc hs.1 hs.2]
        exact covers_of_spanEnd hl' h x
      · cases h

theorem le_of_spanEnd : ∀ {l : List Axis} {e : Nat}, spanEnd e l = some n → e ≤ n
  | [], _, h => by
    cases h
    exact Nat.le_refl _
  | a :: l, e, h => by
    rw [spanEnd_cons] at h
    split at h
    · exact le_of_spanEnd h
    · split at h
      · exact (Nat.le_add_right e _).trans (le_of_spanEnd h)
      · cases h

/-- Packed axes that cover the bytes up to an end below `B` leave no gap. -/
theorem spanEnd_of_covers {B : Nat} (hn : n < B) : ∀ {l : List Axis} {e : Nat}, 0 < e → (∀ a ∈ l, 0 < a.count) →
    PackedBelow B e l → (∀ x, Covers l e x ↔ 0 ≤ x ∧ x < n) → spanEnd e l = some n
  | [], e, _, _, _, h => by
    have h1 := (covers_nil (e := e) (x := n)).symm.trans (h n)
    have h2 := (covers_nil (e := e) (x := e)).symm.trans (h e)
    unfold spanEnd
    congr 1
    omega
  | a :: l, e, he0, hl, hp, h => by
    have hc := hl a List.mem_cons_self
    have hl' : ∀ b ∈ l, 0 < b.count := fun b hb => hl b (List.mem_cons_of_mem a hb)
    have hp' : PackedBelow B (e * a.count) l := by
      cases l with
      | nil => exact trivial
      | cons b l => exact hp.2
    rw [spanEnd_cons]
    split
    · rename_i h1
      have hone : a.count = 1 := by omega
      rw [hone, mul_one] at hp'
      exact spanEnd_of_covers hn he0 hl' hp' (fun x => (covers_cons_of_one hone).symm.trans (h x))
    · rename_i h1
      -- the second element of the axis
      have hsecond : ∀ y : Int, 0 ≤ y → y < e → 0 ≤ a.stride + y ∧ a.stride + y < n := by
        intro y h0 hy
        apply (h _).1
        apply covers_cons.2
        refine ⟨1, by omega, ?_⟩
        have : a.stride + y - a.stride * ((1 : Nat) : Int) = y := by
          rw [Nat.cast_one, mul_one]
          omega
        rw [this]
        exact covers_zero hl' h0 hy
      have hs0 : 0 ≤ a.stride ∧ a.stride < n := by
        have := hsecond 0 (by omega) (by omega)
        omega
      have hse : a.stride ≤ e ∧ PackedBelow B (e + a.stride.toNat * (a.count - 1)) l := by
        cases l with
        | nil =>
          refine ⟨?_, trivial⟩
          by_contra hgt
          -- the byte where the first element ends
          obtain ⟨j, -, hj⟩ := covers_cons.1 ((h e).2 (by omega))
          have hj := covers_nil.1 hj
          rcases Nat.eq_zero_or_pos j with rfl | hpos
          · rw [Nat.cast_zero, mul_zero] at hj
            omega
          · have := Int.mul_le_mul_of_nonneg_left (Int.ofNat_le.2 hpos) hs0.1
            rw [Nat.cast_one, mul_one] at this
            omega
        | cons b l =>
          have he : e < B := by
            have := (h (e - 1)).1 (covers_zero hl (by omega) (by omega))
            omega
          have heq : a.stride = e := (hp.1 he).resolve_right (by omega)
          refine ⟨by omega, ?_⟩
          have hend : e + a.stride.toNat * (a.count - 1) = e * a.count := by
            rw [heq, Int.toNat_natCast, Nat.mul_sub_one]
            have := Nat.le_mul_of_pos_right e hc
            omega
          rw [hend]
          exact hp'
      rw [if_pos ⟨hs0.1, hse.1⟩]
      exact spanEnd_of_covers hn (by omega) hl' hse.2 (fun x => (covers_cons_of_le hc hs0.1 hse.1).symm.trans (h x))

end Axis
