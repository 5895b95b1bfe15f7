import Mathlib.Tactic.Common
import Mathlib.Data.Nat.Basic
/-!
# Lib.ByteRange — ranges of bytes and rows of a buffer

A range is where it starts and how long it is.  Rows of one length at the multiples of a stride that is not shorter are apart,
and the rows before the `n`th are inside the first `n` strides.
-/

/-- `len` bytes from `start` on. -/
structure ByteRange where
  start : Nat
  len : Nat
deriving DecidableEq

namespace ByteRange

def stop (r : ByteRange) : Nat := r.start + r.len

/-- No byte is in both. -/
def Apart (r q : ByteRange) : Prop := r.stop ≤ q.start ∨ q.stop ≤ r.start

/-- The bytes of `r` are among those of `q`. -/
def Inside (r q : ByteRange) : Prop := q.start ≤ r.start ∧ r.stop ≤ q.stop

instance (r q : ByteRange) : Decidable (Apart r q) := inferInstanceAs (Decidable (_ ∨ _))

instance (r q : ByteRange) : Decidable (Inside r q) := inferInstanceAs (Decidable (_ ∧ _))

theorem Apart.symm {r q : ByteRange} (h : Apart r q) : Apart q r := Or.symm h

/-- Ranges inside ranges that are apart are apart. -/
theorem Apart.mono {r q r' q' : ByteRange} (h : Apart r' q') (hr : Inside r r') (hq : Inside q q') : Apart r q := by
  obtain ⟨h1, h2⟩ := hr
  obtain ⟨h3, h4⟩ := hq
  rcases h with h | h
  · exact .inl (by omega)
  · exact .inr (by omega)

/-- Row `i` of a buffer at `base`. -/
def row (base stride len i : Nat) : ByteRange := ⟨base + i * stride, len⟩

theorem row_apart (base : Nat) {stride len i j : Nat} (h : len ≤ stride) (hij : i ≠ j) :
    Apart (row base stride len i) (row base stride len j) := by
  have step : ∀ {a b : Nat}, a < b → a * stride + len ≤ b * stride := by
    intro a b hab
    calc a * stride + len ≤ a * stride + stride := Nat.add_le_add_left h _
      _ = (a + 1) * stride := (Nat.succ_mul a stride).symm
      _ ≤ b * stride := Nat.mul_le_mul_right _ hab
  rcases Nat.lt_or_gt_of_ne hij with hlt | hlt
  · have := step hlt
    exact .inl (by simp only [stop, row]; omega)
  · have := step hlt
    exact .inr (by simp only [stop, row]; omega)

theorem row_inside (base : Nat) {stride len i n : Nat} (h : len ≤ stride) (hi : i < n) :
    Inside (row base stride len i) ⟨base, n * stride⟩ := by
  have : i * stride + len ≤ n * stride := by
    calc i * stride + len ≤ i * stride + stride := Nat.add_le_add_left h _
      _ = (i + 1) * stride := (Nat.succ_mul i stride).symm
      _ ≤ n * stride := Nat.mul_le_mul_right _ hi
  exact ⟨by simp only [row]; omega, by simp only [stop, row]; omega⟩

/-- The least multiple of `a` that is not below `x`. -/
def alignUp (a x : Nat) : Nat := (x + (a - 1)) / a * a

theorem le_alignUp {a : Nat} (ha : 0 < a) (x : Nat) : x ≤ alignUp a x := by
  have h1 := Nat.div_add_mod (x + (a - 1)) a
  have h2 := Nat.mod_lt (x + (a - 1)) ha
  have h3 : (x + (a - 1)) / a * a = a * ((x + (a - 1)) / a) := Nat.mul_comm ..
  simp only [alignUp]
  omega

end ByteRange
