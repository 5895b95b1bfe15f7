import Mathlib.Tactic.Common
import Tiovx.Lib.ByteMemory
/-!
# Lib.TwelveBits — numbers of 12 bits in bytes

Two numbers are in three bytes, the lower bits first.
-/
namespace TwelveBits

/-- The first number: a byte, and above it the low half of the next one. -/
def first (b0 b1 : UInt8) : Nat := b0.toNat + 256 * (b1.toNat % 16)

/-- The second number: the high half of a byte, and above it the next one. -/
def second (b1 b2 : UInt8) : Nat := b1.toNat / 16 + 16 * b2.toNat

/-- Number `s` of those from `row` on. -/
def sample (m : ByteMem) (row : Int) (s : Nat) : Nat :=
  let a := row + 3 * (s / 2 : Nat)
  if s % 2 = 0 then first (m a) (m (a + 1)) else second (m (a + 1)) (m (a + 2))

/-- A number is told by the two bytes it is in. -/
theorem sample_congr {m n : ByteMem} {row : Int} {s : Nat}
    (h : ∀ j : Nat, 3 * (s / 2) + s % 2 ≤ j → j ≤ 3 * (s / 2) + s % 2 + 1 → m (row + j) = n (row + j)) :
    sample m row s = sample n row s := by
  have hb : ∀ (j : Nat) (a : Int), 3 * (s / 2) + s % 2 ≤ j → j ≤ 3 * (s / 2) + s % 2 + 1 → a = row + j → m a = n a := by
    rintro j a h1 h2 rfl
    exact h j h1 h2
  unfold sample
  rcases Nat.mod_two_eq_zero_or_one s with h2 | h2
  · simp only [h2, if_true]
    rw [hb (3 * (s / 2)) _ (by omega) (by omega) (by omega), hb (3 * (s / 2) + 1) _ (by omega) (by omega) (by omega)]
  · simp only [h2, Nat.one_ne_zero, if_false]
    rw [hb (3 * (s / 2) + 1) _ (by omega) (by omega) (by omega), hb (3 * (s / 2) + 2) _ (by omega) (by omega) (by omega)]

section Halves

variable {b : UInt8} {lo hi : Nat}

/-- A byte of two halves. -/
theorem toNat_halves (hlo : lo < 16) (h : b.toNat = hi <<< 4 ||| lo) : b.toNat = 16 * hi + lo := by
  rw [h, ← Nat.shiftLeft_add_eq_or_of_lt (i := 4) hlo hi, Nat.shiftLeft_eq]
  omega

end Halves

/-- Numbers that are less than 2 ^ 12 are in the bytes they are split into. -/
theorem first_second {b0 b1 b2 : UInt8} {x y : Nat} (hx : x < 4096) (h0 : b0.toNat = x % 256)
    (h1 : b1.toNat = 16 * (y % 16) + x / 256) (h2 : b2.toNat = y / 16) : first b0 b1 = x ∧ second b1 b2 = y := by
  simp only [first, second, h0, h1, h2]
  omega

/-- The low 12 bits. -/
theorem toNat_and_mask (v : UInt16) : (v &&& 0x0FFF).toNat = v.toNat % 4096 := by
  rw [UInt16.toNat_and]
  exact Nat.and_two_pow_sub_one_eq_mod v.toNat 12

/-- The bytes two numbers are split into by shifts. -/
theorem first_second_split {v0 v1 : UInt16} (h0 : v0.toNat < 4096) (h1 : v1.toNat < 4096) :
    first (v0 &&& 0xFF).toUInt8 ((v0 >>> 8).toUInt8 ||| ((v1 &&& 0x0F) <<< 4).toUInt8) = v0.toNat ∧
      second ((v0 >>> 8).toUInt8 ||| ((v1 &&& 0x0F) <<< 4).toUInt8) (v1 >>> 4).toUInt8 = v1.toNat := by
  have hlow : (v1 &&& 0x0F).toNat = v1.toNat % 16 := by
    rw [UInt16.toNat_and]
    exact Nat.and_two_pow_sub_one_eq_mod v1.toNat 4
  have hhigh : (v0 >>> 8).toNat = v0.toNat / 256 := by
    rw [UInt16.toNat_shiftRight, Nat.shiftRight_eq_div_pow]
    rfl
  have hbyte : (v0 &&& 0xFF).toNat = v0.toNat % 256 := by
    rw [UInt16.toNat_and]
    exact Nat.and_two_pow_sub_one_eq_mod v0.toNat 8
  have hthird : (v1 >>> 4).toNat = v1.toNat / 16 := by
    rw [UInt16.toNat_shiftRight, Nat.shiftRight_eq_div_pow]
    rfl
  have hshift : ((v1 &&& 0x0F) <<< 4).toNat = (v1.toNat % 16) <<< 4 := by
    rw [UInt16.toNat_shiftLeft, hlow]
    refine Nat.mod_eq_of_lt (show (v1.toNat % 16) <<< 4 < 2 ^ 16 from ?_)
    rw [Nat.shiftLeft_eq]
    omega
  have hor : ((v0 >>> 8).toUInt8 ||| ((v1 &&& 0x0F) <<< 4).toUInt8).toNat = (v1.toNat % 16) <<< 4 ||| v0.toNat / 256 := by
    rw [UInt8.toNat_or, UInt16.toNat_toUInt8, UInt16.toNat_toUInt8, hhigh, hshift, Nat.or_comm, Nat.mod_eq_of_lt,
      Nat.mod_eq_of_lt (a := v0.toNat / 256) (by omega)]
    rw [Nat.shiftLeft_eq]
    omega
  refine first_second h0 ?_ (toNat_halves (by omega) hor) ?_
  · rw [UInt16.toNat_toUInt8, hbyte]
    omega
  · rw [UInt16.toNat_toUInt8, hthird]
    omega

end TwelveBits
