import Mathlib.Algebra.BigOperators.Group.List.Basic
import Mathlib.Algebra.Order.Ring.Abs
import Mathlib.Algebra.Order.Ring.Int
import Mathlib.Data.Finset.Card
import Mathlib.Data.Finset.Range
import Mathlib.Tactic.Ring
import Tiovx.Lib.StridedLayout
/-!
# Lib.WrappedLayout — elements at strides, where addresses wrap around

Addresses are counted modulo `B`.  Elements that follow each other along the first axis do not share bytes exactly where no sum of
multiples of the other strides is near zero; they are all below a bound exactly where the lowest and the span of the strides are.
-/
namespace Axis

variable {l : List Axis} {a : Axis} {B e n M : Nat} {b x : Int} {v w : List Nat}

/-! ### The elements in order -/

def size (l : List Axis) : Nat := (l.map Axis.count).prod

/-- The index of the `k`-th element, the first axis being the fastest. -/
def indexAt : List Axis → Nat → List Nat
  | [], _ => []
  | a :: l, k => k % a.count :: indexAt l (k / a.count)

/-- The number of an element. -/
def rank : List Axis → List Nat → Nat
  | a :: l, j :: v => j + a.count * rank l v
  | _, _ => 0

theorem place_cons (a : Axis) (l : List Axis) (j : Nat) (v : List Nat) : place (a :: l) (j :: v) = a.stride * j + place l v := rfl

theorem size_cons : size (a :: l) = a.count * size l := by
  unfold size
  rw [List.map_cons, List.prod_cons]

theorem isIndex_congr {l' : List Axis} (h : l.map Axis.count = l'.map Axis.count) : IsIndex v l ↔ IsIndex v l' := by
  have hmap : ∀ l : List Axis, IsIndex v l ↔ List.Forall₂ (· < ·) v (l.map Axis.count) := fun l =>
    (List.forall₂_map_right_iff).symm
  rw [hmap, hmap, h]

theorem size_congr {l' : List Axis} (h : l.map Axis.count = l'.map Axis.count) : size l = size l' := by
  unfold size
  rw [h]

theorem rank_lt (h : IsIndex v l) : rank l v < size l := by
  induction h with
  | nil => exact Nat.one_pos
  | @cons j a v l hj hv ih =>
    have hstep := Nat.mul_le_mul_left a.count (Nat.succ_le_of_lt ih)
    rw [Nat.mul_succ] at hstep
    rw [size_cons]
    unfold rank
    omega

theorem indexAt_rank (h : IsIndex v l) : indexAt l (rank l v) = v := by
  induction h with
  | nil => rfl
  | @cons j a v l hj hv ih =>
    have hpos : 0 < a.count := by omega
    unfold rank indexAt
    rw [Nat.add_mul_mod_self_left, Nat.mod_eq_of_lt hj, Nat.add_mul_div_left _ _ hpos, Nat.div_eq_of_lt hj, Nat.zero_add, ih]

theorem rank_indexAt {k : Nat} (h : k < size l) : rank l (indexAt l k) = k := by
  induction l generalizing k with
  | nil => exact (Nat.lt_one_iff.1 h).symm
  | cons a l ih =>
    rw [size_cons] at h
    unfold indexAt rank
    rw [ih (Nat.div_lt_of_lt_mul h), Nat.mod_add_div]

theorem isIndex_indexAt (hl : ∀ a ∈ l, 0 < a.count) (k : Nat) : IsIndex (indexAt l k) l := by
  induction l generalizing k with
  | nil => exact .nil
  | cons a l ih =>
    exact .cons (Nat.mod_lt k (hl a List.mem_cons_self)) (ih (fun c hc => hl c (List.mem_cons_of_mem a hc)) _)

theorem place_indexAt_zero (l : List Axis) : place l (indexAt l 0) = 0 := by
  induction l with
  | nil => rfl
  | cons a l ih =>
    unfold indexAt
    rw [place_cons, Nat.zero_mod, Nat.zero_div, ih, Nat.cast_zero, mul_zero, zero_add]

/-! ### Elements that share no bytes -/

/-- The place of a difference of two indices. -/
def shift : List Axis → List Int → Int
  | a :: l, j :: d => a.stride * j + shift l d
  | _, _ => 0

/-- A difference of two indices. -/
abbrev IsShift (d : List Int) (l : List Axis) : Prop := List.Forall₂ (fun j a => |j| < a.count) d l

/-- A byte of one element is none of another. -/
def Separate (B e : Nat) (l : List Axis) : Prop := ∀ v w, IsIndex v l → IsIndex w l → v ≠ w → ∀ j < e, ∀ k < e,
  (place l v + (j : Nat)) % B ≠ (place l w + (k : Nat)) % B

/-- No sum of multiples of the strides, each by less than the count and not all by zero, is less than `n` from zero. -/
def Apart (B n : Nat) (l : List Axis) : Prop := ∀ d, IsShift d l → (∃ j ∈ d, j ≠ 0) →
  n ≤ shift l d % B ∧ shift l d % B + n ≤ B

/-- Two indices differ by their difference. -/
theorem exists_shift (hv : IsIndex v l) (hw : IsIndex w l) :
    ∃ d, IsShift d l ∧ shift l d = place l v - place l w ∧ (v ≠ w → ∃ j ∈ d, j ≠ 0) := by
  induction hv generalizing w with
  | nil =>
    cases hw
    exact ⟨[], .nil, rfl, fun h => absurd rfl h⟩
  | @cons j a v l hj hv ih =>
    cases hw with
    | @cons k _ w _ hk hw =>
      obtain ⟨d, hd, hs, hne⟩ := ih hw
      refine ⟨(j - k : Int) :: d, .cons ?_ hd, ?_, ?_⟩
      · rw [abs_lt]
        omega
      · unfold shift place
        rw [hs]
        ring
      · intro h
        by_cases hjk : j = k
        · subst hjk
          obtain ⟨i, hi, hi0⟩ := hne (fun hvw => h (by rw [hvw]))
          exact ⟨i, List.mem_cons_of_mem _ hi, hi0⟩
        · exact ⟨j - k, List.mem_cons_self, by omega⟩

/-- A difference is one of two indices. -/
theorem exists_indices {d : List Int} (h : IsShift d l) :
    ∃ v w, IsIndex v l ∧ IsIndex w l ∧ shift l d = place l v - place l w ∧ ((∃ j ∈ d, j ≠ 0) → v ≠ w) := by
  induction h with
  | nil => exact ⟨[], [], .nil, .nil, rfl, fun ⟨_, hj, _⟩ => absurd hj List.not_mem_nil⟩
  | @cons j a d l hj hd ih =>
    obtain ⟨v, w, hv, hw, hs, hne⟩ := ih
    rw [abs_lt] at hj
    refine ⟨j.toNat :: v, (-j).toNat :: w, .cons (by omega) hv, .cons (by omega) hw, ?_, ?_⟩
    · have hsplit : j = (j.toNat : Int) - ((-j).toNat : Int) := by omega
      unfold shift place
      rw [hs]
      nth_rewrite 1 [hsplit]
      ring
    · rintro ⟨i, hi, hi0⟩ heq
      obtain ⟨h1, h2⟩ := List.cons.inj heq
      obtain rfl | hi := List.mem_cons.1 hi
      · omega
      · exact hne ⟨i, hi, hi0⟩ h2

/-- A number less than `m` is not the same as a small number modulo `B`, unless this is near to zero. -/
theorem near_of_emod_eq {x y m : Int} (h : x % B = y % B) (h1 : -m < y) (h2 : y < m) (hm : m ≤ B) :
    x % B < m ∨ B < x % B + m := by
  have hB : (0 : Int) < B := by omega
  rw [h]
  rcases lt_or_ge y 0 with hy | hy
  · have hy' : y % B = y + B := by
      rw [← Int.add_emod_right]
      exact Int.emod_eq_of_lt (by omega) (by omega)
    omega
  · have hy' : y % B = y := Int.emod_eq_of_lt hy (by omega)
    omega

theorem byte_lt {c i j : Nat} (hi : i < c) (hj : j < e) : e * i + j < e * c := by
  have := Nat.mul_le_mul_left e (Nat.succ_le_of_lt hi)
  rw [Nat.mul_succ] at this
  omega

/-- A line that begins within another one has a byte of an element of it. -/
theorem not_separate {c r : Nat} (he : 0 < e) (hv : IsIndex v l) (hw : IsIndex w l) (hne : v ≠ w) (hr : r < e * c)
    (h : place l v % B = (place l w + r) % B) : ¬ Separate B e (⟨c, e⟩ :: l) := by
  intro hsep
  have hq : r / e < c := Nat.div_lt_of_lt_mul hr
  have hc : 0 < c := Nat.zero_lt_of_lt hq
  refine hsep (0 :: v) (r / e :: w) (.cons hc hv) (.cons hq hw) ?_ 0 he (r % e) (Nat.mod_lt r he) ?_
  · intro heq
    exact hne (List.cons.inj heq).2
  · have hdiv : (e : Int) * (r / e : Nat) + (r % e : Nat) = r := by exact_mod_cast Nat.div_add_mod r e
    rw [place_cons, place_cons, Nat.cast_zero, mul_zero, zero_add, add_zero, h]
    congr 1
    dsimp only
    omega

/-- Elements in lines share no bytes exactly where the lines are apart. -/
theorem separate_cons_iff {c : Nat} (he : 0 < e) (hc : 0 < c) (hB : e * c ≤ B) :
    Separate B e (⟨c, e⟩ :: l) ↔ Apart B (e * c) l := by
  have hBpos : (0 : Int) < B := by
    have := Nat.mul_pos he hc
    omega
  constructor
  · intro h d hd hne
    obtain ⟨v, w, hv, hw, hs, hvw⟩ := exists_indices hd
    have h0 := Int.emod_nonneg (shift l d) (Int.ne_of_gt hBpos)
    have hlt := Int.emod_lt_of_pos (shift l d) hBpos
    have hmod := Int.emod_add_mul_ediv (shift l d) B
    constructor
    · by_contra hr
      refine not_separate (r := (shift l d % B).toNat) he hv hw (hvw hne) (by omega) ?_ h
      have hplace : place l v = place l w + (shift l d % B).toNat + B * (shift l d / B) := by omega
      rw [hplace, Int.add_mul_emod_self_left]
    · by_contra hr
      refine not_separate (r := (B - shift l d % B).toNat) he hw hv (Ne.symm (hvw hne)) (by omega) ?_ h
      have hplace : place l w + B * (shift l d / B + 1) = place l v + (B - shift l d % B).toNat := by
        rw [mul_add, mul_one]
        omega
      rw [← hplace, Int.add_mul_emod_self_left]
  · intro h v w hv hw hvw j hj k hk heq
    cases hv with
    | @cons i _ v _ hi hv =>
      cases hw with
      | @cons i' _ w _ hi' hw =>
        obtain ⟨d, hd, hs, hne⟩ := exists_shift hv hw
        have hi1 := byte_lt hi hj
        have hi2 := byte_lt hi' hk
        dsimp only at hi1 hi2
        rw [place_cons, place_cons] at heq
        dsimp only at heq
        have hshift : shift l d % B = ((e * i' + k : Nat) - (e * i + j : Nat) : Int) % B := by
          rw [hs]
          apply Int.emod_eq_emod_iff_emod_sub_eq_zero.2
          rw [← Int.emod_eq_emod_iff_emod_sub_eq_zero.1 heq]
          congr 1
          push_cast
          ring
        by_cases hvw' : v = w
        · subst hvw'
          rw [hs, sub_self, Int.zero_emod] at hshift
          have hdvd := Int.dvd_of_emod_eq_zero hshift.symm
          have h0 := Int.eq_zero_of_abs_lt_dvd hdvd (by rw [abs_lt]; omega)
          have hii : e * i' + k = e * i + j := by omega
          have h1 : (e * i + j) / e = i := by rw [Nat.mul_add_div he, Nat.div_eq_of_lt hj, add_zero]
          have h2 : (e * i' + k) / e = i' := by rw [Nat.mul_add_div he, Nat.div_eq_of_lt hk, add_zero]
          apply hvw
          rw [← h1, ← h2, hii]
        · have hap := h d hd (hne hvw')
          have := near_of_emod_eq hshift (m := (e * c : Nat)) (by omega) (by omega) (by omega)
          omega

/-! ### Elements below a bound -/

/-- The lowest place. -/
def lowest : List Axis → Int
  | [] => 0
  | a :: l => min 0 (a.stride * (a.count - 1)) + lowest l

/-- How far the highest place is from the lowest. -/
def span : List Axis → Nat
  | [] => 0
  | a :: l => a.stride.natAbs * (a.count - 1) + span l

theorem lowest_cons : lowest (a :: l) = min 0 (a.stride * (a.count - 1)) + lowest l := rfl

theorem span_cons : span (a :: l) = a.stride.natAbs * (a.count - 1) + span l := rfl

theorem emod_add_eq {r t : Int} (hB : 0 ≤ r % B + t) (h : r % B + t < B) : (r + t) % B = r % B + t := by
  rw [Int.add_emod, ← Int.emod_eq_of_lt hB h, Int.add_emod (r % B) t, Int.emod_emod_of_dvd _ (dvd_refl _)]

/-- Steps that are small beside what is above the bound do not wrap around below it. -/
theorem steps_eq {s : Int} {c : Nat} (hB : 0 < B) (hn : 0 < n) (hs : s.natAbs + M ≤ B)
    (h : ∀ j < c, (b + s * (j : Nat)) % B + n ≤ M) :
    ∀ j < c, (b + s * (j : Nat)) % B = b % B + s * (j : Nat) := by
  intro j hj
  induction j with
  | zero => rw [Nat.cast_zero, mul_zero, add_zero, add_zero]
  | succ j ih =>
    have h1 := h j (by omega)
    have h2 := h (j + 1) hj
    rw [ih (by omega)] at h1
    have hBpos : (0 : Int) < B := by exact_mod_cast hB
    have h3 := Int.emod_nonneg (b + s * (j : Nat)) (Int.ne_of_gt hBpos)
    have h4 := Int.emod_nonneg (b + s * (j + 1 : Nat)) (Int.ne_of_gt hBpos)
    rw [ih (by omega)] at h3
    have hstep : s * ((j + 1 : Nat) : Int) = s * j + s := by push_cast; ring
    -- the two residues differ by the step and a multiple of `B`
    have hdvd : (B : Int) ∣ (b + s * (j + 1 : Nat)) % B - (b % B + s * (j + 1 : Nat)) := by
      have h5 := Int.emod_add_mul_ediv (b + s * (j + 1 : Nat)) B
      have h6 := Int.emod_add_mul_ediv b B
      refine ⟨b / B - (b + s * (j + 1 : Nat)) / B, ?_⟩
      rw [mul_sub]
      omega
    have h0 := Int.eq_zero_of_abs_lt_dvd hdvd (by rw [abs_lt]; omega)
    omega

theorem mul_bounds {s : Int} {c j : Nat} (hj : j < c) : min 0 (s * (c - 1)) ≤ s * (j : Nat) ∧
    s * (j : Nat) ≤ min 0 (s * (c - 1)) + (s.natAbs * (c - 1) : Nat) := by
  have hcast : ((c - 1 : Nat) : Int) = c - 1 := by omega
  push_cast
  rw [hcast]
  rcases le_or_gt 0 s with h0 | h0
  · have h1 := mul_le_mul_of_nonneg_left (show (j : Int) ≤ c - 1 by omega) h0
    have h2 := mul_nonneg h0 (show (0 : Int) ≤ j by omega)
    rw [abs_of_nonneg h0]
    omega
  · have h1 := mul_le_mul_of_nonpos_left (show (j : Int) ≤ c - 1 by omega) h0.le
    have h2 := mul_nonpos_of_nonpos_of_nonneg h0.le (show (0 : Int) ≤ j by omega)
    rw [abs_of_neg h0, neg_mul]
    omega

/-- The places of steps are below a bound where the lowest is, with the span. -/
theorem steps_below {s : Int} {c : Nat} (hB : 0 < B) (hc : 0 < c) (hn : 0 < n) (hs : s.natAbs + M ≤ B) :
    (∀ j < c, (b + s * (j : Nat)) % B + n ≤ M) ↔
      (b + min 0 (s * (c - 1))) % B + (s.natAbs * (c - 1) : Nat) + n ≤ M := by
  have hcast : ((c - 1 : Nat) : Int) = c - 1 := by omega
  have hlast : c - 1 < c := by omega
  constructor
  · intro h
    have heq := steps_eq hB hn hs h (c - 1) hlast
    have h1 := h 0 hc
    have h2 := h (c - 1) hlast
    rw [Nat.cast_zero, mul_zero, add_zero] at h1
    rw [heq] at h2
    rw [hcast] at heq h2
    push_cast
    rw [hcast]
    rcases le_or_gt 0 s with h0 | h0
    · rw [min_eq_left (mul_nonneg h0 (by omega)), add_zero, abs_of_nonneg h0]
      exact h2
    · rw [min_eq_right (mul_nonpos_of_nonpos_of_nonneg h0.le (by omega)), abs_of_neg h0, heq, neg_mul]
      omega
  · intro h j hj
    obtain ⟨h1, h2⟩ := mul_bounds (s := s) hj
    have h3 := Int.emod_nonneg (b + min 0 (s * (c - 1))) (b := B) (by omega)
    have hsum : b + s * (j : Nat) = b + min 0 (s * (c - 1)) + (s * (j : Nat) - min 0 (s * (c - 1))) := by omega
    rw [hsum, emod_add_eq (by omega) (by omega)]
    omega

/-- All elements are below a bound where the lowest is, with the span. -/
theorem below_iff (hB : 0 < B) (hl : ∀ a ∈ l, 0 < a.count ∧ a.stride.natAbs + M ≤ B) (hn : 0 < n) :
    (∀ v, IsIndex v l → (b + place l v) % B + n ≤ M) ↔ (b + lowest l) % B + (span l : Nat) + n ≤ M := by
  induction l generalizing b n with
  | nil =>
    constructor
    · intro h
      have := h [] .nil
      unfold lowest span
      unfold place at this
      omega
    · intro h v hv
      cases hv
      unfold lowest span at h
      unfold place
      omega
  | cons a l ih =>
    obtain ⟨hc, hs⟩ := hl a List.mem_cons_self
    have ih := fun (b : Int) => ih (b := b) (fun c hc => hl c (List.mem_cons_of_mem a hc)) hn
    have hstep := steps_below (b := b + lowest l) (n := span l + n) hB hc (by omega) hs
    have hb : b + lowest (a :: l) = b + lowest l + min 0 (a.stride * (a.count - 1)) := by
      rw [lowest_cons]
      omega
    have hcomm : ∀ j : Nat, b + a.stride * (j : Nat) + lowest l = b + lowest l + a.stride * (j : Nat) := by
      intro j
      omega
    rw [hb, span_cons]
    constructor
    · intro h
      have hall : ∀ j < a.count, (b + lowest l + a.stride * (j : Nat)) % B + (span l + n : Nat) ≤ M := by
        intro j hj
        have := (ih (b + a.stride * (j : Nat))).1 (by
          intro v hv
          have := h (j :: v) (.cons hj hv)
          rw [place_cons] at this
          rwa [add_assoc])
        rw [← hcomm]
        omega
      have := hstep.1 hall
      omega
    · intro h v hv
      have hall := hstep.2 (by omega)
      cases hv with
      | @cons j _ v _ hj hv =>
        have := (ih (b + a.stride * (j : Nat))).2 (by
          have := hall j hj
          rw [hcomm]
          omega) v hv
        rw [place_cons]
        rwa [← add_assoc]

/-! ### Counting -/

/-- The `x`-th byte of the elements in order. -/
def byteAt (B e : Nat) (l : List Axis) (b : Int) (x : Nat) : Nat :=
  ((b + place l (indexAt l (x / e)) + (x % e : Nat)) % B).toNat

theorem emod_byte (hB : 0 < B) (hM : M ≤ B) {p : Int} (h : p % B + e ≤ M) {j : Nat} (hj : j < e) :
    (p + (j : Nat)) % B = p % B + (j : Nat) := by
  have h2 := Int.emod_nonneg p (b := B) (by omega)
  rw [emod_add_eq (by omega) (by omega)]

/-- Elements that share no bytes and are below a bound are not more than fit. -/
theorem size_mul_le (hl : ∀ a ∈ l, 0 < a.count) (hB : 0 < B) (hs : Separate B e l)
    (h : ∀ v, IsIndex v l → (b + place l v) % B + e ≤ M) (hM : M ≤ B) : size l * e ≤ M := by
  rcases Nat.eq_zero_or_pos e with rfl | he
  · exact Nat.zero_le M
  · have hmaps : ∀ x ∈ Finset.range (size l * e), byteAt B e l b x ∈ Finset.range M := by
      intro x _
      have h1 := h _ (isIndex_indexAt hl (x / e))
      have h2 := Int.emod_nonneg (b + place l (indexAt l (x / e))) (b := B) (by omega)
      have h3 := Nat.mod_lt x he
      rw [Finset.mem_range]
      unfold byteAt
      rw [emod_byte hB hM h1 h3]
      omega
    have hinj : Set.InjOn (byteAt B e l b) (Finset.range (size l * e)) := by
      intro x hx y hy hxy
      have hx := Nat.div_lt_of_lt_mul (Nat.mul_comm _ _ ▸ Finset.mem_range.1 hx)
      have hy := Nat.div_lt_of_lt_mul (Nat.mul_comm _ _ ▸ Finset.mem_range.1 hy)
      have hx' := Nat.mod_lt x he
      have hy' := Nat.mod_lt y he
      have heq : (b + place l (indexAt l (x / e)) + (x % e : Nat)) % B =
          (b + place l (indexAt l (y / e)) + (y % e : Nat)) % B := by
        unfold byteAt at hxy
        have h1 := Int.emod_nonneg (b + place l (indexAt l (x / e)) + (x % e : Nat)) (b := B) (by omega)
        have h2 := Int.emod_nonneg (b + place l (indexAt l (y / e)) + (y % e : Nat)) (b := B) (by omega)
        omega
      have hdiv : x / e = y / e := by
        by_contra hne
        refine hs _ _ (isIndex_indexAt hl (x / e)) (isIndex_indexAt hl (y / e)) ?_ _ hx' _ hy' ?_
        · intro hidx
          rw [← rank_indexAt hx, hidx, rank_indexAt hy] at hne
          exact hne rfl
        · rw [add_assoc, add_assoc] at heq
          exact Int.emod_add_cancel_left.1 heq
      have hmod : x % e = y % e := by
        rw [hdiv, emod_byte hB hM (h _ (isIndex_indexAt hl _)) hx', emod_byte hB hM (h _ (isIndex_indexAt hl _)) hy'] at heq
        omega
      rw [← Nat.div_add_mod x e, ← Nat.div_add_mod y e, hdiv, hmod]
    have := Finset.card_le_card_of_injOn _ hmaps hinj
    rwa [Finset.card_range, Finset.card_range] at this

/-! ### Strides that are enough -/

/-- Each stride is at least the bytes of the axes before it, and the bytes of all are at most `B`. -/
def Nested (B : Nat) : Nat → List Axis → Prop
  | n, [] => n ≤ B
  | n, a :: l => n ≤ a.stride ∧ Nested B (a.stride.toNat * a.count) l

theorem nested_nil : Nested B n [] ↔ n ≤ B := Iff.rfl

theorem shift_eq_zero {d : List Int} (h : ¬ ∃ j ∈ d, j ≠ 0) : shift l d = 0 := by
  induction l generalizing d with
  | nil => rfl
  | cons a l ih =>
    cases d with
    | nil => rfl
    | cons j d =>
      have hj : j = 0 := by
        by_contra hj
        exact h ⟨j, List.mem_cons_self, hj⟩
      have hd : ¬ ∃ k ∈ d, k ≠ 0 := fun ⟨k, hk, hk0⟩ => h ⟨k, List.mem_cons_of_mem _ hk, hk0⟩
      unfold shift
      rw [ih hd, hj, mul_zero, add_zero]

theorem Nested.abs_shift (h : Nested B n l) {d : List Int} (hd : IsShift d l) :
    |shift l d| + n ≤ B ∧ ((∃ j ∈ d, j ≠ 0) → n ≤ |shift l d|) := by
  induction hd generalizing n with
  | nil =>
    have : n ≤ B := h
    refine ⟨?_, fun ⟨_, hj, _⟩ => absurd hj List.not_mem_nil⟩
    unfold shift
    rw [abs_zero]
    omega
  | @cons j a d l hj hd ih =>
    obtain ⟨h1, h2⟩ := h
    obtain ⟨h3, h4⟩ := ih h2
    have hs : (0 : Int) ≤ a.stride := by omega
    have htop : ((a.stride.toNat * a.count : Nat) : Int) = a.stride * a.count := by
      push_cast
      rw [Int.toNat_of_nonneg hs]
    rw [htop] at h3 h4
    have hmul : |a.stride * j| ≤ a.stride * a.count - a.stride := by
      rw [abs_mul, abs_of_nonneg hs]
      have := mul_le_mul_of_nonneg_left (show |j| ≤ a.count - 1 by omega) hs
      rwa [mul_sub, mul_one] at this
    unfold shift
    constructor
    · have := abs_add_le (a.stride * j) (shift l d)
      omega
    · intro hne
      by_cases hd0 : ∃ k ∈ d, k ≠ 0
      · have h5 := h4 hd0
        have h6 := abs_sub_abs_le_abs_sub (shift l d) (-(a.stride * j))
        rw [abs_neg, sub_neg_eq_add, add_comm (shift l d)] at h6
        omega
      · obtain ⟨k, hk, hk0⟩ := hne
        obtain rfl | hk := List.mem_cons.1 hk
        · rw [shift_eq_zero hd0, add_zero, abs_mul, abs_of_nonneg hs]
          have := mul_le_mul_of_nonneg_left (show 1 ≤ |k| from Int.one_le_abs hk0) hs
          rw [mul_one] at this
          omega
        · exact absurd ⟨k, hk, hk0⟩ hd0

/-- Nested strides keep lines apart. -/
theorem Nested.apart (hn : 0 < n) (h : Nested B n l) : Apart B n l := by
  intro d hd hne
  obtain ⟨h1, h2⟩ := h.abs_shift hd
  have h2 := h2 hne
  rcases le_or_gt 0 (shift l d) with h0 | h0
  · rw [abs_of_nonneg h0] at h1 h2
    rw [Int.emod_eq_of_lt h0 (by omega)]
    omega
  · rw [abs_of_neg h0] at h1 h2
    have hB : shift l d % B = shift l d + B := by
      rw [← Int.add_emod_right]
      exact Int.emod_eq_of_lt (by omega) (by omega)
    omega

end Axis
