import Mathlib.Tactic
/-!
# Lib.HolderCounts — counts that cover their holders

Each object of a finite set `I` holds some counts, told by a list, and others are owed to holders outside.  `Covers` says that no
count is below the number of its holders, and `Accounts` that none is above it.  What one object holds may change together with
what is owed and with the counts, as long as the counts follow (`Covers.update`, `Covers.insert`, `Covers.owe`, and so for
`Accounts`).  Where the holders lead in no circle, what is counted is reached from what is owed (`reached_of_holders`).
-/
namespace HolderCounts

variable {ι κ : Type} [DecidableEq κ]

/-- No count is below what is owed of it and what the objects of `I` hold of it. -/
def Covers (I : Finset ι) (hold : ι → List κ) (owed count : κ → Nat) : Prop :=
  ∀ k, owed k + ∑ x ∈ I, (hold x).count k ≤ count k

namespace Covers

variable {I : Finset ι} {hold hold' : ι → List κ} {owed owed' count count' : κ → Nat}

theorem owed_le (h : Covers I hold owed count) (k : κ) : owed k ≤ count k := le_trans (Nat.le_add_right _ _) (h k)

/-- What an object holds is counted. -/
theorem pos (h : Covers I hold owed count) {x : ι} (hx : x ∈ I) {k : κ} (hk : k ∈ hold x) : 0 < count k := by
  have hone := List.count_pos_iff.2 hk
  have hle := Finset.single_le_sum (f := fun y => (hold y).count k) (fun _ _ => Nat.zero_le _) hx
  have := h k
  omega

/-- What one object holds changes, and no count changes by less. -/
theorem update [DecidableEq ι] (h : Covers I hold owed count) {x : ι} (hx : x ∈ I) (hother : ∀ y, y ≠ x → hold' y = hold y)
    (hk : ∀ k, owed' k + (hold' x).count k + count k ≤ owed k + (hold x).count k + count' k) : Covers I hold' owed' count' := by
  intro k
  have hbefore := h k
  have hchange := hk k
  have hsame : ∑ y ∈ I.erase x, (hold' y).count k = ∑ y ∈ I.erase x, (hold y).count k := by
    apply Finset.sum_congr rfl
    intro y hy
    rw [hother y (Finset.ne_of_mem_erase hy)]
  rw [← Finset.add_sum_erase I (fun y => (hold y).count k) hx] at hbefore
  rw [← Finset.add_sum_erase I (fun y => (hold' y).count k) hx, hsame]
  omega

/-- Only the counts change, and what is owed. -/
theorem owe (h : Covers I hold owed count) (hk : ∀ k, owed' k + count k ≤ owed k + count' k) : Covers I hold owed' count' := by
  intro k
  have hbefore := h k
  have hchange := hk k
  omega

/-- One more object. -/
theorem insert [DecidableEq ι] (h : Covers I hold owed count) {x : ι} (hx : x ∉ I) (hother : ∀ y ∈ I, hold' y = hold y)
    (hk : ∀ k, owed' k + (hold' x).count k + count k ≤ owed k + count' k) : Covers (Insert.insert x I) hold' owed' count' := by
  intro k
  have hbefore := h k
  have hchange := hk k
  have hsame : ∑ y ∈ I, (hold' y).count k = ∑ y ∈ I, (hold y).count k := by
    apply Finset.sum_congr rfl
    intro y hy
    rw [hother y hy]
  rw [Finset.sum_insert hx, hsame]
  omega

end Covers

/-- No count is above what is owed of it and what the objects of `I` hold of it. -/
def Accounts (I : Finset ι) (hold : ι → List κ) (owed count : κ → Nat) : Prop :=
  ∀ k, count k ≤ owed k + ∑ x ∈ I, (hold x).count k

namespace Accounts

variable {I : Finset ι} {hold hold' : ι → List κ} {owed owed' count count' : κ → Nat}

/-- What is counted is owed, or an object holds it. -/
theorem holder (h : Accounts I hold owed count) {k : κ} (hk : 0 < count k) : 0 < owed k ∨ ∃ x ∈ I, k ∈ hold x := by
  by_contra hnone
  push Not at hnone
  have hzero : ∑ x ∈ I, (hold x).count k = 0 :=
    Finset.sum_eq_zero fun x hx => List.count_eq_zero.2 (hnone.2 x hx)
  have := h k
  omega

/-- What one object holds changes, and no count changes by more. -/
theorem update [DecidableEq ι] (h : Accounts I hold owed count) {x : ι} (hx : x ∈ I) (hother : ∀ y, y ≠ x → hold' y = hold y)
    (hk : ∀ k, owed k + (hold x).count k + count' k ≤ owed' k + (hold' x).count k + count k) : Accounts I hold' owed' count' := by
  intro k
  have hbefore := h k
  have hchange := hk k
  have hsame : ∑ y ∈ I.erase x, (hold' y).count k = ∑ y ∈ I.erase x, (hold y).count k :=
    Finset.sum_congr rfl fun y hy => by rw [hother y (Finset.ne_of_mem_erase hy)]
  rw [← Finset.add_sum_erase I (fun y => (hold y).count k) hx] at hbefore
  rw [← Finset.add_sum_erase I (fun y => (hold' y).count k) hx, hsame]
  omega

/-- Only the counts change, and what is owed. -/
theorem owe (h : Accounts I hold owed count) (hk : ∀ k, owed k + count' k ≤ owed' k + count k) :
    Accounts I hold owed' count' := by
  intro k
  have hbefore := h k
  have hchange := hk k
  omega

/-- One more object. -/
theorem insert [DecidableEq ι] (h : Accounts I hold owed count) {x : ι} (hx : x ∉ I) (hother : ∀ y ∈ I, hold' y = hold y)
    (hk : ∀ k, owed k + count' k ≤ owed' k + (hold' x).count k + count k) :
    Accounts (Insert.insert x I) hold' owed' count' := by
  intro k
  have hbefore := h k
  have hchange := hk k
  have hsame : ∑ y ∈ I, (hold' y).count k = ∑ y ∈ I, (hold y).count k :=
    Finset.sum_congr rfl fun y hy => by rw [hother y hy]
  rw [Finset.sum_insert hx, hsame]
  omega

end Accounts

section Paths

open Relation

variable {R R' : ι → ι → Prop} {r x y : ι}

/-- A path with new edges, all from `r` and none to what leads to `r`, has none of them or leads through `r`. -/
theorem path_of_new (h : ∀ x y, R' x y → R x y ∨ x = r ∧ ¬ ReflTransGen R y r) (hxy : TransGen R' x y) :
    TransGen R x y ∨ ReflTransGen R x r ∧ ∃ z, ¬ ReflTransGen R z r ∧ ReflTransGen R z y := by
  induction hxy with
  | single hxy =>
    rcases h _ _ hxy with hR | ⟨rfl, hz⟩
    · exact .inl (.single hR)
    · exact .inr ⟨.refl, _, hz, .refl⟩
  | tail _ hyz ih =>
    rcases h _ _ hyz with hR | ⟨rfl, hz⟩
    · rcases ih with hpath | ⟨hr, z, hz, hzy⟩
      · exact .inl (hpath.tail hR)
      · exact .inr ⟨hr, z, hz, hzy.tail hR⟩
    · rcases ih with hpath | ⟨hr, -⟩
      · exact .inr ⟨hpath.to_reflTransGen, _, hz, .refl⟩
      · exact .inr ⟨hr, _, hz, .refl⟩

/-- New edges from `r` to what does not lead to `r` close no circle. -/
theorem acyclic_of_new (hR : ∀ x, ¬ TransGen R x x) (h : ∀ x y, R' x y → R x y ∨ x = r ∧ ¬ ReflTransGen R y r) (x : ι) :
    ¬ TransGen R' x x := by
  intro hx
  rcases path_of_new h hx with hpath | ⟨hr, z, hz, hzx⟩
  · exact hR x hpath
  · exact hz (hzx.trans hr)

/-- **What is counted is reached from what is owed**: where each object that counts is owed or held by one that counts, and the
holders, of which there are finitely many, lead in no circle. -/
theorem reached_of_holders {I : Finset ι} {owed : ι → Prop} (hR : ∀ x, ¬ TransGen R x x)
    (h : ∀ x ∈ I, owed x ∨ ∃ y ∈ I, R y x) (hx : x ∈ I) : ∃ y, owed y ∧ ReflTransGen R y x := by
  classical
  -- by induction on how many objects lead to `x`
  induction hn : (I.filter fun y => TransGen R y x).card using Nat.strong_induction_on generalizing x with
  | _ n ih =>
    rcases h x hx with hx | ⟨y, hy, hyx⟩
    · exact ⟨x, hx, .refl⟩
    · have hlt : (I.filter fun z => TransGen R z y).card < n := by
        rw [← hn]
        refine Finset.card_lt_card ⟨fun z hz => ?_, fun hsub => ?_⟩
        · rw [Finset.mem_filter] at hz ⊢
          exact ⟨hz.1, hz.2.tail hyx⟩
        · have := hsub (Finset.mem_filter.2 ⟨hy, .single hyx⟩)
          exact hR y (Finset.mem_filter.1 this).2
      obtain ⟨z, hz, hzy⟩ := ih _ hlt hy rfl
      exact ⟨z, hz, hzy.tail hyx⟩

end Paths

end HolderCounts
