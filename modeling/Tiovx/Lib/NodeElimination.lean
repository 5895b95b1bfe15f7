import Mathlib.Logic.Relation
/-!
# Lib.NodeElimination — a node taken out of a graph

A node is taken out when each node before it gets an edge to each node after it.  What the other nodes reach is as before.
-/
namespace NodeElimination

open Relation

variable {α : Type} {r r' : α → α → Prop} {n u v : α}

/-- `r'` is `r` without `n`: what came before `n` comes before what came after it. -/
def Eliminates (n : α) (r r' : α → α → Prop) : Prop := ∀ u v, r' u v ↔ u ≠ n ∧ v ≠ n ∧ (r u v ∨ r u n ∧ r n v)

theorem Eliminates.le (h : Eliminates n r r') (hr : TransGen r' u v) : u ≠ n ∧ v ≠ n ∧ TransGen r u v := by
  induction hr with
  | single he =>
    obtain ⟨hu, hv, he | ⟨h₁, h₂⟩⟩ := (h _ _).1 he
    · exact ⟨hu, hv, .single he⟩
    · exact ⟨hu, hv, .tail (.single h₁) h₂⟩
  | tail _ he ih =>
    obtain ⟨-, hv, he | ⟨h₁, h₂⟩⟩ := (h _ _).1 he
    · exact ⟨ih.1, hv, .tail ih.2.2 he⟩
    · exact ⟨ih.1, hv, .tail (.tail ih.2.2 h₁) h₂⟩

/-- A path is kept up to its last node, or up to the one before where it ends in `n`. -/
theorem Eliminates.path (h : Eliminates n r r') (hu : u ≠ n) (hr : TransGen r u v) :
    (v ≠ n → TransGen r' u v) ∧ (v = n → ∃ w, w ≠ n ∧ r w n ∧ ReflTransGen r' u w) := by
  induction hr with
  | @single v he =>
    refine ⟨fun hv => .single ((h _ _).2 ⟨hu, hv, .inl he⟩), ?_⟩
    rintro rfl
    exact ⟨u, hu, he, .refl⟩
  | @tail w v _ he ih =>
    by_cases hw : w = n
    · obtain ⟨k, hk, hkn, hpath⟩ := ih.2 hw
      rw [hw] at he
      refine ⟨fun hv => ?_, fun _ => ⟨k, hk, hkn, hpath⟩⟩
      exact TransGen.tail' hpath ((h _ _).2 ⟨hk, hv, .inr ⟨hkn, he⟩⟩)
    · refine ⟨fun hv => .tail (ih.1 hw) ((h _ _).2 ⟨hw, hv, .inl he⟩), ?_⟩
      rintro rfl
      exact ⟨w, hw, he, (ih.1 hw).to_reflTransGen⟩

/-- **The other nodes reach what they reached.** -/
theorem Eliminates.reach (h : Eliminates n r r') : TransGen r' u v ↔ u ≠ n ∧ v ≠ n ∧ TransGen r u v :=
  ⟨h.le, fun ⟨hu, hv, hr⟩ => (h.path hu hr).1 hv⟩

end NodeElimination
