import Mathlib.Tactic
import Tiovx.LiveNodes
import Tiovx.Lib.NodeElimination
/-!
# SplicedEdges — the order of the nodes when copy and move nodes are taken out (`vx_copy_swap.c`)

A node that is taken out hands its in-nodes to its out-nodes and these to them, and no list is searched before: an edge may
come to be in a list twice, and is then twice in the other one.  The nodes that stay come after the same nodes as before.
-/
namespace Tiovx

open Relation NodeElimination

/-- The lists of the nodes `A` name nodes in `A`, and an edge is as often in one list as in the other. -/
structure Links.Balanced (L : Links) (A : List Nat) : Prop where
  in_mem : ∀ n ∈ A, ∀ m ∈ L.inNodes n, m ∈ A
  out_mem : ∀ n ∈ A, ∀ m ∈ L.outNodes n, m ∈ A
  count_eq : ∀ m ∈ A, ∀ n ∈ A, (L.outNodes m).count n = (L.inNodes n).count m

/-- The edges lead up in `rank`. -/
def Links.Ranked (L : Links) (A : List Nat) (rank : Nat → Nat) : Prop := ∀ n ∈ A, ∀ m ∈ L.inNodes n, rank m < rank n

/-- An edge between nodes of `A`. -/
def Links.EdgeIn (L : Links) (A : List Nat) (m n : Nat) : Prop := n ∈ A ∧ m ∈ L.inNodes n

/-- The lists `f` when each node of `l` has got the list of `n` in place of `n`. -/
def handOver (n : Nat) (f : Nat → List Nat) (l : List Nat) : Nat → List Nat :=
  l.foldl (fun f k => Function.update f k (removeEntry n (f k) ++ f n)) f

section Lists

variable {L L' : Links} {A l : List Nat} {n m k x : Nat} {f : Nat → List Nat}

/-- An entry that is there is taken out once. -/
theorem removeEntry_perm (h : n ∈ l) : (removeEntry n l).Perm (l.erase n) := by
  obtain ⟨p, q, rfl, hp⟩ := List.eq_append_cons_of_mem h
  unfold removeEntry
  rw [List.erase_append_right _ hp, List.erase_cons_head]
  cases hq : q.getLast? with
  | none =>
    rw [List.getLast?_eq_none_iff] at hq
    subst hq
    rw [List.getLast?_concat]
    simp only
    rw [List.replace_append_right hp, List.replace_cons_self]
    simp
  | some z =>
    obtain ⟨q', rfl⟩ := List.getLast?_eq_some_iff.1 hq
    have hlast : (p ++ n :: (q' ++ [z])).getLast? = some z := by
      rw [← List.cons_append, ← List.append_assoc, List.getLast?_concat]
    rw [hlast]
    simp only
    rw [List.replace_append_right hp, List.replace_cons_self, ← List.cons_append, ← List.append_assoc,
      List.dropLast_concat]
    refine List.Perm.append_left p ?_
    exact (List.perm_append_singleton z q').symm

theorem count_removeEntry (h : n ∈ l) : (removeEntry n l).count x + (if x = n then 1 else 0) = l.count x := by
  rw [(removeEntry_perm h).count_eq]
  by_cases hx : x = n
  · subst hx
    have := List.count_pos_iff.2 h
    rw [List.count_erase_self, if_pos rfl]
    omega
  · rw [List.count_erase_of_ne hx, if_neg hx, Nat.add_zero]

theorem pushInNodes_ok (h : l.foldlM (pushInNode k) L = .ok L') :
    L' = { L with inNodes := Function.update L.inNodes k (L.inNodes k ++ l) } := by
  refine FoldExcept.inv (I := fun l L' => L' = { L with inNodes := Function.update L.inNodes k (L.inNodes k ++ l) })
    ?_ ?_ h
  · simp
  · intro done m rest u v _ hu hv
    unfold pushInNode at hv
    split at hv
    · cases hv
      simp [hu]
    · cases hv

theorem pushOutNodes_ok (h : l.foldlM (pushOutNode k) L = .ok L') :
    L' = { L with outNodes := Function.update L.outNodes k (L.outNodes k ++ l) } := by
  refine FoldExcept.inv (I := fun l L' => L' = { L with outNodes := Function.update L.outNodes k (L.outNodes k ++ l) })
    ?_ ?_ h
  · simp
  · intro done m rest u v _ hu hv
    unfold pushOutNode at hv
    split at hv
    · cases hv
      simp [hu]
    · cases hv

theorem spliceInNodes_ok (h : spliceInNodes n L k = .ok L') :
    L' = { L with inNodes := Function.update L.inNodes k (removeEntry n (L.inNodes k) ++ L.inNodes n) } := by
  rw [pushInNodes_ok h]
  simp

theorem spliceOutNodes_ok (h : spliceOutNodes n L k = .ok L') :
    L' = { L with outNodes := Function.update L.outNodes k (removeEntry n (L.outNodes k) ++ L.outNodes n) } := by
  rw [pushOutNodes_ok h]
  simp

theorem handOver_self (h : n ∉ l) : handOver n f l n = f n := by
  unfold handOver
  induction l generalizing f with
  | nil => rfl
  | cons k l ih =>
    rw [List.mem_cons, not_or] at h
    rw [List.foldl_cons, ih h.2, Function.update_of_ne h.1]

/-- **What a node hands over**: for each time it is in the list of a node, that node gets its list once. -/
theorem count_handOver (hn : n ∉ l) (h : ∀ k ∈ l, l.count k ≤ (f k).count n) (k m : Nat) :
    (handOver n f l k).count m + (if m = n then l.count k else 0) = (f k).count m + l.count k * (f n).count m := by
  unfold handOver
  induction l generalizing f with
  | nil => simp
  | cons j l ih =>
    rw [List.mem_cons, not_or] at hn
    have hpos : 0 < (f j).count n := Nat.lt_of_lt_of_le (List.count_pos_iff.2 List.mem_cons_self) (h j List.mem_cons_self)
    have hmem := List.count_pos_iff.1 hpos
    have hfn : Function.update f j (removeEntry n (f j) ++ f n) n = f n := Function.update_of_ne hn.1 _ _
    have hbound : ∀ k ∈ l, l.count k ≤ (Function.update f j (removeEntry n (f j) ++ f n) k).count n := by
      intro k hk
      have hk' := h k (List.mem_cons_of_mem j hk)
      rw [List.count_cons] at hk'
      by_cases hkj : k = j
      · subst hkj
        have := count_removeEntry (x := n) hmem
        rw [if_pos rfl] at this
        rw [Function.update_self, List.count_append]
        simp only [beq_self_eq_true, if_true] at hk'
        omega
      · rw [Function.update_of_ne hkj]
        omega
    have hrun := ih hn.2 hbound
    rw [List.foldl_cons]
    rw [hfn] at hrun
    by_cases hkj : k = j
    · subst hkj
      have hone := count_removeEntry (x := m) hmem
      rw [Function.update_self, List.count_append] at hrun
      rw [List.count_cons_self, Nat.succ_mul]
      by_cases hm : m = n
      · subst hm
        simp only [if_true] at hone hrun ⊢
        omega
      · simp only [if_neg hm] at hone hrun ⊢
        omega
    · rw [Function.update_of_ne hkj] at hrun
      rw [List.count_cons_of_ne (Ne.symm hkj)]
      exact hrun

theorem spliceNode_ok (hn : n ∉ L.outNodes n) (h : spliceNode n L = .ok L') :
    L'.inNodes = handOver n L.inNodes (L.outNodes n) ∧ L'.outNodes = handOver n L.outNodes (L.inNodes n) := by
  obtain ⟨L₁, h₁, h₂⟩ := FoldExcept.bind_eq_ok.1 h
  have hin : L₁ = { L with inNodes := handOver n L.inNodes (L.outNodes n) } := by
    refine FoldExcept.inv (I := fun l L₁ => L₁ = { L with inNodes := handOver n L.inNodes l }) rfl ?_ h₁
    intro done k rest u v _ hu hv
    rw [spliceInNodes_ok hv, hu]
    simp [handOver]
  have hout : L' = { L₁ with outNodes := handOver n L₁.outNodes (L₁.inNodes n) } := by
    refine FoldExcept.inv (I := fun l L' => L' = { L₁ with outNodes := handOver n L₁.outNodes l }) rfl ?_ h₂
    intro done k rest u v _ hu hv
    rw [spliceOutNodes_ok hv, hu]
    simp [handOver]
  rw [hout, hin]
  refine ⟨rfl, ?_⟩
  show handOver n L.outNodes (handOver n L.inNodes (L.outNodes n) n) = _
  rw [handOver_self hn]

end Lists

section Splice

variable {L L' : Links} {A : List Nat} {n m k : Nat} {rank : Nat → Nat}

theorem Links.Balanced.mem_iff (h : L.Balanced A) (hm : m ∈ A) (hn : n ∈ A) : n ∈ L.outNodes m ↔ m ∈ L.inNodes n := by
  rw [← List.count_pos_iff, ← List.count_pos_iff, h.count_eq m hm n hn]

theorem Links.Ranked.notMem_in (hr : L.Ranked A rank) (hn : n ∈ A) : n ∉ L.inNodes n :=
  fun h => Nat.lt_irrefl _ (hr n hn n h)

theorem Links.Balanced.notMem_out (h : L.Balanced A) (hr : L.Ranked A rank) (hn : n ∈ A) : n ∉ L.outNodes n :=
  fun ho => hr.notMem_in hn ((h.mem_iff hn hn).1 ho)

/-- **The in-lists after node `n` is taken out.** -/
theorem Links.Balanced.count_in (h : L.Balanced A) (hr : L.Ranked A rank) (hn : n ∈ A) (he : spliceNode n L = .ok L')
    (hk : k ∈ A) (m : Nat) :
    (L'.inNodes k).count m = if m = n then 0 else (L.inNodes k).count m + (L.inNodes k).count n * (L.inNodes n).count m := by
  have hself := h.notMem_out hr hn
  have hcount := count_handOver (f := L.inNodes) hself
    (fun j hj => Nat.le_of_eq (h.count_eq n hn j (h.out_mem n hn j hj))) k m
  rw [← (spliceNode_ok hself he).1, h.count_eq n hn k hk] at hcount
  split
  · rename_i hm
    have hzero : (L.inNodes n).count n = 0 := List.count_eq_zero.2 (hr.notMem_in hn)
    rw [hm, if_pos rfl, hzero] at hcount
    rw [hm]
    omega
  · rename_i hm
    rw [if_neg hm] at hcount
    exact hcount

/-- The out-lists after node `n` is taken out. -/
theorem Links.Balanced.count_out (h : L.Balanced A) (hr : L.Ranked A rank) (hn : n ∈ A) (he : spliceNode n L = .ok L')
    (hk : k ∈ A) (m : Nat) :
    (L'.outNodes k).count m =
      if m = n then 0 else (L.outNodes k).count m + (L.outNodes k).count n * (L.outNodes n).count m := by
  have hcount := count_handOver (f := L.outNodes) (hr.notMem_in hn)
    (fun j hj => Nat.le_of_eq (h.count_eq j (h.in_mem n hn j hj) n hn).symm) k m
  rw [← (spliceNode_ok (h.notMem_out hr hn) he).2, ← h.count_eq k hk n hn] at hcount
  split
  · rename_i hm
    have hzero : (L.outNodes n).count n = 0 := List.count_eq_zero.2 (h.notMem_out hr hn)
    rw [hm, if_pos rfl, hzero] at hcount
    rw [hm]
    omega
  · rename_i hm
    rw [if_neg hm] at hcount
    exact hcount

theorem Links.Balanced.mem_in (h : L.Balanced A) (hr : L.Ranked A rank) (hn : n ∈ A) (he : spliceNode n L = .ok L')
    (hk : k ∈ A) : m ∈ L'.inNodes k ↔ m ≠ n ∧ (m ∈ L.inNodes k ∨ n ∈ L.inNodes k ∧ m ∈ L.inNodes n) := by
  rw [← List.count_pos_iff, h.count_in hr hn he hk]
  split
  · simp [*]
  · rename_i hm
    simp only [ne_eq, hm, not_false_iff, true_and, ← List.count_pos_iff (l := L.inNodes k),
      ← List.count_pos_iff (l := L.inNodes n), Nat.add_pos_iff_pos_or_pos, CanonicallyOrderedAdd.mul_pos]

theorem Links.Balanced.mem_out (h : L.Balanced A) (hr : L.Ranked A rank) (hn : n ∈ A) (he : spliceNode n L = .ok L')
    (hk : k ∈ A) : m ∈ L'.outNodes k ↔ m ≠ n ∧ (m ∈ L.outNodes k ∨ n ∈ L.outNodes k ∧ m ∈ L.outNodes n) := by
  rw [← List.count_pos_iff, h.count_out hr hn he hk]
  split
  · simp [*]
  · rename_i hm
    simp only [ne_eq, hm, not_false_iff, true_and, ← List.count_pos_iff (l := L.outNodes k),
      ← List.count_pos_iff (l := L.outNodes n), Nat.add_pos_iff_pos_or_pos, CanonicallyOrderedAdd.mul_pos]

theorem mem_removeEntry (hA : A.Nodup) (hn : n ∈ A) : m ∈ removeEntry n A ↔ m ∈ A ∧ m ≠ n := by
  rw [(removeEntry_perm hn).mem_iff, hA.mem_erase_iff, and_comm]

theorem nodup_removeEntry (hA : A.Nodup) (hn : n ∈ A) : (removeEntry n A).Nodup :=
  (removeEntry_perm hn).nodup_iff.2 (hA.erase n)

/-- **The lists still agree** when a node was taken out. -/
theorem Links.Balanced.splice (hA : A.Nodup) (h : L.Balanced A) (hr : L.Ranked A rank) (hn : n ∈ A)
    (he : spliceNode n L = .ok L') : L'.Balanced (removeEntry n A) := by
  refine ⟨fun k hk m hm => ?_, fun k hk m hm => ?_, fun m hm k hk => ?_⟩
  · rw [mem_removeEntry hA hn] at hk ⊢
    obtain ⟨hne, hm | ⟨-, hm⟩⟩ := (h.mem_in hr hn he hk.1).1 hm
    · exact ⟨h.in_mem k hk.1 m hm, hne⟩
    · exact ⟨h.in_mem n hn m hm, hne⟩
  · rw [mem_removeEntry hA hn] at hk ⊢
    obtain ⟨hne, hm | ⟨-, hm⟩⟩ := (h.mem_out hr hn he hk.1).1 hm
    · exact ⟨h.out_mem k hk.1 m hm, hne⟩
    · exact ⟨h.out_mem n hn m hm, hne⟩
  · rw [mem_removeEntry hA hn] at hm hk
    rw [h.count_out hr hn he hm.1, h.count_in hr hn he hk.1, if_neg hk.2, if_neg hm.2, h.count_eq m hm.1 k hk.1,
      h.count_eq m hm.1 n hn, h.count_eq n hn k hk.1, Nat.mul_comm]

/-- Taking out a node is the elimination of it from the edges. -/
theorem Links.Balanced.eliminates (hA : A.Nodup) (h : L.Balanced A) (hr : L.Ranked A rank) (hn : n ∈ A)
    (he : spliceNode n L = .ok L') : Eliminates n (L.EdgeIn A) (L'.EdgeIn (removeEntry n A)) := by
  intro m k
  unfold Links.EdgeIn
  rw [mem_removeEntry hA hn]
  constructor
  · rintro ⟨⟨hk, hne⟩, hm⟩
    obtain ⟨hmn, hm | ⟨h₁, h₂⟩⟩ := (h.mem_in hr hn he hk).1 hm
    · exact ⟨hmn, hne, .inl ⟨hk, hm⟩⟩
    · exact ⟨hmn, hne, .inr ⟨⟨hn, h₂⟩, hk, h₁⟩⟩
  · rintro ⟨hmn, hne, ⟨hk, hm⟩ | ⟨⟨-, h₂⟩, hk, h₁⟩⟩
    · exact ⟨⟨hk, hne⟩, (h.mem_in hr hn he hk).2 ⟨hmn, .inl hm⟩⟩
    · exact ⟨⟨hk, hne⟩, (h.mem_in hr hn he hk).2 ⟨hmn, .inr ⟨h₁, h₂⟩⟩⟩

theorem Links.Ranked.splice (hA : A.Nodup) (h : L.Balanced A) (hr : L.Ranked A rank) (hn : n ∈ A)
    (he : spliceNode n L = .ok L') : L'.Ranked (removeEntry n A) rank := by
  intro k hk m hm
  rw [mem_removeEntry hA hn] at hk
  obtain ⟨-, hm | ⟨h₁, h₂⟩⟩ := (h.mem_in hr hn he hk.1).1 hm
  · exact hr k hk.1 m hm
  · exact Nat.lt_trans (hr n hn m h₂) (hr k hk.1 n h₁)

end Splice

namespace GraphState

/-- The lists of a graph agree, and its edges lead up in `rank`. -/
structure Layered (s : GraphState) (rank : Nat → Nat) : Prop where
  nodup : s.nodes.Nodup
  balanced : s.links.Balanced s.nodes
  ranked : s.links.Ranked s.nodes rank

/-- **`t` is `s` without copy and move nodes**: the nodes that are left come after the same nodes as before. -/
structure KeepsOrder (s t : GraphState) : Prop where
  nodes : ∀ n ∈ t.nodes, n ∈ s.nodes
  kept : ∀ n ∈ s.nodes, n ∈ t.nodes ∨ (s.node n).enumeration ≠ .other
  enumeration : ∀ n, (t.node n).enumeration = (s.node n).enumeration
  order : ∀ m ∈ t.nodes, ∀ n ∈ t.nodes, TransGen (t.links.EdgeIn t.nodes) m n ↔ TransGen (s.links.EdgeIn s.nodes) m n

theorem KeepsOrder.refl (s : GraphState) : KeepsOrder s s :=
  ⟨fun _ hn => hn, fun _ hn => .inl hn, fun _ => rfl, fun _ _ _ _ => Iff.rfl⟩

theorem KeepsOrder.trans {s t u : GraphState} (h : KeepsOrder s t) (h' : KeepsOrder t u) : KeepsOrder s u := by
  refine ⟨fun n hn => h.nodes n (h'.nodes n hn), fun n hn => ?_, fun n => (h'.enumeration n).trans (h.enumeration n),
    fun m hm n hn => (h'.order m hm n hn).trans (h.order m (h'.nodes m hm) n (h'.nodes n hn))⟩
  rcases h.kept n hn with ht | he
  · rcases h'.kept n ht with hu | he
    · exact .inl hu
    · exact .inr (h.enumeration n ▸ he)
  · exact .inr he

section Removal

variable {s t : GraphState} {n old new : Nat} {rank : Nat → Nat}

theorem layered_removeNode (hs : s.Layered rank) (hn : n ∈ makeCopyMoveNodeList s)
    (h : ownCopyMoveRemoveNode s n old new = .ok t) : t.Layered rank ∧ KeepsOrder s t := by
  obtain ⟨u, hu, ht⟩ := FoldExcept.bind_eq_ok.1 h
  unfold makeCopyMoveNodeList at hn
  simp only [List.mem_filter, decide_eq_true_eq] at hn
  cases hL : spliceNode n s.links with
  | error L =>
    rw [hL] at hu
    cases hu
  | ok L =>
    rw [hL] at hu
    cases hu
    cases ht
    have helim := hs.balanced.eliminates hs.nodup hs.ranked hn.1 hL
    refine ⟨⟨nodup_removeEntry hs.nodup hn.1, hs.balanced.splice hs.nodup hs.ranked hn.1 hL,
      Links.Ranked.splice hs.nodup hs.balanced hs.ranked hn.1 hL⟩, fun m hm => ?_, fun m hm => ?_, fun m => ?_,
      fun m hm k hk => ?_⟩
    · exact ((mem_removeEntry hs.nodup hn.1).1 hm).1
    · by_cases hmn : m = n
      · exact .inr (hmn ▸ hn.2)
      · exact .inl ((mem_removeEntry hs.nodup hn.1).2 ⟨hm, hmn⟩)
    · simp only
      split <;> rfl
    · have hm' := (mem_removeEntry hs.nodup hn.1).1 hm
      have hk' := (mem_removeEntry hs.nodup hn.1).1 hk
      exact helim.reach.trans ⟨fun hr => hr.2.2, fun hr => ⟨hm'.2, hk'.2, hr⟩⟩

theorem layered_removalPass {removable : GraphState → Nat → Nat → Nat → Option Removal}
    {reassign : GraphState → Removal → GraphState} (hrem : ∀ s n r r' R, removable s n r r' = some R → R.node = n)
    (hre : ∀ s R, s.Layered rank → (reassign s R).Layered rank ∧ KeepsOrder s (reassign s R)) (k : Nat)
    (hs : s.Layered rank) (h : removalPass removable reassign k s = .ok t) : t.Layered rank ∧ KeepsOrder s t := by
  induction k generalizing s with
  | zero =>
    cases h
    exact ⟨hs, .refl _⟩
  | succ k ih =>
    unfold removalPass at h
    split at h
    · cases h
      exact ⟨hs, .refl _⟩
    · rename_i R hR
      obtain ⟨n, hn, hfound⟩ := List.exists_of_findSome?_eq_some hR
      have hnode : R.node = n := by
        split at hfound
        · exact hrem _ _ _ _ _ hfound
        · cases hfound
      obtain ⟨u, hu, ht⟩ := FoldExcept.bind_eq_ok.1 h
      obtain ⟨hu, hsu⟩ := layered_removeNode hs (hnode ▸ hn) hu
      obtain ⟨hv, huv⟩ := hre u R hu
      obtain ⟨ht, hvt⟩ := ih hv ht
      exact ⟨ht, (hsu.trans huv).trans hvt⟩

variable {copies : Nat → Nat → Bool}

theorem layered_reassign (s : GraphState) (n i r : Nat) (d : Dir) (hs : s.Layered rank) :
    (ownReassignGraphParameter s n i r d).Layered rank ∧ KeepsOrder s (ownReassignGraphParameter s n i r d) :=
  ⟨⟨hs.nodup, hs.balanced, hs.ranked⟩, fun _ hn => hn, fun _ hn => .inl hn, fun _ => rfl, fun _ _ _ _ => Iff.rfl⟩

/-- **The removal of copy and move nodes** leaves lists that agree and the other nodes in their order. -/
theorem layered_processCopyMoveNodes (hs : s.Layered rank) (h : ownGraphProcessCopyMoveNodes copies s = .ok t) :
    t.Layered rank ∧ KeepsOrder s t := by
  unfold ownGraphProcessCopyMoveNodes at h
  split at h
  · obtain ⟨u, hu, h⟩ := FoldExcept.bind_eq_ok.1 h
    obtain ⟨v, hv, h⟩ := FoldExcept.bind_eq_ok.1 h
    obtain ⟨hu, hsu⟩ := layered_removalPass node_removableOutput (fun s R => layered_reassign s R.node 1 R.new .output) _ hs hu
    obtain ⟨hv, huv⟩ := layered_removalPass node_removableInput (fun s R => layered_reassign s R.node 0 R.new .input) _ hu hv
    obtain ⟨ht, hvt⟩ := layered_removalPass node_removableBoth (fun s _ hs => ⟨hs, .refl s⟩) _ hv h
    exact ⟨ht, (hsu.trans huv).trans hvt⟩
  · cases h

end Removal

end GraphState

end Tiovx
