import Tiovx.VerifyStages
/-!
# LiveNodes — the nodes a verification comes across

The lists of a node name other nodes by their descriptors.  While the lists of the nodes of a graph name node objects that
still exist, a verification comes across no others: the edges it makes join nodes of the graph, a node taken out hands over
edges it had, and the sort takes up nodes it finds in the lists.  None of this changes the kernel of a node.
-/
namespace Tiovx

/-- The lists of the nodes in `A` name nodes in `A`. -/
def Links.Within (L : Links) (A : List Nat) : Prop :=
  ∀ n ∈ A, (∀ m ∈ L.outNodes n, m ∈ A) ∧ ∀ m ∈ L.inNodes n, m ∈ A

instance (L : Links) (A : List Nat) : Decidable (L.Within A) := inferInstanceAs (Decidable (∀ n ∈ A, _ ∧ _))

/-- **No list names a released node**, of a node of the graph or one reached from there. -/
structure GraphState.Live (s : GraphState) : Prop where
  nodes : ∀ n ∈ s.nodes, n ∈ s.known
  links : s.links.Within s.known

instance (s : GraphState) : Decidable s.Live :=
  decidable_of_iff ((∀ n ∈ s.nodes, n ∈ s.known) ∧ s.links.Within s.known) ⟨fun h => ⟨h.1, h.2⟩, fun h => ⟨h.1, h.2⟩⟩

section Links

variable {L L' : Links} {A l : List Nat} {n m k : Nat}

theorem Links.Within.setOut (h : L.Within A) (hl : ∀ m ∈ l, m ∈ A) :
    { L with outNodes := Function.update L.outNodes n l }.Within A := by
  intro k hk
  refine ⟨?_, (h k hk).2⟩
  simp only [Function.update_apply]
  split
  · exact hl
  · exact (h k hk).1

theorem Links.Within.setIn (h : L.Within A) (hl : ∀ m ∈ l, m ∈ A) :
    { L with inNodes := Function.update L.inNodes n l }.Within A := by
  intro k hk
  refine ⟨(h k hk).1, ?_⟩
  simp only [Function.update_apply]
  split
  · exact hl
  · exact (h k hk).2

theorem mem_of_mem_snoc (hl : ∀ m ∈ l, m ∈ A) (hm : m ∈ A) : ∀ x ∈ l ++ [m], x ∈ A := by
  intro x hx
  rcases List.mem_append.1 hx with hx | hx
  · exact hl x hx
  · rwa [List.mem_singleton.1 hx]

theorem Links.Within.addEdge (h : L.Within A) (hn : n ∈ A) (hm : m ∈ A) (he : addEdge L n m = .ok L') : L'.Within A := by
  obtain ⟨L₁, h₁, h₂⟩ := FoldExcept.bind_eq_ok.1 he
  have hL₁ : L₁.Within A := by
    unfold ownNodeAddOutNode at h₁
    split at h₁
    · cases h₁
      exact h
    · split at h₁
      · cases h₁
        exact h.setOut (mem_of_mem_snoc (h n hn).1 hm)
      · cases h₁
  unfold ownNodeAddInNode at h₂
  split at h₂
  · cases h₂
    exact hL₁
  · split at h₂
    · cases h₂
      exact hL₁.setIn (mem_of_mem_snoc (hL₁ m hm).2 hn)
    · cases h₂

theorem mem_of_mem_replace {x : Nat} (h : x ∈ l.replace n m) : x ∈ l ∨ x = m := by
  by_cases hn : n ∈ l
  · obtain ⟨p, q, rfl, hp⟩ := List.eq_append_cons_of_mem hn
    rw [List.replace_append_right hp, List.replace_cons_self, List.mem_append, List.mem_cons] at h
    rcases h with h | h | h
    · exact .inl (List.mem_append_left _ h)
    · exact .inr h
    · exact .inl (List.mem_append_right _ (List.mem_cons_of_mem _ h))
  · rw [List.replace_of_not_mem hn] at h
    exact .inl h

theorem Links.Within.replaceInNode (h : L.Within A) (hk : k ∈ A) (hm : m ∈ A) :
    (ownNodeReplaceInNode L k n m).Within A := by
  refine h.setIn (fun x hx => ?_)
  unfold replaceNode at hx
  split at hx
  · exact (h k hk).2 x (List.mem_of_mem_erase hx)
  · rcases mem_of_mem_replace hx with hx | rfl
    · exact (h k hk).2 x hx
    · exact hm

theorem Links.Within.replaceInNodes (h : L.Within A) (hm : m ∈ A) (hl : ∀ k ∈ l, k ∈ A) :
    (l.foldl (fun L k => ownNodeReplaceInNode L k n m) L).Within A := by
  induction l generalizing L with
  | nil => exact h
  | cons k l ih =>
    exact ih (h.replaceInNode (hl k List.mem_cons_self) hm) (fun k hk => hl k (List.mem_cons_of_mem _ hk))

theorem Links.Within.insertBidi (h : L.Within A) (hn : n ∈ A) (hm : m ∈ A) (he : insertBidi L n m = .ok L') :
    L'.Within A := by
  have hnil : ∀ x ∈ ([] : List Nat), x ∈ A := fun x hx => nomatch hx
  exact (((h.replaceInNodes hm (h n hn).1).setOut hnil).setIn hnil).addEdge hn hm he

theorem mem_of_mem_removeEntry {x : Nat} (h : x ∈ removeEntry n l) : x ∈ l := by
  unfold removeEntry at h
  split at h
  · cases h
  · rename_i k hk
    rcases mem_of_mem_replace (List.dropLast_subset _ h) with hx | rfl
    · exact hx
    · exact List.mem_of_getLast? hk

theorem Links.Within.spliceIn (h : L.Within A) (hn : n ∈ A) (hk : k ∈ A) (he : spliceInNodes n L k = .ok L') :
    L'.Within A := by
  unfold spliceInNodes at he
  refine FoldExcept.keep (I := fun L => L.Within A)
    (h.setIn (fun x hx => (h k hk).2 x (mem_of_mem_removeEntry hx))) (fun m hm L L' hL hp => ?_) he
  unfold pushInNode at hp
  split at hp
  · cases hp
    exact hL.setIn (mem_of_mem_snoc (hL k hk).2 ((h n hn).2 m hm))
  · cases hp

theorem Links.Within.spliceOut (h : L.Within A) (hn : n ∈ A) (hk : k ∈ A) (he : spliceOutNodes n L k = .ok L') :
    L'.Within A := by
  unfold spliceOutNodes at he
  refine FoldExcept.keep (I := fun L => L.Within A)
    (h.setOut (fun x hx => (h k hk).1 x (mem_of_mem_removeEntry hx))) (fun m hm L L' hL hp => ?_) he
  unfold pushOutNode at hp
  split at hp
  · cases hp
    exact hL.setOut (mem_of_mem_snoc (hL k hk).1 ((h n hn).1 m hm))
  · cases hp

theorem Links.Within.splice (h : L.Within A) (hn : n ∈ A) (he : spliceNode n L = .ok L') : L'.Within A := by
  obtain ⟨L₁, h₁, h₂⟩ := FoldExcept.bind_eq_ok.1 he
  have hL₁ := FoldExcept.keep (I := fun L => L.Within A) h
    (fun k hk _ _ hL hs => hL.spliceIn hn ((h n hn).1 k hk) hs) h₁
  exact FoldExcept.keep (I := fun L => L.Within A) hL₁
    (fun k hk _ _ hL hs => hL.spliceOut hn ((hL₁ n hn).2 k hk) hs) h₂

end Links

section Edges

variable {G : GraphNodes} {A : List Nat}

theorem node_of_mem_slots {a : Slot} (h : a ∈ G.slots) : a.node ∈ G.nodes := by
  obtain ⟨n, hn, ha⟩ := List.mem_flatMap.1 h
  rwa [(mem_slotsFrom ha).1]

theorem Links.Within.compareSlot {a b : Slot} {x x' : Links × Attached} (h : x.1.Within A) (ha : a.node ∈ A)
    (hb : b.node ∈ A) (he : compareSlot G a x b = .ok x') : x'.1.Within A := by
  rcases compareSlot_ok he with ⟨-, rfl⟩ | ⟨-, -, -, hcase⟩
  · exact h
  · rcases hcase with ⟨-, -, hadd, -⟩ | ⟨-, -, hsame, -⟩ | ⟨-, hins, -⟩ | ⟨-, hsame, -⟩
    · exact h.addEdge ha hb hadd
    · rwa [hsame]
    · exact h.insertBidi ha hb hins
    · rwa [hsame]

/-- The edges that are made join nodes of the graph. -/
theorem Links.Within.calcInAndOutNodes {L L' : Links} (h : L.Within A) (hA : ∀ n ∈ G.nodes, n ∈ A)
    (he : ownGraphCalcInAndOutNodes G L = .ok L') : L'.Within A := by
  refine FoldExcept.keep (I := fun L => L.Within A) h (fun a ha L L' hL hs => ?_) (calcInAndOutNodes_ok he)
  rcases calcSlot_ok hs with ⟨-, rfl⟩ | ⟨-, x, hx, rfl⟩
  · exact hL
  · exact FoldExcept.keep (I := fun x => x.1.Within A) hL
      (fun b hb _ _ hx hc => hx.compareSlot (hA _ (node_of_mem_slots ha)) (hA _ (node_of_mem_slots hb)) hc) hx

end Edges

namespace GraphState

/-- The node objects of a graph, and the kernels of nodes, are kept. -/
structure SameObjects (s t : GraphState) : Prop where
  known : t.known = s.known
  kernel : ∀ n, (t.node n).kernel = (s.node n).kernel

theorem SameObjects.trans {s t u : GraphState} (h : s.SameObjects t) (h' : t.SameObjects u) : s.SameObjects u :=
  ⟨h'.known.trans h.known, fun n => (h'.kernel n).trans (h.kernel n)⟩

section Removal

variable {s t : GraphState} {n old new : Nat}

theorem kernel_rebind (N : VxNode) : (rebind old new N).kernel = N.kernel := rfl

theorem live_removeNode (hs : s.Live) (hn : n ∈ s.known) (h : ownCopyMoveRemoveNode s n old new = .ok t) :
    t.Live ∧ s.SameObjects t := by
  obtain ⟨u, hu, ht⟩ := FoldExcept.bind_eq_ok.1 h
  cases hL : spliceNode n s.links with
  | error L =>
    rw [hL] at hu
    cases hu
  | ok L =>
    rw [hL] at hu
    cases hu
    cases ht
    refine ⟨⟨fun m hm => hs.nodes m (mem_of_mem_removeEntry hm), hs.links.splice hn hL⟩, rfl, fun m => ?_⟩
    simp only
    split
    · exact kernel_rebind _
    · rfl

theorem live_reassign (i r : Nat) (d : Dir) (hs : s.Live) :
    (ownReassignGraphParameter s n i r d).Live ∧ s.SameObjects (ownReassignGraphParameter s n i r d) :=
  ⟨⟨hs.nodes, hs.links⟩, rfl, fun _ => rfl⟩

theorem live_removalPass {removable : GraphState → Nat → Nat → Nat → Option Removal}
    {reassign : GraphState → Removal → GraphState} (hrem : ∀ s n r r' R, removable s n r r' = some R → R.node = n)
    (hre : ∀ s R, s.Live → (reassign s R).Live ∧ s.SameObjects (reassign s R)) (k : Nat) (hs : s.Live)
    (h : removalPass removable reassign k s = .ok t) : t.Live ∧ s.SameObjects t := by
  induction k generalizing s with
  | zero =>
    cases h
    exact ⟨hs, rfl, fun _ => rfl⟩
  | succ k ih =>
    unfold removalPass at h
    split at h
    · cases h
      exact ⟨hs, rfl, fun _ => rfl⟩
    · rename_i R hR
      obtain ⟨n, hn, hfound⟩ := List.exists_of_findSome?_eq_some hR
      have hnode : R.node = n := by
        split at hfound
        · exact hrem _ _ _ _ _ hfound
        · cases hfound
      have hknown : R.node ∈ s.known := hs.nodes _ (hnode ▸ (List.mem_filter.1 hn).1)
      obtain ⟨u, hu, ht⟩ := FoldExcept.bind_eq_ok.1 h
      obtain ⟨hu, hsu⟩ := live_removeNode hs hknown hu
      obtain ⟨hv, huv⟩ := hre u R hu
      obtain ⟨ht, hvt⟩ := ih hv ht
      exact ⟨ht, (hsu.trans huv).trans hvt⟩

variable {copies : Nat → Nat → Bool}

theorem node_removableOutput (s : GraphState) (n r r' : Nat) (R : Removal) (h : removableOutput copies s n r r' = some R) :
    R.node = n := by
  unfold removableOutput at h
  split at h
  · cases h
    rfl
  · cases h

theorem node_removableInput (s : GraphState) (n r r' : Nat) (R : Removal) (h : removableInput copies s n r r' = some R) :
    R.node = n := by
  unfold removableInput at h
  split at h
  · cases h
    rfl
  · cases h

theorem node_removableBoth (s : GraphState) (n r r' : Nat) (R : Removal) (h : removableBoth copies s n r r' = some R) :
    R.node = n := by
  unfold removableBoth at h
  split at h
  · cases h
    rfl
  · cases h

theorem live_processCopyMoveNodes (hs : s.Live) (h : ownGraphProcessCopyMoveNodes copies s = .ok t) :
    t.Live ∧ s.SameObjects t := by
  unfold ownGraphProcessCopyMoveNodes at h
  split at h
  · obtain ⟨u, hu, h⟩ := FoldExcept.bind_eq_ok.1 h
    obtain ⟨v, hv, h⟩ := FoldExcept.bind_eq_ok.1 h
    obtain ⟨hu, hsu⟩ := live_removalPass node_removableOutput (fun s R => live_reassign 1 R.new .output) _ hs hu
    obtain ⟨hv, huv⟩ := live_removalPass node_removableInput (fun s R => live_reassign 0 R.new .input) _ hu hv
    obtain ⟨ht, hvt⟩ := live_removalPass node_removableBoth (fun s _ hs => ⟨hs, rfl, fun _ => rfl⟩) _ hv h
    exact ⟨ht, (hsu.trans huv).trans hvt⟩
  · cases h

end Removal

/-- **The edges made before the sort** name no released node. -/
theorem live_prepare {o : VerifyOutcome} {s t : GraphState} (hs : s.Live) (h : prepare o s = .ok t) :
    t.Live ∧ s.SameObjects t := by
  obtain ⟨u, hu, h⟩ := FoldExcept.bind_eq_ok.1 h
  cases hL : ownGraphCalcInAndOutNodes s.toGraphNodes s.links with
  | error L =>
    rw [hL] at hu
    cases hu
  | ok L =>
    rw [hL] at hu
    cases hu
    have hlive : { s with links := L }.Live := ⟨hs.nodes, hs.links.calcInAndOutNodes hs.nodes hL⟩
    obtain ⟨ht, hst⟩ := live_processCopyMoveNodes hlive h
    exact ⟨ht, hst.known, hst.kernel⟩

section Sorting

variable {A : List Nat} {i : Nat} {y : SortContext × GraphState} {s : GraphState}

/-- A sort of graph `s` has met nodes in `A` only, and has changed nothing but depths and counters. -/
structure SortsWithin (A : List Nat) (s : GraphState) (i : Nat) (y : SortContext × GraphState) : Prop where
  stack : ∀ j < y.1.stackTop, y.1.stack j ∈ A
  sortedNodes : ∀ j < i, y.1.sortedNodes j ∈ A
  graph : ∃ c d, y.2 = { s with incounter := c, nodeDepth := d }

theorem SortsWithin.count (h : SortsWithin A s i y) (f : Nat → Nat) :
    SortsWithin A s i (y.1, { y.2 with incounter := f }) := by
  obtain ⟨c, d, hg⟩ := h.graph
  exact ⟨h.stack, h.sortedNodes, f, d, by rw [hg]⟩

theorem SortsWithin.push (h : SortsWithin A s i y) {n : Nat} (hn : n ∈ A) :
    SortsWithin A s i (ownGraphSortStackPush y.1 n, y.2) := by
  unfold ownGraphSortStackPush
  split
  · refine ⟨fun j hj => ?_, h.sortedNodes, h.graph⟩
    simp only [Function.update_apply]
    split
    · exact hn
    · rename_i hne
      exact h.stack j (Nat.lt_of_le_of_ne (Nat.le_of_lt_succ hj) hne)
  · exact h

theorem SortsWithin.countInNodes (h : SortsWithin A s i y) {n : Nat} (hn : n ∈ A) :
    SortsWithin A s i (countInNodes y n) := by
  unfold Tiovx.countInNodes
  simp only
  split
  · exact (h.push hn).count _
  · exact h.count _

theorem SortsWithin.countDown (h : SortsWithin A s i y) {m : Nat} (hm : m ∈ A) :
    SortsWithin A s i (countDown y m) := by
  unfold Tiovx.countDown
  simp only
  generalize (if y.2.incounter m = 0 then 65535 else y.2.incounter m - 1) = c
  split
  · exact (h.push hm).count _
  · exact h.count _

theorem SortsWithin.deepen (h : SortsWithin A s i y) (n : Nat) (l : List Nat) :
    SortsWithin A s i (y.1, l.foldl (deepen n) y.2) := by
  induction l generalizing y with
  | nil => exact h
  | cons m l ih =>
    refine ih (y := (y.1, Tiovx.deepen n y.2 m)) ⟨h.stack, h.sortedNodes, ?_⟩
    obtain ⟨c, d, hg⟩ := h.graph
    unfold Tiovx.deepen
    split
    · exact ⟨c, _, by rw [hg]⟩
    · exact ⟨c, d, hg⟩

theorem SortsWithin.loop (hs : s.links.Within A) (k : Nat) (h : SortsWithin A s i y) :
    SortsWithin A s (sortLoop k i y).1 (sortLoop k i y).2 := by
  induction k generalizing i y with
  | zero => exact h
  | succ k ih =>
    unfold sortLoop
    split
    · exact h
    · rename_i n x hp
      unfold ownGraphSortStackPop at hp
      split at hp
      · rename_i hc
        cases hp
        have hlt : y.1.stackTop - 1 < y.1.stackTop := Nat.sub_lt hc.1 Nat.one_pos
        have hn : y.1.stack (y.1.stackTop - 1) ∈ A := h.stack _ hlt
        have hplace : SortsWithin A s (i + 1) ({ y.1 with
            stackTop := y.1.stackTop - 1
            sortedNodes := Function.update y.1.sortedNodes i (y.1.stack (y.1.stackTop - 1)) }, y.2) := by
          refine ⟨fun j hj => h.stack j (Nat.lt_trans hj hlt), fun j hj => ?_, h.graph⟩
          simp only [Function.update_apply]
          split
          · exact hn
          · rename_i hne
            exact h.sortedNodes j (Nat.lt_of_le_of_ne (Nat.le_of_lt_succ hj) hne)
        have hdeep := hplace.deepen (y.1.stack (y.1.stackTop - 1)) (y.2.links.inNodes (y.1.stack (y.1.stackTop - 1)))
        refine ih ?_
        have hout : ∀ m ∈ ((y.2.links.inNodes (y.1.stack (y.1.stackTop - 1))).foldl
            (Tiovx.deepen (y.1.stack (y.1.stackTop - 1))) y.2).links.outNodes (y.1.stack (y.1.stackTop - 1)), m ∈ A := by
          obtain ⟨c, d, hg⟩ := hdeep.graph
          simp only at hg
          rw [hg]
          exact (hs _ hn).1
        exact List.foldlRecOn _ _ hdeep (fun z hz m hm => hz.countDown (hout m hm))
      · cases hp

/-- **The sort takes up nodes in the lists only.** -/
theorem live_sort (x : SortContext) (hs : s.Live) :
    (ownGraphTopologicalSort x s).2.1.Live ∧ s.SameObjects (ownGraphTopologicalSort x s).2.1 := by
  unfold ownGraphTopologicalSort
  split
  · have hstart : SortsWithin s.known s 0 (ownGraphSortStackReset x s.nodes.length, s) :=
      ⟨fun j hj => absurd hj (Nat.not_lt_zero j), fun j hj => absurd hj (Nat.not_lt_zero j), s.incounter, s.nodeDepth, rfl⟩
    have hcount := List.foldlRecOn s.nodes countInNodes hstart (fun z hz n hn => hz.countInNodes (hs.nodes n hn))
    have hloop := hcount.loop hs.links graphMaxNodes
    obtain ⟨c, d, hg⟩ := hloop.graph
    simp only
    split
    · simp only [hg]
      refine ⟨⟨fun n hn => ?_, hs.links⟩, rfl, fun _ => rfl⟩
      obtain ⟨j, hj, rfl⟩ := List.mem_map.1 hn
      exact hloop.sortedNodes j (List.mem_range.1 hj)
    · simp only [hg]
      exact ⟨⟨hs.nodes, hs.links⟩, rfl, fun _ => rfl⟩
  · exact ⟨hs, rfl, fun _ => rfl⟩

end Sorting

end GraphState

end Tiovx
