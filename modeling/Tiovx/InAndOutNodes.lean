import Mathlib.Logic.Function.Basic
import Mathlib.Data.List.Basic
import Tiovx.Lib.FoldExcept
import Tiovx.GraphData
/-!
# InAndOutNodes — the edges of a graph (`vx_graph_verify.c`, `vx_node.c`)

`ownGraphCalcInAndOutNodes` compares each output of each node with all parameters of the graph and enters the edges in the
lists of both nodes.  A bidirectional user of an output is put between it and the nodes that were found before: it takes the
place of the output's node in their in-lists, and becomes the only out-node.  A failure leaves the lists as far as they
were written.
-/
namespace Tiovx

/-- `TIVX_NODE_MAX_OUT_NODES`. -/
def nodeMaxOutNodes : Nat := 8

/-- `TIVX_NODE_MAX_IN_NODES`. -/
def nodeMaxInNodes : Nat := 8

/-- `TIVX_KERNEL_MAX_PARAMS`. -/
def kernelMaxParams : Nat := 32

/-- `out_node_id` and `in_node_id` of the first descriptors of the nodes. -/
structure Links where
  outNodes : Nat → List Nat := fun _ => []
  inNodes : Nat → List Nat := fun _ => []

/-- `ownNodeAddOutNode`. -/
def ownNodeAddOutNode (L : Links) (n m : Nat) : Except Links Links :=
  if m ∈ L.outNodes n then .ok L
  else if (L.outNodes n).length < nodeMaxOutNodes then
    .ok { L with outNodes := Function.update L.outNodes n (L.outNodes n ++ [m]) }
  else .error L

/-- `ownNodeAddInNode`. -/
def ownNodeAddInNode (L : Links) (n m : Nat) : Except Links Links :=
  if m ∈ L.inNodes n then .ok L
  else if (L.inNodes n).length < nodeMaxInNodes then
    .ok { L with inNodes := Function.update L.inNodes n (L.inNodes n ++ [m]) }
  else .error L

/-- What `ownNodeReplaceInNode` and `ownNodeReplaceOutNode` do to a list. -/
def replaceNode (old new : Nat) (l : List Nat) : List Nat := if new ∈ l then l.erase old else l.replace old new

/-- `ownNodeReplaceInNode`. -/
def ownNodeReplaceInNode (L : Links) (n old new : Nat) : Links :=
  { L with inNodes := Function.update L.inNodes n (replaceNode old new (L.inNodes n)) }

/-- An edge from `n` to `m`, in both lists. -/
def addEdge (L : Links) (n m : Nat) : Except Links Links := do
  let L ← ownNodeAddOutNode L n m
  ownNodeAddInNode L m n

/-- How often a parameter was found attached to others. -/
structure Attached where
  outputs : Nat := 0
  inputs : Nat := 0
  biputs : Nat := 0

/-- Node `m` uses an output of node `n` as a bidirectional parameter: it comes between `n` and the out-nodes of `n`, and is
left as the only one. -/
def insertBidi (L : Links) (n m : Nat) : Except Links Links :=
  let L := (L.outNodes n).foldl (fun L k => ownNodeReplaceInNode L k n m) L
  addEdge { outNodes := Function.update L.outNodes n [], inNodes := Function.update L.inNodes m [] } n m

/-- The comparison of output slot `a` with slot `b`. -/
def compareSlot (G : GraphNodes) (a : Slot) (x : Links × Attached) (b : Slot) : Except Links (Links × Attached) :=
  if G.checkIsRefMatch a.ref b.ref then
    if a.node = b.node then
      -- an output connected to the same node is an error
      if a.index = b.index then .ok x else .error x.1
    else if a.dir = b.dir then .error x.1
    else
      match b.dir with
      | .input =>
        if x.2.biputs = 0 then do
          let L ← addEdge x.1 a.node b.node
          .ok (L, { x.2 with inputs := x.2.inputs + 1 })
        else .ok (x.1, { x.2 with inputs := x.2.inputs + 1 })
      | .bidirectional => do
        let L ← insertBidi x.1 a.node b.node
        .ok (L, { x.2 with biputs := x.2.biputs + 1 })
      | .output => .ok (x.1, { x.2 with outputs := x.2.outputs + 1 })
  else .ok x

/-- A virtual bidirectional parameter is connected to one output and, but for `VX_KERNEL_MOVE`, to an input. -/
def checkAttached (G : GraphNodes) (a : Slot) (x : Links × Attached) : Except Links Links :=
  if a.dir = .bidirectional ∧ (G.ref a.ref).isVirtual = true ∧
      (x.2.outputs ≠ 1 ∨ (G.node a.node).enumeration ≠ .move ∧ x.2.inputs = 0) then .error x.1
  else .ok x.1

/-- The loop over the parameters that output slot `a` is compared with. -/
def calcSlot (G : GraphNodes) (L : Links) (a : Slot) : Except Links Links :=
  if a.dir = .input then .ok L
  else if (G.ref a.ref).type = .image ∧ (G.ref a.ref).isUniform = true then .error L
  else do
    let x ← G.slots.foldlM (compareSlot G a) (L, {})
    checkAttached G a x

/-- The loop over the parameters of node `n`. -/
def calcNode (G : GraphNodes) (L : Links) (n : Nat) : Except Links Links :=
  if kernelMaxParams < (G.node n).prms.length then .error L
  else (slotsFrom n 0 (G.node n).prms).foldlM (calcSlot G) L

/-- `ownGraphCalcInAndOutNodes`. -/
def ownGraphCalcInAndOutNodes (G : GraphNodes) (L : Links) : Except Links Links := G.nodes.foldlM (calcNode G) L

section Lists

variable {L L' : Links} {n m : Nat}

theorem addOutNode_ok (h : ownNodeAddOutNode L n m = .ok L') :
    (∀ x y, y ∈ L'.outNodes x ↔ y ∈ L.outNodes x ∨ x = n ∧ y = m) ∧ L'.inNodes = L.inNodes := by
  unfold ownNodeAddOutNode at h
  split at h
  · rename_i hm
    cases h
    refine ⟨fun x y => ⟨.inl, ?_⟩, rfl⟩
    rintro (h | ⟨rfl, rfl⟩)
    · exact h
    · exact hm
  · split at h
    · cases h
      refine ⟨fun x y => ?_, rfl⟩
      simp only [Function.update_apply]
      split
      · rename_i hx
        rw [hx, List.mem_append, List.mem_singleton]
        simp
      · simp [*]
    · cases h

theorem addInNode_ok (h : ownNodeAddInNode L n m = .ok L') :
    (∀ x y, y ∈ L'.inNodes x ↔ y ∈ L.inNodes x ∨ x = n ∧ y = m) ∧ L'.outNodes = L.outNodes ∧
      ((∀ x, (L.inNodes x).Nodup) → ∀ x, (L'.inNodes x).Nodup) := by
  unfold ownNodeAddInNode at h
  split at h
  · rename_i hm
    cases h
    refine ⟨fun x y => ⟨.inl, ?_⟩, rfl, id⟩
    rintro (h | ⟨rfl, rfl⟩)
    · exact h
    · exact hm
  · rename_i hm
    split at h
    · cases h
      refine ⟨fun x y => ?_, rfl, fun hn x => ?_⟩
      · simp only [Function.update_apply]
        split
        · rename_i hx
          rw [hx, List.mem_append, List.mem_singleton]
          simp
        · simp [*]
      · simp only [Function.update_apply]
        split
        · exact (hn n).append (List.nodup_singleton m) (by simpa using hm)
        · exact hn x
    · cases h

/-- **An edge is entered** in both lists. -/
theorem addEdge_ok (h : addEdge L n m = .ok L') :
    (∀ x y, y ∈ L'.outNodes x ↔ y ∈ L.outNodes x ∨ x = n ∧ y = m) ∧
    (∀ x y, x ∈ L'.inNodes y ↔ x ∈ L.inNodes y ∨ x = n ∧ y = m) ∧
    ((∀ x, (L.inNodes x).Nodup) → ∀ x, (L'.inNodes x).Nodup) := by
  obtain ⟨L₁, h₁, h₂⟩ := FoldExcept.bind_eq_ok.1 h
  obtain ⟨ho, hi⟩ := addOutNode_ok h₁
  obtain ⟨hi', ho', hn⟩ := addInNode_ok h₂
  rw [hi] at hi' hn
  refine ⟨fun x y => by rw [ho', ho], fun x y => ?_, hn⟩
  rw [hi', and_comm (a := y = m)]

theorem mem_replaceNode {old new x : Nat} {l : List Nat} (hl : l.Nodup) (hne : new ≠ old) :
    x ∈ replaceNode old new l ↔ x ∈ l ∧ x ≠ old ∨ x = new ∧ old ∈ l := by
  unfold replaceNode
  split
  · rename_i hnew
    rw [hl.mem_erase_iff, and_comm]
    constructor
    · exact .inl
    · rintro (h | ⟨rfl, -⟩)
      · exact h
      · exact ⟨hnew, hne⟩
  · by_cases hold : old ∈ l
    · obtain ⟨p, q, rfl, hp⟩ := List.eq_append_cons_of_mem hold
      have hq : old ∉ q := (List.nodup_cons.1 (List.nodup_append.1 hl).2.1).1
      rw [List.replace_append_right hp, List.replace_cons_self]
      simp only [List.mem_append, List.mem_cons]
      constructor
      · rintro (h | rfl | h)
        · exact .inl ⟨.inl h, fun hx => hp (hx ▸ h)⟩
        · exact .inr ⟨rfl, .inr (.inl trivial)⟩
        · exact .inl ⟨.inr (.inr h), fun hx => hq (hx ▸ h)⟩
      · rintro (⟨h | h | h, hx⟩ | ⟨h, -⟩)
        · exact .inl h
        · exact absurd h hx
        · exact .inr (.inr h)
        · exact .inr (.inl h)
    · rw [List.replace_of_not_mem hold]
      constructor
      · exact fun h => .inl ⟨h, fun hx => hold (hx ▸ h)⟩
      · rintro (⟨h, -⟩ | ⟨-, h⟩)
        · exact h
        · exact absurd h hold

theorem nodup_replaceNode {old new : Nat} {l : List Nat} (hl : l.Nodup) : (replaceNode old new l).Nodup := by
  unfold replaceNode
  split
  · exact hl.erase old
  · rename_i hnew
    by_cases hold : old ∈ l
    · obtain ⟨p, q, rfl, hp⟩ := List.eq_append_cons_of_mem hold
      rw [List.replace_append_right hp, List.replace_cons_self]
      simp only [List.mem_append, List.mem_cons, not_or] at hnew
      obtain ⟨hnp, -, hnq⟩ := hnew
      rw [List.nodup_append, List.nodup_cons] at hl ⊢
      obtain ⟨hp', ⟨-, hq'⟩, hd⟩ := hl
      refine ⟨hp', ⟨hnq, hq'⟩, fun x hx y hy => ?_⟩
      rcases List.mem_cons.1 hy with rfl | hy
      · exact fun he => hnp (he ▸ hx)
      · exact hd x hx y (List.mem_cons_of_mem _ hy)
    · rwa [List.replace_of_not_mem hold]

/-- **What a replacement at all out-nodes does to the in-lists.** -/
theorem replaceInNodes_spec (hnm : n ≠ m) (l : List Nat) (hL : ∀ y, (L.inNodes y).Nodup) :
    (l.foldl (fun L k => ownNodeReplaceInNode L k n m) L).outNodes = L.outNodes ∧
    (∀ y, ((l.foldl (fun L k => ownNodeReplaceInNode L k n m) L).inNodes y).Nodup) ∧
    ∀ x y, x ∈ (l.foldl (fun L k => ownNodeReplaceInNode L k n m) L).inNodes y ↔
      x ∈ L.inNodes y ∧ (y ∈ l → x ≠ n) ∨ x = m ∧ n ∈ L.inNodes y ∧ y ∈ l := by
  induction l generalizing L with
  | nil =>
    refine ⟨rfl, hL, fun x y => ?_⟩
    simp
  | cons k l ih =>
    have hin : ∀ x y, x ∈ (ownNodeReplaceInNode L k n m).inNodes y ↔
        x ∈ L.inNodes y ∧ (y = k → x ≠ n) ∨ x = m ∧ n ∈ L.inNodes y ∧ y = k := by
      intro x y
      unfold ownNodeReplaceInNode
      simp only [Function.update_apply]
      split
      · rename_i hy
        rw [hy, mem_replaceNode (hL k) (Ne.symm hnm)]
        simp
      · rename_i hy
        simp [hy]
    have hnd : ∀ y, ((ownNodeReplaceInNode L k n m).inNodes y).Nodup := by
      intro y
      unfold ownNodeReplaceInNode
      simp only [Function.update_apply]
      split
      · exact nodup_replaceNode (hL k)
      · exact hL y
    obtain ⟨ho, hn, hm⟩ := ih hnd
    refine ⟨ho, hn, fun x y => ?_⟩
    rw [List.foldl_cons, hm, hin, hin, List.mem_cons]
    by_cases hk : y = k
    · by_cases hx : x = m
      · subst hx
        simp [hk, hnm, Ne.symm hnm]
      · simp only [hk, hx, hnm, true_imp_iff, true_or, ne_eq, not_true_eq_false, false_and, and_false, or_false]
        exact ⟨fun h => h.1, fun h => ⟨h, fun _ => h.2⟩⟩
    · simp [hk]

/-- **A bidirectional user takes the place of the writer** at the nodes found before, and is left as the only out-node. -/
theorem insertBidi_ok (hnm : n ≠ m) (hL : ∀ y, (L.inNodes y).Nodup) (h : insertBidi L n m = .ok L') :
    (∀ x, L'.outNodes x = if x = n then [m] else L.outNodes x) ∧ L'.inNodes m = [n] ∧
    (∀ y, (L'.inNodes y).Nodup) ∧
    ∀ x y, y ≠ m → (x ∈ L'.inNodes y ↔
      x ∈ L.inNodes y ∧ (y ∈ L.outNodes n → x ≠ n) ∨ x = m ∧ n ∈ L.inNodes y ∧ y ∈ L.outNodes n) := by
  obtain ⟨ho, hn, hm⟩ := replaceInNodes_spec (m := m) hnm (L.outNodes n) hL
  unfold insertBidi at h
  simp only at h
  generalize (L.outNodes n).foldl (fun L k => ownNodeReplaceInNode L k n m) L = L₁ at h ho hn hm
  rw [ho] at h
  unfold addEdge ownNodeAddOutNode ownNodeAddInNode at h
  simp [nodeMaxOutNodes, nodeMaxInNodes, bind, Except.bind] at h
  subst h
  refine ⟨fun x => ?_, ?_, fun y => ?_, fun x y hy => ?_⟩
  · simp [Function.update_apply]
  · simp
  · simp only [Function.update_apply]
    split
    · exact List.nodup_singleton n
    · exact hn y
  · simp only [Function.update_of_ne hy]
    exact hm x y

end Lists

section Compare

variable {G : GraphNodes} {a b : Slot}

/-- **What a comparison does**, where it succeeds. -/
theorem compareSlot_ok {x x' : Links × Attached} (h : compareSlot G a x b = .ok x') :
    (¬ (G.checkIsRefMatch a.ref b.ref = true ∧ a.node ≠ b.node) ∧ x' = x) ∨
    (G.checkIsRefMatch a.ref b.ref = true ∧ a.node ≠ b.node ∧ a.dir ≠ b.dir ∧
      ((b.dir = .input ∧ x.2.biputs = 0 ∧ addEdge x.1 a.node b.node = .ok x'.1 ∧ x'.2.biputs = 0) ∨
        (b.dir = .input ∧ x.2.biputs ≠ 0 ∧ x'.1 = x.1 ∧ x'.2.biputs = x.2.biputs) ∨
        (b.dir = .bidirectional ∧ insertBidi x.1 a.node b.node = .ok x'.1 ∧ x'.2.biputs ≠ 0) ∨
        (b.dir = .output ∧ x'.1 = x.1 ∧ x'.2.biputs = x.2.biputs))) := by
  unfold compareSlot at h
  split at h
  · rename_i hm
    split at h
    · rename_i hn
      split at h
      · cases h
        exact .inl ⟨fun hc => hc.2 hn, rfl⟩
      · cases h
    · rename_i hn
      refine .inr ⟨hm, hn, ?_⟩
      split at h
      · cases h
      · rename_i hd
        refine ⟨hd, ?_⟩
        cases hb : b.dir with
        | input =>
          rw [hb] at h
          simp only at h
          split at h
          · rename_i h0
            obtain ⟨L, hL, he⟩ := FoldExcept.bind_eq_ok.1 h
            cases he
            exact .inl ⟨rfl, h0, hL, h0⟩
          · rename_i h0
            cases h
            exact .inr (.inl ⟨rfl, h0, rfl, rfl⟩)
        | bidirectional =>
          rw [hb] at h
          obtain ⟨L, hL, he⟩ := FoldExcept.bind_eq_ok.1 h
          cases he
          exact .inr (.inr (.inl ⟨rfl, hL, Nat.succ_ne_zero _⟩))
        | output =>
          rw [hb] at h
          cases h
          exact .inr (.inr (.inr ⟨rfl, rfl, rfl⟩))
  · rename_i hm
    cases h
    exact .inl ⟨fun hc => hm hc.1, rfl⟩

theorem checkAttached_ok {x : Links × Attached} {L : Links} (h : checkAttached G a x = .ok L) : L = x.1 := by
  unfold checkAttached at h
  split at h
  · cases h
  · cases h
    rfl

/-- **What the loop at an output slot does**, where it succeeds. -/
theorem calcSlot_ok {L L' : Links} (h : calcSlot G L a = .ok L') :
    (a.dir = .input ∧ L' = L) ∨
      (a.dir ≠ .input ∧ ∃ x, G.slots.foldlM (compareSlot G a) (L, {}) = .ok x ∧ L' = x.1) := by
  unfold calcSlot at h
  split at h
  · rename_i ha
    cases h
    exact .inl ⟨ha, rfl⟩
  · rename_i ha
    split at h
    · cases h
    · obtain ⟨x, hx, hc⟩ := FoldExcept.bind_eq_ok.1 h
      exact .inr ⟨ha, x, hx, checkAttached_ok hc⟩

/-- Where no kernel has too many parameters, the loops over the nodes and their parameters are one over the slots. -/
theorem calcInAndOutNodes_ok {L L' : Links} (h : ownGraphCalcInAndOutNodes G L = .ok L') :
    G.slots.foldlM (calcSlot G) L = .ok L' := by
  unfold GraphNodes.slots
  rw [FoldExcept.flatMap]
  unfold ownGraphCalcInAndOutNodes at h
  generalize G.nodes = nodes at h
  induction nodes generalizing L with
  | nil => exact h
  | cons n nodes ih =>
    obtain ⟨L₁, h₁, h₂⟩ := FoldExcept.cons_eq_ok.1 h
    unfold calcNode at h₁
    split at h₁
    · cases h₁
    · exact FoldExcept.cons_eq_ok.2 ⟨L₁, h₁, ih h₂⟩

end Compare

end Tiovx
