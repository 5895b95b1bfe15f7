import Tiovx.VerifyStages
/-!
# NodeOrder — what a verification makes of the array of nodes (`vx_copy_swap.c`, `vx_graph_sort.c`, `vx_graph_verify.c`)

A node taken out leaves its place to the last one; the sort writes the nodes in the order in which it takes them from its
stack, unless there is a cycle; no later stage touches the array.  The order of the sort is stated here on lists, without the
array of the context.
-/
namespace Tiovx

/-- A node is put on the stack while there is room for it. -/
def pushNode (cap n : Nat) (l : List Nat) : List Nat := if l.length < cap then n :: l else l

/-- A node has one in-node less to wait for, and is put on the stack when none is left. -/
def releaseNode (cap : Nat) (x : List Nat × (Nat → Nat)) (m : Nat) : List Nat × (Nat → Nat) :=
  let c := if x.2 m = 0 then 65535 else x.2 m - 1
  (if c = 0 then pushNode cap m x.1 else x.1, Function.update x.2 m c)

/-- How a node is counted at the start. -/
def countNode (L : Links) (cap : Nat) (x : List Nat × (Nat → Nat)) (n : Nat) : List Nat × (Nat → Nat) :=
  let c := (L.inNodes n).length
  (if c = 0 then pushNode cap n x.1 else x.1, Function.update x.2 n c)

/-- The nodes in the order they are taken from the stack. -/
def takeNodes (L : Links) (cap : Nat) : Nat → List Nat × (Nat → Nat) → List Nat
  | 0, _ => []
  | _ + 1, ([], _) => []
  | k + 1, (n :: l, c) =>
    if l.length + 1 < graphMaxNodes then n :: takeNodes L cap k ((L.outNodes n).foldl (releaseNode cap) (l, c)) else []

/-- **The order of the nodes by their edges**: of the nodes that have no in-node left, the one found last comes first. -/
def sortOrder (s : GraphState) : List Nat :=
  let cap := s.nodes.length
  takeNodes s.links cap graphMaxNodes (s.nodes.foldl (countNode s.links cap) ([], s.incounter))

/-- The context and the graph during a sort, and the stack and the counters on lists. -/
structure SortsAs (s : GraphState) (y : SortContext × GraphState) (x : List Nat × (Nat → Nat)) : Prop where
  stack : (List.range y.1.stackTop).map y.1.stack = x.1.reverse
  max : y.1.stackMaxElems = s.nodes.length
  counts : y.2.incounter = x.2
  links : y.2.links = s.links
  nodes : y.2.nodes = s.nodes

section SortsAs

variable {s : GraphState} {y : SortContext × GraphState} {x : List Nat × (Nat → Nat)}

theorem SortsAs.stackTop (h : SortsAs s y x) : y.1.stackTop = x.1.length := by
  have hl := congrArg List.length h.stack
  rwa [List.length_map, List.length_range, List.length_reverse] at hl

theorem map_range_congr {f g : Nat → Nat} {k : Nat} (h : ∀ j < k, f j = g j) :
    (List.range k).map f = (List.range k).map g :=
  List.map_congr_left (fun j hj => h j (List.mem_range.1 hj))

theorem SortsAs.push (h : SortsAs s y x) (n : Nat) :
    SortsAs s (ownGraphSortStackPush y.1 n, y.2) (pushNode s.nodes.length n x.1, x.2) := by
  unfold ownGraphSortStackPush pushNode
  rw [h.max, h.stackTop]
  split
  · refine ⟨?_, rfl, h.counts, h.links, h.nodes⟩
    simp only [List.range_succ, List.map_append, List.map_cons, List.map_nil, Function.update_self, List.reverse_cons]
    rw [← h.stack, h.stackTop]
    congr 1
    exact map_range_congr (fun j hj => Function.update_of_ne (Nat.ne_of_lt hj) _ _)
  · exact ⟨h.stack, h.max, h.counts, h.links, h.nodes⟩

theorem SortsAs.count (h : SortsAs s y x) (m c : Nat) :
    SortsAs s (y.1, { y.2 with incounter := Function.update y.2.incounter m c }) (x.1, Function.update x.2 m c) :=
  ⟨h.stack, h.max, by rw [h.counts], h.links, h.nodes⟩

theorem SortsAs.countInNodes (h : SortsAs s y x) (n : Nat) :
    SortsAs s (countInNodes y n) (countNode s.links s.nodes.length x n) := by
  unfold Tiovx.countInNodes countNode
  rw [← h.links]
  simp only
  split
  · exact (h.push n).count n _
  · exact h.count n _

theorem SortsAs.countDown (h : SortsAs s y x) (m : Nat) :
    SortsAs s (countDown y m) (releaseNode s.nodes.length x m) := by
  unfold Tiovx.countDown releaseNode
  simp only [h.counts]
  generalize (if x.2 m = 0 then 65535 else x.2 m - 1) = c
  have hc := h.counts
  split
  · have hp := (h.push m).count m c
    simp only [hc] at hp
    exact hp
  · have hp := h.count m c
    rwa [hc] at hp

theorem SortsAs.deepen (h : SortsAs s y x) (n : Nat) (l : List Nat) : SortsAs s (y.1, l.foldl (deepen n) y.2) x := by
  induction l generalizing y with
  | nil => exact h
  | cons m l ih =>
    refine ih (y := (y.1, Tiovx.deepen n y.2 m)) ?_
    unfold Tiovx.deepen
    split
    · exact ⟨h.stack, h.max, h.counts, h.links, h.nodes⟩
    · exact h

theorem SortsAs.foldl {f : SortContext × GraphState → Nat → SortContext × GraphState}
    {g : List Nat × (Nat → Nat) → Nat → List Nat × (Nat → Nat)}
    (hfg : ∀ y x m, SortsAs s y x → SortsAs s (f y m) (g x m)) (h : SortsAs s y x) (l : List Nat) :
    SortsAs s (l.foldl f y) (l.foldl g x) := by
  induction l generalizing y x with
  | nil => exact h
  | cons m l ih => exact ih (hfg y x m h)

/-- A pop takes the head of the list. -/
theorem SortsAs.pop (h : SortsAs s y x) :
    (ownGraphSortStackPop y.1 = none ∧ (x.1 = [] ∨ graphMaxNodes ≤ x.1.length)) ∨
      ∃ n l z, x.1 = n :: l ∧ l.length + 1 < graphMaxNodes ∧ ownGraphSortStackPop y.1 = some (n, z) ∧
        z.sortedNodes = y.1.sortedNodes ∧ SortsAs s (z, y.2) (l, x.2) := by
  unfold ownGraphSortStackPop
  cases hx : x.1 with
  | nil =>
    have ht := h.stackTop
    rw [hx] at ht
    refine .inl ⟨?_, .inl rfl⟩
    rw [if_neg]
    intro hc
    rw [ht] at hc
    exact absurd hc.1 (Nat.lt_irrefl 0)
  | cons n l =>
    have ht := h.stackTop
    rw [hx, List.length_cons] at ht
    by_cases hlt : l.length + 1 < graphMaxNodes
    · rw [if_pos (by rw [ht]; exact ⟨Nat.succ_pos _, hlt⟩)]
      have hs := h.stack
      rw [ht, hx, List.range_succ, List.map_append, List.reverse_cons] at hs
      obtain ⟨hl, hlast⟩ := List.append_inj' hs rfl
      simp only [List.map_cons, List.map_nil, List.cons.injEq, and_true] at hlast
      refine .inr ⟨n, l, { y.1 with stackTop := y.1.stackTop - 1 }, rfl, hlt, ?_, rfl, ?_⟩
      · rw [ht, Nat.add_sub_cancel, hlast]
      · refine ⟨?_, h.max, h.counts, h.links, h.nodes⟩
        simp only [ht, Nat.add_sub_cancel]
        exact hl
    · refine .inl ⟨?_, .inr (Nat.le_of_not_lt hlt)⟩
      rw [if_neg]
      intro hc
      rw [ht] at hc
      exact hlt hc.2

theorem sortedNodes_push (z : SortContext) (n : Nat) : (ownGraphSortStackPush z n).sortedNodes = z.sortedNodes := by
  unfold ownGraphSortStackPush
  split <;> rfl

theorem sortedNodes_countDowns (l : List Nat) (y : SortContext × GraphState) :
    (l.foldl Tiovx.countDown y).1.sortedNodes = y.1.sortedNodes := by
  induction l generalizing y with
  | nil => rfl
  | cons m l ih =>
    rw [List.foldl_cons, ih]
    unfold Tiovx.countDown
    simp only
    generalize (if y.2.incounter m = 0 then 65535 else y.2.incounter m - 1) = c
    split
    · exact sortedNodes_push _ _
    · rfl

/-- **The loop takes the nodes in their order.** -/
theorem SortsAs.loop (k i : Nat) (h : SortsAs s y x) :
    let R := sortLoop k i y
    R.1 = i + (takeNodes s.links s.nodes.length k x).length ∧
    (List.range R.1).map R.2.1.sortedNodes =
      (List.range i).map y.1.sortedNodes ++ takeNodes s.links s.nodes.length k x ∧ R.2.2.nodes = s.nodes := by
  induction k generalizing i y x with
  | zero =>
    unfold sortLoop takeNodes
    simp [h.nodes]
  | succ k ih =>
    unfold sortLoop
    rcases h.pop with ⟨hp, hx⟩ | ⟨n, l, z, hx, hlt, hp, hz, hl⟩
    · have hnil : takeNodes s.links s.nodes.length (k + 1) x = [] := by
        obtain ⟨l, c⟩ := x
        rcases hx with hx | hx
        · simp only at hx
          rw [hx]
          rfl
        · cases l with
          | nil => rfl
          | cons n l =>
            unfold takeNodes
            exact if_neg (Nat.not_lt.2 hx)
      rw [hp, hnil]
      simp [h.nodes]
    · obtain ⟨l', c⟩ := x
      simp only at hx
      subst hx
      have htake : takeNodes s.links s.nodes.length (k + 1) (n :: l, c) =
          n :: takeNodes s.links s.nodes.length k ((s.links.outNodes n).foldl (releaseNode s.nodes.length) (l, c)) := by
        conv => lhs; unfold takeNodes
        exact if_pos hlt
      rw [hp, htake]
      simp only
      have hplace : SortsAs s ({ z with sortedNodes := Function.update z.sortedNodes i n }, y.2) (l, c) :=
        ⟨hl.stack, hl.max, hl.counts, hl.links, hl.nodes⟩
      have hdeep := hplace.deepen n (y.2.links.inNodes n)
      have hlinks := hdeep.links
      simp only at hlinks
      rw [hlinks]
      have hdown := hdeep.foldl (fun y x m hyx => hyx.countDown m) (s.links.outNodes n)
      obtain ⟨h₁, h₂, h₃⟩ := ih (i + 1) hdown
      refine ⟨?_, ?_, h₃⟩
      · rw [h₁, List.length_cons]
        omega
      · rw [h₂, sortedNodes_countDowns]
        simp only [List.range_succ, List.map_append, List.map_cons, List.map_nil, Function.update_self,
          List.append_assoc, List.cons_append, List.nil_append]
        congr 1
        rw [← hz]
        exact map_range_congr (fun j hj => Function.update_of_ne (Nat.ne_of_lt hj) _ _)

end SortsAs

/-- **The sort writes the nodes in their order**, if there is no cycle, and leaves them where they are, if there is one. -/
theorem nodes_topologicalSort (x : SortContext) (s : GraphState) :
    (ownGraphTopologicalSort x s).2.1.nodes =
      if s.nodes.length < graphMaxNodes ∧ (sortOrder s).length = s.nodes.length then sortOrder s else s.nodes := by
  unfold ownGraphTopologicalSort
  by_cases hn : s.nodes.length < graphMaxNodes
  · have hstart : SortsAs s (ownGraphSortStackReset x s.nodes.length, s) ([], s.incounter) :=
      ⟨rfl, rfl, rfl, rfl, rfl⟩
    have hcount := hstart.foldl (fun y x m hyx => hyx.countInNodes m) s.nodes
    obtain ⟨h₁, h₂, h₃⟩ := hcount.loop graphMaxNodes 0
    change _ = 0 + (sortOrder s).length at h₁
    rw [Nat.zero_add] at h₁
    rw [if_pos hn]
    simp only [h₁] at h₂ ⊢
    split
    · rename_i he
      rw [if_pos ⟨hn, he⟩]
      exact h₂
    · rename_i he
      rw [if_neg (fun h => he h.2)]
      exact h₃
  · rw [if_neg hn, if_neg (fun h => hn h.1)]

/-- **The last entry takes the place of the one removed**: another entry stays, unless it is the last. -/
theorem getElem?_removeEntry {l : List Nat} {n t i : Nat} (h : l[i]? = some t) (hn : n ≠ t) (hl : l.getLast? ≠ some t) :
    (removeEntry n l)[i]? = some t := by
  obtain ⟨hi, ht⟩ := List.getElem?_eq_some_iff.1 h
  cases hm : l.getLast? with
  | none =>
    rw [List.getLast?_eq_none_iff.1 hm] at hi
    exact absurd hi (Nat.not_lt_zero i)
  | some m =>
    -- the place of `t` is before the last, which is dropped
    have hlast : i + 1 < l.length := by
      by_cases hlt : i + 1 < l.length
      · exact hlt
      · have hi' : i = l.length - 1 := by omega
        rw [List.getLast?_eq_getElem?, ← hi', h] at hl
        exact absurd rfl hl
    have hrep : (l.replace n m)[i]? = some t := by
      rw [List.getElem?_replace]
      split
      · rename_i hc
        rw [h] at hc
        exact absurd (Option.some.inj (eq_of_beq hc)).symm hn
      · exact h
    unfold removeEntry
    rw [hm]
    simp only
    rw [List.getElem?_dropLast, List.length_replace, if_pos (by omega)]
    exact hrep

namespace GraphState

/-- The next node a pass takes out. -/
def nextRemoval (removable : GraphState → Nat → Nat → Nat → Option Removal) (s : GraphState) : Option Removal :=
  (makeCopyMoveNodeList s).findSome? (fun n =>
    match s.prmRef n 0, s.prmRef n 1 with
    | some first, some second => removable s n first second
    | _, _ => none)

/-- No node that a pass takes out is `t`, or leaves its place to `t`. -/
def passSpares (t : Nat) (removable : GraphState → Nat → Nat → Nat → Option Removal)
    (reassign : GraphState → Removal → GraphState) : Nat → GraphState → Bool
  | 0, _ => true
  | k + 1, s =>
    match nextRemoval removable s with
    | none => true
    | some R =>
      R.node ≠ t && s.nodes.getLast? ≠ some t &&
        match ownCopyMoveRemoveNode s R.node R.old R.new with
        | .ok s => passSpares t removable reassign k (reassign s R)
        | .error _ => true

section Elimination

variable {s : GraphState} {t i : Nat} {removable : GraphState → Nat → Nat → Nat → Option Removal}
  {reassign : GraphState → Removal → GraphState}

theorem nodes_withLinks (s : GraphState) (x : Except Links Links) : (left (s.withLinks x)).nodes = s.nodes := by
  cases x <;> rfl

theorem nodes_removeNode (s : GraphState) (n old new : Nat) :
    (∃ u, ownCopyMoveRemoveNode s n old new = .error u ∧ u.nodes = s.nodes) ∨
      ∃ u, ownCopyMoveRemoveNode s n old new = .ok u ∧ u.nodes = removeEntry n s.nodes := by
  unfold ownCopyMoveRemoveNode
  cases spliceNode n s.links with
  | error L => exact .inl ⟨_, rfl, rfl⟩
  | ok L => exact .inr ⟨_, rfl, rfl⟩

theorem removalPass_succ (k : Nat) (s : GraphState) : removalPass removable reassign (k + 1) s =
    match nextRemoval removable s with
    | none => .ok s
    | some R => (ownCopyMoveRemoveNode s R.node R.old R.new).bind (fun u => removalPass removable reassign k (reassign u R)) :=
  rfl

/-- A node that a pass spares keeps its place. -/
theorem getElem?_removalPass {k : Nat} (h : s.nodes[i]? = some t) (hs : passSpares t removable reassign k s = true)
    (hre : ∀ s R, (reassign s R).nodes = s.nodes) : (left (removalPass removable reassign k s)).nodes[i]? = some t := by
  induction k generalizing s with
  | zero => exact h
  | succ k ih =>
    unfold passSpares at hs
    rw [removalPass_succ]
    split at hs
    · exact h
    · rename_i R hn
      simp only [Bool.and_eq_true, decide_eq_true_eq] at hs
      obtain ⟨⟨hnode, hlast⟩, hrest⟩ := hs
      rcases nodes_removeNode s R.node R.old R.new with ⟨u, hu, hnodes⟩ | ⟨u, hu, hnodes⟩
      · simp only [hu]
        change u.nodes[i]? = some t
        rw [hnodes]
        exact h
      · simp only [hu] at hrest ⊢
        refine ih ?_ hrest
        rw [hre, hnodes]
        exact getElem?_removeEntry h hnode hlast

end Elimination

/-- No copy or move node that is taken out is `t`, or leaves its place to `t`. -/
def eliminationSpares (copies : Nat → Nat → Bool) (t : Nat) (s : GraphState) : Bool :=
  !moveNodesValid s ||
  let first := removableOutput copies
  let reassignFirst := fun s (R : Removal) => ownReassignGraphParameter s R.node 1 R.new .output
  let second := removableInput copies
  let reassignSecond := fun s (R : Removal) => ownReassignGraphParameter s R.node 0 R.new .input
  passSpares t first reassignFirst s.nodes.length s &&
    match removalPass first reassignFirst s.nodes.length s with
    | .error _ => true
    | .ok s =>
      passSpares t second reassignSecond s.nodes.length s &&
        match removalPass second reassignSecond s.nodes.length s with
        | .error _ => true
        | .ok s => passSpares t (removableBoth copies) (fun s _ => s) s.nodes.length s

/-- The place of a node in the order of the sort is `i`, if there is no cycle. -/
def sortSpares (t i : Nat) (s : GraphState) : Bool :=
  !(decide (s.nodes.length < graphMaxNodes ∧ (sortOrder s).length = s.nodes.length)) || (sortOrder s)[i]? = some t

/-- **A verification leaves node `t` at place `i`**: it is not taken out and does not take the place of one that is, and it
comes as the `i`th in the order of the edges. -/
def verificationSpares (o : VerifyOutcome) (t i : Nat) (s : GraphState) : Bool :=
  !(o.enters && o.deinits) ||
  match { s with verified := false }.withLinks (ownGraphCalcInAndOutNodes s.toGraphNodes s.links) with
  | .error _ => true
  | .ok s =>
    eliminationSpares o.copies t s &&
      match ownGraphProcessCopyMoveNodes o.copies s with
      | .error _ => true
      | .ok s => sortSpares t i s

section Verification

variable {s : GraphState} {t i : Nat} {o : VerifyOutcome}

theorem getElem?_elimination {copies : Nat → Nat → Bool} (h : s.nodes[i]? = some t)
    (hs : eliminationSpares copies t s = true) : (left (ownGraphProcessCopyMoveNodes copies s)).nodes[i]? = some t := by
  unfold eliminationSpares at hs
  unfold ownGraphProcessCopyMoveNodes
  cases hv : moveNodesValid s with
  | false => exact h
  | true =>
    simp only [hv, Bool.not_true, Bool.false_or, Bool.and_eq_true] at hs
    obtain ⟨h₁, hs⟩ := hs
    have hn₁ := getElem?_removalPass h h₁ (fun _ _ => rfl)
    rw [if_pos rfl]
    cases hp₁ : removalPass (removableOutput copies)
        (fun s R => ownReassignGraphParameter s R.node 1 R.new .output) s.nodes.length s with
    | error u =>
      rw [hp₁] at hn₁
      exact hn₁
    | ok u =>
      rw [hp₁] at hn₁ hs
      simp only [Bool.and_eq_true] at hs
      obtain ⟨h₂, hs⟩ := hs
      have hn₂ := getElem?_removalPass hn₁ h₂ (fun _ _ => rfl)
      simp only [bind, Except.bind]
      cases hp₂ : removalPass (removableInput copies)
          (fun s R => ownReassignGraphParameter s R.node 0 R.new .input) u.nodes.length u with
      | error v =>
        change (left (.ok u)).nodes[i]? = some t at hn₁
        simp only [left] at hn₂
        rw [hp₂] at hn₂
        exact hn₂
      | ok v =>
        simp only [left] at hn₂
        rw [hp₂] at hn₂ hs
        exact getElem?_removalPass hn₂ hs (fun _ _ => rfl)

theorem getElem?_sort (x : SortContext) (h : s.nodes[i]? = some t) (hs : sortSpares t i s = true) :
    (ownGraphTopologicalSort x s).2.1.nodes[i]? = some t := by
  rw [nodes_topologicalSort]
  unfold sortSpares at hs
  split
  · rename_i hc
    rw [decide_eq_true hc] at hs
    simpa using hs
  · exact h

theorem getElem?_sortStage (S : SharedState) (h : s.nodes[i]? = some t) (hs : verificationSpares o t i s = true) :
    (sortStage o S s).2.1.nodes[i]? = some t := by
  unfold verificationSpares at hs
  unfold sortStage
  cases he : o.enters with
  | false => exact h
  | true =>
    cases hd : o.deinits with
    | false => exact h
    | true =>
      simp only [he, hd, Bool.and_self, Bool.not_true, Bool.false_or] at hs
      simp only [if_true]
      have hlinks := nodes_withLinks { s with verified := false } (ownGraphCalcInAndOutNodes s.toGraphNodes s.links)
      cases hw : { s with verified := false }.withLinks (ownGraphCalcInAndOutNodes s.toGraphNodes s.links) with
      | error u =>
        have hprep : prepare o { s with verified := false } = .error u := by
          unfold prepare
          rw [hw]
          rfl
        rw [hprep]
        rw [hw] at hlinks
        change u.nodes[i]? = some t
        rw [show u.nodes = s.nodes from hlinks]
        exact h
      | ok u =>
        have hprep : prepare o { s with verified := false } = ownGraphProcessCopyMoveNodes o.copies u := by
          unfold prepare
          rw [hw]
          rfl
        rw [hprep]
        rw [hw] at hlinks hs
        have hu : u.nodes[i]? = some t := by
          rw [show u.nodes = s.nodes from hlinks]
          exact h
        simp only [Bool.and_eq_true] at hs
        obtain ⟨helim, hsort⟩ := hs
        have hv := getElem?_elimination hu helim
        cases hp : ownGraphProcessCopyMoveNodes o.copies u with
        | error v =>
          rw [hp] at hv
          exact hv
        | ok v =>
          rw [hp] at hv hsort
          exact getElem?_sort S.sort hv hsort

end Verification

/-- A stage that leaves the array of nodes as it is, whether it succeeds or not. -/
def KeepsNodes (f : Stage) : Prop := ∀ s, (left (f s)).nodes = s.nodes

section KeepsNodes

variable {f g : Stage}

theorem nodes_bind {x : Except GraphState GraphState} (hg : KeepsNodes g) : (left (x.bind g)).nodes = (left x).nodes := by
  cases x with
  | error s => rfl
  | ok s => exact hg s

theorem KeepsNodes.bind (hf : KeepsNodes f) (hg : KeepsNodes g) : KeepsNodes (fun s => (f s).bind g) :=
  fun s => (nodes_bind hg).trans (hf s)

theorem KeepsNodes.map {h : GraphState → GraphState} (hf : KeepsNodes f) (hh : ∀ s, (h s).nodes = s.nodes) :
    KeepsNodes (fun s => f (h s)) :=
  fun s => (hf (h s)).trans (hh s)

theorem nodes_foldlM {α : Type} {f : GraphState → α → Except GraphState GraphState}
    (hf : ∀ a, KeepsNodes (fun s => f s a)) (l : List α) (s : GraphState) : (left (l.foldlM f s)).nodes = s.nodes := by
  induction l generalizing s with
  | nil => rfl
  | cons a l ih =>
    rw [List.foldlM_cons]
    exact (nodes_bind (fun u => ih u)).trans (hf a s)

theorem nodes_foldl {α : Type} {f : GraphState → α → GraphState} (l : List α) (s : GraphState)
    (hf : ∀ s a, (f s a).nodes = s.nodes) : (l.foldl f s).nodes = s.nodes := by
  induction l generalizing s with
  | nil => rfl
  | cons a l ih => exact (ih (f s a)).trans (hf s a)

theorem keepsNodes_check (b : Bool) : KeepsNodes (check b) := by
  intro s
  unfold check
  split <;> rfl

theorem keepsNodes_validateParameters : KeepsNodes ownGraphValidateParameters := by
  intro s
  unfold ownGraphValidateParameters
  split <;> rfl

theorem keepsNodes_linkParameters : KeepsNodes ownGraphLinkParameters := by
  intro s
  unfold ownGraphLinkParameters
  split <;> rfl

theorem keepsNodes_validatePipelineParameters : KeepsNodes ownGraphValidatePipelineParameters := by
  intro s
  unfold ownGraphValidatePipelineParameters
  split <;> rfl

theorem keepsNodes_addHeadNode (n : Nat) : KeepsNodes (fun s => addHeadNode s n) := by
  intro s
  simp only [addHeadNode]
  split
  · split <;> rfl
  · rfl

theorem keepsNodes_addLeafNode (n : Nat) : KeepsNodes (fun s => addLeafNode s n) := by
  intro s
  simp only [addLeafNode]
  split
  · split <;> rfl
  · rfl

theorem keepsNodes_calcHeadAndLeafNodes : KeepsNodes ownGraphCalcHeadAndLeafNodes :=
  fun s => nodes_foldlM (fun n => (keepsNodes_addHeadNode n).bind (keepsNodes_addLeafNode n)) s.nodes _

theorem keepsNodes_findAndAddDataReferences : KeepsNodes ownGraphFindAndAddDataReferences := by
  intro s
  unfold ownGraphFindAndAddDataReferences
  simp only
  split <;> rfl

theorem nodes_detectAndSetNumBuf (s : GraphState) : s.ownGraphDetectAndSetNumBuf.nodes = s.nodes := by
  unfold ownGraphDetectAndSetNumBuf
  split <;> rfl

theorem keepsNodes_allocObjDesc (allocates : Nat → Bool) (depth n : Nat) :
    KeepsNodes (fun s => ownNodeAllocObjDescForPipeline allocates depth s n) := by
  intro s
  simp only [ownNodeAllocObjDescForPipeline]
  split
  · split <;> rfl
  · rfl

theorem keepsNodes_pipelineNodes (K : Nat → VxKernel) (allocates : Nat → Bool) : KeepsNodes (pipelineNodes K allocates) := by
  intro s
  refine (nodes_bind (fun u => ?_)).trans (nodes_foldlM (fun n => keepsNodes_allocObjDesc _ _ n) s.nodes _)
  exact nodes_foldl u.nodes u (fun _ _ => rfl)

theorem keepsNodes_addDataRefQ (K : Nat → VxKernel) (sinkBufs : Nat → Nat) (creates : Nat → Nat → Bool) (x : Nat × Nat) :
    KeepsNodes (fun s => ownGraphAddDataRefQ K sinkBufs creates s x) := by
  intro s
  simp only [ownGraphAddDataRefQ]
  split
  · rfl
  · split
    · rfl
    · split <;> rfl

theorem keepsNodes_addDataRefQs (K : Nat → VxKernel) (sinkBufs : Nat → Nat) (creates : Nat → Nat → Bool) :
    KeepsNodes (addDataRefQs K sinkBufs creates) := by
  intro s
  unfold addDataRefQs
  split
  · exact nodes_foldlM (fun x => keepsNodes_addDataRefQ K sinkBufs creates x) s.allPrms s
  · rfl

theorem keepsNodes_createDelaySlotQueue (n i d slot : Nat) : KeepsNodes (fun s => createDelaySlotQueue n i d s slot) := by
  intro s
  simp only [createDelaySlotQueue]
  split
  · rfl
  · split <;> rfl

theorem keepsNodes_delayQueues (n i : Nat) : KeepsNodes (ownGraphCheckAndCreateDelayDataReferenceQueues n i) := by
  intro s
  unfold ownGraphCheckAndCreateDelayDataReferenceQueues
  split
  · rfl
  · split
    · exact nodes_foldlM (fun slot => keepsNodes_createDelaySlotQueue n i _ slot) _ s
    · rfl

theorem keepsNodes_graphParameterQueue (x : Nat × GraphParameter) :
    KeepsNodes (fun s => createGraphParameterQueue s x) := by
  intro s
  simp only [createGraphParameterQueue]
  split
  · exact keepsNodes_delayQueues _ _ _
  · rfl

theorem keepsNodes_intermediateQueue (k : Nat) : KeepsNodes (fun s => createIntermediateQueue s k) := by
  intro s
  simp only [createIntermediateQueue]
  split
  · exact keepsNodes_delayQueues _ _ _
  · rfl

theorem keepsNodes_primeQueues : KeepsNodes ownGraphPrimeDataReferenceQueues := by
  intro s
  unfold ownGraphPrimeDataReferenceQueues
  split
  · split
    · split <;> rfl
    · rfl
  · rfl

theorem nodes_linkToNodeIndex (s : GraphState) (q : QueueId) (n i : Nat) :
    (s.ownGraphLinkDataReferenceQueuesToNodeIndex q n i).nodes = s.nodes := by
  unfold ownGraphLinkDataReferenceQueuesToNodeIndex
  split
  · exact nodes_foldl _ s (fun _ _ => rfl)
  · rfl

theorem nodes_linkQueues (s : GraphState) : s.ownGraphLinkDataReferenceQueues.nodes = s.nodes := by
  unfold ownGraphLinkDataReferenceQueues
  simp only
  refine (nodes_foldl _ _ (fun s x => ?_)).trans ((nodes_foldl _ _ (fun s x => ?_)).trans (nodes_foldl _ _ (fun s x => ?_)))
  · split
    · exact nodes_linkToNodeIndex _ _ _ _
    · rfl
  · exact nodes_linkToNodeIndex _ _ _ _
  · split
    · exact nodes_linkToNodeIndex _ _ _ _
    · rfl

theorem keepsNodes_createAndLinkQueues : KeepsNodes ownGraphCreateAndLinkDataReferenceQueues :=
  KeepsNodes.bind (fun s => nodes_foldlM keepsNodes_graphParameterQueue _ s)
    (KeepsNodes.bind (fun s => nodes_foldlM keepsNodes_intermediateQueue _ s)
      (KeepsNodes.bind keepsNodes_primeQueues nodes_linkQueues))

theorem keepsNodes_collect (K : Nat → VxKernel) (o : VerifyOutcome) : KeepsNodes (collect K o) :=
  (keepsNodes_check _).bind (keepsNodes_validateParameters.bind (keepsNodes_linkParameters.bind
    (keepsNodes_validatePipelineParameters.bind (keepsNodes_calcHeadAndLeafNodes.bind
      (keepsNodes_findAndAddDataReferences.bind
        (((keepsNodes_check _).map nodes_detectAndSetNumBuf).bind (keepsNodes_pipelineNodes K _)))))))

theorem keepsNodes_complete (o : VerifyOutcome) : KeepsNodes (complete o) := by
  have hlast : KeepsNodes (fun s => (check (decide (s.pipelineDepth < graphMaxPipelineDepth) && o.finishes) s).bind
      (fun s => .ok { s with verified := true })) := by
    intro s
    exact (nodes_bind (fun _ => rfl)).trans (keepsNodes_check _ s)
  exact (keepsNodes_check _).bind (((keepsNodes_check _).map (h := ownGraphLinkArrayElements) (fun _ => rfl)).bind
    (keepsNodes_createAndLinkQueues.bind ((keepsNodes_check _).bind hlast)))

/-- **No stage after the sort touches the array of nodes.** -/
theorem nodes_finish (K : Nat → VxKernel) (sinkBufs : Nat → Nat) (o : VerifyOutcome) : KeepsNodes (finish K sinkBufs o) :=
  (keepsNodes_collect K o).bind ((keepsNodes_addDataRefQs K sinkBufs _).bind (keepsNodes_complete o))

/-- **A node that a verification spares keeps its place in the array.** -/
theorem getElem?_verifyGraph {s : GraphState} {t i : Nat} {o : VerifyOutcome} (K : Nat → VxKernel) (S : SharedState)
    (h : s.nodes[i]? = some t) (hs : verificationSpares o t i s = true) :
    (vxVerifyGraph K o S s).2.nodes[i]? = some t := by
  have hsort := getElem?_sortStage S h hs
  unfold vxVerifyGraph
  simp only
  split
  · rw [nodes_finish]
    exact hsort
  · exact hsort

end KeepsNodes

end GraphState

end Tiovx
