import Mathlib.Data.List.Nodup
import Mathlib.Data.List.Count
import Mathlib.Data.List.Perm.Subperm
import Mathlib.Logic.Relation
import Mathlib.Logic.Function.Basic
import Mathlib.Order.Bounds.Basic
import Mathlib.Order.WellFounded
import Mathlib.Data.Fintype.Card
import Mathlib.Data.Set.Finite.Basic
/-!
# Lib.TopologicalOrder — the nodes of a finite graph sorted by counting in-nodes

A node may be taken when all its in-nodes have been: it is put on a work list when the last of them is taken.  Nodes without
in-nodes are there from the beginning, those of them that may start.  The nodes ever taken are those that no cycle leads to
and no node that may not start; each is taken after its in-nodes.  A depth that is raised above the depths of the in-nodes
when a node is taken is the number of nodes of the longest path to it, unless it was too large before.
-/

/-- A finite graph: each node has a list of in-nodes and one of out-nodes, and the lists agree. -/
structure EdgeLists (α : Type) [DecidableEq α] where
  nodes : List α
  inNodes : α → List α
  outNodes : α → List α
  nodup : nodes.Nodup
  in_mem : ∀ n ∈ nodes, ∀ m ∈ inNodes n, m ∈ nodes
  out_mem : ∀ n ∈ nodes, ∀ m ∈ outNodes n, m ∈ nodes
  count_eq : ∀ m ∈ nodes, ∀ n ∈ nodes, (outNodes m).count n = (inNodes n).count m

namespace EdgeLists

open Relation

variable {α : Type} [DecidableEq α] (G : EdgeLists α)

/-- There is an edge from `u` to `v`. -/
def Edge (u v : α) : Prop := v ∈ G.nodes ∧ u ∈ G.inNodes v

def HasCycle : Prop := ∃ v, TransGen G.Edge v v

/-- A path of `k` nodes ends in `v`. -/
inductive PathTo : α → Nat → Prop
  | single {v : α} : v ∈ G.nodes → PathTo v 1
  | step {u v : α} {k : Nat} : PathTo u k → G.Edge u v → PathTo v (k + 1)

/-- The longest path to `v` has `k` nodes. -/
def IsDepth (v : α) (k : Nat) : Prop := IsGreatest {k | G.PathTo v k} k

/-- The nodes that can be taken where the nodes without in-nodes that satisfy `start` can. -/
inductive Free (start : α → Prop) : α → Prop
  | source {v : α} : v ∈ G.nodes → G.inNodes v = [] → start v → Free start v
  | after {v : α} : v ∈ G.nodes → G.inNodes v ≠ [] → (∀ u ∈ G.inNodes v, Free start u) → Free start v

/-- A cycle leads to `v`, or a node without in-nodes that may not start. -/
def Blocked (start : α → Prop) (v : α) : Prop :=
  ∃ u, ReflTransGen G.Edge u v ∧ (TransGen G.Edge u u ∨ (u ∈ G.nodes ∧ G.inNodes u = [] ∧ ¬ start u))

variable {G} {start : α → Prop} {u v : α} {k : Nat}

theorem mem_of_edge (h : G.Edge u v) : u ∈ G.nodes := G.in_mem v h.1 u h.2

theorem mem_of_path (h : ReflTransGen G.Edge u v) (hv : v ∈ G.nodes) : u ∈ G.nodes := by
  induction h using ReflTransGen.head_induction_on with
  | refl => exact hv
  | head huw _ _ => exact mem_of_edge huw

theorem Free.mem (h : G.Free start v) : v ∈ G.nodes := by
  cases h with
  | source hv _ _ => exact hv
  | after hv _ _ => exact hv

theorem Free.in_free (h : G.Free start v) (hu : u ∈ G.inNodes v) : G.Free start u := by
  cases h with
  | source _ hnil _ =>
    rw [hnil] at hu
    exact absurd hu List.not_mem_nil
  | after _ _ hin => exact hin u hu

theorem Blocked.edge (hb : G.Blocked start u) (h : G.Edge u v) : G.Blocked start v := by
  obtain ⟨w, hw, hcause⟩ := hb
  exact ⟨w, hw.tail h, hcause⟩

/-- A blocked node has a blocked in-node, or it has none and may not start. -/
theorem Blocked.cases (hb : G.Blocked start v) :
    (∃ u, G.Edge u v ∧ G.Blocked start u) ∨ (G.inNodes v = [] ∧ ¬ start v) := by
  obtain ⟨w, hw, hcause⟩ := hb
  rcases hw.cases_tail with rfl | ⟨u, hwu, huv⟩
  · rcases hcause with hcyc | ⟨_, hnil, hns⟩
    · obtain ⟨u, hvu, huv⟩ := TransGen.tail'_iff.1 hcyc
      exact .inl ⟨u, huv, u, .refl, .inl (TransGen.head' huv hvu)⟩
    · exact .inr ⟨hnil, hns⟩
  · exact .inl ⟨u, huv, w, hwu, hcause⟩

theorem Free.not_blocked (h : G.Free start v) : ¬ G.Blocked start v := by
  induction h with
  | source _ hnil hs =>
    intro hb
    rcases hb.cases with ⟨u, huv, _⟩ | ⟨_, hns⟩
    · have hu := huv.2
      rw [hnil] at hu
      exact List.not_mem_nil hu
    · exact hns hs
  | after _ hne _ ih =>
    intro hb
    rcases hb.cases with ⟨u, huv, hbu⟩ | ⟨hnil, _⟩
    · exact ih u huv.2 hbu
    · exact hne hnil

/-- A graph has no cycle when its nodes have numbers that become larger along the edges. -/
theorem not_hasCycle_of_lt (r : α → Nat) (h : ∀ v ∈ G.nodes, ∀ u ∈ G.inNodes v, r u < r v) : ¬ G.HasCycle := by
  rintro ⟨v, hv⟩
  have hlt : ∀ u w, TransGen G.Edge u w → r u < r w := by
    intro u w huw
    induction huw with
    | single hu => exact h _ hu.1 _ hu.2
    | tail _ hu ih => exact Nat.lt_trans ih (h _ hu.1 _ hu.2)
  exact Nat.lt_irrefl _ (hlt v v hv)

/-- Where no cycle leads to `v`, an induction along the edges reaches it. -/
theorem induction_to {P : α → Prop} (hv : v ∈ G.nodes) (hc : ∀ u, ReflTransGen G.Edge u v → ¬ TransGen G.Edge u u)
    (hP : ∀ w, ReflTransGen G.Edge w v → (∀ u, G.Edge u w → P u) → P w) : P v := by
  let S := {u // ReflTransGen G.Edge u v}
  let R : S → S → Prop := fun a b => TransGen G.Edge a.1 b.1
  have hfin : Finite S := by
    refine Set.Finite.subset (List.finite_toSet G.nodes) (fun u hu => ?_)
    exact mem_of_path hu hv
  have htrans : IsTrans S R := ⟨fun _ _ _ hab hbc => hab.trans hbc⟩
  have hirr : Std.Irrefl R := ⟨fun a ha => hc a.1 a.2 ha⟩
  have hwf : WellFounded R := Finite.wellFounded_of_trans_of_irrefl R
  have hall : ∀ a : S, P a.1 := by
    intro a
    induction a using hwf.induction with
    | _ a ih =>
      refine hP a.1 a.2 (fun u hu => ?_)
      exact ih ⟨u, a.2.head hu⟩ (.single hu)
  exact hall ⟨v, .refl⟩

/-- **The nodes that can be taken are those that are not blocked.** -/
theorem free_iff (hv : v ∈ G.nodes) : G.Free start v ↔ ¬ G.Blocked start v := by
  refine ⟨Free.not_blocked, fun hb => ?_⟩
  refine induction_to hv (fun u hu hcyc => hb ⟨u, hu, .inl hcyc⟩) (fun w hw ih => ?_)
  have hmem := mem_of_path hw hv
  by_cases hnil : G.inNodes w = []
  · have hs : start w := by
      by_contra hns
      exact hb ⟨w, hw, .inr ⟨hmem, hnil, hns⟩⟩
    exact .source hmem hnil hs
  · exact .after hmem hnil (fun u hu => ih u ⟨hmem, hu⟩)

theorem start_of_path (hedge : ∀ u v, G.Edge u v → start v → start u) (h : ReflTransGen G.Edge u v) (hs : start v) :
    start u := by
  induction h using ReflTransGen.head_induction_on with
  | refl => exact hs
  | head huw _ ih => exact hedge _ _ huw ih

/-- In a graph without cycles the nodes that can be taken are those that may start, just where no edge leads from the others to
these and each of the others that has in-nodes has one of its kind. -/
theorem free_iff_start (hc : ¬ G.HasCycle) :
    (∀ v ∈ G.nodes, G.Free start v ↔ start v) ↔
      (∀ u v, G.Edge u v → start v → start u) ∧
        ∀ v ∈ G.nodes, ¬ start v → G.inNodes v ≠ [] → ∃ u ∈ G.inNodes v, ¬ start u := by
  constructor
  · intro h
    refine ⟨fun u v huv hs => ?_, fun v hv hns hne => ?_⟩
    · exact (h u (mem_of_edge huv)).1 (((h v huv.1).2 hs).in_free huv.2)
    · by_contra hall
      push Not at hall
      refine hns ((h v hv).1 (.after hv hne (fun u hu => ?_)))
      exact (h u (G.in_mem v hv u hu)).2 (hall u hu)
  · rintro ⟨hedge, hother⟩ v hv
    constructor
    · intro hf
      induction hf with
      | source _ _ hs => exact hs
      | after hv hne _ ih =>
        by_contra hns
        obtain ⟨u, hu, hnu⟩ := hother _ hv hns hne
        exact hnu (ih u hu (G.in_mem _ hv u hu))
    · intro hs
      refine (free_iff hv).2 (fun hb => ?_)
      obtain ⟨u, huv, hcause⟩ := hb
      rcases hcause with hcyc | ⟨_, _, hns⟩
      · exact hc ⟨u, hcyc⟩
      · exact hns (start_of_path hedge huv hs)

section WorkList

variable (G start) in
/-- The nodes in `done` have been taken, in this order, and those in `stack` can be.  `left` counts the in-nodes that have not
been taken, but for the edges to `rest`: these still have to be counted. -/
structure WorkList (done stack rest : List α) (left : α → Nat) : Prop where
  nodup : (done ++ stack).Nodup
  free : ∀ m ∈ done ++ stack, G.Free start m
  mem_of_start : ∀ m ∈ G.nodes, G.inNodes m = [] → start m → m ∈ done ++ stack
  mem_of_left : ∀ m ∈ G.nodes, G.inNodes m ≠ [] → left m = 0 → m ∈ done ++ stack
  left_zero : ∀ m ∈ done ++ stack, left m = 0
  left_eq : ∀ m ∈ G.nodes, left m = (G.inNodes m).countP (fun u => u ∉ done) + rest.count m
  rest_mem : ∀ m ∈ rest, m ∈ G.nodes ∧ G.inNodes m ≠ []
  earlier : ∀ m ∈ done, ∀ u ∈ G.inNodes m, [u, m].Sublist done

variable {done stack rest : List α} {left : α → Nat} {m n : α}

theorem countP_not_mem_append (hn : n ∉ done) (l : List α) :
    l.countP (fun u => u ∉ done) = l.countP (fun u => u ∉ done ++ [n]) + l.count n := by
  induction l with
  | nil => rfl
  | cons a l ih =>
    rw [List.countP_cons, List.countP_cons, List.count_cons, ih]
    by_cases ha : a = n
    · subst ha
      simp [hn]
      omega
    · simp [ha]
      omega

namespace WorkList

theorem length_le (h : G.WorkList start done stack rest left) : done.length + stack.length ≤ G.nodes.length := by
  rw [← List.length_append]
  exact (h.nodup.subperm (fun m hm => (h.free m hm).mem)).length_le

/-- All in-nodes of a node that may be taken have been. -/
theorem in_done (h : G.WorkList start done stack rest left) (hm : m ∈ done ++ stack) (hu : u ∈ G.inNodes m) : u ∈ done := by
  have hzero := h.left_zero m hm
  rw [h.left_eq m (h.free m hm).mem] at hzero
  have hcount := List.countP_eq_zero.1 (Nat.add_eq_zero_iff.1 hzero).1 u hu
  by_contra hnot
  exact hcount (decide_eq_true hnot)

/-- The last node on the list is taken: its out-nodes still have to be counted. -/
theorem take (h : G.WorkList start done (stack ++ [n]) [] left) :
    G.WorkList start (done ++ [n]) stack (G.outNodes n) left := by
  have hperm : (done ++ (stack ++ [n])).Perm (done ++ [n] ++ stack) := by
    rw [List.append_assoc]
    exact List.perm_append_comm.append_left done
  have hn : n ∈ done ++ (stack ++ [n]) := by simp
  have hnot : n ∉ done := by
    intro hd
    exact List.disjoint_of_nodup_append h.nodup hd (by simp)
  have hnode := (h.free n hn).mem
  refine ⟨hperm.nodup h.nodup, fun m hm => h.free m (hperm.mem_iff.2 hm), fun m hm hnil hs => ?_, fun m hm hne hz => ?_,
    fun m hm => h.left_zero m (hperm.mem_iff.2 hm), fun m hm => ?_, fun m hm => ?_, fun m hm u hu => ?_⟩
  · exact hperm.mem_iff.1 (h.mem_of_start m hm hnil hs)
  · exact hperm.mem_iff.1 (h.mem_of_left m hm hne hz)
  · rw [h.left_eq m hm, G.count_eq n hnode m hm, countP_not_mem_append hnot]
    rfl
  · have hm' := G.out_mem n hnode m hm
    refine ⟨hm', fun hnil => ?_⟩
    have hpos : 0 < (G.outNodes n).count m := List.count_pos_iff.2 hm
    rw [G.count_eq n hnode m hm', hnil] at hpos
    exact absurd hpos (Nat.not_lt_zero 0)
  · rcases List.mem_append.1 hm with hd | hlast
    · exact (h.earlier m hd u hu).trans (List.sublist_append_left done [n])
    · obtain rfl := List.mem_singleton.1 hlast
      exact (List.singleton_sublist.2 (h.in_done hn hu)).append (List.Sublist.refl [m])

theorem left_pos (h : G.WorkList start done stack (m :: rest) left) : 0 < left m := by
  rw [h.left_eq m (h.rest_mem m (by simp)).1, List.count_cons_self]
  omega

/-- An edge is counted: the node it leads to is put on the list when it was the last one. -/
theorem countDown (h : G.WorkList start done stack (m :: rest) left) :
    G.WorkList start done (if left m - 1 = 0 then stack ++ [m] else stack) rest (Function.update left m (left m - 1)) := by
  obtain ⟨hnode, hne⟩ := h.rest_mem m (by simp)
  have hpos := h.left_pos
  have hnot : m ∉ done ++ stack := fun hm => absurd (h.left_zero m hm) (by omega)
  have hleft : ∀ x ∈ G.nodes, Function.update left m (left m - 1) x =
      (G.inNodes x).countP (fun u => u ∉ done) + rest.count x := by
    intro x hx
    have hxl := h.left_eq x hx
    rw [List.count_cons] at hxl
    by_cases hxm : x = m
    · subst hxm
      rw [beq_self_eq_true, if_pos rfl] at hxl
      rw [Function.update_self]
      omega
    · rw [Function.update_of_ne hxm, hxl, if_neg (by simpa using Ne.symm hxm)]
      rfl
  have hrest : ∀ x ∈ rest, x ∈ G.nodes ∧ G.inNodes x ≠ [] := fun x hx => h.rest_mem x (List.mem_cons_of_mem m hx)
  by_cases hz : left m - 1 = 0
  · rw [if_pos hz]
    have happ : ∀ x, x ∈ done ++ (stack ++ [m]) ↔ x ∈ done ++ stack ∨ x = m := by
      intro x
      rw [← List.append_assoc, List.mem_append, List.mem_singleton]
    refine ⟨?_, fun x hx => ?_, fun x hx hnil hs => (happ x).2 (.inl (h.mem_of_start x hx hnil hs)), fun x hx hxne hxz => ?_,
      fun x hx => ?_, hleft, hrest, h.earlier⟩
    · rw [← List.append_assoc, List.nodup_append]
      exact ⟨h.nodup, List.nodup_singleton m, fun a ha b hb => by
        rw [List.mem_singleton.1 hb]
        exact fun heq => hnot (heq ▸ ha)⟩
    · rcases (happ x).1 hx with hold | rfl
      · exact h.free x hold
      · refine .after hnode hne (fun u hu => ?_)
        have hcount := hleft x hnode
        rw [Function.update_self, hz] at hcount
        have hu' := List.countP_eq_zero.1 (Nat.add_eq_zero_iff.1 hcount.symm).1 u hu
        refine h.free u (List.mem_append_left stack ?_)
        by_contra hnd
        exact hu' (decide_eq_true hnd)
    · by_cases hxm : x = m
      · exact (happ x).2 (.inr hxm)
      · rw [Function.update_of_ne hxm] at hxz
        exact (happ x).2 (.inl (h.mem_of_left x hx hxne hxz))
    · rcases (happ x).1 hx with hold | rfl
      · rw [Function.update_of_ne (fun heq : x = m => hnot (heq ▸ hold))]
        exact h.left_zero x hold
      · rw [Function.update_self]
        exact hz
  · rw [if_neg hz]
    refine ⟨h.nodup, h.free, h.mem_of_start, fun x hx hxne hxz => ?_, fun x hx => ?_, hleft, hrest, h.earlier⟩
    · by_cases hxm : x = m
      · subst hxm
        rw [Function.update_self] at hxz
        exact absurd hxz hz
      · rw [Function.update_of_ne hxm] at hxz
        exact h.mem_of_left x hx hxne hxz
    · rw [Function.update_of_ne (fun heq : x = m => hnot (heq ▸ hx))]
      exact h.left_zero x hx

/-- **When the list is empty, the nodes that can be taken have been.** -/
theorem mem_done_iff (h : G.WorkList start done [] [] left) : m ∈ done ↔ G.Free start m := by
  constructor
  · intro hm
    exact h.free m (List.mem_append_left [] hm)
  · intro hf
    induction hf with
    | source hv hnil hs => exact (List.append_nil done) ▸ h.mem_of_start _ hv hnil hs
    | @after v hv hne _ ih =>
      have hz : left v = 0 := by
        rw [h.left_eq v hv, List.countP_eq_zero.2 (fun u hu => by simpa using ih u hu)]
        rfl
      exact (List.append_nil done) ▸ h.mem_of_left v hv hne hz

end WorkList

end WorkList

section Depth

variable (G) in
/-- `d` raises what `d₀` says of `v` above what it says itself of the in-nodes, and no more than that. -/
structure DepthFrom (d₀ d : α → Nat) (v : α) : Prop where
  ge : d₀ v ≤ d v
  gt : ∀ u ∈ G.inNodes v, d u < d v
  reached : d v = d₀ v ∨ ∃ u ∈ G.inNodes v, d v = d u + 1

variable (G) in
/-- What is said of the depth of `v` before it is computed does no harm: some path to `v` is as long, and one of a node
without in-nodes is right. -/
def DepthFits (d₀ : α → Nat) (v : α) : Prop :=
  (∃ k, G.PathTo v k ∧ d₀ v ≤ k) ∧ (G.inNodes v = [] → G.IsDepth v (d₀ v))

variable {d₀ d : α → Nat}

theorem DepthFrom.isDepth_iff (h : G.DepthFrom d₀ d v) (hv : v ∈ G.nodes) (hin : ∀ u ∈ G.inNodes v, G.IsDepth u (d u)) :
    G.IsDepth v (d v) ↔ G.DepthFits d₀ v := by
  constructor
  · intro hd
    refine ⟨⟨d v, hd.1, h.ge⟩, fun hnil => ?_⟩
    rcases h.reached with heq | ⟨u, hu, _⟩
    · exact heq ▸ hd
    · rw [hnil] at hu
      exact absurd hu List.not_mem_nil
  · rintro ⟨⟨k, hk, hle⟩, hsource⟩
    by_cases hnil : G.inNodes v = []
    · rcases h.reached with heq | ⟨u, hu, _⟩
      · exact heq ▸ hsource hnil
      · rw [hnil] at hu
        exact absurd hu List.not_mem_nil
    · obtain ⟨w, hw⟩ := List.exists_mem_of_ne_nil _ hnil
      have hbound : ∀ j, G.PathTo v j → j ≤ d v := by
        intro j hj
        cases hj with
        | single _ => exact Nat.one_le_of_lt (h.gt w hw)
        | step hu huv => exact Nat.lt_of_le_of_lt ((hin _ huv.2).2 hu) (h.gt _ huv.2)
      refine ⟨?_, fun j hj => hbound j hj⟩
      rcases h.reached with heq | ⟨u, hu, heq⟩
      · have hkv : k = d v := Nat.le_antisymm (hbound k hk) (heq ▸ hle)
        exact hkv ▸ hk
      · show G.PathTo v (d v)
        rw [heq]
        exact .step (hin u hu).1 ⟨hv, hu⟩

/-- **The computed depths are right, just where what was said before does no harm.** -/
theorem isDepth_all_iff (h : ∀ v, G.Free start v → G.DepthFrom d₀ d v) :
    (∀ v, G.Free start v → G.IsDepth v (d v)) ↔ ∀ v, G.Free start v → G.DepthFits d₀ v := by
  constructor
  · intro hd v hv
    exact ((h v hv).isDepth_iff hv.mem (fun u hu => hd u (hv.in_free hu))).1 (hd v hv)
  · intro hfits v hv
    induction hv with
    | source hv hnil hs =>
      have hf := Free.source hv hnil hs
      refine ((h _ hf).isDepth_iff hv (fun u hu => ?_)).2 (hfits _ hf)
      rw [hnil] at hu
      exact absurd hu List.not_mem_nil
    | after hv hne hin ih =>
      have hf := Free.after hv hne hin
      exact ((h _ hf).isDepth_iff hv ih).2 (hfits _ hf)

end Depth

end EdgeLists
