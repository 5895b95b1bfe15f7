import Mathlib.Tactic
/-!
# Lib.StackWalk — a walk over a forest with a stack of a fixed size

The walk takes a node off its stack, visits it and puts its children on the stack, until the stack is empty; a child that the
stack has no room for is lost, with those after it.  Where no visit changes the children, and the stack has room (`need`) and the
walk has time (`size`), the walk is the visits of the nodes one after the other, each before those below it (`order`).
-/
namespace StackWalk

variable {α σ : Type}

/-- The children put on the stack, and whether there was room for all of them. -/
def push (bound : Nat) : List α → List α → List α × Bool
  | [], st => (st, true)
  | c :: cs, st => if bound ≤ st.length then (st, false) else push bound cs (c :: st)

/-- The walk, for at most so many visits. -/
def walk (bound : Nat) (children : σ → α → List α) (visit : σ → α → σ) : Nat → List α → σ → Bool → Option (σ × Bool)
  | _, [], s, ok => some (s, ok)
  | 0, _ :: _, _, _ => none
  | n + 1, r :: st, s, ok =>
    let (st', room) := push bound (children s r) st
    walk bound children visit n st' (visit s r) (ok && room)

section Order

variable (children : α → List α)

/-- The nodes below `r`, `n` levels deep, as the walk visits them. -/
def order : Nat → α → List α
  | 0, _ => []
  | n + 1, r => r :: (children r).reverse.flatMap (order n)

/-- How high the stack gets when these are put on one of height `j`, and each needs what it needs. -/
def peak (need : α → Nat) : Nat → List α → Nat
  | j, [] => j
  | j, c :: cs => max (j + need c) (peak need (j + 1) cs)

/-- How high a stack gets that begins with one node. -/
def need : Nat → α → Nat
  | 0, _ => 1
  | n + 1, r => max 1 (peak (need n) 0 (children r))

/-- How many nodes are visited. -/
def size : Nat → α → Nat
  | 0, _ => 0
  | n + 1, r => 1 + ((children r).map (size n)).sum

end Order

variable {children : α → List α} {rank : α → Nat} {bound : Nat}

theorem need_pos : ∀ (n : Nat) (r : α), 1 ≤ need children n r
  | 0, _ => Nat.le_refl 1
  | _ + 1, _ => Nat.le_max_left ..

/-- Each node of the stack has room for what is below it. -/
def HasRoom (bound n : Nat) (children : α → List α) : List α → Prop
  | [] => True
  | r :: st => st.length + need children n r ≤ bound ∧ HasRoom bound n children st

theorem peak_add (f : α → Nat) : ∀ (cs : List α) (i j : Nat), peak f (i + j) cs = i + peak f j cs
  | [], _, _ => rfl
  | c :: cs, i, j => by
    rw [peak, peak, Nat.add_assoc i j 1, peak_add f cs i (j + 1), Nat.add_assoc i j]
    omega

theorem push_spec {n : Nat} : ∀ (cs st : List α), peak (need children n) st.length cs ≤ bound →
    HasRoom bound n children st →
    push bound cs st = (cs.reverse ++ st, true) ∧ HasRoom bound n children (cs.reverse ++ st)
  | [], st, _, h => ⟨rfl, h⟩
  | c :: cs, st, hp, h => by
    rw [peak] at hp
    have h1 : 1 ≤ need children n c := need_pos n c
    have hroom : HasRoom bound n children (c :: st) := ⟨by omega, h⟩
    obtain ⟨he, hr⟩ := push_spec cs (c :: st) (by rw [List.length_cons]; omega) hroom
    rw [push, if_neg (by omega), he, List.reverse_cons, List.append_assoc]
    exact ⟨rfl, hr⟩

section Ranked

/-- What is below a node has a lower rank. -/
def Ranked (children : α → List α) (rank : α → Nat) : Prop := ∀ r, ∀ c ∈ children r, rank c < rank r

theorem peak_congr {f g : α → Nat} : ∀ {cs : List α} (j : Nat), (∀ c ∈ cs, f c = g c) → peak f j cs = peak g j cs
  | [], _, _ => rfl
  | c :: cs, j, h => by
    rw [peak, peak, h c List.mem_cons_self, peak_congr (j + 1) (fun d hd => h d (List.mem_cons_of_mem c hd))]

/-- More levels than there are change nothing. -/
theorem levels_succ (hr : Ranked children rank) : ∀ {n : Nat} {r : α}, rank r < n →
    order children (n + 1) r = order children n r ∧ need children (n + 1) r = need children n r ∧
      size children (n + 1) r = size children n r
  | 0, _, h => absurd h (Nat.not_lt_zero _)
  | n + 1, r, h => by
    have ih : ∀ c ∈ children r, order children (n + 1) c = order children n c ∧
        need children (n + 1) c = need children n c ∧ size children (n + 1) c = size children n c :=
      fun c hc => levels_succ hr (Nat.lt_of_lt_of_le (hr r c hc) (Nat.le_of_lt_succ h))
    refine ⟨?_, ?_, ?_⟩
    · rw [order, order]
      exact congrArg (r :: ·) (List.flatMap_congr (fun c hc => (ih c (List.mem_reverse.1 hc)).1))
    · rw [need, need, peak_congr 0 (fun c hc => (ih c hc).2.1)]
    · rw [size, size]
      exact congrArg (fun l => 1 + l.sum) (List.map_congr_left (fun c hc => (ih c hc).2.2))

/-- **The walk visits the nodes in order**, each before those below it. -/
theorem walk_eq {kids : σ → α → List α} {visit : σ → α → σ} (inv : σ → Prop) (hk : ∀ s, inv s → kids s = children)
    (hv : ∀ s r, inv s → inv (visit s r)) (hr : Ranked children rank) {n : Nat} :
    ∀ (fuel : Nat) {st : List α} {s : σ}, inv s → (∀ r ∈ st, rank r < n) → HasRoom bound n children st →
      (st.map (size children n)).sum ≤ fuel →
      walk bound kids visit fuel st s true = some ((st.flatMap (order children n)).foldl visit s, true)
  | fuel, [], s, _, _, _, _ => by cases fuel <;> rfl
  | 0, r :: st, s, _, hn, _, hf => by
    obtain ⟨m, rfl⟩ : ∃ m, n = m + 1 := ⟨n - 1, by have := hn r List.mem_cons_self; omega⟩
    rw [List.map_cons, List.sum_cons, size] at hf
    omega
  | fuel + 1, r :: st, s, hs, hn, hroom, hf => by
    obtain ⟨m, rfl⟩ : ∃ m, n = m + 1 := ⟨n - 1, by have := hn r List.mem_cons_self; omega⟩
    have hlt : rank r < m + 1 := hn r List.mem_cons_self
    -- what is below `r` has its order, need and size `m + 1` levels deep already
    have hlev : ∀ c ∈ children r, order children (m + 1) c = order children m c ∧
        need children (m + 1) c = need children m c ∧ size children (m + 1) c = size children m c :=
      fun c hc => levels_succ hr (Nat.lt_of_lt_of_le (hr r c hc) (Nat.le_of_lt_succ hlt))
    have hpeak : peak (need children (m + 1)) st.length (children r) ≤ bound := by
      have h1 := hroom.1
      rw [need] at h1
      rw [peak_congr (g := need children m) _ (fun c hc => (hlev c hc).2.1)]
      have h2 := peak_add (need children m) (children r) st.length 0
      rw [Nat.add_zero] at h2
      omega
    obtain ⟨hp, hroom'⟩ := push_spec (children r) st hpeak hroom.2
    have hsize : (((children r).reverse ++ st).map (size children (m + 1))).sum ≤ fuel := by
      rw [List.map_cons, List.sum_cons, size] at hf
      rw [List.map_append, List.sum_append, List.map_reverse, List.sum_reverse,
        List.map_congr_left (fun c hc => (hlev c hc).2.2)]
      omega
    have hrank : ∀ c ∈ (children r).reverse ++ st, rank c < m + 1 := by
      intro c hc
      rcases List.mem_append.1 hc with hc | hc
      · exact Nat.lt_trans (hr r c (List.mem_reverse.1 hc)) hlt
      · exact hn c (List.mem_cons_of_mem r hc)
    rw [walk, hk s hs, hp]
    simp only [Bool.and_self]
    rw [walk_eq inv hk hv hr fuel (hv s r hs) hrank hroom' hsize, List.flatMap_cons, List.flatMap_append, order,
      List.cons_append, List.foldl_cons]
    rw [List.flatMap_congr (fun c hc => (hlev c (List.mem_reverse.1 hc)).1)]

/-! ### How much room and time is enough -/

/-- The nodes `n` levels deep where each has at most `m` children. -/
def total (m : Nat) : Nat → Nat
  | 0 => 0
  | n + 1 => 1 + m * total m n

theorem size_le {m : Nat} (hm : ∀ r, (children r).length ≤ m) : ∀ (n : Nat) (r : α), size children n r ≤ total m n
  | 0, _ => Nat.le_refl 0
  | n + 1, r => by
    have hsum : ∀ cs : List α, (cs.map (size children n)).sum ≤ cs.length * total m n := by
      intro cs
      induction cs with
      | nil => simp
      | cons c cs ih =>
        have := size_le hm n c
        rw [List.map_cons, List.sum_cons, List.length_cons, Nat.succ_mul]
        omega
    have h1 := hsum (children r)
    have h2 := Nat.mul_le_mul_right (total m n) (hm r)
    rw [size, total]
    omega

theorem peak_le {f : α → Nat} {b : Nat} (hb : 1 ≤ b) : ∀ (cs : List α) (j : Nat), (∀ c ∈ cs, f c ≤ b) →
    peak f j cs ≤ j + (cs.length - 1) + b
  | [], j, _ => by
    rw [peak]
    omega
  | [c], j, h => by
    have := h c List.mem_cons_self
    rw [peak, peak]
    simp only [List.length_cons, List.length_nil]
    omega
  | c :: d :: cs, j, h => by
    have h1 := h c List.mem_cons_self
    have h2 := peak_le hb (d :: cs) (j + 1) (fun e he => h e (List.mem_cons_of_mem c he))
    rw [peak]
    simp only [List.length_cons] at h2 ⊢
    omega

/-- A stack for nodes with at most `m` children gets higher by `m - 1` for each rank. -/
theorem need_le {m : Nat} (hr : Ranked children rank) (hm : ∀ r, (children r).length ≤ m) : ∀ (n : Nat) (r : α),
    need children n r ≤ (m - 1) * rank r + 1
  | 0, r => by
    rw [need]
    omega
  | n + 1, r => by
    rw [need]
    by_cases h0 : children r = []
    · rw [h0, peak]
      omega
    · have hpos : 0 < rank r := by
        obtain ⟨c, hc⟩ := List.exists_mem_of_ne_nil _ h0
        exact Nat.zero_lt_of_lt (hr r c hc)
      have hc : ∀ c ∈ children r, need children n c ≤ (m - 1) * (rank r - 1) + 1 := by
        intro c hc
        have h1 := need_le hr hm n c
        have h2 := Nat.mul_le_mul_left (m - 1) (Nat.le_sub_one_of_lt (hr r c hc))
        omega
      have h1 := peak_le (Nat.le_add_left 1 _) (children r) 0 hc
      have h2 := hm r
      obtain ⟨k, hk⟩ : ∃ k, rank r = k + 1 := ⟨rank r - 1, by omega⟩
      rw [hk, Nat.add_sub_cancel] at h1
      rw [hk, Nat.mul_succ]
      omega

/-! ### The nodes that are visited -/

theorem mem_order_self {n : Nat} (hn : 0 < n) (r : α) : r ∈ order children n r := by
  obtain ⟨m, rfl⟩ : ∃ m, n = m + 1 := ⟨n - 1, by omega⟩
  exact List.mem_cons_self

theorem mem_order_succ {n : Nat} {r x : α} :
    x ∈ order children (n + 1) r ↔ x = r ∨ ∃ c ∈ children r, x ∈ order children n c := by
  simp only [order, List.mem_cons, List.mem_flatMap, List.mem_reverse]

theorem rank_le_of_mem_order (hr : Ranked children rank) : ∀ {n : Nat} {r x : α}, x ∈ order children n r → rank x ≤ rank r
  | 0, _, _, h => nomatch h
  | n + 1, r, x, h => by
    rcases mem_order_succ.1 h with rfl | ⟨c, hc, hx⟩
    · exact Nat.le_refl _
    · exact Nat.le_of_lt (Nat.lt_of_le_of_lt (rank_le_of_mem_order hr hx) (hr r c hc))

/-- With a node, what is below it is visited. -/
theorem mem_order_of_child (hr : Ranked children rank) : ∀ {n : Nat} {r x c : α}, rank r < n → x ∈ order children n r →
    c ∈ children x → c ∈ order children n r
  | 0, _, _, _, h, _, _ => absurd h (Nat.not_lt_zero _)
  | n + 1, r, x, c, h, hx, hc => by
    rcases mem_order_succ.1 hx with rfl | ⟨d, hd, hx⟩
    · have hlt : rank c < n := Nat.lt_of_lt_of_le (hr x c hc) (Nat.le_of_lt_succ h)
      exact mem_order_succ.2 (.inr ⟨c, hc, mem_order_self (Nat.zero_lt_of_lt hlt) c⟩)
    · have hlt : rank d < n := Nat.lt_of_lt_of_le (hr r d hd) (Nat.le_of_lt_succ h)
      exact mem_order_succ.2 (.inr ⟨d, hd, mem_order_of_child hr hlt hx hc⟩)

/-- What is visited is the first node, or below one that is visited. -/
theorem parent_of_mem_order : ∀ {n : Nat} {r x : α}, x ∈ order children n r →
    x = r ∨ ∃ y ∈ order children n r, x ∈ children y
  | 0, _, _, h => nomatch h
  | n + 1, r, x, h => by
    rcases mem_order_succ.1 h with rfl | ⟨c, hc, hx⟩
    · exact .inl rfl
    · rcases parent_of_mem_order hx with rfl | ⟨y, hy, hxy⟩
      · exact .inr ⟨r, mem_order_self (Nat.succ_pos n) r, hc⟩
      · exact .inr ⟨y, mem_order_succ.2 (.inr ⟨c, hc, hy⟩), hxy⟩

/-- A node is below one node only, once. -/
structure Forest (children : α → List α) : Prop where
  nodup : ∀ r, (children r).Nodup
  unique : ∀ r q c, c ∈ children r → c ∈ children q → r = q

/-- Two children of a node have nothing below them in common. -/
theorem Forest.disjoint (hf : Forest children) (hr : Ranked children rank) {n m : Nat} {r c d : α} (hc : c ∈ children r)
    (hd : d ∈ children r) (hne : c ≠ d) : ∀ (k : Nat) {x : α}, rank r ≤ rank x + k → x ∈ order children n c →
      x ∉ order children m d
  | 0, x, hk, hx, _ => by
    have := rank_le_of_mem_order hr hx
    have := hr r c hc
    omega
  | k + 1, x, hk, hx, hx' => by
    have hrc := hr r c hc
    have hrd := hr r d hd
    rcases parent_of_mem_order hx with rfl | ⟨y, hy, hxy⟩
    · rcases parent_of_mem_order hx' with rfl | ⟨z, hz, hxz⟩
      · exact hne rfl
      · have := rank_le_of_mem_order hr hz
        rw [hf.unique z r x hxz hc] at this
        omega
    · rcases parent_of_mem_order hx' with rfl | ⟨z, hz, hxz⟩
      · have := rank_le_of_mem_order hr hy
        rw [hf.unique y r x hxy hd] at this
        omega
      · obtain rfl := hf.unique y z x hxy hxz
        have := hr y x hxy
        exact Forest.disjoint hf hr hc hd hne k (by omega) hy hz

/-- No node is visited twice. -/
theorem Forest.nodup_order (hf : Forest children) (hr : Ranked children rank) : ∀ (n : Nat) (r : α),
    (order children n r).Nodup
  | 0, _ => List.nodup_nil
  | n + 1, r => by
    rw [order, List.nodup_cons]
    refine ⟨fun h => ?_, ?_⟩
    · obtain ⟨c, hc, hx⟩ := List.mem_flatMap.1 h
      have := rank_le_of_mem_order hr hx
      have := hr r c (List.mem_reverse.1 hc)
      omega
    · refine List.nodup_flatMap.2 ⟨fun c _ => Forest.nodup_order hf hr n c, ?_⟩
      refine (List.nodup_reverse.2 (hf.nodup r)).pairwise_of_forall_ne (fun c hc d hd hne => ?_)
      intro x hx hx'
      exact hf.disjoint hr (List.mem_reverse.1 hc) (List.mem_reverse.1 hd) hne (rank r) (by omega) hx hx'

end Ranked

end StackWalk
