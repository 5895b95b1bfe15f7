import Tiovx.InAndOutNodes
/-!
# EdgeOrder — the edges that the parameters require

A parameter that writes leads to the bidirectional user of its reference and, where there is none, to the readers.  The
insertion of a bidirectional user drops whatever its writer led to before, and whatever led to its node: the edges that
come out are those required exactly where each insertion finds none that another parameter needs.
-/
namespace Tiovx

/-- Slot `a` writes what slot `b` uses, at another node. -/
def VxGraph.Feeds (G : VxGraph) (a b : Slot) : Prop :=
  a.dir ≠ .input ∧ G.checkIsRefMatch a.ref b.ref = true ∧ a.node ≠ b.node

instance (G : VxGraph) (a b : Slot) : Decidable (G.Feeds a b) := inferInstanceAs (Decidable (_ ∧ _))

/-- Slot `a` requires an edge to the node of slot `b`: a bidirectional user, or a reader where there is none. -/
def VxGraph.Leads (G : VxGraph) (a b : Slot) : Prop :=
  G.Feeds a b ∧ (b.dir = .bidirectional ∨ b.dir = .input ∧ ∀ c ∈ G.slots, G.Feeds a c → c.dir ≠ .bidirectional)

instance (G : VxGraph) (a b : Slot) : Decidable (G.Leads a b) := inferInstanceAs (Decidable (_ ∧ _))

/-- An edge, in both lists. -/
def Links.Edge (L : Links) (n m : Nat) : Prop := m ∈ L.outNodes n ∧ n ∈ L.inNodes m

/-- **What is promised of the edges**: both lists agree; a writer comes before the bidirectional user of its reference, and
that one, or else the writer, before the readers. -/
structure OrdersReferences (G : VxGraph) (L : Links) : Prop where
  consistent : ∀ n m, m ∈ L.outNodes n ↔ n ∈ L.inNodes m
  bidirectional : ∀ a ∈ G.slots, ∀ b ∈ G.slots, G.Feeds a b → b.dir = .bidirectional → L.Edge a.node b.node
  readers : ∀ a ∈ G.slots, ∀ o ∈ G.slots, G.Feeds a o → o.dir = .input →
    (L.Edge a.node o.node ∧ ∀ b ∈ G.slots, G.Feeds a b → b.dir ≠ .bidirectional) ∨
      ∃ b ∈ G.slots, G.Feeds a b ∧ b.dir = .bidirectional ∧ (o.node = b.node ∨ L.Edge b.node o.node)

/-- The lists when slot `a` was compared with the slots `Q`, after the slots `P` were done. -/
def linksAt (G : VxGraph) (P : List Slot) (a : Slot) (Q : List Slot) : Except Links Links := do
  let L ← P.foldlM (calcSlot G) {}
  let x ← Q.foldlM (compareSlot G a) (L, {})
  .ok x.1

/-- **No required edge is dropped**: at each moment the edges required by what was compared so far are in the lists. -/
def KeepsRequired (G : VxGraph) : Prop :=
  ∀ P a R Q T L, G.slots = P ++ a :: R → G.slots = Q ++ T → a.dir ≠ .input → linksAt G P a Q = .ok L →
    ∀ m ∈ G.slots, ∀ o ∈ G.slots, G.Leads m o → (m ∈ P ∨ m = a ∧ o ∈ Q) → L.Edge m.node o.node

/-- **Each insertion finds only what it may drop**, for an output slot `a` with a bidirectional user `b`: what the earlier
slots of the writer lead to is the node of `b`, and no earlier slot of another node leads there; all bidirectional users of
`a` are at one node; and the node of `b` leads to the readers of `a`. -/
structure VxGraph.Insertable (G : VxGraph) : Prop where
  before : ∀ a ∈ G.slots, ∀ b ∈ G.slots, G.Feeds a b → b.dir = .bidirectional →
    ∀ m ∈ G.slots, [m, a].Sublist G.slots → ∀ o ∈ G.slots, G.Leads m o → (m.node = a.node ↔ o.node = b.node)
  single : ∀ a ∈ G.slots, ∀ b ∈ G.slots, G.Feeds a b → b.dir = .bidirectional →
    ∀ o ∈ G.slots, G.Feeds a o → o.dir = .bidirectional → o.node = b.node
  readers : ∀ a ∈ G.slots, ∀ b ∈ G.slots, G.Feeds a b → b.dir = .bidirectional →
    ∀ o ∈ G.slots, G.Feeds a o → o.dir = .input → o.node ≠ b.node →
      ∃ b' ∈ G.slots, ∃ o' ∈ G.slots, b'.node = b.node ∧ o'.node = o.node ∧ G.Leads b' o'

section Scan

variable {G : VxGraph}

/-- The edges that what was compared so far requires. -/
def Made (G : VxGraph) (W : Slot → Slot → Prop) (n k : Nat) : Prop :=
  ∃ m ∈ G.slots, ∃ o ∈ G.slots, W m o ∧ G.Feeds m o ∧ m.node = n ∧ o.node = k ∧
    (o.dir = .bidirectional ∨ o.dir = .input ∧ ∀ c ∈ G.slots, W m c → G.Feeds m c → c.dir ≠ .bidirectional)

/-- The edges of the graph. -/
def VxGraph.Required (G : VxGraph) (n k : Nat) : Prop :=
  ∃ m ∈ G.slots, ∃ o ∈ G.slots, m.node = n ∧ o.node = k ∧ G.Leads m o

/-- What was compared when slot `a` was compared with the slots `Q`, after the slots `P`. -/
def Compared (P : List Slot) (a : Slot) (Q : List Slot) (m o : Slot) : Prop := m ∈ P ∨ m = a ∧ o ∈ Q

/-- The count of the bidirectional users is that of the users found. -/
def Counted (G : VxGraph) (a : Slot) (Q : List Slot) (A : Attached) : Prop :=
  A.biputs = 0 ↔ ∀ c ∈ Q, G.Feeds a c → c.dir ≠ .bidirectional

/-- The out-lists of a scan hold only edges that are made. -/
structure Scanned (G : VxGraph) (W : Slot → Slot → Prop) (L : Links) : Prop where
  out_made : ∀ n k, k ∈ L.outNodes n → Made G W n k
  nodup : ∀ k, (L.inNodes k).Nodup

/-- **The lists of a scan**, where each insertion finds only what it may drop: both hold the edges that are made, and the
in-lists besides only edges that are required. -/
structure Linked (G : VxGraph) (W : Slot → Slot → Prop) (L : Links) : Prop where
  made_out : ∀ n k, Made G W n k → k ∈ L.outNodes n
  made_in : ∀ n k, Made G W n k → n ∈ L.inNodes k
  in_made : ∀ n k, n ∈ L.inNodes k → Made G W n k ∨ G.Required n k

variable {W W' : Slot → Slot → Prop} {P Q : List Slot} {a b : Slot} {n k : Nat}

theorem Made.congr (h : ∀ m ∈ G.slots, ∀ o ∈ G.slots, m.dir ≠ .input → (W m o ↔ W' m o)) (hm : Made G W n k) :
    Made G W' n k := by
  obtain ⟨m, hm, o, ho, hw, hf, hn, hk, hd⟩ := hm
  refine ⟨m, hm, o, ho, (h m hm o ho hf.1).1 hw, hf, hn, hk, ?_⟩
  rcases hd with hd | ⟨hd, hc⟩
  · exact .inl hd
  · exact .inr ⟨hd, fun c hcs hcw hcf => hc c hcs ((h m hm c hcs hf.1).2 hcw) hcf⟩

theorem compared_snoc {m o : Slot} : Compared P a (Q ++ [b]) m o ↔ Compared P a Q m o ∨ m = a ∧ o = b := by
  unfold Compared
  rw [List.mem_append, List.mem_singleton]
  tauto

/-- A comparison that finds no bidirectional user makes at most the edge to a reader. -/
theorem made_snoc (ha : a ∈ G.slots) (hb : b ∈ G.slots) (h : G.Feeds a b → b.dir ≠ .bidirectional) :
    Made G (Compared P a (Q ++ [b])) n k ↔ Made G (Compared P a Q) n k ∨
      a.node = n ∧ b.node = k ∧ G.Feeds a b ∧ b.dir = .input ∧
        ∀ c ∈ G.slots, Compared P a Q a c → G.Feeds a c → c.dir ≠ .bidirectional := by
  constructor
  · rintro ⟨m, hm, o, ho, hw, hf, hn, hk, hd⟩
    have hcond : (∀ c ∈ G.slots, Compared P a (Q ++ [b]) m c → G.Feeds m c → c.dir ≠ .bidirectional) →
        ∀ c ∈ G.slots, Compared P a Q m c → G.Feeds m c → c.dir ≠ .bidirectional :=
      fun hc c hcs hcw => hc c hcs (compared_snoc.2 (.inl hcw))
    rcases compared_snoc.1 hw with hw | ⟨rfl, rfl⟩
    · refine .inl ⟨m, hm, o, ho, hw, hf, hn, hk, ?_⟩
      exact hd.imp_right (fun hd => ⟨hd.1, hcond hd.2⟩)
    · rcases hd with hd | ⟨hd, hc⟩
      · exact absurd hd (h hf)
      · exact .inr ⟨hn, hk, hf, hd, hcond hc⟩
  · have hcond : ∀ m, (∀ c ∈ G.slots, Compared P a Q m c → G.Feeds m c → c.dir ≠ .bidirectional) →
        ∀ c ∈ G.slots, Compared P a (Q ++ [b]) m c → G.Feeds m c → c.dir ≠ .bidirectional := by
      intro m hc c hcs hcw hcf
      rcases compared_snoc.1 hcw with hcw | ⟨rfl, rfl⟩
      · exact hc c hcs hcw hcf
      · exact h hcf
    rintro (⟨m, hm, o, ho, hw, hf, hn, hk, hd⟩ | ⟨hn, hk, hf, hd, hc⟩)
    · refine ⟨m, hm, o, ho, compared_snoc.2 (.inl hw), hf, hn, hk, ?_⟩
      exact hd.imp_right (fun hd => ⟨hd.1, hcond m hd.2⟩)
    · exact ⟨a, ha, b, hb, compared_snoc.2 (.inr ⟨rfl, rfl⟩), hf, hn, hk, .inr ⟨hd, hcond a hc⟩⟩

/-- A bidirectional user changes nothing at the other nodes. -/
theorem made_snoc_of_ne (hne : n ≠ a.node) :
    Made G (Compared P a (Q ++ [b])) n k ↔ Made G (Compared P a Q) n k := by
  have hiff : ∀ m o : Slot, m.node = n → (Compared P a (Q ++ [b]) m o ↔ Compared P a Q m o) := by
    intro m o hn
    rw [compared_snoc]
    refine ⟨?_, .inl⟩
    rintro (h | ⟨rfl, -⟩)
    · exact h
    · exact absurd hn.symm hne
  constructor
  · rintro ⟨m, hm, o, ho, hw, hf, hn, hk, hd⟩
    refine ⟨m, hm, o, ho, (hiff m o hn).1 hw, hf, hn, hk, hd.imp_right (fun hd => ⟨hd.1, fun c hcs hcw => ?_⟩)⟩
    exact hd.2 c hcs ((hiff m c hn).2 hcw)
  · rintro ⟨m, hm, o, ho, hw, hf, hn, hk, hd⟩
    refine ⟨m, hm, o, ho, (hiff m o hn).2 hw, hf, hn, hk, hd.imp_right (fun hd => ⟨hd.1, fun c hcs hcw => ?_⟩)⟩
    exact hd.2 c hcs ((hiff m c hn).1 hcw)

theorem made_bidi (ha : a ∈ G.slots) (hb : b ∈ G.slots) (hf : G.Feeds a b) (hd : b.dir = .bidirectional) :
    Made G (Compared P a (Q ++ [b])) a.node b.node :=
  ⟨a, ha, b, hb, compared_snoc.2 (.inr ⟨rfl, rfl⟩), hf, rfl, rfl, .inl hd⟩

/-- The bidirectional user found is the only out-node left, where the insertion drops nothing that is required. -/
theorem made_bidi_iff (hI : G.Insertable) (ha : a ∈ G.slots) (hb : b ∈ G.slots) (hf : G.Feeds a b)
    (hd : b.dir = .bidirectional) (hP : ∀ m ∈ P, [m, a].Sublist G.slots) :
    Made G (Compared P a (Q ++ [b])) a.node k ↔ k = b.node := by
  constructor
  · rintro ⟨m, hm, o, ho, hw, hfo, hn, rfl, hdo⟩
    rcases hw with hmP | ⟨rfl, -⟩
    · -- an earlier slot of the same node
      have hl : G.Leads m o := ⟨hfo, hdo.imp_right (fun h => ⟨h.1, fun c hcs => h.2 c hcs (.inl hmP)⟩)⟩
      exact (hI.before a ha b hb hf hd m hm (hP m hmP) o ho hl).1 hn
    · rcases hdo with hdo | ⟨-, hc⟩
      · exact hI.single m ha b hb hf hd o ho hfo hdo
      · exact absurd hd (hc b hb (compared_snoc.2 (.inr ⟨rfl, rfl⟩)) hf)
  · rintro rfl
    exact made_bidi ha hb hf hd

/-- What is required leads to what is made, once all slots were compared. -/
theorem required_of_made {P : List Slot} (h : Made G (fun m _ => m ∈ P) n k) : G.Required n k := by
  obtain ⟨m, hm, o, ho, hw, hf, hn, hk, hd⟩ := h
  exact ⟨m, hm, o, ho, hn, hk, hf, hd.imp_right (fun hd => ⟨hd.1, fun c hcs => hd.2 c hcs hw⟩)⟩

theorem made_of_leads {m o : Slot} (hm : m ∈ G.slots) (ho : o ∈ G.slots) (hw : W m o) (h : G.Leads m o) :
    Made G W m.node o.node :=
  ⟨m, hm, o, ho, hw, h.1, rfl, rfl, h.2.imp_right (fun hd => ⟨hd.1, fun c hcs _ => hd.2 c hcs⟩)⟩

section Step

variable {x x' : Links × Attached}

theorem counted_nil (G : VxGraph) (a : Slot) : Counted G a [] {} := by
  constructor
  · exact fun _ c hc => by cases hc
  · exact fun _ => rfl

theorem Counted.snoc_iff : (∀ c ∈ Q ++ [b], G.Feeds a c → c.dir ≠ .bidirectional) ↔
    (∀ c ∈ Q, G.Feeds a c → c.dir ≠ .bidirectional) ∧ (G.Feeds a b → b.dir ≠ .bidirectional) := by
  constructor
  · intro h
    exact ⟨fun c hc => h c (List.mem_append_left _ hc), h b (List.mem_append_right _ (List.mem_singleton_self b))⟩
  · rintro ⟨hQ, hb⟩ c hc
    rcases List.mem_append.1 hc with hc | hc
    · exact hQ c hc
    · rw [List.mem_singleton.1 hc]
      exact hb

theorem Counted.compare (hC : Counted G a Q x.2) (ha : a.dir ≠ .input) (h : compareSlot G a x b = .ok x') :
    Counted G a (Q ++ [b]) x'.2 := by
  unfold Counted at hC ⊢
  rw [Counted.snoc_iff]
  rcases compareSlot_ok h with ⟨hf, rfl⟩ | ⟨hm, hn, -, hcase⟩
  · rw [hC]
    exact ⟨fun h => ⟨h, fun hF => absurd hF.2 hf⟩, And.left⟩
  · rcases hcase with ⟨hd, h0, -, h0'⟩ | ⟨hd, -, -, he⟩ | ⟨hd, -, h0⟩ | ⟨hd, -, he⟩
    · exact ⟨fun _ => ⟨hC.1 h0, fun _ => by rw [hd]; exact fun h => by cases h⟩, fun _ => h0'⟩
    · rw [he, hC]
      exact ⟨fun h => ⟨h, fun _ => by rw [hd]; exact fun h => by cases h⟩, And.left⟩
    · exact ⟨fun h => absurd h h0, fun h => absurd hd (h.2 ⟨ha, hm, hn⟩)⟩
    · rw [he, hC]
      exact ⟨fun h => ⟨h, fun _ => by rw [hd]; exact fun h => by cases h⟩, And.left⟩

/-- What was compared with a slot that comes now is what the loop has passed. -/
theorem compared_self {c : Slot} (haP : a ∉ P) : Compared P a Q a c ↔ c ∈ Q := by
  unfold Compared
  constructor
  · rintro (h | ⟨-, h⟩)
    · exact absurd h haP
    · exact h
  · exact fun h => .inr ⟨rfl, h⟩

/-- An edge is made to a reader where no bidirectional user was found. -/
theorem made_reader (ha : a ∈ G.slots) (hb : b ∈ G.slots) (hQ : ∀ c ∈ Q, c ∈ G.slots) (haP : a ∉ P)
    (hC : Counted G a Q x.2) (hF : G.Feeds a b) (hd : b.dir = .input) :
    Made G (Compared P a (Q ++ [b])) n k ↔
      Made G (Compared P a Q) n k ∨ x.2.biputs = 0 ∧ n = a.node ∧ k = b.node := by
  have hcount : (∀ c ∈ G.slots, Compared P a Q a c → G.Feeds a c → c.dir ≠ .bidirectional) ↔ x.2.biputs = 0 := by
    unfold Counted at hC
    rw [hC]
    exact ⟨fun h c hc => h c (hQ c hc) ((compared_self haP).2 hc), fun h c _ hc => h c ((compared_self haP).1 hc)⟩
  rw [made_snoc ha hb (fun _ => by rw [hd]; exact fun h => by cases h), hcount]
  refine or_congr_right ⟨?_, ?_⟩
  · rintro ⟨rfl, rfl, -, -, h0⟩
    exact ⟨h0, rfl, rfl⟩
  · rintro ⟨h0, rfl, rfl⟩
    exact ⟨rfl, rfl, hF, hd, h0⟩

/-- A comparison with a slot that is no reader and no bidirectional user makes no edge. -/
theorem made_none (ha : a ∈ G.slots) (hb : b ∈ G.slots) (h : G.Feeds a b → b.dir = .output) :
    Made G (Compared P a (Q ++ [b])) n k ↔ Made G (Compared P a Q) n k := by
  rw [made_snoc ha hb (fun hF => by rw [h hF]; exact fun h => by cases h)]
  refine ⟨?_, .inl⟩
  rintro (h' | ⟨-, -, hF, hd, -⟩)
  · exact h'
  · rw [h hF] at hd
    cases hd

theorem Scanned.compare (hS : Scanned G (Compared P a Q) x.1) (hC : Counted G a Q x.2) (ha : a ∈ G.slots)
    (hb : b ∈ G.slots) (hQ : ∀ c ∈ Q, c ∈ G.slots) (haP : a ∉ P) (had : a.dir ≠ .input)
    (h : compareSlot G a x b = .ok x') : Scanned G (Compared P a (Q ++ [b])) x'.1 := by
  rcases compareSlot_ok h with ⟨hf, rfl⟩ | ⟨hm, hn, -, hcase⟩
  · exact ⟨fun n k hk => (made_none ha hb (fun hF => absurd hF.2 hf)).2 (hS.out_made n k hk), hS.nodup⟩
  · have hF : G.Feeds a b := ⟨had, hm, hn⟩
    rcases hcase with ⟨hd, h0, he, -⟩ | ⟨hd, -, he, -⟩ | ⟨hd, he, -⟩ | ⟨hd, he, -⟩
    · obtain ⟨ho, -, hnd⟩ := addEdge_ok he
      refine ⟨fun n k hk => (made_reader ha hb hQ haP hC hF hd).2 ?_, hnd hS.nodup⟩
      rcases (ho n k).1 hk with hk | ⟨rfl, rfl⟩
      · exact .inl (hS.out_made n k hk)
      · exact .inr ⟨h0, rfl, rfl⟩
    · rw [he]
      exact ⟨fun n k hk => (made_reader ha hb hQ haP hC hF hd).2 (.inl (hS.out_made n k hk)), hS.nodup⟩
    · obtain ⟨ho, -, hnd, -⟩ := insertBidi_ok hn hS.nodup he
      refine ⟨fun n k hk => ?_, hnd⟩
      rw [ho] at hk
      split at hk
      · rename_i hna
        rw [hna, List.mem_singleton.1 hk]
        exact made_bidi ha hb hF hd
      · rename_i hna
        exact (made_snoc_of_ne hna).2 (hS.out_made n k hk)
    · rw [he]
      exact ⟨fun n k hk => (made_none ha hb (fun _ => hd)).2 (hS.out_made n k hk), hS.nodup⟩

/-- **A comparison keeps both lists**, where each insertion finds only what it may drop. -/
theorem Linked.compare (hI : G.Insertable) (hL : Linked G (Compared P a Q) x.1) (hS : Scanned G (Compared P a Q) x.1)
    (hC : Counted G a Q x.2) (ha : a ∈ G.slots) (hb : b ∈ G.slots) (hQ : ∀ c ∈ Q, c ∈ G.slots) (haP : a ∉ P)
    (had : a.dir ≠ .input) (hP : ∀ m ∈ P, [m, a].Sublist G.slots) (h : compareSlot G a x b = .ok x') :
    Linked G (Compared P a (Q ++ [b])) x'.1 := by
  rcases compareSlot_ok h with ⟨hf, rfl⟩ | ⟨hm, hn, -, hcase⟩
  · have hsame := @made_none G P Q a b
    refine ⟨fun n k hk => hL.made_out n k ?_, fun n k hk => hL.made_in n k ?_, fun n k hk => ?_⟩
    · exact (hsame ha hb (fun hF => absurd hF.2 hf)).1 hk
    · exact (hsame ha hb (fun hF => absurd hF.2 hf)).1 hk
    · exact (hL.in_made n k hk).imp_left (hsame ha hb (fun hF => absurd hF.2 hf)).2
  · have hF : G.Feeds a b := ⟨had, hm, hn⟩
    rcases hcase with ⟨hd, h0, he, -⟩ | ⟨hd, h0, he, -⟩ | ⟨hd, he, -⟩ | ⟨hd, he, -⟩
    · obtain ⟨ho, hi, -⟩ := addEdge_ok he
      refine ⟨fun n k hk => (ho n k).2 ?_, fun n k hk => (hi n k).2 ?_, fun n k hk => ?_⟩
      · rcases (made_reader ha hb hQ haP hC hF hd).1 hk with hk | ⟨-, hnk⟩
        · exact .inl (hL.made_out n k hk)
        · exact .inr hnk
      · rcases (made_reader ha hb hQ haP hC hF hd).1 hk with hk | ⟨-, hnk⟩
        · exact .inl (hL.made_in n k hk)
        · exact .inr hnk
      · rcases (hi n k).1 hk with hk | ⟨hna, hkb⟩
        · exact (hL.in_made n k hk).imp_left (fun h => (made_reader ha hb hQ haP hC hF hd).2 (.inl h))
        · exact .inl ((made_reader ha hb hQ haP hC hF hd).2 (.inr ⟨h0, hna, hkb⟩))
    · rw [he]
      have hsame : ∀ n k, Made G (Compared P a (Q ++ [b])) n k ↔ Made G (Compared P a Q) n k := fun n k => by
        rw [made_reader ha hb hQ haP hC hF hd]
        simp [h0]
      refine ⟨fun n k hk => hL.made_out n k ((hsame n k).1 hk), fun n k hk => hL.made_in n k ((hsame n k).1 hk), ?_⟩
      exact fun n k hk => (hL.in_made n k hk).imp_left (hsame n k).2
    · obtain ⟨ho, hib, -, hi⟩ := insertBidi_ok hn hS.nodup he
      -- what led to the node of the user before is an earlier slot of the writer
      have hfrom : ∀ n, Made G (Compared P a (Q ++ [b])) n b.node → n = a.node := by
        rintro n ⟨m, hms, o, hos, hw, hfo, rfl, hob, hdo⟩
        rcases hw with hmP | ⟨rfl, -⟩
        · have hl : G.Leads m o := ⟨hfo, hdo.imp_right (fun h => ⟨h.1, fun c hcs => h.2 c hcs (.inl hmP)⟩)⟩
          exact (hI.before a ha b hb hF hd m hms (hP m hmP) o hos hl).2 hob
        · rfl
      refine ⟨fun n k hk => ?_, fun n k hk => ?_, fun n k hk => ?_⟩
      · rw [ho]
        split
        · rename_i hna
          rw [hna, made_bidi_iff hI ha hb hF hd hP] at hk
          exact List.mem_singleton.2 hk
        · rename_i hna
          exact hL.made_out n k ((made_snoc_of_ne hna).1 hk)
      · by_cases hkb : k = b.node
        · subst hkb
          rw [hib, hfrom n hk]
          exact List.mem_singleton_self _
        · have hna : n ≠ a.node := by
            rintro rfl
            exact hkb ((made_bidi_iff hI ha hb hF hd hP).1 hk)
          exact (hi n k hkb).2 (.inl ⟨hL.made_in n k ((made_snoc_of_ne hna).1 hk), fun _ => hna⟩)
      · by_cases hkb : k = b.node
        · subst hkb
          rw [hib, List.mem_singleton] at hk
          rw [hk]
          exact .inl (made_bidi ha hb hF hd)
        · rcases (hi n k hkb).1 hk with ⟨hk, hout⟩ | ⟨rfl, -, hout⟩
          · by_cases hna : n = a.node
            · subst hna
              -- a node that the writer led to is not, any more
              refine .inr ((hL.in_made _ k hk).resolve_left (fun hmade => ?_))
              exact hout (hL.made_out _ k hmade) rfl
            · exact (hL.in_made n k hk).imp_left (made_snoc_of_ne hna).2
          · -- an out-node of the writer reads what the user leaves
            obtain ⟨m, hms, o, hos, hw, hfo, hma, rfl, hdo⟩ := hS.out_made a.node k hout
            rcases hw with hmP | ⟨rfl, hoQ⟩
            · have hl : G.Leads m o := ⟨hfo, hdo.imp_right (fun h => ⟨h.1, fun c hcs => h.2 c hcs (.inl hmP)⟩)⟩
              exact absurd ((hI.before a ha b hb hF hd m hms (hP m hmP) o hos hl).1 hma) hkb
            · rcases hdo with hdo | ⟨hdo, -⟩
              · exact absurd (hI.single m ha b hb hF hd o hos hfo hdo) hkb
              · obtain ⟨b', hb', o', ho', hbn, hon, hl⟩ := hI.readers m ha b hb hF hd o hos hfo hdo hkb
                exact .inr ⟨b', hb', o', ho', hbn, hon, hl⟩
    · rw [he]
      have hsame := @made_none G P Q a b
      refine ⟨fun n k hk => hL.made_out n k ?_, fun n k hk => hL.made_in n k ?_, fun n k hk => ?_⟩
      · exact (hsame ha hb (fun _ => hd)).1 hk
      · exact (hsame ha hb (fun _ => hd)).1 hk
      · exact (hL.in_made n k hk).imp_left (hsame ha hb (fun _ => hd)).2

end Step

section Run

variable {L : Links} {R T : List Slot} {x : Links × Attached}

theorem Scanned.congr (h : ∀ m ∈ G.slots, ∀ o ∈ G.slots, m.dir ≠ .input → (W m o ↔ W' m o)) (hS : Scanned G W L) :
    Scanned G W' L :=
  ⟨fun n k hk => (hS.out_made n k hk).congr h, hS.nodup⟩

theorem Linked.congr (h : ∀ m ∈ G.slots, ∀ o ∈ G.slots, m.dir ≠ .input → (W m o ↔ W' m o)) (hL : Linked G W L) :
    Linked G W' L where
  made_out n k hk := hL.made_out n k (hk.congr (fun m hm o ho hd => (h m hm o ho hd).symm))
  made_in n k hk := hL.made_in n k (hk.congr (fun m hm o ho hd => (h m hm o ho hd).symm))
  in_made n k hk := (hL.in_made n k hk).imp_left (fun hm => hm.congr h)

/-- What holds when the slots `P` are done. -/
def Done (G : VxGraph) (P : List Slot) (L : Links) : Prop :=
  Scanned G (fun m _ => m ∈ P) L ∧ (G.Insertable → Linked G (fun m _ => m ∈ P) L)

/-- What holds when slot `a` was compared with the slots `Q`, after the slots `P`. -/
def Within (G : VxGraph) (P : List Slot) (a : Slot) (Q : List Slot) (L : Links) : Prop :=
  Scanned G (Compared P a Q) L ∧ (G.Insertable → Linked G (Compared P a Q) L)

theorem notMem_of_slots (h : G.slots = P ++ a :: R) : a ∉ P := by
  have hnd := G.nodup_slots
  rw [h, List.nodup_append] at hnd
  exact fun ha => hnd.2.2 a ha a List.mem_cons_self rfl

theorem sublist_of_slots (h : G.slots = P ++ a :: R) (m : Slot) (hm : m ∈ P) : [m, a].Sublist G.slots := by
  rw [h]
  exact (List.singleton_sublist.2 hm).append (List.singleton_sublist.2 List.mem_cons_self)

theorem Done.within (hD : Done G P L) (hP : G.slots = P ++ a :: R) (had : a.dir ≠ .input) (hQ : G.slots = Q ++ T)
    (h : Q.foldlM (compareSlot G a) (L, {}) = .ok x) : Within G P a Q x.1 := by
  have hmem : ∀ c ∈ Q, c ∈ G.slots := fun c hc => by rw [hQ]; exact List.mem_append_left _ hc
  have ha : a ∈ G.slots := by rw [hP]; exact List.mem_append_right _ List.mem_cons_self
  have hnil : ∀ m ∈ G.slots, ∀ o ∈ G.slots, m.dir ≠ .input → (m ∈ P ↔ Compared P a [] m o) := by
    intro m _ o _ _
    simp [Compared]
  have hrun : Within G P a Q x.1 ∧ Counted G a Q x.2 := by
    refine FoldExcept.inv (I := fun Q x => Within G P a Q x.1 ∧ Counted G a Q x.2) ?_ ?_ h
    · exact ⟨⟨hD.1.congr hnil, fun hI => (hD.2 hI).congr hnil⟩, counted_nil G a⟩
    · rintro done b left y y' hl ⟨⟨hS, hL⟩, hC⟩ hc
      have hdone : ∀ c ∈ done, c ∈ G.slots := fun c hc => hmem c (by rw [hl]; exact List.mem_append_left _ hc)
      have hb : b ∈ G.slots := hmem b (by rw [hl]; exact List.mem_append_right _ List.mem_cons_self)
      have haP := notMem_of_slots hP
      refine ⟨⟨hS.compare hC ha hb hdone haP had hc, fun hI => ?_⟩, hC.compare had hc⟩
      exact (hL hI).compare hI hS hC ha hb hdone haP had (sublist_of_slots hP) hc
  exact hrun.1

/-- **The lists when the slots `P` are done.** -/
theorem done_of_fold (hP : G.slots = P ++ R) (h : P.foldlM (calcSlot G) {} = .ok L) : Done G P L := by
  refine FoldExcept.inv (I := Done G) ?_ ?_ h
  · have hnone : ∀ n k, ¬ Made G (fun m _ => m ∈ []) n k := by
      rintro n k ⟨m, -, o, -, hw, -⟩
      cases hw
    have hnil : ∀ n : Nat, n ∉ ([] : List Nat) := fun n => List.not_mem_nil
    refine ⟨⟨fun n k hk => absurd hk (hnil k), fun k => List.nodup_nil⟩, fun _ => ⟨fun n k hk => absurd hk (hnone n k), ?_, ?_⟩⟩
    · exact fun n k hk => absurd hk (hnone n k)
    · exact fun n k hk => absurd hk (hnil n)
  · intro done a left L L' hl hD hc
    have hslots : G.slots = done ++ a :: (left ++ R) := by rw [hP, hl, List.append_assoc, List.cons_append]
    have hmem : ∀ m : Slot, m ∈ done ++ [a] ↔ m ∈ done ∨ m = a := by simp
    rcases calcSlot_ok hc with ⟨had, rfl⟩ | ⟨had, x, hx, rfl⟩
    · have hiff : ∀ m ∈ G.slots, ∀ o ∈ G.slots, m.dir ≠ .input → (m ∈ done ↔ m ∈ done ++ [a]) := by
        intro m _ _ _ hm
        rw [hmem]
        refine ⟨.inl, fun h => h.resolve_right ?_⟩
        rintro rfl
        exact hm had
      exact ⟨hD.1.congr hiff, fun hI => (hD.2 hI).congr hiff⟩
    · have hiff : ∀ m ∈ G.slots, ∀ o ∈ G.slots, m.dir ≠ .input → (Compared done a G.slots m o ↔ m ∈ done ++ [a]) := by
        intro m _ o ho _
        rw [hmem]
        exact or_congr_right (and_iff_left ho)
      obtain ⟨hS, hL⟩ := hD.within hslots had (List.append_nil _).symm hx
      exact ⟨hS.congr hiff, fun hI => (hL hI).congr hiff⟩

/-- **The lists at each moment.** -/
theorem within_of_linksAt (hP : G.slots = P ++ a :: R) (hQ : G.slots = Q ++ T) (had : a.dir ≠ .input)
    (h : linksAt G P a Q = .ok L) : Within G P a Q L := by
  obtain ⟨L₁, h₁, h₂⟩ := FoldExcept.bind_eq_ok.1 h
  obtain ⟨x, hx, he⟩ := FoldExcept.bind_eq_ok.1 h₂
  cases he
  exact (done_of_fold hP h₁).within hP had hQ hx

/-- The moment when the bidirectional user `b` of output slot `a` was inserted. -/
theorem linksAt_bidi (h : G.slots.foldlM (calcSlot G) {} = .ok L) (hP : G.slots = P ++ a :: R)
    (hQ : G.slots = Q ++ b :: T) (hF : G.Feeds a b) (hd : b.dir = .bidirectional) :
    ∃ L', linksAt G P a (Q ++ [b]) = .ok L' ∧ L'.outNodes a.node = [b.node] ∧ L'.inNodes b.node = [a.node] := by
  rw [hP] at h
  obtain ⟨L₁, h₁, h⟩ := FoldExcept.append_eq_ok.1 h
  obtain ⟨L₂, h₂, -⟩ := FoldExcept.cons_eq_ok.1 h
  rcases calcSlot_ok h₂ with ⟨ha, -⟩ | ⟨ha, x, hx, -⟩
  · exact absurd ha hF.1
  · have hx' := hx
    rw [hQ] at hx'
    obtain ⟨y, hy, hx'⟩ := FoldExcept.append_eq_ok.1 hx'
    obtain ⟨z, hz, -⟩ := FoldExcept.cons_eq_ok.1 hx'
    have hW := (done_of_fold hP h₁).within hP ha hQ hy
    have hat : linksAt G P a (Q ++ [b]) = .ok z.1 := by
      refine FoldExcept.bind_eq_ok.2 ⟨L₁, h₁, FoldExcept.bind_eq_ok.2 ⟨z, ?_, rfl⟩⟩
      exact FoldExcept.append_eq_ok.2 ⟨y, hy, FoldExcept.singleton_eq_ok.2 hz⟩
    refine ⟨z.1, hat, ?_⟩
    rcases compareSlot_ok hz with ⟨hf, -⟩ | ⟨-, hn, -, hcase⟩
    · exact absurd hF.2 hf
    · rcases hcase with ⟨hi, -⟩ | ⟨hi, -⟩ | ⟨-, hi, -⟩ | ⟨hi, -⟩
      · rw [hd] at hi
        cases hi
      · rw [hd] at hi
        cases hi
      · obtain ⟨ho, hin, -⟩ := insertBidi_ok hn hW.1.nodup hi
        exact ⟨by rw [ho, if_pos rfl], hin⟩
      · rw [hd] at hi
        cases hi

end Run

/-- Where each insertion finds only what it may drop, the edges are those that the parameters require. -/
theorem orders_of_insertable {L : Links} (hI : G.Insertable) (h : G.slots.foldlM (calcSlot G) {} = .ok L) :
    OrdersReferences G L ∧ KeepsRequired G := by
  obtain ⟨hS, hL⟩ := done_of_fold (List.append_nil _).symm h
  have hout : ∀ n k, k ∈ L.outNodes n ↔ G.Required n k := by
    refine fun n k => ⟨fun hk => required_of_made (hS.out_made n k hk), ?_⟩
    rintro ⟨m, hm, o, ho, rfl, rfl, hl⟩
    exact (hL hI).made_out _ _ (made_of_leads hm ho hm hl)
  have hin : ∀ n k, n ∈ L.inNodes k ↔ G.Required n k := by
    refine fun n k => ⟨fun hk => ?_, ?_⟩
    · rcases (hL hI).in_made n k hk with hm | hr
      · exact required_of_made hm
      · exact hr
    · rintro ⟨m, hm, o, ho, rfl, rfl, hl⟩
      exact (hL hI).made_in _ _ (made_of_leads hm ho hm hl)
  have hedge : ∀ n k, G.Required n k → L.Edge n k := fun n k hr => ⟨(hout n k).2 hr, (hin n k).2 hr⟩
  refine ⟨⟨fun n m => by rw [hout, hin], fun a ha b hb hF hd => ?_, fun a ha o ho hF hd => ?_⟩, ?_⟩
  · exact hedge _ _ ⟨a, ha, b, hb, rfl, rfl, hF, .inl hd⟩
  · by_cases hnone : ∀ b ∈ G.slots, G.Feeds a b → b.dir ≠ .bidirectional
    · exact .inl ⟨hedge _ _ ⟨a, ha, o, ho, rfl, rfl, hF, .inr ⟨hd, hnone⟩⟩, hnone⟩
    · simp only [not_forall, not_not] at hnone
      obtain ⟨b, hb, hFb, hdb⟩ := hnone
      refine .inr ⟨b, hb, hFb, hdb, ?_⟩
      by_cases hob : o.node = b.node
      · exact .inl hob
      · obtain ⟨b', hb', o', ho', hbn, hon, hl⟩ := hI.readers a ha b hb hFb hdb o ho hF hd hob
        exact .inr (hedge _ _ ⟨b', hb', o', ho', hbn, hon, hl⟩)
  · intro P a R Q T L' hP hQ had hat m hm o ho hl hw
    obtain ⟨-, hL'⟩ := within_of_linksAt hP hQ had hat
    have hmade := made_of_leads hm ho (W := Compared P a Q) hw hl
    exact ⟨(hL' hI).made_out _ _ hmade, (hL' hI).made_in _ _ hmade⟩

/-- Where the edges are those that the parameters require, each insertion finds only what it may drop. -/
theorem insertable_of_orders {L : Links} (hO : OrdersReferences G L) (hK : KeepsRequired G)
    (h : G.slots.foldlM (calcSlot G) {} = .ok L) : G.Insertable := by
  have hsingle : ∀ a ∈ G.slots, ∀ b ∈ G.slots, G.Feeds a b → b.dir = .bidirectional →
      ∀ o ∈ G.slots, G.Feeds a o → o.dir = .bidirectional → o.node = b.node := by
    intro a ha b hb hF hd o ho hFo hdo
    obtain ⟨P, R, hP⟩ := List.append_of_mem ha
    obtain ⟨Q, T, hQ⟩ := List.append_of_mem hb
    have hmem := ho
    rw [hQ, List.mem_append, List.mem_cons] at hmem
    rcases hmem with hoQ | rfl | hoT
    · -- the later one is inserted when the earlier one is there
      obtain ⟨L', hat, hout, -⟩ := linksAt_bidi h hP hQ hF hd
      have hQ' : G.slots = (Q ++ [b]) ++ T := by rw [hQ, List.append_assoc, List.singleton_append]
      have hedge := hK P a R (Q ++ [b]) T L' hP hQ' hF.1 hat a ha o ho ⟨hFo, .inl hdo⟩
        (.inr ⟨rfl, List.mem_append_left _ hoQ⟩)
      rw [Links.Edge, hout, List.mem_singleton] at hedge
      exact hedge.1
    · rfl
    · obtain ⟨T₁, T₂, rfl⟩ := List.append_of_mem hoT
      have hQ₁ : G.slots = (Q ++ b :: T₁) ++ o :: T₂ := by rw [hQ, List.append_assoc, List.cons_append]
      obtain ⟨L', hat, hout, -⟩ := linksAt_bidi h hP hQ₁ hFo hdo
      have hQ' : G.slots = ((Q ++ b :: T₁) ++ [o]) ++ T₂ := by
        rw [hQ₁, List.append_assoc (Q ++ b :: T₁), List.singleton_append]
      have hedge := hK P a R ((Q ++ b :: T₁) ++ [o]) T₂ L' hP hQ' hF.1 hat a ha b hb ⟨hF, .inl hd⟩
        (.inr ⟨rfl, List.mem_append_left _ (List.mem_append_right _ List.mem_cons_self)⟩)
      rw [Links.Edge, hout, List.mem_singleton] at hedge
      exact hedge.1.symm
  refine ⟨fun a ha b hb hF hd m hm hma o ho hl => ?_, hsingle, fun a ha b hb hF hd o ho hFo hdo hne => ?_⟩
  · obtain ⟨r₁, r₂, hr, hm₁, ha₂⟩ := List.cons_sublist_iff.1 hma
    obtain ⟨s, t, rfl⟩ := List.append_of_mem (List.singleton_sublist.1 ha₂)
    have hP : G.slots = (r₁ ++ s) ++ a :: t := by rw [hr, List.append_assoc]
    obtain ⟨Q, T, hQ⟩ := List.append_of_mem hb
    obtain ⟨L', hat, hout, hin⟩ := linksAt_bidi h hP hQ hF hd
    have hQ' : G.slots = (Q ++ [b]) ++ T := by rw [hQ, List.append_assoc, List.singleton_append]
    have hedge := hK (r₁ ++ s) a t (Q ++ [b]) T L' hP hQ' hF.1 hat m hm o ho hl (.inl (List.mem_append_left _ hm₁))
    constructor
    · intro hn
      rw [Links.Edge, hn, hout, List.mem_singleton] at hedge
      exact hedge.1
    · intro hn
      rw [Links.Edge, hn, hin, List.mem_singleton] at hedge
      exact hedge.2
  · rcases hO.readers a ha o ho hFo hdo with ⟨-, hnone⟩ | ⟨c, hc, hFc, hdc, hoc⟩
    · exact absurd hd (hnone b hb hF)
    · rw [hsingle a ha b hb hF hd c hc hFc hdc] at hoc
      rcases hoc with hoc | hoc
      · exact absurd hoc hne
      · obtain ⟨hS, -⟩ := done_of_fold (List.append_nil _).symm h
        obtain ⟨b', hb', o', ho', hbn, hon, hl⟩ := required_of_made (hS.out_made _ _ hoc.1)
        exact ⟨b', hb', o', ho', hbn, hon, hl⟩

/-- **The edges are those the parameters require**, in both lists and at each moment, exactly where each insertion of a
bidirectional user finds only what it may drop. -/
theorem orders_iff_insertable {L : Links} (h : ownGraphCalcInAndOutNodes G {} = .ok L) :
    OrdersReferences G L ∧ KeepsRequired G ↔ G.Insertable :=
  ⟨fun ho => insertable_of_orders ho.1 ho.2 (calcInAndOutNodes_ok h),
    fun hI => orders_of_insertable hI (calcInAndOutNodes_ok h)⟩

end Scan

section Examples

/-- Node 0 writes references 0 and 1; node 1 reads reference 0, and node 2 uses reference 1 as a bidirectional parameter. -/
def twoOutputs : VxGraph where
  ref := fun _ => {}
  node := fun n =>
    match n with
    | 0 => { prms := [{ dir := .output, ref := some 0 }, { dir := .output, ref := some 1 }] }
    | 1 => { prms := [{ dir := .input, ref := some 0 }, { dir := .output, ref := some 2 }] }
    | _ => { prms := [{ dir := .bidirectional, ref := some 1 }] }
  nodes := [0, 1, 2]
  nodup := by decide

/-- The edge to the reader is dropped when the bidirectional user of the other output is inserted, and the reader's in-list
names a node that does not lead to it. -/
theorem twoOutputs_drops_edge : ∃ L, ownGraphCalcInAndOutNodes twoOutputs {} = .ok L ∧
    L.outNodes 0 = [2] ∧ L.inNodes 1 = [2] ∧ L.outNodes 2 = [] ∧ ¬ (OrdersReferences twoOutputs L ∧ KeepsRequired twoOutputs) := by
  have hrun : (ownGraphCalcInAndOutNodes twoOutputs {}).toOption.map
      (fun L => (L.outNodes 0, L.inNodes 1, L.outNodes 2)) = some ([2], [2], []) := by decide
  cases h : ownGraphCalcInAndOutNodes twoOutputs {} with
  | error L =>
    rw [h] at hrun
    cases hrun
  | ok L =>
    rw [h] at hrun
    simp only [Except.toOption, Option.map_some, Option.some.injEq, Prod.mk.injEq] at hrun
    obtain ⟨h0, h1, h2⟩ := hrun
    refine ⟨L, rfl, h0, h1, h2, fun hO => ?_⟩
    have hmem := (hO.1.consistent 2 1).2 (by rw [h1]; exact List.mem_singleton_self 2)
    rw [h2] at hmem
    cases hmem

/-- Node 0 writes a reference that node 1 reads after node 2 has changed it. -/
def bidiChain : VxGraph where
  ref := fun _ => {}
  node := fun n =>
    match n with
    | 0 => { prms := [{ dir := .output, ref := some 0 }] }
    | 1 => { prms := [{ dir := .input, ref := some 0 }, { dir := .output, ref := some 1 }] }
    | _ => { prms := [{ dir := .bidirectional, ref := some 0 }] }
  nodes := [0, 1, 2]
  nodup := by decide

theorem bidiChain_insertable : bidiChain.Insertable := ⟨by decide, by decide, by decide⟩

/-- The reader comes after the bidirectional user, and that after the writer. -/
theorem orders_bidiChain : ∃ L, ownGraphCalcInAndOutNodes bidiChain {} = .ok L ∧ L.outNodes 0 = [2] ∧ L.outNodes 2 = [1] ∧
    OrdersReferences bidiChain L ∧ KeepsRequired bidiChain := by
  have hrun : (ownGraphCalcInAndOutNodes bidiChain {}).toOption.map
      (fun L => (L.outNodes 0, L.outNodes 2)) = some ([2], [1]) := by decide
  cases h : ownGraphCalcInAndOutNodes bidiChain {} with
  | error L =>
    rw [h] at hrun
    cases hrun
  | ok L =>
    rw [h] at hrun
    simp only [Except.toOption, Option.map_some, Option.some.injEq, Prod.mk.injEq] at hrun
    exact ⟨L, rfl, hrun.1, hrun.2, (orders_iff_insertable h).2 bidiChain_insertable⟩

end Examples

end Tiovx
