import Tiovx.KernelParameters
/-!
# ResolvedParameters — when a kernel gets what the user bound, and the queues what they gave

The code looks at the mask of the parameter, at the type of what was acquired, and at that of its container.  That is enough
to tell how the parameter stands to the reference of its queue where an element was fetched from its container by the calls
for that, where containers contain no containers, and where what a container is written back for is a replicated parameter.
-/
namespace Tiovx

namespace GraphState

/-- The reference of a parameter is that of the queue, an element of it or its container. -/
def Related (S : GraphState) (ρ r : Nat) : Prop :=
  r = ρ ∨ (S.ref r).scope = some ρ ∨ (S.ref ρ).scope = some r

/-- The parameter a queue is for. -/
def queuePrm (S : GraphState) : QueueId → Option (Nat × Nat)
  | .parameter k => (S.parameters[k]?).map (fun P => (P.node, P.index))
  | .dataRef k => (S.dataRefQs[k]?).map (fun Q => (Q.node, Q.index))
  | .delayDataRef k => (S.delayDataRefQs[k]?).bind (fun Q => Q.prm)

/-- Every queue of a parameter is for a reference related to that of the parameter. -/
def Linked (S : GraphState) : Prop := ∀ n p i q, (S.desc n p).prmQueue i = some (some q) →
  ∃ x ρ r, S.queuePrm q = some x ∧ S.prmRef x.1 x.2 = some ρ ∧ S.prmRef n i = some r ∧ S.Related ρ r

/-- Nothing but the descriptors changes. -/
def SameGraph (S T : GraphState) : Prop := T = { S with desc := T.desc }

theorem SameGraph.of_desc (S : GraphState) (d : Nat → Nat → PipeDesc) : SameGraph S { S with desc := d } := rfl

theorem SameGraph.trans {S T V : GraphState} (h : SameGraph S T) (hTV : SameGraph T V) : SameGraph S V := by
  unfold SameGraph at *
  rw [hTV, h]

theorem linked_iff {S T : GraphState} (h : SameGraph S T) :
    T.Linked ↔ ∀ n p i q, (T.desc n p).prmQueue i = some (some q) →
      ∃ x ρ r, S.queuePrm q = some x ∧ S.prmRef x.1 x.2 = some ρ ∧ S.prmRef n i = some r ∧ S.Related ρ r := by
  unfold SameGraph at h
  rw [h]
  rfl

variable {S T : GraphState} {q : QueueId} {n i : Nat}

theorem Linked.linkDataRefQueue (h : S.Linked) {x : Nat × Nat} {ρ r : Nat} (hx : S.queuePrm q = some x)
    (hρ : S.prmRef x.1 x.2 = some ρ) (hr : S.prmRef n i = some r) (hrel : S.Related ρ r) :
    (ownNodeLinkDataRefQueue q S n i).Linked ∧ SameGraph S (ownNodeLinkDataRefQueue q S n i) := by
  refine ⟨(linked_iff (T := ownNodeLinkDataRefQueue q S n i) (SameGraph.of_desc S _)).2 fun m p j q' hq => ?_,
    SameGraph.of_desc S _⟩
  unfold ownNodeLinkDataRefQueue at hq
  by_cases hm : m = n
  · subst hm
    simp only [Function.update_self] at hq
    split at hq
    · by_cases hj : j = i
      · subst hj
        simp only [Function.update_self] at hq
        split at hq
        · obtain rfl := Option.some.inj (Option.some.inj hq)
          exact ⟨x, ρ, r, hx, hρ, hr, hrel⟩
        · cases hq
      · simp only [Function.update_of_ne hj] at hq
        exact h m p j q' hq
    · exact h m p j q' hq
  · simp only [Function.update_of_ne hm] at hq
    exact h m p j q' hq

theorem Linked.toNodeIndex (h : S.Linked) (hx : S.queuePrm q = some (n, i)) :
    (S.ownGraphLinkDataReferenceQueuesToNodeIndex q n i).Linked ∧
      SameGraph S (S.ownGraphLinkDataReferenceQueuesToNodeIndex q n i) := by
  unfold ownGraphLinkDataReferenceQueuesToNodeIndex
  cases hρ : S.prmRef n i with
  | none => exact ⟨h, rfl⟩
  | some ρ =>
    simp only
    generalize hl : S.allPrms.filter _ = l
    have hmem : ∀ y ∈ l, ∃ r, S.prmRef y.1 y.2 = some r ∧ S.Related ρ r := by
      intro y hy
      rw [← hl] at hy
      have := (List.mem_filter.1 hy).2
      cases hr : S.prmRef y.1 y.2 with
      | none => simp [hr] at this
      | some r => exact ⟨r, rfl, by simpa [hr, Related] using this⟩
    clear hl
    suffices ∀ T, SameGraph S T → T.Linked →
        (l.foldl (fun s x => ownNodeLinkDataRefQueue q s x.1 x.2) T).Linked ∧
          SameGraph S (l.foldl (fun s x => ownNodeLinkDataRefQueue q s x.1 x.2) T) from this S rfl h
    induction l with
    | nil => exact fun T hT hlink => ⟨hlink, hT⟩
    | cons y l ih =>
      intro T hT hlink
      obtain ⟨r, hr, hrel⟩ := hmem y List.mem_cons_self
      have hρT : T.prmRef n i = some ρ := by rw [hT]; exact hρ
      have hrT : T.prmRef y.1 y.2 = some r := by rw [hT]; exact hr
      have hstep := hlink.linkDataRefQueue (by rw [hT]; exact hx) hρT hrT (by rw [hT]; exact hrel)
      rw [List.foldl_cons]
      exact ih (fun y hy => hmem y (List.mem_cons_of_mem _ hy)) _ (hT.trans hstep.2) hstep.1

/-- A loop over queues, each of which is linked for its own parameter. -/
theorem linked_foldl {α : Type} {f : GraphState → α → GraphState} {l : List α}
    (hf : ∀ a ∈ l, ∀ T, SameGraph S T → T.Linked → (f T a).Linked ∧ SameGraph T (f T a)) :
    ∀ T, SameGraph S T → T.Linked → (l.foldl f T).Linked ∧ SameGraph S (l.foldl f T) := by
  induction l with
  | nil => exact fun T hT h => ⟨h, hT⟩
  | cons a l ih =>
    intro T hT h
    obtain ⟨hlink, hsame⟩ := hf a List.mem_cons_self T hT h
    rw [List.foldl_cons]
    exact ih (fun a ha => hf a (List.mem_cons_of_mem _ ha)) _ (hT.trans hsame) hlink

/-- **A verification links queues to related parameters only**, where no queue was linked before. -/
theorem linked_of_fresh (hfresh : ∀ n p i, (S.desc n p).prmQueue i = none) :
    S.ownGraphLinkDataReferenceQueues.Linked ∧ SameGraph S S.ownGraphLinkDataReferenceQueues := by
  have hS : S.Linked := fun n p i q hq => by rw [hfresh] at hq; cases hq
  obtain ⟨hlink₁, hsame₁⟩ := linked_foldl (S := S) (l := S.parameters.zipIdx) (f := fun s x =>
    if x.1.queueEnable then s.ownGraphLinkDataReferenceQueuesToNodeIndex (.parameter x.2) x.1.node x.1.index else s)
    (fun a ha T hT h => by
      split
      · apply h.toNodeIndex
        rw [hT]
        simp only [queuePrm, List.mem_zipIdx_iff_getElem?.1 ha, Option.map_some]
      · exact ⟨h, rfl⟩) S rfl hS
  unfold ownGraphLinkDataReferenceQueues
  generalize S.parameters.zipIdx.foldl _ S = T at hlink₁ hsame₁ ⊢
  obtain ⟨hlink₂, hsame₂⟩ := linked_foldl (S := S) (l := T.dataRefQs.zipIdx) (f := fun s x =>
    s.ownGraphLinkDataReferenceQueuesToNodeIndex (.dataRef x.2) x.1.node x.1.index)
    (fun a ha V hV h => by
      apply h.toNodeIndex
      rw [hsame₁] at ha
      rw [hV]
      simp only [queuePrm, List.mem_zipIdx_iff_getElem?.1 ha, Option.map_some]) T hsame₁ hlink₁
  simp only
  generalize T.dataRefQs.zipIdx.foldl _ T = V at hlink₂ hsame₂ ⊢
  refine linked_foldl (S := S) (l := V.delayDataRefQs.zipIdx) (fun a ha Z hZ h => ?_) V hsame₂ hlink₂
  cases hprm : a.1.prm with
  | none => exact ⟨h, rfl⟩
  | some y =>
    apply h.toNodeIndex
    rw [hsame₂] at ha
    rw [hZ]
    simp only [queuePrm, List.mem_zipIdx_iff_getElem?.1 ha, Option.bind_some, hprm]

end GraphState

namespace ExecGraph

variable {G : ExecGraph}

section Containers

theorem container_eq_some {x c : Nat} :
    G.container x = some c ↔ (G.ref x).scope = some c ∧ (G.ref c).isContainer = true := by
  unfold container containerOf VxRef.isContainer
  rw [Option.filter_eq_some_iff]
  simp only [Bool.or_eq_true, decide_eq_true_eq, or_comm]

theorem item_eq_some {c j y : Nat} : G.item c j = some y ↔ G.container y = some c ∧ G.elementIdx y = j := by
  unfold item VxRef.items
  cases hc : (G.ref c).isContainer with
  | true =>
    rw [if_pos rfl, G.item_iff c j y hc, container_eq_some]
    simp [hc]
  | false =>
    rw [if_neg (by simp), container_eq_some]
    simp [hc]

theorem scope_ne {x c : Nat} (h : (G.ref x).scope = some c) : c ≠ x := by
  obtain ⟨rank, hrank⟩ := G.acyclic
  rintro rfl
  exact Nat.lt_irrefl _ (hrank _ _ h)

theorem scope_scope_ne {x c : Nat} (h : (G.ref x).scope = some c) : (G.ref c).scope ≠ some x := by
  obtain ⟨rank, hrank⟩ := G.acyclic
  intro hc
  have h₁ := hrank _ _ h
  have h₂ := hrank _ _ hc
  omega

theorem item_isSome {c j : Nat} : (G.item c j).isSome = true ↔ j < (G.ref c).items.length := by
  unfold item
  simp

theorem item_ne_self {c j : Nat} : G.item c j ≠ some c := by
  intro h
  exact scope_ne (container_eq_some.1 (item_eq_some.1 h).1).1 rfl

end Containers

section Acquiring

variable {u : QueueUse} {r U : Nat}

theorem returned_eq_some_of_not (hu : u.isReplicated = false) :
    G.returned u r = some U ↔ r = U ∧ (G.ref U).type = u.type := by
  simp only [returned, QueuePrms.dequeued, QueuePrms.givenBack, hu, Bool.false_eq_true, if_false, Option.bind_some,
    if_true, Option.map_some, Option.some.injEq]
  by_cases ht : (G.ref r).type = u.type
  · rw [if_pos ht, Option.some.injEq]
    constructor
    · rintro rfl
      exact ⟨rfl, ht⟩
    · exact And.left
  · rw [if_neg ht]
    constructor
    · rintro ⟨⟩
    · rintro ⟨rfl, hU⟩
      exact absurd hU ht

theorem returned_eq_some_of_replicated (hu : u.isReplicated = true) :
    G.returned u r = some U ↔
      ∃ c, (if (G.ref r).type = u.type then (G.ref r).scope = some c else r = c) ∧ G.item c 0 = some U ∧
        (G.ref U).type = u.type := by
  have hgive : ∀ c, (G.ref c).isContainer = true →
      ((if (G.ref c).items.head?.map (fun r => (G.ref r).type) = some u.type then
        (vxSuccess, (G.ref c).items.head?) else (vxErrorInvalidParameters, none)).2 = some U ↔
        G.item c 0 = some U ∧ (G.ref U).type = u.type) := by
    intro c _
    rw [item, ← List.head?_eq_getElem?]
    cases (G.ref c).items.head? with
    | none => simp
    | some x =>
      by_cases hx : (G.ref x).type = u.type
      · rw [Option.map_some, if_pos (by rw [hx])]
        constructor
        · rintro ⟨⟩
          exact ⟨rfl, hx⟩
        · exact And.left
      · rw [Option.map_some, if_neg (by simpa using hx)]
        constructor
        · rintro ⟨⟩
        · rintro ⟨⟨⟩, hU⟩
          exact absurd hU hx
  simp only [returned, QueuePrms.dequeued, QueuePrms.givenBack, hu, if_true]
  generalize ho : (if (G.ref r).type = u.type then (G.ref r).scope else some r) = o
  have hc : ∀ c, (if (G.ref r).type = u.type then (G.ref r).scope = some c else r = c) ↔ o = some c := by
    intro c
    rw [← ho]
    split
    · exact Iff.rfl
    · rw [Option.some.injEq]
  simp only [hc]
  cases o with
  | none => simp
  | some c =>
    simp only [Option.some.injEq, exists_eq_left']
    cases hcc : (G.ref c).isContainer with
    | true => exact hgive c hcc
    | false =>
      simp only [Bool.false_eq_true, if_false, Option.bind_none]
      constructor
      · rintro ⟨⟩
      · rintro ⟨hi, -⟩
        have := (container_eq_some.1 (item_eq_some.1 hi).1).2
        rw [hcc] at this
        cases this

/-- **What was acquired**: the reference a dequeue returns or, where that is the first element of a container and the queue's
parameter a replicated one, the container. -/
theorem acquired_cases (h : G.returned u r = some U) (hr : r = U ∨ (G.ref U).scope = some r) :
    (G.ref U).type = u.type ∧
      ((r = U ∧ (u.isReplicated = true → ∃ c, G.item c 0 = some U)) ∨
        (r ≠ U ∧ u.isReplicated = true ∧ G.item r 0 = some U ∧ (G.ref r).type ≠ u.type)) := by
  cases hu : u.isReplicated with
  | false =>
    obtain ⟨rfl, ht⟩ := (returned_eq_some_of_not hu).1 h
    exact ⟨ht, .inl ⟨rfl, fun h => by cases h⟩⟩
  | true =>
    obtain ⟨c, hc, hi, ht⟩ := (returned_eq_some_of_replicated hu).1 h
    refine ⟨ht, ?_⟩
    by_cases hrU : r = U
    · exact .inl ⟨hrU, fun _ => ⟨c, hi⟩⟩
    · obtain hsc := hr.resolve_left hrU
      have hUc := (container_eq_some.1 (item_eq_some.1 hi).1).1
      obtain rfl : r = c := Option.some.inj (hsc.symm.trans hUc)
      refine .inr ⟨hrU, rfl, hi, fun ht => ?_⟩
      rw [if_pos ht] at hc
      exact scope_ne hc rfl

end Acquiring

section Calls

variable (G) in
/-- No object in a container of the type of `b`. -/
def NotInTypeOf (b r : Nat) : Prop := ∀ c, G.container r = some c → (G.ref c).type ≠ (G.ref b).type

variable (G) in
/-- When a call gets, for a parameter that is not replicated, what the user bound: `isElement` is the bit of the parameter as the
call finds it, and `r` the id that was acquired for `U`. -/
def CallFits (u : QueueUse) (isElement : Bool) (b r U : Nat) : Prop :=
  if b = u.ref then
    if isElement then if r = U then (G.ref U).isContainer = false else G.elementIdx b = 0 else r = U ∧ G.NotInTypeOf b U
  else if (G.ref b).scope = some u.ref then isElement = true ∧ r = U ∧ (G.item U (G.elementIdx b)).isSome = true
  else if (G.ref u.ref).scope = some b then
    isElement = false ∧
      if r = U then ∃ c, G.container U = some c ∧ (G.ref c).type = (G.ref b).type else G.NotInTypeOf b r
  else if isElement then if (G.ref r).isContainer then (G.ref b).scope = some r else b = r
  else G.container r = some b ∨ b = r ∧ G.NotInTypeOf b r

variable {u : QueueUse} {b r U k : Nat}

theorem kernelPrm_element :
    (G.kernelPrm false true true (some b) (some r) k).1 =
      if (G.ref r).isContainer then G.item r (G.elementIdx b) else some r := by
  simp only [kernelPrm, Bool.false_eq_true, if_false, if_true, Option.bind_some]
  split <;> rfl

theorem kernelPrm_plain_of_not (h : G.NotInTypeOf b r) : (G.kernelPrm false false true (some b) (some r) k).1 = some r := by
  simp only [kernelPrm, Bool.false_eq_true, if_false, if_true]
  cases hc : G.container r with
  | none => rfl
  | some c => simp only [if_neg (h c hc)]

theorem kernelPrm_plain_of_container {c : Nat} (hc : G.container r = some c) (ht : (G.ref c).type = (G.ref b).type) :
    (G.kernelPrm false false true (some b) (some r) k).1 = some c := by
  simp only [kernelPrm, Bool.false_eq_true, if_false, if_true, hc, if_pos ht]

theorem plain_cases (b r : Nat) :
    G.NotInTypeOf b r ∨ ∃ c, G.container r = some c ∧ (G.ref c).type = (G.ref b).type := by
  by_cases h : G.NotInTypeOf b r
  · exact .inl h
  · unfold NotInTypeOf at h
    push Not at h
    exact .inr h

theorem isContainer_of_item {c j y : Nat} (h : G.item c j = some y) : (G.ref c).isContainer = true :=
  (container_eq_some.1 (item_eq_some.1 h).1).2

theorem scope_of_item {c j y : Nat} (h : G.item c j = some y) : (G.ref y).scope = some c :=
  (container_eq_some.1 (item_eq_some.1 h).1).1

/-- The queue's own reference is bound. -/
theorem callFits_same {isElement : Bool}
    (hcases : (r = U ∧ (u.isReplicated = true → ∃ c, G.item c 0 = some U)) ∨
      (r ≠ U ∧ u.isReplicated = true ∧ G.item r 0 = some U ∧ (G.ref r).type ≠ u.type)) :
    (G.kernelPrm false isElement true (some b) (some r) k).1 = some U ↔
      if isElement then if r = U then (G.ref U).isContainer = false else G.elementIdx b = 0
      else r = U ∧ G.NotInTypeOf b U := by
  cases isElement with
  | true =>
    rw [kernelPrm_element, if_pos rfl]
    obtain ⟨rfl, -⟩ | ⟨hne, -, hitem, -⟩ := hcases
    · rw [if_pos rfl]
      cases hc : (G.ref r).isContainer with
      | true => simp [item_ne_self]
      | false => simp
    · rw [if_neg hne, if_pos (isContainer_of_item hitem), item_eq_some]
      simp [(item_eq_some.1 hitem).1, (item_eq_some.1 hitem).2, eq_comm]
  | false =>
    rw [if_neg (by simp)]
    obtain hn | ⟨c, hc, ht⟩ := plain_cases (G := G) b r
    · rw [kernelPrm_plain_of_not hn]
      constructor
      · rintro ⟨⟩
        exact ⟨rfl, hn⟩
      · rintro ⟨rfl, -⟩
        rfl
    · rw [kernelPrm_plain_of_container hc ht]
      constructor
      · rintro ⟨⟩
        obtain ⟨rfl, -⟩ | ⟨-, -, hitem, -⟩ := hcases
        · exact absurd (container_eq_some.1 hc).1 (fun h => scope_ne h rfl)
        · exact absurd (container_eq_some.1 hc).1 (scope_scope_ne (scope_of_item hitem))
      · rintro ⟨rfl, hn⟩
        exact absurd ht (hn c hc)

/-- An element of the queue's reference is bound. -/
theorem callFits_element {isElement : Bool} (hr : r = U ∨ (G.ref U).scope = some r) :
    ((G.kernelPrm false isElement true (some b) (some r) k).1 = G.item U (G.elementIdx b) ∧
      (G.item U (G.elementIdx b)).isSome = true) ↔
      isElement = true ∧ r = U ∧ (G.item U (G.elementIdx b)).isSome = true := by
  cases hi : G.item U (G.elementIdx b) with
  | none => simp
  | some x =>
    have hx := scope_of_item hi
    simp only [Option.isSome_some, and_true]
    cases isElement with
    | true =>
      rw [kernelPrm_element]
      constructor
      · intro h
        refine ⟨rfl, ?_⟩
        split at h
        · exact Option.some.inj ((scope_of_item h).symm.trans hx)
        · obtain rfl := Option.some.inj h
          obtain rfl | hr := hr
          · rfl
          · exact absurd hr (scope_scope_ne hx)
      · rintro ⟨-, rfl⟩
        rw [if_pos (isContainer_of_item hi), hi]
    | false =>
      refine ⟨fun h => ?_, fun h => by cases h.1⟩
      obtain ⟨rank, hrank⟩ := G.acyclic
      have hxU := hrank _ _ hx
      have hUr : rank U ≤ rank r := by
        obtain rfl | hr := hr
        · exact Nat.le_refl _
        · exact Nat.le_of_lt (hrank _ _ hr)
      obtain hn | ⟨c, hc, ht⟩ := plain_cases (G := G) b r
      · rw [kernelPrm_plain_of_not hn] at h
        obtain rfl := Option.some.inj h
        omega
      · rw [kernelPrm_plain_of_container hc ht] at h
        obtain rfl := Option.some.inj h
        have := hrank _ _ (container_eq_some.1 hc).1
        omega

/-- The container of the queue's reference is bound. -/
theorem callFits_container {isElement : Bool}
    (hcases : (r = U ∧ (u.isReplicated = true → ∃ c, G.item c 0 = some U)) ∨
      (r ≠ U ∧ u.isReplicated = true ∧ G.item r 0 = some U ∧ (G.ref r).type ≠ u.type)) :
    ((G.kernelPrm false isElement true (some b) (some r) k).1 = (G.ref U).scope ∧ (G.ref U).scope.isSome = true) ↔
      isElement = false ∧
        if r = U then ∃ c, G.container U = some c ∧ (G.ref c).type = (G.ref b).type else G.NotInTypeOf b r := by
  obtain ⟨rfl, -⟩ | ⟨hne, -, hitem, -⟩ := hcases
  · rw [if_pos rfl]
    cases isElement with
    | true =>
      rw [kernelPrm_element]
      refine ⟨fun h => ?_, fun h => by cases h.1⟩
      obtain ⟨h, hsome⟩ := h
      obtain ⟨c, hs⟩ := Option.isSome_iff_exists.1 hsome
      split at h
      · exact absurd (scope_of_item (h.trans hs)) (scope_scope_ne hs)
      · exact absurd rfl (scope_ne h.symm)
    | false =>
      obtain hn | ⟨c, hc, ht⟩ := plain_cases (G := G) b r
      · rw [kernelPrm_plain_of_not hn]
        constructor
        · rintro ⟨h, -⟩
          exact absurd rfl (scope_ne h.symm)
        · rintro ⟨-, c, hc, ht⟩
          exact absurd ht (hn c hc)
      · rw [kernelPrm_plain_of_container hc ht, (container_eq_some.1 hc).1]
        exact ⟨fun _ => ⟨rfl, c, hc, ht⟩, fun _ => ⟨rfl, rfl⟩⟩
  · rw [if_neg hne, scope_of_item hitem]
    simp only [Option.isSome_some, and_true]
    cases isElement with
    | true =>
      rw [kernelPrm_element, if_pos (isContainer_of_item hitem)]
      exact ⟨fun h => absurd h item_ne_self, fun h => by cases h.1⟩
    | false =>
      obtain hn | ⟨c, hc, ht⟩ := plain_cases (G := G) b r
      · rw [kernelPrm_plain_of_not hn]
        exact ⟨fun _ => ⟨rfl, hn⟩, fun _ => rfl⟩
      · rw [kernelPrm_plain_of_container hc ht]
        constructor
        · rintro ⟨⟩
          exact absurd rfl (scope_ne (container_eq_some.1 hc).1)
        · rintro ⟨-, hn⟩
          exact absurd ht (hn c hc)

/-- What is bound has nothing to do with the queue any more. -/
theorem callFits_other {isElement : Bool} :
    (G.kernelPrm false isElement true (some b) (some r) k).1 = some b ↔
      if isElement then if (G.ref r).isContainer then (G.ref b).scope = some r else b = r
      else G.container r = some b ∨ b = r ∧ G.NotInTypeOf b r := by
  cases isElement with
  | true =>
    rw [kernelPrm_element, if_pos rfl]
    split
    · rename_i hc
      rw [item_eq_some, container_eq_some]
      simp [hc]
    · rw [Option.some.injEq, eq_comm]
  | false =>
    rw [if_neg (by simp)]
    obtain hn | ⟨c, hc, ht⟩ := plain_cases (G := G) b r
    · rw [kernelPrm_plain_of_not hn, Option.some.injEq]
      constructor
      · rintro rfl
        exact .inr ⟨rfl, hn⟩
      · rintro (hb | ⟨rfl, -⟩)
        · exact absurd rfl (hn b hb)
        · rfl
    · rw [kernelPrm_plain_of_container hc ht, hc]
      constructor
      · exact .inl
      · rintro (hb | ⟨rfl, hn⟩)
        · exact hb
        · exact absurd ht (hn c hc)

/-- **A parameter of one call**: what the code finds is what the user bound exactly where the call fits. -/
theorem callFits_iff {isElement : Bool} (h : G.returned u r = some U) (hr : r = U ∨ (G.ref U).scope = some r) :
    ((G.kernelPrm false isElement true (some b) (some r) k).1 = G.rebound u U b ∧ (G.rebound u U b).isSome = true) ↔
      G.CallFits u isElement b r U := by
  have hcases := (acquired_cases h hr).2
  unfold rebound CallFits
  by_cases hsame : b = u.ref
  · rw [if_pos hsame, if_pos hsame, Option.isSome_some, and_iff_left rfl]
    exact callFits_same hcases
  · rw [if_neg hsame, if_neg hsame]
    by_cases helement : (G.ref b).scope = some u.ref
    · rw [if_pos helement, if_pos helement]
      exact callFits_element hr
    · rw [if_neg helement, if_neg helement]
      by_cases hcontainer : (G.ref u.ref).scope = some b
      · rw [if_pos hcontainer, if_pos hcontainer]
        exact callFits_container hcases
      · rw [if_neg hcontainer, if_neg hcontainer, Option.isSome_some, and_iff_left rfl]
        exact callFits_other

end Calls

section Replicas

variable (G) in
/-- When the calls get, for a replicated parameter that has a queue, what the user bound. -/
def ReplicasFit (u : QueueUse) (L b r U : Nat) : Prop :=
  L ≤ (G.ref ((G.container r).getD r)).items.length ∧
    if b = u.ref then (G.container U).isSome = true ∧ (r = U ∨ G.container r = none)
    else if (G.ref b).scope = some u.ref then
      (G.item U (G.elementIdx b)).isSome = true ∧ r = U ∧ G.container U = none
    else if (G.ref u.ref).scope = some b then r ≠ U ∧ (G.container r).isSome = true
    else G.container b = some ((G.container r).getD r)

variable {u : QueueUse} {b r U k L : Nat}

/-- The elements of `c` are those of the container asked for, and enough. -/
theorem items_eq_iff {c : Nat} {o : Option Nat} (hL : 0 < L) :
    (∀ k < L, G.item c k = o.bind (fun d => G.item d k) ∧ (o.bind (fun d => G.item d k)).isSome = true) ↔
      L ≤ (G.ref c).items.length ∧ o = some c := by
  constructor
  · intro h
    obtain ⟨d, rfl⟩ : ∃ d, o = some d := by
      cases o with
      | none => exact absurd (h 0 hL).2 (by simp)
      | some d => exact ⟨d, rfl⟩
    simp only [Option.bind_some] at h
    obtain ⟨y, hy⟩ := Option.isSome_iff_exists.1 (h 0 hL).2
    have hcy := (item_eq_some.1 ((h 0 hL).1.trans hy)).1
    obtain rfl : c = d := Option.some.inj (hcy.symm.trans (item_eq_some.1 hy).1)
    have := item_isSome.1 (h (L - 1) (by omega)).2
    exact ⟨by omega, rfl⟩
  · rintro ⟨hlen, rfl⟩ k hk
    exact ⟨rfl, item_isSome.2 (by omega)⟩

theorem container_bound_iff
    (hcases : (r = U ∧ (u.isReplicated = true → ∃ c, G.item c 0 = some U)) ∨
      (r ≠ U ∧ u.isReplicated = true ∧ G.item r 0 = some U ∧ (G.ref r).type ≠ u.type)) :
    (G.rebound u U b).bind G.container = some ((G.container r).getD r) ↔
      if b = u.ref then (G.container U).isSome = true ∧ (r = U ∨ G.container r = none)
      else if (G.ref b).scope = some u.ref then
        (G.item U (G.elementIdx b)).isSome = true ∧ r = U ∧ G.container U = none
      else if (G.ref u.ref).scope = some b then r ≠ U ∧ (G.container r).isSome = true
      else G.container b = some ((G.container r).getD r) := by
  unfold rebound
  by_cases hsame : b = u.ref
  · rw [if_pos hsame, if_pos hsame, Option.bind_some]
    obtain ⟨rfl, -⟩ | ⟨hne, -, hitem, -⟩ := hcases
    · cases G.container r <;> simp
    · rw [(item_eq_some.1 hitem).1]
      cases hc : G.container r with
      | none => simp
      | some c => simpa [hne] using (scope_ne (container_eq_some.1 hc).1).symm
  · rw [if_neg hsame, if_neg hsame]
    by_cases helement : (G.ref b).scope = some u.ref
    · rw [if_pos helement, if_pos helement]
      cases hi : G.item U (G.elementIdx b) with
      | none => simp
      | some x =>
        rw [Option.bind_some, (item_eq_some.1 hi).1]
        obtain ⟨rfl, -⟩ | ⟨hne, -, hitem, -⟩ := hcases
        · cases hc : G.container r with
          | none => simp
          | some c => simpa using (scope_ne (container_eq_some.1 hc).1).symm
        · cases hc : G.container r with
          | none => simp [hne, Ne.symm hne]
          | some c =>
            have := scope_scope_ne (scope_of_item hitem)
            rw [(container_eq_some.1 hc).1] at this
            simpa [hne] using fun h => this (congrArg some h.symm)
    · rw [if_neg helement, if_neg helement]
      by_cases hcontainer : (G.ref u.ref).scope = some b
      · rw [if_pos hcontainer, if_pos hcontainer]
        obtain ⟨rfl, -⟩ | ⟨hne, -, hitem, -⟩ := hcases
        · simp only [ne_eq, not_true_eq_false, false_and, iff_false]
          cases hs : (G.ref r).scope with
          | none => simp
          | some v =>
            rw [Option.bind_some]
            cases hc : G.container r with
            | none => exact fun h => scope_scope_ne hs (container_eq_some.1 h).1
            | some c =>
              obtain rfl := Option.some.inj (hs.symm.trans (container_eq_some.1 hc).1)
              exact fun h => scope_ne (container_eq_some.1 h).1 rfl
        · rw [scope_of_item hitem, Option.bind_some]
          cases hc : G.container r <;> simp [hne]
      · rw [if_neg hcontainer, if_neg hcontainer, Option.bind_some]

/-- **A replicated parameter with a queue**: its calls get the elements the user bound exactly where the replicas fit. -/
theorem replicasFit_iff (isElement : Bool) (hL : 0 < L) (h : G.returned u r = some U)
    (hr : r = U ∨ (G.ref U).scope = some r) :
    (∀ k < L, (G.kernelPrm true isElement true (some b) (some r) k).1 =
        (G.rebound u U b).bind (fun X => G.forReplica true X k) ∧
      ((G.rebound u U b).bind (fun X => G.forReplica true X k)).isSome = true) ↔ G.ReplicasFit u L b r U := by
  have hbind : ∀ k, (G.rebound u U b).bind (fun X => G.forReplica true X k) =
      ((G.rebound u U b).bind G.container).bind (fun c => G.item c k) := by
    intro k
    rw [Option.bind_assoc]
    rfl
  simp only [hbind]
  rw [ReplicasFit, ← container_bound_iff (acquired_cases h hr).2, ← items_eq_iff hL]
  rfl

end Replicas

end ExecGraph

end Tiovx
