import Tiovx.Lib.Run
import Tiovx.DataMemory
/-!
# AllocatedData — what a node gets in later runs has its memory

Memory is allocated for what is bound when a graph is verified, for the delay of a reference that is in one, and for the
references of the queues.  That is not all a node may get later: a replicated parameter has its one container allocated,
not those its delay brings; a queue has its references allocated as its own parameter uses them, whether other parameters
use their containers or not; and references added to a graph parameter later are not allocated at all.
-/
namespace Tiovx

open StepSystem

section Parts

variable (D : DataObjects)

/-- The objects without elements that make up a data object. -/
inductive Part : Nat → Nat → Prop
  | self {r : Nat} : D.isContainer r = false → Part r r
  | element {r e c : Nat} : D.isContainer r = true → e ∈ (D.ref r).elements → Part e c → Part r c

/-- Reference `b` is bound to parameter `i` of node `n`, or will be once a delay is aged often enough. -/
def MayBind (S : BufferGraph) (n i b : Nat) : Prop :=
  S.prmRef n i = some b ∨ ∃ d slot, slot < (S.delay d).count ∧ (n, i) ∈ (S.delay d).slotPrms slot ∧ b ∈ D.delayRefs d

/-- The kernel of node `n` may get object `x` for a parameter with `b` bound to it, by way of reference `r`. -/
def Gets (S : BufferGraph) (n i : Nat) (P : NodePrm) (b r x : Nat) : Prop :=
  match S.queueAt n i with
  | none => r = b ∧ x ∈ kernelObjects D P.isReplicated false (S.isArrayElement n i) b b
  | some q => r ∈ queueContent S q ∧ x ∈ kernelObjects D P.isReplicated true (S.isArrayElement n i) b r

/-- What the verification of `S` allocates memory for. -/
def Requested (o : MemoryOutcome) (S : BufferGraph) (x : Nat × Nat × Nat) : Prop :=
  x ∈ boundRefs S ∨ x ∈ queueRefs (withDataRefQs o S)

/-- The object has memory, or gets it as a part of something memory is allocated for. -/
def Backed (o : MemoryOutcome) (S : BufferGraph) (c : Nat) : Prop :=
  S.memory c = true ∨ ∃ n i r, Requested o S (n, i, r) ∧ ∃ a ∈ allocRoots D S n i r, Part D a c

end Parts

section Allocation

variable {D : DataObjects} {S T : BufferGraph} {o : MemoryOutcome} {allocates : Nat → Bool}

end Allocation

section Verified

variable {D : DataObjects} {S T U : BufferGraph} {o : MemoryOutcome} {n i b r x c : Nat} {P : NodePrm}

/-- The objects a kernel gets are the reference, its container, or elements of the two. -/
theorem mem_kernelObjects {isReplicated queued isElement : Bool}
    (h : x ∈ kernelObjects D isReplicated queued isElement b r) :
    x = r ∨ x ∈ (D.ref r).elements ∨ ∃ a, containerOf D.ref r = some a ∧ (x = a ∨ x ∈ (D.ref a).elements) := by
  unfold kernelObjects at h
  split at h
  · cases hc : containerOf D.ref r with
    | none =>
      rw [hc] at h
      exact .inr (.inl h)
    | some a =>
      rw [hc] at h
      exact .inr (.inr ⟨a, rfl, .inr h⟩)
  · split at h
    · split at h
      · split at h
        · exact .inr (.inl (List.mem_of_getElem? (Option.mem_toList.1 h)))
        · exact .inl (List.mem_singleton.1 h)
      · split at h
        · rename_i a ha
          split at h
          · exact .inr (.inr ⟨a, ha, .inl (List.mem_singleton.1 h)⟩)
          · exact .inl (List.mem_singleton.1 h)
        · exact .inl (List.mem_singleton.1 h)
    · exact .inl (List.mem_singleton.1 h)

theorem Gets.objects (h : Gets D S n i P b r x) :
    x = r ∨ x ∈ (D.ref r).elements ∨ ∃ a, containerOf D.ref r = some a ∧ (x = a ∨ x ∈ (D.ref a).elements) := by
  unfold Gets at h
  split at h
  · rw [h.1]
    exact mem_kernelObjects h.2
  · exact mem_kernelObjects h.2

end Verified

section Aging

variable {D : DataObjects} {S T U : BufferGraph} {o : MemoryOutcome}

/-- `T` is `S` but for what is bound to the parameters and how far the delays are aged. -/
structure AgedFrom (D : DataObjects) (S T : BufferGraph) : Prop where
  nodes : T.nodes = S.nodes
  parameters : T.parameters = S.parameters
  dataRefQs : T.dataRefQs = S.dataRefQs
  delayQs : T.delayQs = S.delayQs
  queueAt : T.queueAt = S.queueAt
  isArrayElement : T.isArrayElement = S.isArrayElement
  memory : T.memory = S.memory
  slotPrms : ∀ d, (T.delay d).slotPrms = (S.delay d).slotPrms
  count : ∀ d, (T.delay d).count = (S.delay d).count
  prms : ∀ n i P, (T.prms n)[i]? = some P → ∃ Q, (S.prms n)[i]? = some Q ∧ P.isReplicated = Q.isReplicated ∧
    ∀ b, P.ref = some b → MayBind D S n i b

theorem AgedFrom.rfl : AgedFrom D S S where
  nodes := Eq.refl _
  parameters := Eq.refl _
  dataRefQs := Eq.refl _
  delayQs := Eq.refl _
  queueAt := Eq.refl _
  isArrayElement := Eq.refl _
  memory := Eq.refl _
  slotPrms _ := Eq.refl _
  count _ := Eq.refl _
  prms n i P hP := ⟨P, hP, Eq.refl _, fun b hb => .inl (by unfold BufferGraph.prmRef; rw [hP]; exact hb)⟩

/-- What may be bound later is no more than before. -/
theorem AgedFrom.mayBind (h : AgedFrom D S T) {n i b : Nat} (hb : MayBind D T n i b) : MayBind D S n i b := by
  rcases hb with hb | ⟨d, slot, hslot, hmem, hb⟩
  · obtain ⟨P, hP, hPb⟩ := Option.bind_eq_some_iff.1 hb
    obtain ⟨-, -, -, hbind⟩ := h.prms n i P hP
    exact hbind b hPb
  · rw [h.count] at hslot
    rw [h.slotPrms] at hmem
    exact .inr ⟨d, slot, hslot, hmem, hb⟩

theorem AgedFrom.trans (h : AgedFrom D S T) (h' : AgedFrom D T U) : AgedFrom D S U where
  nodes := h'.nodes.trans h.nodes
  parameters := h'.parameters.trans h.parameters
  dataRefQs := h'.dataRefQs.trans h.dataRefQs
  delayQs := h'.delayQs.trans h.delayQs
  queueAt := h'.queueAt.trans h.queueAt
  isArrayElement := h'.isArrayElement.trans h.isArrayElement
  memory := h'.memory.trans h.memory
  slotPrms d := (h'.slotPrms d).trans (h.slotPrms d)
  count d := (h'.count d).trans (h.count d)
  prms n i P hP := by
    obtain ⟨Q, hQ, hrep, hbind⟩ := h'.prms n i P hP
    obtain ⟨Q', hQ', hrep', -⟩ := h.prms n i Q hQ
    exact ⟨Q', hQ', hrep.trans hrep', fun b hb => h.mayBind (hbind b hb)⟩

/-- A loop each of whose steps ages the graph ages it. -/
theorem AgedFrom.foldl {α : Type} {f : BufferGraph → α → BufferGraph} (l : List α)
    (hf : ∀ a ∈ l, ∀ T, AgedFrom D S T → AgedFrom D T (f T a)) : AgedFrom D S (l.foldl f S) := by
  refine List.foldlRecOn l f (motive := fun T => AgedFrom D S T) .rfl (fun T hT a ha => ?_)
  exact hT.trans (hf a ha T hT)

/-- A reference of a delay is bound to a parameter that the delay ages. -/
theorem AgedFrom.setNodeRef {d slot r : Nat} {x : Nat × Nat} (hslot : slot < (S.delay d).count)
    (hx : x ∈ (S.delay d).slotPrms slot) (hr : r ∈ D.delayRefs d) : AgedFrom D S (setNodeRef r S x) where
  nodes := Eq.refl _
  parameters := Eq.refl _
  dataRefQs := Eq.refl _
  delayQs := Eq.refl _
  queueAt := Eq.refl _
  isArrayElement := Eq.refl _
  memory := Eq.refl _
  slotPrms _ := Eq.refl _
  count _ := Eq.refl _
  prms n i P hP := by
    have hsame : ∀ P, (S.prms n)[i]? = some P →
        ∃ Q, (S.prms n)[i]? = some Q ∧ P.isReplicated = Q.isReplicated ∧ ∀ b, P.ref = some b → MayBind D S n i b :=
      fun P hP => AgedFrom.rfl.prms n i P hP
    simp only [Tiovx.setNodeRef, Function.update_apply] at hP
    split at hP
    · rename_i hn
      rw [List.getElem?_modify, Option.map_eq_map, Option.map_eq_some_iff] at hP
      obtain ⟨Q, hQ, rfl⟩ := hP
      rw [← hn] at hQ
      split
      · rename_i hi
        refine ⟨Q, hQ, Eq.refl _, fun b hb => ?_⟩
        cases hb
        refine .inr ⟨d, slot, hslot, ?_, hr⟩
        rw [hn, ← hi]
        exact hx
      · exact hsame Q hQ
    · exact hsame P hP

theorem AgedFrom.ageDelaySlot {d slot : Nat} (hslot : slot < (S.delay d).count) : AgedFrom D S (ageDelaySlot D d S slot) := by
  unfold Tiovx.ageDelaySlot
  split
  · rename_i r hr
    refine AgedFrom.foldl _ (fun x hx T hT => ?_)
    have hslot' : slot < (T.delay d).count := by rw [hT.count]; exact hslot
    have hx' : x ∈ (T.delay d).slotPrms slot := by rw [hT.slotPrms]; exact hx
    exact .setNodeRef hslot' hx' (List.mem_of_getElem? hr)
  · exact .rfl

theorem AgedFrom.ownAgeDelay (d : Nat) : AgedFrom D S (ownAgeDelay D S d) := by
  have hindex : AgedFrom D S { S with
      delay := Function.update S.delay d
        { S.delay d with index := ((S.delay d).index + 1) % (S.delay d).count } } := by
    refine { (AgedFrom.rfl : AgedFrom D S S) with slotPrms := fun d' => ?_, count := fun d' => ?_ }
    · simp only [Function.update_apply]
      split
      · rename_i hd
        rw [hd]
        exact Eq.refl _
      · exact Eq.refl _
    · simp only [Function.update_apply]
      split
      · rename_i hd
        rw [hd]
      · exact Eq.refl _
  refine hindex.trans (AgedFrom.foldl _ (fun slot hslot T hT => .ageDelaySlot ?_))
  rw [hT.count, hindex.count]
  exact List.mem_range.1 hslot

/-- **Aging a delay** binds only references that may be bound. -/
theorem AgedFrom.vxAgeDelay (d : Nat) : AgedFrom D S (vxAgeDelay D S d) :=
  (AgedFrom.ownAgeDelay d).trans (AgedFrom.foldl _ (fun d' _ _ _ => .ownAgeDelay d'))

end Aging

end Tiovx
