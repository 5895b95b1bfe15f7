import Mathlib.Algebra.BigOperators.Group.Finset.Piecewise
import Tiovx.WakeUps
/-!
# Conservation — where the references of a data reference queue are

A reference goes from an acquire queue to a descriptor, from there to a release queue, and through the user back.  In
the pipe-up a kernel is handed references that no descriptor holds, and it may later leave one of them in the place of
the one it was given.  While no release finds its queue full and each finds its reference still held, the places a
reference is in add up to the times it was enqueued.
-/
namespace Tiovx

open StepSystem Finset

/-- Queues that exchange references with no others, and the descriptors between them. -/
structure Pool (G : Graph) where
  queues : Finset Nat
  dataRefQs : Finset Nat
  acquireQ : ∀ dq D, G.table.dataRefQ dq = some D → (dq ∈ dataRefQs ↔ D.acquireQObjDescId ∈ queues)
  releaseQ : ∀ dq D, G.table.dataRefQ dq = some D → (dq ∈ dataRefQs ↔ D.releaseQObjDescId ∈ queues)

/-- `1` where the condition holds. -/
abbrev one (p : Prop) [Decidable p] : Nat := if p then 1 else 0

/-- A descriptor holds reference `x`. -/
def holds (S : DataRefQ) (x : Nat) : Prop := S.isRefAcquired = true ∧ S.refObjDescId = x

instance (S : DataRefQ) (x : Nat) : Decidable (holds S x) := inferInstanceAs (Decidable (_ ∧ _))

namespace Pool

variable {G : Graph} (π : Pool G)

/-- How often `x` is in the queues. -/
def queued (Q : Queues) (x : Nat) : Nat := ∑ q ∈ π.queues, (Q.refs q).count x

/-- How many descriptors hold `x`. -/
def held (d : Nat → DataRefQ) (x : Nat) : Nat := ∑ dq ∈ π.dataRefQs, one (holds (d dq) x)

/-- `x` is enqueued. -/
def isEnqueued (x : Nat) : Event → Bool
  | .enqueued q y => decide (q ∈ π.queues ∧ y = x)
  | _ => false

/-- `x` is returned to the user. -/
def isDequeued (x : Nat) : Event → Bool
  | .dequeued q y => decide (q ∈ π.queues ∧ y = x)
  | _ => false

/-- A kernel is handed `x` in the pipe-up, or keeps it for another reference. -/
def isKept (x : Nat) : Event → Bool
  | .acquired dq y true => decide (dq ∈ π.dataRefQs ∧ y = x)
  | .released dq (some (y, _)) => decide (dq ∈ π.dataRefQs ∧ y = x)
  | _ => false

/-- A kernel gives `x` in the place of another reference. -/
def isGiven (x : Nat) : Event → Bool
  | .released dq (some (_, y)) => decide (dq ∈ π.dataRefQs ∧ y = x)
  | _ => false

/-- **Reference `x` is nowhere twice and never lost**: it is in the queues, held by descriptors, returned to the user or
kept by kernels as often as it was in the queues at the start, enqueued or given back by kernels. -/
def Conserved (Q₀ : Queues) (s : Sys) (x : Nat) : Prop :=
  π.queued s.shm.queue x + π.held s.shm.dataRefQ x + s.trace.countP (π.isDequeued x) + s.trace.countP (π.isKept x) =
    π.queued Q₀ x + s.trace.countP (π.isEnqueued x) + s.trace.countP (π.isGiven x)

end Pool

/-- The release of a parameter is the last of the reference. -/
def isLastRelease (S : DataRefQ) (D : DataRefQDesc) (isPrmInput : Bool) : Bool :=
  if isPrmInput then decide ((S.inNodeDoneCnt + 1) % 65536 = D.numInNodes) else decide (D.numInNodes = 0)

/-- The queues that a release refills have room for what they are given. -/
def roomForRefs (T : ObjDescTable) (hostOnly : Bool) (D : DataRefQDesc) (Q : Queues) : Bool :=
  (refilledQueues T hostOnly Q D).all fun q =>
    decide ((Q.refs q).length + (refilledQueues T hostOnly Q D).count q ≤ objDescQueueMaxDepth)

/-- The ids node `n` was handed when its kernel ran last. -/
def handedTo (n : NodeId) : List Event → List Nat
  | .executed k false prms :: l => if k = n then prms else handedTo n l
  | _ :: l => handedTo n l
  | [] => []

/-- The release of a parameter leaves what its descriptor holds as it is. -/
def isSharedRelease (S : DataRefQ) (D : DataRefQDesc) (isPrmInput : Bool) : Bool :=
  isPrmInput && !isLastRelease S D isPrmInput

/-- The condition on a step: a release that changes what its descriptor holds finds the reference the node was handed,
and the last release of a reference is of a descriptor and finds room in the queues it refills. -/
def handsBack (G : Graph) (s : Sys) : Act → Bool
  | .thread t =>
    match s.pc t with
    | .release n prms prmId _ => ((G.table.node n).bind (fun N => N.prms[prmId]?)).all fun P =>
        (G.table.dataRefQ P.dataRefQId).all fun D =>
          let S := s.shm.dataRefQ P.dataRefQId
          !P.isDataRefQ || isSharedRelease S D (P.isInput || P.isBidi) ||
            (S.isRefAcquired && S.refObjDescId == (handedTo n s.trace).getD prmId objDescInvalid &&
              (!isLastRelease S D (P.isInput || P.isBidi) ||
                G.table.ownObjDescGet (prms.getD prmId objDescInvalid) &&
                  roomForRefs G.table (G.isHostOnly t) D s.shm.queue))
    | _ => true
  | _ => true

/-- What the condition gives a release that changes what its descriptor holds. -/
theorem handsBack_release {G : Graph} {s : Sys} {t : Tid} {n : NodeId} {N : NodeDesc} {prms : List Nat} {prmId : Nat}
    {blocked : Option NodeId} {P : Prm} {D : DataRefQDesc} (hc : handsBack G s (.thread t) = true)
    (hpc : s.pc t = .release n prms prmId blocked) (hN : G.table.node n = some N) (hP : N.prms[prmId]? = some P)
    (hq : P.isDataRefQ = true) (hD : G.table.dataRefQ P.dataRefQId = some D)
    (hs : isSharedRelease (s.shm.dataRefQ P.dataRefQId) D (P.isInput || P.isBidi) = false) :
    (s.shm.dataRefQ P.dataRefQId).isRefAcquired = true ∧
      (isLastRelease (s.shm.dataRefQ P.dataRefQId) D (P.isInput || P.isBidi) = true →
        prms.getD prmId objDescInvalid < G.table.numEntries ∧
          roomForRefs G.table (G.isHostOnly t) D s.shm.queue = true) := by
  simp only [handsBack, hpc, hN, hP, hD, hq, hs, Option.bind_some, Option.all_some, Bool.not_true, Bool.false_or,
    Bool.and_eq_true, Bool.or_eq_true] at hc
  refine ⟨hc.1.1, fun hl => ?_⟩
  rcases hc.2 with h | h
  · rw [hl] at h
    cases h
  · exact ⟨of_decide_eq_true h.1, h.2⟩

/-- Changing a function at one point changes a sum by what it changes there. -/
theorem sum_update_add {β : Type} (P : Finset Nat) (w : β → Nat) (f : Nat → β) (i : Nat) (b : β) :
    ∑ k ∈ P, w (Function.update f i b k) + (if i ∈ P then w (f i) else 0) =
      ∑ k ∈ P, w (f k) + (if i ∈ P then w b else 0) := by
  have hw : (fun k => w (Function.update f i b k)) = Function.update (fun k => w (f k)) i (w b) := by
    funext k
    by_cases hk : k = i
    · subst hk
      simp
    · simp [Function.update_of_ne hk]
  by_cases hi : i ∈ P
  · have h₁ := sum_update_of_mem hi (fun k => w (f k)) (w b)
    have h₂ := sum_update_of_mem hi (fun k => w (f k)) (w (f i))
    rw [Function.update_eq_self i (fun k => w (f k))] at h₂
    rw [hw, h₁, h₂, if_pos hi, if_pos hi]
    omega
  · rw [if_neg hi, if_neg hi]
    congr 1
    apply sum_congr rfl
    intro k hk
    rw [Function.update_of_ne (ne_of_mem_of_not_mem hk hi)]

namespace Pool

variable {G : Graph} (π : Pool G)

theorem queued_append {Q Q' : Queues} {q x : Nat} (hrefs : Q'.refs = Function.update Q.refs q (Q.refs q ++ [x]))
    (y : Nat) : π.queued Q' y = π.queued Q y + one (q ∈ π.queues ∧ x = y) := by
  have h := sum_update_add π.queues (fun l => l.count y) Q.refs q (Q.refs q ++ [x])
  unfold queued
  rw [hrefs]
  by_cases hq : q ∈ π.queues
  · simp only [hq, if_true, List.count_append, List.count_singleton, true_and, beq_iff_eq, one] at h ⊢
    omega
  · simp only [hq, if_false, false_and, one] at h ⊢
    omega

theorem queued_tail {Q Q' : Queues} {q x : Nat} {l : List Nat} (hr : Q.refs q = x :: l)
    (hrefs : Q'.refs = Function.update Q.refs q l) (y : Nat) :
    π.queued Q y = π.queued Q' y + one (q ∈ π.queues ∧ x = y) := by
  have h := sum_update_add π.queues (fun l => l.count y) Q.refs q l
  unfold queued
  rw [hrefs]
  rw [hr] at h
  by_cases hq : q ∈ π.queues
  · simp only [hq, if_true, List.count_cons, true_and, beq_iff_eq, one] at h ⊢
    omega
  · simp only [hq, if_false, false_and, one] at h ⊢
    omega

theorem held_update (d : Nat → DataRefQ) (dq : Nat) (S : DataRefQ) (x : Nat) :
    π.held (Function.update d dq S) x + one (dq ∈ π.dataRefQs ∧ holds (d dq) x) =
      π.held d x + one (dq ∈ π.dataRefQs ∧ holds S x) := by
  have h := sum_update_add π.dataRefQs (fun S => one (holds S x)) d dq S
  unfold held
  by_cases hq : dq ∈ π.dataRefQs
  · simpa only [hq, if_true, true_and] using h
  · simpa only [hq, if_false, false_and] using h

theorem queued_enqueueAndExtract {Q : Queues} {q : Nat} (hq : (Q q).isSome)
    (hl : (Q.refs q).length < objDescQueueMaxDepth) (x : Nat) (out : List NodeId) (y : Nat) :
    π.queued (enqueueAndExtract Q q x out).1 y = π.queued Q y + one (q ∈ π.queues ∧ x = y) := by
  obtain ⟨he, -⟩ | ⟨-, hrefs, -, -⟩ := enqueueAndExtract_cases Q q x out
  · have := (enqueue_eq_none hq).1 he
    omega
  · exact π.queued_append hrefs y

/-- Ageing a slot moves a reference between two queues of one pool. -/
theorem queued_ageSlot {dq : Nat} {D : DataRefQDesc} (hD : G.table.dataRefQ dq = some D) {Q : Queues}
    (hq : (Q D.releaseQObjDescId).isSome)
    (hl : Q.refs D.acquireQObjDescId ≠ [] → (Q.refs D.releaseQObjDescId).length < objDescQueueMaxDepth)
    (hv : objDescInvalid ∉ Q.refs D.acquireQObjDescId) (out : List NodeId) (y : Nat) :
    π.queued (ageSlot D Q out).1 y = π.queued Q y := by
  unfold ageSlot
  obtain ⟨-, hd⟩ | ⟨x, l, Q', hr, hd, hrefs, -, hs⟩ := dequeue_cases Q D.acquireQObjDescId <;> rw [hd] <;> simp only
  · rfl
  · have hx : x ≠ objDescInvalid := fun h => hv (by rw [hr, h]; exact List.mem_cons_self)
    have hl' : (Q'.refs D.releaseQObjDescId).length < objDescQueueMaxDepth := by
      have h := hl (by rw [hr]; exact List.cons_ne_nil x l)
      rw [hrefs, Function.update_apply]
      split
      · rename_i hqq
        rw [hqq, hr, List.length_cons] at h
        omega
      · exact h
    rw [if_neg hx, π.queued_enqueueAndExtract ((hs _).trans hq) hl', π.queued_tail hr hrefs]
    simp only [← π.acquireQ dq D hD, ← π.releaseQ dq D hD]

end Pool

theorem count_le_agedQueues {T : ObjDescTable} {hostOnly : Bool} {Q : Queues} (q : Nat) :
    ∀ (k : Nat) (D : DataRefQDesc) (l : List Nat), l.count q ≤ (agedQueues T hostOnly Q k D l).count q
  | 0, _, _ => Nat.le_refl _
  | k + 1, D, l => by
    unfold agedQueues
    split
    · exact Nat.le_refl _
    · rename_i N hN
      refine Nat.le_trans ?_ (count_le_agedQueues q k N _)
      split
      · exact List.count_le_count_cons
      · exact Nat.le_refl _

/-- What a release needs of the queues: they exist and hold ids of descriptors. -/
structure Queues.Ready (T : ObjDescTable) (Q : Queues) : Prop where
  sound : Q.Sound T
  isSome : ∀ dq D, T.dataRefQ dq = some D → (Q D.acquireQObjDescId).isSome ∧ (Q D.releaseQObjDescId).isSome

theorem Queues.Ready.ageSlot {T : ObjDescTable} {Q : Queues} (h : Q.Ready T) (D : DataRefQDesc) (out : List NodeId) :
    (ageSlot D Q out).1.Ready T := by
  refine ⟨h.sound.ageSlot D out, fun dq N hN => ?_⟩
  rw [ageSlot_isSome, ageSlot_isSome]
  exact h.isSome dq N hN

namespace Pool

variable {G : Graph} (π : Pool G)

/-- Where every queue has room for what it is given, ageing the slots of a delay moves references inside a pool. -/
theorem queued_releaseParameterInDelay {hostOnly : Bool} {Q₀ : Queues} (hT : G.table.numEntries ≤ objDescInvalid) :
    ∀ (k : Nat) (D : DataRefQDesc) {Q : Queues} {out : List NodeId} {l : List Nat}, FilledFrom Q₀ Q out l →
      Q.Ready G.table → (∀ q, (Q₀.refs q).length + (agedQueues G.table hostOnly Q₀ k D l).count q ≤ objDescQueueMaxDepth) →
      ∀ y, π.queued (ownTargetNodeDescReleaseParameterInDelay G.table hostOnly k D Q out).1 y = π.queued Q y
  | 0, _, _, _, _, _, _, _, _ => rfl
  | k + 1, D, Q, out, l, h, hR, hl, y => by
    unfold ownTargetNodeDescReleaseParameterInDelay
    unfold agedQueues at hl
    cases hN : G.table.dataRefQ D.nextObjDescIdInDelay with
    | none => rfl
    | some N =>
      rw [hN] at hl
      simp only at hl ⊢
      cases ha : hostOnly && N.delaySlotAutoAge with
      | false =>
        rw [ha] at hl
        exact queued_releaseParameterInDelay hT k N h hR hl y
      | true =>
        simp only [ha, Bool.true_and] at hl
        have h' := h.ageSlot N
        have hage : π.queued (ageSlot N Q out).1 y = π.queued Q y := by
          refine π.queued_ageSlot hN (hR.isSome _ N hN).2 (fun hne => ?_) (hR.sound.invalid_not_mem hT _) out y
          have hq := h.refs_length_le N.releaseQObjDescId
          have hk := hl N.releaseQObjDescId
          rw [if_pos (by simpa using h.refs_ne_nil N.acquireQObjDescId hne)] at hk
          have hc := @count_le_agedQueues G.table hostOnly Q₀ N.releaseQObjDescId k N (N.releaseQObjDescId :: l)
          rw [List.count_cons_self] at hc
          omega
        rw [if_pos rfl, ← hage]
        exact queued_releaseParameterInDelay hT k N h' (hR.ageSlot N out) hl y

/-- **A release with room gives its reference to one queue** and moves no other out of a pool. -/
theorem queued_releaseToQueue {hostOnly : Bool} {dq : Nat} {D : DataRefQDesc} (hT : G.table.numEntries ≤ objDescInvalid)
    (hD : G.table.dataRefQ dq = some D) {Q : Queues} (hR : Q.Ready G.table) {x : Nat} (hx : x < G.table.numEntries)
    (hroom : roomForRefs G.table hostOnly D Q = true) (y : Nat) :
    π.queued (releaseToQueue G.table hostOnly D x Q).1 y = π.queued Q y + one (dq ∈ π.dataRefQs ∧ x = y) := by
  have hl : ∀ q, (Q.refs q).length + (refilledQueues G.table hostOnly Q D).count q ≤ objDescQueueMaxDepth := by
    intro q
    by_cases hq : q ∈ refilledQueues G.table hostOnly Q D
    · exact of_decide_eq_true (List.all_eq_true.1 hroom q hq)
    · rw [List.count_eq_zero_of_not_mem hq]
      exact Q.refs_length_le q
  have hc : 1 ≤ (refilledQueues G.table hostOnly Q D).count D.releaseQObjDescId := by
    unfold refilledQueues
    split
    · exact Nat.le_trans (by simp) (count_le_agedQueues D.releaseQObjDescId _ D [D.releaseQObjDescId])
    · simp
  have hfirst : π.queued (enqueueAndExtract Q D.releaseQObjDescId x []).1 y =
      π.queued Q y + one (dq ∈ π.dataRefQs ∧ x = y) := by
    have hq := hl D.releaseQObjDescId
    rw [π.queued_enqueueAndExtract (hR.isSome dq D hD).2 (by omega)]
    simp only [← π.releaseQ dq D hD]
  unfold releaseToQueue
  simp only
  split
  · rename_i hdelay
    rw [← hfirst]
    unfold refilledQueues at hl
    rw [if_pos hdelay] at hl
    refine π.queued_releaseParameterInDelay hT _ D (FilledFrom.start.enqueueAndExtract _ x) ?_ hl y
    refine ⟨hR.sound.enqueueAndExtract _ hx [], fun k N hN => ?_⟩
    obtain ⟨-, he⟩ | ⟨-, -, -, hs⟩ := enqueueAndExtract_cases Q D.releaseQObjDescId x []
    · rw [he]
      exact hR.isSome k N hN
    · rw [hs, hs]
      exact hR.isSome k N hN
  · exact hfirst

variable {π} {Q₀ : Queues} {x : Nat}

/-- Releasing a parameter: its queue and descriptor give up together what they gain, but for what a kernel exchanged. -/
theorem Conserved.release (π : Pool G) {s : Sys} {hostOnly : Bool} {dq ref : Nat} {D : DataRefQDesc} {isInput : Bool}
    {R : Released} {E : Option (Nat × Nat)} (hT : G.table.numEntries ≤ objDescInvalid)
    (hQ : s.shm.queue.Ready G.table) (hD : G.table.dataRefQ dq = some D)
    (hR : R = ownTargetNodeDescReleaseParameter G.table hostOnly dq D ref isInput s.shm)
    (hE : E = exchangedRefs (s.shm.dataRefQ dq) ref isInput R)
    (hc : isLastRelease (s.shm.dataRefQ dq) D isInput = true → (s.shm.dataRefQ dq).isRefAcquired = true ∧
      ref < G.table.numEntries ∧ roomForRefs G.table hostOnly D s.shm.queue = true) :
    π.queued R.shm.queue x + π.held R.shm.dataRefQ x + [Event.released dq E].countP (π.isKept x) =
      π.queued s.shm.queue x + π.held s.shm.dataRefQ x + [Event.released dq E].countP (π.isGiven x) := by
  have hq := @releaseParameter_queue G.table hostOnly dq D ref isInput s.shm
  have hs := @releaseParameter_dataRefQ G.table hostOnly dq D ref isInput s.shm
  have hp := @releaseParameter_isPrmReleased G.table hostOnly dq D ref isInput s.shm
  have hd : R.shm.dataRefQ = Function.update s.shm.dataRefQ dq (R.shm.dataRefQ dq) := by
    funext k
    by_cases hk : k = dq
    · rw [hk, Function.update_self]
    · rw [Function.update_of_ne hk, hR, releaseParameter_dataRefQ_ne hk]
  have hu := π.held_update s.shm.dataRefQ dq (R.shm.dataRefQ dq) x
  rw [← hd] at hu
  rw [← hR] at hq hs hp
  have hkept : [Event.released dq E].countP (π.isKept x) = one (dq ∈ π.dataRefQs ∧ E.map Prod.fst = some x) := by
    cases E <;> simp [isKept, List.countP_singleton]
  have hgiven : [Event.released dq E].countP (π.isGiven x) = one (dq ∈ π.dataRefQs ∧ E.map Prod.snd = some x) := by
    cases E <;> simp [isGiven, List.countP_singleton]
  rw [hkept, hgiven]
  cases hl : isLastRelease (s.shm.dataRefQ dq) D isInput with
  | true =>
    -- the descriptor gives the reference up, and the queue takes what the kernel left
    obtain ⟨ha, hlt, hroom⟩ := hc hl
    have hrel : R.isPrmReleased = true := hp.2 ⟨hlt, by cases isInput <;> simpa [isLastRelease] using hl⟩
    have hS : (R.shm.dataRefQ dq).isRefAcquired = false := by
      rw [hs]
      cases isInput <;> simp only [isLastRelease, if_true, Bool.false_eq_true, if_false, decide_eq_true_eq] at hl <;>
        simp [hl]
    rw [hq, if_pos hrel, π.queued_releaseToQueue hT hD hQ hlt hroom]
    simp only [holds, hS, ha, Bool.false_eq_true, false_and, and_false, if_false, true_and] at hu
    simp only [exchangedRefs, ha, hrel, Bool.or_true, Bool.true_and, bne_iff_ne, ne_eq, Bool.and_true] at hE
    by_cases hr : (s.shm.dataRefQ dq).refObjDescId = ref
    · rw [if_neg (by simp [hr])] at hE
      rw [hE]
      simp only [hr, Option.map_none, reduceCtorEq, and_false, if_false] at hu ⊢
      omega
    · rw [if_pos hr] at hE
      rw [hE]
      simp only [Option.map_some, Option.some.injEq] at hu ⊢
      omega
  | false =>
    have hrel : R.isPrmReleased = false := by
      cases hrel : R.isPrmReleased with
      | false => rfl
      | true =>
        have h := (hp.1 hrel).2
        have hl' : isLastRelease (s.shm.dataRefQ dq) D isInput = true := by
          cases isInput <;> simpa [isLastRelease] using h
        rw [hl] at hl'
        cases hl'
    rw [hq, if_neg (by simp [hrel])]
    cases isInput with
    | true =>
      -- another consumer still has it
      simp only [isLastRelease, if_true, decide_eq_false_iff_not] at hl
      simp only [exchangedRefs, hrel, Bool.not_true, Bool.or_self, Bool.and_false, Bool.false_and, Bool.false_eq_true,
        if_false] at hE
      simp only [if_true, hl, decide_false, Bool.not_false, Bool.and_true] at hs
      rw [hs] at hu
      have hu : π.held R.shm.dataRefQ x + one (dq ∈ π.dataRefQs ∧ holds (s.shm.dataRefQ dq) x) =
        π.held s.shm.dataRefQ x + one (dq ∈ π.dataRefQs ∧ holds (s.shm.dataRefQ dq) x) := hu
      rw [hE]
      simp only [Option.map_none, reduceCtorEq, and_false, if_false]
      omega
    | false =>
      -- the descriptor takes over what the kernel left
      simp only [isLastRelease, Bool.false_eq_true, if_false, decide_eq_false_iff_not] at hl
      simp only [Bool.false_eq_true, if_false, hl] at hs
      rw [hs] at hu
      simp only [exchangedRefs, Bool.not_false, Bool.true_or, Bool.and_true] at hE
      cases ha : (s.shm.dataRefQ dq).isRefAcquired with
      | false =>
        simp only [ha, Bool.false_and, Bool.false_eq_true, if_false] at hE
        simp only [holds, ha, Bool.false_eq_true, false_and, and_false, if_false] at hu
        rw [hE]
        simp only [Option.map_none, reduceCtorEq, and_false, if_false]
        omega
      | true =>
        simp only [ha, Bool.true_and, bne_iff_ne, ne_eq] at hE
        simp only [holds, ha, true_and] at hu
        by_cases hr : (s.shm.dataRefQ dq).refObjDescId = ref
        · rw [if_neg (by simp [hr])] at hE
          rw [hE]
          simp only [hr, Option.map_none, reduceCtorEq, and_false, if_false] at hu ⊢
          omega
        · rw [if_pos hr] at hE
          rw [hE]
          simp only [Option.map_some, Option.some.injEq]
          omega

theorem Conserved.kept {s s' : Sys} {a : Act} (hG : G.Verified) (hQ : s.shm.queue.Ready G.table)
    (h : π.Conserved Q₀ s x) (hc : handsBack G s a = true) (hs : Step G s a s') :
    π.Conserved Q₀ s' x := by
  unfold Conserved at h ⊢
  cases hs with
  | parked hpc hN hm =>
    obtain ⟨hq, hd⟩ := isPrevPipeNodeBlocked_queue hm
    simp only [Sys.setPc, Sys.log, hq, hd]
    exact h
  | proceeded hpc hN hm =>
    obtain ⟨hq, hd⟩ := isPrevPipeNodeBlocked_queue hm
    simp only [Sys.setPc, Sys.log, hq, hd]
    exact h
  | @acquirePrm t n N pipeup prms P D hpc hN hP hq hD =>
    obtain ⟨-, hs'⟩ | ⟨y, l, Q, ha, hr, -, hrefs, -, hs'⟩ | ⟨Q, -, -, -, hQb, hs'⟩ | ⟨-, -, -, hs'⟩ :=
      afterAcquire_cases hG.numEntries_le hQ.sound t n pipeup prms P.dataRefQId D rfl <;> rw [hs']
    · exact h
    · have hqu := π.queued_tail hr hrefs x
      simp only [← π.acquireQ _ D hD] at hqu
      cases pipeup with
      | zero =>
        -- the descriptor holds the reference now
        have hu := π.held_update s.shm.dataRefQ P.dataRefQId ⟨true, y, 0⟩ x
        simp only [holds, ha, Bool.false_eq_true, false_and, and_false, if_false, true_and] at hu
        simp only [Sys.setPc, Sys.log, List.countP_cons, isDequeued, isKept, isEnqueued, isGiven, Nat.lt_irrefl,
          decide_false, if_false, Bool.false_eq_true]
        omega
      | succ p =>
        -- the kernel has it
        simp only [Sys.setPc, Sys.log, List.countP_cons, isDequeued, isKept, isEnqueued, isGiven, Nat.succ_pos,
          decide_true, if_true, decide_eq_true_eq, Bool.false_eq_true, if_false, one] at hqu ⊢
        omega
    · have hqb : π.queued Q x = π.queued s.shm.queue x := by
        unfold queued
        rw [(addBlockedNode_eq_some hQb).2.1]
      simp only [Sys.setPc, Sys.log, hqb]
      exact h
    · exact h
  | @releasePrm t n N prms prmId blocked P D R E hpc hN hP hq hD hR hE =>
    have hlast : isLastRelease (s.shm.dataRefQ P.dataRefQId) D (P.isInput || P.isBidi) = true →
        (s.shm.dataRefQ P.dataRefQId).isRefAcquired = true ∧ prms.getD prmId objDescInvalid < G.table.numEntries ∧
          roomForRefs G.table (G.isHostOnly t) D s.shm.queue = true := by
      intro hl
      have h := handsBack_release hc hpc hN hP hq hD (by simp [isSharedRelease, hl])
      exact ⟨h.1, h.2 hl⟩
    have hrel := Conserved.release π (x := x) hG.numEntries_le hQ hD hR hE hlast
    have hk : ∀ f : Event → Bool, f (.handedOut R.blockedNodes) = false →
        (Event.handedOut R.blockedNodes :: .released P.dataRefQId E :: s.trace).countP f =
          [Event.released P.dataRefQId E].countP f + s.trace.countP f := by
      intro f hf
      rw [List.countP_cons_of_neg (by simp [hf]), ← List.singleton_append, List.countP_append]
    simp only [Sys.setPc, Sys.log, hk (π.isDequeued x) rfl, hk (π.isKept x) rfl, hk (π.isEnqueued x) rfl,
      hk (π.isGiven x) rfl]
    have hd : [Event.released P.dataRefQId E].countP (π.isDequeued x) = 0 := rfl
    have he : [Event.released P.dataRefQId E].countP (π.isEnqueued x) = 0 := rfl
    omega
  | enqueueFailed => exact h
  | @enqueued u g ref P Q hpc hP hr hE =>
    have hqu : π.queued (ownObjDescQueueExtractBlockedNodes Q P.readyQ []).1 x = π.queued s.shm.queue x +
        one (P.readyQ ∈ π.queues ∧ ref = x) := by
      apply π.queued_append
      rw [(extractBlockedNodes_spec Q P.readyQ []).2.1, (enqueue_eq_some hE).1]
    simp only [Sys.setPc, Sys.log, hqu, List.countP_cons, isDequeued, isKept, isEnqueued, isGiven, decide_eq_true_eq,
      Bool.false_eq_true, if_false, one]
    omega
  | @dequeued u g P ref Q hpc hP hd hr =>
    obtain ⟨-, hd'⟩ | ⟨y, l, Q', hr', hd', hrefs, -, -⟩ := dequeue_cases s.shm.queue P.doneQ <;> rw [hd] at hd' <;>
      cases hd'
    · exact absurd rfl hr
    · have hqu := π.queued_tail hr' hrefs x
      simp only [Sys.log, List.countP_cons, isDequeued, isKept, isEnqueued, isGiven, decide_eq_true_eq,
        Bool.false_eq_true, if_false, one] at hqu ⊢
      omega
  | _ => exact h

end Pool

/-- A node that fills two buffers in its pipe-up and writes graph parameter 0. -/
def pipeupSource : Graph where
  table := {
    numEntries := 100
    dataRefQ := fun
      | 10 => some { acquireQObjDescId := 0, releaseQObjDescId := 1, numInNodes := 0 }
      | _ => none
    node := fun
      | ⟨0, 0⟩ => some {
          targetId := 1
          prms := [{ isDataRefQ := true, isInput := false, dataRefQId := 10 }]
          inNodeId := []
          outNodeId := []
          prevPipeNodeId := none }
      | _ => none
    kernelInstance := fun _ => some 2 }
  hostOnly := fun _ => true
  hostTarget := 0
  numNodes := 1
  pipelineDepth := 1
  headNodes := [0]
  numLeafNodes := 1
  isNormal := false
  parameters := [⟨0, 1, [50, 51]⟩]

theorem pipeupSource_verified : pipeupSource.Verified := ⟨by decide, by decide⟩

/-- The queues of the graph parameter, empty, and the kernel still to fill its pipe. -/
def pipeupSourceStart : Sys :=
  let s := Sys.start pipeupSource (enqueueAll [] (createQueues 2))
  { s with shm := { s.shm with kernelInstance := fun _ => .pipeup } }

theorem pipeupSource_starts : Starts pipeupSource pipeupSourceStart := by
  have h : Starts pipeupSource (Sys.start pipeupSource (enqueueAll [] (createQueues 2))) := by
    refine starts_primed (fun x hx => by cases hx) (fun dq D h => ?_)
    simp only [pipeupSource] at h
    split at h <;> cases h
    decide
  exact { h with }

end Tiovx
