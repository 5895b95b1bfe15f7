import Tiovx.AcquireAll
/-!
# WakeUps — every node recorded as blocked is handed out once

A release, a user's enqueue and the ageing of a delay's slots each hand out the nodes recorded on the queue they
refill.  The list they hand them out in has room for eight nodes, and one release can refill several queues.  While
the nodes fit and no node is recorded twice, the records and the hand-outs of a node alternate.
-/
namespace Tiovx

open StepSystem

/-- The queue node `n` is recorded on, after these events. -/
def waitingOn (n : NodeId) : List Event → Option Nat
  | .recorded q k :: l => if k = n then some q else waitingOn n l
  | .handedOut nodes :: l => if n ∈ nodes then none else waitingOn n l
  | _ :: l => waitingOn n l
  | [] => none

/-- Every record is of a node that is not recorded; every hand-out fits its list and is of nodes that are, each once. -/
def wakesOnce : List Event → Prop
  | .recorded _ n :: l => waitingOn n l = none ∧ wakesOnce l
  | .handedOut nodes :: l => nodes.length ≤ objDescQueueMaxBlockedNodes ∧ nodes.Nodup ∧
      (∀ n ∈ nodes, (waitingOn n l).isSome) ∧ wakesOnce l
  | _ :: l => wakesOnce l
  | [] => True

/-- **What is promised of the blocked nodes**: records and hand-outs alternate, the recorded nodes are those recorded and
not handed out, and no node stays recorded on a queue with a reference. -/
structure WakesUp (s : Sys) : Prop where
  once : wakesOnce s.trace
  recorded_iff : ∀ n q, n ∈ s.shm.queue.blockedOn q ↔ waitingOn n s.trace = some q
  notWaiting : ∀ q, s.shm.queue.refs q ≠ [] → s.shm.queue.blockedOn q = []

/-- The queues `l` that are refilled, with those that ageing up to `k` slots after `D` refills: an auto-aged slot refills
its release queue where its acquire queue holds a reference or is refilled before. -/
def agedQueues (T : ObjDescTable) (hostOnly : Bool) (Q : Queues) : Nat → DataRefQDesc → List Nat → List Nat
  | 0, _, l => l
  | k + 1, D, l =>
    match T.dataRefQ D.nextObjDescIdInDelay with
    | none => l
    | some N => agedQueues T hostOnly Q k N
        (if hostOnly && N.delaySlotAutoAge && (!(Q.refs N.acquireQObjDescId).isEmpty || l.contains N.acquireQObjDescId)
          then N.releaseQObjDescId :: l else l)

/-- The queues a release of `D` refills. -/
def refilledQueues (T : ObjDescTable) (hostOnly : Bool) (Q : Queues) (D : DataRefQDesc) : List Nat :=
  if D.isInDelay then agedQueues T hostOnly Q (D.delaySlots - 1) D [D.releaseQObjDescId] else [D.releaseQObjDescId]

/-- How many nodes are recorded on these queues. -/
def numBlocked (Q : Queues) (l : List Nat) : Nat := (l.map (fun q => (Q.blockedOn q).length)).sum

/-- Node `n` is recorded on a queue of one of its parameters. -/
def isRecorded (G : Graph) (s : Sys) (n : NodeId) : Bool :=
  ((G.table.node n).map NodeDesc.prms).any fun l => (List.range l.length).any fun i =>
    (G.prmQueue n i).any fun q => decide (n ∈ s.shm.queue.blockedOn q.2.acquireQObjDescId)

/-- The condition on a step: a node that has to wait is not recorded yet, and on the queues that a release refills there
are no more nodes than its list has room for. -/
def wakesFit (G : Graph) (s : Sys) : Act → Bool
  | .thread t =>
    match s.pc t with
    | .acquire n _ prms => (G.prmQueue n prms.length).all fun q => !mustWait s q.1 q.2 || !isRecorded G s n
    | .release n _ prmId _ => (G.prmQueue n prmId).all fun q => decide
        (numBlocked s.shm.queue (refilledQueues G.table (G.isHostOnly t) s.shm.queue q.2) ≤ objDescQueueMaxBlockedNodes)
    | _ => true
  | _ => true

/-- `out` are the nodes handed out on the way from `Q₀` to `Q`. -/
structure HandsOut (Q₀ Q : Queues) (out : List NodeId) : Prop where
  nodup : out.Nodup
  eq_or_nil : ∀ q, Q.blockedOn q = Q₀.blockedOn q ∨ Q.blockedOn q = []
  mem_iff : ∀ n, n ∈ out ↔ ∃ q, n ∈ Q₀.blockedOn q ∧ Q.blockedOn q = []

/-- No node is recorded twice, on one queue or on two. -/
structure RecordedOnce (Q : Queues) : Prop where
  nodup : ∀ q, (Q.blockedOn q).Nodup
  unique : ∀ n q q', n ∈ Q.blockedOn q → n ∈ Q.blockedOn q' → q = q'

theorem HandsOut.start {Q : Queues} : HandsOut Q Q [] := by
  refine ⟨List.nodup_nil, fun q => .inl rfl, fun n => ⟨(fun h => by cases h), ?_⟩⟩
  rintro ⟨q, hn, hq⟩
  rw [hq] at hn
  cases hn

/-- Handing out the nodes of one more queue. -/
theorem HandsOut.extract {Q₀ Q Q' : Queues} {out : List NodeId} {q : Nat} (h₀ : RecordedOnce Q₀)
    (h : HandsOut Q₀ Q out) (hb : Q'.blockedOn = Function.update Q.blockedOn q []) :
    HandsOut Q₀ Q' (out ++ Q.blockedOn q) := by
  have hnil : ∀ k, Q'.blockedOn k = [] ↔ k = q ∨ Q.blockedOn k = [] := by
    intro k
    rw [hb, Function.update_apply]
    split
    · rename_i hk
      simp [hk]
    · rename_i hk
      simp [hk]
  refine ⟨?_, fun k => ?_, fun n => ?_⟩
  · refine List.nodup_append.2 ⟨h.nodup, ?_, fun a ha b hb' hab => ?_⟩
    · obtain hq | hq := h.eq_or_nil q <;> rw [hq]
      · exact h₀.nodup q
      · exact List.nodup_nil
    · subst hab
      obtain ⟨k, hk, hkn⟩ := (h.mem_iff a).1 ha
      obtain hq | hq := h.eq_or_nil q <;> rw [hq] at hb'
      · cases h₀.unique a k q hk hb'
        rw [hkn] at hq
        rw [← hq] at hb'
        cases hb'
      · cases hb'
  · rw [hb, Function.update_apply]
    split
    · exact .inr rfl
    · exact h.eq_or_nil k
  · rw [List.mem_append, h.mem_iff n]
    constructor
    · rintro (⟨k, hk, hkn⟩ | hn)
      · exact ⟨k, hk, (hnil k).2 (.inr hkn)⟩
      · obtain hq | hq := h.eq_or_nil q <;> rw [hq] at hn
        · exact ⟨q, hn, (hnil q).2 (.inl rfl)⟩
        · cases hn
    · rintro ⟨k, hk, hkn⟩
      obtain rfl | hkn := (hnil k).1 hkn
      · obtain hq | hq := h.eq_or_nil k
        · exact .inr (hq ▸ hk)
        · exact .inl ⟨k, hk, hq⟩
      · exact .inl ⟨k, hk, hkn⟩

theorem HandsOut.enqueueAndExtract {Q₀ Q : Queues} {out : List NodeId} (h₀ : RecordedOnce Q₀) (h : HandsOut Q₀ Q out)
    (q x : Nat) : HandsOut Q₀ (enqueueAndExtract Q q x out).1 (enqueueAndExtract Q q x out).2 := by
  obtain ⟨-, he⟩ | ⟨ho, -, hb, -⟩ := enqueueAndExtract_cases Q q x out
  · rw [he]
    exact h
  · rw [ho]
    exact h.extract h₀ hb

theorem HandsOut.ageSlot {Q₀ Q : Queues} {out : List NodeId} (h₀ : RecordedOnce Q₀) (h : HandsOut Q₀ Q out)
    (D : DataRefQDesc) : HandsOut Q₀ (ageSlot D Q out).1 (ageSlot D Q out).2 := by
  unfold Tiovx.ageSlot
  obtain ⟨-, hd⟩ | ⟨x, l, Q', -, hd, -, hb, -⟩ := dequeue_cases Q D.acquireQObjDescId <;> rw [hd] <;> simp only
  · simpa using h
  · have h' : HandsOut Q₀ Q' out := ⟨h.nodup, fun q => by rw [hb]; exact h.eq_or_nil q, fun n => by rw [hb]; exact h.mem_iff n⟩
    split
    · exact h'
    · exact h'.enqueueAndExtract h₀ _ _

/-- **A release hands out the nodes of the queues it empties**, each once. -/
theorem handsOut_releaseToQueue {T : ObjDescTable} {hostOnly : Bool} {D : DataRefQDesc} {x : Nat} {Q : Queues}
    (h₀ : RecordedOnce Q) : HandsOut Q (releaseToQueue T hostOnly D x Q).1 (releaseToQueue T hostOnly D x Q).2 :=
  releaseToQueue_rule (HandsOut.start.enqueueAndExtract h₀ _ _) (fun _ N _ _ _ _ h => h.ageSlot h₀ N)

/-- On the way from `Q₀` to `Q`, the nodes handed out come from the queues `l`, and only these were given references,
each as often as it is in the list. -/
structure FilledFrom (Q₀ Q : Queues) (out : List NodeId) (l : List Nat) : Prop where
  length_le : out.length ≤ numBlocked Q₀ l
  blockedOn_le : ∀ q, (Q.blockedOn q).length ≤ (Q₀.blockedOn q).length
  refs_ne_nil : ∀ q, Q.refs q ≠ [] → Q₀.refs q ≠ [] ∨ q ∈ l
  refs_length_le : ∀ q, (Q.refs q).length ≤ (Q₀.refs q).length + l.count q

theorem FilledFrom.start {Q : Queues} : FilledFrom Q Q [] [] :=
  ⟨Nat.zero_le _, fun _ => Nat.le_refl _, fun _ h => .inl h, fun _ => Nat.le_add_right _ _⟩

/-- A longer list of queues allows no less. -/
theorem FilledFrom.cons {Q₀ Q : Queues} {out : List NodeId} {l : List Nat} (h : FilledFrom Q₀ Q out l) (q : Nat) :
    FilledFrom Q₀ Q out (q :: l) := by
  refine ⟨?_, h.blockedOn_le, fun k hk => (h.refs_ne_nil k hk).imp_right (List.mem_cons_of_mem q), fun k => ?_⟩
  · have hl := h.length_le
    simp only [numBlocked, List.map_cons, List.sum_cons] at *
    omega
  · have hk := h.refs_length_le k
    have hc : l.count k ≤ (q :: l).count k := List.count_le_count_cons
    omega

/-- Taking a reference from a queue fills none. -/
theorem FilledFrom.dequeue {Q₀ Q Q' : Queues} {out : List NodeId} {l r : List Nat} {q x : Nat}
    (h : FilledFrom Q₀ Q out l) (hr : Q.refs q = x :: r) (hrefs : Q'.refs = Function.update Q.refs q r)
    (hb : Q'.blockedOn = Q.blockedOn) : FilledFrom Q₀ Q' out l := by
  refine ⟨h.length_le, fun k => by rw [hb]; exact h.blockedOn_le k, fun k hk => ?_, fun k => ?_⟩
  · refine h.refs_ne_nil k (fun hn => hk ?_)
    rw [hrefs, Function.update_apply]
    split
    · rename_i hkq
      rw [hkq, hr] at hn
      cases hn
    · exact hn
  · have hk := h.refs_length_le k
    rw [hrefs, Function.update_apply]
    split
    · rename_i hkq
      rw [hkq, hr, List.length_cons] at hk
      rw [hkq]
      omega
    · exact hk

theorem FilledFrom.enqueueAndExtract {Q₀ Q : Queues} {out : List NodeId} {l : List Nat} (h : FilledFrom Q₀ Q out l)
    (q x : Nat) : FilledFrom Q₀ (enqueueAndExtract Q q x out).1 (enqueueAndExtract Q q x out).2 (q :: l) := by
  obtain ⟨-, he⟩ | ⟨ho, hrefs, hb', -⟩ := enqueueAndExtract_cases Q q x out
  · rw [he]
    exact h.cons q
  · refine ⟨?_, fun k => ?_, fun k hk => ?_, fun k => ?_⟩
    · have hl := h.length_le
      have hq := h.blockedOn_le q
      rw [ho, List.length_append]
      simp only [numBlocked, List.map_cons, List.sum_cons] at *
      omega
    · rw [hb', Function.update_apply]
      split
      · exact Nat.zero_le _
      · exact h.blockedOn_le k
    · by_cases hkq : k = q
      · exact .inr (hkq ▸ List.mem_cons_self)
      · rw [hrefs, Function.update_of_ne hkq] at hk
        exact (h.refs_ne_nil k hk).imp_right (List.mem_cons_of_mem q)
    · by_cases hkq : k = q
      · subst hkq
        have hk := h.refs_length_le k
        rw [hrefs, Function.update_self, List.length_append, List.length_singleton, List.count_cons_self]
        omega
      · rw [hrefs, Function.update_of_ne hkq, List.count_cons_of_ne (Ne.symm hkq)]
        exact h.refs_length_le k

theorem FilledFrom.ageSlot {Q₀ Q : Queues} {out : List NodeId} {l : List Nat} (h : FilledFrom Q₀ Q out l)
    (D : DataRefQDesc) : FilledFrom Q₀ (ageSlot D Q out).1 (ageSlot D Q out).2
      (if !(Q₀.refs D.acquireQObjDescId).isEmpty || l.contains D.acquireQObjDescId then D.releaseQObjDescId :: l
        else l) := by
  unfold Tiovx.ageSlot
  obtain ⟨-, hd⟩ | ⟨x, r, Q', hr, hd, hrefs, hb, -⟩ := dequeue_cases Q D.acquireQObjDescId <;> rw [hd] <;> simp only
  · simp only [if_true]
    split
    · exact h.cons _
    · exact h
  · have h' : FilledFrom Q₀ Q' out l := h.dequeue hr hrefs hb
    -- the slot's queue held a reference
    have hc : (!(Q₀.refs D.acquireQObjDescId).isEmpty || l.contains D.acquireQObjDescId) = true := by
      simpa using h.refs_ne_nil D.acquireQObjDescId (by rw [hr]; exact List.cons_ne_nil x r)
    rw [if_pos hc]
    split
    · exact h'.cons _
    · exact h'.enqueueAndExtract _ _

theorem FilledFrom.releaseParameterInDelay {T : ObjDescTable} {hostOnly : Bool} {Q₀ : Queues} : ∀ (k : Nat)
    (D : DataRefQDesc) {Q : Queues} {out : List NodeId} {l : List Nat}, FilledFrom Q₀ Q out l →
      FilledFrom Q₀ (ownTargetNodeDescReleaseParameterInDelay T hostOnly k D Q out).1
        (ownTargetNodeDescReleaseParameterInDelay T hostOnly k D Q out).2 (agedQueues T hostOnly Q₀ k D l)
  | 0, _, _, _, _, h => h
  | k + 1, D, Q, out, l, h => by
    unfold ownTargetNodeDescReleaseParameterInDelay agedQueues
    cases T.dataRefQ D.nextObjDescIdInDelay with
    | none => exact h
    | some N =>
      refine FilledFrom.releaseParameterInDelay k N ?_
      cases hostOnly && N.delaySlotAutoAge with
      | false => exact h
      | true => simpa only [if_true, Bool.true_and] using h.ageSlot N

/-- **A release hands out no more nodes than are recorded on the queues it refills.** -/
theorem releaseToQueue_length (T : ObjDescTable) (hostOnly : Bool) (D : DataRefQDesc) (x : Nat) (Q : Queues) :
    (releaseToQueue T hostOnly D x Q).2.length ≤ numBlocked Q (refilledQueues T hostOnly Q D) := by
  have h := (FilledFrom.start (Q := Q)).enqueueAndExtract D.releaseQObjDescId x
  unfold releaseToQueue refilledQueues
  simp only
  split
  · exact (h.releaseParameterInDelay _ D).length_le
  · exact h.length_le

/-- The records of a state: once each, on a queue of one of the node's parameters, and as the events tell. -/
structure RecordsMatch (G : Graph) (s : Sys) : Prop where
  once : wakesOnce s.trace
  recorded_iff : ∀ n q, n ∈ s.shm.queue.blockedOn q ↔ waitingOn n s.trace = some q
  nodup : ∀ q, (s.shm.queue.blockedOn q).Nodup
  prm : ∀ n q, n ∈ s.shm.queue.blockedOn q → ∃ i dq D, G.prmQueue n i = some (dq, D) ∧ D.acquireQObjDescId = q

theorem RecordsMatch.recordedOnce {G : Graph} {s : Sys} (h : RecordsMatch G s) : RecordedOnce s.shm.queue := by
  refine ⟨h.nodup, fun n q q' hq hq' => ?_⟩
  rw [h.recorded_iff] at hq hq'
  rw [hq] at hq'
  exact Option.some.inj hq'

theorem isRecorded_of_mem {G : Graph} {s : Sys} (h : RecordsMatch G s) {n : NodeId} {q : Nat}
    (hm : n ∈ s.shm.queue.blockedOn q) : isRecorded G s n = true := by
  obtain ⟨i, dq, D, hD, rfl⟩ := h.prm n q hm
  obtain ⟨N, P, hN, hP, -⟩ := Graph.prmQueue_eq_some.1 hD
  simp only [isRecorded, hN, Option.map_some, Option.any_some, List.any_eq_true, List.mem_range]
  exact ⟨i, (List.getElem?_eq_some_iff.1 hP).1, by simp [hD, hm]⟩

/-- A step that hands out nodes, and records none. -/
theorem RecordsMatch.handOut {G : Graph} {s s' : Sys} {out : List NodeId} (h : RecordsMatch G s)
    (ht : s'.trace = .handedOut out :: s.trace) (ho : HandsOut s.shm.queue s'.shm.queue out)
    (hl : out.length ≤ objDescQueueMaxBlockedNodes) : RecordsMatch G s' := by
  have hsub : ∀ n q, n ∈ s'.shm.queue.blockedOn q → n ∈ s.shm.queue.blockedOn q := by
    intro n q hn
    obtain hq | hq := ho.eq_or_nil q <;> rw [hq] at hn
    · exact hn
    · cases hn
  refine ⟨?_, fun n q => ?_, fun q => ?_, fun n q hn => h.prm n q (hsub n q hn)⟩
  · rw [ht]
    refine ⟨hl, ho.nodup, fun n hn => ?_, h.once⟩
    obtain ⟨q, hq, -⟩ := (ho.mem_iff n).1 hn
    rw [(h.recorded_iff n q).1 hq]
    rfl
  · rw [ht, waitingOn]
    split
    · rename_i hn
      obtain ⟨k, hk, hkn⟩ := (ho.mem_iff n).1 hn
      refine ⟨fun hq => ?_, fun hq => by cases hq⟩
      rw [h.recordedOnce.unique n q k (hsub n q hq) hk, hkn] at hq
      cases hq
    · rename_i hn
      rw [← h.recorded_iff]
      refine ⟨hsub n q, fun hq => ?_⟩
      obtain hq' | hq' := ho.eq_or_nil q
      · rwa [hq']
      · exact absurd ((ho.mem_iff n).2 ⟨q, hq, hq'⟩) hn
  · obtain hq | hq := ho.eq_or_nil q <;> rw [hq]
    · exact h.nodup q
    · exact List.nodup_nil

/-- A step that records a node not recorded yet. -/
theorem RecordsMatch.record {G : Graph} {s s' : Sys} {n : NodeId} {i dq : Nat} {D : DataRefQDesc}
    (h : RecordsMatch G s) (ht : s'.trace = .recorded D.acquireQObjDescId n :: s.trace)
    (hD : G.prmQueue n i = some (dq, D)) (hn : ∀ q, n ∉ s.shm.queue.blockedOn q)
    (hb : s'.shm.queue.blockedOn = Function.update s.shm.queue.blockedOn D.acquireQObjDescId
      (s.shm.queue.blockedOn D.acquireQObjDescId ++ [n])) : RecordsMatch G s' := by
  have hw : waitingOn n s.trace = none := by
    cases hw : waitingOn n s.trace with
    | none => rfl
    | some q => exact absurd ((h.recorded_iff n q).2 hw) (hn q)
  have hmem : ∀ k q, k ∈ s'.shm.queue.blockedOn q ↔
      k ∈ s.shm.queue.blockedOn q ∨ k = n ∧ q = D.acquireQObjDescId := by
    intro k q
    rw [hb, Function.update_apply]
    split
    · rename_i hq
      simp [hq]
    · rename_i hq
      simp [hq]
  refine ⟨?_, fun k q => ?_, fun q => ?_, fun k q hk => ?_⟩
  · rw [ht]
    exact ⟨hw, h.once⟩
  · rw [ht, waitingOn, hmem]
    split
    · rename_i hk
      subst hk
      simp [hn q, eq_comm]
    · rename_i hk
      rw [← h.recorded_iff]
      simp [Ne.symm hk]
  · rw [hb, Function.update_apply]
    split
    · refine List.nodup_append.2 ⟨h.nodup _, by simp, fun a ha b hb' hab => ?_⟩
      rw [List.mem_singleton] at hb'
      exact hn _ (hb' ▸ hab ▸ ha)
    · exact h.nodup q
  · obtain hk | ⟨rfl, rfl⟩ := (hmem k q).1 hk
    · exact h.prm k q hk
    · exact ⟨i, dq, D, hD, rfl⟩

theorem RecordsMatch.kept {G : Graph} {s s' : Sys} {a : Act} (hG : G.Verified) (hQ : s.shm.queue.Sound G.table)
    (h : RecordsMatch G s) (hc : wakesFit G s a = true) (hs : Step G s a s') : RecordsMatch G s' := by
  cases hs with
  | enqueueFailed => exact h
  | @enqueued u g ref P Q hpc hP hx hE =>
    have ho : HandsOut s.shm.queue (enqueueAndExtract s.shm.queue P.readyQ ref []).1
        (enqueueAndExtract s.shm.queue P.readyQ ref []).2 :=
      HandsOut.start.enqueueAndExtract h.recordedOnce _ _
    have hl := ((FilledFrom.start (Q := s.shm.queue)).enqueueAndExtract P.readyQ ref).length_le
    have hb := s.shm.queue.blockedOn_length_le P.readyQ
    simp only [enqueueAndExtract, hE, numBlocked, List.map_cons, List.map_nil, List.sum_cons, List.sum_nil] at ho hl
    refine RecordsMatch.handOut (s := { s with trace := .enqueued P.readyQ ref :: s.trace })
      ⟨h.once, h.recorded_iff, h.nodup, h.prm⟩ rfl ho (by omega)
  | @dequeued u g P ref Q hpc hP hd hx =>
    obtain ⟨-, hd'⟩ | ⟨x, l, Q', -, hd', -, hb, -⟩ := dequeue_cases s.shm.queue P.doneQ <;> rw [hd] at hd' <;> cases hd'
    · exact absurd rfl hx
    · exact ⟨h.once, fun n q => by simp only [Sys.log, hb]; exact h.recorded_iff n q,
        fun q => by simp only [Sys.log, hb]; exact h.nodup q, fun n q => by simp only [Sys.log, hb]; exact h.prm n q⟩
  | parked hpc hN hm =>
    have hq := (isPrevPipeNodeBlocked_queue hm).1
    exact ⟨h.once, fun n q => by simp only [Sys.setPc, Sys.log, hq]; exact h.recorded_iff n q,
      fun q => by simp only [Sys.setPc, Sys.log, hq]; exact h.nodup q,
      fun n q => by simp only [Sys.setPc, Sys.log, hq]; exact h.prm n q⟩
  | proceeded hpc hN hm =>
    have hq := (isPrevPipeNodeBlocked_queue hm).1
    exact ⟨h.once, fun n q => by simp only [Sys.setPc, Sys.log, hq]; exact h.recorded_iff n q,
      fun q => by simp only [Sys.setPc, Sys.log, hq]; exact h.nodup q,
      fun n q => by simp only [Sys.setPc, Sys.log, hq]; exact h.prm n q⟩
  | @acquirePrm t n N pipeup prms P D hpc hN hP hq hD =>
    have hprm := prmQueue_eq hN hP hq hD
    obtain ⟨-, hs'⟩ | ⟨x, l, Q, -, -, -, -, hb, hs'⟩ | ⟨Q, ha, he, hp, hQb, hs'⟩ | ⟨-, -, -, hs'⟩ :=
      afterAcquire_cases hG.numEntries_le hQ t n pipeup prms P.dataRefQId D rfl <;> rw [hs']
    · exact ⟨h.once, h.recorded_iff, h.nodup, h.prm⟩
    · exact ⟨h.once, fun n q => by simp only [Sys.setPc, Sys.log, hb]; exact h.recorded_iff n q,
        fun q => by simp only [Sys.setPc, Sys.log, hb]; exact h.nodup q,
        fun n q => by simp only [Sys.setPc, Sys.log, hb]; exact h.prm n q⟩
    · refine h.record rfl hprm (fun q hm => ?_) (addBlockedNode_eq_some hQb).2.2.1
      simp only [wakesFit, hpc, hprm, Option.all_some, mustWait_iff.2 ⟨ha, he⟩, Bool.not_true, Bool.false_or,
        isRecorded_of_mem h hm] at hc
      cases hc
    · exact ⟨h.once, h.recorded_iff, h.nodup, h.prm⟩
  | @releasePrm t n N prms prmId blocked P D R E hpc hN hP hq hD hR =>
    have hprm := prmQueue_eq hN hP hq hD
    simp only [wakesFit, hpc, hprm, Option.all_some, decide_eq_true_eq] at hc
    have hl := releaseToQueue_length G.table (G.isHostOnly t) D (prms.getD prmId objDescInvalid) s.shm.queue
    have hq := @releaseParameter_queue G.table (G.isHostOnly t) P.dataRefQId D (prms.getD prmId objDescInvalid)
      (P.isInput || P.isBidi) s.shm
    have hb := @releaseParameter_blockedNodes G.table (G.isHostOnly t) P.dataRefQId D (prms.getD prmId objDescInvalid)
      (P.isInput || P.isBidi) s.shm
    rw [← hR] at hq hb
    refine RecordsMatch.handOut (s := { s with trace := .released P.dataRefQId E :: s.trace })
      ⟨h.once, h.recorded_iff, h.nodup, h.prm⟩ rfl ?_ ?_
    · simp only [Sys.setPc, Sys.log]
      rw [hq, hb]
      split
      · exact handsOut_releaseToQueue h.recordedOnce
      · exact HandsOut.start
    · rw [hb]
      split
      · omega
      · exact Nat.zero_le _
  | _ => exact ⟨h.once, h.recorded_iff, h.nodup, h.prm⟩

/-- **Every recorded node is woken once**: in every run in which no node is recorded twice and no release finds more
nodes than its list has room for, records and hand-outs alternate and none is lost. -/
theorem wakesUp_of_fit {G : Graph} {s₀ s : Sys} (hG : G.Verified) (h0 : Starts G s₀)
    (h : Reach (step G) (fun s a => wakesFit G s a = true) s₀ s) : WakesUp s := by
  have hR : RecordsMatch G s := by
    refine h.inv_of (J := fun s => s.shm.queue.Sound G.table) (fun _ hr => sound_of_reach hG h0 hr) ?_
      (fun s a s' hQ hI hc hs => hI.kept hG hQ hc (step_cases hs))
    refine ⟨by rw [h0.trace]; trivial, fun n q => ?_, fun q => ?_, fun n q hn => ?_⟩
    · rw [h0.trace, h0.blockedOn]
      simp [waitingOn]
    · rw [h0.blockedOn]
      exact List.nodup_nil
    · rw [h0.blockedOn] at hn
      cases hn
  exact ⟨hR.once, hR.recorded_iff, (sound_of_reach hG h0 h).blockedOn_eq_nil⟩

/-- A delay of four slots over two instances: node 0 writes slot 0, nodes 2 to 10 read slot 1, no node is on slot 2, and
nodes 11 and 12 read slot 3.  Node 1 writes a reference that nodes 2 to 9 read. -/
def agedDelay : Graph where
  table := {
    numEntries := 100
    dataRefQ := fun dq =>
      if 10 ≤ dq ∧ dq < 18 then some {
        acquireQObjDescId := (dq - 10) / 2
        releaseQObjDescId := ((dq - 10) / 2 + 1) % 4
        numInNodes := [0, 9, 0, 2].getD ((dq - 10) / 2) 0
        isInDelay := true
        delaySlotAutoAge := decide ((dq - 10) / 2 = 2)
        nextObjDescIdInDelay := 10 + (dq - 10 + 2) % 8
        delaySlots := 4 }
      else if dq = 18 ∨ dq = 19 then some { acquireQObjDescId := 4, releaseQObjDescId := 4, numInNodes := 8 }
      else none
    node := fun ⟨i, p⟩ =>
      let slot (k : Nat) (isInput : Bool) : Prm := { isDataRefQ := true, isInput := isInput, dataRefQId := 10 + 2 * k + p }
      let node (targetId : Nat) (prms : List Prm) : NodeDesc := {
        targetId := targetId
        prms := prms
        inNodeId := []
        outNodeId := []
        prevPipeNodeId := some ⟨i, 1 - p⟩ }
      if 2 ≤ p then none
      else match i with
        | 0 => some (node 1 [slot 0 false])
        | 1 => some { node 2 [slot 4 false] with outNodeId := (List.range 8).map (fun i => ⟨i + 2, p⟩) }
        | 10 => some (node 3 [slot 1 true])
        | 11 => some (node 2 [slot 3 true])
        | 12 => some (node 3 [slot 3 true])
        | i => if i < 10 then some { node 2 [slot 4 true, slot 1 true] with inNodeId := [⟨1, p⟩] } else none }
  hostOnly := fun _ => true
  hostTarget := 0
  numNodes := 13
  pipelineDepth := 2
  headNodes := [0, 1, 10, 11, 12]
  numLeafNodes := 12
  isNormal := false
  parameters := []

theorem agedDelay_verified : agedDelay.Verified := ⟨by decide, by decide⟩

/-- One reference on each slot, and two for node 1. -/
def agedDelayStart : Sys :=
  Sys.start agedDelay (enqueueAll [(0, 50), (1, 51), (2, 52), (3, 53), (4, 54), (4, 55)] (createQueues 5))

theorem agedDelay_starts : Starts agedDelay agedDelayStart := by
  refine starts_primed (by decide) (fun dq D h => ?_)
  simp only [agedDelay] at h
  split at h
  · cases h
    simp only
    omega
  · split at h <;> cases h
    decide

/-- A node is executed from its job to the end of its kernel, which leaves the ids it was given. -/
def executeNode (id steps : Nat) (prms : List Nat) : List Act :=
  List.replicate steps (.thread (.target id)) ++ [.kernel (.target id) prms]

/-- Two runs are scheduled and target 2 works through its nodes: the readers of slots 1 and 3 execute at the first instance
and are recorded as blocked at the second.  Node 0 executes last. -/
def agedDelayRun : List Act :=
  .scheduleGraph 0 2 :: List.replicate 44 (.thread (.user 0)) ++
    executeNode 2 5 [54] ++ executeNode 2 28 [53] ++ executeNode 2 12 [55] ++ List.replicate 27 (.thread (.target 2)) ++
    executeNode 2 6 [54, 51] ++ (List.replicate 7 (executeNode 2 15 [54, 51])).flatten ++
    List.replicate 49 (.thread (.target 2)) ++ executeNode 1 5 [50] ++ List.replicate 2 (.thread (.target 1))

/-- **Nine nodes are handed out in a list of eight**: the release of slot 0 wakes the eight nodes waiting for slot 1, and
ageing slot 2 wakes the one waiting for slot 3. -/
theorem agedDelay_hands_out_nine : agedDelay.Verified ∧ Starts agedDelay agedDelayStart ∧
    ∃ s, Reach (step agedDelay) (fun s a => anyStep s a = true) agedDelayStart s ∧ ¬ WakesUp s := by
  refine ⟨agedDelay_verified, agedDelay_starts, ?_⟩
  obtain ⟨s, hr, hs⟩ := exists_reach_of_exec (l := agedDelayRun) (f := fun s : Sys => s.trace.head?)
    (x := some (.handedOut ((List.range 8).map (fun i => ⟨i + 2, 1⟩) ++ [⟨11, 1⟩]))) (by decide +kernel :
      (exec (step agedDelay) anyStep agedDelayStart agedDelayRun).map (fun s => s.trace.head?) =
        some (some (.handedOut ((List.range 8).map (fun i => ⟨i + 2, 1⟩) ++ [⟨11, 1⟩]))))
  refine ⟨s, hr, fun h => ?_⟩
  obtain ⟨l, hl⟩ : ∃ l, s.trace = .handedOut ((List.range 8).map (fun i => ⟨i + 2, 1⟩) ++ [⟨11, 1⟩]) :: l := by
    cases ht : s.trace with
    | nil => rw [ht] at hs; cases hs
    | cons e l => rw [ht, List.head?_cons, Option.some.injEq] at hs; exact ⟨l, by rw [hs]⟩
  have := h.once
  rw [hl] at this
  exact absurd this.1 (by decide)

/-- Up to the release of slot 0, the records of the nine nodes match their events. -/
theorem wakesUp_agedDelay : ∃ s, Reach (step agedDelay) (fun s a => wakesFit agedDelay s a = true) agedDelayStart s ∧
    ((s.shm.queue.blockedOn 1).length, (s.shm.queue.blockedOn 3).length) = (8, 1) ∧ WakesUp s := by
  obtain ⟨s, hr, hs⟩ := exists_reach_of_exec (l := agedDelayRun.dropLast)
    (f := fun s : Sys => ((s.shm.queue.blockedOn 1).length, (s.shm.queue.blockedOn 3).length)) (x := (8, 1))
    (by decide +kernel : (exec (step agedDelay) (wakesFit agedDelay) agedDelayStart agedDelayRun.dropLast).map
      (fun s => ((s.shm.queue.blockedOn 1).length, (s.shm.queue.blockedOn 3).length)) = some (8, 1))
  exact ⟨s, hr, hs, wakesUp_of_fit agedDelay_verified agedDelay_starts hr⟩

end Tiovx
