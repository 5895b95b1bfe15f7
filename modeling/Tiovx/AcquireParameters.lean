import Tiovx.ObjDescQueue
/-!
# AcquireParameters — acquiring and releasing one parameter (`vx_target_acquire_parameters.c`)

`ownTargetNodeDescAcquireParameter` and `ownTargetNodeDescReleaseParameter` each run under one lock, so each is one
function of the shared memory; the wake-ups a release sends after unlocking are in its result.  `hostOnly` says that
the code was built with `HOST_ONLY`, without which the slots of a delay are not aged here.
-/
namespace Tiovx

/-- `ownTargetNodeDescAcquireParameter`: the id acquired, and whether the node is blocked now. -/
def ownTargetNodeDescAcquireParameter (n : NodeId) (dq : Nat) (D : DataRefQDesc) (isPipeup : Bool) (m : Shm) :
    Shm × Nat × Bool :=
  if (m.dataRefQ dq).isRefAcquired then (m, (m.dataRefQ dq).refObjDescId, false)
  else
    match ownObjDescQueueDequeue m.queue D.acquireQObjDescId with
    | (refObjDescId, queue) =>
      if refObjDescId = objDescInvalid then
        if isPipeup then ({ m with queue := queue }, objDescInvalid, false)
        else
          match ownObjDescQueueAddBlockedNode queue D.acquireQObjDescId n with
          -- a node the list has no room for is not blocked, and goes on without a reference
          | none => ({ m with queue := queue }, objDescInvalid, false)
          | some queue => ({ m with
              queue := queue
              node := Function.update m.node n { m.node n with state := .blocked } }, objDescInvalid, true)
      else if isPipeup then ({ m with queue := queue }, refObjDescId, false)
      else ({ m with
        queue := queue
        dataRefQ := Function.update m.dataRefQ dq
          { isRefAcquired := true, refObjDescId := refObjDescId, inNodeDoneCnt := 0 } }, refObjDescId, false)

/-- A reference is given to a queue, and the nodes blocked on the queue are taken from it if it fits. -/
def enqueueAndExtract (Q : Queues) (objDescQId refObjDescId : Nat) (out : List NodeId) : Queues × List NodeId :=
  match ownObjDescQueueEnqueue Q objDescQId refObjDescId with
  | none => (Q, out)
  | some Q => ownObjDescQueueExtractBlockedNodes Q objDescQId out

/-- One auto-aged slot of `ownTargetNodeDescReleaseParameterInDelay`: a reference goes from the slot's acquire queue to
its release queue. -/
def ageSlot (D : DataRefQDesc) (Q : Queues) (out : List NodeId) : Queues × List NodeId :=
  match ownObjDescQueueDequeue Q D.acquireQObjDescId with
  | (refObjDescId, Q) =>
    if refObjDescId = objDescInvalid then (Q, out) else enqueueAndExtract Q D.releaseQObjDescId refObjDescId out

/-- `ownTargetNodeDescReleaseParameterInDelay`, with the number of slots still to visit. -/
def ownTargetNodeDescReleaseParameterInDelay (T : ObjDescTable) (hostOnly : Bool) :
    Nat → DataRefQDesc → Queues → List NodeId → Queues × List NodeId
  | 0, _, Q, out => (Q, out)
  | k + 1, D, Q, out =>
    match T.dataRefQ D.nextObjDescIdInDelay with
    | none => (Q, out)
    | some N =>
      let R := if hostOnly && N.delaySlotAutoAge then ageSlot N Q out else (Q, out)
      ownTargetNodeDescReleaseParameterInDelay T hostOnly k N R.1 R.2

/-- The part of `ownTargetNodeDescReleaseParameter` that gives a reference to the release queue. -/
def releaseToQueue (T : ObjDescTable) (hostOnly : Bool) (D : DataRefQDesc) (refObjDescId : Nat) (Q : Queues) :
    Queues × List NodeId :=
  match enqueueAndExtract Q D.releaseQObjDescId refObjDescId [] with
  | (Q, out) =>
    if D.isInDelay then ownTargetNodeDescReleaseParameterInDelay T hostOnly (D.delaySlots - 1) D Q out else (Q, out)

/-- What `ownTargetNodeDescReleaseParameter` leaves: the nodes to trigger once it has unlocked, and whether the
parameter was released. -/
structure Released where
  shm : Shm
  isPrmReleased : Bool
  blockedNodes : List NodeId

/-- `ownTargetNodeDescReleaseParameter`, up to the triggers. -/
def ownTargetNodeDescReleaseParameter (T : ObjDescTable) (hostOnly : Bool) (dq : Nat) (D : DataRefQDesc)
    (refObjDescId : Nat) (isPrmInput : Bool) (m : Shm) : Released :=
  let S := m.dataRefQ dq
  let S := if isPrmInput then { S with inNodeDoneCnt := (S.inNodeDoneCnt + 1) % 65536 }
    else if D.numInNodes = 0 then S else { S with refObjDescId := refObjDescId }
  let doReleaseRef := if isPrmInput then decide (S.inNodeDoneCnt = D.numInNodes) else decide (D.numInNodes = 0)
  let doReleaseRefToQueue := doReleaseRef && T.ownObjDescGet refObjDescId
  let R := if doReleaseRefToQueue then releaseToQueue T hostOnly D refObjDescId m.queue else (m.queue, [])
  let S := if doReleaseRef then { S with isRefAcquired := false } else S
  { shm := { m with queue := R.1, dataRefQ := Function.update m.dataRefQ dq S }
    isPrmReleased := doReleaseRefToQueue
    blockedNodes := R.2 }

/-- **What an acquire can do**, on a queue without invalid ids: hand out the reference already held, take the oldest of
the queue, or find none and leave the node recorded, or not. -/
theorem acquireParameter_cases (n : NodeId) (dq : Nat) (D : DataRefQDesc) (isPipeup : Bool) (m : Shm)
    (hv : objDescInvalid ∉ m.queue.refs D.acquireQObjDescId) :
    ((m.dataRefQ dq).isRefAcquired = true ∧
      ownTargetNodeDescAcquireParameter n dq D isPipeup m = (m, (m.dataRefQ dq).refObjDescId, false)) ∨
    (∃ x l Q, (m.dataRefQ dq).isRefAcquired = false ∧ m.queue.refs D.acquireQObjDescId = x :: l ∧ x ≠ objDescInvalid ∧
      Q.refs = Function.update m.queue.refs D.acquireQObjDescId l ∧ Q.blockedOn = m.queue.blockedOn ∧
      (∀ k, (Q k).isSome = (m.queue k).isSome) ∧
      ownTargetNodeDescAcquireParameter n dq D isPipeup m = ({ m with
        queue := Q
        dataRefQ := if isPipeup then m.dataRefQ else Function.update m.dataRefQ dq ⟨true, x, 0⟩ }, x, false)) ∨
    (∃ Q, (m.dataRefQ dq).isRefAcquired = false ∧ m.queue.refs D.acquireQObjDescId = [] ∧ isPipeup = false ∧
      ownObjDescQueueAddBlockedNode m.queue D.acquireQObjDescId n = some Q ∧
      ownTargetNodeDescAcquireParameter n dq D isPipeup m = ({ m with
        queue := Q
        node := Function.update m.node n { m.node n with state := .blocked } }, objDescInvalid, true)) ∨
    ((m.dataRefQ dq).isRefAcquired = false ∧ m.queue.refs D.acquireQObjDescId = [] ∧
      (isPipeup = false → ownObjDescQueueAddBlockedNode m.queue D.acquireQObjDescId n = none) ∧
      ownTargetNodeDescAcquireParameter n dq D isPipeup m = (m, objDescInvalid, false)) := by
  unfold ownTargetNodeDescAcquireParameter
  cases ha : (m.dataRefQ dq).isRefAcquired with
  | true => exact .inl ⟨rfl, by simp⟩
  | false =>
    simp only [Bool.false_eq_true, if_false, true_and]
    obtain ⟨hr, hd⟩ | ⟨x, l, Q, hr, hd, hrefs, hb, hs⟩ := dequeue_cases m.queue D.acquireQObjDescId
    · rw [hd]
      simp only [if_true]
      cases isPipeup with
      | true => exact .inr (.inr (.inr ⟨hr, (fun h => by cases h), rfl⟩))
      | false =>
        cases hq : ownObjDescQueueAddBlockedNode m.queue D.acquireQObjDescId n with
        | none => exact .inr (.inr (.inr ⟨hr, fun _ => rfl, rfl⟩))
        | some Q => exact .inr (.inr (.inl ⟨Q, hr, rfl, rfl, rfl⟩))
    · rw [hd]
      have hx : x ≠ objDescInvalid := fun h => hv (by rw [hr, h]; exact List.mem_cons_self)
      simp only [hx, if_false]
      refine .inr (.inl ⟨x, l, Q, hr, hx, hrefs, hb, hs, ?_⟩)
      cases isPipeup <;> rfl

/-- **Giving a reference to a queue** appends it and takes every blocked node, or a full queue loses it. -/
theorem enqueueAndExtract_cases (Q : Queues) (q x : Nat) (out : List NodeId) :
    (ownObjDescQueueEnqueue Q q x = none ∧ enqueueAndExtract Q q x out = (Q, out)) ∨
    ((enqueueAndExtract Q q x out).2 = out ++ Q.blockedOn q ∧
      (enqueueAndExtract Q q x out).1.refs = Function.update Q.refs q (Q.refs q ++ [x]) ∧
      (enqueueAndExtract Q q x out).1.blockedOn = Function.update Q.blockedOn q [] ∧
      ∀ k, ((enqueueAndExtract Q q x out).1 k).isSome = (Q k).isSome) := by
  unfold enqueueAndExtract
  split
  · rename_i hQ
    exact .inl ⟨hQ, rfl⟩
  · rename_i Q' hQ
    obtain ⟨hrefs, hb, hs⟩ := enqueue_eq_some hQ
    obtain ⟨h1, h2, h3, h4⟩ := extractBlockedNodes_spec Q' q out
    exact .inr ⟨by rw [h1, hb], by rw [h2, hrefs], by rw [h3, hb], fun k => by rw [h4 k, hs k]⟩

/-- What ageing one auto-aged slot keeps, ageing the slots of a delay keeps. -/
theorem releaseParameterInDelay_rule {T : ObjDescTable} {hostOnly : Bool} {I : Queues → List NodeId → Prop}
    (hage : ∀ dq N Q out, T.dataRefQ dq = some N → N.delaySlotAutoAge = true → I Q out →
      I (ageSlot N Q out).1 (ageSlot N Q out).2) :
    ∀ (k : Nat) (D : DataRefQDesc) (Q : Queues) (out : List NodeId), I Q out →
      I (ownTargetNodeDescReleaseParameterInDelay T hostOnly k D Q out).1
        (ownTargetNodeDescReleaseParameterInDelay T hostOnly k D Q out).2
  | 0, _, _, _, h => h
  | k + 1, D, Q, out, h => by
    unfold ownTargetNodeDescReleaseParameterInDelay
    split
    · exact h
    · rename_i N hN
      refine releaseParameterInDelay_rule hage k N _ _ ?_
      split
      · rename_i ha
        rw [Bool.and_eq_true] at ha
        exact hage _ N Q out hN ha.2 h
      · exact h

/-- **The rule for a release**: what giving a reference to a queue keeps, and what taking one from a queue and giving
it to the next keeps, holds after a release to the queue. -/
theorem releaseToQueue_rule {T : ObjDescTable} {hostOnly : Bool} {I : Queues → List NodeId → Prop} {D : DataRefQDesc}
    {x : Nat} {Q : Queues}
    (hgive : I (enqueueAndExtract Q D.releaseQObjDescId x []).1 (enqueueAndExtract Q D.releaseQObjDescId x []).2)
    (hage : ∀ dq N Q out, T.dataRefQ dq = some N → N.delaySlotAutoAge = true → I Q out →
      I (ageSlot N Q out).1 (ageSlot N Q out).2) :
    I (releaseToQueue T hostOnly D x Q).1 (releaseToQueue T hostOnly D x Q).2 := by
  unfold releaseToQueue
  simp only
  split
  · exact releaseParameterInDelay_rule hage _ _ _ _ hgive
  · exact hgive

/-- The ids in the queues name descriptors, and no node is blocked on a queue that holds one. -/
structure Queues.Sound (T : ObjDescTable) (Q : Queues) : Prop where
  lt_numEntries : ∀ q, ∀ x ∈ Q.refs q, x < T.numEntries
  blockedOn_eq_nil : ∀ q, Q.refs q ≠ [] → Q.blockedOn q = []

theorem Queues.Sound.dequeue {T : ObjDescTable} {Q : Queues} (h : Q.Sound T) (q : Nat) :
    (ownObjDescQueueDequeue Q q).2.Sound T ∧
      ((ownObjDescQueueDequeue Q q).1 = objDescInvalid ∨ (ownObjDescQueueDequeue Q q).1 < T.numEntries) := by
  obtain ⟨-, hd⟩ | ⟨x, l, Q', hr, hd, hrefs, hb, -⟩ := dequeue_cases Q q
  · rw [hd]
    exact ⟨h, .inl rfl⟩
  · rw [hd]
    refine ⟨⟨fun k y hy => ?_, fun k hk => ?_⟩, .inr (h.lt_numEntries q x (by rw [hr]; exact List.mem_cons_self))⟩
    · rw [hrefs] at hy
      by_cases hkq : k = q
      · subst hkq
        rw [Function.update_self] at hy
        exact h.lt_numEntries k y (by rw [hr]; exact List.mem_cons_of_mem _ hy)
      · rw [Function.update_of_ne hkq] at hy
        exact h.lt_numEntries k y hy
    · rw [hb]
      refine h.blockedOn_eq_nil k (fun hk' => ?_)
      rw [hrefs] at hk
      by_cases hkq : k = q
      · subst hkq; rw [hr] at hk'; cases hk'
      · rw [Function.update_of_ne hkq] at hk; exact hk hk'

theorem Queues.Sound.enqueueAndExtract {T : ObjDescTable} {Q : Queues} (h : Q.Sound T) (q : Nat) {x : Nat}
    (hx : x < T.numEntries) (out : List NodeId) : (enqueueAndExtract Q q x out).1.Sound T := by
  obtain ⟨-, he⟩ | ⟨-, hrefs, hb, -⟩ := enqueueAndExtract_cases Q q x out
  · rw [he]
    exact h
  · refine ⟨fun k y hy => ?_, fun k hk => ?_⟩
    · rw [hrefs] at hy
      by_cases hkq : k = q
      · subst hkq
        rw [Function.update_self, List.mem_append, List.mem_singleton] at hy
        obtain hy | rfl := hy
        · exact h.lt_numEntries k y hy
        · exact hx
      · rw [Function.update_of_ne hkq] at hy
        exact h.lt_numEntries k y hy
    · rw [hb]
      by_cases hkq : k = q
      · subst hkq; rw [Function.update_self]
      · rw [hrefs, Function.update_of_ne hkq] at hk
        rw [Function.update_of_ne hkq]
        exact h.blockedOn_eq_nil k hk

theorem Queues.Sound.ageSlot {T : ObjDescTable} {Q : Queues} (h : Q.Sound T)
    (D : DataRefQDesc) (out : List NodeId) : (ageSlot D Q out).1.Sound T := by
  obtain ⟨hs, hx⟩ := h.dequeue D.acquireQObjDescId
  unfold Tiovx.ageSlot
  simp only
  split
  · exact hs
  · rename_i hne
    exact hs.enqueueAndExtract _ (hx.resolve_left hne) out

theorem Queues.Sound.addBlockedNode {T : ObjDescTable} {Q Q' : Queues} (h : Q.Sound T) {q : Nat} {n : NodeId}
    (hq : Q.refs q = []) (hQ : ownObjDescQueueAddBlockedNode Q q n = some Q') : Q'.Sound T := by
  obtain ⟨-, hrefs, hb, -⟩ := addBlockedNode_eq_some hQ
  refine ⟨fun k y hy => h.lt_numEntries k y (by rwa [hrefs] at hy), fun k hk => ?_⟩
  rw [hrefs] at hk
  rw [hb, Function.update_of_ne (fun hkq => hk (by rw [hkq, hq]))]
  exact h.blockedOn_eq_nil k hk

theorem Queues.Sound.invalid_not_mem {T : ObjDescTable} {Q : Queues} (h : Q.Sound T)
    (hT : T.numEntries ≤ objDescInvalid) (q : Nat) : objDescInvalid ∉ Q.refs q :=
  fun hx => Nat.not_lt.2 hT (h.lt_numEntries q _ hx)

theorem Queues.Sound.releaseToQueue {T : ObjDescTable} {hostOnly : Bool} {Q : Queues} (h : Q.Sound T)
    (D : DataRefQDesc) {x : Nat} (hx : x < T.numEntries) : (releaseToQueue T hostOnly D x Q).1.Sound T :=
  releaseToQueue_rule (I := fun Q _ => Q.Sound T) (h.enqueueAndExtract _ hx [])
    (fun _ N _ out _ _ hQ => hQ.ageSlot N out)

section Release

variable {T : ObjDescTable} {hostOnly : Bool} {dq : Nat} {D : DataRefQDesc} {ref : Nat} {isInput : Bool} {m : Shm}

/-- A parameter is released to the queue by its last input, or by an output no node of the graph consumes. -/
theorem releaseParameter_isPrmReleased :
    (ownTargetNodeDescReleaseParameter T hostOnly dq D ref isInput m).isPrmReleased = true ↔
      ref < T.numEntries ∧
        if isInput then ((m.dataRefQ dq).inNodeDoneCnt + 1) % 65536 = D.numInNodes else D.numInNodes = 0 := by
  unfold ownTargetNodeDescReleaseParameter ObjDescTable.ownObjDescGet
  cases isInput <;> simp [and_comm]

theorem releaseParameter_queue :
    (ownTargetNodeDescReleaseParameter T hostOnly dq D ref isInput m).shm.queue =
      if (ownTargetNodeDescReleaseParameter T hostOnly dq D ref isInput m).isPrmReleased then
        (releaseToQueue T hostOnly D ref m.queue).1 else m.queue := by
  unfold ownTargetNodeDescReleaseParameter
  exact apply_ite Prod.fst _ _ _

theorem releaseParameter_blockedNodes :
    (ownTargetNodeDescReleaseParameter T hostOnly dq D ref isInput m).blockedNodes =
      if (ownTargetNodeDescReleaseParameter T hostOnly dq D ref isInput m).isPrmReleased then
        (releaseToQueue T hostOnly D ref m.queue).2 else [] := by
  unfold ownTargetNodeDescReleaseParameter
  exact apply_ite Prod.snd _ _ _

@[simp] theorem releaseParameter_node :
    (ownTargetNodeDescReleaseParameter T hostOnly dq D ref isInput m).shm.node = m.node := rfl

theorem releaseParameter_dataRefQ_ne {k : Nat} (hk : k ≠ dq) :
    (ownTargetNodeDescReleaseParameter T hostOnly dq D ref isInput m).shm.dataRefQ k = m.dataRefQ k := by
  unfold ownTargetNodeDescReleaseParameter
  simp only [Function.update_of_ne hk]

/-- **What a release leaves of its own descriptor**: an input counts itself, an output that the graph consumes records
its reference, and the last user of the reference gives it up. -/
theorem releaseParameter_dataRefQ :
    (ownTargetNodeDescReleaseParameter T hostOnly dq D ref isInput m).shm.dataRefQ dq =
      if isInput then
        { m.dataRefQ dq with
          isRefAcquired := (m.dataRefQ dq).isRefAcquired &&
            !decide (((m.dataRefQ dq).inNodeDoneCnt + 1) % 65536 = D.numInNodes)
          inNodeDoneCnt := ((m.dataRefQ dq).inNodeDoneCnt + 1) % 65536 }
      else if D.numInNodes = 0 then { m.dataRefQ dq with isRefAcquired := false }
      else { m.dataRefQ dq with refObjDescId := ref } := by
  unfold ownTargetNodeDescReleaseParameter
  simp only [Function.update_self]
  cases isInput with
  | true =>
    by_cases hc : ((m.dataRefQ dq).inNodeDoneCnt + 1) % 65536 = D.numInNodes <;> simp [hc]
  | false => by_cases hc : D.numInNodes = 0 <;> simp [hc]

end Release

end Tiovx
