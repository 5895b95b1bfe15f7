import Tiovx.ObjDesc
/-!
# ObjDescQueue — the queues of object descriptors (`vx_obj_desc_queue.c`)

Each operation acts on the table of queues.  Two views carry what the rest needs: `refs`, the ids in a queue oldest
first, and `blockedOn`, the nodes recorded as blocked on it; every operation is read as its effect on the two.
-/
namespace Tiovx

/-- The queue `ownObjDescQueueCreate` leaves. -/
def ownObjDescQueueCreate : ObjDescQueue := ⟨RingQueue.empty (Vector.replicate objDescQueueMaxDepth 0) (by decide), [], by decide⟩

/-- The first `k` queues, just created. -/
def createQueues (k : Nat) : Queues := fun q => if q < k then some ownObjDescQueueCreate else none

/-- `ownObjDescQueueEnqueue`: `none` is `VX_FAILURE`. -/
def ownObjDescQueueEnqueue (Q : Queues) (objDescQId objDescId : Nat) : Option Queues :=
  match Q objDescQId with
  | none => none
  | some q =>
    match q.ring.push objDescId with
    | none => none
    | some ring => some (Function.update Q objDescQId (some { q with ring := ring }))

/-- `ownObjDescQueueDequeue`: the id is `TIVX_OBJ_DESC_INVALID` where it fails. -/
def ownObjDescQueueDequeue (Q : Queues) (objDescQId : Nat) : Nat × Queues :=
  match Q objDescQId with
  | none => (objDescInvalid, Q)
  | some q =>
    match q.ring.pop with
    | none => (objDescInvalid, Q)
    | some (objDescId, ring) => (objDescId, Function.update Q objDescQId (some { q with ring := ring }))

/-- `ownObjDescQueueAddBlockedNode`: `none` is `VX_FAILURE`. -/
def ownObjDescQueueAddBlockedNode (Q : Queues) (objDescQId : Nat) (n : NodeId) : Option Queues :=
  match Q objDescQId with
  | none => none
  | some q =>
    if h : q.blockedNodes.length < objDescQueueMaxBlockedNodes then
      some (Function.update Q objDescQId (some { q with
        blockedNodes := q.blockedNodes ++ [n]
        blockedNodes_le := by rw [List.length_append]; exact h }))
    else none

/-- `ownObjDescQueueExtractBlockedNodes`: the blocked nodes go after those already in the output list. -/
def ownObjDescQueueExtractBlockedNodes (Q : Queues) (objDescQId : Nat) (out : List NodeId) : Queues × List NodeId :=
  match Q objDescQId with
  | none => (Q, out)
  | some q =>
    (Function.update Q objDescQId (some { q with blockedNodes := [], blockedNodes_le := Nat.zero_le _ }),
      out ++ q.blockedNodes)

namespace Queues

/-- The ids in a queue, oldest first. -/
def refs (Q : Queues) (q : Nat) : List Nat := ((Q q).map (fun d => d.ring.toList)).getD []

/-- The nodes recorded as blocked on a queue. -/
def blockedOn (Q : Queues) (q : Nat) : List NodeId := ((Q q).map (fun d => d.blockedNodes)).getD []

theorem refs_update (Q : Queues) (q : Nat) (d : ObjDescQueue) :
    refs (Function.update Q q (some d)) = Function.update Q.refs q d.ring.toList := by
  funext x
  by_cases h : x = q
  · subst h; simp [refs]
  · simp [refs, Function.update_of_ne h]

theorem blockedOn_update (Q : Queues) (q : Nat) (d : ObjDescQueue) :
    blockedOn (Function.update Q q (some d)) = Function.update Q.blockedOn q d.blockedNodes := by
  funext x
  by_cases h : x = q
  · subst h; simp [blockedOn]
  · simp [blockedOn, Function.update_of_ne h]

theorem refs_of_some {Q : Queues} {q : Nat} {d : ObjDescQueue} (h : Q q = some d) : Q.refs q = d.ring.toList := by
  simp [refs, h]

theorem blockedOn_of_some {Q : Queues} {q : Nat} {d : ObjDescQueue} (h : Q q = some d) :
    Q.blockedOn q = d.blockedNodes := by
  simp [blockedOn, h]

@[simp] theorem refs_createQueues (k q : Nat) : (createQueues k).refs q = [] := by
  unfold refs createQueues
  split <;> rfl

@[simp] theorem blockedOn_createQueues (k q : Nat) : (createQueues k).blockedOn q = [] := by
  unfold blockedOn createQueues
  split <;> rfl

theorem refs_length_le (Q : Queues) (q : Nat) : (Q.refs q).length ≤ objDescQueueMaxDepth := by
  unfold refs
  cases h : Q q with
  | none => simp
  | some d => simpa using d.ring.count_le

theorem blockedOn_length_le (Q : Queues) (q : Nat) : (Q.blockedOn q).length ≤ objDescQueueMaxBlockedNodes := by
  unfold blockedOn
  cases h : Q q with
  | none => simp
  | some d => simpa using d.blockedNodes_le

end Queues

/-- **An enqueue appends to one queue** and leaves every blocked list. -/
theorem enqueue_eq_some {Q Q' : Queues} {q x : Nat} (h : ownObjDescQueueEnqueue Q q x = some Q') :
    Q'.refs = Function.update Q.refs q (Q.refs q ++ [x]) ∧ Q'.blockedOn = Q.blockedOn ∧
      ∀ k, (Q' k).isSome = (Q k).isSome := by
  unfold ownObjDescQueueEnqueue at h
  split at h
  · cases h
  rename_i d hd
  split at h
  · cases h
  rename_i ring hr
  cases h
  refine ⟨?_, ?_, fun k => ?_⟩
  · rw [Queues.refs_update, Queues.refs_of_some hd, d.ring.toList_push x ring hr]
  · rw [Queues.blockedOn_update, ← Queues.blockedOn_of_some hd, Function.update_eq_self]
  · by_cases hk : k = q
    · subst hk; simp [hd]
    · rw [Function.update_of_ne hk]

/-- An enqueue is refused by a full queue, and by no other. -/
theorem enqueue_eq_none {Q : Queues} {q x : Nat} (hq : (Q q).isSome) :
    ownObjDescQueueEnqueue Q q x = none ↔ (Q.refs q).length = objDescQueueMaxDepth := by
  obtain ⟨d, hd⟩ := Option.isSome_iff_exists.1 hq
  rw [Queues.refs_of_some hd, ← d.ring.push_eq_none_iff x]
  unfold ownObjDescQueueEnqueue
  rw [hd]
  simp only
  split
  · rename_i hr
    simp [hr]
  · rename_i ring hr
    simp [hr]

/-- **A dequeue takes the oldest id of one queue**, and of an empty one nothing. -/
theorem dequeue_cases (Q : Queues) (q : Nat) :
    (Q.refs q = [] ∧ ownObjDescQueueDequeue Q q = (objDescInvalid, Q)) ∨
    ∃ x l Q', Q.refs q = x :: l ∧ ownObjDescQueueDequeue Q q = (x, Q') ∧ Q'.refs = Function.update Q.refs q l ∧
      Q'.blockedOn = Q.blockedOn ∧ ∀ k, (Q' k).isSome = (Q k).isSome := by
  unfold ownObjDescQueueDequeue
  split
  · rename_i hd
    exact .inl ⟨by simp [Queues.refs, hd], rfl⟩
  rename_i d hd
  split
  · rename_i hr
    exact .inl ⟨by rw [Queues.refs_of_some hd]; exact d.ring.pop_eq_none_iff.1 hr, rfl⟩
  · rename_i x ring hr
    refine .inr ⟨x, ring.toList, _, ?_, rfl, ?_, ?_, fun k => ?_⟩
    · rw [Queues.refs_of_some hd, d.ring.toList_pop x ring hr]
    · rw [Queues.refs_update]
    · rw [Queues.blockedOn_update, ← Queues.blockedOn_of_some hd, Function.update_eq_self]
    · by_cases hk : k = q
      · subst hk; simp [hd]
      · rw [Function.update_of_ne hk]

/-- **Recording a blocked node appends it to one blocked list.** -/
theorem addBlockedNode_eq_some {Q Q' : Queues} {q : Nat} {n : NodeId}
    (h : ownObjDescQueueAddBlockedNode Q q n = some Q') :
    (Q.blockedOn q).length < objDescQueueMaxBlockedNodes ∧ Q'.refs = Q.refs ∧
      Q'.blockedOn = Function.update Q.blockedOn q (Q.blockedOn q ++ [n]) ∧ ∀ k, (Q' k).isSome = (Q k).isSome := by
  unfold ownObjDescQueueAddBlockedNode at h
  split at h
  · cases h
  rename_i d hd
  split at h
  · rename_i hl
    cases h
    refine ⟨by rw [Queues.blockedOn_of_some hd]; exact hl, ?_, ?_, fun k => ?_⟩
    · rw [Queues.refs_update, ← Queues.refs_of_some hd, Function.update_eq_self]
    · rw [Queues.blockedOn_update, Queues.blockedOn_of_some hd]
    · by_cases hk : k = q
      · subst hk; simp [hd]
      · rw [Function.update_of_ne hk]
  · cases h

theorem addBlockedNode_eq_none {Q : Queues} {q : Nat} {n : NodeId} (hq : (Q q).isSome) :
    ownObjDescQueueAddBlockedNode Q q n = none ↔ (Q.blockedOn q).length = objDescQueueMaxBlockedNodes := by
  obtain ⟨d, hd⟩ := Option.isSome_iff_exists.1 hq
  have hle := d.blockedNodes_le
  rw [Queues.blockedOn_of_some hd]
  unfold ownObjDescQueueAddBlockedNode
  rw [hd]
  simp only
  split
  · rename_i hl
    simp only [reduceCtorEq, false_iff]
    omega
  · rename_i hl
    simp only [true_iff]
    omega

/-- **Extracting empties one blocked list** and puts it after the output list. -/
theorem extractBlockedNodes_spec (Q : Queues) (q : Nat) (out : List NodeId) :
    (ownObjDescQueueExtractBlockedNodes Q q out).2 = out ++ Q.blockedOn q ∧
      (ownObjDescQueueExtractBlockedNodes Q q out).1.refs = Q.refs ∧
      (ownObjDescQueueExtractBlockedNodes Q q out).1.blockedOn = Function.update Q.blockedOn q [] ∧
      ∀ k, ((ownObjDescQueueExtractBlockedNodes Q q out).1 k).isSome = (Q k).isSome := by
  unfold ownObjDescQueueExtractBlockedNodes
  split
  · rename_i hd
    have hb : Q.blockedOn q = [] := by simp [Queues.blockedOn, hd]
    refine ⟨by simp [hb], rfl, ?_, fun _ => rfl⟩
    rw [← hb, Function.update_eq_self]
  · rename_i d hd
    refine ⟨by rw [Queues.blockedOn_of_some hd], ?_, ?_, fun k => ?_⟩
    · rw [Queues.refs_update, ← Queues.refs_of_some hd, Function.update_eq_self]
    · rw [Queues.blockedOn_update]
    · by_cases hk : k = q
      · subst hk; simp [hd]
      · simp only [Function.update_of_ne hk]

/-- The references `(queue, id)` enqueued one after the other. -/
def enqueueAll : List (Nat × Nat) → Queues → Queues
  | [],          Q => Q
  | (q, x) :: l, Q => enqueueAll l ((ownObjDescQueueEnqueue Q q x).getD Q)

theorem enqueueAll_spec : ∀ (l : List (Nat × Nat)) (Q : Queues), (enqueueAll l Q).blockedOn = Q.blockedOn ∧
    (∀ k, ((enqueueAll l Q) k).isSome = (Q k).isSome) ∧
    ∀ q, ∀ x ∈ (enqueueAll l Q).refs q, x ∈ Q.refs q ∨ x ∈ l.map Prod.snd
  | [], Q => ⟨rfl, fun _ => rfl, fun _ _ h => .inl h⟩
  | (q, x) :: l, Q => by
    obtain ⟨h1, h2, h3⟩ := enqueueAll_spec l ((ownObjDescQueueEnqueue Q q x).getD Q)
    cases he : ownObjDescQueueEnqueue Q q x with
    | none =>
      simp only [enqueueAll, he, Option.getD_none] at h1 h2 h3 ⊢
      exact ⟨h1, h2, fun k y hy => (h3 k y hy).imp_right (List.mem_cons_of_mem _)⟩
    | some Q' =>
      simp only [enqueueAll, he, Option.getD_some] at h1 h2 h3 ⊢
      obtain ⟨hr, hb, hs⟩ := enqueue_eq_some he
      refine ⟨h1.trans hb, fun k => (h2 k).trans (hs k), fun k y hy => ?_⟩
      obtain hy | hy := h3 k y hy
      · rw [hr, Function.update_apply] at hy
        split at hy
        · rename_i hk
          subst hk
          rw [List.mem_append, List.mem_singleton] at hy
          exact hy.imp_right (fun h => by simp [h])
        · exact .inl hy
      · exact .inr (List.mem_cons_of_mem _ hy)

end Tiovx
