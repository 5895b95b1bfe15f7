import Tiovx.ObjDescQueue
/-!
# QueueDescriptors — the fields of a queue descriptor (`vx_obj_desc_queue.c`)

`ObjDescQueue` keeps a ring whose indices fit together.  Here are the fields as the source has them: sixteen bit ids and
indices over an array of `TIVX_OBJ_DESC_QUEUE_MAX_DEPTH` ids, and an array of blocked nodes with its length.  Whatever
operations are called on queues that were created, the fields of each stand for a bounded list of ids and a bounded list of
nodes, and every operation returns what it returns on these lists.
-/
namespace Tiovx

/-- `tivx_obj_desc_queue_t`; `nodeId` and `numNodes` are its `blocked_nodes`. -/
structure QueueDesc where
  queueMem : Vector UInt16 objDescQueueMaxDepth
  curRd : UInt16
  curWr : UInt16
  count : UInt16
  nodeId : Vector UInt16 objDescQueueMaxBlockedNodes
  numNodes : UInt16

/-- The queue descriptors by id; the source finds none for any other id. -/
abbrev QueueDescs : Type := UInt16 → Option QueueDesc

/-- The operations on a queue, with what they are given.  The nodes extracted go after those in `out`. -/
inductive QueueOp
  | enqueue (objDescId : UInt16)
  | dequeue
  | addBlockedNode (nodeId : UInt16)
  | extractBlockedNodes (out : List UInt16)

/-- What an operation returns: whether it succeeds, and the id or the list it writes for its caller. -/
structure QueueReply where
  success : Bool
  objDescId : UInt16 := 0xFFFF
  out : List UInt16 := []
deriving DecidableEq

namespace QueueDesc

/-- `ownObjDescQueueReset`. -/
def ownObjDescQueueReset (d : QueueDesc) : QueueDesc := { d with curRd := 0, curWr := 0, count := 0, numNodes := 0 }

/-- `ownObjDescQueueEnqueue`. -/
def ownObjDescQueueEnqueue (objDescId : UInt16) (d : QueueDesc) : QueueReply × QueueDesc :=
  if d.count.toNat < objDescQueueMaxDepth then
    ({ success := true }, { d with
      queueMem := d.queueMem.setIfInBounds d.curWr.toNat objDescId
      count := d.count + 1
      curWr := UInt16.ofNat ((d.curWr.toNat + 1) % objDescQueueMaxDepth) })
  else ({ success := false }, d)

/-- `ownObjDescQueueDequeue`. -/
def ownObjDescQueueDequeue (d : QueueDesc) : QueueReply × QueueDesc :=
  if 0 < d.count.toNat then
    ({ success := true, objDescId := d.queueMem[d.curRd.toNat]?.getD 0xFFFF }, { d with
      curRd := UInt16.ofNat ((d.curRd.toNat + 1) % objDescQueueMaxDepth)
      count := d.count - 1 })
  else ({ success := false }, d)

/-- `ownObjDescQueueAddBlockedNode`. -/
def ownObjDescQueueAddBlockedNode (nodeId : UInt16) (d : QueueDesc) : QueueReply × QueueDesc :=
  if d.numNodes.toNat < objDescQueueMaxBlockedNodes then
    ({ success := true }, { d with
      nodeId := d.nodeId.setIfInBounds d.numNodes.toNat nodeId
      numNodes := d.numNodes + 1 })
  else ({ success := false }, d)

/-- `ownObjDescQueueExtractBlockedNodes`. -/
def ownObjDescQueueExtractBlockedNodes (out : List UInt16) (d : QueueDesc) : QueueReply × QueueDesc :=
  ({ success := true, out := out ++ d.nodeId.toList.take d.numNodes.toNat }, { d with numNodes := 0 })

/-- One operation on a descriptor that was found. -/
def call (d : QueueDesc) : QueueOp → QueueReply × QueueDesc
  | .enqueue objDescId => d.ownObjDescQueueEnqueue objDescId
  | .dequeue => d.ownObjDescQueueDequeue
  | .addBlockedNode nodeId => d.ownObjDescQueueAddBlockedNode nodeId
  | .extractBlockedNodes out => d.ownObjDescQueueExtractBlockedNodes out

/-- The ids in the ring, oldest first. -/
def ids (d : QueueDesc) : List UInt16 :=
  (List.range d.count.toNat).map (fun i => d.queueMem[(d.curRd.toNat + i) % objDescQueueMaxDepth]?.getD 0xFFFF)

/-- The blocked nodes. -/
def blocked (d : QueueDesc) : List UInt16 := d.nodeId.toList.take d.numNodes.toNat

end QueueDesc

/-- What a queue is for: a list of ids, oldest first, and the nodes that wait for one. -/
structure Fifo where
  ids : List UInt16 := []
  blocked : List UInt16 := []
deriving DecidableEq

/-- One operation on the lists. -/
def Fifo.call (F : Fifo) : QueueOp → QueueReply × Fifo
  | .enqueue objDescId =>
    if F.ids.length < objDescQueueMaxDepth then ({ success := true }, { F with ids := F.ids ++ [objDescId] })
    else ({ success := false }, F)
  | .dequeue =>
    match F.ids with
    | [] => ({ success := false }, F)
    | objDescId :: ids => ({ success := true, objDescId := objDescId }, { F with ids := ids })
  | .addBlockedNode nodeId =>
    if F.blocked.length < objDescQueueMaxBlockedNodes then
      ({ success := true }, { F with blocked := F.blocked ++ [nodeId] })
    else ({ success := false }, F)
  | .extractBlockedNodes out => ({ success := true, out := out ++ F.blocked }, { F with blocked := [] })

/-- An operation on the queue with an id, or on none. -/
def callAt {α : Type} (call : α → QueueOp → QueueReply × α) (Q : UInt16 → Option α) (q : UInt16) (op : QueueOp) :
    QueueReply × (UInt16 → Option α) :=
  match Q q with
  | none => ({ success := false, out := match op with | .extractBlockedNodes out => out | _ => [] }, Q)
  | some d => ((call d op).1, Function.update Q q (some (call d op).2))

/-- Operations one after the other, with what they return. -/
def callAll {α : Type} (call : α → QueueOp → QueueReply × α) :
    List (UInt16 × QueueOp) → (UInt16 → Option α) → List QueueReply × (UInt16 → Option α)
  | [], Q => ([], Q)
  | (q, op) :: l, Q =>
    let R := callAt call Q q op
    ((R.1 :: (callAll call l R.2).1), (callAll call l R.2).2)

/-- The fields of a descriptor stand for two lists: those of a ring, and the nodes up to `numNodes`. -/
structure QueueDesc.Represents (d : QueueDesc) (F : Fifo) : Prop where
  ring : ∃ r : RingQueue UInt16 objDescQueueMaxDepth, d.queueMem = r.mem ∧ d.curRd.toNat = r.rd ∧ d.curWr.toNat = r.wr ∧
    d.count.toNat = r.count ∧ r.toList = F.ids
  blocked : d.blocked = F.blocked
  numNodes : d.numNodes.toNat = F.blocked.length

theorem toNat_succ {n : UInt16} {b : Nat} (h : n.toNat < b) (hb : b ≤ objDescQueueMaxDepth) :
    (n + 1).toNat = n.toNat + 1 := by
  have hlt : n.toNat + 1 < 2 ^ 16 := by
    unfold objDescQueueMaxDepth at hb
    omega
  rw [UInt16.toNat_add, UInt16.toNat_one]
  exact Nat.mod_eq_of_lt hlt

theorem toNat_pred {n : UInt16} (h : 0 < n.toNat) : (n - 1).toNat = n.toNat - 1 :=
  UInt16.toNat_sub_of_le n 1 h

theorem toNat_index (i : Nat) : (UInt16.ofNat (i % objDescQueueMaxDepth)).toNat = i % objDescQueueMaxDepth := by
  have hlt : i % objDescQueueMaxDepth < objDescQueueMaxDepth := Nat.mod_lt _ (by decide)
  have hmax : objDescQueueMaxDepth ≤ 2 ^ 16 := by decide
  exact UInt16.toNat_ofNat_of_lt' (Nat.lt_of_lt_of_le hlt hmax)

namespace QueueDesc

variable {d : QueueDesc} {F : Fifo}

theorem represents_reset (d : QueueDesc) : d.ownObjDescQueueReset.Represents {} :=
  ⟨⟨RingQueue.empty d.queueMem (by decide), rfl, rfl, rfl, rfl, rfl⟩, rfl, rfl⟩

/-- An enqueue pushes on the ring. -/
theorem Represents.enqueue (h : d.Represents F) (objDescId : UInt16) :
    (d.ownObjDescQueueEnqueue objDescId).1 = (F.call (.enqueue objDescId)).1 ∧
      (d.ownObjDescQueueEnqueue objDescId).2.Represents (F.call (.enqueue objDescId)).2 := by
  obtain ⟨r, hmem, hrd, hwr, hcount, hids⟩ := h.ring
  have hlen : F.ids.length = d.count.toNat := by rw [← hids, r.length_toList, hcount]
  unfold ownObjDescQueueEnqueue Fifo.call
  simp only
  rw [hlen]
  split
  · rename_i hroom
    obtain ⟨r', hr', hmem', hrd', hwr', hcount'⟩ := r.push_of_lt objDescId (by omega)
    refine ⟨rfl, ⟨⟨r', ?_, ?_, ?_, ?_, ?_⟩, h.blocked, h.numNodes⟩⟩
    · rw [hmem', ← Vector.toList_inj, Vector.toList_setIfInBounds, Vector.toList_set, hmem, hwr]
    · rw [hrd', ← hrd]
    · rw [hwr', ← hwr]
      exact toNat_index _
    · rw [hcount', ← hcount]
      exact toNat_succ hroom (Nat.le_refl _)
    · rw [r.toList_push objDescId r' hr', hids]
  · exact ⟨rfl, h⟩

/-- A dequeue pops the ring. -/
theorem Represents.dequeue (h : d.Represents F) :
    d.ownObjDescQueueDequeue.1 = (F.call .dequeue).1 ∧ d.ownObjDescQueueDequeue.2.Represents (F.call .dequeue).2 := by
  obtain ⟨r, hmem, hrd, hwr, hcount, hids⟩ := h.ring
  have hlen : F.ids.length = d.count.toNat := by rw [← hids, r.length_toList, hcount]
  unfold ownObjDescQueueDequeue Fifo.call
  simp only
  split
  · rename_i hpos
    obtain ⟨r', hr', hmem', hrd', hwr', hcount'⟩ := r.pop_of_pos (by omega)
    have hcons := r.toList_pop _ r' hr'
    rw [hids] at hcons
    rw [hcons]
    refine ⟨?_, ⟨⟨r', ?_, ?_, ?_, ?_, rfl⟩, h.blocked, h.numNodes⟩⟩
    · simp only
      rw [hmem, hrd, Vector.getElem?_eq_getElem r.rd_lt]
      rfl
    · rw [hmem', ← hmem]
    · rw [hrd', ← hrd]
      exact toNat_index _
    · rw [hwr', ← hwr]
    · rw [hcount', ← hcount]
      exact toNat_pred hpos
  · have hnil : F.ids = [] := List.eq_nil_of_length_eq_zero (by omega)
    rw [hnil]
    exact ⟨rfl, h⟩

theorem Represents.addBlockedNode (h : d.Represents F) (nodeId : UInt16) :
    (d.ownObjDescQueueAddBlockedNode nodeId).1 = (F.call (.addBlockedNode nodeId)).1 ∧
      (d.ownObjDescQueueAddBlockedNode nodeId).2.Represents (F.call (.addBlockedNode nodeId)).2 := by
  unfold ownObjDescQueueAddBlockedNode Fifo.call
  simp only
  rw [← h.numNodes]
  split
  · rename_i hroom
    have hsucc := toNat_succ hroom (by decide)
    refine ⟨rfl, ⟨h.ring, ?_, ?_⟩⟩
    · have hlt : d.numNodes.toNat < d.nodeId.toList.length := by rw [Vector.length_toList]; exact hroom
      have htake : (d.nodeId.toList.take d.numNodes.toNat).length = d.numNodes.toNat :=
        List.length_take_of_le (Nat.le_of_lt hlt)
      have hb : d.nodeId.toList.take d.numNodes.toNat = F.blocked := h.blocked
      simp only [QueueDesc.blocked, hsucc, Vector.toList_setIfInBounds]
      rw [List.take_add_one, List.take_set, List.getElem?_set_self hlt, List.set_eq_of_length_le (Nat.le_of_eq htake), hb]
      rfl
    · simp only
      rw [hsucc, h.numNodes, List.length_append]
      rfl
  · exact ⟨rfl, h⟩

theorem Represents.extractBlockedNodes (h : d.Represents F) (out : List UInt16) :
    (d.ownObjDescQueueExtractBlockedNodes out).1 = (F.call (.extractBlockedNodes out)).1 ∧
      (d.ownObjDescQueueExtractBlockedNodes out).2.Represents (F.call (.extractBlockedNodes out)).2 := by
  refine ⟨?_, ⟨h.ring, rfl, rfl⟩⟩
  simp only [ownObjDescQueueExtractBlockedNodes, Fifo.call, ← h.blocked, QueueDesc.blocked]

/-- **One operation** returns what it returns on the lists. -/
theorem Represents.call (h : d.Represents F) (op : QueueOp) :
    (d.call op).1 = (F.call op).1 ∧ (d.call op).2.Represents (F.call op).2 := by
  cases op with
  | enqueue objDescId => exact h.enqueue objDescId
  | dequeue => exact h.dequeue
  | addBlockedNode nodeId => exact h.addBlockedNode nodeId
  | extractBlockedNodes out => exact h.extractBlockedNodes out

/-- What the fields are, where they stand for lists. -/
theorem Represents.fields (h : d.Represents F) : d.ids = F.ids ∧ d.blocked = F.blocked ∧
    d.curRd.toNat < objDescQueueMaxDepth ∧ d.curWr.toNat < objDescQueueMaxDepth ∧ d.count.toNat = F.ids.length ∧
    F.ids.length ≤ objDescQueueMaxDepth ∧ d.numNodes.toNat = F.blocked.length ∧
    F.blocked.length ≤ objDescQueueMaxBlockedNodes := by
  obtain ⟨r, hmem, hrd, hwr, hcount, hids⟩ := h.ring
  have hlen : F.ids.length = r.count := by rw [← hids, r.length_toList]
  have hcell : d.ids = r.toList := by
    unfold ids RingQueue.toList
    rw [hcount, hmem, hrd]
    refine List.map_congr_left (fun i _ => ?_)
    rw [Vector.getElem?_eq_getElem (Nat.mod_lt _ r.pos)]
    rfl
  have hblocked : F.blocked.length ≤ objDescQueueMaxBlockedNodes := by
    rw [← h.blocked, QueueDesc.blocked, List.length_take, Vector.length_toList]
    exact Nat.min_le_right _ _
  refine ⟨by rw [hcell, hids], h.blocked, by rw [hrd]; exact r.rd_lt, by rw [hwr]; exact r.wr_lt, by rw [hcount, hlen],
    by rw [hlen]; exact r.count_le, h.numNodes, hblocked⟩

/-- An operation that fails changes nothing. -/
theorem call_of_failure {op : QueueOp} (h : (d.call op).1.success = false) : (d.call op).2 = d := by
  cases op <;> simp only [QueueDesc.call, ownObjDescQueueEnqueue, ownObjDescQueueDequeue, ownObjDescQueueAddBlockedNode,
    ownObjDescQueueExtractBlockedNodes] at h ⊢
  case extractBlockedNodes => cases h
  all_goals
    split at h
    · cases h
    · rename_i hc
      rw [if_neg hc]

end QueueDesc

section Queues

variable {node : UInt16 → NodeId} {D : QueueDescs} {Q Q' : Queues} {q : UInt16}

/-- The queues the targets work on are those the fields stand for; `node` names the node descriptors. -/
def Stands (node : UInt16 → NodeId) (D : QueueDescs) (Q : Queues) : Prop :=
  ∀ q, ((Q q.toNat).isSome = (D q).isSome) ∧ ∀ d, D q = some d → ∃ F, d.Represents F ∧
    Q.refs q.toNat = F.ids.map UInt16.toNat ∧ Q.blockedOn q.toNat = F.blocked.map node

theorem stands_created (mem : QueueDescs) {k : Nat} (hk : ∀ q, (mem q).isSome = decide (q.toNat < k)) :
    Stands node (fun q => (mem q).map QueueDesc.ownObjDescQueueReset) (createQueues k) := by
  intro q
  refine ⟨?_, fun d hd => ?_⟩
  · rw [Option.isSome_map, hk, createQueues]
    split <;> simp_all
  · obtain ⟨m, -, rfl⟩ := Option.map_eq_some_iff.1 hd
    exact ⟨{}, m.represents_reset, Queues.refs_createQueues k _, Queues.blockedOn_createQueues k _⟩

/-- One queue changes in both. -/
theorem Stands.update (h : Stands node D Q) {d : QueueDesc} {F : Fifo} (hq : (D q).isSome) (hd : d.Represents F)
    (hr : Q'.refs = Function.update Q.refs q.toNat (F.ids.map UInt16.toNat))
    (hb : Q'.blockedOn = Function.update Q.blockedOn q.toNat (F.blocked.map node))
    (hs : ∀ k, (Q' k).isSome = (Q k).isSome) : Stands node (Function.update D q (some d)) Q' := by
  intro k
  by_cases hk : k = q
  · subst hk
    rw [Function.update_self, hs, (h k).1, hq]
    refine ⟨rfl, fun e he => ?_⟩
    cases he
    exact ⟨F, hd, by rw [hr, Function.update_self], by rw [hb, Function.update_self]⟩
  · have hne : k.toNat ≠ q.toNat := fun he => hk (UInt16.toNat_inj.1 he)
    rw [Function.update_of_ne hk, hs, hr, hb, Function.update_of_ne hne, Function.update_of_ne hne]
    exact h k

theorem Stands.eq_none (h : Stands node D Q) (hD : D q = none) : Q q.toNat = none := by
  have hs := (h q).1
  rw [hD] at hs
  exact Option.not_isSome_iff_eq_none.1 (by rw [hs]; exact Bool.false_ne_true)

/-- **An enqueue of the targets** is one on the fields. -/
theorem Stands.enqueue (h : Stands node D Q) (x : UInt16) :
    match ownObjDescQueueEnqueue Q q.toNat x.toNat with
    | none => (callAt QueueDesc.call D q (.enqueue x)).1.success = false
    | some Q' => (callAt QueueDesc.call D q (.enqueue x)).1.success = true ∧
        Stands node (callAt QueueDesc.call D q (.enqueue x)).2 Q' := by
  unfold callAt
  cases hD : D q with
  | none =>
    have hQ : ownObjDescQueueEnqueue Q q.toNat x.toNat = none := by
      unfold ownObjDescQueueEnqueue
      rw [h.eq_none hD]
    rw [hQ]
  | some d =>
    obtain ⟨F, hd, hr, hb⟩ := (h q).2 d hD
    have hs := (h q).1
    rw [hD] at hs
    obtain ⟨hcall, hrep⟩ := hd.enqueue x
    have hlen : (Q.refs q.toNat).length = F.ids.length := by rw [hr, List.length_map]
    simp only [QueueDesc.call, hcall]
    split
    · rename_i hQ
      rw [enqueue_eq_none hs, hlen] at hQ
      rw [Fifo.call, if_neg (by omega)]
    · rename_i Q' hQ
      obtain ⟨hr', hb', hs'⟩ := enqueue_eq_some hQ
      have hroom : F.ids.length < objDescQueueMaxDepth := by
        have hle := Queues.refs_length_le Q' q.toNat
        rw [hr', Function.update_self, List.length_append, hlen] at hle
        exact hle
      rw [Fifo.call, if_pos hroom] at hrep
      refine ⟨by rw [Fifo.call, if_pos hroom], h.update (by rw [hD]; rfl) hrep ?_ ?_ hs'⟩
      · rw [hr', hr, List.map_append]
        rfl
      · rw [hb', ← hb, Function.update_eq_self]

/-- **A dequeue of the targets** is one on the fields. -/
theorem Stands.dequeue (h : Stands node D Q) :
    (ownObjDescQueueDequeue Q q.toNat).1 = (callAt QueueDesc.call D q .dequeue).1.objDescId.toNat ∧
      Stands node (callAt QueueDesc.call D q .dequeue).2 (ownObjDescQueueDequeue Q q.toNat).2 := by
  unfold callAt
  cases hD : D q with
  | none =>
    unfold ownObjDescQueueDequeue
    rw [h.eq_none hD]
    exact ⟨rfl, h⟩
  | some d =>
    obtain ⟨F, hd, hr, hb⟩ := (h q).2 d hD
    obtain ⟨hcall, hrep⟩ := hd.dequeue
    simp only [QueueDesc.call, hcall]
    obtain ⟨hnil, hdeq⟩ | ⟨x, l, Q', hcons, hdeq, hr', hb', hs'⟩ := dequeue_cases Q q.toNat
    · rw [hr, List.map_eq_nil_iff] at hnil
      rw [Fifo.call, hnil] at hrep ⊢
      rw [hdeq]
      refine ⟨rfl, h.update (by rw [hD]; rfl) hrep ?_ ?_ (fun _ => rfl)⟩
      · rw [← hr, Function.update_eq_self]
      · rw [← hb, Function.update_eq_self]
    · rw [hr] at hcons
      obtain ⟨y, ids, hids, rfl, rfl⟩ := List.map_eq_cons_iff.1 hcons
      rw [Fifo.call, hids] at hrep ⊢
      rw [hdeq]
      refine ⟨rfl, h.update (by rw [hD]; rfl) hrep hr' ?_ hs'⟩
      rw [hb', ← hb, Function.update_eq_self]

/-- **Recording a blocked node** is recording it in the fields. -/
theorem Stands.addBlockedNode (h : Stands node D Q) (n : UInt16) :
    match ownObjDescQueueAddBlockedNode Q q.toNat (node n) with
    | none => (callAt QueueDesc.call D q (.addBlockedNode n)).1.success = false
    | some Q' => (callAt QueueDesc.call D q (.addBlockedNode n)).1.success = true ∧
        Stands node (callAt QueueDesc.call D q (.addBlockedNode n)).2 Q' := by
  unfold callAt
  cases hD : D q with
  | none =>
    have hQ : ownObjDescQueueAddBlockedNode Q q.toNat (node n) = none := by
      unfold ownObjDescQueueAddBlockedNode
      rw [h.eq_none hD]
    rw [hQ]
  | some d =>
    obtain ⟨F, hd, hr, hb⟩ := (h q).2 d hD
    have hs := (h q).1
    rw [hD] at hs
    obtain ⟨hcall, hrep⟩ := hd.addBlockedNode n
    have hlen : (Q.blockedOn q.toNat).length = F.blocked.length := by rw [hb, List.length_map]
    simp only [QueueDesc.call, hcall]
    split
    · rename_i hQ
      rw [addBlockedNode_eq_none hs, hlen] at hQ
      rw [Fifo.call, if_neg (by omega)]
    · rename_i Q' hQ
      obtain ⟨hroom, hr', hb', hs'⟩ := addBlockedNode_eq_some hQ
      rw [hlen] at hroom
      rw [Fifo.call, if_pos hroom] at hrep
      refine ⟨by rw [Fifo.call, if_pos hroom], h.update (by rw [hD]; rfl) hrep ?_ ?_ hs'⟩
      · rw [hr', ← hr, Function.update_eq_self]
      · rw [hb', hb, List.map_append]
        rfl

/-- **Extracting the blocked nodes** is extracting them from the fields. -/
theorem Stands.extractBlockedNodes (h : Stands node D Q) (out : List UInt16) :
    (ownObjDescQueueExtractBlockedNodes Q q.toNat (out.map node)).2 =
        (callAt QueueDesc.call D q (.extractBlockedNodes out)).1.out.map node ∧
      Stands node (callAt QueueDesc.call D q (.extractBlockedNodes out)).2
        (ownObjDescQueueExtractBlockedNodes Q q.toNat (out.map node)).1 := by
  obtain ⟨hout, hr', hb', hs'⟩ := extractBlockedNodes_spec Q q.toNat (out.map node)
  unfold callAt
  cases hD : D q with
  | none =>
    unfold ownObjDescQueueExtractBlockedNodes
    rw [h.eq_none hD]
    exact ⟨rfl, h⟩
  | some d =>
    obtain ⟨F, hd, hr, hb⟩ := (h q).2 d hD
    obtain ⟨hcall, hrep⟩ := hd.extractBlockedNodes out
    simp only [QueueDesc.call, hcall]
    refine ⟨by rw [hout, hb, Fifo.call, List.map_append], h.update (by rw [hD]; rfl) hrep ?_ hb' hs'⟩
    rw [hr', Fifo.call, ← hr, Function.update_eq_self]

end Queues

section Runs

variable {D : QueueDescs} {F : UInt16 → Option Fifo}

/-- Every descriptor of a table stands for the lists of its id. -/
def RepresentsAll (D : QueueDescs) (F : UInt16 → Option Fifo) : Prop :=
  ∀ q, match D q, F q with
    | none, none => True
    | some d, some L => d.Represents L
    | _, _ => False

theorem RepresentsAll.callAt (h : RepresentsAll D F) (q : UInt16) (op : QueueOp) :
    (callAt QueueDesc.call D q op).1 = (callAt Fifo.call F q op).1 ∧
      RepresentsAll (callAt QueueDesc.call D q op).2 (callAt Fifo.call F q op).2 := by
  have hq := h q
  unfold Tiovx.callAt
  cases hD : D q with
  | none =>
    cases hF : F q with
    | none => exact ⟨rfl, h⟩
    | some L => simp [hD, hF] at hq
  | some d =>
    cases hF : F q with
    | none => simp [hD, hF] at hq
    | some L =>
      simp only [hD, hF] at hq
      obtain ⟨hr, hd⟩ := hq.call op
      refine ⟨hr, fun k => ?_⟩
      by_cases hk : k = q
      · subst hk
        simp only [Function.update_self]
        exact hd
      · simp only [Function.update_of_ne hk]
        exact h k

theorem RepresentsAll.callAll : ∀ (l : List (UInt16 × QueueOp)) {D : QueueDescs} {F : UInt16 → Option Fifo},
    RepresentsAll D F → (callAll QueueDesc.call l D).1 = (callAll Fifo.call l F).1 ∧
      RepresentsAll (callAll QueueDesc.call l D).2 (callAll Fifo.call l F).2
  | [], _, _, h => ⟨rfl, h⟩
  | (q, op) :: l, _, _, h => by
    obtain ⟨hr, hd⟩ := h.callAt q op
    obtain ⟨hl, hdl⟩ := RepresentsAll.callAll l hd
    simp only [Tiovx.callAll]
    exact ⟨by rw [hr, hl], hdl⟩

theorem callAt_of_failure {q : UInt16} {op : QueueOp} (h : (callAt QueueDesc.call D q op).1.success = false) :
    (callAt QueueDesc.call D q op).2 = D := by
  unfold callAt at h ⊢
  split at h
  · rfl
  · rename_i d hd
    simp only at h ⊢
    rw [QueueDesc.call_of_failure h, ← hd, Function.update_eq_self]

/-- **A queue is a bounded list.**  Queues are created over any memory and any operations are called with any ids.  Every
operation returns what it returns on lists of at most 32 ids and 8 nodes; the fields stand for these lists, the indices are
in range and the counts are their lengths; and an operation that fails leaves everything as it is. -/
theorem queueRuns_refine (mem : QueueDescs) (l : List (UInt16 × QueueOp)) :
    let created : QueueDescs := fun q => (mem q).map QueueDesc.ownObjDescQueueReset
    let D := callAll QueueDesc.call l created
    let F := callAll Fifo.call l (fun q => (mem q).map (fun _ => {}))
    D.1 = F.1 ∧
    (∀ q d, D.2 q = some d → ∃ L, F.2 q = some L ∧ d.ids = L.ids ∧ d.blocked = L.blocked ∧
      d.curRd.toNat < objDescQueueMaxDepth ∧ d.curWr.toNat < objDescQueueMaxDepth ∧
      d.count.toNat = L.ids.length ∧ L.ids.length ≤ objDescQueueMaxDepth ∧
      d.numNodes.toNat = L.blocked.length ∧ L.blocked.length ≤ objDescQueueMaxBlockedNodes) ∧
    ∀ q op, (callAt QueueDesc.call D.2 q op).1.success = false → (callAt QueueDesc.call D.2 q op).2 = D.2 := by
  intro created D F
  have h0 : RepresentsAll created (fun q => (mem q).map (fun _ => {})) := by
    intro q
    simp only [created]
    cases mem q with
    | none => trivial
    | some d => exact d.represents_reset
  obtain ⟨hr, hall⟩ := h0.callAll l
  refine ⟨hr, fun q d hd => ?_, fun q op => callAt_of_failure⟩
  have hq := hall q
  rw [hd] at hq
  cases hF : F.2 q with
  | none => simp [F, hF] at hq
  | some L =>
    simp only [F] at hF
    simp only [hF] at hq
    exact ⟨L, rfl, hq.fields⟩

end Runs

end Tiovx
