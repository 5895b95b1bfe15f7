import Mathlib.Tactic
import Tiovx.TargetKernels
import Tiovx.ScheduleStatus
/-!
# TargetNodes — a node is created on its target (`vx_target.c`)

Each replica of a node gets an instance of its kernel, and the node keeps the index of each.  Where a replica cannot be created,
the instances of those before are freed by their index and kernel id.  The clean-up also reaches the replica that failed: where
no instance was allocated for it, what it reads there is an index from before the call.
-/
namespace Tiovx

open TargetKernels

/-- `tivx_obj_desc_node_t`, as far as its instances are concerned; `kernelName` is what its descriptor of a name holds, if it has
one. -/
structure TargetNodeDesc where
  kernelId : Int
  kernelName : Option KernelName
  targetId : Int
  isReplicated : Bool
  numOfReplicas : UInt32
  targetKernelIndex : Nat → Nat

def TargetNodeDesc.loopMax (N : TargetNodeDesc) : Nat := if N.isReplicated then N.numOfReplicas.toUInt16.toNat else 1

/-- The state of the loop of `ownTargetNodeDescNodeCreate`. -/
structure NodeCreation where
  tables : TargetKernels
  node : TargetNodeDesc
  cnt : Nat
  status : Int

/-- The loop over the replicas; `created` is what `ownTargetKernelCreate` returns for each. -/
def createReplicas (created : Nat → Int) : Nat → NodeCreation → NodeCreation
  | 0, r => r
  | n + 1, r =>
    match r.tables.ownTargetKernelInstanceAlloc r.node.kernelId r.node.kernelName r.node.targetId with
    -- the index of this replica is not written, and `cnt` goes on all the same
    | (s, none) => ⟨s, r.node, r.cnt + 1, vxErrorNoResources⟩
    | (s, some index) =>
      let N := { r.node with targetKernelIndex := Function.update r.node.targetKernelIndex r.cnt index }
      let s' := match s.instances[index]? with
        | some I => s.callFunc .create I
        | none => s
      if created r.cnt = vxSuccess then createReplicas created n ⟨s', N, r.cnt + 1, vxSuccess⟩
      else ⟨s'.ownTargetKernelInstanceFree index, N, r.cnt + 1, created r.cnt⟩

namespace TargetKernels

/-- The instance that a node names is freed, if it is there. -/
def freeNamed (s : TargetKernels) (index : Nat) (kernelId : Int) : TargetKernels :=
  if (s.ownTargetKernelInstanceGet index kernelId).isSome then s.ownTargetKernelInstanceFree index else s

def ownTargetNodeDescNodeCreate (s : TargetKernels) (N : TargetNodeDesc) (created : Nat → Int) :
    TargetKernels × TargetNodeDesc × Int :=
  let r := createReplicas created N.loopMax ⟨s, N, 0, vxSuccess⟩
  if r.status ≠ vxSuccess then
    ((List.range r.cnt).foldl (fun s i => s.freeNamed (r.node.targetKernelIndex i) r.node.kernelId) r.tables, r.node, r.status)
  else (r.tables, r.node, r.status)

/-- The status of `ownTargetNodeDescNodeDelete`, once one more replica is deleted. -/
def deleteStatus (s : TargetKernels) (index : Nat) (kernelId deleted status : Int) : Int :=
  match s.ownTargetKernelInstanceGet index kernelId with
  | none => vxErrorInvalidParameters
  | some _ => if status = vxSuccess then deleted else status

/-- `ownTargetNodeDescNodeDelete`; `deleted` is what `ownTargetKernelDelete` returns for each replica. -/
def ownTargetNodeDescNodeDelete (s : TargetKernels) (N : TargetNodeDesc) (deleted : Nat → Int) : TargetKernels × Int :=
  (List.range N.loopMax).foldl (fun r i => (r.1.deleteInstance (N.targetKernelIndex i) N.kernelId,
    r.1.deleteStatus (N.targetKernelIndex i) N.kernelId (deleted i) r.2)) (s, vxSuccess)

/-! ### The live instances -/

/-- The instance in slot `i` of the table, if one is live there. -/
def liveAt (s : TargetKernels) (i : Nat) : Option TargetKernelInstance := (s.instances[i]?).filter (·.isLive)

/-- The kernel of a node is registered. -/
def Registered (s : TargetKernels) (N : TargetNodeDesc) : Prop :=
  ∃ K ∈ s.table, K.isFound N.kernelId N.kernelName N.targetId = true

/-- The slots that are free. -/
def numFree (s : TargetKernels) : Nat := s.instances.countP (fun I => !I.isLive)

theorem liveAt_congr {s s' : TargetKernels} (h : s'.instances = s.instances) (i : Nat) : s'.liveAt i = s.liveAt i := by
  unfold liveAt
  rw [h]

/-- The instances when one is written. -/
theorem liveAt_set {s s' : TargetKernels} {index : Nat} {J I : TargetKernelInstance} (hJ : s.instances[index]? = some J)
    (h : s'.instances = s.instances.set index I) (i : Nat) :
    s'.liveAt i = if i = index then (if I.isLive then some I else none) else s.liveAt i := by
  obtain ⟨hlt, -⟩ := List.getElem?_eq_some_iff.1 hJ
  unfold liveAt
  rw [h]
  by_cases hi : i = index
  · subst hi
    rw [if_pos rfl, List.getElem?_set_self hlt]
    rfl
  · rw [if_neg hi, List.getElem?_set_ne (Ne.symm hi)]

theorem instances_of_liveAt {s : TargetKernels} {i : Nat} {I : TargetKernelInstance} (h : s.liveAt i = some I) :
    s.instances[i]? = some I ∧ I.isLive = true := by
  unfold liveAt at h
  exact ⟨Option.eq_some_of_filter_eq_some h, (Option.filter_eq_some_iff.1 h).2⟩

theorem ownTargetKernelInstanceFree_liveAt (s : TargetKernels) (index i : Nat) :
    (s.ownTargetKernelInstanceFree index).liveAt i = if i = index then none else s.liveAt i := by
  unfold ownTargetKernelInstanceFree
  cases hJ : s.instances[index]? with
  | some J =>
    rw [liveAt_set hJ (show _ = s.instances.set index { J with kernelId := targetKernelIdInvalid } from rfl) i]
    rfl
  | none =>
    by_cases hi : i = index
    · subst hi
      rw [if_pos rfl]
      unfold liveAt
      rw [hJ]
      rfl
    · rw [if_neg hi]

/-- What is left of a slot when its instance is freed if it has the kernel id. -/
def unlessNamed (kernelId : Int) (o : Option TargetKernelInstance) : Option TargetKernelInstance :=
  o.filter (fun I => I.kernelId ≠ kernelId)

theorem unlessNamed_idem (kernelId : Int) (o : Option TargetKernelInstance) :
    unlessNamed kernelId (unlessNamed kernelId o) = unlessNamed kernelId o := by
  unfold unlessNamed
  rw [Option.filter_filter]
  congr 1
  funext I
  exact Bool.and_self _

/-- What naming an index and a kernel id frees. -/
theorem freeNamed_liveAt (s : TargetKernels) (index : Nat) (kernelId : Int) (i : Nat) :
    (s.freeNamed index kernelId).liveAt i = if i = index then unlessNamed kernelId (s.liveAt i) else s.liveAt i := by
  unfold freeNamed
  cases hget : s.ownTargetKernelInstanceGet index kernelId with
  | none =>
    rw [if_neg (by decide : ¬ (none : Option TargetKernelInstance).isSome = true)]
    split
    · rename_i hi
      subst hi
      unfold unlessNamed
      cases hlive : s.liveAt i with
      | none => rfl
      | some I =>
        unfold ownTargetKernelInstanceGet at hget
        rw [(instances_of_liveAt hlive).1] at hget
        have hne : ¬ I.kernelId = kernelId := by simpa [Option.filter] using hget
        simp [Option.filter, hne]
    · rfl
  | some I =>
    rw [if_pos Option.isSome_some, ownTargetKernelInstanceFree_liveAt]
    unfold ownTargetKernelInstanceGet at hget
    obtain ⟨hI, hk⟩ := Option.filter_eq_some_iff.1 hget
    split
    · rename_i hi
      subst hi
      cases hlive : s.liveAt i with
      | none => rfl
      | some J =>
        obtain rfl : I = J := Option.some.inj (hI.symm.trans (instances_of_liveAt hlive).1)
        have hid := of_decide_eq_true hk
        simp [unlessNamed, Option.filter, hid]
    · rfl

theorem deleteInstance_liveAt (s : TargetKernels) (index : Nat) (kernelId : Int) (i : Nat) :
    (s.deleteInstance index kernelId).liveAt i = if i = index then unlessNamed kernelId (s.liveAt i) else s.liveAt i := by
  rw [← freeNamed_liveAt]
  unfold deleteInstance freeNamed
  cases s.ownTargetKernelInstanceGet index kernelId with
  | none => rfl
  | some I =>
    rw [if_pos Option.isSome_some, ownTargetKernelInstanceFree_liveAt, ownTargetKernelInstanceFree_liveAt,
      liveAt_congr (callFunc_instances s .delete I)]

/-- A loop that frees what a node names in each of its replicas. -/
theorem foldl_liveAt {f : TargetKernels → Nat → TargetKernels} {index : Nat → Nat} {kernelId : Int}
    (hf : ∀ s k i, (f s k).liveAt i = if i = index k then unlessNamed kernelId (s.liveAt i) else s.liveAt i) :
    ∀ (n : Nat) (s : TargetKernels) (i : Nat), ((List.range n).foldl f s).liveAt i =
      if ∃ k < n, i = index k then unlessNamed kernelId (s.liveAt i) else s.liveAt i
  | 0, s, i => by
    rw [if_neg]
    · rfl
    · rintro ⟨k, hk, -⟩
      exact absurd hk (Nat.not_lt_zero k)
  | n + 1, s, i => by
    rw [List.range_succ, List.foldl_append, List.foldl_cons, List.foldl_nil, hf, foldl_liveAt hf n s i]
    by_cases hk : ∃ k < n, i = index k
    · have hk' : ∃ k < n + 1, i = index k := by
        obtain ⟨k, hk, hik⟩ := hk
        exact ⟨k, Nat.lt_succ_of_lt hk, hik⟩
      rw [if_pos hk, if_pos hk', unlessNamed_idem, ite_self]
    · rw [if_neg hk]
      have hiff : (∃ k < n + 1, i = index k) ↔ i = index n := by
        constructor
        · rintro ⟨k, hkn, hik⟩
          obtain hkn | rfl := Nat.lt_succ_iff_lt_or_eq.1 hkn
          · exact absurd ⟨k, hkn, hik⟩ hk
          · exact hik
        · intro hin
          exact ⟨n, Nat.lt_succ_self n, hin⟩
      simp only [hiff]

/-! ### The loop over the replicas -/

theorem callFunc_table (s : TargetKernels) (func : KernelFunc) (I : TargetKernelInstance) :
    (s.callFunc func I).table = s.table := by
  unfold callFunc
  split
  · split
    · split <;> rfl
    · rfl
  · rfl

/-- A kernel that was found is found again. -/
theorem isFound_found (K : TargetKernel) (kernelId : Int) (kernelName : Option KernelName) (targetId : Int) :
    (K.found kernelId).isFound kernelId kernelName targetId = K.isFound kernelId kernelName targetId := by
  unfold TargetKernel.found
  split
  · rfl
  · rename_i hname
    unfold TargetKernel.isFound
    rw [if_neg hname, if_neg hname]

theorem registered_set {s s' : TargetKernels} {N : TargetNodeDesc} {i : Nat} {K : TargetKernel} (hi : s.table[i]? = some K)
    (hK : K.isFound N.kernelId N.kernelName N.targetId = true) (ht : s'.table = s.table.set i (K.found N.kernelId)) :
    s'.Registered N := by
  refine ⟨K.found N.kernelId, ?_, by rw [isFound_found, hK]⟩
  rw [ht]
  exact List.mem_set (List.getElem?_eq_some_iff.1 hi).1 _

/-- Either the kernel is not registered or no slot is free, and nothing is allocated, or a free slot is taken. -/
theorem ownTargetKernelInstanceAlloc_cases (s : TargetKernels) (N : TargetNodeDesc) :
    (∃ s', s.ownTargetKernelInstanceAlloc N.kernelId N.kernelName N.targetId = (s', none) ∧ s'.instances = s.instances ∧
      (¬ s.Registered N ∨ s.numFree = 0)) ∨
    ∃ s' index I J, s.ownTargetKernelInstanceAlloc N.kernelId N.kernelName N.targetId = (s', some index) ∧ s.Registered N ∧
      s'.Registered N ∧ s.instances[index]? = some J ∧ J.isLive = false ∧ I.kernelId = N.kernelId ∧
      s'.instances = s.instances.set index I := by
  unfold ownTargetKernelInstanceAlloc ownTargetKernelGet
  cases hfind : s.table.findIdx? (TargetKernel.isFound N.kernelId N.kernelName N.targetId) with
  | none =>
    refine .inl ⟨s, rfl, rfl, .inl ?_⟩
    rintro ⟨K, hK, hfound⟩
    have := List.findIdx?_eq_none_iff.1 hfind K hK
    rw [hfound] at this
    cases this
  | some i =>
    obtain ⟨hlt, hfound, -⟩ := List.findIdx?_eq_some_iff_getElem.1 hfind
    have hi := List.getElem?_eq_getElem hlt
    have hreg : s.Registered N := ⟨_, List.getElem_mem hlt, hfound⟩
    simp only [hi]
    cases hfree : s.instances.findIdx? (fun I => !I.isLive) with
    | none =>
      refine .inl ⟨_, rfl, rfl, .inr ?_⟩
      refine List.countP_eq_zero.2 (fun I hI => ?_)
      rw [List.findIdx?_eq_none_iff.1 hfree I hI]
      decide
    | some index =>
      obtain ⟨hlt', hlive, -⟩ := List.findIdx?_eq_some_iff_getElem.1 hfree
      exact .inr ⟨_, index, _, _, rfl, hreg, registered_set hi hfound rfl, List.getElem?_eq_getElem hlt', by simpa using hlive,
        rfl, rfl⟩

theorem liveAt_of_free {s : TargetKernels} {i : Nat} {J : TargetKernelInstance} (hJ : s.instances[i]? = some J)
    (hlive : J.isLive = false) : s.liveAt i = none := by
  unfold liveAt
  rw [hJ]
  simp [Option.filter, hlive]

/-- Taking a free slot leaves one less, if the kernel id is one that slots are taken with. -/
theorem numFree_set {s s' : TargetKernels} {index : Nat} {J I : TargetKernelInstance} (hJ : s.instances[index]? = some J)
    (hlive : J.isLive = false) (h : s'.instances = s.instances.set index I) :
    0 < s.numFree ∧ s'.numFree + I.isLive.toNat = s.numFree := by
  obtain ⟨hlt, rfl⟩ := List.getElem?_eq_some_iff.1 hJ
  have hpos : 0 < s.numFree := List.countP_pos_iff.2 ⟨_, List.getElem_mem hlt, by rw [hlive]; rfl⟩
  refine ⟨hpos, ?_⟩
  unfold numFree at hpos ⊢
  rw [h, List.countP_set hlt, hlive]
  cases I.isLive <;> simp <;> omega

end TargetKernels

/-- What the loop has done when `cnt` replicas have their instances: they were in free slots, and all else is as it was. -/
structure Created (s0 : TargetKernels) (N0 : TargetNodeDesc) (s : TargetKernels) (N : TargetNodeDesc) (cnt : Nat) : Prop where
  node : N = { N0 with targetKernelIndex := N.targetKernelIndex }
  later : ∀ i, cnt ≤ i → N.targetKernelIndex i = N0.targetKernelIndex i
  others : ∀ j, (∀ i < cnt, j ≠ N.targetKernelIndex i) → s.liveAt j = s0.liveAt j
  wasFree : ∀ i < cnt, s0.liveAt (N.targetKernelIndex i) = none
  own : ∀ i < cnt, ∃ I, s.instances[N.targetKernelIndex i]? = some I ∧ I.kernelId = N0.kernelId
  registered : s.Registered N0 ↔ s0.Registered N0
  found : 0 < cnt → s0.Registered N0 ∧ 0 < s0.numFree
  free : s.numFree + cnt * (N0.kernelId != targetKernelIdInvalid).toNat = s0.numFree

theorem Created.start (s : TargetKernels) (N : TargetNodeDesc) : Created s N s N 0 where
  node := rfl
  later _ _ := rfl
  others _ _ := rfl
  wasFree i hi := absurd hi (Nat.not_lt_zero i)
  own i hi := absurd hi (Nat.not_lt_zero i)
  registered := Iff.rfl
  found h := absurd h (Nat.not_lt_zero 0)
  free := by rw [Nat.zero_mul, Nat.add_zero]

/-- One more replica gets an instance. -/
theorem Created.alloc {s0 s s' : TargetKernels} {N0 N : TargetNodeDesc} {cnt index : Nat} {I J : TargetKernelInstance}
    (h : Created s0 N0 s N cnt) (hreg : s.Registered N0) (hreg' : s'.Registered N0) (hJ : s.instances[index]? = some J)
    (hlive : J.isLive = false) (hI : I.kernelId = N0.kernelId) (hs : s'.instances = s.instances.set index I) :
    Created s0 N0 s' { N with targetKernelIndex := Function.update N.targetKernelIndex cnt index } (cnt + 1) := by
  have hset := liveAt_set hJ hs
  have hold : ∀ i < cnt, Function.update N.targetKernelIndex cnt index i = N.targetKernelIndex i :=
    fun i hi => Function.update_of_ne (Nat.ne_of_lt hi) ..
  have hnew : Function.update N.targetKernelIndex cnt index cnt = index := Function.update_self ..
  have hfree := numFree_set hJ hlive hs
  have hwas : s0.liveAt index = none := by
    by_cases hk : ∃ i < cnt, index = N.targetKernelIndex i
    · obtain ⟨i, hi, rfl⟩ := hk
      exact h.wasFree i hi
    · rw [← h.others index (fun i hi hne => hk ⟨i, hi, hne⟩), liveAt_of_free hJ hlive]
  constructor
  · rw [h.node]
  · intro i hi
    show Function.update N.targetKernelIndex cnt index i = _
    rw [Function.update_of_ne (by omega)]
    exact h.later i (by omega)
  · intro j hj
    have hji : j ≠ index := by
      have hne : j ≠ Function.update N.targetKernelIndex cnt index cnt := hj cnt (Nat.lt_succ_self cnt)
      rwa [hnew] at hne
    rw [hset j, if_neg hji]
    refine h.others j (fun i hi => ?_)
    have hne : j ≠ Function.update N.targetKernelIndex cnt index i := hj i (Nat.lt_succ_of_lt hi)
    rwa [hold i hi] at hne
  · intro i hi
    show s0.liveAt (Function.update N.targetKernelIndex cnt index i) = none
    obtain hi | rfl := Nat.lt_succ_iff_lt_or_eq.1 hi
    · rw [hold i hi]
      exact h.wasFree i hi
    · rw [hnew]
      exact hwas
  · intro i hi
    show ∃ I, s'.instances[Function.update N.targetKernelIndex cnt index i]? = some I ∧ _
    rw [hs]
    obtain hi | rfl := Nat.lt_succ_iff_lt_or_eq.1 hi
    · rw [hold i hi]
      by_cases hne : N.targetKernelIndex i = index
      · rw [hne, List.getElem?_set_self (List.getElem?_eq_some_iff.1 hJ).1]
        exact ⟨I, rfl, hI⟩
      · rw [List.getElem?_set_ne (Ne.symm hne)]
        exact h.own i hi
    · rw [hnew, List.getElem?_set_self (List.getElem?_eq_some_iff.1 hJ).1]
      exact ⟨I, rfl, hI⟩
  · exact ⟨fun _ => h.registered.1 hreg, fun _ => hreg'⟩
  · intro _
    refine ⟨h.registered.1 hreg, ?_⟩
    have := h.free
    omega
  · have h1 := h.free
    have h2 := hfree.2
    have h3 : I.isLive = (N0.kernelId != targetKernelIdInvalid) := by
      unfold TargetKernelInstance.isLive
      rw [hI]
    rw [h3] at h2
    rw [Nat.add_mul, Nat.one_mul]
    omega

theorem Created.registered_node {s0 s t : TargetKernels} {N0 N : TargetNodeDesc} {cnt : Nat} (h : Created s0 N0 s N cnt) :
    t.Registered N ↔ t.Registered N0 := by
  rw [h.node]
  exact Iff.rfl

/-- How the loop ends: every replica is created, or there is no instance for replica `c`, or its callback fails. -/
inductive CreationEnd (s0 : TargetKernels) (N0 : TargetNodeDesc) (created : Nat → Int) (n : Nat) (r : NodeCreation) : Prop
  | all (status : r.status = vxSuccess) (made : Created s0 N0 r.tables r.node n)
  | noInstance (c : Nat) (s : TargetKernels) (status : r.status = vxErrorNoResources) (lt : c < n) (cnt : r.cnt = c + 1)
      (before : ∀ i < c, created i = vxSuccess) (made : Created s0 N0 s r.node c) (same : r.tables.instances = s.instances)
      (none : ¬ s.Registered N0 ∨ s.numFree = 0)
  | notCreated (c : Nat) (s : TargetKernels) (status : r.status = created c) (failed : created c ≠ vxSuccess)
      (cnt : r.cnt = c + 1) (made : Created s0 N0 s r.node (c + 1))
      (freed : r.tables = s.ownTargetKernelInstanceFree (r.node.targetKernelIndex c))

theorem createReplicas_end {s0 : TargetKernels} {N0 : TargetNodeDesc} {created : Nat → Int} : ∀ (n : Nat) (r : NodeCreation),
    Created s0 N0 r.tables r.node r.cnt → r.status = vxSuccess → (∀ i < r.cnt, created i = vxSuccess) →
      CreationEnd s0 N0 created (r.cnt + n) (createReplicas created n r)
  | 0, r, h, hst, _ => .all hst h
  | n + 1, r, h, hst, hbefore => by
    obtain ⟨s', heq, hinst, hnone⟩ | ⟨s', index, I, J, heq, hreg, hreg', hJ, hlive, hI, hset⟩ :=
      ownTargetKernelInstanceAlloc_cases r.tables r.node
    · unfold createReplicas
      simp only [heq]
      rw [h.registered_node] at hnone
      exact .noInstance r.cnt r.tables rfl (by omega) rfl hbefore h hinst hnone
    · have hget : s'.instances[index]? = some I := by
        rw [hset, List.getElem?_set_self (List.getElem?_eq_some_iff.1 hJ).1]
      have hcall := callFunc_instances s' .create I
      have hregcall : (s'.callFunc .create I).Registered r.node := by
        unfold Registered
        rwa [callFunc_table]
      rw [show r.node.kernelId = N0.kernelId by rw [h.node]] at hI
      have hmade := h.alloc (h.registered_node.1 hreg) (h.registered_node.1 hregcall) hJ hlive hI (hcall.trans hset)
      unfold createReplicas
      simp only [heq, hget]
      split
      · rename_i hc
        rw [show r.cnt + (n + 1) = r.cnt + 1 + n by omega]
        refine createReplicas_end n ⟨_, _, r.cnt + 1, vxSuccess⟩ hmade rfl (fun i hi => ?_)
        obtain hi | rfl := Nat.lt_succ_iff_lt_or_eq.1 hi
        · exact hbefore i hi
        · exact hc
      · rename_i hc
        refine .notCreated r.cnt _ rfl hc rfl hmade ?_
        show _ = TargetKernels.ownTargetKernelInstanceFree _ (Function.update r.node.targetKernelIndex r.cnt index r.cnt)
        rw [Function.update_self]

/-! ### A failed creation, and a deletion -/

theorem unlessNamed_eq_self_iff {kernelId : Int} {o : Option TargetKernelInstance} :
    unlessNamed kernelId o = o ↔ ∀ I, o = some I → I.kernelId ≠ kernelId := by
  cases o with
  | none => simp [unlessNamed]
  | some I =>
    by_cases hI : I.kernelId = kernelId
    · simp [unlessNamed, Option.filter, hI]
    · simp [unlessNamed, Option.filter, hI]

/-- A slot that a node has taken is left without a live instance when its name is freed. -/
theorem unlessNamed_liveAt {s : TargetKernels} {i : Nat} {kernelId : Int} {I : TargetKernelInstance}
    (hI : s.instances[i]? = some I) (hk : I.kernelId = kernelId) : unlessNamed kernelId (s.liveAt i) = none := by
  unfold unlessNamed liveAt
  rw [hI]
  by_cases hl : I.isLive
  · simp [Option.filter, hl, hk]
  · simp [Option.filter, hl]

/-- What a node and its target keep: a creation that fails leaves the live instances as they were; one that succeeds only adds to
them, and the deletion of the node, in any later tables where the added ones are as they were, takes these away and no others. -/
def KeepsInstances (s : TargetKernels) (N : TargetNodeDesc) (created : Nat → Int) : Prop :=
  ((s.ownTargetNodeDescNodeCreate N created).2.2 ≠ vxSuccess →
    ∀ i, (s.ownTargetNodeDescNodeCreate N created).1.liveAt i = s.liveAt i) ∧
  ((s.ownTargetNodeDescNodeCreate N created).2.2 = vxSuccess →
    (∀ i, (s.ownTargetNodeDescNodeCreate N created).1.liveAt i ≠ s.liveAt i → s.liveAt i = none) ∧
    ∀ (t : TargetKernels) (deleted : Nat → Int),
      (∀ i, (s.ownTargetNodeDescNodeCreate N created).1.liveAt i ≠ s.liveAt i →
        t.liveAt i = (s.ownTargetNodeDescNodeCreate N created).1.liveAt i) →
      ∀ i, ((s.ownTargetNodeDescNodeCreate N created).1.liveAt i ≠ s.liveAt i →
          (t.ownTargetNodeDescNodeDelete (s.ownTargetNodeDescNodeCreate N created).2.1 deleted).1.liveAt i = none) ∧
        ((s.ownTargetNodeDescNodeCreate N created).1.liveAt i = s.liveAt i →
          (t.ownTargetNodeDescNodeDelete (s.ownTargetNodeDescNodeCreate N created).2.1 deleted).1.liveAt i = t.liveAt i))

instance (s : TargetKernels) (N : TargetNodeDesc) : Decidable (s.Registered N) :=
  inferInstanceAs (Decidable (∃ K ∈ s.table, K.isFound N.kernelId N.kernelName N.targetId = true))

/-- The replica that finds no instance, if so many are to be created: the first, if the kernel is not registered. -/
def TargetKernels.numAllocable (s : TargetKernels) (N : TargetNodeDesc) : Nat := if s.Registered N then s.numFree else 0

/-- The index that the node holds for the replica that finds no instance is not that of an instance of the same kernel. -/
def StaleIndexHarmless (s : TargetKernels) (N : TargetNodeDesc) (created : Nat → Int) : Prop :=
  s.numAllocable N < N.loopMax → (∀ i < s.numAllocable N, created i = vxSuccess) →
    ∀ I, s.liveAt (N.targetKernelIndex (s.numAllocable N)) = some I → I.kernelId ≠ N.kernelId

section Create

variable {s : TargetKernels} {N : TargetNodeDesc} {created : Nat → Int}

/-- A kernel id that slots are taken with, or one that no live instance has. -/
theorem live_kernelId_ne (s : TargetKernels) {kernelId : Int} (h : (kernelId != targetKernelIdInvalid).toNat = 0) (i : Nat) :
    ∀ I, s.liveAt i = some I → I.kernelId ≠ kernelId := by
  intro I hI hk
  have hl := (instances_of_liveAt hI).2
  unfold TargetKernelInstance.isLive at hl
  rw [hk] at hl
  rw [hl] at h
  cases h

theorem valid_cases (kernelId : Int) :
    (kernelId != targetKernelIdInvalid).toNat = 0 ∨ (kernelId != targetKernelIdInvalid).toNat = 1 := by
  cases (kernelId != targetKernelIdInvalid) <;> decide

/-- Where `cnt` replicas got their instances, at least as many could. -/
theorem Created.le_numAllocable {s0 t : TargetKernels} {N0 N' : TargetNodeDesc} {cnt : Nat} (h : Created s0 N0 t N' cnt)
    (hvalid : (N0.kernelId != targetKernelIdInvalid).toNat = 1) : cnt ≤ s0.numAllocable N0 := by
  rcases Nat.eq_zero_or_pos cnt with rfl | hpos
  · exact Nat.zero_le _
  · have hfree := h.free
    rw [hvalid, Nat.mul_one] at hfree
    unfold TargetKernels.numAllocable
    rw [if_pos (h.found hpos).1]
    omega

/-- The replica that found no instance. -/
theorem Created.numAllocable_eq {s0 t : TargetKernels} {N0 N' : TargetNodeDesc} {c : Nat} (h : Created s0 N0 t N' c)
    (hnone : ¬ t.Registered N0 ∨ t.numFree = 0) : s0.numAllocable N0 = c := by
  unfold TargetKernels.numAllocable
  by_cases hreg : s0.Registered N0
  · rw [if_pos hreg]
    have hzero : t.numFree = 0 := hnone.resolve_left (fun hn => hn (h.registered.2 hreg))
    have hfree := h.free
    rw [hzero, Nat.zero_add] at hfree
    rcases Nat.eq_zero_or_pos c with rfl | hpos
    · rw [← hfree, Nat.zero_mul]
    · have hpos' := (h.found hpos).2
      obtain hv | hv := valid_cases N0.kernelId
      · rw [hv, Nat.mul_zero] at hfree
        omega
      · rw [hv, Nat.mul_one] at hfree
        exact hfree.symm
  · rw [if_neg hreg]
    rcases Nat.eq_zero_or_pos c with rfl | hpos
    · rfl
    · exact absurd (h.found hpos).1 hreg

/-- Freeing what the node names in its first replicas gives back the slots that they took. -/
theorem Created.cleaned {s0 t u : TargetKernels} {N0 N' : TargetNodeDesc} {c n : Nat} (h : Created s0 N0 t N' c) (hcn : c ≤ n)
    (hu : ∀ i, u.liveAt i = t.liveAt i ∨ u.liveAt i = none ∧ ∃ k < c, i = N'.targetKernelIndex k)
    {i : Nat} (hrest : ∀ k, c ≤ k → k < n → i = N'.targetKernelIndex k →
      unlessNamed N0.kernelId (s0.liveAt i) = s0.liveAt i) :
    ((List.range n).foldl (fun s k => s.freeNamed (N'.targetKernelIndex k) N'.kernelId) u).liveAt i = s0.liveAt i := by
  rw [foldl_liveAt (fun s k i => freeNamed_liveAt s (N'.targetKernelIndex k) N'.kernelId i),
    show N'.kernelId = N0.kernelId by rw [h.node]]
  by_cases hk : ∃ k < c, i = N'.targetKernelIndex k
  · obtain ⟨k, hk, rfl⟩ := hk
    obtain ⟨I, hI, hid⟩ := h.own k hk
    rw [if_pos ⟨k, by omega, rfl⟩, h.wasFree k hk]
    obtain hui | ⟨hui, -⟩ := hu (N'.targetKernelIndex k)
    · rw [hui]
      exact unlessNamed_liveAt hI hid
    · rw [hui]
      rfl
  · have hui : u.liveAt i = s0.liveAt i := by
      obtain hui | ⟨-, hex⟩ := hu i
      · rw [hui]
        exact h.others i (fun k hkc hik => hk ⟨k, hkc, hik⟩)
      · exact absurd hex hk
    rw [hui]
    split
    · rename_i hex
      obtain ⟨k, hkn, hik⟩ := hex
      exact hrest k (Nat.le_of_not_lt (fun hkc => hk ⟨k, hkc, hik⟩)) hkn hik
    · rfl

theorem ownTargetNodeDescNodeDelete_fst (t : TargetKernels) (N : TargetNodeDesc) (deleted : Nat → Int) :
    (t.ownTargetNodeDescNodeDelete N deleted).1 =
      (List.range N.loopMax).foldl (fun s i => s.deleteInstance (N.targetKernelIndex i) N.kernelId) t := by
  unfold ownTargetNodeDescNodeDelete
  generalize vxSuccess = status
  induction List.range N.loopMax generalizing t status with
  | nil => rfl
  | cons i is ih => exact ih _ _

theorem ownTargetNodeDescNodeCreate_end (s : TargetKernels) (N : TargetNodeDesc) (created : Nat → Int) :
    CreationEnd s N created N.loopMax (createReplicas created N.loopMax ⟨s, N, 0, vxSuccess⟩) := by
  have h : CreationEnd s N created (0 + N.loopMax) _ :=
    createReplicas_end N.loopMax ⟨s, N, 0, vxSuccess⟩ (Created.start s N) rfl (fun i hi => absurd hi (Nat.not_lt_zero i))
  rwa [Nat.zero_add] at h

/-- A node that was created gives back what it took. -/
theorem deleted_liveAt {s1 t : TargetKernels} {N1 : TargetNodeDesc} (h : Created s N s1 N1 N.loopMax)
    (ht : ∀ i, s1.liveAt i ≠ s.liveAt i → t.liveAt i = s1.liveAt i) (deleted : Nat → Int) (i : Nat) :
    (s1.liveAt i ≠ s.liveAt i → (t.ownTargetNodeDescNodeDelete N1 deleted).1.liveAt i = none) ∧
      (s1.liveAt i = s.liveAt i → (t.ownTargetNodeDescNodeDelete N1 deleted).1.liveAt i = t.liveAt i) := by
  rw [ownTargetNodeDescNodeDelete_fst, foldl_liveAt (fun s k i => deleteInstance_liveAt s (N1.targetKernelIndex k) N1.kernelId i),
    show N1.kernelId = N.kernelId by rw [h.node], show N1.loopMax = N.loopMax by rw [h.node]; rfl]
  by_cases hk : ∃ k < N.loopMax, i = N1.targetKernelIndex k
  · obtain ⟨k, hk, rfl⟩ := hk
    obtain ⟨I, hI, hid⟩ := h.own k hk
    rw [if_pos ⟨k, hk, rfl⟩]
    refine ⟨fun hne => ?_, fun heq => ?_⟩
    · rw [ht _ hne]
      exact unlessNamed_liveAt hI hid
    · -- nothing is live in a slot that is taken with the id of free slots
      have hnone : s1.liveAt (N1.targetKernelIndex k) = none := heq.trans (h.wasFree k hk)
      have hdead : I.isLive = false := by
        rw [liveAt, hI] at hnone
        simpa [Option.filter] using hnone
      refine unlessNamed_eq_self_iff.2 (live_kernelId_ne t ?_ _)
      rw [← hid]
      unfold TargetKernelInstance.isLive at hdead
      rw [hdead]
      rfl
  · rw [if_neg hk]
    exact ⟨fun hne => absurd (h.others i (fun k hkn hik => hk ⟨k, hkn, hik⟩)) hne, fun _ => rfl⟩

theorem keepsInstances_iff (s : TargetKernels) (N : TargetNodeDesc) (created : Nat → Int) :
    KeepsInstances s N created ↔ StaleIndexHarmless s N created := by
  have hend := ownTargetNodeDescNodeCreate_end s N created
  unfold KeepsInstances ownTargetNodeDescNodeCreate
  simp only
  generalize createReplicas created N.loopMax ⟨s, N, 0, vxSuccess⟩ = r at hend ⊢
  cases hend with
  | all status made =>
    rw [if_neg (not_not.2 status)]
    refine iff_of_true ⟨fun hne => absurd status hne, fun _ => ⟨fun i hi => ?_, fun t deleted ht i => ?_⟩⟩
      (fun hlt _ => ?_)
    · by_contra hsome
      exact hi (made.others i (fun k hk hik => hsome (hik ▸ made.wasFree k hk)))
    · exact deleted_liveAt made ht deleted i
    · obtain hv | hv := valid_cases N.kernelId
      · exact live_kernelId_ne s hv _
      · exact absurd (made.le_numAllocable hv) (Nat.not_le_of_lt hlt)
  | noInstance c s' status lt cnt before made same none =>
    have hne : r.status ≠ vxSuccess := by
      rw [status]
      decide
    rw [if_pos hne]
    have hc := made.numAllocable_eq none
    have hindex : r.node.targetKernelIndex c = N.targetKernelIndex c := made.later c (Nat.le_refl c)
    have hu : ∀ i, r.tables.liveAt i = s'.liveAt i := liveAt_congr same
    have hclean : ∀ i, (i = N.targetKernelIndex c → unlessNamed N.kernelId (s.liveAt i) = s.liveAt i) →
        ((List.range r.cnt).foldl (fun s k => s.freeNamed (r.node.targetKernelIndex k) r.node.kernelId) r.tables).liveAt i =
          s.liveAt i := by
      intro i hi
      rw [cnt]
      refine made.cleaned (Nat.le_succ c) (fun i => .inl (hu i)) (fun k hck hkc hik => hi ?_)
      obtain rfl : k = c := by omega
      rw [hik, hindex]
    constructor
    · intro h hlt _
      rw [hc]
      have hstale := h.1 hne (N.targetKernelIndex c)
      apply unlessNamed_eq_self_iff.1
      rw [foldl_liveAt (fun s k i => freeNamed_liveAt s (r.node.targetKernelIndex k) r.node.kernelId i),
        if_pos ⟨c, by omega, hindex.symm⟩, show r.node.kernelId = N.kernelId by rw [made.node]] at hstale
      rw [← hstale, unlessNamed_idem]
    · intro h
      refine ⟨fun _ i => hclean i (fun hi => ?_), fun hst => absurd hst hne⟩
      subst hi
      unfold StaleIndexHarmless at h
      rw [hc] at h
      exact unlessNamed_eq_self_iff.2 (h lt before)
  | notCreated c s' status failed cnt made freed =>
    have hne : r.status ≠ vxSuccess := by rwa [status]
    rw [if_pos hne]
    refine iff_of_true ⟨fun _ i => ?_, fun hst => absurd hst hne⟩ (fun hlt hall => ?_)
    · rw [cnt]
      refine made.cleaned (Nat.le_refl _) (fun i => ?_) (fun k hck hkc _ => absurd hkc (by omega))
      rw [freed, ownTargetKernelInstanceFree_liveAt]
      split
      · rename_i hi
        exact .inr ⟨rfl, c, Nat.lt_succ_self c, hi⟩
      · exact .inl rfl
    · obtain hv | hv := valid_cases N.kernelId
      · exact live_kernelId_ne s hv _
      · exact absurd (hall c (made.le_numAllocable hv)) failed

end Create

/-- A target with one kernel, of which every instance is taken. -/
def noInstanceLeft : TargetKernels where
  table := { kernelId := 7, targetId := 0, registered := true } :: List.replicate 255 {}
  numTargetKernel := 1
  instances := List.replicate targetKernelInstanceMax { kernelId := 7 }

/-- A node of that kernel as the host makes it, with all of its indexes zero. -/
def oneNodeMore : TargetNodeDesc where
  kernelId := 7
  kernelName := none
  targetId := 0
  isReplicated := false
  numOfReplicas := 0
  targetKernelIndex := fun _ => 0

/-- The node that finds no instance takes that of another in slot 0 away. -/
theorem other_instance_freed : ¬ ∀ (s : TargetKernels) (N : TargetNodeDesc) (created : Nat → Int),
    KeepsInstances s N created := by
  intro h
  have h0 := (h noInstanceLeft oneNodeMore (fun _ => vxSuccess)).1 (by decide +kernel) 0
  have hsome := congrArg Option.isSome h0
  revert hsome
  decide +kernel

end Tiovx
