import Mathlib.Tactic
import Tiovx.OncePerRun
/-!
# BoundedWork — what a call of the application costs

Every place of a thread and every descriptor of a job queue has a weight: a bound of the steps that follow from it
before something is executed or scheduled.  An execution brings what the releases and the triggers after it cost, a
schedule what clearing an instance and triggering its head nodes costs; and a node is executed once in a run, so the
steps of a run are bounded by what the application asks for.
-/
namespace Tiovx

open StepSystem

/-- Bounds of the lists of a graph: the parameters and the out-nodes of a node, the buffers it pipes up, and the slots of a
delay. -/
structure Sizes where
  prms : Nat
  outs : Nat
  bufs : Nat
  slots : Nat

/-- The nodes of a graph are no larger than `z` says. -/
structure Graph.Within (G : Graph) (z : Sizes) : Prop where
  prms : ∀ n N, G.table.node n = some N → N.prms.length ≤ z.prms
  outs : ∀ n N, G.table.node n = some N → N.outNodeId.length ≤ z.outs
  bufs : ∀ n N, G.table.node n = some N → ∀ m, pipeupBufs G.table n N m ≤ z.bufs
  slots : ∀ n N, G.table.node n = some N → ∀ P ∈ N.prms, ∀ D, G.table.dataRefQ P.dataRefQId = some D → D.delaySlots ≤ z.slots

namespace Sizes

/-- The look at a node, the acquiring of its parameters and the buffers of its pipe-up. -/
def acquires (z : Sizes) : Nat := z.bufs * (z.prms + 2) + z.prms + 2

/-- A trigger of a node, until the node is executed or not. -/
def trigger (z : Sizes) : Nat := z.acquires + 3

/-- The nodes that one release hands out at most. -/
def handsOut (z : Sizes) : Nat := objDescQueueMaxBlockedNodes * (z.slots + 1)

def triggersNext (z : Sizes) (i : Nat) : Nat := (z.outs - i) * (z.trigger + 2) + z.trigger + 2

def sendsComplete (z : Sizes) : Nat := z.triggersNext 0 + 5

def releases (z : Sizes) (i : Nat) : Nat :=
  (z.prms - i) * (z.handsOut * (z.trigger + 1) + 3) + z.sendsComplete + 1

def schedulesHeads (z : Sizes) (G : Graph) (i : Nat) : Nat := (G.headNodes.length - i) * (z.trigger + 1) + 2

def clearsStates (z : Sizes) (G : Graph) (i : Nat) : Nat := (G.numNodes - i) + z.schedulesHeads G 0 + 1

end Sizes

/-- What is left to do from a place, up to the next execution or schedule. -/
def Pc.weight (G : Graph) (z : Sizes) : Pc → Nat
  | .idle => 0
  | .nodeExecute _ => z.acquires + 2
  | .isPrevPipeNodeBlocked _ => z.acquires + 1
  | .acquire _ pipeup prms => pipeup * (z.prms + 2) + (z.prms - prms.length) + 2
  | .kernel _ pipeup _ => pipeup * (z.prms + 2) + 1
  | .markComplete _ _ => z.releases 0 + 1
  | .release _ _ prmId _ => z.releases prmId
  | .retrigger _ _ prmId _ _ nodes => nodes.length * (z.trigger + 1) + z.releases (prmId + 1) + 2
  | .sendComplete _ _ => z.sendsComplete
  | .triggerNext _ i _ => z.triggersNext i
  | .sendNext _ i _ => (z.outs - i) * (z.trigger + 2) + z.trigger + 1
  | .triggerBlocked _ => z.trigger + 1
  | .checkGraphCompleted _ => 3
  | .userRetrigger nodes => nodes.length * (z.trigger + 1) + 1
  | .scheduleGraph _ => 2
  | .schedule _ => 1
  | .clearState _ _ i => z.clearsStates G i
  | .scheduleHeads _ _ i => z.schedulesHeads G i

def Job.weight (z : Sizes) : Job → Nat
  | .node _ => z.trigger
  | .nodeUserCallback _ => 4
  | .dataRefConsumed _ => 1

/-- The descriptors that wait for a thread. -/
def Sys.jobs (s : Sys) : Tid → List Job
  | .target id => s.jobQ id
  | .user _ => []

def jobsWeight (z : Sizes) (s : Sys) (t : Tid) : Nat := ((s.jobs t).map (Job.weight z)).sum

/-- The steps that are left to the threads `U` before something is executed or scheduled. -/
def workLeft (G : Graph) (z : Sizes) (U : Finset Tid) (s : Sys) : Nat :=
  ∑ t ∈ U, (s.pc t).weight G z + ∑ t ∈ U, jobsWeight z s t

/-- What the events bring: each start of a run its clearing and its head nodes, each execution its releases and triggers. -/
def gained (G : Graph) (z : Sizes) : List Event → Nat
  | .scheduled _ :: l => gained G z l + z.clearsStates G 0
  | .executed _ false _ :: l => gained G z l + z.releases 0 + 1
  | _ :: l => gained G z l
  | [] => 0

/-- What a call of the application brings. -/
def Act.credit (z : Sizes) : Act → Nat
  | .thread _ | .kernel _ _ => 0
  | .enqueueReadyRef _ _ _ => z.handsOut * (z.trigger + 1) + 2
  | .dequeueDoneRef _ _ => 1
  | .scheduleGraph _ _ => 3

section Jobs

variable {G : Graph} {z : Sizes} {U : Finset Tid} {s s' : Sys}

theorem sum_jobsWeight_congr (h : s'.jobQ = s.jobQ) : ∑ t ∈ U, jobsWeight z s' t = ∑ t ∈ U, jobsWeight z s t := by
  refine Finset.sum_congr rfl (fun t _ => ?_)
  cases t with
  | target id => simp only [jobsWeight, Sys.jobs, h]
  | user id => rfl

/-- What is sent is added where it arrives. -/
theorem sum_jobsWeight_send {dst : Nat} {j : Job} (h : s'.jobQ = ownObjDescSend s.jobQ dst j) :
    ∑ t ∈ U, jobsWeight z s' t ≤ ∑ t ∈ U, jobsWeight z s t + j.weight z := by
  have hone : ∀ t, jobsWeight z s' t ≤ jobsWeight z s t + if t = .target dst then j.weight z else 0 := by
    intro t
    cases t with
    | user id => simp [jobsWeight, Sys.jobs]
    | target id =>
      simp only [jobsWeight, Sys.jobs, h, ownObjDescSend, Tid.target.injEq]
      by_cases hf : (s.jobQ dst).length < targetMaxJobQueueDepth
      · rw [if_pos hf]
        by_cases hid : id = dst
        · subst hid
          simp
        · rw [Function.update_of_ne hid, if_neg hid]
          omega
      · rw [if_neg hf]
        omega
  refine (Finset.sum_le_sum fun t _ => hone t).trans ?_
  rw [Finset.sum_add_distrib, Finset.sum_ite_eq']
  split <;> omega

theorem sum_jobsWeight_trigger {T : ObjDescTable} {n : NodeId} (h : s'.jobQ = ownTargetTriggerNode T s.jobQ n) :
    ∑ t ∈ U, jobsWeight z s' t ≤ ∑ t ∈ U, jobsWeight z s t + z.trigger := by
  unfold ownTargetTriggerNode at h
  split at h
  · rw [sum_jobsWeight_congr h]
    omega
  · exact sum_jobsWeight_send h

theorem sum_jobsWeight_take {id : Nat} {j : Job} {l : List Job} (hU : Tid.target id ∈ U) (hq : s.jobQ id = j :: l)
    (h : s'.jobQ = Function.update s.jobQ id l) :
    ∑ t ∈ U, jobsWeight z s' t + j.weight z = ∑ t ∈ U, jobsWeight z s t := by
  have hother : ∀ t ∈ U.erase (.target id), jobsWeight z s' t = jobsWeight z s t := by
    intro t ht
    cases t with
    | user u => rfl
    | target u =>
      have hne : u ≠ id := by
        rintro rfl
        exact Finset.ne_of_mem_erase ht rfl
      simp only [jobsWeight, Sys.jobs, h, Function.update_of_ne hne]
  have hnew : jobsWeight z s' (.target id) = (l.map (Job.weight z)).sum := by
    simp only [jobsWeight, Sys.jobs, h, Function.update_self]
  have hold : jobsWeight z s (.target id) = j.weight z + (l.map (Job.weight z)).sum := by
    simp only [jobsWeight, Sys.jobs, hq, List.map_cons, List.sum_cons]
  have h₁ := Finset.add_sum_erase U (fun t => jobsWeight z s' t) hU
  have h₂ := Finset.add_sum_erase U (fun t => jobsWeight z s t) hU
  have hsame : ∑ t ∈ U.erase (.target id), jobsWeight z s' t = ∑ t ∈ U.erase (.target id), jobsWeight z s t :=
    Finset.sum_congr rfl hother
  simp only [hnew, hold] at h₁ h₂
  omega

end Jobs

section Steps

variable {G : Graph} {z : Sizes} {U : Finset Tid} {s s' : Sys} {a : Act}

theorem sum_weight_of_step (hU : a.tid ∈ U) (hs : Step G s a s') :
    ∑ t ∈ U, (s'.pc t).weight G z + (s.pc a.tid).weight G z =
      ∑ t ∈ U, (s.pc t).weight G z + (s'.pc a.tid).weight G z := by
  have hother : ∑ t ∈ U.erase a.tid, (s'.pc t).weight G z = ∑ t ∈ U.erase a.tid, (s.pc t).weight G z :=
    Finset.sum_congr rfl fun t ht => by rw [pc_of_step_ne hs (Finset.ne_of_mem_erase ht)]
  rw [← Finset.add_sum_erase _ _ hU, ← Finset.add_sum_erase _ _ hU, hother]
  omega

/-- **A release hands out no more nodes than its queues can record.** -/
theorem length_releaseToQueue {T : ObjDescTable} {hostOnly : Bool} {D : DataRefQDesc} {ref : Nat} {Q : Queues}
    (hz : D.delaySlots ≤ z.slots) : (releaseToQueue T hostOnly D ref Q).2.length ≤ z.handsOut := by
  have hgive : ∀ (Q : Queues) q x out, (enqueueAndExtract Q q x out).2.length ≤ out.length + objDescQueueMaxBlockedNodes := by
    intro Q q x out
    obtain ⟨-, h⟩ | ⟨h, -⟩ := enqueueAndExtract_cases Q q x out
    · rw [h]
      exact Nat.le_add_right _ _
    · rw [h, List.length_append]
      have := Queues.blockedOn_length_le Q q
      omega
  have hage : ∀ N Q out, (ageSlot N Q out).2.length ≤ out.length + objDescQueueMaxBlockedNodes := by
    intro N Q out
    unfold ageSlot
    simp only
    split
    · exact Nat.le_add_right _ _
    · exact hgive _ _ _ _
  have hslots : ∀ k D Q out, (ownTargetNodeDescReleaseParameterInDelay T hostOnly k D Q out).2.length ≤
      out.length + k * objDescQueueMaxBlockedNodes := by
    intro k
    induction k with
    | zero => exact fun _ _ _ => by simp [ownTargetNodeDescReleaseParameterInDelay]
    | succ k ih =>
      intro D Q out
      unfold ownTargetNodeDescReleaseParameterInDelay
      split
      · simp
      · rename_i N hN
        refine (ih N _ _).trans ?_
        rw [Nat.succ_mul]
        split
        · have := hage N Q out
          omega
        · have : (Q, out).2.length = out.length := rfl
          omega
  unfold releaseToQueue Sizes.handsOut
  simp only
  have hfirst := hgive Q D.releaseQObjDescId ref []
  rw [Nat.mul_add, Nat.mul_one]
  split
  · refine (hslots _ _ _ _).trans ?_
    have hmul : (D.delaySlots - 1) * objDescQueueMaxBlockedNodes ≤ objDescQueueMaxBlockedNodes * z.slots := by
      rw [Nat.mul_comm]
      exact Nat.mul_le_mul_left _ (by omega)
    rw [List.length_nil] at hfirst
    omega
  · exact hfirst.trans (by rw [List.length_nil]; omega)

theorem Sizes.triggersNext_of_lt {i : Nat} (h : i < z.outs) :
    z.triggersNext i = z.triggersNext (i + 1) + z.trigger + 2 := by
  unfold Sizes.triggersNext
  obtain ⟨k, hk⟩ := Nat.exists_eq_add_of_lt h
  rw [hk, show i + k + 1 - i = k + 1 by omega, show i + k + 1 - (i + 1) = k by omega, Nat.succ_mul]
  omega

theorem Sizes.releases_of_lt {i : Nat} (h : i < z.prms) :
    z.releases i = z.releases (i + 1) + z.handsOut * (z.trigger + 1) + 3 := by
  unfold Sizes.releases
  obtain ⟨k, hk⟩ := Nat.exists_eq_add_of_lt h
  rw [hk, show i + k + 1 - i = k + 1 by omega, show i + k + 1 - (i + 1) = k by omega, Nat.succ_mul]
  omega

theorem Sizes.schedulesHeads_of_lt {i : Nat} (h : i < G.headNodes.length) :
    z.schedulesHeads G i = z.schedulesHeads G (i + 1) + z.trigger + 1 := by
  unfold Sizes.schedulesHeads
  obtain ⟨k, hk⟩ := Nat.exists_eq_add_of_lt h
  rw [hk, show i + k + 1 - i = k + 1 by omega, show i + k + 1 - (i + 1) = k by omega, Nat.succ_mul]
  omega

theorem Pc.weight_pos {pc : Pc} (h : pc ≠ .idle) : 0 < pc.weight G z := by
  cases pc with
  | idle => exact absurd rfl h
  | _ =>
    simp only [Pc.weight, Sizes.releases, Sizes.sendsComplete, Sizes.triggersNext, Sizes.clearsStates, Sizes.schedulesHeads]
    omega

/-- A step pays for itself where the weight of its place falls by more than it sends. -/
theorem charged_of (hU : a.tid ∈ U) (hs : Step G s a s') (sent taken : Nat)
    (hj : ∑ t ∈ U, jobsWeight z s' t + taken ≤ ∑ t ∈ U, jobsWeight z s t + sent)
    (hp : (s'.pc a.tid).weight G z + sent + gained G z s.trace + 1 ≤
      (s.pc a.tid).weight G z + taken + gained G z s'.trace + a.credit z) :
    workLeft G z U s' + gained G z s.trace + 1 ≤ workLeft G z U s + gained G z s'.trace + a.credit z := by
  have hw := sum_weight_of_step (z := z) hU hs
  unfold workLeft
  omega

theorem charged_acquire {t : Tid} {n : NodeId} {pipeup : Nat} {prms : List Nat} {dq : Nat} {D : DataRefQDesc}
    {R : Shm × Nat × Bool} (hlt : prms.length < z.prms) :
    ((afterAcquire s t n pipeup prms dq D R).pc t).weight G z + gained G z s.trace + 1 ≤
      (Pc.acquire n pipeup prms).weight G z + gained G z (afterAcquire s t n pipeup prms dq D R).trace := by
  unfold afterAcquire
  split
  · simp only [Sys.setPc, Sys.log, Function.update_self, Pc.weight, gained]
    omega
  · split <;>
    · simp only [Sys.setPc, Sys.log, Function.update_self, Pc.weight, gained, List.length_append, List.length_singleton]
      omega

/-- **Every step pays for itself.** -/
theorem charged (hz : G.Within z) (hU : a.tid ∈ U) (hs : Step G s a s') :
    workLeft G z U s' + gained G z s.trace + 1 ≤ workLeft G z U s + gained G z s'.trace + a.credit z := by
  have hs' := hs
  cases hs with
  | takeNode hpc hq =>
    refine charged_of hU hs' 0 _ (sum_jobsWeight_take hU hq rfl).le ?_
    simp only [Act.tid, Sys.setPc, Function.update_self, hpc, Pc.weight, Job.weight, Sizes.trigger]
    omega
  | takeCallback pc hpc hq hc =>
    refine charged_of hU hs' 0 _ (sum_jobsWeight_take hU hq rfl).le ?_
    obtain ⟨rfl, -⟩ | ⟨rfl, -⟩ := hc <;>
    · simp only [Act.tid, Sys.setPc, Function.update_self, hpc, Pc.weight, Job.weight]
      omega
  | takeConsumed hpc hq =>
    refine charged_of hU hs' 0 _ (sum_jobsWeight_take hU hq rfl).le ?_
    simp only [Act.tid, Sys.setPc, Function.update_self, hpc, Pc.weight, Job.weight]
    omega
  | @noNode t n hpc hN =>
    refine charged_of hU hs' 0 0 (sum_jobsWeight_congr rfl).le ?_
    have hpos : 0 < (s.pc t).weight G z := Pc.weight_pos fun h => by
      rw [h] at hpc
      cases hpc
    have hidle : Pc.idle.weight G z = 0 := rfl
    simp only [Act.tid, Sys.setPc, Function.update_self, hidle]
    omega
  | isExecuted hpc hN hx =>
    refine charged_of hU hs' 0 0 (sum_jobsWeight_congr rfl).le ?_
    simp only [Act.tid, Sys.setPc, Function.update_self, hpc, Pc.weight]
    omega
  | notExecuted hpc hN hx =>
    refine charged_of hU hs' 0 0 (sum_jobsWeight_congr rfl).le ?_
    simp only [Act.tid, Sys.setPc, Function.update_self, hpc, Pc.weight]
    omega
  | parked hpc hN hm =>
    refine charged_of hU hs' 0 0 (sum_jobsWeight_congr rfl).le ?_
    simp only [Act.tid, Sys.setPc, Sys.log, Function.update_self, hpc, Pc.weight, gained]
    omega
  | @proceeded t n N m hpc hN hm =>
    refine charged_of hU hs' 0 0 (sum_jobsWeight_congr rfl).le ?_
    have hbufs := Nat.mul_le_mul_right (z.prms + 2) (hz.bufs n N hN m)
    simp only [Act.tid, Sys.setPc, Sys.log, Function.update_self, hpc, Pc.weight, gained, Sizes.acquires, List.length_nil]
    omega
  | acquireData ref hpc hN hP h =>
    refine charged_of hU hs' 0 0 (sum_jobsWeight_congr rfl).le ?_
    have hlt := (List.getElem?_eq_some_iff.1 hP).1.trans_le (hz.prms _ _ hN)
    simp only [Act.tid, Sys.setPc, Function.update_self, hpc, Pc.weight, List.length_append, List.length_singleton]
    omega
  | acquirePrm hpc hN hP hq hD =>
    have hlt := (List.getElem?_eq_some_iff.1 hP).1.trans_le (hz.prms _ _ hN)
    refine charged_of hU hs' 0 0 (sum_jobsWeight_congr ?_).le ?_
    · unfold afterAcquire
      split
      · rfl
      · split <;> rfl
    · simp only [Act.tid, hpc, Nat.add_zero, Act.credit]
      exact charged_acquire hlt
  | acquireInvalid hpc hN hP hall =>
    refine charged_of hU hs' 0 0 (sum_jobsWeight_congr rfl).le ?_
    simp only [Act.tid, Sys.setPc, Sys.setNode, Function.update_self, hpc]
    split <;>
    · simp only [Pc.weight]
      omega
  | acquireEnd hpc hN hP hall =>
    refine charged_of hU hs' 0 0 (sum_jobsWeight_congr rfl).le ?_
    simp only [Act.tid, Sys.setPc, Function.update_self, hpc, Pc.weight]
    omega
  | markComplete hpc hN =>
    refine charged_of hU hs' 0 0 (sum_jobsWeight_congr rfl).le ?_
    simp only [Act.tid, Sys.setPc, Sys.log, Function.update_self, hpc, Pc.weight, gained]
    omega
  | @releaseData t n N prms prmId blocked P hpc hN hP h =>
    refine charged_of hU hs' 0 0 (sum_jobsWeight_congr rfl).le ?_
    have hrel := Sizes.releases_of_lt ((List.getElem?_eq_some_iff.1 hP).1.trans_le (hz.prms _ _ hN))
    simp only [Act.tid, Sys.setPc, Function.update_self, hpc, Pc.weight]
    omega
  | @releasePrm t n N prms prmId blocked P D R E hpc hN hP hq hD hR hE =>
    refine charged_of hU hs' 0 0 (sum_jobsWeight_congr rfl).le ?_
    have hrel := Sizes.releases_of_lt ((List.getElem?_eq_some_iff.1 hP).1.trans_le (hz.prms _ _ hN))
    have hlen : R.blockedNodes.length ≤ z.handsOut := by
      rw [hR, releaseParameter_blockedNodes]
      split
      · exact length_releaseToQueue (hz.slots n N hN P (List.mem_of_getElem? hP) D hD)
      · exact Nat.zero_le _
    have hmul := Nat.mul_le_mul_right (z.trigger + 1) hlen
    simp only [Act.tid, Sys.setPc, Sys.log, Function.update_self, hpc, Pc.weight, gained]
    omega
  | releaseEnd hpc hN hP =>
    refine charged_of hU hs' 0 0 (sum_jobsWeight_congr rfl).le ?_
    simp only [Act.tid, Sys.setPc, Function.update_self, hpc, Pc.weight, Sizes.releases]
    omega
  | retrigger hpc hN =>
    refine charged_of hU hs' z.trigger 0 (sum_jobsWeight_trigger rfl) ?_
    simp only [Act.tid, Sys.setPc, Function.update_self, hpc, Pc.weight, List.length_cons, Nat.succ_mul]
    omega
  | refConsumed dq send hpc hN =>
    refine charged_of hU hs' 1 0 ?_ ?_
    · cases send with
      | false => exact (sum_jobsWeight_congr rfl).le.trans (Nat.le_add_right _ _)
      | true => exact sum_jobsWeight_send (j := .dataRefConsumed dq) rfl
    · simp only [Act.tid, Sys.setPc, Function.update_self, hpc, Pc.weight, List.length_nil]
      omega
  | @sendComplete t n N blocked hpc hN =>
    refine charged_of hU hs' 4 0 ?_ ?_
    · cases hb : N.isUserCallback || N.outNodeId.isEmpty with
      | false => exact (sum_jobsWeight_congr rfl).le.trans (Nat.le_add_right _ _)
      | true => exact sum_jobsWeight_send (j := .nodeUserCallback n) rfl
    · simp only [Act.tid, Sys.setPc, Function.update_self, hpc, Pc.weight, Sizes.sendsComplete]
      omega
  | triggerNextEnd hpc hN hk =>
    refine charged_of hU hs' 0 0 (sum_jobsWeight_congr rfl).le ?_
    simp only [Act.tid, Sys.setPc, Function.update_self, hpc, Pc.weight, Sizes.triggersNext]
    omega
  | canNotExecute hpc hN hk h =>
    refine charged_of hU hs' 0 0 (sum_jobsWeight_congr rfl).le ?_
    have hnext := Sizes.triggersNext_of_lt ((List.getElem?_eq_some_iff.1 hk).1.trans_le (hz.outs _ _ hN))
    simp only [Act.tid, Sys.setPc, Function.update_self, hpc, Pc.weight]
    omega
  | canExecute hpc hN hk hK h =>
    refine charged_of hU hs' 0 0 (sum_jobsWeight_congr rfl).le ?_
    simp only [Act.tid, Sys.setPc, Function.update_self, hpc, Pc.weight, Sizes.triggersNext]
    omega
  | sendNext hpc hN hk =>
    refine charged_of hU hs' z.trigger 0 (sum_jobsWeight_trigger rfl) ?_
    have hnext := Sizes.triggersNext_of_lt ((List.getElem?_eq_some_iff.1 hk).1.trans_le (hz.outs _ _ hN))
    simp only [Act.tid, Sys.setPc, Function.update_self, hpc, Pc.weight]
    unfold Sizes.triggersNext at hnext
    unfold Sizes.triggersNext
    omega
  | triggerNone hpc =>
    refine charged_of hU hs' 0 0 (sum_jobsWeight_congr rfl).le ?_
    simp only [Act.tid, Sys.setPc, Function.update_self, hpc, Pc.weight]
    omega
  | triggerBlocked hpc =>
    refine charged_of hU hs' z.trigger 0 (sum_jobsWeight_trigger rfl) ?_
    simp only [Act.tid, Sys.setPc, Function.update_self, hpc, Pc.weight]
    omega
  | notCompleted hpc hl hc =>
    refine charged_of hU hs' 0 0 (sum_jobsWeight_congr rfl).le ?_
    simp only [Act.tid, Sys.setPc, Function.update_self, hpc, Pc.weight]
    omega
  | completed hpc hl hc =>
    refine charged_of hU hs' 0 0 (sum_jobsWeight_congr rfl).le ?_
    simp only [Act.tid, Sys.setPc, Function.update_self, hpc, gained]
    split <;>
    · simp only [Pc.weight]
      omega
  | userIdle hpc =>
    refine charged_of hU hs' 0 0 (sum_jobsWeight_congr rfl).le ?_
    simp only [Act.tid, Sys.setPc, Function.update_self, hpc, Pc.weight]
    omega
  | userRetrigger hpc =>
    refine charged_of hU hs' z.trigger 0 (sum_jobsWeight_trigger rfl) ?_
    simp only [Act.tid, Sys.setPc, Function.update_self, hpc, Pc.weight, List.length_cons, Nat.succ_mul]
    omega
  | lock hpc hl =>
    refine charged_of hU hs' 0 0 (sum_jobsWeight_congr rfl).le ?_
    simp only [Act.tid, Sys.setPc, Function.update_self, hpc, Pc.weight]
    omega
  | scheduled hpc hf =>
    refine charged_of hU hs' 0 0 (sum_jobsWeight_congr rfl).le ?_
    simp only [Act.tid, Sys.setPc, Function.update_self, hpc, Pc.weight, gained]
    omega
  | unlock hpc hf =>
    refine charged_of hU hs' 0 0 (sum_jobsWeight_congr rfl).le ?_
    simp only [Act.tid, scheduleEnd, Sys.setPc, Function.update_self, hpc, Pc.weight]
    omega
  | clearState hpc hi =>
    refine charged_of hU hs' 0 0 (sum_jobsWeight_congr rfl).le ?_
    simp only [Act.tid, Sys.setPc, Sys.setNode, Function.update_self, hpc, Pc.weight, Sizes.clearsStates]
    omega
  | cleared hpc hi =>
    refine charged_of hU hs' 0 0 (sum_jobsWeight_congr rfl).le ?_
    simp only [Act.tid, Sys.setPc, Function.update_self, hpc, Pc.weight, Sizes.clearsStates]
    omega
  | headsEnd hpc hh =>
    refine charged_of hU hs' 0 0 (sum_jobsWeight_congr rfl).le ?_
    simp only [Act.tid, Sys.setPc, Function.update_self, hpc, Pc.weight, Sizes.schedulesHeads]
    omega
  | scheduleHead hpc hh =>
    refine charged_of hU hs' z.trigger 0 (sum_jobsWeight_trigger rfl) ?_
    have hnext := Sizes.schedulesHeads_of_lt (z := z) (List.getElem?_eq_some_iff.1 hh).1
    simp only [Act.tid, Sys.setPc, Function.update_self, hpc, Pc.weight]
    omega
  | kernel hpc hN hk =>
    refine charged_of hU hs' 0 0 (sum_jobsWeight_congr rfl).le ?_
    simp only [Act.tid, Sys.setPc, Sys.log, Function.update_self, hpc, Pc.weight, gained]
    omega
  | kernelSteady hpc hN hk =>
    refine charged_of hU hs' 0 0 (sum_jobsWeight_congr rfl).le ?_
    simp only [Act.tid, Sys.setPc, Sys.log, Function.update_self, hpc, Pc.weight, gained, List.length_nil]
    omega
  | kernelPipeup hpc hN hk =>
    refine charged_of hU hs' 0 0 (sum_jobsWeight_congr rfl).le ?_
    simp only [Act.tid, Sys.setPc, Sys.log, Function.update_self, hpc, Pc.weight, gained, List.length_nil, Nat.succ_mul]
    omega
  | enqueueFailed hpc hP hr hQ =>
    refine charged_of hU hs' 0 0 (sum_jobsWeight_congr rfl).le ?_
    simp only [Act.credit]
    omega
  | @enqueued u g ref P Q hpc hP hr hQ =>
    refine charged_of hU hs' 0 0 (sum_jobsWeight_congr rfl).le ?_
    have hlen : (ownObjDescQueueExtractBlockedNodes Q P.readyQ []).2.length ≤ z.handsOut := by
      rw [(extractBlockedNodes_spec Q P.readyQ []).1, List.nil_append]
      exact (Queues.blockedOn_length_le Q _).trans (Nat.le_mul_of_pos_right _ (Nat.succ_pos _))
    have hmul := Nat.mul_le_mul_right (z.trigger + 1) hlen
    simp only [Act.tid, Sys.setPc, Sys.log, Function.update_self, hpc, Pc.weight, gained, Act.credit]
    omega
  | dequeued hpc hP hQ hr =>
    refine charged_of hU hs' 0 0 (sum_jobsWeight_congr rfl).le ?_
    simp only [Sys.log, gained, Act.credit]
    omega
  | userSchedule hpc =>
    refine charged_of hU hs' 0 0 (sum_jobsWeight_congr rfl).le ?_
    simp only [Act.tid, Sys.setPc, Function.update_self, hpc, Pc.weight, Act.credit]
    omega

end Steps

/-- The starts of runs among the events. -/
def starts : List Event → Nat
  | .scheduled _ :: l => starts l + 1
  | _ :: l => starts l
  | [] => 0

/-- The executions among the events, without those that fill a pipe. -/
def executions : List Event → Nat
  | .executed _ false _ :: l => executions l + 1
  | _ :: l => executions l
  | [] => 0

/-- The schedules that a thread still has to make. -/
def Pc.toSchedule : Pc → Nat
  | .scheduleGraph k => k
  | .schedule left | .clearState _ left _ | .scheduleHeads _ left _ => left
  | _ => 0

/-- The schedules put off; a thread with the lock has taken them over. -/
def Sys.putOff (s : Sys) : Nat := if s.lock = none then s.schedulePendingCount else 0

/-- The schedules asked for and not made. -/
def schedulesLeft (U : Finset Tid) (s : Sys) : Nat := ∑ t ∈ U, (s.pc t).toSchedule + s.putOff

/-- The schedules that a call asks for. -/
def Act.schedules : Act → Nat
  | .scheduleGraph _ numSchedule => numSchedule
  | _ => 0

/-- What a call asks of the targets. -/
def Act.asks : Act → Nat
  | .thread _ | .kernel _ _ => 0
  | .enqueueReadyRef _ _ _ | .dequeueDoneRef _ _ => 1
  | .scheduleGraph _ numSchedule => numSchedule + 1

section Counts

variable {G : Graph} {z : Sizes} {U : Finset Tid} {s s' : Sys} {a : Act}

theorem gained_eq (l : List Event) : gained G z l = starts l * z.clearsStates G 0 + executions l * (z.releases 0 + 1) := by
  induction l with
  | nil => simp [gained, starts, executions]
  | cons e l ih =>
    cases e with
    | scheduled p =>
      simp only [gained, starts, executions, ih, Nat.succ_mul]
      omega
    | executed n isPipeup prms =>
      cases isPipeup with
      | false =>
        simp only [gained, starts, executions, ih, Nat.succ_mul]
        omega
      | true => exact ih
    | _ => exact ih

/-- The nodes that are still to be executed in the runs that are on. -/
def toExecute (G : Graph) (l : List Event) : Finset (Nat × Nat) :=
  (Finset.range G.pipelineDepth ×ˢ Finset.range G.numNodes).filter
    fun x => live x.1 l = true ∧ executedIn ⟨x.2, x.1⟩ l = false

theorem mem_toExecute {l : List Event} {x : Nat × Nat} : x ∈ toExecute G l ↔
    (x.1 < G.pipelineDepth ∧ x.2 < G.numNodes) ∧ live x.1 l = true ∧ executedIn ⟨x.2, x.1⟩ l = false := by
  unfold toExecute
  rw [Finset.mem_filter, Finset.mem_product, Finset.mem_range, Finset.mem_range]

/-- **A node is executed once in a run.** -/
theorem executions_le (hW : G.Wired) (l : List Event) (h : runsOnce G l)
    (hn : ∀ n isPipeup prms, .executed n isPipeup prms ∈ l → (G.table.node n).isSome = true) :
    executions l + (toExecute G l).card ≤ G.numNodes * starts l := by
  induction l with
  | nil => simp [executions, toExecute, live]
  | cons e l ih =>
    have hn' := fun n b prms hm => hn n b prms (List.mem_cons_of_mem _ hm)
    cases e with
    | scheduled p =>
      have hsub : toExecute G (.scheduled p :: l) ⊆ toExecute G l ∪ (Finset.range G.numNodes).image (fun i => (p, i)) := by
        intro x hx
        rw [mem_toExecute] at hx
        rw [Finset.mem_union, mem_toExecute, Finset.mem_image]
        by_cases hp : p = x.1
        · exact .inr ⟨x.2, Finset.mem_range.2 hx.1.2, by rw [hp]⟩
        · refine .inl ⟨hx.1, ?_⟩
          simpa [live, executedIn, hp] using hx.2
      have hle := (Finset.card_le_card hsub).trans (Finset.card_union_le _ _)
      have himage : ((Finset.range G.numNodes).image fun i => (p, i)).card ≤ G.numNodes :=
        Finset.card_image_le.trans (Finset.card_range _).le
      have hold := ih h.2 hn'
      simp only [executions, starts, Nat.mul_add, Nat.mul_one]
      omega
    | executed n isPipeup prms =>
      obtain ⟨⟨hlive, hnot, -⟩, h⟩ := h
      have hold := ih h hn'
      cases isPipeup with
      | true => exact hold
      | false =>
        have hin := (hW.node_isSome n).1 (hn n false prms List.mem_cons_self)
        have hmem : (n.pipe, n.node) ∈ toExecute G l := mem_toExecute.2 ⟨⟨hin.2, hin.1⟩, hlive, hnot⟩
        have hsub : toExecute G (.executed n false prms :: l) ⊆ (toExecute G l).erase (n.pipe, n.node) := by
          intro x hx
          rw [mem_toExecute] at hx
          simp only [live, executedIn, Bool.or_eq_false_iff, decide_eq_false_iff_not] at hx
          rw [Finset.mem_erase, mem_toExecute]
          refine ⟨?_, hx.1, hx.2.1, hx.2.2.2⟩
          rintro rfl
          exact hx.2.2.1 rfl
        have hle := Finset.card_le_card hsub
        have herase := Finset.card_erase_add_one hmem
        simp only [executions, starts]
        omega
    | completed p =>
      have hsub : toExecute G (.completed p :: l) ⊆ toExecute G l := by
        intro x hx
        rw [mem_toExecute] at hx ⊢
        simp only [live, executedIn, Bool.and_eq_true] at hx
        exact ⟨hx.1, hx.2.1.2, hx.2.2⟩
      have hle := Finset.card_le_card hsub
      have hold := ih h.2 hn'
      simp only [executions, starts]
      omega
    | _ => exact ih h hn'

/-- What is executed is a node of the graph. -/
theorem isSome_of_executed (h : ∀ n isPipeup prms, .executed n isPipeup prms ∈ s.trace → (G.table.node n).isSome = true)
    (hs : Step G s a s') {n : NodeId} {isPipeup : Bool} {prms : List Nat} (hm : .executed n isPipeup prms ∈ s'.trace) :
    (G.table.node n).isSome = true := by
  cases hs with
  | kernel hpc hN | kernelSteady hpc hN | kernelPipeup hpc hN =>
    rcases List.mem_cons.1 hm with hm | hm
    · cases hm
      rw [hN]
      rfl
    · exact h _ _ _ hm
  | acquirePrm hpc hN hP hq hD =>
    unfold afterAcquire at hm
    split at hm
    · exact h _ _ _ (List.mem_of_ne_of_mem (by rintro ⟨⟩) hm)
    · split at hm
      · exact h _ _ _ hm
      · exact h _ _ _ (List.mem_of_ne_of_mem (by rintro ⟨⟩) hm)
  | releasePrm | enqueued =>
    exact h _ _ _ (List.mem_of_ne_of_mem (by rintro ⟨⟩) (List.mem_of_ne_of_mem (by rintro ⟨⟩) hm))
  | parked | proceeded | markComplete | completed | scheduled | dequeued =>
    exact h _ _ _ (List.mem_of_ne_of_mem (by rintro ⟨⟩) hm)
  | _ => exact h _ _ _ hm

theorem sum_toSchedule_of_step (hU : a.tid ∈ U) (hs : Step G s a s') :
    ∑ t ∈ U, (s'.pc t).toSchedule + (s.pc a.tid).toSchedule =
      ∑ t ∈ U, (s.pc t).toSchedule + (s'.pc a.tid).toSchedule := by
  have hother : ∑ t ∈ U.erase a.tid, (s'.pc t).toSchedule = ∑ t ∈ U.erase a.tid, (s.pc t).toSchedule :=
    Finset.sum_congr rfl fun t ht => by rw [pc_of_step_ne hs (Finset.ne_of_mem_erase ht)]
  rw [← Finset.add_sum_erase _ _ hU, ← Finset.add_sum_erase _ _ hU, hother]
  omega

/-- In the normal mode no schedule is left for later. -/
theorem pendingCount_of_step (h : G.isNormal = true → s.schedulePendingCount = 0) (hs : Step G s a s') :
    G.isNormal = true → s'.schedulePendingCount = 0 := by
  intro hn
  cases hs with
  | completed => rfl
  | unlock => simp [scheduleEnd, Sys.setPc, hn, h hn]
  | acquirePrm =>
    unfold afterAcquire
    split
    · exact h hn
    · split <;> exact h hn
  | _ => exact h hn

theorem schedules_of (hU : a.tid ∈ U) (hs : Step G s a s')
    (hp : (s'.pc a.tid).toSchedule + s'.putOff + starts s'.trace ≤
      (s.pc a.tid).toSchedule + s.putOff + starts s.trace + a.schedules) :
    schedulesLeft U s' + starts s'.trace ≤ schedulesLeft U s + starts s.trace + a.schedules := by
  have hsum := sum_toSchedule_of_step hU hs
  unfold schedulesLeft
  omega

/-- **A schedule is made once for each that is asked for.** -/
theorem schedules_of_step (hU : a.tid ∈ U) (hn : G.isNormal = true → s.schedulePendingCount = 0) (hs : Step G s a s') :
    schedulesLeft U s' + starts s'.trace ≤ schedulesLeft U s + starts s.trace + a.schedules := by
  refine schedules_of hU hs ?_
  cases hs with
  | lock hpc hl =>
    simp only [Act.tid, Sys.setPc, Sys.putOff, Function.update_self, hpc, Pc.toSchedule, hl, reduceCtorEq, if_true, if_false]
    omega
  | unlock hpc hf =>
    simp only [Act.tid, scheduleEnd, Sys.setPc, Sys.putOff, Function.update_self, hpc, Pc.toSchedule, if_true]
    split
    · rename_i h
      rw [hn h]
      omega
    · omega
  | completed hpc hl hc =>
    simp only [Act.tid, Sys.setPc, Sys.putOff, Function.update_self, hpc, hl, if_true, starts]
    split <;> simp only [Pc.toSchedule] <;> omega
  | acquirePrm hpc hN hP hq hD =>
    unfold afterAcquire
    split
    · change _ + s.putOff + starts s.trace ≤ _
      simp only [Act.tid, Sys.setPc, Sys.log, Function.update_self, hpc, Pc.toSchedule]
      omega
    · split <;>
      · change _ + s.putOff + starts s.trace ≤ _
        simp only [Act.tid, Sys.setPc, Sys.log, Function.update_self, hpc, Pc.toSchedule]
        omega
  | acquireInvalid hpc =>
    change _ + s.putOff + starts s.trace ≤ _
    simp only [Act.tid, Sys.setPc, Sys.setNode, Function.update_self, hpc]
    split <;> simp only [Pc.toSchedule] <;> omega
  | takeCallback pc hpc hq hc =>
    change _ + s.putOff + starts s.trace ≤ _
    obtain ⟨rfl, -⟩ | ⟨rfl, -⟩ := hc <;> simp only [Act.tid, Sys.setPc, Function.update_self, hpc, Pc.toSchedule] <;> omega
  | scheduled hpc hf =>
    change _ + s.putOff + (starts s.trace + 1) ≤ _
    simp only [Act.tid, Sys.setPc, Function.update_self, hpc, Pc.toSchedule]
    omega
  | userSchedule hpc =>
    change _ + s.putOff + starts s.trace ≤ _
    simp only [Act.tid, Sys.setPc, Function.update_self, hpc, Pc.toSchedule, Act.schedules]
    omega
  | noNode hpc =>
    change _ + s.putOff + starts s.trace ≤ _
    simp only [Act.tid, Sys.setPc, Function.update_self, Pc.toSchedule]
    omega
  | enqueueFailed | dequeued => exact Nat.le_add_right _ _
  | _ =>
    change _ + s.putOff + starts s.trace ≤ _
    simp only [Act.tid, Sys.setPc, Sys.setNode, Sys.log, Function.update_self, *, Pc.toSchedule]
    omega

theorem exists_bound (hW : G.Wired) (f : NodeDesc → Nat) : ∃ b, ∀ n N, G.table.node n = some N → f N ≤ b := by
  let g : Nat × Nat → Nat := fun x => ((G.table.node ⟨x.2, x.1⟩).map f).getD 0
  refine ⟨(Finset.range G.pipelineDepth ×ˢ Finset.range G.numNodes).sup g, fun n N hN => ?_⟩
  have hin := (hW.node_isSome n).1 (by rw [hN]; rfl)
  have hmem : (n.pipe, n.node) ∈ Finset.range G.pipelineDepth ×ˢ Finset.range G.numNodes :=
    Finset.mem_product.2 ⟨Finset.mem_range.2 hin.2, Finset.mem_range.2 hin.1⟩
  have hle := Finset.le_sup (f := g) hmem
  simpa [g, hN] using hle

theorem exists_within (hW : G.Wired) : ∃ z, G.Within z := by
  obtain ⟨prms, hprms⟩ := exists_bound hW (fun N => N.prms.length)
  obtain ⟨outs, houts⟩ := exists_bound hW (fun N => N.outNodeId.length)
  obtain ⟨bufs, hbufs⟩ := exists_bound hW
    (fun N => max N.numPipeupBufs ((G.table.kernelInstance N.targetKernelIndex).getD 0))
  obtain ⟨slots, hslots⟩ := exists_bound hW
    (fun N => (N.prms.map fun P => ((G.table.dataRefQ P.dataRefQId).map DataRefQDesc.delaySlots).getD 0).sum)
  refine ⟨⟨prms, outs, bufs, slots⟩, hprms, houts, fun n N hN m => ?_, fun n N hN P hP D hD => ?_⟩
  · have hle := hbufs n N hN
    unfold pipeupBufs
    split
    · split
      · exact Nat.zero_le _
      · rename_i numBufs hk
        rw [hk, Option.getD_some] at hle
        split <;> dsimp only <;> omega
    · split <;> dsimp only <;> omega
  · have hle := List.le_sum_of_mem
      (List.mem_map_of_mem (f := fun P => ((G.table.dataRefQ P.dataRefQId).map DataRefQDesc.delaySlots).getD 0) hP)
    rw [hD, Option.map_some, Option.getD_some] at hle
    exact hle.trans (hslots n N hN)

theorem Starts.workLeft_eq (h : Starts G s) : workLeft G z U s = 0 := by
  have hjobs : ∀ t, jobsWeight z s t = 0 := by
    intro t
    cases t with
    | target id => simp [jobsWeight, Sys.jobs, h.jobQ id]
    | user id => rfl
  unfold workLeft
  simp [h.pc, Pc.weight, hjobs]

theorem Starts.schedulesLeft_eq (h : Starts G s) (hp : s.schedulePendingCount = 0) : schedulesLeft U s = 0 := by
  unfold schedulesLeft Sys.putOff
  simp [h.pc, Pc.toSchedule, hp]

theorem Act.schedules_le_asks (a : Act) : a.schedules ≤ a.asks := by
  cases a <;> simp [schedules, asks]

theorem Act.credit_le_asks (a : Act) : a.credit z ≤ (z.handsOut * (z.trigger + 1) + 3) * a.asks := by
  cases a with
  | scheduleGraph u k =>
    have hle := Nat.le_mul_of_pos_right (z.handsOut * (z.trigger + 1) + 3) (show 0 < k + 1 from Nat.succ_pos k)
    simp only [credit, asks]
    omega
  | _ =>
    simp only [credit, asks, Nat.mul_one, Nat.mul_zero]
    omega

end Counts

/-- **What the targets do is bounded by what the application asks for**: in every run in which the flags are cleared in time,
from a verified graph on.  In particular the targets come to rest when the application asks for nothing. -/
theorem work_bounded {G : Graph} (hW : G.Wired) : ∃ c, ∀ (s₀ s : Sys) (l : List Act), Starts G s₀ →
    s₀.schedulePendingCount = 0 → ReachBy (step G) (ClearsInTime G) s₀ l s → l.length ≤ c * (l.map Act.asks).sum := by
  obtain ⟨z, hz⟩ := exists_within hW
  refine ⟨z.clearsStates G 0 + G.numNodes * (z.releases 0 + 1) + (z.handsOut * (z.trigger + 1) + 3), ?_⟩
  intro s₀ s l h0 hpend h
  -- the threads that move in the run
  let U := (l.map Act.tid).toFinset
  have hU := h.restrict (P := fun a => a.tid ∈ U) fun a ha => List.mem_toFinset.2 (List.mem_map_of_mem ha)
  have hnormal : ∀ s, Reach (step G) (fun s a => ClearsInTime G s a ∧ a.tid ∈ U) s₀ s →
      G.isNormal = true → s.schedulePendingCount = 0 := fun s hr =>
    hr.inv (fun _ => hpend) fun _ _ _ hn _ hs => pendingCount_of_step hn (step_cases hs)
  have hwork := hU.amortised (workLeft G z U) (fun s => gained G z s.trace) (fun _ => 1) (Act.credit z)
    fun _ _ _ _ hc hs => charged hz hc.2 (step_cases hs)
  have hsched := hU.amortised (fun s => schedulesLeft U s + starts s.trace) (fun _ => 0) (fun _ => 0) Act.schedules
    fun _ _ _ hr hc hs => schedules_of_step hc.2 (hnormal _ hr) (step_cases hs)
  have hknown : ∀ n isPipeup prms, .executed n isPipeup prms ∈ s.trace → (G.table.node n).isSome = true :=
    h.reach.inv (I := fun s => ∀ n isPipeup prms, .executed n isPipeup prms ∈ s.trace → (G.table.node n).isSome = true)
      (fun n b prms hm => by rw [h0.trace] at hm; cases hm)
      fun _ _ _ hI _ hs _ _ _ hm => isSome_of_executed hI (step_cases hs) hm
  have hexec := executions_le hW s.trace (runsOnce_of_clearsInTime hW h0 h.reach) hknown
  have hasked : (l.map Act.schedules).sum ≤ (l.map Act.asks).sum :=
    List.sum_le_sum fun a _ => a.schedules_le_asks
  have hcredit : (l.map (Act.credit z)).sum ≤ (z.handsOut * (z.trigger + 1) + 3) * (l.map Act.asks).sum := by
    rw [← List.sum_map_mul_left]
    exact List.sum_le_sum fun a _ => a.credit_le_asks
  simp only [h0.workLeft_eq, h0.schedulesLeft_eq hpend, h0.trace, starts, executions, gained_eq, List.map_const', List.sum_replicate,
    smul_eq_mul, Nat.mul_one, Nat.mul_zero] at hwork hsched
  have hstarts : starts s.trace ≤ (l.map Act.asks).sum := by omega
  have hruns := Nat.mul_le_mul_right (z.clearsStates G 0) hstarts
  have hnodes : executions s.trace * (z.releases 0 + 1) ≤ G.numNodes * (z.releases 0 + 1) * (l.map Act.asks).sum := by
    calc executions s.trace * (z.releases 0 + 1)
      _ ≤ (G.numNodes * (l.map Act.asks).sum) * (z.releases 0 + 1) := by
        refine Nat.mul_le_mul_right _ ?_
        have := Nat.mul_le_mul_left G.numNodes hstarts
        omega
      _ = G.numNodes * (z.releases 0 + 1) * (l.map Act.asks).sum := by ring
  rw [Nat.add_mul, Nat.add_mul, Nat.mul_comm (z.clearsStates G 0)]
  omega

/-- A run that is looked at in every step meets the condition of the theorem. -/
theorem reachBy_clearsInTime {G : Graph} {L : List Tid} {K : Nat} {s₀ s : Sys} {l : List Act} (hG : G.Verified)
    (hW : G.Wired) (h0 : Starts G s₀) (hQ : ∀ q, K ≤ q → s₀.shm.queue q = none)
    (h : ReachBy (step G) (fun s a => clearsInTime G L K s a = true) s₀ l s) :
    ReachBy (step G) (ClearsInTime G) s₀ l s := by
  refine h.mono_of fun s a hr hc => ?_
  have hC : Confined G L K s := hr.inv (h0.confined hQ) fun s a t hC hc hs => by
    have ha : a.tid ∈ L := by
      simp only [clearsInTime, Bool.and_eq_true, List.contains_iff_mem] at hc
      exact hc.1
    exact hC.kept hG hW ha (step_cases hs)
  have hT := tracked_of_reach hW h0 (reach_clearsInTime hG hW h0 hQ hr)
  refine hC.clearsInTime hW (fun t p left i hpc => ?_) hc
  exact (hT.scheduling.pipe t p (by rw [hpc]; rfl)).1

/-- The two runs of `join` take 108 steps for the four that the application asks for. -/
theorem work_bounded_join : ∃ c s, ReachBy (step join) (ClearsInTime join) joinStart (joinOnce ++ joinOnce).reverse s ∧
    s.trace.count (.completed 0) = 2 ∧ (joinOnce ++ joinOnce).length ≤ c * 4 := by
  have hexec : (exec (step join) (clearsInTime join [.user 0, .target 0, .target 1, .target 2, .target 3] 0) joinStart
      (joinOnce ++ joinOnce)).map (fun s => s.trace.count (.completed 0)) = some 2 := by decide +kernel
  obtain ⟨s, hs, hcount⟩ := Option.map_eq_some_iff.1 hexec
  have hrun := reachBy_of_exec _ [] .start hs
  rw [List.append_nil] at hrun
  have hc := reachBy_clearsInTime join_verified join_wired join_starts (fun _ _ => rfl) hrun
  obtain ⟨c, hbound⟩ := work_bounded join_wired
  have hle := hbound _ _ _ join_starts rfl hc
  rw [List.length_reverse] at hle
  exact ⟨c, s, hc, hcount, hle⟩

end Tiovx
