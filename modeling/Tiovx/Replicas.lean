import Tiovx.Lib.Run
import Tiovx.ReplicateNode
/-!
# Replicas — each run of a replicated node gets an element of every container

A replicated node runs its kernel once for each element of the containers behind its replicated parameters, as long as each
of them has the number of elements that `vxReplicateNode` found.  The calls check parts of that: `vxReplicateNode` accepts
empty containers and references that are not first elements, `vxSetParameterByIndex` does not look at the number of elements,
and neither the other parameters of a graph parameter nor the references to be enqueued are looked at.  A call may also fail
when it has changed something.
-/
namespace Tiovx

open StepSystem

/-- The calls, and what happens between them: nodes are created or removed, a graph parameter is added, the graph is verified,
references are acquired and dequeued. -/
inductive ReplicaAct
  | replicateNode (n : Nat) (replicate : List Bool)
  | setParameterByIndex (n i : Nat) (value : Option Nat)
  | setGraphParameterByIndex (k r : Nat) (allocates : Bool)
  | setGraphScheduleConfig (queueMode : Bool) (l : List (Nat × Option (List Nat)))
  | enqueueReadyRef (k : Nat) (refs : List (Option Nat)) (schedules : Bool)
  | edit (nodes : List Nat)
  | addParameterToGraph (n i : Nat)
  | verifyGraph (depth : Nat)
  | acquireReadyRef (k : Nat)
  | dequeue (numEnqueues : Nat → Nat) (isEnqueued : Nat → Bool)

section Calls

variable (R : Nat → VxRef) (fits : Nat → Nat → Nat → Bool) (sameMeta : List Nat → Bool)

/-- What a call returns and leaves. -/
def replicaCall (S : ReplicaGraph) : ReplicaAct → Option (Bool × ReplicaGraph)
  | .replicateNode n replicate => some (vxReplicateNode R S n replicate)
  | .setParameterByIndex n i value => some (vxSetParameterByIndex R fits S n i value)
  | .setGraphParameterByIndex k r allocates => some (vxSetGraphParameterByIndex R fits S k r allocates)
  | .setGraphScheduleConfig queueMode l => some (vxSetGraphScheduleConfig sameMeta S queueMode l)
  | .enqueueReadyRef k refs schedules => some (ownGraphParameterEnqueueReadyRef R S k refs schedules)
  | .edit nodes => some (true, { S with nodes := nodes, verified := false })
  | .addParameterToGraph n i => some (true, { S with parameters := S.parameters ++ [{ node := n, index := i }] })
  | .verifyGraph depth => some (true, verifyReplicas S depth)
  | .acquireReadyRef k => (acquireReadyRef S k).map (fun S => (true, S))
  | .dequeue numEnqueues isEnqueued => some (true, { S with numEnqueues := numEnqueues, isEnqueued := isEnqueued })

/-- **One step.** -/
def replicaStep (S : ReplicaGraph) (a : ReplicaAct) : Option ReplicaGraph := (replicaCall R fits sameMeta S a).map Prod.snd

/-- The first element of a container of `m` elements. -/
def FirstOf (m r : Nat) : Prop := isFirstElement R r = true ∧ ∃ c, containerOf R r = some c ∧ (R c).elements.length = m

/-- **What is promised of replicated nodes.**  A reference is used at parameter `i` of node `n` where it is bound there, in
one of the descriptors, or was enqueued to be acquired there. -/
structure KeepsReplicas (S : ReplicaGraph) : Prop where
  count : ∀ n, (S.desc n).isReplicated = true → 1 ≤ (S.desc n).numOfReplicas ∧ (S.desc n).numOfReplicas ≤ nodeMaxReplicate
  outputs : ∀ n, (S.desc n).isReplicated = true → ∀ P ∈ S.prms n, P.dir ≠ .input → P.isReplicated = true
  bound : ∀ n, (S.desc n).isReplicated = true → ∀ P ∈ S.prms n, P.isReplicated = true →
    ∃ r, P.ref = some r ∧ FirstOf R (S.desc n).numOfReplicas r
  acquired : ∀ P ∈ S.parameters, (S.desc P.node).isPrmReplicated P.index = true → ∀ q, P.readyQ = some q → ∀ r ∈ q,
    FirstOf R (S.desc P.node).numOfReplicas r
  executes : ∀ n, (S.desc n).isReplicated = true → ∀ D, D = S.desc n ∨ D ∈ S.pipeDescs n →
    loopMax D = (S.desc n).numOfReplicas ∧ ∀ i, D.isPrmReplicated i = true → ∀ r,
      (D.dataId i = some r ∨ ∃ P ∈ S.parameters, P.node = n ∧ P.index = i ∧ ∃ q, P.readyQ = some q ∧ r ∈ q) →
        ∀ cnt < loopMax D, (elementAt R r cnt).isSome = true

/-- The condition for `vxReplicateNode`: one of its checks fails, or some parameter is replicated, so are all outputs, and each
replicated parameter, as bound, listed for the queue or enqueued, is the first element of a container (of as many elements as
the one bound); and the node has no descriptor that would not be told. -/
def ReplicatesWhole (S : ReplicaGraph) (n : Nat) (replicate : List Bool) : Prop :=
  (S.prms n).length ≠ replicate.length ∨ ((S.prms n).zip replicate).foldlM (countReplicas R) 0 = none ∨
    (true ∈ replicate ∧
    (∀ x ∈ (S.prms n).zip replicate, (x.1.dir ≠ .input → x.2 = true) ∧
      (x.2 = true → ∃ r, x.1.ref = some r ∧ isFirstElement R r = true)) ∧
    (∀ P ∈ S.parameters, P.node = n → replicate[P.index]? = some true → ∀ r, (r ∈ P.refsList ∨ ∃ q, P.readyQ = some q ∧ r ∈ q) →
      ∀ r', ((S.prms n)[P.index]?).bind NodePrm.ref = some r' → ∀ c, containerOf R r' = some c →
        FirstOf R (R c).elements.length r) ∧
    (S.pipeDescs n = [] ∨ (S.desc n).isReplicated = true ∧ ∀ i, (S.desc n).isPrmReplicated i = decide (replicate[i]? = some true)))

/-- Reference `r` may be bound to parameter `i` of node `n`: the container of a replicated parameter has as many elements as
the node has replicas, where the reference is the first of them at all. -/
def RightLength (S : ReplicaGraph) (n i r : Nat) : Prop :=
  (S.desc n).isPrmReplicated i = true → isFirstElement R r = true → FirstOf R (S.desc n).numOfReplicas r

/-- No check of `vxSetParameterByIndex` fails once the associations to delays are changed. -/
def ChecksFirst (S : ReplicaGraph) (n i r : Nat) : Prop :=
  ∀ P, (S.prms n)[i]? = some P → ∀ delay, removeBound R S n i = some delay →
    (P.ref.any (fun b => (R b).delay.isSome) = true → (addValue R delay n i r).isSome = true) ∧
    (P.ref.any (fun b => (R b).delay.isSome) = true ∨ (R r).delay.isSome = true →
      P.isReplicated = true → isFirstElement R r = true)

/-- The references listed for graph parameter `x.1` fit the node where it is replicated. -/
def ListFits (S : ReplicaGraph) (x : Nat × Option (List Nat)) : Prop :=
  ∀ P, S.parameters[x.1]? = some P → (S.desc P.node).isPrmReplicated P.index = true → ∀ refs, x.2 = some refs → ∀ r ∈ refs,
    FirstOf R (S.desc P.node).numOfReplicas r

/-- Each of the references can be enqueued when its turn comes. -/
def AllQueueable (k : Nat) : ReplicaGraph → List (Option Nat) → Prop
  | _, [] => True
  | _, none :: _ => False
  | S, some r :: l =>
    match enqueueOneReadyRef R S k r with
    | some T => AllQueueable k T l
    | none => False

/-- The entries that can be made in order, of graph parameters that are there, are not set yet and come once. -/
def AllConfigurable (S : ReplicaGraph) (l : List (Nat × Option (List Nat))) : Prop :=
  (l.map Prod.fst).Nodup ∧ ∀ x ∈ l, ∃ refs P, x.2 = some refs ∧ S.parameters[x.1]? = some P ∧
    refs.length < objDescQueueMaxDepth ∧ P.queueEnable = false ∧ sameMeta refs = true

/-- **The condition on a step**: what is bound or listed fits, and a call that fails does so at its first checks. -/
def StepFits (S : ReplicaGraph) : ReplicaAct → Prop
  | .replicateNode n replicate => ReplicatesWhole R S n replicate
  | .setParameterByIndex n i (some r) => RightLength R S n i r ∧ ChecksFirst R S n i r
  | .setParameterByIndex _ _ none => True
  | .setGraphParameterByIndex k r allocates =>
    ∀ P, S.parameters[k]? = some P → RightLength R S P.node P.index r ∧ ChecksFirst R S P.node P.index r ∧
      (∀ x ∈ P.others, (S.desc x.1).isPrmReplicated x.2 = true → FirstOf R (S.desc x.1).numOfReplicas r) ∧ allocates = true
  | .setGraphScheduleConfig queueMode l =>
    S.verified = true ∨ queueMode = false ∨ S.parameters.length < l.length ∨
      AllConfigurable sameMeta S l ∧ ∀ x ∈ l, ListFits R S x
  | .enqueueReadyRef k refs schedules =>
    (∃ l, refs = none :: l) ∨ (∃ r l, refs = some r :: l ∧ enqueueOneReadyRef R S k r = none) ∨
      AllQueueable R k S refs ∧ schedules = true
  | _ => True

/-- No node of a graph is replicated yet, and the descriptors name what is bound. -/
structure StartsUnreplicated (S : ReplicaGraph) : Prop where
  desc : ∀ n, (S.desc n).isReplicated = false ∧ ∀ i, (S.desc n).isPrmReplicated i = false
  prms : ∀ n, ∀ P ∈ S.prms n, P.isReplicated = false
  pipeDescs : ∀ n, S.pipeDescs n = []
  data : ∀ (n i : Nat) (P : NodePrm), (S.prms n)[i]? = some P → (S.desc n).dataId i = P.ref

/-- The invariant: what is promised, and that the two sets of flags and the lists of references agree with it. -/
structure WellReplicated (S : ReplicaGraph) : Prop where
  count : ∀ n, (S.desc n).isReplicated = true → 1 ≤ (S.desc n).numOfReplicas ∧ (S.desc n).numOfReplicas ≤ nodeMaxReplicate
  outputs : ∀ n, (S.desc n).isReplicated = true → ∀ P ∈ S.prms n, P.dir ≠ .input → P.isReplicated = true
  flagged : ∀ n i, (S.desc n).isPrmReplicated i = true → (S.desc n).isReplicated = true ∧ i < (S.prms n).length
  flags : ∀ (n i : Nat) (P : NodePrm), (S.prms n)[i]? = some P → (S.desc n).isPrmReplicated i = P.isReplicated
  data : ∀ (n i : Nat) (P : NodePrm), (S.prms n)[i]? = some P → (S.desc n).dataId i = P.ref
  bound : ∀ (n i : Nat) (P : NodePrm), (S.prms n)[i]? = some P → P.isReplicated = true →
    ∃ r, P.ref = some r ∧ FirstOf R (S.desc n).numOfReplicas r
  pipes : ∀ n, ∀ D ∈ S.pipeDescs n, D.isReplicated = (S.desc n).isReplicated ∧ D.numOfReplicas = (S.desc n).numOfReplicas ∧
    (∀ i, D.isPrmReplicated i = (S.desc n).isPrmReplicated i) ∧
    ∀ i, D.isPrmReplicated i = true → ∃ r, D.dataId i = some r ∧ FirstOf R D.numOfReplicas r
  listed : ∀ P ∈ S.parameters, (S.desc P.node).isPrmReplicated P.index = true →
    ∀ r, (r ∈ P.refsList ∨ ∃ q, P.readyQ = some q ∧ r ∈ q) → FirstOf R (S.desc P.node).numOfReplicas r

end Calls

section Kept

variable {R : Nat → VxRef} {fits : Nat → Nat → Nat → Bool} {sameMeta : List Nat → Bool} {S T : ReplicaGraph} {n i r : Nat}

theorem StartsUnreplicated.well (h : StartsUnreplicated S) : WellReplicated R S where
  count n hn := by
    rw [(h.desc n).1] at hn
    cases hn
  outputs n hn := by
    rw [(h.desc n).1] at hn
    cases hn
  flagged n i hi := by
    rw [(h.desc n).2 i] at hi
    cases hi
  flags n i P hP := by rw [(h.desc n).2 i, h.prms n P (List.mem_of_getElem? hP)]
  data := h.data
  bound n i P hP hr := by
    rw [h.prms n P (List.mem_of_getElem? hP)] at hr
    cases hr
  pipes n D hD := by
    rw [h.pipeDescs n] at hD
    cases hD
  listed P _ hi := by
    rw [(h.desc P.node).2 P.index] at hi
    cases hi

theorem isSome_elementAt {m cnt : Nat} (h : FirstOf R m r) (hc : cnt < m) : (elementAt R r cnt).isSome = true := by
  obtain ⟨-, c, hcont, hlen⟩ := h
  obtain ⟨hscope, -⟩ := Option.filter_eq_some_iff.1 hcont
  unfold elementAt
  rw [hscope, Option.getD_some, List.getElem?_eq_getElem (hlen ▸ hc)]
  rfl

/-- The invariant gives what is promised. -/
theorem WellReplicated.keeps (h : WellReplicated R S) : KeepsReplicas R S where
  count := h.count
  outputs := h.outputs
  bound n _ P hP hr := by
    obtain ⟨i, hi⟩ := List.mem_iff_getElem?.1 hP
    exact h.bound n i P hi hr
  acquired P hP hi q hq r hr := h.listed P hP hi r (.inr ⟨q, hq, hr⟩)
  executes n hn D hD := by
    have hdesc : D.isReplicated = true ∧ D.numOfReplicas = (S.desc n).numOfReplicas ∧
        (∀ i, D.isPrmReplicated i = (S.desc n).isPrmReplicated i) ∧
        ∀ i, D.isPrmReplicated i = true → ∃ r, D.dataId i = some r ∧ FirstOf R D.numOfReplicas r := by
      rcases hD with rfl | hD
      · refine ⟨hn, rfl, fun _ => rfl, fun i hi => ?_⟩
        have hlt := (h.flagged n i hi).2
        have hP := List.getElem?_eq_getElem hlt
        rw [h.data n i _ hP]
        exact h.bound n i _ hP (by rw [← h.flags n i _ hP, hi])
      · obtain ⟨hrep, hnum, hflags, hdata⟩ := h.pipes n D hD
        exact ⟨hrep.trans hn, hnum, hflags, hdata⟩
    obtain ⟨hrep, hnum, hflags, hdata⟩ := hdesc
    have hloop : loopMax D = (S.desc n).numOfReplicas := by
      unfold loopMax
      rw [if_pos hrep, hnum]
    refine ⟨hloop, fun i hi r hr cnt hcnt => ?_⟩
    rw [hloop] at hcnt
    rcases hr with hr | ⟨P, hP, rfl, rfl, q, hq, hr⟩
    · obtain ⟨r', hr', hfirst⟩ := hdata i hi
      rw [hr, Option.some.injEq] at hr'
      subst hr'
      rw [hnum] at hfirst
      exact isSome_elementAt hfirst hcnt
    · rw [hflags] at hi
      exact isSome_elementAt (h.listed P hP hi r (.inr ⟨q, hq, hr⟩)) hcnt

/-- The associations to delays, the schedule mode and the marks of enqueued references do not matter. -/
theorem WellReplicated.congr (h : WellReplicated R S) (hp : T.prms = S.prms) (hd : T.desc = S.desc)
    (hpipe : T.pipeDescs = S.pipeDescs) (hpar : T.parameters = S.parameters) : WellReplicated R T := by
  constructor
  · rw [hd]
    exact h.count
  · rw [hd, hp]
    exact h.outputs
  · rw [hd, hp]
    exact h.flagged
  · rw [hd, hp]
    exact h.flags
  · rw [hd, hp]
    exact h.data
  · rw [hd, hp]
    exact h.bound
  · rw [hd, hpipe]
    exact h.pipes
  · rw [hd, hpar]
    exact h.listed

/-- **A reference is bound**: to a replicated parameter, the first element of a container of the right length. -/
theorem WellReplicated.setParameter (h : WellReplicated R S)
    (hr : (S.desc n).isPrmReplicated i = true → FirstOf R (S.desc n).numOfReplicas r) :
    WellReplicated R (ownNodeSetParameter S n i r) := by
  -- nothing that a descriptor says is changed, but for the reference
  have hdesc : ∀ m, ((ownNodeSetParameter S n i r).desc m).isReplicated = (S.desc m).isReplicated ∧
      ((ownNodeSetParameter S n i r).desc m).isPrmReplicated = (S.desc m).isPrmReplicated ∧
      ((ownNodeSetParameter S n i r).desc m).numOfReplicas = (S.desc m).numOfReplicas := by
    intro m
    simp only [ownNodeSetParameter, Function.update_apply]
    split
    · rename_i hm
      rw [hm]
      exact ⟨rfl, rfl, rfl⟩
    · exact ⟨rfl, rfl, rfl⟩
  have hprm : ∀ m j Q, ((ownNodeSetParameter S n i r).prms m)[j]? = some Q →
      ∃ P, (S.prms m)[j]? = some P ∧ Q = if m = n ∧ j = i then { P with ref := some r } else P := by
    intro m j Q hQ
    simp only [ownNodeSetParameter, Function.update_apply] at hQ
    split at hQ
    · rename_i hm
      rw [List.getElem?_modify, Option.map_eq_map, Option.map_eq_some_iff] at hQ
      obtain ⟨P, hP, rfl⟩ := hQ
      refine ⟨P, hm ▸ hP, ?_⟩
      by_cases hj : j = i
      · simp [hm, hj]
      · simp [hj, Ne.symm hj]
    · rename_i hm
      exact ⟨Q, hQ, by simp [hm]⟩
  have hkeep : ∀ {m j} {P : NodePrm}, (if m = n ∧ j = i then { P with ref := some r } else P).isReplicated = P.isReplicated ∧
      (if m = n ∧ j = i then { P with ref := some r } else P).dir = P.dir := by
    intro m j P
    split
    · exact ⟨rfl, rfl⟩
    · exact ⟨rfl, rfl⟩
  constructor
  · intro m hm
    rw [(hdesc m).1] at hm
    rw [(hdesc m).2.2]
    exact h.count m hm
  · intro m hm Q hQ hdir
    rw [(hdesc m).1] at hm
    obtain ⟨j, hj⟩ := List.mem_iff_getElem?.1 hQ
    obtain ⟨P, hP, rfl⟩ := hprm m j Q hj
    rw [hkeep.2] at hdir
    rw [hkeep.1]
    exact h.outputs m hm P (List.mem_of_getElem? hP) hdir
  · intro m j hj
    rw [(hdesc m).2.1] at hj
    rw [(hdesc m).1]
    obtain ⟨hrep, hlt⟩ := h.flagged m j hj
    refine ⟨hrep, ?_⟩
    simp only [ownNodeSetParameter, Function.update_apply]
    split
    · rename_i hm
      rw [List.length_modify, ← hm]
      exact hlt
    · exact hlt
  · intro m j Q hQ
    obtain ⟨P, hP, rfl⟩ := hprm m j Q hQ
    rw [(hdesc m).2.1, hkeep.1]
    exact h.flags m j P hP
  · intro m j Q hQ
    obtain ⟨P, hP, rfl⟩ := hprm m j Q hQ
    have hold := h.data m j P hP
    simp only [ownNodeSetParameter, Function.update_apply]
    by_cases hm : m = n
    · subst hm
      by_cases hj : j = i
      · simp [hj]
      · simp [hj, hold]
    · simp [hm, hold]
  · intro m j Q hQ hrep
    obtain ⟨P, hP, rfl⟩ := hprm m j Q hQ
    rw [hkeep.1] at hrep
    rw [(hdesc m).2.2]
    by_cases hmj : m = n ∧ j = i
    · rw [if_pos hmj]
      obtain ⟨rfl, rfl⟩ := hmj
      exact ⟨r, rfl, hr (by rw [h.flags m j P hP, hrep])⟩
    · rw [if_neg hmj]
      exact h.bound m j P hP hrep
  · intro m D hD
    obtain ⟨hrep, hnum, hflags, hdata⟩ := h.pipes m D hD
    rw [(hdesc m).1, (hdesc m).2.1, (hdesc m).2.2]
    exact ⟨hrep, hnum, hflags, hdata⟩
  · intro P hP hi
    rw [(hdesc _).2.1] at hi
    rw [(hdesc _).2.2]
    exact h.listed P hP hi

/-- The lists of the graph parameters are changed. -/
theorem WellReplicated.setParameters (h : WellReplicated R S) (l : List ReplicaParameter)
    (hl : ∀ P ∈ l, (S.desc P.node).isPrmReplicated P.index = true →
      ∀ r, (r ∈ P.refsList ∨ ∃ q, P.readyQ = some q ∧ r ∈ q) → FirstOf R (S.desc P.node).numOfReplicas r) :
    WellReplicated R { S with parameters := l } :=
  ⟨h.count, h.outputs, h.flagged, h.flags, h.data, h.bound, h.pipes, hl⟩

/-- The lists of one graph parameter are changed. -/
theorem WellReplicated.setOne (h : WellReplicated R S) {k : Nat} {P Q : ReplicaParameter}
    (hQ : Q.node = P.node ∧ Q.index = P.index)
    (hl : (S.desc P.node).isPrmReplicated P.index = true → ∀ r, (r ∈ Q.refsList ∨ ∃ q, Q.readyQ = some q ∧ r ∈ q) →
      FirstOf R (S.desc P.node).numOfReplicas r) :
    WellReplicated R { S with parameters := S.parameters.set k Q } := by
  refine h.setParameters _ (fun P' hP' => ?_)
  rcases List.mem_or_eq_of_mem_set hP' with hP' | rfl
  · exact h.listed P' hP'
  · rw [hQ.1, hQ.2]
    exact hl

theorem FirstOf.unique {m m' : Nat} (h : FirstOf R m r) (h' : FirstOf R m' r) : m = m' := by
  obtain ⟨-, c, hc, hm⟩ := h
  obtain ⟨-, c', hc', hm'⟩ := h'
  rw [hc, Option.some.injEq] at hc'
  subst hc'
  exact hm.symm.trans hm'

theorem FirstOf.of_isFirst (h : isFirstElement R r = true) :
    ∃ c, containerOf R r = some c ∧ (R c).elements.length ≠ 0 ∧ FirstOf R (R c).elements.length r := by
  have hr := h
  unfold isFirstElement at hr
  obtain ⟨c, hc, hhead⟩ := (Option.any_eq_true _ _).1 hr
  refine ⟨c, hc, fun h0 => ?_, h, c, hc, rfl⟩
  rw [List.length_eq_zero_iff.1 h0] at hhead
  simp at hhead

/-- **The number of replicas** that `vxReplicateNode` finds, where each replicated parameter is bound to a first element. -/
theorem countReplicas_fold {l : List (NodePrm × Bool)} {a b : Nat} (h : l.foldlM (countReplicas R) a = some b)
    (hl : ∀ x ∈ l, x.2 = true → ∃ r, x.1.ref = some r ∧ isFirstElement R r = true) (ha : a ≤ nodeMaxReplicate) :
    b ≤ nodeMaxReplicate ∧ (a ≠ 0 → b = a) ∧
      ∀ x ∈ l, x.2 = true → b ≠ 0 ∧ ∃ r, x.1.ref = some r ∧ FirstOf R b r := by
  induction l generalizing a with
  | nil =>
    cases h
    exact ⟨ha, fun _ => rfl, fun x hx => nomatch hx⟩
  | cons x l ih =>
    rw [List.foldlM_cons] at h
    obtain ⟨a', ha', h⟩ := Option.bind_eq_some_iff.1 h
    have hrest := fun y hy => hl y (List.mem_cons_of_mem x hy)
    by_cases hx : x.2 = true
    · obtain ⟨r, hr, hfirst⟩ := hl x List.mem_cons_self hx
      obtain ⟨c, hc, hne, hof⟩ := FirstOf.of_isFirst hfirst
      unfold countReplicas at ha'
      rw [hr] at ha'
      simp only [hx, if_true, hc] at ha'
      have hstep : a' = (R c).elements.length ∧ a' ≤ nodeMaxReplicate ∧ (a ≠ 0 → a' = a) := by
        by_cases h0 : a = 0
        · simp only [h0, if_true] at ha'
          split at ha'
          · cases ha'
          · rename_i hcheck
            cases ha'
            exact ⟨rfl, by omega, fun hn => absurd h0 hn⟩
        · simp only [h0, if_false] at ha'
          split at ha'
          · cases ha'
          · rename_i hcheck
            cases ha'
            exact ⟨by omega, by omega, fun _ => rfl⟩
      obtain ⟨hlen, hmax, hkeep⟩ := hstep
      obtain ⟨hb, hba, hall⟩ := ih h hrest hmax
      have hba' : b = a' := hba (by omega)
      refine ⟨hb, fun h0 => hba'.trans (hkeep h0), fun y hy hy2 => ?_⟩
      rcases List.mem_cons.1 hy with rfl | hy
      · rw [hba', hlen]
        exact ⟨hne, r, hr, hof⟩
      · exact hall y hy hy2
    · -- a parameter that is not replicated leaves the number
      have haa : a' = a := by
        unfold countReplicas at ha'
        simp only [hx] at ha'
        split at ha'
        · split at ha'
          · exact (Option.some.inj ha').symm
          · cases ha'
        · simp only [Bool.false_eq_true, if_false] at ha'
          split at ha'
          · exact (Option.some.inj ha').symm
          · cases ha'
      rw [haa] at h
      obtain ⟨hb, hba, hall⟩ := ih h hrest ha
      refine ⟨hb, hba, fun y hy hy2 => ?_⟩
      rcases List.mem_cons.1 hy with rfl | hy
      · exact absurd hy2 hx
      · exact hall y hy hy2

/-- **`vxReplicateNode` keeps the invariant**, and changes nothing where it fails. -/
theorem WellReplicated.replicate (h : WellReplicated R S) {replicate : List Bool} (hc : ReplicatesWhole R S n replicate) :
    WellReplicated R (vxReplicateNode R S n replicate).2 ∧
      ((vxReplicateNode R S n replicate).1 = false → (vxReplicateNode R S n replicate).2 = S) := by
  unfold vxReplicateNode
  split
  · rename_i hlen
    split
    · rename_i num hnum
      refine ⟨?_, fun hf => nomatch hf⟩
      obtain ⟨hsome, hprms, hlisted, hpipes⟩ := (hc.resolve_left (not_not_intro hlen)).resolve_left (by rw [hnum]; simp)
      obtain ⟨hmax, -, hall⟩ := countReplicas_fold hnum (fun x hx => (hprms x hx).2) (Nat.zero_le _)
      have hzip : ∀ {j : Nat} {P : NodePrm} {b : Bool}, (S.prms n)[j]? = some P → replicate[j]? = some b →
          (P, b) ∈ (S.prms n).zip replicate := by
        intro j P b hP hb
        refine List.mem_of_getElem? (i := j) ?_
        rw [List.getElem?_zip_eq_some]
        exact ⟨hP, hb⟩
      -- some parameter is replicated, so that the number of replicas is one of a container
      obtain ⟨j₀, hj₀⟩ := List.mem_iff_getElem?.1 hsome
      have hlt₀ : j₀ < (S.prms n).length := hlen ▸ (List.getElem?_eq_some_iff.1 hj₀).1
      obtain ⟨hpos, r₀, hr₀, hfirst₀⟩ := hall _ (hzip (List.getElem?_eq_getElem hlt₀) hj₀) rfl
      have hprm : ∀ {j : Nat} {Q : NodePrm},
          (List.zipWith (fun P b => { P with isReplicated := b }) (S.prms n) replicate)[j]? = some Q →
            ∃ P b, (S.prms n)[j]? = some P ∧ replicate[j]? = some b ∧ { P with isReplicated := b } = Q := by
        intro j Q hQ
        exact List.getElem?_zipWith_eq_some.1 hQ
      constructor
      · intro m hm
        simp only [Function.update_apply] at hm ⊢
        split at hm
        · rename_i hmn
          rw [if_pos hmn]
          exact ⟨Nat.one_le_iff_ne_zero.2 hpos, hmax⟩
        · rename_i hmn
          rw [if_neg hmn]
          exact h.count m hm
      · intro m hm Q hQ hdir
        simp only [Function.update_apply] at hm hQ
        split at hm
        · rename_i hmn
          rw [if_pos hmn] at hQ
          obtain ⟨j, hj⟩ := List.mem_iff_getElem?.1 hQ
          obtain ⟨P, b, hP, hb, rfl⟩ := hprm hj
          exact (hprms _ (hzip hP hb)).1 hdir
        · rename_i hmn
          rw [if_neg hmn] at hQ
          exact h.outputs m hm Q hQ hdir
      · intro m j hj
        simp only [Function.update_apply] at hj ⊢
        split at hj
        · rename_i hmn
          rw [if_pos hmn, if_pos hmn]
          refine ⟨rfl, ?_⟩
          rw [List.length_zipWith, hlen, Nat.min_self]
          exact (List.getElem?_eq_some_iff.1 (of_decide_eq_true hj)).1
        · rename_i hmn
          rw [if_neg hmn, if_neg hmn]
          exact h.flagged m j hj
      · intro m j Q hQ
        simp only [Function.update_apply] at hQ ⊢
        split at hQ
        · rename_i hmn
          rw [if_pos hmn]
          obtain ⟨P, b, hP, hb, rfl⟩ := hprm hQ
          simp [hb]
        · rename_i hmn
          rw [if_neg hmn]
          exact h.flags m j Q hQ
      · intro m j Q hQ
        simp only [Function.update_apply] at hQ ⊢
        split at hQ
        · rename_i hmn
          rw [if_pos hmn]
          obtain ⟨P, b, hP, hb, rfl⟩ := hprm hQ
          exact h.data n j P hP
        · rename_i hmn
          rw [if_neg hmn]
          exact h.data m j Q hQ
      · intro m j Q hQ hrep
        simp only [Function.update_apply] at hQ ⊢
        split at hQ
        · rename_i hmn
          rw [if_pos hmn]
          obtain ⟨P, b, hP, hb, rfl⟩ := hprm hQ
          exact (hall _ (hzip hP hb) hrep).2
        · rename_i hmn
          rw [if_neg hmn]
          exact h.bound m j Q hQ hrep
      · intro m D hD
        simp only [Function.update_apply]
        by_cases hmn : m = n
        · subst hmn
          simp only [if_true]
          rcases hpipes with hpipes | ⟨hrep, hflags⟩
          · rw [hpipes] at hD
            cases hD
          · obtain ⟨hDrep, hDnum, hDflags, hDdata⟩ := h.pipes m D hD
            -- the parameter that was bound before has the same number of elements
            have hflag₀ : (S.desc m).isPrmReplicated j₀ = true := by rw [hflags, hj₀]; rfl
            have hP₀ := List.getElem?_eq_getElem hlt₀
            obtain ⟨r', hr', hfirst'⟩ := h.bound m j₀ _ hP₀ (by rw [← h.flags m j₀ _ hP₀, hflag₀])
            rw [hr₀, Option.some.injEq] at hr'
            subst hr'
            have heq := hfirst'.unique hfirst₀
            refine ⟨hDrep.trans hrep, hDnum.trans heq, fun i => (hDflags i).trans (hflags i), hDdata⟩
        · rw [if_neg hmn]
          exact h.pipes m D hD
      · intro P hP hi r hr
        simp only [Function.update_apply] at hi ⊢
        split at hi
        · rename_i hmn
          rw [if_pos hmn]
          have hb := of_decide_eq_true hi
          have hlt : P.index < (S.prms n).length := hlen ▸ (List.getElem?_eq_some_iff.1 hb).1
          have hPi := List.getElem?_eq_getElem hlt
          obtain ⟨-, r', hr', hfirst⟩ := hall _ (hzip hPi hb) rfl
          obtain ⟨-, c, hcont, hclen⟩ := hfirst
          have := hlisted P hP hmn hb r hr r' (by rw [hPi]; exact hr') c hcont
          rwa [hclen] at this
        · rename_i hmn
          rw [if_neg hmn]
          exact h.listed P hP hi r hr
    · exact ⟨h, fun _ => rfl⟩
  · exact ⟨h, fun _ => rfl⟩

/-- **`vxSetParameterByIndex` keeps the invariant**, and changes nothing where it fails. -/
theorem WellReplicated.setByIndex (h : WellReplicated R S) (hr : RightLength R S n i r) (hc : ChecksFirst R S n i r) :
    WellReplicated R (vxSetParameterByIndex R fits S n i (some r)).2 ∧
      ((vxSetParameterByIndex R fits S n i (some r)).1 = false →
        (vxSetParameterByIndex R fits S n i (some r)).2 = S) := by
  have hdelay : ∀ D, WellReplicated R { S with delay := D } := fun D => h.congr rfl rfl rfl rfl
  unfold vxSetParameterByIndex
  cases hP : (S.prms n)[i]? with
  | none => exact ⟨h, fun _ => rfl⟩
  | some P =>
    simp only
    by_cases hfit : fits n i r = true
    · rw [if_pos hfit]
      cases hD : removeBound R S n i with
      | none => exact ⟨h, fun _ => rfl⟩
      | some D =>
        obtain ⟨hadd, hfirst⟩ := hc P hP D hD
        -- where the reference bound before is in no delay, nothing was removed
        have hsame : ¬ P.ref.any (fun b => (R b).delay.isSome) = true → D = S.delay := by
          intro hb
          unfold removeBound at hD
          rw [hP] at hD
          cases hPr : P.ref with
          | none =>
            simp only [Option.bind_some, hPr] at hD
            exact (Option.some.inj hD).symm
          | some b =>
            simp only [Option.bind_some, hPr] at hD
            cases hbd : (R b).delay with
            | none =>
              rw [hbd] at hD
              exact (Option.some.inj hD).symm
            | some d => simp [hPr, hbd] at hb
        simp only
        cases hA : addValue R D n i r with
        | none =>
          refine ⟨hdelay D, fun _ => ?_⟩
          by_cases hb : P.ref.any (fun b => (R b).delay.isSome) = true
          · have := hadd hb
            rw [hA] at this
            cases this
          · simp only [hsame hb]
        | some D' =>
          simp only
          by_cases hlast : P.isReplicated = true ∧ isFirstElement R r = false
          · rw [if_pos hlast]
            refine ⟨hdelay D', fun _ => ?_⟩
            by_cases hb : P.ref.any (fun b => (R b).delay.isSome) = true ∨ (R r).delay.isSome = true
            · rw [hfirst hb hlast.1] at hlast
              exact absurd hlast.2 (by simp)
            · obtain ⟨hb, hrd⟩ := not_or.1 hb
              unfold addValue at hA
              rw [Option.not_isSome_iff_eq_none.1 hrd, hsame hb] at hA
              rw [← Option.some.inj hA]
          · rw [if_neg hlast]
            refine ⟨(hdelay D').setParameter (fun hi => ?_), fun hf => nomatch hf⟩
            refine hr hi ?_
            have hrep : P.isReplicated = true := by rw [← h.flags n i P hP]; exact hi
            simpa [hrep] using hlast
    · rw [if_neg hfit]
      exact ⟨h, fun _ => rfl⟩

theorem WellReplicated.setOthers {l : List (Nat × Nat)} (h : WellReplicated R S)
    (hl : ∀ x ∈ l, (S.desc x.1).isPrmReplicated x.2 = true → FirstOf R (S.desc x.1).numOfReplicas r) :
    WellReplicated R (l.foldl (fun S y => ownNodeSetParameter S y.1 y.2 r) S) := by
  induction l generalizing S with
  | nil => exact h
  | cons y l ih =>
    refine ih (h.setParameter (hl y List.mem_cons_self)) (fun x hx => ?_)
    have hx' := hl x (List.mem_cons_of_mem y hx)
    simp only [ownNodeSetParameter, Function.update_apply]
    split
    · rename_i he
      rw [he] at hx'
      exact hx'
    · exact hx'

/-- What a call of `vxSetParameterByIndex` leaves of the flags and the numbers. -/
theorem desc_setByIndex (R : Nat → VxRef) (fits : Nat → Nat → Nat → Bool) (S : ReplicaGraph) (n i m : Nat) (v : Option Nat) :
    ((vxSetParameterByIndex R fits S n i v).2.desc m).isPrmReplicated = (S.desc m).isPrmReplicated ∧
      ((vxSetParameterByIndex R fits S n i v).2.desc m).numOfReplicas = (S.desc m).numOfReplicas := by
  unfold vxSetParameterByIndex
  split
  · exact ⟨rfl, rfl⟩
  · split
    · exact ⟨rfl, rfl⟩
    · split
      · split
        · exact ⟨rfl, rfl⟩
        · split
          · exact ⟨rfl, rfl⟩
          · split
            · exact ⟨rfl, rfl⟩
            · simp only [ownNodeSetParameter, Function.update_apply]
              split
              · rename_i hm
                rw [hm]
                exact ⟨rfl, rfl⟩
              · exact ⟨rfl, rfl⟩
      · exact ⟨rfl, rfl⟩

/-- **`vxSetGraphParameterByIndex` keeps the invariant**, and changes nothing where it fails. -/
theorem WellReplicated.setGraphParameter {k : Nat} {allocates : Bool} (h : WellReplicated R S)
    (hc : StepFits R sameMeta S (.setGraphParameterByIndex k r allocates)) :
    WellReplicated R (vxSetGraphParameterByIndex R fits S k r allocates).2 ∧
      ((vxSetGraphParameterByIndex R fits S k r allocates).1 = false →
        (vxSetGraphParameterByIndex R fits S k r allocates).2 = S) := by
  unfold vxSetGraphParameterByIndex
  cases hP : S.parameters[k]? with
  | none => exact ⟨h, fun _ => rfl⟩
  | some P =>
    obtain ⟨hlen, hfirst, hothers, halloc⟩ := hc P hP
    have hset : WellReplicated R (vxSetParameterByIndex R fits S P.node P.index (some r)).2 ∧ _ := h.setByIndex hlen hfirst
    obtain ⟨hwell, hfail⟩ := hset
    simp only
    split
    · refine ⟨hwell, fun hf => hfail ?_⟩
      simpa [halloc] using hf
    · refine ⟨hwell.setOthers (fun x hx hi => ?_), fun hf => ?_⟩
      · obtain ⟨hflag, hnum⟩ := desc_setByIndex R fits S P.node P.index x.1 (some r)
        rw [hflag] at hi
        rw [hnum]
        exact hothers x hx hi
      · rw [halloc] at hf
        cases hf

/-- Entries that can all be made are made, and keep the invariant. -/
theorem WellReplicated.configure {l : List (Nat × Option (List Nat))} (h : WellReplicated R S)
    (hc : AllConfigurable sameMeta S l) (hl : ∀ x ∈ l, ListFits R S x) :
    (configureParameters sameMeta S l).1 = true ∧ WellReplicated R (configureParameters sameMeta S l).2 := by
  induction l generalizing S with
  | nil => exact ⟨rfl, h⟩
  | cons x l ih =>
    obtain ⟨hnodup, hall⟩ := hc
    obtain ⟨hx, hnodup⟩ := List.nodup_cons.1 (by rwa [List.map_cons] at hnodup)
    obtain ⟨refs, P, hrefs, hP, hroom, hqueue, hmeta⟩ := hall x List.mem_cons_self
    have hstep : configureParameter sameMeta S x =
        (true, { S with
          parameters := S.parameters.set x.1
            { P with queueEnable := true, numBuf := refs.length, refsList := refs } }) := by
      unfold configureParameter
      rw [hrefs, hP]
      simp only
      rw [if_pos ⟨hroom, hqueue⟩, if_pos hmeta]
    have hmem : P ∈ S.parameters := List.mem_of_getElem? hP
    have hwell : WellReplicated R (configureParameter sameMeta S x).2 := by
      rw [hstep]
      refine h.setOne (P := P) ⟨rfl, rfl⟩ (fun hi r hr => ?_)
      rcases hr with hr | hr
      · exact hl x List.mem_cons_self P hP hi refs hrefs r hr
      · exact h.listed P hmem hi r (.inr hr)
    have hother : ∀ y ∈ l, (configureParameter sameMeta S x).2.parameters[y.1]? = S.parameters[y.1]? := by
      intro y hy
      rw [hstep]
      refine List.getElem?_set_ne (fun he => hx ?_)
      rw [he]
      exact List.mem_map_of_mem hy
    unfold configureParameters
    simp only
    rw [if_pos (by rw [hstep])]
    refine ih hwell ⟨hnodup, fun y hy => ?_⟩ (fun y hy Q hQ => ?_)
    · rw [hother y hy]
      exact hall y (List.mem_cons_of_mem x hy)
    · rw [hother y hy] at hQ
      have := hl y (List.mem_cons_of_mem x hy) Q hQ
      rw [hstep]
      exact this

/-- **An enqueue keeps the invariant.** -/
theorem WellReplicated.enqueue {k : Nat} (h : WellReplicated R S) (he : enqueueOneReadyRef R S k r = some T) :
    WellReplicated R T := by
  unfold enqueueOneReadyRef at he
  cases hP : S.parameters[k]? with
  | none =>
    rw [hP] at he
    cases he
  | some P =>
    rw [hP] at he
    simp only at he
    split at he
    · rename_i q o l hq _
      split at he
      · rename_i hcan
        cases he
        have hone := h.setOne (k := k) (P := P) (Q := { P with readyQ := some (q ++ [r]) }) ⟨rfl, rfl⟩
          (fun hi r' hr' => h.listed P (List.mem_of_getElem? hP) hi r' (by
            rcases hr' with hr' | ⟨q', hq', hr'⟩
            · exact .inl hr'
            · cases hq'
              rcases List.mem_append.1 hr' with hr' | hr'
              · exact .inr ⟨q, hq, hr'⟩
              · rw [List.mem_singleton.1 hr']
                exact .inl (List.mem_of_mem_take hcan.1)))
        exact hone.congr rfl rfl rfl rfl
      · cases he
    · cases he

theorem WellReplicated.enqueueAll {k : Nat} {refs : List (Option Nat)} (h : WellReplicated R S)
    (hc : AllQueueable R k S refs) :
    (enqueueReadyRefs R k S refs).1 = true ∧ WellReplicated R (enqueueReadyRefs R k S refs).2 := by
  induction refs generalizing S with
  | nil => exact ⟨rfl, h⟩
  | cons x refs ih =>
    cases x with
    | none => exact hc.elim
    | some r =>
      unfold AllQueueable at hc
      unfold enqueueReadyRefs
      cases he : enqueueOneReadyRef R S k r with
      | none =>
        rw [he] at hc
        exact hc.elim
      | some T =>
        rw [he] at hc
        exact ih (h.enqueue he) hc

/-- **A verification keeps the invariant**: a further descriptor says what the first one does. -/
theorem WellReplicated.verify (h : WellReplicated R S) (depth : Nat) : WellReplicated R (verifyReplicas S depth) := by
  have hlisted : ∀ P ∈ S.parameters.map (linkParameter S), (S.desc P.node).isPrmReplicated P.index = true →
      ∀ r, (r ∈ P.refsList ∨ ∃ q, P.readyQ = some q ∧ r ∈ q) → FirstOf R (S.desc P.node).numOfReplicas r := by
    intro P hP hi r hr
    obtain ⟨Q, hQ, rfl⟩ := List.mem_map.1 hP
    refine h.listed Q hQ hi r ?_
    rcases hr with hr | ⟨q, hq, hr⟩
    · exact .inl hr
    · unfold linkParameter at hq
      simp only at hq
      split at hq
      · cases hq
        cases hr
      · exact .inr ⟨q, hq, hr⟩
  refine ⟨h.count, h.outputs, h.flagged, h.flags, h.data, h.bound, fun n D hD => ?_, hlisted⟩
  simp only [verifyReplicas] at hD
  split at hD
  · rw [(List.mem_replicate.1 hD).2]
    refine ⟨rfl, rfl, fun _ => rfl, fun i hi => ?_⟩
    have hlt := (h.flagged n i hi).2
    have hP := List.getElem?_eq_getElem hlt
    have hdata : ((verifyReplicas S depth).desc n).dataId i = _ := h.data n i _ hP
    obtain ⟨r, hr, hfirst⟩ := h.bound n i _ hP (by rw [← h.flags n i _ hP, hi])
    exact ⟨r, hdata.trans hr, hfirst⟩
  · exact h.pipes n D hD

theorem WellReplicated.acquire {k : Nat} (h : WellReplicated R S) (he : acquireReadyRef S k = some T) :
    WellReplicated R T := by
  unfold acquireReadyRef at he
  split at he
  · rename_i P hP
    split at he
    · rename_i x q hq
      cases he
      refine h.setOne (P := P) ⟨rfl, rfl⟩ (fun hi r hr => h.listed P (List.mem_of_getElem? hP) hi r ?_)
      rcases hr with hr | ⟨q', hq', hr⟩
      · exact .inl hr
      · cases hq'
        exact .inr ⟨_, hq, List.mem_cons_of_mem x hr⟩
    · cases he
  · cases he

/-- **One call** keeps the invariant and, where it fails, everything. -/
theorem WellReplicated.call {a : ReplicaAct} {b : Bool} (h : WellReplicated R S) (hc : StepFits R sameMeta S a)
    (hT : replicaCall R fits sameMeta S a = some (b, T)) : WellReplicated R T ∧ (b = false → T = S) := by
  cases a with
  | replicateNode n replicate =>
    obtain ⟨rfl, rfl⟩ := Prod.ext_iff.1 (Option.some.inj hT)
    exact h.replicate hc
  | setParameterByIndex n i value =>
    cases value with
    | some r =>
      obtain ⟨rfl, rfl⟩ := Prod.ext_iff.1 (Option.some.inj hT)
      exact h.setByIndex hc.1 hc.2
    | none =>
      have hsame : (vxSetParameterByIndex R fits S n i none).2 = S := by
        unfold vxSetParameterByIndex
        split
        · rfl
        · rfl
      have hT' := congrArg Prod.snd (Option.some.inj hT)
      simp only [hsame] at hT'
      rw [← hT']
      exact ⟨h, fun _ => rfl⟩
  | setGraphParameterByIndex k r allocates =>
    obtain ⟨rfl, rfl⟩ := Prod.ext_iff.1 (Option.some.inj hT)
    exact h.setGraphParameter hc
  | setGraphScheduleConfig queueMode l =>
    have hT' := Option.some.inj hT
    unfold vxSetGraphScheduleConfig at hT'
    split at hT'
    · cases hT'
      exact ⟨h, fun _ => rfl⟩
    · rename_i hv
      split at hT'
      · rename_i hq
        split at hT'
        · rename_i hlen
          have hc : AllConfigurable sameMeta S l ∧ ∀ x ∈ l, ListFits R S x := by
            rcases hc with hc | hc | hc | hc
            · exact absurd hc hv
            · rw [hc] at hq
              cases hq
            · exact absurd hlen (Nat.not_le.2 hc)
            · exact hc
          have hS : WellReplicated R { S with queueMode := true, isPipeliningEnabled := true } := h.congr rfl rfl rfl rfl
          obtain ⟨htrue, hwell⟩ := hS.configure hc.1 hc.2
          rw [hT'] at htrue hwell
          refine ⟨hwell, fun hb => ?_⟩
          rw [hb] at htrue
          cases htrue
        · cases hT'
          exact ⟨h, fun _ => rfl⟩
      · cases hT'
        exact ⟨h.congr rfl rfl rfl rfl, fun hb => nomatch hb⟩
  | enqueueReadyRef k refs schedules =>
    have hT' := Option.some.inj hT
    unfold ownGraphParameterEnqueueReadyRef at hT'
    split at hT'
    · rcases hc with ⟨l, rfl⟩ | ⟨r, l, rfl, hnone⟩ | ⟨hall, hsched⟩
      · cases hT'
        exact ⟨h, fun _ => rfl⟩
      · unfold enqueueReadyRefs at hT'
        rw [hnone] at hT'
        cases hT'
        exact ⟨h, fun _ => rfl⟩
      · obtain ⟨htrue, hwell⟩ := h.enqueueAll hall
        simp only at hT'
        rw [htrue, hsched] at hT'
        cases hT'
        refine ⟨hwell, fun hb => ?_⟩
        simp at hb
    · cases hT'
      exact ⟨h, fun _ => rfl⟩
  | edit nodes =>
    cases hT
    exact ⟨h.congr rfl rfl rfl rfl, fun hb => nomatch hb⟩
  | addParameterToGraph n i =>
    cases hT
    refine ⟨h.setParameters _ (fun P hP => ?_), fun hb => nomatch hb⟩
    rcases List.mem_append.1 hP with hP | hP
    · exact h.listed P hP
    · rw [List.mem_singleton.1 hP]
      rintro - r (hr | ⟨q, hq, -⟩)
      · cases hr
      · cases hq
  | verifyGraph depth =>
    cases hT
    exact ⟨h.verify depth, fun hb => nomatch hb⟩
  | acquireReadyRef k =>
    obtain ⟨U, hU, he⟩ := Option.map_eq_some_iff.1 hT
    cases he
    exact ⟨h.acquire hU, fun hb => nomatch hb⟩
  | dequeue numEnqueues isEnqueued =>
    cases hT
    exact ⟨h.congr rfl rfl rfl rfl, fun hb => nomatch hb⟩

/-- **Each run of a replicated node gets an element of every container, and a failing call changes nothing**, in every run in
which what is bound or listed fits. -/
theorem keepsReplicas_of_fits {S₀ : ReplicaGraph} (h₀ : StartsUnreplicated S₀)
    (h : Reach (replicaStep R fits sameMeta) (StepFits R sameMeta) S₀ S) :
    KeepsReplicas R S ∧ ∀ a T, StepFits R sameMeta S a → replicaCall R fits sameMeta S a = some (false, T) → T = S := by
  have hwell : WellReplicated R S := h.inv h₀.well (fun S a T hS hc hT => by
    obtain ⟨⟨b, U⟩, hU, rfl⟩ := Option.map_eq_some_iff.1 hT
    exact (hS.call hc hU).1)
  exact ⟨hwell.keeps, fun a T hc hT => (hwell.call hc hT).2 rfl⟩

end Kept

/-- Object arrays 2, 7 and 9 have two elements, and object array 4 has one. -/
def twoAndOne (r : Nat) : VxRef :=
  if r = 2 then { type := .objectArray, elements := [0, 1] }
  else if r = 4 then { type := .objectArray, elements := [3] }
  else if r = 7 then { type := .objectArray, elements := [5, 6] }
  else if r = 9 then { type := .objectArray, elements := [8, 10] }
  else { isArrayElement := true, scope := [(0, 2), (1, 2), (3, 4), (5, 7), (6, 7), (8, 9), (10, 9)].lookup r }

/-- A node that reads element 0 and writes element 5. -/
def unreplicatedNode : ReplicaGraph where
  nodes := [0]
  prms := fun n => if n = 0 then [{ dir := .input, ref := some 0 }, { dir := .output, ref := some 5 }] else []
  desc := fun n => if n = 0 then { dataId := fun i => if i = 0 then some 0 else if i = 1 then some 5 else none } else {}

theorem unreplicatedNode_starts : StartsUnreplicated unreplicatedNode := by
  constructor
  · intro n
    unfold unreplicatedNode
    simp only
    split
    · exact ⟨rfl, fun _ => rfl⟩
    · exact ⟨rfl, fun _ => rfl⟩
  · intro n P hP
    unfold unreplicatedNode at hP
    simp only at hP
    split at hP
    · rcases List.mem_cons.1 hP with rfl | hP
      · rfl
      · rw [List.mem_singleton.1 hP]
    · cases hP
  · intro n
    rfl
  · intro n i P hP
    unfold unreplicatedNode at hP ⊢
    simp only at hP ⊢
    split at hP
    · rename_i hn
      rw [if_pos hn]
      match i, hP with
      | 0, hP => cases hP; rfl
      | 1, hP => cases hP; rfl
    · cases hP

/-- The two runs of the node after `vxReplicateNode`, with the reference `r` as its input. -/
def replicatedWith (r : Nat) : ReplicaGraph :=
  (vxSetParameterByIndex twoAndOne (fun _ _ _ => true)
    (vxReplicateNode twoAndOne unreplicatedNode 0 [true, true]).2 0 0 (some r)).2

/-- An object array with one element is taken as the input of two runs: both calls succeed, and the second run gets nothing. -/
theorem shorter_array_accepted :
    StartsUnreplicated unreplicatedNode ∧ (vxReplicateNode twoAndOne unreplicatedNode 0 [true, true]).1 = true ∧
      (vxSetParameterByIndex twoAndOne (fun _ _ _ => true) (vxReplicateNode twoAndOne unreplicatedNode 0 [true, true]).2
        0 0 (some 3)).1 = true ∧
      ¬ KeepsReplicas twoAndOne (replicatedWith 3) := by
  refine ⟨unreplicatedNode_starts, by decide, by decide, fun h => ?_⟩
  obtain ⟨-, hget⟩ := h.executes 0 (by decide) _ (.inl rfl)
  have := hget 0 (by decide) 3 (.inl (by decide)) 1 (by decide)
  exact absurd this (by decide)

theorem same_length_kept : KeepsReplicas twoAndOne (replicatedWith 8) := by
  have hfirst : FirstOf twoAndOne 2 8 := ⟨by decide, 9, by decide, rfl⟩
  have hreach : Reach (replicaStep twoAndOne (fun _ _ _ => true) (fun _ => true)) (StepFits twoAndOne (fun _ => true))
      unreplicatedNode (replicatedWith 8) := by
    refine .next (.next .start (a := .replicateNode 0 [true, true]) ?_ rfl) (a := .setParameterByIndex 0 0 (some 8)) ?_ rfl
    · refine .inr (.inr ⟨by decide, ?_, (fun P hP => nomatch hP), .inl rfl⟩)
      intro x hx
      have hx' : x = ({ dir := .input, ref := some 0 }, true) ∨ x = ({ dir := .output, ref := some 5 }, true) := by
        simpa [unreplicatedNode] using hx
      rcases hx' with rfl | rfl
      · exact ⟨fun _ => rfl, fun _ => ⟨0, rfl, by decide⟩⟩
      · exact ⟨fun _ => rfl, fun _ => ⟨5, rfl, by decide⟩⟩
    · refine ⟨fun _ _ => hfirst, fun P hP D _ => ⟨fun _ => rfl, fun _ _ => hfirst.1⟩⟩
  exact (keepsReplicas_of_fits unreplicatedNode_starts hreach).1

end Tiovx
