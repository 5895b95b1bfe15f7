import Tiovx.NodeOrder
import Tiovx.Lib.Run
/-!
# TriggerNode — the trigger node of a streaming graph (`vx_graph_stream.c`, `vx_graph.c`)

The node whose completions re-schedule the graph is remembered as a place in the array of nodes.  A verification registers the
node found there, and an error event goes to the one found there; what moves the nodes in the array does not know of it.
-/
namespace Tiovx

open StepSystem GraphState

/-- A graph with what streaming adds: `streaming` are the nodes with `is_graph_streaming_node_completion_event`, and `given`
is the node given to the last `vxEnableGraphStreaming` that was given one and succeeded. -/
structure StreamGraph where
  graph : GraphState := {}
  isStreamingEnabled : Bool := false
  triggerNodeIndex : Nat := 0
  triggerNodeSet : Bool := false
  streaming : List Nat := []
  given : Option Nat := none

/-- `vxEnableGraphStreaming`, and whether it succeeds. -/
def vxEnableGraphStreaming (s : StreamGraph) (triggerNode : Option Nat) : StreamGraph × Bool :=
  let s := { s with isStreamingEnabled := true, graph := { s.graph with isPipeliningEnabled := true } }
  match triggerNode with
  | none => (s, true)
  | some n =>
    match s.graph.nodes.findIdx? (fun m => m = n) with
    | some i => ({ s with triggerNodeIndex := i, triggerNodeSet := true }, true)
    | none => (s, s.triggerNodeSet)

/-- The part of `ownGraphAllocForStreaming` that registers the trigger node, and whether it succeeds. -/
def registerTrigger (s : StreamGraph) : StreamGraph × Bool :=
  if s.isStreamingEnabled = true ∧ 1 < s.graph.pipelineDepth then
    if s.graph.queueMode = false ∧ s.triggerNodeSet = true then
      match s.graph.nodes[s.triggerNodeIndex]? with
      | some n => ({ s with streaming := n :: s.streaming }, true)
      | none => (s, false)
    else (s, false)
  else (s, true)

/-- A call: a node is created or removed, streaming is enabled, anything of the graph but its array of nodes is changed, or
the graph is verified, with the area of the sort as other graphs left it.  Where a verification fails in its last stages,
`registers` is that it gets to the streaming. -/
inductive StreamAct
  | addNode (n : Nat)
  | removeNode (n : Nat)
  | enableStreaming (triggerNode : Option Nat)
  | edit (f : GraphState → GraphState)
  | verifyGraph (o : VerifyOutcome) (S : SharedState) (registers : Bool)

section Step

variable (K : Nat → VxKernel)

/-- `vxVerifyGraph`, with the streaming. -/
def verifyStreaming (s : StreamGraph) (o : VerifyOutcome) (S : SharedState) (registers : Bool) : StreamGraph :=
  let graph := (GraphState.vxVerifyGraph K o S s.graph).2
  let isLate := (GraphState.vxVerifyGraph K { o with finishes := true } S s.graph).2.verified
  if isLate = true ∧ (o.finishes = true ∨ registers = true) then
    let R := registerTrigger { s with graph := graph }
    let succeeds := R.2 && !(s.isStreamingEnabled && graph.queueMode)
    { R.1 with graph := { graph with verified := graph.verified && succeeds } }
  else { s with graph := graph }

/-- **One call.** -/
def streamStep (s : StreamGraph) : StreamAct → Option StreamGraph
  | .addNode n =>
    if n ∉ s.graph.known ∧ s.graph.nodes.length < graphMaxNodes then
      some { s with graph := { s.graph with nodes := s.graph.nodes ++ [n], known := n :: s.graph.known } }
    else none
  | .removeNode n =>
    if n ∈ s.graph.nodes then some { s with graph := { s.graph with nodes := removeEntry n s.graph.nodes } } else some s
  | .enableStreaming triggerNode =>
    let R := vxEnableGraphStreaming s triggerNode
    some { R.1 with given := if R.2 then triggerNode.or s.given else s.given }
  | .edit f => some { s with graph := { f s.graph with nodes := s.graph.nodes } }
  | .verifyGraph o S registers => some (verifyStreaming K s o S registers)

end Step

/-- **A call leaves the trigger node where it is**: it neither removes it nor puts it in the place of another node, it gives a
node of the graph, and no other once one is registered; and in the order of the sort the trigger node has its place. -/
def LeavesTrigger (s : StreamGraph) : StreamAct → Prop
  | .removeNode n => n ∈ s.graph.nodes → ∀ t ∈ s.given, n ≠ t ∧ s.graph.nodes.getLast? ≠ some t
  | .enableStreaming triggerNode => ∀ n ∈ triggerNode,
      (n ∈ s.graph.nodes ∨ s.triggerNodeSet = false) ∧ ∀ m ∈ s.streaming, m = n
  | .verifyGraph o _ _ => ∀ t ∈ s.given, verificationSpares o t s.triggerNodeIndex s.graph = true
  | .addNode _ | .edit _ => True

instance (s : StreamGraph) : (a : StreamAct) → Decidable (LeavesTrigger s a)
  | .removeNode n =>
    inferInstanceAs (Decidable (n ∈ s.graph.nodes → ∀ t ∈ s.given, n ≠ t ∧ s.graph.nodes.getLast? ≠ some t))
  | .enableStreaming triggerNode => inferInstanceAs (Decidable (∀ n ∈ triggerNode,
      (n ∈ s.graph.nodes ∨ s.triggerNodeSet = false) ∧ ∀ m ∈ s.streaming, m = n))
  | .verifyGraph o _ _ =>
    inferInstanceAs (Decidable (∀ t ∈ s.given, verificationSpares o t s.triggerNodeIndex s.graph = true))
  | .addNode _ | .edit _ => isTrue trivial

/-- The invariant: what is given is at its place, and only it is registered. -/
structure TriggerInv (s : StreamGraph) : Prop where
  isSet : s.triggerNodeSet = s.given.isSome
  atIndex : ∀ t ∈ s.given, s.graph.nodes[s.triggerNodeIndex]? = some t
  streaming : ∀ m ∈ s.streaming, s.given = some m

section Invariant

variable {K : Nat → VxKernel} {s : StreamGraph}

/-- Only the node at the place of the trigger is registered. -/
theorem TriggerInv.register (h : TriggerInv s) : TriggerInv (registerTrigger s).1 := by
  unfold registerTrigger
  split
  · split
    · rename_i hset
      split
      · rename_i n hn
        refine ⟨h.isSet, h.atIndex, fun m hm => ?_⟩
        rcases List.mem_cons.1 hm with rfl | hm
        · obtain ⟨t, ht⟩ := Option.isSome_iff_exists.1 (h.isSet.symm.trans hset.2)
          have hat := h.atIndex t ht
          rw [hn] at hat
          cases hat
          exact ht
        · exact h.streaming m hm
      · exact h
    · exact h
  · exact h

theorem TriggerInv.setGraph (h : TriggerInv s) {g : GraphState}
    (hg : ∀ t ∈ s.given, g.nodes[s.triggerNodeIndex]? = some t) : TriggerInv { s with graph := g } :=
  ⟨h.isSet, hg, h.streaming⟩

theorem registerTrigger_index (s : StreamGraph) : (registerTrigger s).1.triggerNodeIndex = s.triggerNodeIndex ∧
    (registerTrigger s).1.given = s.given := by
  unfold registerTrigger
  split
  · split
    · split <;> exact ⟨rfl, rfl⟩
    · exact ⟨rfl, rfl⟩
  · exact ⟨rfl, rfl⟩

theorem TriggerInv.verify (h : TriggerInv s) {o : VerifyOutcome} (S : SharedState) (registers : Bool)
    (hl : LeavesTrigger s (.verifyGraph o S registers)) : TriggerInv (verifyStreaming K s o S registers) := by
  have hg : ∀ t ∈ s.given, (GraphState.vxVerifyGraph K o S s.graph).2.nodes[s.triggerNodeIndex]? = some t :=
    fun t ht => getElem?_verifyGraph K S (h.atIndex t ht) (hl t ht)
  unfold verifyStreaming
  simp only
  split
  · have hr := (h.setGraph hg).register
    refine hr.setGraph ?_
    obtain ⟨hi, hgiven⟩ := registerTrigger_index { s with graph := (GraphState.vxVerifyGraph K o S s.graph).2 }
    rw [hi, hgiven]
    exact hg
  · exact h.setGraph hg

theorem TriggerInv.enable (h : TriggerInv s) (triggerNode : Option Nat)
    (hl : LeavesTrigger s (.enableStreaming triggerNode)) {s' : StreamGraph}
    (hs : streamStep K s (.enableStreaming triggerNode) = some s') : TriggerInv s' := by
  cases triggerNode with
  | none =>
    cases hs
    exact ⟨h.isSet, h.atIndex, h.streaming⟩
  | some n =>
    obtain ⟨hmem, hstreaming⟩ := hl n rfl
    simp only [streamStep, vxEnableGraphStreaming] at hs
    cases hi : s.graph.nodes.findIdx? (fun m => m = n) with
    | some i =>
      simp only [hi] at hs
      cases hs
      refine ⟨rfl, fun t ht => ?_, fun m hm => ?_⟩
      · cases ht
        obtain ⟨hlt, hn, -⟩ := List.findIdx?_eq_some_iff_getElem.1 hi
        rw [List.getElem?_eq_getElem hlt, of_decide_eq_true hn]
      · rw [hstreaming m hm]
        rfl
    | none =>
      simp only [hi] at hs
      cases hs
      have hnot : n ∉ s.graph.nodes := by
        intro hm
        have hf := List.findIdx?_eq_none_iff.1 hi n hm
        simp at hf
      have hset : s.triggerNodeSet = false := hmem.resolve_left hnot
      have hset' := h.isSet
      rw [hset] at hset'
      refine ⟨?_, ?_, ?_⟩
      · simp only [hset]
        exact hset'
      · simp only [hset]
        exact h.atIndex
      · simp only [hset]
        exact h.streaming

theorem TriggerInv.step (h : TriggerInv s) {a : StreamAct} {s' : StreamGraph} (hl : LeavesTrigger s a)
    (hs : streamStep K s a = some s') : TriggerInv s' := by
  cases a with
  | addNode n =>
    simp only [streamStep] at hs
    split at hs
    · cases hs
      refine h.setGraph (fun t ht => ?_)
      have hat := h.atIndex t ht
      rw [List.getElem?_append_left (List.getElem?_eq_some_iff.1 hat).1]
      exact hat
    · cases hs
  | removeNode n =>
    simp only [streamStep] at hs
    split at hs
    · rename_i hn
      cases hs
      refine h.setGraph (fun t ht => ?_)
      obtain ⟨hne, hlast⟩ := hl hn t ht
      exact getElem?_removeEntry (h.atIndex t ht) hne hlast
    · cases hs
      exact h
  | enableStreaming triggerNode => exact h.enable triggerNode hl hs
  | edit f =>
    cases hs
    exact h.setGraph h.atIndex
  | verifyGraph o S registers =>
    cases hs
    exact h.verify S registers hl

end Invariant

end Tiovx
