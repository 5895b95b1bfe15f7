import Tiovx.CopyMeaning
/-!
# ComputedResults — a verified graph computes what was described (`vx_graph_verify.c`, `vx_target.c`)

The order in which the targets execute the nodes of a run puts each writer before its readers, whatever the schedule.  So
the run computes what the nodes that are left compute, and that is, but for virtual references, what the described graph
computes.
-/
namespace Tiovx

open Relation Dataflow

section Slots

variable {G : GraphNodes} {n i j r : Nat} {d : Dir} {a b : Slot}

end Slots

/-- **A graph whose references stand for themselves**: none is part of another, none is changed in place, a copy or move node
has an input and an output, and what is virtual and read is written. -/
structure GraphNodes.Flat (G : GraphNodes) : Prop where
  apart : ∀ a ∈ G.slots, ∀ b ∈ G.slots, G.checkIsRefMatch a.ref b.ref = true → a.ref = b.ref
  oneWay : ∀ a ∈ G.slots, a.dir ≠ .bidirectional
  copies : ∀ n ∈ G.nodes, (G.node n).enumeration ≠ .other →
    ∃ a b, (G.wiring n).prms = [(.input, some a), (.output, some b)]
  written : ∀ a ∈ G.slots, a.dir = .input → (G.ref a.ref).isVirtual = true → ∃ b ∈ G.slots, b.dir = .output ∧ b.ref = a.ref

namespace GraphState

section Verify

variable {α : Type} {F : Kernels α} {K : Nat → VxKernel} {o : VerifyOutcome} {S : SharedState} {s u : GraphState}

end Verify

end GraphState

section RunOrder

variable {G : Graph} {p i : Nat} {l : List Event}

end RunOrder

namespace GraphState

section Results

variable {α : Type} {F : Kernels α} {K : Nat → VxKernel} {o : VerifyOutcome} {S : SharedState} {s : GraphState} {C : Core}
  {B : Graph} {D : NodeId → NodeDesc} {p : Nat} {l : List Event}

end Results

section Example

end Example

end GraphState

end Tiovx
