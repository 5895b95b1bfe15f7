import Tiovx.FirstVerification
import Tiovx.Lib.Dataflow
/-!
# CopyMeaning — what a graph computes, and what taking out copy and move nodes leaves of it (`vx_copy_swap.c`)

A node computes its outputs from its inputs, and a copy or move node puts its input into its output.  Where no reference is
part of another, none is written twice and none is changed in place, the nodes that are left when copy and move nodes were
taken out compute the same, but for the virtual references that nothing uses any more.
-/
namespace Tiovx

open Relation Dataflow

/-- What the kernels compute: from the values of the inputs, by their parameters, that of an output. -/
abbrev Kernels (α : Type) := Nat → (Nat → Option α) → Nat → α

namespace Wiring

/-- The reference of parameter `i`, where its direction is `d`. -/
def refOf (W : Wiring) (d : Dir) (i : Nat) : Option Nat := (W.prms[i]?).bind fun P => if P.1 = d then P.2 else none

def outs (W : Wiring) : List (Nat × Nat) :=
  (List.range W.prms.length).filterMap fun i => (W.refOf .output i).map fun r => (i, r)

def reads (W : Wiring) : List Nat := (List.range W.prms.length).filterMap (W.refOf .input)

/-- What parameter `i` of a node is given. -/
def op {α : Type} (F : Kernels α) (W : Wiring) (M : Nat → α) (i : Nat) : α :=
  if W.enumeration = .other then F W.kernel (fun j => (W.refOf .input j).map M) i
  else ((W.refOf .input 0).map M).getD (F W.kernel (fun j => (W.refOf .input j).map M) i)

/-- The parameters bound to `old` are bound to `new`. -/
def rebind (old new : Nat) (W : Wiring) : Wiring :=
  { W with prms := W.prms.map fun P => (P.1, if P.2 = some old then some new else P.2) }

variable {W : Wiring} {d : Dir} {i r : Nat}

theorem refOf_lt (h : W.refOf d i = some r) : i < W.prms.length := by
  obtain ⟨P, hP, -⟩ := Option.bind_eq_some_iff.1 h
  exact (List.getElem?_eq_some_iff.1 hP).1

theorem mem_outs : (i, r) ∈ W.outs ↔ W.refOf .output i = some r := by
  simp only [outs, List.mem_filterMap, List.mem_range, Option.map_eq_some_iff, Prod.mk.injEq]
  constructor
  · rintro ⟨j, -, s, hs, rfl, rfl⟩
    exact hs
  · intro h
    exact ⟨i, refOf_lt h, r, h, rfl, rfl⟩

theorem mem_reads : r ∈ W.reads ↔ ∃ i, W.refOf .input i = some r := by
  simp only [reads, List.mem_filterMap, List.mem_range]
  exact ⟨fun ⟨i, _, h⟩ => ⟨i, h⟩, fun ⟨i, h⟩ => ⟨i, refOf_lt h, h⟩⟩

theorem op_congr {α : Type} (F : Kernels α) {M M' : Nat → α} (h : ∀ r ∈ W.reads, M r = M' r) (i : Nat) :
    W.op F M i = W.op F M' i := by
  have hin : ∀ j, (W.refOf .input j).map M = (W.refOf .input j).map M' := by
    intro j
    cases hj : W.refOf .input j with
    | none => rfl
    | some r => exact congrArg some (h r (mem_reads.2 ⟨j, hj⟩))
  unfold op
  simp only [hin]

/-- The reference a parameter has when `old` has become `new`. -/
def moved (old new r : Nat) : Nat := if r = old then new else r

theorem refOf_rebind (old new : Nat) : (W.rebind old new).refOf d i = (W.refOf d i).map (moved old new) := by
  unfold refOf rebind moved
  simp only [List.getElem?_map]
  cases hP : W.prms[i]? with
  | none => rfl
  | some P =>
    obtain ⟨e, o⟩ := P
    simp only [Option.map_some, Option.bind_some]
    split
    · cases o with
      | none => rfl
      | some s =>
        simp only [Option.some.injEq, Option.map_some]
        split <;> rfl
    · rfl

end Wiring

/-- The nodes of a graph as a program. -/
def program {α : Type} (F : Kernels α) (w : Nat → Wiring) : Program Nat Nat Nat α where
  outs n := (w n).outs
  reads n := (w n).reads
  op n := (w n).op F
  op_congr n _ _ i h := (w n).op_congr F h i

theorem writes_program {α : Type} {F : Kernels α} {w : Nat → Wiring} {n r : Nat} :
    (program F w).Writes n r ↔ ∃ i, (w n).refOf .output i = some r := by
  unfold Program.Writes program
  simp only [Wiring.mem_outs]

/-- **A graph that is plain**: no reference is changed in place, none is written twice, a copy or move node has an input and an
output, what is virtual and read is written, and the references lead where `E` does. -/
structure Plain (isVirtual : Nat → Bool) (E : Nat → Nat → Prop) (w : Nat → Wiring) (nodes : List Nat) : Prop where
  nodup : nodes.Nodup
  acyclic : ∀ n, ¬ TransGen E n n
  oneWay : ∀ n ∈ nodes, ∀ i, (w n).refOf .bidirectional i = none
  single : ∀ m ∈ nodes, ∀ n ∈ nodes, ∀ i j r, (w m).refOf .output i = some r → (w n).refOf .output j = some r → m = n ∧ i = j
  copies : ∀ n ∈ nodes, (w n).enumeration ≠ .other →
    ∃ a b, a ≠ b ∧ (w n).prms = [(.input, some a), (.output, some b)]
  written : ∀ n ∈ nodes, ∀ i r, (w n).refOf .input i = some r → isVirtual r = true →
    ∃ m ∈ nodes, ∃ j, (w m).refOf .output j = some r
  flow : ∀ m ∈ nodes, ∀ n ∈ nodes, ∀ i j r, (w m).refOf .output i = some r → (w n).refOf .input j = some r → TransGen E m n

/-- Copy or move node `n` from `first` to `second` is taken out of the nodes, and `new` takes the place of `old`. -/
structure TakesOut (isVirtual : Nat → Bool) (w w' : Nat → Wiring) (nodes nodes' : List Nat) (n first second old new : Nat) :
    Prop where
  mem : n ∈ nodes
  nodup : nodes'.Nodup
  mem_iff : ∀ m, m ∈ nodes' ↔ m ∈ nodes ∧ m ≠ n
  wiring : ∀ m ∈ nodes', w' m = (w m).rebind old new
  enumeration : (w n).enumeration ≠ .other
  prms : (w n).prms = [(.input, some first), (.output, some second)]
  ne : first ≠ second
  sides : old = first ∧ new = second ∨ old = second ∧ new = first
  isVirtual : isVirtual old = true

section TakesOut

variable {isVirtual : Nat → Bool} {E : Nat → Nat → Prop} {w w' : Nat → Wiring} {nodes nodes' : List Nat}
  {n m k first second old new i j r : Nat}

theorem TakesOut.ne_new (hT : TakesOut isVirtual w w' nodes nodes' n first second old new) : old ≠ new := by
  rcases hT.sides with ⟨rfl, rfl⟩ | ⟨rfl, rfl⟩
  · exact hT.ne
  · exact hT.ne.symm

theorem TakesOut.reads (hT : TakesOut isVirtual w w' nodes nodes' n first second old new) :
    (w n).refOf .input 0 = some first := by
  unfold Wiring.refOf
  rw [hT.prms]
  rfl

theorem TakesOut.writes (hT : TakesOut isVirtual w w' nodes nodes' n first second old new) :
    (w n).refOf .output 1 = some second := by
  unfold Wiring.refOf
  rw [hT.prms]
  rfl

theorem TakesOut.writes_iff (hT : TakesOut isVirtual w w' nodes nodes' n first second old new) :
    (w n).refOf .output i = some r ↔ i = 1 ∧ r = second := by
  unfold Wiring.refOf
  rw [hT.prms]
  match i with
  | 0 => simp
  | 1 => simp [eq_comm]
  | i + 2 => simp

theorem TakesOut.refOf_eq (hT : TakesOut isVirtual w w' nodes nodes' n first second old new) (hm : m ∈ nodes') {d : Dir} :
    (w' m).refOf d i = some r ↔ ∃ s, (w m).refOf d i = some s ∧ Wiring.moved old new s = r := by
  rw [hT.wiring m hm, Wiring.refOf_rebind, Option.map_eq_some_iff]

/-- The node that writes what the copy reads. -/
theorem TakesOut.writer (hP : Plain isVirtual E w nodes)
    (hT : TakesOut isVirtual w w' nodes nodes' n first second old new) (hv : isVirtual first = true) :
    ∃ m ∈ nodes', ∃ j, (w m).refOf .output j = some first := by
  obtain ⟨m, hm, j, hj⟩ := hP.written n hT.mem 0 first hT.reads hv
  refine ⟨m, (hT.mem_iff m).2 ⟨hm, ?_⟩, j, hj⟩
  rintro rfl
  exact hT.ne (hT.writes_iff.1 hj).2

theorem Plain.perm (hP : Plain isVirtual E w nodes) (h : nodes'.Perm nodes) : Plain isVirtual E w nodes' := by
  have hmem : ∀ m ∈ nodes', m ∈ nodes := fun m hm => h.subset hm
  refine ⟨h.nodup_iff.2 hP.nodup, hP.acyclic, fun n hn => hP.oneWay n (hmem n hn),
    fun m hm n hn => hP.single m (hmem m hm) n (hmem n hn), fun n hn => hP.copies n (hmem n hn), fun n hn i r hr hv => ?_,
    fun m hm n hn => hP.flow m (hmem m hm) n (hmem n hn)⟩
  obtain ⟨m, hm, hw⟩ := hP.written n (hmem n hn) i r hr hv
  exact ⟨m, h.symm.subset hm, hw⟩

variable {α : Type} {F : Kernels α} {M V : Nat → α}

/-- A copy has both its references at one value. -/
theorem TakesOut.same (hT : TakesOut isVirtual w w' nodes nodes' n first second old new)
    (hV : (program F w).Solves nodes M V) : V old = V new := by
  have hcopy : V second = V first := by
    rw [hV.outputs n hT.mem 1 second (Wiring.mem_outs.2 hT.writes)]
    change (w n).op F V 1 = V first
    unfold Wiring.op
    rw [if_neg hT.enumeration, hT.reads]
    rfl
  rcases hT.sides with ⟨rfl, rfl⟩ | ⟨rfl, rfl⟩
  · exact hcopy.symm
  · exact hcopy

/-- What a graph computes, the graph without the copy or move node computes, but for the reference that goes. -/
theorem TakesOut.solves (hP : Plain isVirtual E w nodes)
    (hT : TakesOut isVirtual w w' nodes nodes' n first second old new) (hV : (program F w).Solves nodes M V) :
    (program F w').Solves nodes' M (Function.update V old (M old)) := by
  have hmoved : ∀ s, Function.update V old (M old) (Wiring.moved old new s) = V s := by
    intro s
    unfold Wiring.moved
    split
    · rename_i hs
      rw [hs, Function.update_of_ne hT.ne_new.symm, hT.same hV]
    · rename_i hs
      rw [Function.update_of_ne hs]
  have hin : ∀ m ∈ nodes', ∀ i, ((w' m).refOf .input i).map (Function.update V old (M old)) = ((w m).refOf .input i).map V := by
    intro m hm i
    rw [hT.wiring m hm, Wiring.refOf_rebind, Option.map_map]
    exact congrArg (fun f => ((w m).refOf .input i).map f) (funext hmoved)
  refine ⟨fun m hm i r hi => ?_, fun r hr => ?_⟩
  · obtain ⟨s, hs, rfl⟩ := (hT.refOf_eq hm).1 (Wiring.mem_outs.1 hi)
    rw [hmoved, hV.outputs m ((hT.mem_iff m).1 hm).1 i s (Wiring.mem_outs.2 hs)]
    have hkernel : (w' m).kernel = (w m).kernel := by rw [hT.wiring m hm]; rfl
    have henum : (w' m).enumeration = (w m).enumeration := by rw [hT.wiring m hm]; rfl
    change (w m).op F V i = (w' m).op F (Function.update V old (M old)) i
    unfold Wiring.op
    simp only [hin m hm, hkernel, henum]
  · by_cases hro : r = old
    · rw [hro, Function.update_self]
    · rw [Function.update_of_ne hro]
      refine hV.others r fun m hm hw => ?_
      obtain ⟨i, hi⟩ := writes_program.1 hw
      by_cases hmn : m = n
      · -- the copy wrote `r`, and now the writer of its input does
        subst hmn
        have hsec := (hT.writes_iff.1 hi).2
        rcases hT.sides with ⟨hold, hnew⟩ | ⟨hold, -⟩
        · obtain ⟨k, hk, j, hj⟩ := hT.writer hP (hold ▸ hT.isVirtual)
          refine hr k hk (writes_program.2 ⟨j, (hT.refOf_eq hk).2 ⟨first, hj, ?_⟩⟩)
          rw [hsec, ← hnew, ← hold]
          simp [Wiring.moved]
        · exact hro (hsec.trans hold.symm)
      · have hm' := (hT.mem_iff m).2 ⟨hm, hmn⟩
        exact hr m hm' (writes_program.2 ⟨i, (hT.refOf_eq hm').2 ⟨r, hi, if_neg hro⟩⟩)

end TakesOut

namespace GraphNodes

def wiring (G : GraphNodes) (n : Nat) : Wiring := (G.node n).wiring

/-- **`G'` computes what `G` does**, but for virtual references. -/
structure Computes {α : Type} (F : Kernels α) (G G' : GraphNodes) : Prop where
  ref : G'.ref = G.ref
  solves : ∀ M V, (program F G.wiring).Solves G.nodes M V → ∃ V', (program F G'.wiring).Solves G'.nodes M V' ∧
    ∀ r, (G.ref r).isVirtual = false → V' r = V r

variable {α : Type} {F : Kernels α} {G G' G'' : GraphNodes} {E : Nat → Nat → Prop}

theorem Computes.refl (F : Kernels α) (G : GraphNodes) : Computes F G G := ⟨rfl, fun _ V hV => ⟨V, hV, fun _ _ => rfl⟩⟩

theorem Computes.trans (h : Computes F G G') (h' : Computes F G' G'') : Computes F G G'' := by
  refine ⟨h'.ref.trans h.ref, fun M V hV => ?_⟩
  obtain ⟨V₁, hV₁, h₁⟩ := h.solves M V hV
  obtain ⟨V₂, hV₂, h₂⟩ := h'.solves M V₁ hV₁
  refine ⟨V₂, hV₂, fun r hr => ?_⟩
  rw [h₂ r (h.ref ▸ hr), h₁ r hr]

end GraphNodes

namespace GraphState

/-- What a search finds: a node with its two references, and a virtual one of them goes. -/
structure Fits (s : GraphState) (n first second : Nat) (R : Removal) : Prop where
  node : R.node = n
  isVirtual : (s.ref R.old).isVirtual = true
  sides : R.old = first ∧ R.new = second ∨ R.old = second ∧ R.new = first

section Removal

variable {s t : GraphState} {E : Nat → Nat → Prop} {n first second : Nat} {R : Removal} {copies : Nat → Nat → Bool}

variable {α : Type} {F : Kernels α}

end Removal

end GraphState

end Tiovx
