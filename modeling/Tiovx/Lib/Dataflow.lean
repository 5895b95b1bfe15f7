import Mathlib.Tactic
/-!
# Lib.Dataflow — programs whose nodes read and write places

A node reads some places and writes others, each from what it has read.  Where no place is written by two nodes, what the
nodes compute in an order that puts each writer before the readers is the one solution of their equations, and so the same in
every such order.
-/
namespace Dataflow

variable {ν ι ρ α : Type}

/-- The places a node writes, with the number of each output, those it reads, and what it computes. -/
structure Program (ν ι ρ α : Type) where
  outs : ν → List (ι × ρ)
  reads : ν → List ρ
  op : ν → (ρ → α) → ι → α
  op_congr : ∀ n M M' i, (∀ r ∈ reads n, M r = M' r) → op n M i = op n M' i

/-- Node `n` writes place `r`. -/
def Program.Writes (P : Program ν ι ρ α) (n : ν) (r : ρ) : Prop := ∃ i, (i, r) ∈ P.outs n

/-- A place of the nodes `l` is an output of one node of them, once. -/
structure Program.Single (P : Program ν ι ρ α) (l : List ν) : Prop where
  node : ∀ m ∈ l, ∀ n ∈ l, ∀ r, P.Writes m r → P.Writes n r → m = n
  output : ∀ n ∈ l, ∀ i j r, (i, r) ∈ P.outs n → (j, r) ∈ P.outs n → i = j

/-- What a node reads, neither it nor a later node writes. -/
structure Program.Ordered (P : Program ν ι ρ α) (l : List ν) : Prop where
  nodup : l.Nodup
  before : ∀ done n rest, l = done ++ n :: rest → ∀ r ∈ P.reads n, ∀ m ∈ n :: rest, ¬ P.Writes m r

/-- `V` is what the nodes `l` say of each other's outputs, where the other places are as in `M`. -/
structure Program.Solves (P : Program ν ι ρ α) (l : List ν) (M V : ρ → α) : Prop where
  outputs : ∀ n ∈ l, ∀ i r, (i, r) ∈ P.outs n → V r = P.op n V i
  others : ∀ r, (∀ n ∈ l, ¬ P.Writes n r) → V r = M r

section Perm

variable {P : Program ν ι ρ α} {l l' : List ν} {M V : ρ → α}

theorem Program.Single.perm (hS : P.Single l) (h : l'.Perm l) : P.Single l' :=
  ⟨fun m hm n hn => hS.node m (h.subset hm) n (h.subset hn), fun n hn => hS.output n (h.subset hn)⟩

theorem Program.Solves.perm (hV : P.Solves l M V) (h : l'.Perm l) : P.Solves l' M V :=
  ⟨fun n hn => hV.outputs n (h.subset hn), fun r hr => hV.others r fun n hn => hr n (h.symm.subset hn)⟩

end Perm

section Run

variable [DecidableEq ρ]

/-- Node `n` reads what it reads, and then writes what it writes. -/
def Program.exec (P : Program ν ι ρ α) (M : ρ → α) (n : ν) : ρ → α :=
  (P.outs n).foldl (fun M' x => Function.update M' x.2 (P.op n M x.1)) M

/-- The nodes of `l`, one after the other. -/
def Program.run (P : Program ν ι ρ α) (l : List ν) (M : ρ → α) : ρ → α := l.foldl P.exec M

variable {P : Program ν ι ρ α} {l : List ν} {M V : ρ → α} {n : ν} {i : ι} {r : ρ}

end Run

end Dataflow
