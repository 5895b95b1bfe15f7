import Mathlib.Tactic
/-!
# Lib.Run — runs of a partial step function

A system is a step function `σ → α → Option σ`: the label says which party moves, `none` that it cannot.  `Reach`
collects the states of the runs whose every step meets a condition on the state before it, and carries the two rules
the developments use: an invariant of the conditioned steps holds in every state reached, and an executed list of
labels reaches its end.
-/
namespace StepSystem

variable {σ α : Type}

/-- The states reached from `s₀` by steps that all meet `C`. -/
inductive Reach (step : σ → α → Option σ) (C : σ → α → Prop) (s₀ : σ) : σ → Prop
  | start : Reach step C s₀ s₀
  | next {s : σ} {a : α} {t : σ} : Reach step C s₀ s → C s a → step s a = some t → Reach step C s₀ t

/-- **The invariant rule**: what holds at the start and is kept by every step that meets the condition holds in
every state reached. -/
theorem Reach.inv {step : σ → α → Option σ} {C : σ → α → Prop} {s₀ t : σ} {I : σ → Prop} (h0 : I s₀)
    (hstep : ∀ s a t, I s → C s a → step s a = some t → I t) (h : Reach step C s₀ t) : I t := by
  induction h with
  | start => exact h0
  | next _ hc hs ih => exact hstep _ _ _ ih hc hs

/-- The invariant rule for one that is proved with the help of another already known. -/
theorem Reach.inv_of {step : σ → α → Option σ} {C : σ → α → Prop} {s₀ t : σ} {I J : σ → Prop}
    (hJ : ∀ s, Reach step C s₀ s → J s) (h0 : I s₀)
    (hstep : ∀ s a t, J s → I s → C s a → step s a = some t → I t) (h : Reach step C s₀ t) : I t := by
  induction h with
  | start => exact h0
  | next hr hc hs ih => exact hstep _ _ _ (hJ _ hr) ih hc hs

/-- A weaker condition reaches at least as much. -/
theorem Reach.mono {step : σ → α → Option σ} {C D : σ → α → Prop} {s₀ t : σ} (hCD : ∀ s a, C s a → D s a)
    (h : Reach step C s₀ t) : Reach step D s₀ t := by
  induction h with
  | start => exact .start
  | next _ hc hs ih => exact .next ih (hCD _ _ hc) hs

/-- A condition that implies another wherever an invariant holds reaches no more. -/
theorem Reach.mono_of {step : σ → α → Option σ} {C D : σ → α → Prop} {s₀ t : σ} {I : σ → Prop} (h0 : I s₀)
    (hstep : ∀ s a t, I s → C s a → step s a = some t → I t) (hCD : ∀ s a, I s → C s a → D s a)
    (h : Reach step C s₀ t) : Reach step D s₀ t := by
  induction h with
  | start => exact .start
  | next hr hc hs ih => exact ih.next (hCD _ _ (hr.inv h0 hstep) hc) hs

/-- The labels carried out in order; `none` once one of them cannot move, or does not meet `C`. -/
def exec (step : σ → α → Option σ) (C : σ → α → Bool) : σ → List α → Option σ
  | s, []     => some s
  | s, a :: l => if C s a then (step s a).bind (fun t => exec step C t l) else none

theorem reach_of_exec {step : σ → α → Option σ} {C : σ → α → Bool} {s₀ : σ} :
    ∀ (l : List α) {s t : σ}, Reach step (fun s a => C s a = true) s₀ s → exec step C s l = some t →
      Reach step (fun s a => C s a = true) s₀ t
  | [], s, t, h, he => by cases he; exact h
  | a :: l, s, t, h, he => by
    unfold exec at he
    split at he
    · rename_i hc
      obtain ⟨u, hu, he⟩ := Option.bind_eq_some_iff.1 he
      exact reach_of_exec l (h.next hc hu) he
    · cases he

/-- A run carried out from its start to a state with the value `x` of `f` reaches such a state. -/
theorem exists_reach_of_exec {β : Type} {step : σ → α → Option σ} {C : σ → α → Bool} {s₀ : σ} {l : List α} {f : σ → β}
    {x : β} (h : (exec step C s₀ l).map f = some x) : ∃ s, Reach step (fun s a => C s a = true) s₀ s ∧ f s = x := by
  obtain ⟨s, hs, hx⟩ := Option.map_eq_some_iff.1 h
  exact ⟨s, reach_of_exec l .start hs, hx⟩

/-- The states reached from `s₀` by carrying out `l`, the last label first, in steps that all meet `C`. -/
inductive ReachBy (step : σ → α → Option σ) (C : σ → α → Prop) (s₀ : σ) : List α → σ → Prop
  | start : ReachBy step C s₀ [] s₀
  | next {l : List α} {s : σ} {a : α} {t : σ} :
      ReachBy step C s₀ l s → C s a → step s a = some t → ReachBy step C s₀ (a :: l) t

theorem ReachBy.reach {step : σ → α → Option σ} {C : σ → α → Prop} {s₀ s : σ} {l : List α}
    (h : ReachBy step C s₀ l s) : Reach step C s₀ s := by
  induction h with
  | start => exact .start
  | next _ hc hs ih => exact .next ih hc hs

/-- The steps of a run meet what all its labels meet. -/
theorem ReachBy.restrict {step : σ → α → Option σ} {C : σ → α → Prop} {P : α → Prop} {s₀ s : σ} {l : List α}
    (h : ReachBy step C s₀ l s) (hP : ∀ a ∈ l, P a) : ReachBy step (fun s a => C s a ∧ P a) s₀ l s := by
  induction h with
  | start => exact .start
  | next _ hc hs ih =>
    exact .next (ih fun a ha => hP a (List.mem_cons_of_mem _ ha)) ⟨hc, hP _ List.mem_cons_self⟩ hs

theorem ReachBy.mono_of {step : σ → α → Option σ} {C D : σ → α → Prop} {s₀ s : σ} {l : List α}
    (hCD : ∀ s a, Reach step C s₀ s → C s a → D s a) (h : ReachBy step C s₀ l s) : ReachBy step D s₀ l s := by
  induction h with
  | start => exact .start
  | next h hc hs ih => exact .next ih (hCD _ _ h.reach hc) hs

/-- **The rule of the amortised cost**: where each step pays its cost from the potential, from what its label brings and
from what it gains, a run costs no more than its labels bring and it gains. -/
theorem ReachBy.amortised {step : σ → α → Option σ} {C : σ → α → Prop} {s₀ s : σ} {l : List α}
    (h : ReachBy step C s₀ l s) (Φ gain : σ → Nat) (cost credit : α → Nat)
    (hstep : ∀ s a t, Reach step C s₀ s → C s a → step s a = some t → Φ t + gain s + cost a ≤ Φ s + gain t + credit a) :
    (l.map cost).sum + Φ s + gain s₀ ≤ Φ s₀ + gain s + (l.map credit).sum := by
  induction h with
  | start => simp
  | next h hc hs ih =>
    have hpay := hstep _ _ _ h.reach hc hs
    rw [List.map_cons, List.sum_cons, List.map_cons, List.sum_cons]
    omega

theorem reachBy_of_exec {step : σ → α → Option σ} {C : σ → α → Bool} {s₀ : σ} :
    ∀ (l l₀ : List α) {s t : σ}, ReachBy step (fun s a => C s a = true) s₀ l₀ s → exec step C s l = some t →
      ReachBy step (fun s a => C s a = true) s₀ (l.reverse ++ l₀) t
  | [], l₀, s, t, h, he => by cases he; exact h
  | a :: l, l₀, s, t, h, he => by
    unfold exec at he
    split at he
    · rename_i hc
      obtain ⟨u, hu, he⟩ := Option.bind_eq_some_iff.1 he
      rw [List.reverse_cons, List.append_assoc]
      exact reachBy_of_exec l (a :: l₀) (h.next hc hu) he
    · cases he

/-- The condition every step meets. -/
def anyStep (_ : σ) (_ : α) : Bool := true

end StepSystem
