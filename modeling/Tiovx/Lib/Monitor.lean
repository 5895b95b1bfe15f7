import Mathlib.Tactic
import Tiovx.Lib.Run
/-!
# Lib.Monitor — operations under a lock, with condition variables

The data of a monitor is read and written with its lock held.  A thread that calls an operation goes round a loop: a turn
returns, or waits for a condition and gives up the lock.  A signal wakes one of the threads that wait for its condition, if
there is any; a thread may wake without a signal, and a wait may time out.  A thread that wakes goes round again when it has
the lock, and others may have had it before.

The operations that have returned are a run of operations one after the other.  Where a signal is given for each thread that
could go on, no wake-up is lost.
-/
namespace Monitor

open StepSystem

/-- What a turn comes to; `signal` is the condition signalled before the return. -/
inductive Turn (σ Res Cond : Type)
  | returns (res : Res) (data : σ) (signal : Option Cond)
  | waits (cond : Cond)

/-- A turn on what `f` sees of the data. -/
def Turn.map {σ σ' Res Cond : Type} (f : σ → σ') : Turn σ Res Cond → Turn σ' Res Cond
  | .returns res data signal => .returns res (f data) signal
  | .waits cond => .waits cond

/-- The operations of a monitor: their turns, and what one returns when its wait has timed out, where it can. -/
structure Spec (σ Op Res Cond : Type) where
  turn : Op → σ → Turn σ Res Cond
  timedOut : Op → Option Res

/-- Where a thread stands: `ready` and `woken` threads want the lock, a `late` one wants it back after its wait. -/
inductive Pc (Op Res Cond : Type)
  | idle
  | ready (op : Op)
  | blocked (op : Op) (cond : Cond)
  | woken (op : Op) (cond : Cond)
  | late (op : Op) (res : Res)

/-- The data, the threads, and the operations that have returned, the last one first. -/
structure State (τ σ Op Res Cond : Type) where
  data : σ
  pc : τ → Pc Op Res Cond
  history : List (Op × Res)

/-- What happens.  A turn says which thread its signal wakes. -/
inductive Act (τ Op : Type)
  | call (t : τ) (op : Op)
  | turn (t : τ) (wakes : Option τ)
  | wake (t : τ)
  | timeOut (t : τ)

variable {τ σ Op Res Cond : Type}

/-- The condition a thread waits for. -/
def Pc.blockedOn : Pc Op Res Cond → Option Cond
  | .blocked _ c => some c
  | _ => none

/-- The condition a thread was waiting for when it woke. -/
def Pc.wokenOn : Pc Op Res Cond → Option Cond
  | .woken _ c => some c
  | _ => none

section Step

variable [DecidableEq τ] [Fintype τ] [DecidableEq Cond]

/-- A signal wakes thread `u`, or nobody where nobody waits for the condition. -/
def signalled (pc : τ → Pc Op Res Cond) : Option Cond → Option τ → Option (τ → Pc Op Res Cond)
  | none, none => some pc
  | none, some _ => none
  | some c, none => if ∀ u, (pc u).blockedOn ≠ some c then some pc else none
  | some c, some u =>
    match pc u with
    | .blocked op d => if d = c then some (Function.update pc u (.woken op c)) else none
    | _ => none

/-- A turn of thread `t` in operation `op`. -/
def takeTurn (M : Spec σ Op Res Cond) (s : State τ σ Op Res Cond) (t : τ) (op : Op) (wakes : Option τ) :
    Option (State τ σ Op Res Cond) :=
  match M.turn op s.data with
  | .returns res data signal =>
    (signalled (Function.update s.pc t .idle) signal wakes).map fun pc =>
      { data := data, pc := pc, history := (op, res) :: s.history }
  | .waits c => if wakes = none then some { s with pc := Function.update s.pc t (.blocked op c) } else none

def step (M : Spec σ Op Res Cond) (s : State τ σ Op Res Cond) : Act τ Op → Option (State τ σ Op Res Cond)
  | .call t op =>
    match s.pc t with
    | .idle => some { s with pc := Function.update s.pc t (.ready op) }
    | _ => none
  | .turn t wakes =>
    match s.pc t with
    | .ready op => takeTurn M s t op wakes
    | .woken op _ => takeTurn M s t op wakes
    | .late op res =>
      if wakes = none then some { s with pc := Function.update s.pc t .idle, history := (op, res) :: s.history } else none
    | _ => none
  | .wake t =>
    match s.pc t with
    | .blocked op c => some { s with pc := Function.update s.pc t (.woken op c) }
    | _ => none
  | .timeOut t =>
    match s.pc t with
    | .blocked op _ => (M.timedOut op).map fun res => { s with pc := Function.update s.pc t (.late op res) }
    | _ => none

/-- Nobody has called yet. -/
def start (data : σ) : State τ σ Op Res Cond := { data := data, pc := fun _ => .idle, history := [] }

/-- The threads woken from a wait for `c`. -/
def awake (s : State τ σ Op Res Cond) (c : Cond) : Finset τ := Finset.univ.filter fun t => (s.pc t).wokenOn = some c

end Step

/-- The operations `l`, the last one first, lead from one state of the data to another when they have it for themselves. -/
inductive Runs (M : Spec σ Op Res Cond) (d₀ : σ) : List (Op × Res) → σ → Prop
  | nil : Runs M d₀ [] d₀
  | turn {l op res d d' signal} : Runs M d₀ l d → M.turn op d = .returns res d' signal → Runs M d₀ ((op, res) :: l) d'
  | timedOut {l op res d} : Runs M d₀ l d → M.timedOut op = some res → Runs M d₀ ((op, res) :: l) d

/-- **A signal for each thread that could go on**: `avail` is how many threads that wait for `c` could.  A wait is for nothing
that is there; a turn makes at most one more available than it signals; a thread that was waiting takes one. -/
structure Signals (M : Spec σ Op Res Cond) (c : Cond) (avail : σ → Nat) : Prop where
  waits : ∀ op d, M.turn op d = .waits c → avail d = 0
  raises : ∀ op d res d' signal, M.turn op d = .returns res d' signal →
    avail d' ≤ avail d ∨ signal = some c ∧ avail d' ≤ avail d + 1
  takes : ∀ op d₀ d res d' signal, M.turn op d₀ = .waits c → M.turn op d = .returns res d' signal →
    avail d' + 1 ≤ avail d
  stays : ∀ op d₀ d c', M.turn op d₀ = .waits c → M.turn op d = .waits c' → c' = c

section Steps

variable [DecidableEq τ] [Fintype τ] [DecidableEq Cond]

/-- A thread is about to take a turn in operation `op`. -/
def TurnOf (p : Pc Op Res Cond) (op : Op) : Prop := p = .ready op ∨ ∃ c, p = .woken op c

/-- **What a step does.** -/
inductive Move (M : Spec σ Op Res Cond) (s : State τ σ Op Res Cond) : State τ σ Op Res Cond → Prop
  | call {t op} (h : s.pc t = .idle) : Move M s { s with pc := Function.update s.pc t (.ready op) }
  | returns {t op res d signal wakes pc} (h : TurnOf (s.pc t) op) (ht : M.turn op s.data = .returns res d signal)
      (hs : signalled (Function.update s.pc t .idle) signal wakes = some pc) :
      Move M s { data := d, pc := pc, history := (op, res) :: s.history }
  | waits {t op c} (h : TurnOf (s.pc t) op) (ht : M.turn op s.data = .waits c) :
      Move M s { s with pc := Function.update s.pc t (.blocked op c) }
  | late {t op res} (h : s.pc t = .late op res) :
      Move M s { s with pc := Function.update s.pc t .idle, history := (op, res) :: s.history }
  | wake {t op c} (h : s.pc t = .blocked op c) : Move M s { s with pc := Function.update s.pc t (.woken op c) }
  | timeOut {t op c res} (h : s.pc t = .blocked op c) (ht : M.timedOut op = some res) :
      Move M s { s with pc := Function.update s.pc t (.late op res) }

variable {M : Spec σ Op Res Cond} {s s' : State τ σ Op Res Cond} {a : Act τ Op} {pc pc' : τ → Pc Op Res Cond} {d₀ : σ}
  {t : τ} {op : Op} {res : Res} {c : Cond} {signal : Option Cond} {wakes : Option τ} {avail : σ → Nat}

theorem move_of_takeTurn (h : TurnOf (s.pc t) op) (ht : takeTurn M s t op wakes = some s') : Move M s s' := by
  unfold takeTurn at ht
  split at ht
  · rename_i res d signal hturn
    obtain ⟨pc, hpc, rfl⟩ := Option.map_eq_some_iff.1 ht
    exact .returns h hturn hpc
  · rename_i c hturn
    split at ht
    · cases ht
      exact .waits h hturn
    · cases ht

theorem move_of_step (h : step M s a = some s') : Move M s s' := by
  unfold step at h
  cases a with
  | call t op =>
    simp only at h
    split at h
    · rename_i hp
      cases h
      exact .call hp
    · cases h
  | turn t wakes =>
    simp only at h
    split at h
    · rename_i op hp
      exact move_of_takeTurn (.inl hp) h
    · rename_i op c hp
      exact move_of_takeTurn (.inr ⟨c, hp⟩) h
    · rename_i op res hp
      split at h
      · cases h
        exact .late hp
      · cases h
    · cases h
  | wake t =>
    simp only at h
    split at h
    · rename_i op c hp
      cases h
      exact .wake hp
    · cases h
  | timeOut t =>
    simp only at h
    split at h
    · rename_i op c hp
      obtain ⟨res, hr, rfl⟩ := Option.map_eq_some_iff.1 h
      exact .timeOut hp hr
    · cases h

/-- A signal wakes one thread that waits for its condition, unless there is none. -/
theorem signalled_cases (h : signalled pc signal wakes = some pc') :
    (pc' = pc ∧ ∀ c, signal = some c → ∀ u, (pc u).blockedOn ≠ some c) ∨
      ∃ u op c, signal = some c ∧ pc u = .blocked op c ∧ pc' = Function.update pc u (.woken op c) := by
  unfold signalled at h
  split at h
  · cases h
    exact .inl ⟨rfl, fun c hc => by cases hc⟩
  · cases h
  · rename_i c
    split at h
    · rename_i hnone
      cases h
      refine .inl ⟨rfl, fun c' hc => ?_⟩
      cases hc
      exact hnone
    · cases h
  · rename_i c u
    split at h
    · rename_i op d hu
      split at h
      · rename_i hd
        cases h
        subst hd
        exact .inr ⟨u, op, d, rfl, hu, rfl⟩
      · cases h
    · cases h

/-- **The operations that have returned are a run of the operations one after the other.** -/
theorem runs_of_reach (h : Reach (step M) (fun _ _ => True) (start d₀ : State τ σ Op Res Cond) s) :
    Runs M d₀ s.history s.data ∧ ∀ t op res, s.pc t = .late op res → M.timedOut op = some res := by
  refine h.inv (I := fun s => Runs M d₀ s.history s.data ∧
    ∀ t op res, s.pc t = .late op res → M.timedOut op = some res) ⟨.nil, fun _ _ _ h => by cases h⟩ ?_
  rintro s a s' ⟨hruns, hlate⟩ - hs
  have hother : ∀ {t : τ} {p : Pc Op Res Cond}, (∀ op res, p = .late op res → M.timedOut op = some res) →
      ∀ u op res, Function.update s.pc t p u = .late op res → M.timedOut op = some res := by
    intro t p hp u op res hu
    by_cases hut : u = t
    · subst hut
      rw [Function.update_self] at hu
      exact hp op res hu
    · rw [Function.update_of_ne hut] at hu
      exact hlate u op res hu
  cases move_of_step hs with
  | call hp => exact ⟨hruns, hother (fun _ _ h => by cases h)⟩
  | @returns t op res d signal wakes pc hp ht hsig =>
    refine ⟨.turn hruns ht, ?_⟩
    have hidle := hother (t := t) (p := .idle) (fun _ _ h => by cases h)
    rcases signalled_cases hsig with ⟨rfl, -⟩ | ⟨u, op', c, -, hu, rfl⟩
    · exact hidle
    · intro v op res hv
      by_cases hvu : v = u
      · subst hvu
        simp only [Function.update_self] at hv
        cases hv
      · simp only [Function.update_of_ne hvu] at hv
        exact hidle v op res hv
  | waits hp ht => exact ⟨hruns, hother (fun _ _ h => by cases h)⟩
  | late hp => exact ⟨.timedOut hruns (hlate _ _ _ hp), hother (fun _ _ h => by cases h)⟩
  | wake hp => exact ⟨hruns, hother (fun _ _ h => by cases h)⟩
  | timeOut hp ht =>
    refine ⟨hruns, hother (fun op res h => ?_)⟩
    cases h
    exact ht

omit [DecidableEq τ] in
theorem mem_awake : t ∈ awake s c ↔ (s.pc t).wokenOn = some c := by
  simp [awake]

/-- A waiting thread came to wait for its condition; where one waits, no more is available than threads are awake for it. -/
structure NoLost (M : Spec σ Op Res Cond) (c : Cond) (avail : σ → Nat) (s : State τ σ Op Res Cond) : Prop where
  came : ∀ t op, s.pc t = .blocked op c ∨ s.pc t = .woken op c → ∃ d, M.turn op d = .waits c
  enough : (∃ t, (s.pc t).blockedOn = some c) → avail s.data ≤ (awake s c).card

/-- A thread that changes its place without a turn loses no wake-up. -/
theorem NoLost.moved {p : Pc Op Res Cond} {l : List (Op × Res)} (h : NoLost M c avail s)
    (hcame : ∀ op, p = .blocked op c ∨ p = .woken op c → ∃ d, M.turn op d = .waits c) (hp : p.blockedOn ≠ some c)
    (hkeep : (s.pc t).wokenOn = some c → p.wokenOn = some c) :
    NoLost M c avail { data := s.data, pc := Function.update s.pc t p, history := l } := by
  refine ⟨fun u op hu => ?_, ?_⟩
  · by_cases hut : u = t
    · subst hut
      simp only [Function.update_self] at hu
      exact hcame op hu
    · simp only [Function.update_of_ne hut] at hu
      exact h.came u op hu
  · rintro ⟨u, hu⟩
    have hut : u ≠ t := by
      rintro rfl
      simp only [Function.update_self] at hu
      exact hp hu
    simp only [Function.update_of_ne hut] at hu
    refine (h.enough ⟨u, hu⟩).trans (Finset.card_le_card fun v hv => ?_)
    rw [mem_awake] at hv ⊢
    by_cases hvt : v = t
    · subst hvt
      simp only [Function.update_self]
      exact hkeep hv
    · simp only [Function.update_of_ne hvt]
      exact hv

/-- **A turn that returns loses no wake-up.** -/
theorem NoLost.returned {d : σ} (hM : Signals M c avail) (h : NoLost M c avail s) (hp : TurnOf (s.pc t) op)
    (ht : M.turn op s.data = .returns res d signal) (hs : signalled (Function.update s.pc t .idle) signal wakes = some pc') :
    NoLost M c avail { data := d, pc := pc', history := (op, res) :: s.history } := by
  have hidle : ∀ u, (Function.update s.pc t .idle u).blockedOn = some c → (s.pc u).blockedOn = some c := by
    intro u hu
    by_cases hut : u = t
    · subst hut
      rw [Function.update_self] at hu
      cases hu
    · rwa [Function.update_of_ne hut] at hu
  -- a thread that was awake takes something, any other makes no more available than it signals
  have hleft : (∃ u, (s.pc u).blockedOn = some c) → avail d ≤ ((awake s c).erase t).card ∨
      signal = some c ∧ avail d ≤ ((awake s c).erase t).card + 1 := by
    intro hb
    have henough := h.enough hb
    by_cases hta : t ∈ awake s c
    · obtain ⟨d₀, hd₀⟩ : ∃ d, M.turn op d = .waits c := by
        rw [mem_awake] at hta
        rcases hp with hp | ⟨c', hp⟩
        · rw [hp] at hta
          cases hta
        · rw [hp] at hta
          cases hta
          exact h.came t op (.inr hp)
      have htakes := hM.takes op d₀ s.data res d signal hd₀ ht
      have herase := Finset.card_erase_add_one hta
      exact .inl (by omega)
    · rw [Finset.erase_eq_of_notMem hta]
      rcases hM.raises op s.data res d signal ht with hr | ⟨hs, hr⟩
      · exact .inl (hr.trans henough)
      · exact .inr ⟨hs, by omega⟩
  have hcame : ∀ u op', Function.update s.pc t .idle u = .blocked op' c ∨ Function.update s.pc t .idle u = .woken op' c →
      ∃ d, M.turn op' d = .waits c := by
    intro u op' hu
    by_cases hut : u = t
    · subst hut
      rw [Function.update_self] at hu
      rcases hu with hu | hu <;> cases hu
    · rw [Function.update_of_ne hut] at hu
      exact h.came u op' hu
  have hstill : ∀ u ∈ (awake s c).erase t, (Function.update s.pc t .idle u).wokenOn = some c := by
    intro u hu
    rw [Finset.mem_erase, mem_awake] at hu
    rw [Function.update_of_ne hu.1]
    exact hu.2
  rcases signalled_cases hs with ⟨rfl, hnone⟩ | ⟨v, op', c', hc', hv, rfl⟩
  · refine ⟨hcame, ?_⟩
    rintro ⟨u, hu⟩
    rcases hleft ⟨u, hidle u hu⟩ with hle | ⟨hs, -⟩
    · exact hle.trans (Finset.card_le_card fun w hw => mem_awake.2 (hstill w hw))
    · exact absurd hu (hnone c hs u)
  · refine ⟨fun u op hu => ?_, ?_⟩
    · by_cases huv : u = v
      · subst huv
        simp only [Function.update_self, reduceCtorEq, false_or] at hu
        cases hu
        exact hcame u _ (.inl hv)
      · simp only [Function.update_of_ne huv] at hu
        exact hcame u op hu
    · rintro ⟨u, hu⟩
      have huv : u ≠ v := by
        rintro rfl
        simp only [Function.update_self] at hu
        cases hu
      simp only [Function.update_of_ne huv] at hu
      have hvA : v ∉ (awake s c).erase t := fun hmem => by
        have := hstill v hmem
        rw [hv] at this
        cases this
      have hmem : ∀ w ∈ (awake s c).erase t, (Function.update (Function.update s.pc t .idle) v (.woken op' c') w).wokenOn
          = some c := by
        intro w hw
        have hwv : w ≠ v := by
          rintro rfl
          exact hvA hw
        rw [Function.update_of_ne hwv]
        exact hstill w hw
      rcases hleft ⟨u, hidle u hu⟩ with hle | ⟨hs, hle⟩
      · exact hle.trans (Finset.card_le_card fun w hw => mem_awake.2 (hmem w hw))
      · rw [hs] at hc'
        cases hc'
        -- the thread that is woken is one more
        rw [← Finset.card_insert_of_notMem hvA] at hle
        refine hle.trans (Finset.card_le_card fun w hw => mem_awake.2 ?_)
        rcases Finset.mem_insert.1 hw with rfl | hw
        · simp only [Function.update_self]
          rfl
        · exact hmem w hw

/-- **No wake-up is lost**: while a thread waits for the condition, at least as many are awake as could go on. -/
theorem noLost_of_reach (hM : Signals M c avail) (h : Reach (step M) (fun _ _ => True) (start d₀ : State τ σ Op Res Cond) s) :
    NoLost M c avail s := by
  have hidle : ∀ {p : Pc Op Res Cond} {op : Op}, p = .idle → ¬ (p = .blocked op c ∨ p = .woken op c) := by
    rintro _ op rfl (h | h) <;> cases h
  refine h.inv (I := NoLost M c avail) ⟨fun _ _ h => absurd h (hidle rfl), fun h => ?_⟩ ?_
  · obtain ⟨_, h⟩ := h
    cases h
  intro s a s' hN _ hs
  cases move_of_step hs with
  | call hp => exact hN.moved (fun _ h => (by rcases h with h | h <;> cases h)) (fun h => by cases h) (fun h => by
      rw [hp] at h
      cases h)
  | returns hp ht hsig => exact hN.returned hM hp ht hsig
  | @waits t op c' hp ht =>
    by_cases hc : c' = c
    · -- what the thread waits for is not there
      subst hc
      refine ⟨fun u op' hu => ?_, fun _ => ?_⟩
      · by_cases hut : u = t
        · subst hut
          simp only [Function.update_self, reduceCtorEq, or_false] at hu
          cases hu
          exact ⟨_, ht⟩
        · simp only [Function.update_of_ne hut] at hu
          exact hN.came u op' hu
      · rw [hM.waits op s.data ht]
        exact Nat.zero_le _
    · refine hN.moved (fun op' h => ?_) (fun h => hc (Option.some.inj h)) (fun hw => ?_)
      · rcases h with h | h <;> cases h
        exact absurd rfl hc
      · rcases hp with hp | ⟨c'', hp⟩
        · rw [hp] at hw
          cases hw
        · rw [hp] at hw
          cases hw
          obtain ⟨d, hd⟩ := hN.came t op (.inr hp)
          exact absurd (hM.stays op d s.data c' hd ht) hc
  | @late t op res hp =>
    exact hN.moved (fun _ h => (by rcases h with h | h <;> cases h)) (fun h => by cases h) (fun h => by
      rw [hp] at h
      cases h)
  | @wake t op c' hp =>
    refine hN.moved (fun op' h => ?_) (fun h => by cases h) (fun h => ?_)
    · rcases h with h | h <;> cases h
      exact hN.came t op (.inl hp)
    · rw [hp] at h
      cases h
  | @timeOut t op c' res hp ht =>
    exact hN.moved (fun _ h => (by rcases h with h | h <;> cases h)) (fun h => by cases h) (fun h => by
      rw [hp] at h
      cases h)

end Steps

section Refines

variable {σ' : Type} {M : Spec σ Op Res Cond} {M' : Spec σ' Op Res Cond} {f : σ → σ'} {d₀ d : σ} {c : Cond}

/-- The operations of `M` do to what `f` sees of the data what those of `M'` do. -/
structure Refines (M : Spec σ Op Res Cond) (M' : Spec σ' Op Res Cond) (f : σ → σ') : Prop where
  returns : ∀ op d res d' signal, M.turn op d = .returns res d' signal → M'.turn op (f d) = .returns res (f d') signal
  waits : ∀ op d c, M.turn op d = .waits c → M'.turn op (f d) = .waits c
  timedOut : ∀ op, M'.timedOut op = M.timedOut op

theorem Refines.runs (hf : Refines M M' f) {l : List (Op × Res)} (h : Runs M d₀ l d) : Runs M' (f d₀) l (f d) := by
  induction h with
  | nil => exact .nil
  | turn _ ht ih => exact .turn ih (hf.returns _ _ _ _ _ ht)
  | timedOut _ ht ih => exact .timedOut ih ((hf.timedOut _).trans ht)

theorem Refines.signals (hf : Refines M M' f) {avail : σ' → Nat} (h : Signals M' c avail) :
    Signals M c (fun d => avail (f d)) where
  waits op d ht := h.waits op (f d) (hf.waits op d c ht)
  raises op d res d' signal ht := h.raises op (f d) res (f d') signal (hf.returns op d res d' signal ht)
  takes op d₀ d res d' signal hw ht :=
    h.takes op (f d₀) (f d) res (f d') signal (hf.waits op d₀ c hw) (hf.returns op d res d' signal ht)
  stays op d₀ d c' hw ht := h.stays op (f d₀) (f d) c' (hf.waits op d₀ c hw) (hf.waits op d c' ht)

end Refines

end Monitor
