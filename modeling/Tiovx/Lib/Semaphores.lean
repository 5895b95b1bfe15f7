import Tiovx.Lib.Monitor
/-!
# Lib.Semaphores — operations in critical sections, with binary semaphores

The turns are those of a monitor, each in a critical section.  A turn that signals a condition posts its semaphore after the
section, and one that waits pends on it after the section; others may come in between.  A semaphore counts to one, so two posts
may wake one thread only.

The sections are a run of operations one after the other.  Where one thread alone waits for a condition, its wake-up is not lost.
-/
namespace Semaphores

open StepSystem Monitor

/-- Where a thread stands: `posting` is past its section and returns after the post, `pending` wants the semaphore. -/
inductive Pc (Op Cond : Type)
  | idle
  | ready (op : Op)
  | posting (cond : Cond)
  | pending (op : Op) (cond : Cond)

/-- The data, the semaphores, the threads, and the operations that took effect, the last one first. -/
structure State (τ σ Op Res Cond : Type) where
  data : σ
  posted : Cond → Bool
  pc : τ → Pc Op Cond
  history : List (Op × Res)

inductive Act (τ Op : Type)
  | call (t : τ) (op : Op)
  | turn (t : τ)
  | post (t : τ)
  | pend (t : τ)
  | timeOut (t : τ)

variable {τ σ Op Res Cond : Type}

section Step

variable [DecidableEq τ] [DecidableEq Cond]

/-- The section of thread `t` in operation `op`. -/
def takeTurn (M : Spec σ Op Res Cond) (s : State τ σ Op Res Cond) (t : τ) (op : Op) : State τ σ Op Res Cond :=
  match M.turn op s.data with
  | .returns res data none => { s with
      data := data
      pc := Function.update s.pc t .idle
      history := (op, res) :: s.history }
  | .returns res data (some c) => { s with
      data := data
      pc := Function.update s.pc t (.posting c)
      history := (op, res) :: s.history }
  | .waits c => { s with pc := Function.update s.pc t (.pending op c) }

def step (M : Spec σ Op Res Cond) (s : State τ σ Op Res Cond) : Act τ Op → Option (State τ σ Op Res Cond)
  | .call t op =>
    match s.pc t with
    | .idle => some { s with pc := Function.update s.pc t (.ready op) }
    | _ => none
  | .turn t =>
    match s.pc t with
    | .ready op => some (takeTurn M s t op)
    | _ => none
  | .post t =>
    match s.pc t with
    | .posting c => some { s with posted := Function.update s.posted c true, pc := Function.update s.pc t .idle }
    | _ => none
  | .pend t =>
    match s.pc t with
    | .pending op c =>
      if s.posted c then some { s with posted := Function.update s.posted c false, pc := Function.update s.pc t (.ready op) }
      else none
    | _ => none
  | .timeOut t =>
    match s.pc t with
    | .pending op _ =>
      (M.timedOut op).map fun res => { s with pc := Function.update s.pc t .idle, history := (op, res) :: s.history }
    | _ => none

/-- Nobody has called yet, and no semaphore is posted. -/
def start (data : σ) : State τ σ Op Res Cond :=
  { data := data, posted := fun _ => false, pc := fun _ => .idle, history := [] }

end Step

section Steps

variable [DecidableEq τ] [DecidableEq Cond]

/-- **What a step does.** -/
inductive Move (M : Spec σ Op Res Cond) (s : State τ σ Op Res Cond) : Act τ Op → State τ σ Op Res Cond → Prop
  | call {t op} (h : s.pc t = .idle) : Move M s (.call t op) { s with pc := Function.update s.pc t (.ready op) }
  | returns {t op res d signal p} (h : s.pc t = .ready op) (ht : M.turn op s.data = .returns res d signal)
      (hp : p = signal.elim .idle .posting) :
      Move M s (.turn t) { s with data := d, pc := Function.update s.pc t p, history := (op, res) :: s.history }
  | waits {t op c} (h : s.pc t = .ready op) (ht : M.turn op s.data = .waits c) :
      Move M s (.turn t) { s with pc := Function.update s.pc t (.pending op c) }
  | post {t c} (h : s.pc t = .posting c) :
      Move M s (.post t) { s with posted := Function.update s.posted c true, pc := Function.update s.pc t .idle }
  | pend {t op c} (h : s.pc t = .pending op c) (hc : s.posted c = true) :
      Move M s (.pend t) { s with posted := Function.update s.posted c false, pc := Function.update s.pc t (.ready op) }
  | timeOut {t op c res} (h : s.pc t = .pending op c) (ht : M.timedOut op = some res) :
      Move M s (.timeOut t) { s with pc := Function.update s.pc t .idle, history := (op, res) :: s.history }

variable {M : Spec σ Op Res Cond} {s s' : State τ σ Op Res Cond} {a : Act τ Op} {d₀ : σ} {t : τ} {c : Cond} {avail : σ → Nat}

theorem move_of_step (h : step M s a = some s') : Move M s a s' := by
  unfold step at h
  cases a with
  | call t op =>
    simp only at h
    split at h
    · rename_i hp
      cases h
      exact .call hp
    · cases h
  | turn t =>
    simp only at h
    split at h
    · rename_i op hp
      cases h
      unfold takeTurn
      split
      · rename_i ht
        exact .returns hp ht rfl
      · rename_i ht
        exact .returns hp ht rfl
      · rename_i ht
        exact .waits hp ht
    · cases h
  | post t =>
    simp only at h
    split at h
    · rename_i hp
      cases h
      exact .post hp
    · cases h
  | pend t =>
    simp only at h
    split at h
    · rename_i hp
      split at h
      · rename_i hc
        cases h
        exact .pend hp hc
      · cases h
    · cases h
  | timeOut t =>
    simp only at h
    split at h
    · rename_i hp
      obtain ⟨res, hr, rfl⟩ := Option.map_eq_some_iff.1 h
      exact .timeOut hp hr
    · cases h

/-- **The operations that took effect are a run of the operations one after the other.** -/
theorem runs_of_reach (h : Reach (step M) (fun _ _ => True) (start d₀ : State τ σ Op Res Cond) s) :
    Runs M d₀ s.history s.data := by
  refine h.inv (I := fun s => Runs M d₀ s.history s.data) .nil (fun s a s' hruns _ hs => ?_)
  cases move_of_step hs with
  | call => exact hruns
  | returns _ ht => exact .turn hruns ht
  | waits => exact hruns
  | post => exact hruns
  | pend => exact hruns
  | timeOut _ ht => exact .timedOut hruns ht

/-- A thread that pends on a semaphore came from a turn that waits for its condition. -/
theorem came_of_reach (h : Reach (step M) (fun _ _ => True) (start d₀ : State τ σ Op Res Cond) s) :
    ∀ t op c, s.pc t = .pending op c → ∃ d, M.turn op d = .waits c := by
  refine h.inv (I := fun s => ∀ t op c, s.pc t = .pending op c → ∃ d, M.turn op d = .waits c) (fun _ _ _ h => by cases h) ?_
  intro s a s' hcame _ hs
  have hother : ∀ {u : τ} {p : Pc Op Cond}, (∀ op c, p = .pending op c → ∃ d, M.turn op d = .waits c) →
      ∀ t op c, Function.update s.pc u p t = .pending op c → ∃ d, M.turn op d = .waits c := fun hp =>
    (Function.forall_update_iff s.pc fun _ p => ∀ op c, p = .pending op c → ∃ d, M.turn op d = .waits c).2
      ⟨hp, fun t _ => hcame t⟩
  cases move_of_step hs with
  | call => exact hother (fun _ _ h => by cases h)
  | @returns u op res d signal p _ _ hp =>
    refine hother (fun op' c h => ?_)
    cases signal <;> cases hp <;> cases h
  | waits _ ht =>
    refine hother (fun op' c h => ?_)
    cases h
    exact ⟨_, ht⟩
  | post => exact hother (fun _ _ h => by cases h)
  | pend => exact hother (fun _ _ h => by cases h)
  | timeOut => exact hother (fun _ _ h => by cases h)

/-- No thread can go on; only a new call or the end of a timed wait is left. -/
def AtRest (M : Spec σ Op Res Cond) (s : State τ σ Op Res Cond) : Prop :=
  ∀ t, step M s (.turn t) = none ∧ step M s (.post t) = none ∧ step M s (.pend t) = none

/-- No other thread than `t` calls an operation that may wait for `c`. -/
def OnlyWaiter (M : Spec σ Op Res Cond) (c : Cond) (t : τ) : State τ σ Op Res Cond → Act τ Op → Prop
  | _, .call u op => u = t ∨ ∀ d, M.turn op d ≠ .waits c
  | _, _ => True

/-- Where thread `t` pends on `c`, nothing is there for it, or the semaphore is posted or about to be. -/
structure Served (M : Spec σ Op Res Cond) (c : Cond) (t : τ) (avail : σ → Nat) (s : State τ σ Op Res Cond) : Prop where
  alone : ∀ u op, u ≠ t → s.pc u = .ready op → ∀ d, M.turn op d ≠ .waits c
  others : ∀ u op e, u ≠ t → s.pc u = .pending op e → e ≠ c ∧ ∀ d, M.turn op d ≠ .waits c
  served : ∀ op, s.pc t = .pending op c → avail s.data = 0 ∨ s.posted c = true ∨ ∃ u, s.pc u = .posting c

omit [DecidableEq τ] [DecidableEq Cond] in
theorem served_start : Served M c t avail (start d₀ : State τ σ Op Res Cond) where
  alone := fun _ _ _ h => by cases h
  others := fun _ _ _ _ h => by cases h
  served := fun _ h => by cases h

namespace Served

variable {u : τ} {p : Pc Op Cond}

omit [DecidableEq Cond] in
/-- A thread moves, and what is there for `t`, and who is about to post, stays. -/
theorem moved (h : Served M c t avail s) (hready : u ≠ t → ∀ op, p = .ready op → ∀ d, M.turn op d ≠ .waits c)
    (hpending : u ≠ t → ∀ op e, p = .pending op e → e ≠ c ∧ ∀ d, M.turn op d ≠ .waits c)
    (hpc : s'.pc = Function.update s.pc u p)
    (hserved : ∀ op, s'.pc t = .pending op c → avail s'.data = 0 ∨ s'.posted c = true ∨ ∃ v, s'.pc v = .posting c) :
    Served M c t avail s' := by
  refine ⟨fun v op hv => ?_, fun v op e hv => ?_, hserved⟩
  · rw [hpc]
    exact (Function.forall_update_iff s.pc fun v p => v ≠ t → ∀ op, p = .ready op → ∀ d, M.turn op d ≠ .waits c).2
      ⟨hready, fun v _ hv op => h.alone v op hv⟩ v hv op
  · rw [hpc]
    exact (Function.forall_update_iff s.pc fun v p => v ≠ t → ∀ op e, p = .pending op e →
      e ≠ c ∧ ∀ d, M.turn op d ≠ .waits c).2 ⟨hpending, fun v _ hv op e => h.others v op e hv⟩ v hv op e

omit [DecidableEq Cond] in
/-- A thread that is about to post still is, where another one moves. -/
theorem posting_of (h : ∃ v, s.pc v = .posting c) (hu : s.pc u ≠ .posting c) :
    ∃ v, Function.update s.pc u p v = .posting c := by
  obtain ⟨v, hv⟩ := h
  refine ⟨v, ?_⟩
  rw [Function.update_of_ne]
  · exact hv
  · rintro rfl
    exact hu hv

omit [DecidableEq Cond] in
/-- Where thread `u` moves and does not come to pend, a thread that pends did so before. -/
theorem pending_before {op : Op} (hp : ∀ op, p ≠ .pending op c) (h : Function.update s.pc u p t = .pending op c) :
    t ≠ u ∧ s.pc t = .pending op c := by
  have hut : t ≠ u := by
    rintro rfl
    rw [Function.update_self] at h
    exact hp op h
  rw [Function.update_of_ne hut] at h
  exact ⟨hut, h⟩

omit [DecidableEq Cond] in
/-- What serves `t` still does, where a thread moves that was not about to post. -/
theorem still {op : Op} (h : Served M c t avail s) (hu : s.pc u ≠ .posting c) (ht : s.pc t = .pending op c) :
    avail s.data = 0 ∨ s.posted c = true ∨ ∃ v, Function.update s.pc u p v = .posting c :=
  (h.served op ht).imp id (Or.imp id fun hpost => posting_of hpost hu)

theorem step (hM : Signals M c avail) (h : Served M c t avail s) (hc : OnlyWaiter M c t s a)
    (hs : Semaphores.step M s a = some s') : Served M c t avail s' := by
  cases move_of_step hs with
  | @call u op hp =>
    refine h.moved (fun hne op' hop => ?_) (fun _ _ _ hop => by cases hop) rfl (fun op' hop => ?_)
    · cases hop
      exact hc.resolve_left hne
    · obtain ⟨-, hop⟩ := pending_before (fun _ h => by cases h) hop
      exact h.still (by rw [hp]; exact fun h => by cases h) hop
  | @returns u op res d signal p hp ht hsig =>
    have hidle : ∀ op, (∀ e, p ≠ .pending op e) ∧ p ≠ .ready op := by
      subst hsig
      cases signal <;> exact fun op => ⟨fun e h => (by cases h), fun h => by cases h⟩
    refine h.moved (fun _ op' hop => absurd hop (hidle op').2) (fun _ op' e hop => absurd hop ((hidle op').1 e)) rfl
      (fun op' hop => ?_)
    obtain ⟨-, hop⟩ := pending_before (fun op => (hidle op).1 c) hop
    rcases hM.raises op s.data res d signal ht with hle | ⟨rfl, -⟩
    · refine (h.still (by rw [hp]; exact fun h => by cases h) hop).imp (fun h0 => ?_) id
      change avail d = 0
      omega
    · -- the signal is still to be posted
      refine .inr (.inr ⟨u, ?_⟩)
      simp only [Function.update_self, hsig, Option.elim_some]
  | @waits u op e hp ht =>
    refine h.moved (fun _ _ hop => by cases hop) (fun hne op' e' hop => ?_) rfl (fun op' hop => ?_)
    · cases hop
      have hnever := h.alone u op hne hp
      exact ⟨fun heq => hnever s.data (heq ▸ ht), hnever⟩
    · by_cases hec : e = c
      · -- what the thread waits for is not there
        subst hec
        exact .inl (hM.waits op s.data ht)
      · obtain ⟨-, hop⟩ := pending_before (fun _ h => hec (Pc.pending.inj h).2) hop
        exact h.still (by rw [hp]; exact fun h => by cases h) hop
  | @post u e hp =>
    refine h.moved (fun _ _ hop => by cases hop) (fun _ _ _ hop => by cases hop) rfl (fun op' hop => ?_)
    obtain ⟨-, hop⟩ := pending_before (fun _ h => by cases h) hop
    by_cases hec : e = c
    · subst hec
      exact .inr (.inl (Function.update_self ..))
    · refine (h.still (by rw [hp]; exact fun h => hec (Pc.posting.inj h)) hop).imp id (Or.imp (fun hpost => ?_) id)
      simp only [Function.update_of_ne (Ne.symm hec)]
      exact hpost
  | @pend u op e hp he =>
    refine h.moved (fun hne op' hop => ?_) (fun _ _ _ hop => by cases hop) rfl (fun op' hop => ?_)
    · cases hop
      exact (h.others u op e hne hp).2
    · obtain ⟨hut, hop⟩ := pending_before (fun _ h => by cases h) hop
      have hec : e ≠ c := (h.others u op e (Ne.symm hut) hp).1
      refine (h.still (by rw [hp]; exact fun h => by cases h) hop).imp id (Or.imp (fun hpost => ?_) id)
      simp only [Function.update_of_ne (Ne.symm hec)]
      exact hpost
  | @timeOut u op e res hp ht =>
    refine h.moved (fun _ _ hop => by cases hop) (fun _ _ _ hop => by cases hop) rfl (fun op' hop => ?_)
    obtain ⟨-, hop⟩ := pending_before (fun _ h => by cases h) hop
    exact h.still (by rw [hp]; exact fun h => by cases h) hop

/-- Where all threads rest, a thread that pends is right to. -/
theorem nothing_of_atRest {op : Op} (h : Served M c t avail s) (hp : s.pc t = .pending op c) (hr : AtRest M s) :
    avail s.data = 0 := by
  rcases h.served op hp with h0 | hpost | ⟨u, hu⟩
  · exact h0
  · have hpend := (hr t).2.2
    simp [Semaphores.step, hp, hpost] at hpend
  · have hpost := (hr u).2.1
    simp [Semaphores.step, hu] at hpost

end Served

/-- **The wake-up of the only thread that waits is not lost.** -/
theorem served_of_reach (hM : Signals M c avail) (h : Reach (step M) (OnlyWaiter M c t) (start d₀ : State τ σ Op Res Cond) s) :
    Served M c t avail s :=
  h.inv served_start fun _ _ _ hS hc hs => hS.step hM hc hs

end Steps

end Semaphores
