import Tiovx.CmdObjects
import Tiovx.Lib.Monitor
/-!
# PosixQueue — queues and events between threads (`tivx_queue.c`, `tivx_event.c` of POSIX)

A queue is a ring of words with a lock and two conditions, an event a flag with a lock and one.  Any number of threads call
the operations; one that has to wait gives up the lock.  A wait for an element may be timed; one for room may not, whatever
the timeout says.
-/
namespace Tiovx

open StepSystem Monitor

namespace TivxQueue

/-- `TIVX_QUEUE_FLAG_BLOCK_ON_GET` and `TIVX_QUEUE_FLAG_BLOCK_ON_PUT`. -/
structure Flags where
  blockOnGet : Bool := true
  blockOnPut : Bool := true

/-- `condGet` and `condPut` of `tivx_queue_context`. -/
inductive Cond
  | condGet
  | condPut
deriving DecidableEq

inductive Op (α : Type)
  | put (data : α) (timeout : Timeout)
  | get (timeout : Timeout)
  | isEmpty
  | peek

/-- What an operation returns: a status and what is written to `data`, or a flag. -/
inductive Res (α : Type)
  | status (status : Int) (data : Option α)
  | isEmpty (isEmpty : Bool)

variable {α : Type} {n : Nat}

/-- A turn of `tivxQueuePut`. -/
def tivxQueuePut (F : Flags) (q : RingQueue α n) (data : α) (timeout : Timeout) : Turn (RingQueue α n) (Res α) Cond :=
  match q.push data with
  | some q' => .returns (.status vxSuccess none) q' (if F.blockOnGet then some .condGet else none)
  | none =>
    if timeout = .noWait then .returns (.status vxFailure none) q none
    else if F.blockOnPut then .waits .condPut
    else .returns (.status vxFailure none) q none

/-- A turn of `tivxQueueGet`. -/
def tivxQueueGet (F : Flags) (q : RingQueue α n) (timeout : Timeout) : Turn (RingQueue α n) (Res α) Cond :=
  match q.pop with
  | some (data, q') => .returns (.status vxSuccess (some data)) q' (if F.blockOnPut then some .condPut else none)
  | none =>
    if timeout = .noWait then .returns (.status vxFailure none) q none
    else if F.blockOnGet then .waits .condGet
    else .returns (.status vxFailure none) q none

/-- `tivxQueueIsEmpty`. -/
def tivxQueueIsEmpty (q : RingQueue α n) : Turn (RingQueue α n) (Res α) Cond := .returns (.isEmpty (q.count == 0)) q none

/-- `tivxQueuePeek`. -/
def tivxQueuePeek (q : RingQueue α n) : Turn (RingQueue α n) (Res α) Cond :=
  match q.pop with
  | some (data, _) => .returns (.status vxSuccess (some data)) q none
  | none => .returns (.status vxFailure none) q none

/-- A timed wait for an element ends without another look at the queue. -/
def timedOut : Op α → Option (Res α)
  | .get .finite => some (.status vxErrorTimeout none)
  | _ => none

def turn (F : Flags) : Op α → RingQueue α n → Turn (RingQueue α n) (Res α) Cond
  | .put data timeout, q => tivxQueuePut F q data timeout
  | .get timeout, q => tivxQueueGet F q timeout
  | .isEmpty, q => tivxQueueIsEmpty q
  | .peek, q => tivxQueuePeek q

/-- A queue of `n` words, as the threads use it. -/
def queue (n : Nat) (F : Flags) : Spec (RingQueue α n) (Op α) (Res α) Cond := ⟨turn F, timedOut⟩

/-- **What a queue is for**: a list of at most `n` words, of which the oldest is taken first. -/
def fifoTurn (n : Nat) (F : Flags) : Op α → List α → Turn (List α) (Res α) Cond
  | .put data timeout, l =>
    if l.length < n then .returns (.status vxSuccess none) (l ++ [data]) (if F.blockOnGet then some .condGet else none)
    else if timeout = .noWait ∨ F.blockOnPut = false then .returns (.status vxFailure none) l none
    else .waits .condPut
  | .get _, data :: l => .returns (.status vxSuccess (some data)) l (if F.blockOnPut then some .condPut else none)
  | .get timeout, [] =>
    if timeout = .noWait ∨ F.blockOnGet = false then .returns (.status vxFailure none) [] none else .waits .condGet
  | .isEmpty, l => .returns (.isEmpty l.isEmpty) l none
  | .peek, data :: l => .returns (.status vxSuccess (some data)) (data :: l) none
  | .peek, [] => .returns (.status vxFailure none) [] none

def fifo (n : Nat) (F : Flags) : Spec (List α) (Op α) (Res α) Cond := ⟨fifoTurn n F, timedOut⟩

/-- The word a finished operation has put. -/
def acceptedBy : Op α → Res α → Option α
  | .put data _, .status s _ => if s = vxSuccess then some data else none
  | _, _ => none

/-- The word a finished operation has taken. -/
def takenBy : Op α → Res α → Option α
  | .get _, .status s data => if s = vxSuccess then data else none
  | _, _ => none

/-- The words that were put, in their order. -/
def accepted (history : List (Op α × Res α)) : List α := history.reverse.filterMap fun x => acceptedBy x.1 x.2

/-- The words that were taken, in their order. -/
def taken (history : List (Op α × Res α)) : List α := history.reverse.filterMap fun x => takenBy x.1 x.2

section Fifo

variable {F : Flags} {τ : Type} [DecidableEq τ] [Fintype τ]

/-- A turn on the ring is one on the list of its words. -/
theorem fifoTurn_toList (op : Op α) (q : RingQueue α n) : fifoTurn n F op q.toList = (turn F op q).map RingQueue.toList := by
  cases op with
  | put data timeout =>
    simp only [turn, tivxQueuePut]
    cases hp : q.push data with
    | some q₁ =>
      have hlt : q.toList.length < n := by
        refine Nat.lt_of_le_of_ne (by rw [RingQueue.length_toList]; exact q.count_le) fun he => ?_
        rw [(q.push_eq_none_iff data).2 he] at hp
        cases hp
      simp only [fifoTurn, if_pos hlt, Turn.map, q.toList_push data _ hp]
    | none =>
      have hfull := (q.push_eq_none_iff data).1 hp
      by_cases ht : timeout = .noWait
      · simp [fifoTurn, hfull, ht, Turn.map]
      · cases hb : F.blockOnPut <;> simp [fifoTurn, hfull, ht, hb, Turn.map]
  | get timeout =>
    simp only [turn, tivxQueueGet]
    cases hp : q.pop with
    | some x =>
      rw [q.toList_pop x.1 x.2 hp]
      rfl
    | none =>
      have hnil := q.pop_eq_none_iff.1 hp
      by_cases ht : timeout = .noWait
      · simp [fifoTurn, hnil, ht, Turn.map]
      · cases hb : F.blockOnGet <;> simp [fifoTurn, hnil, ht, hb, Turn.map]
  | isEmpty =>
    have hiff := q.toList_eq_nil_iff
    simp only [fifoTurn, turn, tivxQueueIsEmpty, Turn.map, Turn.returns.injEq, Res.isEmpty.injEq, and_self, and_true]
    rw [Bool.eq_iff_iff, List.isEmpty_iff, hiff, beq_iff_eq]
  | peek =>
    simp only [turn, tivxQueuePeek]
    cases hp : q.pop with
    | some x =>
      rw [q.toList_pop x.1 x.2 hp]
      simp only [fifoTurn, Turn.map, q.toList_pop x.1 x.2 hp]
    | none =>
      rw [q.pop_eq_none_iff.1 hp]
      simp only [fifoTurn, Turn.map, q.pop_eq_none_iff.1 hp]

theorem fifoTurn_of_turn {op : Op α} {q q' : RingQueue α n} {res : Res α} {signal : Option Cond}
    (h : turn F op q = .returns res q' signal) : fifoTurn n F op q.toList = .returns res q'.toList signal := by
  rw [fifoTurn_toList, h]
  rfl

theorem fifoTurn_of_waits {op : Op α} {q : RingQueue α n} {c : Cond} (h : turn F op q = .waits c) :
    fifoTurn n F op q.toList = .waits c := by
  rw [fifoTurn_toList, h]
  rfl

theorem accepted_cons (op : Op α) (res : Res α) (l : List (Op α × Res α)) :
    accepted ((op, res) :: l) = accepted l ++ (acceptedBy op res).toList := by
  simp only [accepted, List.reverse_cons, List.filterMap_append, List.filterMap_cons, List.filterMap_nil]
  cases acceptedBy op res <;> rfl

theorem taken_cons (op : Op α) (res : Res α) (l : List (Op α × Res α)) :
    taken ((op, res) :: l) = taken l ++ (takenBy op res).toList := by
  simp only [taken, List.reverse_cons, List.filterMap_append, List.filterMap_cons, List.filterMap_nil]
  cases takenBy op res <;> rfl

/-- **The ring is a bounded list.** -/
theorem queue_refines (n : Nat) (F : Flags) : Refines (queue n F : Spec _ (Op α) _ _) (fifo n F) RingQueue.toList where
  returns _ _ _ _ _ h := fifoTurn_of_turn h
  waits _ _ _ h := fifoTurn_of_waits h
  timedOut _ := rfl

/-- An operation that does not wait. -/
def NeverWaits (F : Flags) : Op α → Prop
  | .put _ timeout => timeout = .noWait ∨ F.blockOnPut = false
  | .get timeout => timeout = .noWait ∨ F.blockOnGet = false
  | _ => True

/-- **What a turn of the list does**, where it returns: it appends a word, takes the first, or changes nothing. -/
theorem fifoTurn_cases {op : Op α} {l l' : List α} {res : Res α} {signal : Option Cond}
    (h : fifoTurn n F op l = .returns res l' signal) :
    (∃ data timeout, op = .put data timeout ∧ l' = l ++ [data] ∧ l.length < n ∧ res = .status vxSuccess none ∧
      signal = if F.blockOnGet then some .condGet else none) ∨
    (∃ data timeout, op = .get timeout ∧ l = data :: l' ∧ res = .status vxSuccess (some data) ∧
      signal = if F.blockOnPut then some .condPut else none) ∨
    (l' = l ∧ signal = none ∧ acceptedBy op res = none ∧ takenBy op res = none ∧ NeverWaits F op) := by
  cases op with
  | put data timeout =>
    simp only [fifoTurn] at h
    split at h
    · rename_i hlt
      cases h
      exact .inl ⟨data, timeout, rfl, rfl, hlt, rfl, rfl⟩
    · split at h
      · rename_i hw
        cases h
        exact .inr (.inr ⟨rfl, rfl, rfl, rfl, hw⟩)
      · cases h
  | get timeout =>
    cases l with
    | nil =>
      simp only [fifoTurn] at h
      split at h
      · rename_i hw
        cases h
        exact .inr (.inr ⟨rfl, rfl, rfl, rfl, hw⟩)
      · cases h
    | cons data l =>
      cases h
      exact .inr (.inl ⟨data, timeout, rfl, rfl, rfl, rfl⟩)
  | isEmpty =>
    cases h
    exact .inr (.inr ⟨rfl, rfl, rfl, rfl, trivial⟩)
  | peek => cases l <;> cases h <;> exact .inr (.inr ⟨rfl, rfl, rfl, rfl, trivial⟩)

/-- **What a wait is for.** -/
theorem fifoTurn_waits {op : Op α} {l : List α} {c : Cond} (h : fifoTurn n F op l = .waits c) :
    (c = .condGet ∧ l = [] ∧ F.blockOnGet = true ∧ ∃ timeout, op = .get timeout ∧ timeout ≠ .noWait) ∨
      (c = .condPut ∧ n ≤ l.length ∧ F.blockOnPut = true ∧ ∃ data timeout, op = .put data timeout ∧ timeout ≠ .noWait) := by
  cases op with
  | put data timeout =>
    simp only [fifoTurn] at h
    split at h
    · cases h
    · rename_i hfull
      split at h
      · cases h
      · rename_i hw
        cases h
        simp only [not_or, Bool.not_eq_false] at hw
        exact .inr ⟨rfl, Nat.le_of_not_lt hfull, hw.2, data, timeout, rfl, hw.1⟩
  | get timeout =>
    cases l with
    | nil =>
      simp only [fifoTurn] at h
      split at h
      · cases h
      · rename_i hw
        cases h
        simp only [not_or, Bool.not_eq_false] at hw
        exact .inl ⟨rfl, rfl, hw.2, timeout, rfl, hw.1⟩
    | cons data l => cases h
  | isEmpty => cases h
  | peek => cases l <;> cases h

/-- A put signals one thread that waits for a word, for each word. -/
theorem signals_get (n : Nat) (F : Flags) :
    Signals (fifo n F : Spec _ (Op α) _ _) .condGet (fun l => if F.blockOnGet then l.length else 0) where
  waits op l h := by
    obtain ⟨-, rfl, -⟩ | ⟨h, -⟩ := fifoTurn_waits h
    · simp
    · cases h
  raises op l res l' signal h := by
    obtain ⟨data, _, -, rfl, -, -, rfl⟩ | ⟨data, _, -, rfl, -⟩ | ⟨rfl, -⟩ := fifoTurn_cases h
    · cases F.blockOnGet <;> simp
    · split <;> simp
    · exact .inl (Nat.le_refl _)
  takes op l₀ l res l' signal hw h := by
    obtain ⟨-, -, hb, t, rfl, ht⟩ | ⟨hc, -⟩ := fifoTurn_waits hw
    · obtain ⟨_, _, h, -⟩ | ⟨data, _, -, rfl, -⟩ | ⟨-, -, -, -, hn⟩ := fifoTurn_cases h
      · cases h
      · simp [hb]
      · rcases hn with h | h
        · exact absurd h ht
        · rw [hb] at h
          cases h
    · cases hc
  stays op l₀ l c' hw h := by
    obtain ⟨-, -, -, t, rfl, -⟩ | ⟨hc, -⟩ := fifoTurn_waits hw
    · obtain ⟨hc, -⟩ | ⟨-, -, -, _, _, ho, -⟩ := fifoTurn_waits h
      · exact hc
      · cases ho
    · cases hc

/-- A get signals one thread that waits for room. -/
theorem signals_put (n : Nat) (F : Flags) :
    Signals (fifo n F : Spec _ (Op α) _ _) .condPut (fun l => if F.blockOnPut then n - l.length else 0) where
  waits op l h := by
    obtain ⟨h, -⟩ | ⟨-, hfull, -⟩ := fifoTurn_waits h
    · cases h
    · simp only [Nat.sub_eq_zero_of_le hfull, ite_self]
  raises op l res l' signal h := by
    obtain ⟨data, _, -, rfl, -, -, rfl⟩ | ⟨data, _, -, rfl, -, rfl⟩ | ⟨rfl, -⟩ := fifoTurn_cases h
    · refine .inl ?_
      split
      · rw [List.length_append]
        omega
      · exact Nat.le_refl _
    · cases hb : F.blockOnPut
      · simp
      · refine .inr ⟨by simp, ?_⟩
        simp only [if_true, List.length_cons]
        omega
    · exact .inl (Nat.le_refl _)
  takes op l₀ l res l' signal hw h := by
    change fifoTurn n F op l = _ at h
    obtain ⟨hc, -⟩ | ⟨-, -, hb, d, t, rfl, ht⟩ := fifoTurn_waits hw
    · cases hc
    · obtain ⟨data, _, -, rfl, hlt, -⟩ | ⟨_, _, h, -⟩ | ⟨-, -, -, -, hn⟩ := fifoTurn_cases h
      · simp only [hb, if_true, List.length_append, List.length_singleton]
        omega
      · cases h
      · rcases hn with h | h
        · exact absurd h ht
        · rw [hb] at h
          cases h
  stays op l₀ l c' hw h := by
    change fifoTurn n F op l = _ at h
    obtain ⟨hc, -⟩ | ⟨-, -, -, d, t, rfl, -⟩ := fifoTurn_waits hw
    · cases hc
    · obtain ⟨-, -, -, _, ho, -⟩ | ⟨hc, -⟩ := fifoTurn_waits h
      · cases ho
      · exact hc

/-- What a run puts goes to the end of the list, what it takes comes from the front. -/
theorem accepted_of_runs {h : List (Op α × Res α)} {l : List α} (hr : Runs (fifo n F) [] h l) :
    accepted h = taken h ++ l := by
  induction hr with
  | nil => rfl
  | @turn h op res d d' signal _ ht ih =>
    rw [accepted_cons, taken_cons, ih]
    obtain ⟨data, t, rfl, rfl, -, rfl, -⟩ | ⟨data, t, rfl, rfl, rfl, -⟩ | ⟨rfl, -, ha, ht, -⟩ := fifoTurn_cases ht
    · simp [acceptedBy, takenBy]
    · simp [acceptedBy, takenBy]
    · simp [ha, ht]
  | @timedOut h op res d _ ht ih =>
    rw [accepted_cons, taken_cons, ih]
    change timedOut op = some res at ht
    unfold timedOut at ht
    split at ht
    · cases ht
      simp [acceptedBy, takenBy, vxErrorTimeout_ne]
    · cases ht

variable {s : State τ (RingQueue α n) (Op α) (Res α) Cond} {mem : Vector α n} {hn : 0 < n}

/-- **A queue between any threads is a bounded list.**  In whatever order the threads get the lock, the operations that have
returned are a run of the operations of the list; the words that were put are, in their order, those that were taken and those
that are in the ring. -/
theorem queue_linearizable (h : Reach (Monitor.step (queue n F)) (fun _ _ => True) (Monitor.start (.empty mem hn)) s) :
    Runs (fifo n F) [] s.history s.data.toList ∧ accepted s.history = taken s.history ++ s.data.toList := by
  have hruns := (queue_refines n F).runs (runs_of_reach h).1
  rw [RingQueue.toList_empty] at hruns
  exact ⟨hruns, accepted_of_runs hruns⟩

/-- A thread that waits for a condition waits because the queue was made for that. -/
def blocksOn (F : Flags) : Cond → Bool
  | .condGet => F.blockOnGet
  | .condPut => F.blockOnPut

omit [DecidableEq τ] in
theorem blocksOn_of_blocked {avail : RingQueue α n → Nat} {t : τ} {c : Cond} (h : NoLost (queue n F) c avail s)
    (ht : (s.pc t).blockedOn = some c) : blocksOn F c = true := by
  cases hp : s.pc t <;> rw [hp] at ht <;> cases ht
  obtain ⟨q, hq⟩ := h.came t _ (.inl hp)
  obtain ⟨rfl, -, hb, -⟩ | ⟨rfl, -, hb, -⟩ := fifoTurn_waits (fifoTurn_of_waits hq)
  · exact hb
  · exact hb

/-- **No wake-up of a queue is lost.**  While a thread waits for a word, at least as many have been woken as there are words,
and while one waits for room, as many as there are free places. -/
theorem queue_noLost (h : Reach (Monitor.step (queue n F)) (fun _ _ => True) (Monitor.start (.empty mem hn)) s) :
    ((∃ t, (s.pc t).blockedOn = some .condGet) → s.data.count ≤ (awake s .condGet).card) ∧
      ((∃ t, (s.pc t).blockedOn = some .condPut) → n - s.data.count ≤ (awake s .condPut).card) := by
  have hget := noLost_of_reach ((queue_refines n F).signals (signals_get n F)) h
  have hput := noLost_of_reach ((queue_refines n F).signals (signals_put n F)) h
  constructor
  · rintro ⟨t, ht⟩
    have hle := hget.enough ⟨t, ht⟩
    have hb : F.blockOnGet = true := blocksOn_of_blocked hget ht
    rwa [hb, if_pos rfl, RingQueue.length_toList] at hle
  · rintro ⟨t, ht⟩
    have hle := hput.enough ⟨t, ht⟩
    have hb : F.blockOnPut = true := blocksOn_of_blocked hput ht
    rwa [hb, if_pos rfl, RingQueue.length_toList] at hle

end Fifo

section Example

/-- Thread 0 waits for a word, thread 1 puts one and thread 2 takes it before thread 0 has the lock; thread 0 waits again
until thread 1 puts another. -/
def overtaken : List (Monitor.Act (Fin 3) (Op Nat)) :=
  [.call 0 (.get .forever), .turn 0 none, .call 1 (.put 7 .noWait), .call 2 (.get .noWait), .turn 1 (some 0), .turn 2 none,
    .turn 0 none, .call 1 (.put 8 .noWait), .turn 1 (some 0), .call 1 (.put 9 .noWait), .turn 1 none]

def oneWord : State (Fin 3) (RingQueue Nat 1) (Op Nat) (Res Nat) Cond := Monitor.start (.empty #v[0] Nat.one_pos)

theorem queue_linearizable_overtaken : ∃ s, Reach (Monitor.step (queue 1 {})) (fun _ _ => True) oneWord s ∧
    accepted s.history = [7, 8] ∧ taken s.history = [7] ∧ s.data.toList = [8] := by
  have hexec : (exec (Monitor.step (queue 1 {})) anyStep oneWord overtaken).map
      (fun s => (accepted s.history, taken s.history)) = some ([7, 8], [7]) := by decide
  obtain ⟨s, hr, hs⟩ := exists_reach_of_exec hexec
  have hr := hr.mono (D := fun _ _ => True) (fun _ _ _ => trivial)
  obtain ⟨-, hall⟩ := queue_linearizable hr
  rw [Prod.mk.injEq] at hs
  rw [hs.1, hs.2, List.cons_append, List.nil_append, List.cons.injEq] at hall
  exact ⟨s, hr, hs.1, hs.2, hall.2.symm⟩

/-- Threads 0 and 2 wait for a word when thread 1 puts one. -/
def bothWait : List (Monitor.Act (Fin 3) (Op Nat)) :=
  [.call 0 (.get .forever), .turn 0 none, .call 2 (.get .finite), .turn 2 none, .call 1 (.put 7 .noWait), .turn 1 (some 0)]

theorem queue_noLost_bothWait : ∃ s, Reach (Monitor.step (queue 1 {})) (fun _ _ => True) oneWord s ∧
    (s.pc 2).blockedOn = some .condGet ∧ s.data.count = 1 ∧ 1 ≤ (awake s .condGet).card := by
  have hexec : (exec (Monitor.step (queue 1 {})) anyStep oneWord bothWait).map
      (fun s => ((s.pc 2).blockedOn, s.data.count)) = some (some .condGet, 1) := by decide
  obtain ⟨s, hr, hs⟩ := exists_reach_of_exec hexec
  have hr := hr.mono (D := fun _ _ => True) (fun _ _ _ => trivial)
  rw [Prod.mk.injEq] at hs
  have hle := (queue_noLost hr).1 ⟨2, hs.1⟩
  rw [hs.2] at hle
  exact ⟨s, hr, hs.1, hs.2, hle⟩

end Example

end TivxQueue

namespace TivxEvent

inductive Op
  | post
  | wait (timeout : Timeout)
  | clear

/-- A turn of `tivxEventPost`. -/
def tivxEventPost : Turn Bool Int Unit := .returns vxSuccess true (some ())

/-- A turn of `tivxEventWait`. -/
def tivxEventWait (isSet : Bool) (timeout : Timeout) : Turn Bool Int Unit :=
  if isSet then .returns vxSuccess false none
  else if timeout = .noWait then .returns vxErrorTimeout false none
  else .waits ()

/-- `tivxEventClear`. -/
def tivxEventClear : Turn Bool Int Unit := .returns vxSuccess false none

def turn : Op → Bool → Turn Bool Int Unit
  | .post, _ => tivxEventPost
  | .wait timeout, isSet => tivxEventWait isSet timeout
  | .clear, _ => tivxEventClear

/-- A timed wait ends without another look at the flag. -/
def timedOut : Op → Option Int
  | .wait .finite => some vxErrorTimeout
  | _ => none

/-- An event, as the threads use it. -/
def event : Spec Bool Op Int Unit := ⟨turn, timedOut⟩

/-- A post was made that no wait has taken and no clear has dropped. -/
def pending : List (Op × Int) → Bool
  | [] => false
  | (.post, _) :: _ => true
  | (.clear, _) :: _ => false
  | (.wait _, status) :: history => if status = vxSuccess then false else pending history

section Event

variable {τ : Type} [DecidableEq τ] [Fintype τ] {s : State τ Bool Op Int Unit}

end Event

end TivxEvent

end Tiovx
