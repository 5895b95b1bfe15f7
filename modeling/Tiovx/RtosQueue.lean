import Tiovx.PosixQueue
import Tiovx.Lib.Semaphores
/-!
# RtosQueue — queues between the tasks of a target (`tivx_queue.c`, `tivx_event.c` of RTOS)

The rounds of `tivxQueuePut` and `tivxQueueGet` decide as those of POSIX do, with interrupts off.  `block_rd` and `block_wr` are
binary semaphores (`condGet` and `condPut` here), and `tivxEventPost` and `tivxEventWait` come when interrupts are on again.

The queue is the same bounded list.  Its wake-ups are safe for one task that waits at each end, as a target reads its job queue,
and not for two.
-/
namespace Tiovx

namespace RtosQueue

open StepSystem Monitor Semaphores TivxQueue

section Tasks

variable {α τ : Type} [DecidableEq τ] {n : Nat} {F : Flags} {s : Semaphores.State τ (RingQueue α n) (Op α) (Res α) Cond}
  {mem : Vector α n} {hn : 0 < n} {t : τ} {c : Cond}

/-- **A queue between any tasks is a bounded list.** -/
theorem rtosQueue_linearizable
    (h : Reach (Semaphores.step (queue n F)) (fun _ _ => True) (Semaphores.start (.empty mem hn)) s) :
    Runs (fifo n F) [] s.history s.data.toList ∧ accepted s.history = taken s.history ++ s.data.toList := by
  have hruns := (queue_refines n F).runs (Semaphores.runs_of_reach h)
  rw [RingQueue.toList_empty] at hruns
  exact ⟨hruns, accepted_of_runs hruns⟩

/-- What a task waits for: the words in the ring, or the free places. -/
def stock (q : RingQueue α n) : Cond → Nat
  | .condGet => q.count
  | .condPut => n - q.count

/-- What counts for the signals, where the queue was made for them. -/
def avail (F : Flags) (c : Cond) (q : RingQueue α n) : Nat := if blocksOn F c then stock q c else 0

theorem signals_queue (n : Nat) (F : Flags) (c : Cond) : Signals (queue n F : Spec _ (Op α) _ _) c (avail F c) := by
  cases c with
  | condGet =>
    have h := (@queue_refines α n F).signals (signals_get n F)
    simp only [RingQueue.length_toList] at h
    exact h
  | condPut =>
    have h := (@queue_refines α n F).signals (signals_put n F)
    simp only [RingQueue.length_toList] at h
    exact h

/-- The operations that may wait at an end of a queue. -/
def mayWait : Cond → Op α → Bool
  | .condGet, .get timeout => timeout != .noWait
  | .condPut, .put _ timeout => timeout != .noWait
  | _, _ => false

/-- No other task than `t` calls an operation that may wait at that end. -/
def onlyTask (t : τ) (c : Cond) (_ : Semaphores.State τ (RingQueue α n) (Op α) (Res α) Cond) : Semaphores.Act τ (Op α) → Bool
  | .call u op => decide (u = t) || !mayWait c op
  | _ => true

theorem onlyWaiter_of_onlyTask {a : Semaphores.Act τ (Op α)} (h : onlyTask t c s a = true) :
    OnlyWaiter (queue n F) c t s a := by
  cases a with
  | call u op =>
    simp only [onlyTask, Bool.or_eq_true, decide_eq_true_eq, Bool.not_eq_true'] at h
    refine h.imp id (fun hno q hq => ?_)
    obtain ⟨rfl, -, -, timeout, rfl, ht⟩ | ⟨rfl, -, -, data, timeout, rfl, ht⟩ := fifoTurn_waits (fifoTurn_of_waits hq)
    · simp [mayWait, ht] at hno
    · simp [mayWait, ht] at hno
  | turn | post | pend | timeOut => trivial

/-- **The one task that waits at an end of a queue is woken.**  While it pends, there is nothing for it, or its semaphore is
posted or about to be; so where all tasks rest there is nothing for it. -/
theorem rtosQueue_served {op : Op α}
    (h : Reach (Semaphores.step (queue n F)) (fun s a => onlyTask t c s a = true) (Semaphores.start (.empty mem hn)) s)
    (hp : s.pc t = .pending op c) :
    (stock s.data c = 0 ∨ s.posted c = true ∨ ∃ u, s.pc u = .posting c) ∧ (AtRest (queue n F) s → stock s.data c = 0) := by
  have hserved := served_of_reach (signals_queue n F c) (h.mono fun _ _ => onlyWaiter_of_onlyTask)
  obtain ⟨q, hq⟩ := came_of_reach (h.mono fun _ _ _ => trivial) t op c hp
  have hb : blocksOn F c = true := by
    obtain ⟨rfl, -, hb, -⟩ | ⟨rfl, -, hb, -⟩ := fifoTurn_waits (fifoTurn_of_waits hq)
    · exact hb
    · exact hb
  have havail : avail F c s.data = stock s.data c := if_pos hb
  rw [← havail]
  exact ⟨hserved.served op hp, hserved.nothing_of_atRest hp⟩

end Tasks

section Example

inductive Task
  | reader
  | second
  | writer
deriving DecidableEq

def twoWords : Semaphores.State Task (RingQueue Nat 2) (Op Nat) (Res Nat) Cond :=
  Semaphores.start (.empty #v[0, 0] Nat.two_pos)

/-- The reader pends on an empty queue until the writer has put a word and posted; the writer puts another one. -/
def handedOver : List (Semaphores.Act Task (Op Nat)) :=
  [.call .reader (.get .forever), .turn .reader, .call .writer (.put 7 .noWait), .turn .writer, .post .writer, .pend .reader, .turn .reader, .call .writer (.put 8 .noWait),
    .turn .writer]

theorem rtosQueue_linearizable_handedOver : ∃ s, Reach (Semaphores.step (queue 2 {})) (fun _ _ => True) twoWords s ∧
    accepted s.history = [7, 8] ∧ taken s.history = [7] ∧ s.data.toList = [8] := by
  have hexec : (exec (Semaphores.step (queue 2 {})) anyStep twoWords handedOver).map
      (fun s => (accepted s.history, taken s.history)) = some ([7, 8], [7]) := by decide
  obtain ⟨s, hr, hs⟩ := exists_reach_of_exec hexec
  have hr := hr.mono (D := fun _ _ => True) (fun _ _ _ => trivial)
  obtain ⟨-, hall⟩ := rtosQueue_linearizable hr
  rw [Prod.mk.injEq] at hs
  rw [hs.1, hs.2, List.cons_append, List.nil_append, List.cons.injEq] at hall
  exact ⟨s, hr, hs.1, hs.2, hall.2.symm⟩

/-- The word is in the ring, and its post is still to come. -/
def beforePost : List (Semaphores.Act Task (Op Nat)) :=
  [.call .reader (.get .forever), .turn .reader, .call .writer (.put 7 .noWait), .turn .writer]

theorem rtosQueue_served_beforePost : ∃ s, Reach (Semaphores.step (queue 2 {}))
    (fun s a => onlyTask .reader .condGet s a = true) twoWords s ∧ s.pc .reader = .pending (.get .forever) .condGet ∧
    s.data.count = 1 ∧ (s.posted .condGet = true ∨ ∃ u, s.pc u = .posting .condGet) ∧ ¬ AtRest (queue 2 {}) s := by
  have hexec : (exec (Semaphores.step (queue 2 {})) (onlyTask .reader .condGet) twoWords beforePost).map
      (fun s => (s.pc .reader, s.data.count)) = some (.pending (.get .forever) .condGet, 1) := by rfl
  obtain ⟨s, hr, hs⟩ := exists_reach_of_exec hexec
  rw [Prod.mk.injEq] at hs
  have hstock : stock s.data .condGet ≠ 0 := by
    rw [stock, hs.2]
    exact Nat.one_ne_zero
  obtain ⟨hserved, hrest⟩ := rtosQueue_served hr hs.1
  exact ⟨s, hr, hs.1, hs.2, hserved.resolve_left hstock, fun h => hstock (hrest h)⟩

/-- Two tasks that pend, and two puts whose posts come before either goes on: one post is lost, and the second task pends while a
word is there. -/
example : (exec (Semaphores.step (queue 2 { blockOnPut := false })) anyStep twoWords
    [.call .reader (.get .forever), .turn .reader, .call .second (.get .forever), .turn .second,
      .call .writer (.put 7 .noWait), .turn .writer, .post .writer, .call .writer (.put 8 .noWait), .turn .writer, .post .writer,
      .pend .reader, .turn .reader]).map
    (fun s => (s.pc .second, s.data.count, s.posted .condGet, s.pc .reader, s.pc .writer)) =
      some (.pending (.get .forever) .condGet, 1, false, .idle, .idle) := by rfl

end Example

end RtosQueue

end Tiovx
