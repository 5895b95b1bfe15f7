import Mathlib.Tactic
import Tiovx.Lib.RingQueue
import Tiovx.Lib.Run
import Tiovx.Lib.SlotPool
/-!
# EventQueue — events between threads (`vx_event_queue.c`, `tivx_queue.c`)

The events of a queue are in the slots of `event_list`.  The index of a slot goes from the free queue to the thread that
adds an event, to the ready queue, to a thread that waits for one, and back.  A put or a get of a queue is under the lock of
that queue; a slot is filled and read outside both.  A thread that flushes the queue waits without blocking, and without a
place for the event.
-/
namespace Tiovx

open StepSystem SlotPool

/-- The events of `event_id` whose payload `ownWaitEventQueue` copies, and any other. -/
inductive EventId
  | graphParameterConsumed
  | graphCompleted
  | nodeCompleted
  | nodeError
  | user
  | other (eventId : Nat)
deriving DecidableEq

/-- `tivx_event_queue_elem_t`. -/
structure EventQueueElem where
  eventId : EventId
  timestamp : Nat := 0
  appValue : Nat := 0
  param1 : Nat := 0
  param2 : Nat := 0
  param3 : Nat := 0
  param4 : Nat := 0
deriving DecidableEq

/-- `event_info` of `vx_event_t`, as far as it is written. -/
inductive EventInfo
  | graphParameterConsumed (graph graphParameterIndex : Nat)
  | graphCompleted (graph : Nat)
  | nodeCompleted (graph node : Nat)
  | nodeError (graph node status errorInfo : Nat)
  | userEvent (userEventParameter : Nat)
  | unwritten
deriving DecidableEq

/-- `vx_event_t`. -/
structure VxEvent where
  type : EventId
  timestamp : Nat
  appValue : Nat
  eventInfo : EventInfo
deriving DecidableEq

/-- The event `ownWaitEventQueue` writes for an element. -/
def EventQueueElem.toEvent (elem : EventQueueElem) : VxEvent where
  type := elem.eventId
  timestamp := elem.timestamp
  appValue := if elem.eventId = .user then elem.param1 % 2 ^ 32 else elem.appValue
  eventInfo :=
    match elem.eventId with
    | .graphParameterConsumed => .graphParameterConsumed elem.param1 (elem.param2 % 2 ^ 32)
    | .graphCompleted => .graphCompleted elem.param1
    | .nodeCompleted => .nodeCompleted elem.param1 elem.param2
    | .nodeError => .nodeError elem.param1 elem.param2 (elem.param3 % 2 ^ 32) elem.param4
    | .user => .userEvent elem.param2
    | .other _ => .unwritten

/-- `TIVX_EVENT_TIMEOUT_NO_WAIT`, a number of milliseconds, and `VX_TIMEOUT_WAIT_FOREVER`. -/
inductive Timeout
  | noWait
  | finite
  | forever
deriving DecidableEq

/-- `tivx_event_queue_t`, with `TIVX_EVENT_QUEUE_MAX_SIZE` slots. -/
structure EventQueue (n : Nat) where
  enable : Bool
  freeQueue : RingQueue Nat n
  readyQueue : RingQueue Nat n
  eventList : Nat → EventQueueElem

/-- Where a thread stands: in `ownEventQueueAddEvent` before it takes a slot, fills it and puts it into the ready queue, or
in `ownWaitEventQueue` before it takes a slot, reads it and puts it into the free queue.  `copies` is that the caller gave a
place for the event; `nth` counts what was taken from the ready queue before. -/
inductive EventPc
  | idle
  | getFree (elem : EventQueueElem)
  | fill (elem : EventQueueElem) (idx : Nat)
  | putReady (elem : EventQueueElem) (idx : Nat)
  | getReady (timeout : Timeout) (copies : Bool)
  | copy (copies : Bool) (idx nth : Nat)
  | putFree (idx : Nat)
deriving DecidableEq

/-- The slot a thread holds. -/
def EventPc.slot : EventPc → Option Nat
  | .fill _ idx | .putReady _ idx | .copy _ idx _ | .putFree idx => some idx
  | _ => none

/-- Which of the events taken from the ready queue a thread is about to read. -/
def EventPc.reads : EventPc → Option Nat
  | .copy _ _ nth => some nth
  | _ => none

/-- Why an event was dropped. -/
inductive DropCause
  | disabled
  | noFreeSlot
  | badIndex
  | readyQueueFull
deriving DecidableEq

/-- An event given to a waiter: which one of those taken from the ready queue, to whom, whether there was a place for it,
and what was written there. -/
structure Delivery where
  nth : Nat
  waiter : Nat
  copies : Bool
  event : Option VxEvent
deriving DecidableEq

/-- An event queue with the threads that use it, and what became of the events: those accepted, in their order, how many
were taken, those delivered and those dropped. -/
structure EventSys (n : Nat) where
  queue : EventQueue n
  pc : Nat → EventPc := fun _ => .idle
  accepted : List EventQueueElem := []
  taken : Nat := 0
  delivered : List Delivery := []
  dropped : List DropCause := []

/-- What happens: `ownEventQueueEnableEvents`; a thread calls one of the two operations, goes on in it, or its wait times
out. -/
inductive EventAct
  | enableEvents (enable : Bool)
  | addEvent (t : Nat) (elem : EventQueueElem)
  | waitEvent (t : Nat) (timeout : Timeout) (copies : Bool)
  | step (t : Nat)
  | timeOut (t : Nat)

namespace EventSys

variable {n : Nat}

/-- The next step of a thread in one of the operations.  A get that blocks has no step while the queue is empty. -/
def threadStep (s : EventSys n) (t : Nat) : Option (EventSys n) :=
  let q := s.queue
  let goOn (s : EventSys n) (pc : EventPc) : Option (EventSys n) := some { s with pc := Function.update s.pc t pc }
  match s.pc t with
  | .idle => none
  | .getFree elem =>
    match q.freeQueue.pop with
    | none => goOn { s with dropped := .noFreeSlot :: s.dropped } .idle
    | some (idx, freeQueue) =>
      if idx < n then goOn { s with queue := { q with freeQueue := freeQueue } } (.fill elem idx)
      else goOn { s with queue := { q with freeQueue := freeQueue }, dropped := .badIndex :: s.dropped } .idle
  | .fill elem idx =>
    goOn { s with queue := { q with eventList := Function.update q.eventList idx elem } } (.putReady elem idx)
  | .putReady elem idx =>
    match q.readyQueue.push idx with
    | none => goOn { s with dropped := .readyQueueFull :: s.dropped } .idle
    | some readyQueue =>
      goOn { s with queue := { q with readyQueue := readyQueue }, accepted := s.accepted ++ [elem] } .idle
  | .getReady timeout copies =>
    match q.readyQueue.pop with
    | none => if timeout = .noWait then goOn s .idle else none
    | some (idx, readyQueue) =>
      if idx < n then
        goOn { s with queue := { q with readyQueue := readyQueue }, taken := s.taken + 1 } (.copy copies idx s.taken)
      else goOn { s with queue := { q with readyQueue := readyQueue }, taken := s.taken + 1 } .idle
  | .copy copies idx nth =>
    let event := if copies then some (q.eventList idx).toEvent else none
    goOn { s with delivered := ⟨nth, t, copies, event⟩ :: s.delivered } (.putFree idx)
  | .putFree idx =>
    match q.freeQueue.push idx with
    | none => goOn s .idle
    | some freeQueue => goOn { s with queue := { q with freeQueue := freeQueue } } .idle

/-- **One step of an event queue and its threads.** -/
def step (s : EventSys n) : EventAct → Option (EventSys n)
  | .enableEvents enable => some { s with queue := { s.queue with enable := enable } }
  | .addEvent t elem =>
    if s.pc t = .idle then
      if s.queue.enable then some { s with pc := Function.update s.pc t (.getFree elem) }
      else some { s with dropped := .disabled :: s.dropped }
    else none
  | .waitEvent t timeout copies =>
    if s.pc t = .idle then some { s with pc := Function.update s.pc t (.getReady timeout copies) } else none
  | .step t => s.threadStep t
  | .timeOut t =>
    match s.pc t with
    | .getReady .finite _ => some { s with pc := Function.update s.pc t .idle }
    | _ => none

end EventSys

/-- The loop of `ownEventQueueCreate` that puts the indices into the free queue. -/
def putAll {n : Nat} (l : List Nat) (q : RingQueue Nat n) : RingQueue Nat n :=
  l.foldl (fun q i => (q.push i).getD q) q

/-- `ownEventQueueCreate`, over any memory. -/
def ownEventQueueCreate {n : Nat} (h : 0 < n) (freeQueueMemory readyQueueMemory : Vector Nat n)
    (eventList : Nat → EventQueueElem) : EventQueue n where
  enable := true
  freeQueue := putAll (List.range n) (.empty freeQueueMemory h)
  readyQueue := .empty readyQueueMemory h
  eventList := eventList

theorem toList_putAll {n : Nat} : ∀ (l : List Nat) (q : RingQueue Nat n), q.toList.length + l.length ≤ n →
    (putAll l q).toList = q.toList ++ l
  | [], q, _ => (List.append_nil _).symm
  | i :: l, q, h => by
    rw [List.length_cons] at h
    cases hp : q.push i with
    | none =>
      have := (q.push_eq_none_iff i).1 hp
      omega
    | some q' =>
      have hq := q.toList_push i q' hp
      have hl : q'.toList.length + l.length ≤ n := by
        rw [hq, List.length_append, List.length_singleton]
        omega
      have ih := toList_putAll l q' hl
      rw [hq, List.append_assoc] at ih
      unfold putAll at ih ⊢
      rw [List.foldl_cons, hp]
      exact ih

namespace EventSys

variable {n : Nat}

/-- What a step does, where the slots are partitioned. -/
inductive Moves (s : EventSys n) : EventAct → EventSys n → Prop
  | enable (b : Bool) : Moves s (.enableEvents b) { s with queue := { s.queue with enable := b } }
  | add {t : Nat} {elem : EventQueueElem} (hp : s.pc t = .idle) (he : s.queue.enable = true) :
      Moves s (.addEvent t elem) { s with pc := Function.update s.pc t (.getFree elem) }
  | disabled {t : Nat} {elem : EventQueueElem} (hp : s.pc t = .idle) (he : s.queue.enable = false) :
      Moves s (.addEvent t elem) { s with dropped := .disabled :: s.dropped }
  | wait {t : Nat} {timeout : Timeout} {copies : Bool} (hp : s.pc t = .idle) :
      Moves s (.waitEvent t timeout copies) { s with pc := Function.update s.pc t (.getReady timeout copies) }
  | noSlot {t : Nat} {elem : EventQueueElem} (hp : s.pc t = .getFree elem) (hq : s.queue.freeQueue.toList = []) :
      Moves s (.step t) { s with dropped := .noFreeSlot :: s.dropped, pc := Function.update s.pc t .idle }
  | takeSlot {t idx : Nat} {elem : EventQueueElem} {q : RingQueue Nat n} (hp : s.pc t = .getFree elem)
      (hq : s.queue.freeQueue.toList = idx :: q.toList) :
      Moves s (.step t)
        { s with queue := { s.queue with freeQueue := q }, pc := Function.update s.pc t (.fill elem idx) }
  | fill {t idx : Nat} {elem : EventQueueElem} (hp : s.pc t = .fill elem idx) :
      Moves s (.step t)
        { s with
          queue := { s.queue with eventList := Function.update s.queue.eventList idx elem }
          pc := Function.update s.pc t (.putReady elem idx) }
  | accept {t idx : Nat} {elem : EventQueueElem} {q : RingQueue Nat n} (hp : s.pc t = .putReady elem idx)
      (hq : q.toList = s.queue.readyQueue.toList ++ [idx]) :
      Moves s (.step t)
        { s with
          queue := { s.queue with readyQueue := q }, accepted := s.accepted ++ [elem]
          pc := Function.update s.pc t .idle }
  | giveUp {a : EventAct} {t : Nat} {timeout : Timeout} {copies : Bool} (hp : s.pc t = .getReady timeout copies) :
      Moves s a { s with pc := Function.update s.pc t .idle }
  | takeEvent {t idx : Nat} {timeout : Timeout} {copies : Bool} {q : RingQueue Nat n}
      (hp : s.pc t = .getReady timeout copies) (hq : s.queue.readyQueue.toList = idx :: q.toList) :
      Moves s (.step t)
        { s with
          queue := { s.queue with readyQueue := q }, taken := s.taken + 1
          pc := Function.update s.pc t (.copy copies idx s.taken) }
  | deliver {t idx nth : Nat} {copies : Bool} (hp : s.pc t = .copy copies idx nth) :
      Moves s (.step t)
        { s with
          delivered := ⟨nth, t, copies, if copies then some (s.queue.eventList idx).toEvent else none⟩ :: s.delivered
          pc := Function.update s.pc t (.putFree idx) }
  | giveSlot {t idx : Nat} {q : RingQueue Nat n} (hp : s.pc t = .putFree idx)
      (hq : q.toList = s.queue.freeQueue.toList ++ [idx]) :
      Moves s (.step t) { s with queue := { s.queue with freeQueue := q }, pc := Function.update s.pc t .idle }

/-- Every slot is in one of the two queues or held by one thread. -/
def Slots (s : EventSys n) : Prop :=
  Partitioned n (s.queue.freeQueue.toList ++ s.queue.readyQueue.toList) (fun t => (s.pc t).slot)

/-- Every accepted event waits in the ready queue, is in the hands of one thread, or was delivered once: the `nth` taken
from the ready queue is the `nth` accepted, and its waiter is given what it was added with. -/
structure OnceInOrder (s : EventSys n) : Prop where
  slots : s.Slots
  waiting : s.accepted.length = s.taken + s.queue.readyQueue.toList.length
  ready : ∀ j idx, s.queue.readyQueue.toList[j]? = some idx → s.accepted[s.taken + j]? = some (s.queue.eventList idx)
  once : Partitioned s.taken (s.delivered.map (·.nth)) (fun t => (s.pc t).reads)
  payload : ∀ d ∈ s.delivered, ∃ elem, s.accepted[d.nth]? = some elem ∧
    d.event = if d.copies then some elem.toEvent else none

/-- The invariant: with what a thread that has filled a slot, or is to read one, finds there. -/
structure Inv (s : EventSys n) : Prop extends s.OnceInOrder where
  filled : ∀ t elem idx, s.pc t = .putReady elem idx → s.queue.eventList idx = elem
  taken : ∀ t copies idx nth, s.pc t = .copy copies idx nth → s.accepted[nth]? = some (s.queue.eventList idx)

theorem slot_update (pc : Nat → EventPc) (t : Nat) (p : EventPc) :
    (fun u => (Function.update pc t p u).slot) = Function.update (fun u => (pc u).slot) t p.slot :=
  Function.comp_update EventPc.slot pc t p

theorem reads_update (pc : Nat → EventPc) (t : Nat) (p : EventPc) :
    (fun u => (Function.update pc t p u).reads) = Function.update (fun u => (pc u).reads) t p.reads :=
  Function.comp_update EventPc.reads pc t p

/-- A thread that keeps its slot, if it has one. -/
theorem slot_update_eq {pc : Nat → EventPc} {t : Nat} {p : EventPc} (h : p.slot = (pc t).slot) :
    (fun u => (Function.update pc t p u).slot) = fun u => (pc u).slot := by
  rw [slot_update, h]
  exact Function.update_eq_self t _

theorem reads_update_eq {pc : Nat → EventPc} {t : Nat} {p : EventPc} (h : p.reads = (pc t).reads) :
    (fun u => (Function.update pc t p u).reads) = fun u => (pc u).reads := by
  rw [reads_update, h]
  exact Function.update_eq_self t _

theorem update_cases {pc : Nat → EventPc} {t u : Nat} {p p' : EventPc} (h : Function.update pc t p u = p') :
    u = t ∧ p = p' ∨ u ≠ t ∧ pc u = p' := by
  rw [Function.update_apply] at h
  split at h
  · exact .inl ⟨‹u = t›, h⟩
  · exact .inr ⟨‹¬u = t›, h⟩

theorem eq_of_update {pc : Nat → EventPc} {t u : Nat} {p p' : EventPc} (h : Function.update pc t p u = p')
    (hne : p ≠ p') : pc u = p' := by
  rcases update_cases h with ⟨-, he⟩ | ⟨-, hu⟩
  · exact absurd he hne
  · exact hu

/-- A thread moves and keeps its slot; neither the queues nor the events change. -/
theorem Inv.move {s : EventSys n} (h : s.Inv) {t : Nat} {p : EventPc} (hs : p.slot = (s.pc t).slot)
    (hr : p.reads = (s.pc t).reads) (hf : ∀ elem idx, p ≠ .putReady elem idx) (hc : ∀ c idx nth, p ≠ .copy c idx nth)
    (d : List DropCause) : Inv { s with pc := Function.update s.pc t p, dropped := d } where
  slots := by
    unfold Slots
    simp only [slot_update_eq hs]
    exact h.slots
  waiting := h.waiting
  ready := h.ready
  once := by
    simp only [reads_update_eq hr]
    exact h.once
  payload := h.payload
  filled u elem idx hu := h.filled u elem idx (eq_of_update hu (hf elem idx))
  taken u c idx nth hu := h.taken u c idx nth (eq_of_update hu (hc c idx nth))

theorem getElem?_append_of_some {α : Type} {l : List α} {k : Nat} {a : α} (h : l[k]? = some a) (l' : List α) :
    (l ++ l')[k]? = some a := by
  rw [List.getElem?_append_left (List.getElem?_eq_some_iff.1 h).1]
  exact h

/-- What two threads hold is apart. -/
theorem Slots.ne {s : EventSys n} (h : s.Slots) {t u i j : Nat} (ht : (s.pc t).slot = some i)
    (hu : (s.pc u).slot = some j) (htu : u ≠ t) : j ≠ i := by
  intro hij
  subst hij
  exact htu (h.unique u t j hu ht)

/-- What a thread holds is not in the ready queue. -/
theorem Slots.ne_ready {s : EventSys n} (h : s.Slots) {t i j k : Nat} (ht : (s.pc t).slot = some i)
    (hj : s.queue.readyQueue.toList[j]? = some k) : k ≠ i := by
  intro hki
  subst hki
  exact (h.apart t k ht).2 (List.mem_append_right _ (List.mem_of_getElem? hj))

theorem Inv.takeSlot {s : EventSys n} (h : s.Inv) {t idx : Nat} {elem : EventQueueElem} {q : RingQueue Nat n}
    (hp : s.pc t = .getFree elem) (hq : s.queue.freeQueue.toList = idx :: q.toList) :
    Inv { s with queue := { s.queue with freeQueue := q }, pc := Function.update s.pc t (.fill elem idx) } where
  slots := by
    have hs := h.slots
    unfold Slots at hs ⊢
    rw [hq, List.cons_append] at hs
    simp only [slot_update]
    exact hs.take (congrArg EventPc.slot hp)
  waiting := h.waiting
  ready := h.ready
  once := by
    simp only [reads_update_eq (p := .fill elem idx) (congrArg EventPc.reads hp).symm]
    exact h.once
  payload := h.payload
  filled u e i hu := h.filled u e i (eq_of_update hu (by simp))
  taken u c i nth hu := h.taken u c i nth (eq_of_update hu (by simp))

theorem Inv.fill {s : EventSys n} (h : s.Inv) {t idx : Nat} {elem : EventQueueElem} (hp : s.pc t = .fill elem idx) :
    Inv { s with
      queue := { s.queue with eventList := Function.update s.queue.eventList idx elem }
      pc := Function.update s.pc t (.putReady elem idx) } where
  slots := by
    unfold Slots
    simp only [slot_update_eq (p := .putReady elem idx) (congrArg EventPc.slot hp).symm]
    exact h.slots
  waiting := h.waiting
  ready j i hj := by
    have hne := h.slots.ne_ready (congrArg EventPc.slot hp) hj
    simp only [Function.update_of_ne hne]
    exact h.ready j i hj
  once := by
    simp only [reads_update_eq (p := .putReady elem idx) (congrArg EventPc.reads hp).symm]
    exact h.once
  payload := h.payload
  filled u e i hu := by
    rcases update_cases hu with ⟨-, he⟩ | ⟨hut, hu⟩
    · cases he
      exact Function.update_self _ _ _
    · have hne := h.slots.ne (congrArg EventPc.slot hp) (congrArg EventPc.slot hu) hut
      simp only [Function.update_of_ne hne]
      exact h.filled u e i hu
  taken u c i nth hu := by
    have hu := eq_of_update hu (by simp)
    have hut : u ≠ t := fun hut => by rw [hut, hp] at hu; cases hu
    have hne := h.slots.ne (congrArg EventPc.slot hp) (congrArg EventPc.slot hu) hut
    simp only [Function.update_of_ne hne]
    exact h.taken u c i nth hu

theorem Inv.accept {s : EventSys n} (h : s.Inv) {t idx : Nat} {elem : EventQueueElem} {q : RingQueue Nat n}
    (hp : s.pc t = .putReady elem idx) (hq : q.toList = s.queue.readyQueue.toList ++ [idx]) :
    Inv { s with
      queue := { s.queue with readyQueue := q }, accepted := s.accepted ++ [elem]
      pc := Function.update s.pc t .idle } where
  slots := by
    have hs := h.slots.give (congrArg EventPc.slot hp)
    unfold Slots
    simp only [slot_update, hq]
    apply hs.perm
    rw [← List.append_assoc]
    exact (List.perm_append_singleton idx _).symm
  waiting := by
    simp only [hq, List.length_append, List.length_singleton, h.waiting]
    omega
  ready j i hj := by
    simp only [hq] at hj
    by_cases hlt : j < s.queue.readyQueue.toList.length
    · rw [List.getElem?_append_left hlt] at hj
      exact getElem?_append_of_some (h.ready j i hj) [elem]
    · rw [List.getElem?_append_right (by omega), List.getElem?_singleton] at hj
      split at hj
      · rename_i hj0
        cases hj
        have hlen : s.taken + j = s.accepted.length := by
          rw [h.waiting]
          omega
        rw [hlen, List.getElem?_concat_length, h.filled t elem _ hp]
      · cases hj
  once := by
    simp only [reads_update_eq (p := .idle) (congrArg EventPc.reads hp).symm]
    exact h.once
  payload d hd := by
    obtain ⟨e, he, hev⟩ := h.payload d hd
    exact ⟨e, getElem?_append_of_some he [elem], hev⟩
  filled u e i hu := h.filled u e i (eq_of_update hu (by simp))
  taken u c i nth hu := getElem?_append_of_some (h.taken u c i nth (eq_of_update hu (by simp))) [elem]

theorem Inv.takeEvent {s : EventSys n} (h : s.Inv) {t idx : Nat} {timeout : Timeout} {copies : Bool}
    {q : RingQueue Nat n} (hp : s.pc t = .getReady timeout copies)
    (hq : s.queue.readyQueue.toList = idx :: q.toList) :
    Inv { s with
      queue := { s.queue with readyQueue := q }, taken := s.taken + 1
      pc := Function.update s.pc t (.copy copies idx s.taken) } where
  slots := by
    have hs := h.slots
    unfold Slots at hs ⊢
    rw [hq] at hs
    simp only [slot_update]
    exact (hs.perm List.perm_middle).take (congrArg EventPc.slot hp)
  waiting := by
    have hw := h.waiting
    rw [hq, List.length_cons] at hw
    simp only [hw]
    omega
  ready j i hj := by
    have hr := h.ready (j + 1) i (by rw [hq, List.getElem?_cons_succ]; exact hj)
    have hj1 : s.taken + 1 + j = s.taken + (j + 1) := by omega
    simp only [hj1]
    exact hr
  once := by
    simp only [reads_update]
    exact h.once.grow (congrArg EventPc.reads hp)
  payload := h.payload
  filled u e i hu := h.filled u e i (eq_of_update hu (by simp))
  taken u c i nth hu := by
    rcases update_cases hu with ⟨-, he⟩ | ⟨-, hu⟩
    · cases he
      exact h.ready 0 idx (by rw [hq]; rfl)
    · exact h.taken u c i nth hu

theorem Inv.deliver {s : EventSys n} (h : s.Inv) {t idx nth : Nat} {copies : Bool}
    (hp : s.pc t = .copy copies idx nth) :
    Inv { s with
      delivered := ⟨nth, t, copies, if copies then some (s.queue.eventList idx).toEvent else none⟩ :: s.delivered
      pc := Function.update s.pc t (.putFree idx) } where
  slots := by
    unfold Slots
    simp only [slot_update_eq (p := .putFree idx) (congrArg EventPc.slot hp).symm]
    exact h.slots
  waiting := h.waiting
  ready := h.ready
  once := by
    simp only [reads_update]
    exact h.once.give (congrArg EventPc.reads hp)
  payload d hd := by
    rcases List.mem_cons.1 hd with rfl | hd
    · exact ⟨_, h.taken t copies idx nth hp, rfl⟩
    · exact h.payload d hd
  filled u e i hu := h.filled u e i (eq_of_update hu (by simp))
  taken u c i k hu := h.taken u c i k (eq_of_update hu (by simp))

theorem Inv.giveSlot {s : EventSys n} (h : s.Inv) {t idx : Nat} {q : RingQueue Nat n} (hp : s.pc t = .putFree idx)
    (hq : q.toList = s.queue.freeQueue.toList ++ [idx]) :
    Inv { s with queue := { s.queue with freeQueue := q }, pc := Function.update s.pc t .idle } where
  slots := by
    have hs := h.slots.give (congrArg EventPc.slot hp)
    unfold Slots
    simp only [slot_update, hq]
    apply hs.perm
    rw [List.append_assoc]
    exact List.perm_middle.symm
  waiting := h.waiting
  ready := h.ready
  once := by
    simp only [reads_update_eq (p := .idle) (congrArg EventPc.reads hp).symm]
    exact h.once
  payload := h.payload
  filled u e i hu := h.filled u e i (eq_of_update hu (by simp))
  taken u c i nth hu := h.taken u c i nth (eq_of_update hu (by simp))

theorem Inv.moves {s s' : EventSys n} {a : EventAct} (h : s.Inv) (hm : s.Moves a s') : s'.Inv := by
  cases hm with
  | enable b => exact ⟨⟨h.slots, h.waiting, h.ready, h.once, h.payload⟩, h.filled, h.taken⟩
  | disabled hp he => exact ⟨⟨h.slots, h.waiting, h.ready, h.once, h.payload⟩, h.filled, h.taken⟩
  | add hp he => exact h.move (by rw [hp]; rfl) (by rw [hp]; rfl) (by simp) (by simp) s.dropped
  | wait hp => exact h.move (by rw [hp]; rfl) (by rw [hp]; rfl) (by simp) (by simp) s.dropped
  | noSlot hp hq => exact h.move (by rw [hp]; rfl) (by rw [hp]; rfl) (by simp) (by simp) (.noFreeSlot :: s.dropped)
  | giveUp hp => exact h.move (by rw [hp]; rfl) (by rw [hp]; rfl) (by simp) (by simp) s.dropped
  | takeSlot hp hq => exact h.takeSlot hp hq
  | fill hp => exact h.fill hp
  | accept hp hq => exact h.accept hp hq
  | takeEvent hp hq => exact h.takeEvent hp hq
  | deliver hp => exact h.deliver hp
  | giveSlot hp hq => exact h.giveSlot hp hq

/-- The state after `ownEventQueueCreate`, over any memory. -/
def start (h : 0 < n) (freeQueueMemory readyQueueMemory : Vector Nat n) (eventList : Nat → EventQueueElem) :
    EventSys n where
  queue := ownEventQueueCreate h freeQueueMemory readyQueueMemory eventList

theorem inv_start (h : 0 < n) (freeQueueMemory readyQueueMemory : Vector Nat n) (eventList : Nat → EventQueueElem) :
    (start h freeQueueMemory readyQueueMemory eventList).Inv where
  slots := by
    have hf : (putAll (List.range n) (.empty freeQueueMemory h)).toList = List.range n := by
      rw [toList_putAll _ _ (by rw [RingQueue.toList_empty, List.length_range]; simp), RingQueue.toList_empty]
      rfl
    unfold Slots start ownEventQueueCreate
    rw [hf, RingQueue.toList_empty, List.append_nil]
    exact Partitioned.start
  waiting := rfl
  ready j i hj := by
    unfold start ownEventQueueCreate at hj
    simp only [RingQueue.toList_empty, List.getElem?_nil] at hj
    cases hj
  once := Partitioned.start
  payload d hd := by cases hd
  filled t e i ht := by cases ht
  taken t c i k ht := by cases ht

/-- A queue of two slots, over cells that hold zeros. -/
def twoSlots : EventSys 2 :=
  start (by decide) (.replicate 2 0) (.replicate 2 0) (fun _ => ⟨.other 0, 0, 0, 0, 0, 0, 0⟩)

end EventSys

end Tiovx
