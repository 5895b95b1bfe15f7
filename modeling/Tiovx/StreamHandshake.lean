import Tiovx.GraphStream
/-!
# StreamHandshake — when streaming keeps its promises (`vx_graph_stream.c`)

The user's hand-shake with the task is sound while the first allocation of the streaming objects is the only one, every START
finds room in the queue and a verified graph, a stop begins after the answer of the one before it, and neither a stop nor a
delete begins after the last post that would end its wait.
-/
namespace Tiovx

open StepSystem

/-- The task is answering a STOP. -/
def TaskPc.answers : TaskPc → Bool
  | .stopWait | .stopPost _ => true
  | _ => false

/-- The task posts `stop_done` no more. -/
def TaskPc.posted : TaskPc → Bool
  | .deletePost | .ended => true
  | _ => false

namespace StreamSys

/-- A STOP is still to be answered, or the last answer was given. -/
def stopUnderWay (s : StreamSys) : Bool :=
  ((s.queue s.current).getD []).contains .stop ||
    match s.task s.current with
    | some t => t.pc.answers || t.pc.posted
    | none => false

/-- The idle task is about to take a START. -/
def takesStart (s : StreamSys) (g : Nat) : Bool :=
  match s.task g with
  | some ⟨.idle, .waitEvent q⟩ => ((s.queue q).getD []).head? == some .start
  | _ => false

/-- The streaming objects are allocated where there are none; a START finds room, and is taken while the graph is verified; a
stop begins when no STOP is on its way and the task has not given its last answer; a delete begins before the task ended. -/
def streamCond (s : StreamSys) : Act → Prop
  | .verify V => V ≠ .failsBefore → s.isStreamingAlloc = false
  | .stop => s.user = .idle → s.isStreaming = true → s.stopUnderWay = false
  | .user _ =>
    (s.user = .startSend → s.addEvent .start ≠ none) ∧
      (s.user = .deleteClear → (s.task s.current).map StreamTask.pc ≠ some .ended)
  | .task g _ _ => s.takesStart g = true → s.verified = true
  | _ => True

instance (s : StreamSys) (e : StreamEvent) : Decidable (s.addEvent e ≠ none) :=
  decidable_of_iff ((s.addEvent e).isSome = true) Option.isSome_iff_ne_none

instance (s : StreamSys) : ∀ a, Decidable (s.streamCond a)
  | .verify V => inferInstanceAs (Decidable (V ≠ .failsBefore → s.isStreamingAlloc = false))
  | .stop => inferInstanceAs (Decidable (s.user = .idle → s.isStreaming = true → s.stopUnderWay = false))
  | .user _ => inferInstanceAs (Decidable ((s.user = .startSend → s.addEvent .start ≠ none) ∧
      (s.user = .deleteClear → (s.task s.current).map StreamTask.pc ≠ some .ended)))
  | .task g _ _ => inferInstanceAs (Decidable (s.takesStart g = true → s.verified = true))
  | .start => isTrue trivial
  | .release => isTrue trivial
  | .trigger => isTrue trivial
  | .completed _ => isTrue trivial
  | .schedulePending => isTrue trivial

end StreamSys

/-! ## The runs -/

namespace StreamRuns

variable {G : GraphDepth} {R : StreamRuns}

/-- The event says that no run is on, and the graph runs only while one is submitted. -/
structure Ok (R : StreamRuns) : Prop where
  event : R.allGraphCompleted = true → R.None
  running : R.state = .running → 0 < R.submittedCount ∨ 0 < R.schedulePendingCount ∨ 0 < R.scheduleCount

/-- The runs requested and not completed. -/
def remaining (R : StreamRuns) : Nat := R.submittedCount + R.schedulePendingCount + R.scheduleCount

theorem remaining_schedule (n : Nat) : (R.ownGraphScheduleGraph G n).remaining = R.remaining + n := by
  simp only [ownGraphScheduleGraph, remaining]
  omega

theorem Ok.schedule (h : R.allGraphCompleted = true → R.None) {n : Nat} (hn : 0 < n) : (R.ownGraphScheduleGraph G n).Ok := by
  have hpos := G.pos
  constructor
  · intro he
    simp only [ownGraphScheduleGraph, Bool.and_eq_true, beq_iff_eq] at he
    obtain ⟨he, hz⟩ := he
    obtain ⟨h0, -, -⟩ := h he
    omega
  · intro _
    simp only [ownGraphScheduleGraph]
    omega

theorem Ok.completed (h : R.Ok) (abandoned : Bool) : (R.ownCheckGraphCompleted abandoned).Ok := by
  constructor
  · intro he
    simp only [ownCheckGraphCompleted, Bool.or_eq_true, Bool.and_eq_true, beq_iff_eq] at he
    rcases he with he | ⟨h1, h2⟩
    · obtain ⟨h0, h1, -⟩ := h.event he
      simp only [ownCheckGraphCompleted, None, true_and]
      omega
    · simp only [ownCheckGraphCompleted, None, true_and]
      omega
  · intro hr
    simp only [ownCheckGraphCompleted] at hr ⊢
    by_cases hz : R.submittedCount - 1 = 0
    · rw [if_pos hz] at hr
      cases abandoned <;> cases hr
    · omega

theorem remaining_completed (hp : 0 < R.submittedCount) (hs : R.scheduleCount = 0) (abandoned : Bool) :
    (R.ownCheckGraphCompleted abandoned).remaining + 1 = R.remaining := by
  simp only [ownCheckGraphCompleted, remaining]
  omega

/-- No run is on: the graph is not running. -/
theorem Ok.schedulable (h : R.Ok) (hn : R.None) (hv : R.state ≠ .unverified) : R.schedulable = true := by
  have hr : R.state ≠ .running := by
    intro hr
    have := h.running hr
    obtain ⟨h0, h1, h2⟩ := hn
    omega
  unfold StreamRuns.schedulable
  cases hst : R.state with
  | unverified => exact (hv hst).elim
  | running => exact (hr hst).elim
  | _ => rfl

end StreamRuns

namespace StreamSys

/-! ## The invariant -/

/-- In a queue, no START is behind a STOP. -/
def StopLast (l : List StreamEvent) : Prop := ∀ l₁ l₂, l = l₁ ++ .stop :: l₂ → .start ∉ l₂

/-- The task will schedule nothing before another START is sent. -/
def Quiet (t : StreamTask) (l : List StreamEvent) (R : StreamRuns) : Prop := t.state = .idle ∧ .start ∉ l ∧ R.None

/-- What holds while the user is within a call.  `c` is the number of the streaming objects, `e` that the task failed, `sd` and
`dd` that the events of a stop and of a delete are set, `quiet` that the task is. -/
def UserOk (c : Nat) (e sd dd : Bool) (quiet : Prop) (pc : TaskPc) (l : List StreamEvent) : UserPc → Prop
  | .idle | .startSend | .stopReturn false => .delete ∉ l
  | .stopCheck | .stopSend =>
    .delete ∉ l ∧ .stop ∉ l ∧ pc.answers = false ∧ (sd = true → e = true) ∧ (pc.posted = true → sd = true)
  | .stopWait g =>
    g = c ∧ .delete ∉ l ∧ StopLast l ∧ (sd = true → e = true ∨ quiet) ∧ (pc.posted = true → sd = true) ∧
      (pc.answers = true → .start ∉ l)
  | .stopReturn true => .delete ∉ l ∧ (e = true ∨ quiet)
  | .deleteClear | .taskDelete _ => True
  | .deleteSend => pc = .ended → dd = true
  | .deleteWait g _ => g = c ∧ (pc = .ended → dd = true)
  | .released => False

/-- The streaming objects are there: task `t`, with `l` in its queue. -/
structure Live (s : StreamSys) (t : StreamTask) (l : List StreamEvent) : Prop where
  task : s.task s.current = some t
  queue : s.queue s.current = some l
  alloc : s.isStreamingAlloc = true
  state : (runsDue s.processed).1 = true ↔ t.state = .running
  waits : ∀ q, t.pc = .waitEvent q → q = s.current
  error : t.pc = .errorWait ∨ t.pc = .errorPost ∨ t.pc = .stopPost true → s.isStreamingError = true
  answers : t.pc.answers = true → t.state = .idle
  rests : t.state = .idle → (∃ q, t.pc = .waitEvent q) ∨ t.pc = .stopPost false → s.runs.None
  stopped : ∀ n, s.stopped = some n → Quiet t l s.runs ∧ s.runs.requested = n
  user : UserOk s.current s.isStreamingError (s.stopDone s.current) (s.deleteDone s.current) (Quiet t l s.runs) t.pc l s.user

/-- Nothing is allocated yet. -/
structure Fresh (s : StreamSys) : Prop where
  task : s.task s.current = none
  alloc : s.isStreamingAlloc = false
  streaming : s.isStreaming = false
  user : s.user = .idle
  processed : s.processed = []
  stopped : s.stopped = none
  runs : s.runs.None

/-- The graph is released. -/
structure Gone (s : StreamSys) : Prop where
  task : s.task s.current = none
  user : s.user = .released
  stopped : ∀ n, s.stopped = some n → s.runs.None ∧ s.runs.requested = n

/-- **The invariant of the hand-shake.** -/
structure Inv (s : StreamSys) : Prop where
  only : ∀ g, g ≠ s.current → s.task g = none
  startFailed : s.startFailed = false
  requested : s.runs.requested = (runsDue s.processed).2
  counted : s.runs.completed + s.runs.remaining = s.runs.requested
  runs : s.runs.Ok
  verified : s.verified = true → s.runs.state ≠ .unverified
  phase : s.Fresh ∨ (∃ t l, s.Live t l) ∨ s.Gone

variable {s s' : StreamSys} {t t' : StreamTask} {l l' : List StreamEvent} {G : GraphDepth}

theorem StopLast.tail {e : StreamEvent} (h : StopLast (e :: l)) : StopLast l :=
  fun l₁ l₂ hl => h (e :: l₁) l₂ (by rw [hl]; rfl)

theorem StopLast.of_notMem (h : .stop ∉ l) : StopLast l :=
  fun _ _ hl => (h (hl ▸ List.mem_append_right _ List.mem_cons_self)).elim

theorem StopLast.append (h : StopLast l) {e : StreamEvent} (he : e ≠ .start) : StopLast (l ++ [e]) := by
  intro l₁ l₂ hl hm
  rcases List.eq_nil_or_concat l₂ with rfl | ⟨l₃, x, rfl⟩
  · cases hm
  · rw [List.concat_eq_append] at hl hm
    have hl' : l ++ [e] = (l₁ ++ .stop :: l₃) ++ [x] := by rw [hl]; simp
    obtain ⟨hl₃, hx⟩ := List.append_inj' hl' rfl
    rcases List.mem_append.1 hm with hm | hm
    · exact h l₁ l₃ hl₃ hm
    · exact he ((List.singleton_inj.1 hx).trans (List.mem_singleton.1 hm).symm)

theorem StopLast.append_stop (h : .stop ∉ l) : StopLast (l ++ [.stop]) := by
  intro l₁ l₂ hl hm
  rcases List.eq_nil_or_concat l₂ with rfl | ⟨l₃, x, rfl⟩
  · cases hm
  · rw [List.concat_eq_append] at hl
    have hl' : l ++ [.stop] = (l₁ ++ .stop :: l₃) ++ [x] := by rw [hl]; simp
    obtain ⟨hl₃, -⟩ := List.append_inj' hl' rfl
    exact h (hl₃ ▸ List.mem_append_right _ List.mem_cons_self)

theorem StopLast.stop_cons (h : StopLast (.stop :: l)) : .start ∉ l := h [] l rfl

theorem Quiet.cons {e : StreamEvent} {R : StreamRuns} (h : Quiet t (e :: l) R) (ht : t'.state = .idle) : Quiet t' l R :=
  ⟨ht, fun hm => h.2.1 (List.mem_cons_of_mem _ hm), h.2.2⟩

section User

variable {c : Nat} {e e' sd dd : Bool} {q q' : Prop} {pc pc' : TaskPc} {u : UserPc}

/-- The events of a queue other than completions of the trigger node are among those of another. -/
def Among (l' l : List StreamEvent) : Prop := (∀ x ∈ l', x ≠ .streamingEvent → x ∈ l) ∧ (StopLast l → StopLast l')

theorem Among.tail {x : StreamEvent} : Among l (x :: l) := ⟨fun _ hx _ => List.mem_cons_of_mem _ hx, StopLast.tail⟩

theorem Among.rfl : Among l l := ⟨fun _ hx _ => hx, id⟩

theorem Among.trigger : Among (l ++ [.streamingEvent]) l := by
  refine ⟨fun x hx hne => ?_, fun h => h.append (by decide)⟩
  rcases List.mem_append.1 hx with hx | hx
  · exact hx
  · exact (hne (List.mem_singleton.1 hx)).elim

theorem Among.notMem (h : Among l' l) {x : StreamEvent} (hne : x ≠ .streamingEvent) (hx : x ∉ l) : x ∉ l' :=
  fun hm => hx (h.1 x hm hne)

/-- The task moves without taking a STOP or a DELETE and without posting. -/
theorem UserOk.move (h : UserOk c e sd dd q pc l u) (he : e = true → e' = true) (hq : q → e' = true ∨ q')
    (ha : pc'.answers = true → pc.answers = true) (hp : pc'.posted = true → pc.posted = true) (hend : pc' = .ended → pc = .ended)
    (hl : Among l' l) : UserOk c e' sd dd q' pc' l' u := by
  have hd : .delete ∉ l → .delete ∉ l' := hl.notMem (by decide)
  cases u with
  | idle => exact hd h
  | startSend => exact hd h
  | stopCheck | stopSend =>
    obtain ⟨h1, h2, h3, h4, h5⟩ := h
    exact ⟨hd h1, hl.notMem (by decide) h2, Bool.eq_false_iff.2 (fun hx => Bool.eq_false_iff.1 h3 (ha hx)),
      fun hs => he (h4 hs), fun hx => h5 (hp hx)⟩
  | stopWait g =>
    obtain ⟨h1, h2, h3, h4, h5, h6⟩ := h
    exact ⟨h1, hd h2, hl.2 h3, fun hs => (h4 hs).elim (fun hx => .inl (he hx)) hq, fun hx => h5 (hp hx),
      fun hx => hl.notMem (by decide) (h6 (ha hx))⟩
  | stopReturn ok =>
    cases ok with
    | false => exact hd h
    | true => exact ⟨hd h.1, h.2.elim (fun hx => .inl (he hx)) hq⟩
  | deleteClear => exact trivial
  | deleteSend => exact fun hx => h (hend hx)
  | deleteWait g ok => exact ⟨h.1, fun hx => h.2 (hend hx)⟩
  | taskDelete => exact trivial
  | released => exact h

/-- The task takes a STOP. -/
theorem UserOk.takeStop (h : UserOk c e sd dd q pc (.stop :: l) u) (hq : q → q') (ha : pc'.answers = true) :
    UserOk c e sd dd q' pc' l u := by
  have hd : .delete ∉ .stop :: l → .delete ∉ l := fun hx hm => hx (List.mem_cons_of_mem _ hm)
  have hp : pc'.posted = false := by
    cases pc' with
    | deletePost | ended => cases ha
    | _ => rfl
  have hend : pc' ≠ .ended := fun hx => by rw [hx] at hp; cases hp
  cases u with
  | idle => exact hd h
  | startSend => exact hd h
  | stopCheck | stopSend => exact (h.2.1 List.mem_cons_self).elim
  | stopWait g =>
    obtain ⟨h1, h2, h3, h4, h5, h6⟩ := h
    exact ⟨h1, hd h2, h3.tail, fun hs => (h4 hs).imp_right hq, fun hx => (Bool.eq_false_iff.1 hp hx).elim,
      fun _ => h3.stop_cons⟩
  | stopReturn ok =>
    cases ok with
    | false => exact hd h
    | true => exact ⟨hd h.1, h.2.imp_right hq⟩
  | deleteClear => exact trivial
  | deleteSend => exact fun hx => (hend hx).elim
  | deleteWait g ok => exact ⟨h.1, fun hx => (hend hx).elim⟩
  | taskDelete => exact trivial
  | released => exact h

/-- The task takes a DELETE: the user has sent it. -/
theorem UserOk.takeDelete (h : UserOk c e sd dd q pc (.delete :: l) u) : UserOk c e sd dd q' .deletePost l u := by
  have hd : ¬ .delete ∉ .delete :: l := fun hx => hx List.mem_cons_self
  cases u with
  | idle => exact (hd h).elim
  | startSend => exact (hd h).elim
  | stopCheck | stopSend => exact (hd h.1).elim
  | stopWait g => exact (hd h.2.1).elim
  | stopReturn ok =>
    cases ok with
    | false => exact (hd h).elim
    | true => exact (hd h.1).elim
  | deleteClear => exact trivial
  | deleteSend => exact fun hx => by cases hx
  | deleteWait g ok => exact ⟨h.1, fun hx => by cases hx⟩
  | taskDelete => exact trivial
  | released => exact h

/-- The task posts `stop_done`. -/
theorem UserOk.post (h : UserOk c e sd dd q pc l u) (ha : pc.answers = true ∨ e = true) (hq : .start ∉ l → e = true ∨ q)
    (hp : pc'.answers = false) (hend : pc' ≠ .ended) : UserOk c e true dd q pc' l u := by
  cases u with
  | idle => exact h
  | startSend => exact h
  | stopCheck | stopSend =>
    obtain ⟨h1, h2, h3, h4, h5⟩ := h
    refine ⟨h1, h2, hp, fun _ => ?_, fun _ => rfl⟩
    rcases ha with ha | ha
    · rw [h3] at ha
      cases ha
    · exact ha
  | stopWait g =>
    obtain ⟨h1, h2, h3, h4, h5, h6⟩ := h
    refine ⟨h1, h2, h3, fun _ => ?_, fun _ => rfl, fun hx => ?_⟩
    · rcases ha with ha | ha
      · exact hq (h6 ha)
      · exact .inl ha
    · rw [hp] at hx
      cases hx
  | stopReturn ok =>
    cases ok with
    | false => exact h
    | true => exact h
  | deleteClear => exact trivial
  | deleteSend => exact fun hx => (hend hx).elim
  | deleteWait g ok => exact ⟨h.1, fun hx => (hend hx).elim⟩
  | taskDelete => exact trivial
  | released => exact h

/-- The task posts `delete_done` and ends. -/
theorem UserOk.ended (h : UserOk c e sd dd q .deletePost l u) : UserOk c e sd true q .ended l u := by
  cases u with
  | idle => exact h
  | startSend => exact h
  | stopCheck | stopSend => exact ⟨h.1, h.2.1, rfl, h.2.2.2.1, fun _ => h.2.2.2.2 rfl⟩
  | stopWait g => exact ⟨h.1, h.2.1, h.2.2.1, h.2.2.2.1, fun _ => h.2.2.2.2.1 rfl, fun hx => by cases hx⟩
  | stopReturn ok =>
    cases ok with
    | false => exact h
    | true => exact h
  | deleteClear => exact trivial
  | deleteSend => exact fun _ => rfl
  | deleteWait g ok => exact ⟨h.1, fun _ => rfl⟩
  | taskDelete => exact trivial
  | released => exact h

end User

/-! ## The steps of the task -/

theorem runsDue_append (l : List StreamEvent) (e : StreamEvent) : runsDue (l ++ [e]) = afterEvent (runsDue l) e :=
  List.foldl_append

/-- A step of the task that changes neither the runs requested nor what is processed. -/
theorem Inv.of_task (h : Inv s) (hc : s'.current = s.current) (ht : s'.task = Function.update s.task s.current (some t'))
    (hf : s'.startFailed = s.startFailed) (hr : s'.runs.requested = (runsDue s'.processed).2)
    (hn : s'.runs.completed + s'.runs.remaining = s'.runs.requested) (hok : s'.runs.Ok)
    (hv : s'.verified = true → s'.runs.state ≠ .unverified) (hl : s'.Live t' l') : Inv s' := by
  refine ⟨fun g hg => ?_, hf.trans h.startFailed, hr, hn, hok, hv, .inr (.inl ⟨t', l', hl⟩)⟩
  rw [hc] at hg
  rw [ht, Function.update_of_ne hg]
  exact h.only g hg

/-- The task took event `e`; `R` are the runs then, and `t'` where the task goes on. -/
def took (s : StreamSys) (e : StreamEvent) (l : List StreamEvent) (R : StreamRuns) (t' : StreamTask) : StreamSys :=
  { s with
    queue := Function.update s.queue s.current (some l)
    processed := s.processed ++ [e]
    runs := R
    task := Function.update s.task s.current (some t') }

theorem Inv.took (h : Inv s) {e : StreamEvent} {R : StreamRuns} (hl : s.Live t (e :: l))
    (hst : (afterEvent (runsDue s.processed) e).1 = true ↔ t'.state = .running)
    (hr : R.requested = (afterEvent (runsDue s.processed) e).2) (hn : R.completed + R.remaining = R.requested) (hok : R.Ok)
    (hv : s.verified = true → R.state ≠ .unverified)
    (hpc : t'.pc = .waitEvent s.current ∨ t'.pc = .deletePost ∨ t'.state = .idle ∧ (t'.pc = .stopWait ∨ t'.pc = .stopPost false))
    (hrest : t'.state = .idle → t'.pc = .waitEvent s.current ∨ t'.pc = .stopPost false → R.None)
    (hq : Quiet t (e :: l) s.runs → Quiet t' l R ∧ R.requested = s.runs.requested)
    (hu : UserOk s.current s.isStreamingError (s.stopDone s.current) (s.deleteDone s.current) (Quiet t' l R) t'.pc l s.user) :
    Inv (s.took e l R t') := by
  refine h.of_task rfl rfl rfl (hr.trans (congrArg Prod.snd (runsDue_append _ _)).symm) hn hok hv (show Live _ t' l from ?_)
  constructor
  · exact Function.update_self _ _ _
  · exact Function.update_self _ _ _
  · exact hl.alloc
  · exact (Eq.to_iff (congrArg (fun x : Bool × Nat => x.1 = true) (runsDue_append _ _))).trans hst
  · intro q hx
    rcases hpc with hpc | hpc | ⟨-, hpc | hpc⟩ <;> rw [hpc] at hx <;> cases hx
    rfl
  · intro hx
    rcases hpc with hpc | hpc | ⟨-, hpc | hpc⟩ <;> rw [hpc] at hx <;> simp at hx
  · intro hx
    rcases hpc with hpc | hpc | ⟨hi, -⟩
    · rw [hpc] at hx
      cases hx
    · rw [hpc] at hx
      cases hx
    · exact hi
  · rintro hi (⟨q, hx⟩ | hx)
    · rcases hpc with hpc | hpc | ⟨-, hpc | hpc⟩
      · exact hrest hi (.inl hpc)
      all_goals rw [hpc] at hx; cases hx
    · exact hrest hi (.inr hx)
  · intro n hs
    obtain ⟨hquiet, hreq⟩ := hl.stopped n hs
    obtain ⟨hq', hr'⟩ := hq hquiet
    exact ⟨hq', hr'.trans hreq⟩
  · exact hu

theorem request_remaining (R : StreamRuns) :
    (R.request G).remaining = R.remaining + 1 ∧ (R.request G).requested = R.requested + 1 ∧
      (R.request G).completed = R.completed :=
  ⟨StreamRuns.remaining_schedule 1, rfl, rfl⟩

theorem request_ok {R : StreamRuns} (h : R.Ok) : (R.request G).Ok :=
  StreamRuns.Ok.schedule (R := { R with requested := R.requested + 1 }) h.event Nat.one_pos

theorem request_state {R : StreamRuns} (h : R.state ≠ .unverified) : (R.request G).state ≠ .unverified := by
  unfold StreamRuns.request StreamRuns.ownGraphScheduleGraph
  dsimp only
  split
  · exact h
  · exact fun hx => by cases hx

/-- The task takes an event of its queue. -/
theorem Inv.handle (h : Inv s) {e : StreamEvent} (hl : s.Live t (e :: l)) (hpc : t.pc = .waitEvent s.current)
    (hc : t.state = .idle → e = .start → s.verified = true) (V : StreamVerify) :
    Inv ({ s with queue := Function.update s.queue s.current (some l), processed := s.processed ++ [e] }.handle G s.current V
      t.state e) := by
  have hreq := h.requested
  have hnone : t.state = .idle → s.runs.None := fun hi => hl.rests hi (.inl ⟨_, hpc⟩)
  have hmove : ∀ (t' : StreamTask) (q' : Prop), t'.pc = .waitEvent s.current → (Quiet t (e :: l) s.runs → q') →
      UserOk s.current s.isStreamingError (s.stopDone s.current) (s.deleteDone s.current) q' t'.pc l s.user := by
    intro t' q' ht hq
    refine hl.user.move id (fun hx => .inr (hq hx)) ?_ ?_ ?_ .tail <;> rw [ht] <;> intro hx <;> cases hx
  have hon := hl.state
  cases hs : t.state with
  | idle =>
    have hoff : (runsDue s.processed).1 = false := by
      rw [Bool.eq_false_iff]
      intro hx
      have := hon.1 hx
      rw [hs] at this
      cases this
    have hn := hnone hs
    cases e with
    | start =>
      have hver := hc hs rfl
      obtain ⟨hrem, hrq, hcm⟩ := request_remaining (G := G) s.runs
      have hsch := h.runs.schedulable hn (h.verified hver)
      have heq : ({ s with
          queue := Function.update s.queue s.current (some l),
          processed := s.processed ++ [StreamEvent.start] }.handle
          G s.current V .idle .start) = s.took .start l (s.runs.request G) ⟨.running, .waitEvent s.current⟩ := by
        simp only [StreamSys.handle, ownGraphScheduleGraphWrapper, hver, if_true, hsch, Bool.and_true, setTask, StreamSys.took]
      rw [heq]
      refine h.took hl ?_ ?_ ?_ (request_ok h.runs) (fun _ => request_state (h.verified hver)) (.inl rfl) ?_ ?_ ?_
      · simp [afterEvent]
      · rw [hrq, hreq]
        simp [afterEvent, hoff]
      · rw [hrem, hrq, hcm, ← h.counted, Nat.add_assoc]
      · exact fun hx => by cases hx
      · exact fun hq => (hq.2.1 List.mem_cons_self).elim
      · exact hmove ⟨.running, .waitEvent s.current⟩ _ rfl (fun hq => (hq.2.1 List.mem_cons_self).elim)
    | stop =>
      refine h.took hl ?_ hreq h.counted h.runs h.verified (.inr (.inr ⟨rfl, .inr rfl⟩)) (fun _ _ => hn) ?_ ?_
      · simp [afterEvent]
      · exact fun hq => ⟨hq.cons rfl, rfl⟩
      · exact hl.user.takeStop (fun hq => hq.cons rfl) rfl
    | delete =>
      refine h.took hl ?_ hreq h.counted h.runs h.verified (.inr (.inl rfl)) ?_ ?_ ?_
      · simp [afterEvent]
      · rintro - (hx | hx) <;> cases hx
      · exact fun hq => ⟨hq.cons rfl, rfl⟩
      · exact hl.user.takeDelete
    | streamingEvent =>
      refine h.took hl ?_ ?_ h.counted h.runs h.verified (.inl rfl) (fun _ _ => hn) ?_ ?_
      · simp [afterEvent, hoff]
      · rw [hreq]
        simp [afterEvent, hoff]
      · exact fun hq => ⟨hq.cons rfl, rfl⟩
      · exact hmove ⟨.idle, .waitEvent s.current⟩ _ rfl (fun hq => hq.cons rfl)
  | running =>
    have hnq : ¬Quiet t (e :: l) s.runs := fun hq => by
      have := hq.1
      rw [hs] at this
      cases this
    have hon : (runsDue s.processed).1 = true := hon.2 hs
    cases e with
    | start =>
      refine h.took hl ?_ ?_ h.counted h.runs h.verified (.inl rfl) ?_ (fun hq => (hnq hq).elim) ?_
      · simp [afterEvent]
      · rw [hreq]
        simp [afterEvent, hon]
      · exact fun hx => by cases hx
      · exact hmove ⟨.running, .waitEvent s.current⟩ _ rfl (fun hq => (hnq hq).elim)
    | stop =>
      refine h.took hl ?_ hreq h.counted h.runs h.verified (.inr (.inr ⟨rfl, .inl rfl⟩)) ?_ (fun hq => (hnq hq).elim) ?_
      · simp [afterEvent]
      · rintro - (hx | hx) <;> cases hx
      · exact hl.user.takeStop (fun hq => (hnq hq).elim) rfl
    | delete =>
      refine h.took hl ?_ hreq h.counted h.runs h.verified (.inr (.inl rfl)) ?_ (fun hq => (hnq hq).elim) ?_
      · simp [afterEvent]
      · rintro - (hx | hx) <;> cases hx
      · exact hl.user.takeDelete
    | streamingEvent =>
      obtain ⟨hrem, hrq, hcm⟩ := request_remaining (G := G) s.runs
      refine h.took hl ?_ ?_ ?_ (request_ok h.runs) (fun hv => request_state (h.verified hv)) (.inl rfl) ?_
        (fun hq => (hnq hq).elim) ?_
      · simp [afterEvent, hon]
      · rw [hrq, hreq]
        simp [afterEvent, hon]
      · rw [hrem, hrq, hcm, ← h.counted, Nat.add_assoc]
      · exact fun hx => by cases hx
      · exact hmove ⟨.running, .waitEvent s.current⟩ _ rfl (fun hq => (hnq hq).elim)

/-- The task moves on without taking an event; `b` says whether the completion of all runs is still to be waited for. -/
def moved (s : StreamSys) (b e : Bool) (sd dd : Nat → Bool) (t' : StreamTask) : StreamSys :=
  { s with
    runs := { s.runs with allGraphCompleted := b }
    isStreamingError := e
    stopDone := sd
    deleteDone := dd
    task := Function.update s.task s.current (some t') }

theorem Inv.moved (h : Inv s) (hl : s.Live t l) {b e : Bool} {sd dd : Nat → Bool}
    (hb : b = true → s.runs.allGraphCompleted = true) (hst : t'.state = t.state)
    (hw : ∀ q, t'.pc = .waitEvent q → q = s.current)
    (herr : t'.pc = .errorWait ∨ t'.pc = .errorPost ∨ t'.pc = .stopPost true → e = true)
    (hans : t'.pc.answers = true → t'.state = .idle)
    (hrest : t'.state = .idle → (∃ q, t'.pc = .waitEvent q) ∨ t'.pc = .stopPost false → s.runs.None)
    (hu : UserOk s.current e (sd s.current) (dd s.current) (Quiet t' l s.runs) t'.pc l s.user) :
    Inv (s.moved b e sd dd t') := by
  refine h.of_task rfl rfl rfl h.requested h.counted ⟨fun hx => h.runs.event (hb hx), h.runs.running⟩ h.verified
    (show Live _ t' l from ?_)
  refine ⟨Function.update_self _ _ _, hl.queue, hl.alloc, ?_, hw, herr, hans, hrest, fun n hn => ?_, hu⟩
  · rw [hst]
    exact hl.state
  · obtain ⟨⟨hi, hx, hr⟩, hq⟩ := hl.stopped n hn
    exact ⟨⟨hst.trans hi, hx, hr⟩, hq⟩

/-- **One step of the task.** -/
theorem Inv.task_step (h : Inv s) (hl : s.Live t l) {timedOut : Bool} {V : StreamVerify}
    (hc : s.takesStart s.current = true → s.verified = true) (hs : s.taskStep G s.current timedOut V = some s') : Inv s' := by
  unfold taskStep at hs
  rw [hl.task] at hs
  dsimp only at hs
  -- a post leaves the task in its state
  have hstays : ∀ pc' : TaskPc, UserOk s.current s.isStreamingError (s.stopDone s.current) (s.deleteDone s.current)
      (Quiet ⟨t.state, pc'⟩ l s.runs) t.pc l s.user :=
    fun pc' => hl.user.move id (fun hq => .inr ⟨hq.1, hq.2⟩) id id id .rfl
  cases hpc : t.pc with
  | waitEvent q =>
    obtain rfl := hl.waits q hpc
    rw [hpc] at hs
    dsimp only at hs
    rw [hl.queue] at hs
    cases l with
    | nil =>
      dsimp only at hs
      split at hs
      · cases hs
        -- the queue timed out
        refine h.moved hl id rfl (fun q hx => by cases hx) (fun _ => rfl) (fun hx => by cases hx) ?_ ?_
        · rintro - (⟨q, hx⟩ | hx) <;> cases hx
        · exact hl.user.move (fun _ => rfl) (fun _ => .inl rfl) (fun hx => by cases hx) (fun hx => by cases hx)
            (fun hx => by cases hx) .rfl
      · cases hs
    | cons e l =>
      cases hs
      refine h.handle hl hpc (fun hi he => hc ?_) V
      obtain ⟨st, pc⟩ := t
      cases hi
      cases hpc
      unfold takesStart
      rw [hl.task]
      dsimp only
      rw [hl.queue, he]
      rfl
  | stopWait =>
    have hi : t.state = .idle := hl.answers (by rw [hpc]; rfl)
    have hmove : ∀ (pc' : TaskPc) (e' : Bool), pc'.posted = false → (s.isStreamingError = true → e' = true) →
        UserOk s.current e' (s.stopDone s.current) (s.deleteDone s.current) (Quiet ⟨.idle, pc'⟩ l s.runs) pc' l s.user := by
      intro pc' e' hp he
      refine hl.user.move he (fun hq => .inr ⟨rfl, hq.2⟩) (fun _ => by rw [hpc]; rfl) (fun hx => ?_) (fun hx => ?_) .rfl
      · rw [hp] at hx
        cases hx
      · rw [hx] at hp
        cases hp
    rw [hpc] at hs
    dsimp only at hs
    split at hs
    · cases hs
    · split at hs
      · rename_i hw
        have hnone : s.runs.None := h.runs.event (Bool.and_eq_true_iff.1 hw).2
        split at hs
        · cases hs
          refine h.moved hl (fun hx => by cases hx) hi.symm (fun q hx => by cases hx) (fun _ => rfl) (fun _ => rfl) ?_ ?_
          · exact fun _ _ => hnone
          · exact hmove _ _ rfl (fun _ => rfl)
        · cases hs
          refine h.moved hl (fun hx => by cases hx) hi.symm (fun q hx => by cases hx) ?_ (fun _ => rfl) ?_ ?_
          · rintro (hx | hx | hx) <;> cases hx
          · exact fun _ _ => hnone
          · exact hmove _ _ rfl id
      · cases hs
        refine h.moved hl id hi.symm (fun q hx => by cases hx) (fun _ => rfl) (fun _ => rfl) ?_ ?_
        · rintro - (⟨q, hx⟩ | hx) <;> cases hx
        · exact hmove _ _ rfl (fun _ => rfl)
  | stopPost done =>
    have hi : t.state = .idle := hl.answers (by rw [hpc]; rfl)
    rw [hpc] at hs
    cases hs
    cases done with
    | false =>
      have hnone : s.runs.None := hl.rests hi (.inr hpc)
      refine h.moved hl id rfl (fun q hx => by cases hx; rfl) ?_ (fun hx => by cases hx) (fun _ _ => hnone) ?_
      · rintro (hx | hx | hx) <;> cases hx
      · simp only [Function.update_self]
        exact (hstays _).post (.inl (by rw [hpc]; rfl)) (fun hx => .inr ⟨hi, hx, hnone⟩) rfl (fun hx => by cases hx)
    | true =>
      have he : s.isStreamingError = true := hl.error (.inr (.inr hpc))
      refine h.moved hl id rfl (fun q hx => by cases hx) ?_ (fun hx => by cases hx) ?_ ?_
      · rintro (hx | hx | hx) <;> cases hx
      · rintro - (⟨q, hx⟩ | hx) <;> cases hx
      · simp only [Function.update_self]
        exact (hstays _).post (.inr he) (fun _ => .inl he) rfl (fun hx => by cases hx)
  | errorWait =>
    have he : s.isStreamingError = true := hl.error (.inl hpc)
    have hmove : UserOk s.current s.isStreamingError (s.stopDone s.current) (s.deleteDone s.current)
        (Quiet ⟨t.state, .errorPost⟩ l s.runs) .errorPost l s.user :=
      hl.user.move id (fun _ => .inl he) (fun hx => by cases hx) (fun hx => by cases hx) (fun hx => by cases hx) .rfl
    rw [hpc] at hs
    dsimp only at hs
    split at hs
    · cases hs
    · split at hs
      · cases hs
        refine h.moved hl (fun hx => by cases hx) rfl (fun q hx => by cases hx) (fun _ => he) (fun hx => by cases hx) ?_ hmove
        rintro - (⟨q, hx⟩ | hx) <;> cases hx
      · cases hs
        refine h.moved hl id rfl (fun q hx => by cases hx) (fun _ => he) (fun hx => by cases hx) ?_ hmove
        rintro - (⟨q, hx⟩ | hx) <;> cases hx
  | errorPost =>
    have he : s.isStreamingError = true := hl.error (.inr (.inl hpc))
    rw [hpc] at hs
    cases hs
    refine h.moved hl id rfl (fun q hx => by cases hx) ?_ (fun hx => by cases hx) ?_ ?_
    · rintro (hx | hx | hx) <;> cases hx
    · rintro - (⟨q, hx⟩ | hx) <;> cases hx
    · simp only [Function.update_self]
      exact (hstays _).post (.inr he) (fun _ => .inl he) rfl (fun hx => by cases hx)
  | deletePost =>
    rw [hpc] at hs
    cases hs
    refine h.moved hl id rfl (fun q hx => by cases hx) ?_ (fun hx => by cases hx) ?_ ?_
    · rintro (hx | hx | hx) <;> cases hx
    · rintro - (⟨q, hx⟩ | hx) <;> cases hx
    · simp only [Function.update_self]
      have hu := hstays .ended
      rw [hpc] at hu
      exact hu.ended
  | ended =>
    rw [hpc] at hs
    cases hs

/-! ## The runs, and the calls of the user -/

/-- A run is triggered, completed or scheduled: no run becomes one where there is none. -/
theorem Inv.of_runs (h : Inv s) {R : StreamRuns} (hr : R.requested = s.runs.requested)
    (hn : R.completed + R.remaining = s.runs.completed + s.runs.remaining) (hok : R.Ok)
    (hv : s.runs.state ≠ .unverified → R.state ≠ .unverified) (hnone : s.runs.None → R.None) : Inv { s with runs := R } := by
  refine ⟨h.only, h.startFailed, hr.trans h.requested, hn.trans (h.counted.trans hr.symm), hok, fun hx => hv (h.verified hx), ?_⟩
  have hquiet : ∀ {t l}, Quiet t l s.runs → Quiet t l R := fun hq => ⟨hq.1, hq.2.1, hnone hq.2.2⟩
  rcases h.phase with hf | ⟨t, l, hl⟩ | hg
  · exact .inl ⟨hf.task, hf.alloc, hf.streaming, hf.user, hf.processed, hf.stopped, hnone hf.runs⟩
  · refine .inr (.inl ⟨t, l, hl.task, hl.queue, hl.alloc, hl.state, hl.waits, hl.error, hl.answers,
      fun hi hp => hnone (hl.rests hi hp), fun n hx => ?_, ?_⟩)
    · obtain ⟨hq, hreq⟩ := hl.stopped n hx
      exact ⟨hquiet hq, hr.trans hreq⟩
    · exact hl.user.move id (fun hq => .inr (hquiet hq)) id id id .rfl
  · refine .inr (.inr ⟨hg.task, hg.user, fun n hx => ?_⟩)
    obtain ⟨h1, h2⟩ := hg.stopped n hx
    exact ⟨hnone h1, hr.trans h2⟩

/-- An event the queue has no room for is dropped. -/
theorem addEvent_cases (hq : s.queue s.current = some l) (e : StreamEvent) :
    s.addEvent e = some { s with queue := Function.update s.queue s.current (some (l ++ [e])) } ∨ s.addEvent e = none := by
  unfold addEvent
  rw [hq]
  dsimp only
  split
  · exact .inl rfl
  · exact .inr rfl

/-- An event added to the queue leaves the rest. -/
theorem addEvent_queue {e : StreamEvent} (ha : s.addEvent e = some s') : ∃ q, s' = { s with queue := q } := by
  unfold addEvent at ha
  split at ha
  · split at ha
    · cases ha
      exact ⟨_, rfl⟩
    · cases ha
  · cases ha

/-- A step of the user's thread; what it does to the events and to its own place is left open. -/
theorem Inv.of_user (h : Inv s) (hl : s.Live t l) (hc : s'.current = s.current) (ht : s'.task = s.task) (hr : s'.runs = s.runs)
    (hp : s'.processed = s.processed) (hv : s'.verified = s.verified) (he : s'.isStreamingError = s.isStreamingError)
    (ha : s'.isStreamingAlloc = s.isStreamingAlloc) (hf : s'.startFailed = false) (hq : s'.queue s.current = some l')
    (hs : ∀ n, s'.stopped = some n → Quiet t l' s.runs ∧ s.runs.requested = n)
    (hu : UserOk s.current s.isStreamingError (s'.stopDone s.current) (s'.deleteDone s.current) (Quiet t l' s.runs) t.pc l'
      s'.user) : Inv s' := by
  have hl' : Live s' t l' := by
    refine ⟨?_, ?_, ha.trans hl.alloc, ?_, ?_, ?_, hl.answers, ?_, ?_, ?_⟩
    · rw [hc, ht]
      exact hl.task
    · rw [hc]
      exact hq
    · rw [hp]
      exact hl.state
    · rw [hc]
      exact hl.waits
    · rw [he]
      exact hl.error
    · rw [hr]
      exact hl.rests
    · rw [hr]
      exact hs
    · rw [hc, he, hr]
      exact hu
  refine ⟨?_, hf, ?_, ?_, ?_, ?_, .inr (.inl ⟨t, l', hl'⟩)⟩
  · rw [hc, ht]
    exact h.only
  · rw [hr, hp]
    exact h.requested
  · rw [hr]
    exact h.counted
  · rw [hr]
    exact h.runs
  · rw [hv, hr]
    exact h.verified

theorem notMem_append {e x : StreamEvent} (h : x ∉ l) (hne : x ≠ e) : x ∉ l ++ [e] := by
  intro hm
  rcases List.mem_append.1 hm with hm | hm
  · exact h hm
  · exact hne (List.mem_singleton.1 hm)

/-- An event other than a START leaves the task quiet. -/
theorem Live.stopped_append (hl : s.Live t l) {e : StreamEvent} (he : StreamEvent.start ≠ e) (n : Nat) (hn : s.stopped = some n) :
    Quiet t (l ++ [e]) s.runs ∧ s.runs.requested = n := by
  obtain ⟨hq, hr⟩ := hl.stopped n hn
  exact ⟨⟨hq.1, notMem_append hq.2.1 he, hq.2.2⟩, hr⟩

/-- The completion of the trigger node adds its event. -/
theorem Inv.trigger (h : Inv s) : Inv ((s.addEvent .streamingEvent).getD s) := by
  cases ha : s.addEvent .streamingEvent with
  | none => exact h
  | some s' =>
    obtain ⟨q, rfl⟩ := addEvent_queue ha
    rcases h.phase with hf | ⟨t, l, hl⟩ | hg
    · exact ⟨h.only, h.startFailed, h.requested, h.counted, h.runs, h.verified, .inl ⟨hf.task, hf.alloc, hf.streaming, hf.user,
        hf.processed, hf.stopped, hf.runs⟩⟩
    · rcases addEvent_cases hl.queue .streamingEvent with he | he
      · rw [he] at ha
        cases ha
        refine h.of_user hl rfl rfl rfl rfl rfl rfl rfl h.startFailed (Function.update_self _ _ _)
          (hl.stopped_append (by decide)) ?_
        exact hl.user.move id (fun hq => .inr ⟨hq.1, notMem_append hq.2.1 (by decide), hq.2.2⟩) id id id .trigger
      · rw [he] at ha
        cases ha
    · exact ⟨h.only, h.startFailed, h.requested, h.counted, h.runs, h.verified, .inr (.inr ⟨hg.task, hg.user, hg.stopped⟩)⟩

/-- **One step of the user** within a call. -/
theorem Inv.user_step (h : Inv s) (hl : s.Live t l) {timedOut : Bool} (hcond : s.streamCond (.user timedOut))
    (hs : s.userStep timedOut = some s') : Inv s' := by
  have hu := hl.user
  unfold userStep at hs
  cases hp : s.user with
  | idle =>
    rw [hp] at hs
    cases hs
  | released =>
    rw [hp] at hs
    cases hs
  | startSend =>
    rw [hp] at hs hu
    dsimp only at hs
    rcases addEvent_cases hl.queue .start with ha | ha
    · rw [ha] at hs
      cases hs
      refine h.of_user hl rfl rfl rfl rfl rfl rfl rfl rfl (Function.update_self _ _ _) (fun n hn => by cases hn) ?_
      exact notMem_append hu (by decide)
    · exact (hcond.1 hp ha).elim
  | stopCheck =>
    rw [hp] at hs hu
    cases hs
    refine h.of_user hl rfl rfl rfl rfl rfl rfl rfl h.startFailed hl.queue hl.stopped ?_
    by_cases he : s.isStreamingError = true
    · simp only [if_pos he]
      obtain ⟨h1, h2, h3, h4, h5⟩ := hu
      exact ⟨rfl, h1, .of_notMem h2, fun hx => .inl (h4 hx), h5, fun hx => (Bool.eq_false_iff.1 h3 hx).elim⟩
    · simp only [if_neg he]
      exact hu
  | stopSend =>
    rw [hp] at hs hu
    dsimp only at hs
    obtain ⟨h1, h2, h3, h4, h5⟩ := hu
    rcases addEvent_cases hl.queue .stop with ha | ha
    · rw [ha] at hs
      cases hs
      refine h.of_user hl rfl rfl rfl rfl rfl rfl rfl h.startFailed (Function.update_self _ _ _)
        (hl.stopped_append (by decide)) ?_
      exact ⟨rfl, notMem_append h1 (by decide), .append_stop h2, fun hx => .inl (h4 hx), h5,
        fun hx => (Bool.eq_false_iff.1 h3 hx).elim⟩
    · rw [ha] at hs
      cases hs
      exact h.of_user hl rfl rfl rfl rfl rfl rfl rfl h.startFailed hl.queue hl.stopped h1
  | stopWait g =>
    rw [hp] at hs hu
    dsimp only at hs
    obtain ⟨rfl, h1, h2, h3, h4, h5⟩ := hu
    split at hs
    · rename_i hsd
      cases hs
      exact h.of_user hl rfl rfl rfl rfl rfl rfl rfl h.startFailed hl.queue hl.stopped ⟨h1, h3 hsd⟩
    · split at hs
      · cases hs
        exact h.of_user hl rfl rfl rfl rfl rfl rfl rfl h.startFailed hl.queue hl.stopped h1
      · cases hs
  | stopReturn ok =>
    rw [hp] at hs hu
    cases hs
    refine h.of_user hl rfl rfl rfl rfl rfl rfl rfl h.startFailed hl.queue (fun n hn => ?_) ?_
    · dsimp only at hn
      split at hn
      · rename_i hok
        cases hn
        cases ok with
        | false => cases hok
        | true =>
          refine ⟨hu.2.resolve_left (fun he => ?_), rfl⟩
          rw [he] at hok
          cases hok
      · exact hl.stopped n hn
    · cases ok with
      | false => exact hu
      | true => exact hu.1
  | deleteClear =>
    rw [hp] at hs
    cases hs
    refine h.of_user hl rfl rfl rfl rfl rfl rfl rfl h.startFailed hl.queue hl.stopped (fun hx => ?_)
    refine (hcond.2 hp ?_).elim
    rw [hl.task, ← hx]
    rfl
  | deleteSend =>
    rw [hp] at hs hu
    dsimp only at hs
    rcases addEvent_cases hl.queue .delete with ha | ha
    · rw [ha] at hs
      cases hs
      exact h.of_user hl rfl rfl rfl rfl rfl rfl rfl h.startFailed (Function.update_self _ _ _)
        (hl.stopped_append (by decide)) ⟨rfl, hu⟩
    · rw [ha] at hs
      cases hs
      exact h.of_user hl rfl rfl rfl rfl rfl rfl rfl h.startFailed hl.queue hl.stopped ⟨rfl, hu⟩
  | deleteWait g ok =>
    rw [hp] at hs
    dsimp only at hs
    split at hs
    · cases hs
      exact h.of_user hl rfl rfl rfl rfl rfl rfl rfl h.startFailed hl.queue hl.stopped trivial
    · split at hs
      · cases hs
        exact h.of_user hl rfl rfl rfl rfl rfl rfl rfl h.startFailed hl.queue hl.stopped trivial
      · cases hs
  | taskDelete ok =>
    rw [hp] at hs
    cases hs
    refine ⟨fun g hg => ?_, h.startFailed, h.requested, h.counted, h.runs, h.verified, .inr (.inr ⟨Function.update_self _ _ _,
      rfl, fun n hn => ?_⟩)⟩
    · exact (Function.update_of_ne hg _ _).trans (h.only g hg)
    · obtain ⟨hq, hr⟩ := hl.stopped n hn
      exact ⟨hq.2.2, hr⟩

/-! ## A step, and a run -/

/-- A graph with no streaming objects, and its user in no call, is as it was created. -/
theorem Inv.fresh (h : Inv s) (hu : s.user = .idle) (ha : s.isStreamingAlloc = false) : s.Fresh := by
  rcases h.phase with hf | ⟨t, l, hl⟩ | hg
  · exact hf
  · rw [hl.alloc] at ha
    cases ha
  · rw [hg.user] at hu
    cases hu

/-- Verification gives the graph its task. -/
theorem Inv.alloc (h : Inv s) (hf : s.Fresh) (v : Bool) (st : VxGraphState) (hst : v = true → st ≠ .unverified)
    (hr : st = .running → s.runs.state = .running) :
    Inv { s.alloc with verified := v, runs := { s.runs with state := st } } := by
  refine ⟨fun g hg => ?_, h.startFailed, h.requested, h.counted, ⟨h.runs.event, fun hx => h.runs.running (hr hx)⟩, hst,
    .inr (.inl ⟨⟨.idle, .waitEvent (s.current + 1)⟩, [], Function.update_self _ _ _, Function.update_self _ _ _, rfl, ?_, ?_,
      ?_, fun _ => rfl, fun _ _ => hf.runs, fun n hn => ?_, ?_⟩)⟩
  · refine (Function.update_of_ne hg _ _).trans ?_
    by_cases hc : g = s.current
    · rw [hc]
      exact hf.task
    · exact h.only g hc
  · have : (runsDue s.processed).1 = false := by rw [hf.processed]; rfl
    dsimp only [StreamSys.alloc]
    rw [this]
    exact ⟨fun hx => (Bool.false_ne_true hx).elim, fun hx => by cases hx⟩
  · rintro q hx
    cases hx
    rfl
  · rintro (hx | hx | hx) <;> cases hx
  · have hs : s.stopped = some n := hn
    rw [hf.stopped] at hs
    cases hs
  · have : s.user = .idle := hf.user
    dsimp only [StreamSys.alloc]
    rw [this]
    exact List.not_mem_nil

theorem Inv.verify (h : Inv s) (hu : s.user = .idle) {V : StreamVerify} (hc : V ≠ .failsBefore → s.isStreamingAlloc = false) :
    Inv (s.vxVerifyGraph V) := by
  cases V with
  | failsBefore =>
    refine ⟨h.only, h.startFailed, h.requested, h.counted, h.runs, (fun hx => by cases hx), ?_⟩
    rcases h.phase with hf | ⟨t, l, hl⟩ | hg
    · exact .inl ⟨hf.task, hf.alloc, hf.streaming, hf.user, hf.processed, hf.stopped, hf.runs⟩
    · exact .inr (.inl ⟨t, l, hl.task, hl.queue, hl.alloc, hl.state, hl.waits, hl.error, hl.answers, hl.rests, hl.stopped,
        hl.user⟩)
    · exact .inr (.inr ⟨hg.task, hg.user, hg.stopped⟩)
  | allocFails =>
    have hf := h.fresh hu (hc (fun hx => by cases hx))
    have hnone : ∀ g, s.task g = none := fun g => by
      by_cases hg : g = s.current
      · rw [hg]
        exact hf.task
      · exact h.only g hg
    exact ⟨fun g _ => hnone g, h.startFailed, h.requested, h.counted, h.runs, (fun hx => by cases hx),
      .inl ⟨hnone _, hf.alloc, hf.streaming, hf.user, hf.processed, hf.stopped, hf.runs⟩⟩
  | failsAfter =>
    have hf := h.fresh hu (hc (fun hx => by cases hx))
    exact h.alloc hf false s.runs.state (fun hx => by cases hx) id
  | succeeds =>
    have hf := h.fresh hu (hc (fun hx => by cases hx))
    exact h.alloc hf true .verified (fun _ hx => by cases hx) (fun hx => by cases hx)

/-- **One step.** -/
theorem Inv.step {a : Act} (h : Inv s) (hc : s.streamCond a) (hs : step G s a = some s') : Inv s' := by
  cases a with
  | verify V =>
    simp only [StreamSys.step] at hs
    split at hs
    · rename_i hu
      cases hs
      exact h.verify hu hc
    · cases hs
  | start =>
    simp only [StreamSys.step] at hs
    split at hs
    · rename_i hu
      split at hs
      · rename_i ha
        cases hs
        rcases h.phase with hf | ⟨t, l, hl⟩ | hg
        · rw [hf.alloc] at ha
          cases ha
        · have hd := hl.user
          rw [hu] at hd
          exact h.of_user hl rfl rfl rfl rfl rfl rfl rfl h.startFailed hl.queue hl.stopped hd
        · rw [hg.user] at hu
          cases hu
      · cases hs
        exact h
    · cases hs
  | stop =>
    simp only [StreamSys.step] at hs
    split at hs
    · rename_i hu
      split at hs
      · rename_i hst
        cases hs
        rcases h.phase with hf | ⟨t, l, hl⟩ | hg
        · rw [hf.streaming] at hst
          cases hst
        · have hd := hl.user
          rw [hu] at hd
          -- no STOP is on its way
          have hno : s.stopUnderWay = false := hc hu hst
          unfold stopUnderWay at hno
          rw [hl.queue, hl.task] at hno
          simp only [Option.getD_some, Bool.or_eq_false_iff] at hno
          refine h.of_user hl rfl rfl rfl rfl rfl rfl rfl h.startFailed hl.queue hl.stopped ⟨hd, ?_, hno.2.1, ?_, ?_⟩
          · intro hm
            rw [List.contains_iff_mem.2 hm] at hno
            cases hno.1
          · intro hx
            simp only [Function.update_self] at hx
            cases hx
          · intro hx
            rw [hno.2.2] at hx
            cases hx
        · rw [hg.user] at hu
          cases hu
      · cases hs
        exact h
    · cases hs
  | release =>
    simp only [StreamSys.step] at hs
    split at hs
    · rename_i hu
      cases hs
      rcases h.phase with hf | ⟨t, l, hl⟩ | hg
      · rw [if_neg (by rw [hf.alloc]; decide)]
        exact ⟨h.only, h.startFailed, h.requested, h.counted, h.runs, h.verified, .inr (.inr ⟨hf.task, rfl,
          fun n hn => by rw [hf.stopped] at hn; cases hn⟩)⟩
      · rw [if_pos hl.alloc]
        refine h.of_user hl rfl rfl rfl rfl rfl rfl rfl h.startFailed hl.queue hl.stopped ?_
        split <;> exact trivial
      · rw [hg.user] at hu
        cases hu
    · cases hs
  | user timedOut =>
    simp only [StreamSys.step] at hs
    rcases h.phase with hf | ⟨t, l, hl⟩ | hg
    · unfold userStep at hs
      rw [hf.user] at hs
      cases hs
    · exact h.user_step hl hc hs
    · unfold userStep at hs
      rw [hg.user] at hs
      cases hs
  | task g timedOut V =>
    simp only [StreamSys.step] at hs
    have hg : s.task g ≠ none := by
      intro hn
      unfold taskStep at hs
      rw [hn] at hs
      cases hs
    obtain rfl : g = s.current := by
      by_contra hne
      exact hg (h.only g hne)
    rcases h.phase with hf | ⟨t, l, hl⟩ | hgone
    · exact (hg hf.task).elim
    · exact h.task_step hl hc hs
    · exact (hg hgone.task).elim
  | trigger =>
    simp only [StreamSys.step] at hs
    split at hs
    · cases hs
      exact Inv.trigger (h.of_runs (R := { s.runs with triggersDue := s.runs.triggersDue - 1 }) rfl rfl
        ⟨h.runs.event, h.runs.running⟩ id id)
    · cases hs
  | completed abandoned =>
    simp only [StreamSys.step] at hs
    split at hs
    · rename_i hr
      cases hs
      have hrem := StreamRuns.remaining_completed hr.1 hr.2 abandoned
      refine h.of_runs rfl ?_ (h.runs.completed abandoned) ?_ ?_
      · have : (s.runs.ownCheckGraphCompleted abandoned).completed = s.runs.completed + 1 := rfl
        omega
      · intro hv
        unfold StreamRuns.ownCheckGraphCompleted
        dsimp only
        split
        · cases abandoned <;> exact fun hx => by cases hx
        · exact hv
      · intro hn
        have := hn.1
        omega
    · cases hs
  | schedulePending =>
    simp only [StreamSys.step] at hs
    split at hs
    · rename_i hr
      cases hs
      have hrem := StreamRuns.remaining_schedule (G := G) (R := { s.runs with scheduleCount := 0 }) s.runs.scheduleCount
      refine h.of_runs rfl ?_ (StreamRuns.Ok.schedule (fun he => ?_) hr) ?_ ?_
      · rw [hrem]
        rfl
      · have := (h.runs.event he).2.2
        omega
      · intro hv
        unfold StreamRuns.ownGraphScheduleGraph
        dsimp only
        split
        · exact hv
        · exact fun hx => by cases hx
      · intro hn
        have := hn.2.2
        omega
    · cases hs

theorem inv_start : Inv {} :=
  ⟨fun _ _ => rfl, rfl, rfl, rfl, ⟨fun hx => (Bool.false_ne_true hx).elim, fun hx => by cases hx⟩,
    fun hx => (Bool.false_ne_true hx).elim, .inl ⟨rfl, rfl, rfl, rfl, rfl, rfl, rfl, rfl, rfl⟩⟩

theorem Inv.streams (h : Inv s) : s.Streams := by
  have hcount : s.runs.completed + s.runs.submittedCount + s.runs.schedulePendingCount + s.runs.scheduleCount =
      s.runs.requested := by
    rw [← h.counted]
    simp only [StreamRuns.remaining]
    omega
  have hone : ∀ g, (s.task g).isSome → g = s.current := by
    intro g hg
    by_contra hne
    rw [h.only g hne] at hg
    cases hg
  refine ⟨h.requested, hcount, ?_, ?_, ?_, fun hf => ?_, fun g g' hg hg' => (hone g hg).trans (hone g' hg').symm⟩
  · intro n hn
    rcases h.phase with hf | ⟨t, l, hl⟩ | hg
    · rw [hf.stopped] at hn
      cases hn
    · exact ⟨(hl.stopped n hn).1.2.2, (hl.stopped n hn).2⟩
    · exact hg.stopped n hn
  · rintro g hu ⟨t', ht', hpc⟩
    obtain rfl := hone g (by rw [ht']; rfl)
    rcases h.phase with hf | ⟨t, l, hl⟩ | hg
    · rw [hf.task] at ht'
      cases ht'
    · have hu' := hl.user
      rw [hu] at hu'
      rw [hl.task] at ht'
      cases ht'
      refine hu'.2.2.2.2.1 ?_
      rcases hpc with hpc | hpc <;> rw [hpc] <;> rfl
    · rw [hg.task] at ht'
      cases ht'
  · rintro g ok hu ⟨t', ht', hpc⟩
    obtain rfl := hone g (by rw [ht']; rfl)
    rcases h.phase with hf | ⟨t, l, hl⟩ | hg
    · rw [hf.task] at ht'
      cases ht'
    · have hu' := hl.user
      rw [hu] at hu'
      rw [hl.task] at ht'
      cases ht'
      exact hu'.2 hpc
    · rw [hg.task] at ht'
      cases ht'
  · rw [h.startFailed] at hf
    cases hf

/-- **Streaming keeps its promises** in every run of the user's calls, the task, the triggers and the completions, where the
streaming objects are allocated once, a START finds room and a verified graph, and a stop or a delete begins after the
answers before it and before the last. -/
theorem streams_of_reach (G : GraphDepth) (s : StreamSys) (hr : Reach (step G) streamCond {} s) : s.Streams :=
  Inv.streams (hr.inv inv_start (fun _ _ _ h hc hs => h.step hc hs))

def twoDescs : GraphDepth := ⟨2, Nat.zero_lt_two⟩

/-- A START, a completion of the trigger node and a stop: two runs, both completed when the stop returns. -/
theorem streams_stopped : ∃ s, Reach (step twoDescs) streamCond {} s ∧
    (s.stopped = some 2 ∧ s.runs.completed = 2 ∧ s.user = .idle) ∧ s.Streams := by
  have hexec : (exec (step twoDescs) (fun s a => decide (s.streamCond a)) {}
      [.verify .succeeds, .start, .user false, .task 1 false .succeeds, .trigger, .task 1 false .succeeds, .stop, .user false,
        .user false, .completed false, .task 1 false .succeeds, .completed false, .task 1 false .succeeds,
        .task 1 false .succeeds, .user false, .user false]).map (fun s => (s.stopped, s.runs.completed, s.user)) =
      some (some 2, 2, .idle) := by decide
  obtain ⟨s, hr, hs⟩ := exists_reach_of_exec hexec
  have hc := hr.mono (fun _ _ h => of_decide_eq_true h)
  simp only [Prod.mk.injEq] at hs
  exact ⟨s, hc, hs, streams_of_reach twoDescs s hc⟩

/-- A second verification makes a second task. -/
theorem secondTask_not_streams : ∃ s, Reach (step twoDescs) (fun s a => anyStep s a = true) {} s ∧ ¬s.Streams := by
  have hexec : (exec (step twoDescs) anyStep {} [.verify .succeeds, .verify .succeeds]).map
      (fun s => ((s.task 1).isSome, (s.task 2).isSome)) = some (true, true) := by decide
  obtain ⟨s, hr, hs⟩ := exists_reach_of_exec hexec
  simp only [Prod.mk.injEq] at hs
  refine ⟨s, hr, fun h => ?_⟩
  have := h.oneTask 1 2 hs.1 hs.2
  omega

end StreamSys

end Tiovx
