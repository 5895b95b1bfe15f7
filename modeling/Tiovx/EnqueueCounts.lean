import Mathlib.Tactic
import Tiovx.Lib.Run
import Tiovx.ObjDesc
import Tiovx.GraphData
import Tiovx.CmdObjects
/-!
# EnqueueCounts — how often a reference is enqueued, and the flag of an output (`vx_graph_pipeline.c`)

An enqueue of a reference, and a dequeue of one, each run under the lock of the data reference queues: they are the steps of
the users.  Between the ready queue and the done queue the reference is in the targets' hands.  The graph parameters of all
graphs are numbered, and so are the references.
-/
namespace Tiovx

open StepSystem

/-- A graph parameter in queueing mode, with what its node's descriptor says of the node parameter. -/
structure QueuePrm where
  isInput : Bool
  isReplicated : Bool := false
  numOfReplicas : Nat := 0
  type : RefType := .image
  refsList : List Nat := []

/-- The references and the graph parameters of a context. -/
structure QueuePrms where
  ref : Nat → VxRef := fun _ => {}
  prm : Nat → QueuePrm := fun _ => ⟨true, false, 0, .image, []⟩

/-- Object arrays and pyramids. -/
def VxRef.isContainer (r : VxRef) : Bool := decide (r.type = .objectArray) || decide (r.type = .pyramid)

/-- The items of an object array, the levels of a pyramid. -/
def VxRef.items (r : VxRef) : List Nat := if r.isContainer then r.elements else []

/-- `num_enqueues`, sixteen bits wide, and `TIVX_OBJ_DESC_DATA_REF_GRAPH_PARAM_ENQUEUED` among the flags. -/
structure RefMarks where
  numEnqueues : Nat := 0
  enqueued : Bool := false
deriving DecidableEq

/-- An enqueue that no dequeue has ended yet: the reference or, at a replicated parameter, its container. -/
structure Enqueue where
  base : Nat
  isInput : Bool
deriving DecidableEq

/-- The marks, the queues of every graph parameter, and the references in the targets' hands with the parameter each was
taken at.  `outstanding` is a record of the calls that the code does not keep. -/
structure Enqueues where
  desc : Nat → RefMarks := fun _ => {}
  readyQ : Nat → List Nat := fun _ => []
  doneQ : Nat → List Nat := fun _ => []
  held : List (Nat × Nat) := []
  outstanding : List Enqueue := []

variable (G : QueuePrms)

/-- What an enqueue of `r` at parameter `p` checks and marks: `objd`, and the first `num_replicas` of `ref_list`. -/
def QueuePrms.marked (p r : Nat) : Option (Nat × List Nat) :=
  if (G.prm p).isReplicated then
    match (G.ref r).scope with
    | some c => if (G.ref c).isContainer then some (c, (G.ref c).items.take (G.prm p).numOfReplicas) else none
    | none => none
  else some (r, (G.ref r).items)

/-- `can_be_queued`. -/
def Enqueues.canBeQueued (s : Enqueues) (isInput : Bool) (x : Nat) : Bool :=
  !((s.desc x).enqueued || !isInput && decide (0 < (s.desc x).numEnqueues))

/-- The increment of `num_enqueues`, and the flag unless the parameter is an input. -/
def RefMarks.enqueue (isInput : Bool) (d : RefMarks) : RefMarks :=
  ⟨(d.numEnqueues + 1) % 2 ^ 16, d.enqueued || !isInput⟩

/-- The decrement of a count that is not zero, with the flag. -/
def RefMarks.dequeue (d : RefMarks) : RefMarks :=
  if 0 < d.numEnqueues then ⟨d.numEnqueues - 1, false⟩ else d

/-- Changes the marks of the references in a list, one after the other. -/
def updateMarks (f : RefMarks → RefMarks) (desc : Nat → RefMarks) (l : List Nat) : Nat → RefMarks :=
  l.foldl (fun desc x => Function.update desc x (f (desc x))) desc

/-- The conditions under which `ownGraphParameterEnqueueReadyRef` puts `r` into the ready queue of parameter `p`. -/
def Enqueues.accepts (s : Enqueues) (p r : Nat) : Bool :=
  decide (r ∈ (G.prm p).refsList) && decide ((s.readyQ p).length < objDescQueueMaxDepth) &&
    match G.marked p r with
    | some (b, l) => (b :: l).all (s.canBeQueued (G.prm p).isInput)
    | none => false

/-- One reference of a call of `ownGraphParameterEnqueueReadyRef`, with its status. -/
def Enqueues.ownGraphParameterEnqueueReadyRef (s : Enqueues) (p r : Nat) : Enqueues × Int :=
  if s.accepts G p r then
    match G.marked p r with
    | some (b, l) =>
      ({ s with desc := updateMarks (RefMarks.enqueue (G.prm p).isInput) s.desc (b :: l),
                readyQ := Function.update s.readyQ p (s.readyQ p ++ [r]),
                outstanding := s.outstanding ++ [⟨b, (G.prm p).isInput⟩] }, vxSuccess)
    | none => (s, vxFailure)
  else (s, vxFailure)

/-- `ownDecrementEnqueueCount`: the flag of the reference goes even where its count is zero, which is an error unless the
reference is a slot of a delay. -/
def ownDecrementEnqueueCount (desc : Nat → RefMarks) (r : Nat) : (Nat → RefMarks) × Int :=
  let cleared := Function.update desc r { desc r with enqueued := false }
  if 0 < (desc r).numEnqueues then (updateMarks RefMarks.dequeue cleared (r :: (G.ref r).items), vxSuccess)
  else (cleared, if (G.ref r).delay = none then vxFailure else vxSuccess)

/-- The reference whose count a dequeue of `r` at parameter `p` decrements. -/
def QueuePrms.dequeued (p r : Nat) : Option Nat :=
  if (G.prm p).isReplicated then
    match if (G.ref r).type = (G.prm p).type then (G.ref r).scope else some r with
    | some c => if (G.ref c).isContainer then some c else none
    | none => none
  else some r

/-- What a dequeue gives back once the count of `b` was decremented: the first element of a replicated parameter, and no
reference of another type than the parameter's. -/
def QueuePrms.givenBack (p b : Nat) (status : Int) : Int × Option Nat :=
  let ref := if (G.prm p).isReplicated then (G.ref b).items.head? else some b
  if status = vxSuccess then
    if ref.map (fun r => (G.ref r).type) = some (G.prm p).type then (vxSuccess, ref) else (vxErrorInvalidParameters, none)
  else (status, none)

/-- One reference of a call of `vxGraphParameterDequeueDoneRef`, with its status; it waits while the done queue is empty. -/
def Enqueues.vxGraphParameterDequeueDoneRef (s : Enqueues) (p : Nat) : Option (Enqueues × Int × Option Nat) :=
  match s.doneQ p with
  | [] => none
  | r :: l =>
    match G.dequeued p r with
    | some b =>
      let d := ownDecrementEnqueueCount G s.desc b
      some ({ s with desc := d.1, doneQ := Function.update s.doneQ p l,
                     outstanding := s.outstanding.eraseP (fun e => decide (e.base = b)) }, G.givenBack p b d.2)
    | none => some ({ s with doneQ := Function.update s.doneQ p l }, vxFailure, none)

/-- The users enqueue and dequeue; a target acquires from a ready queue and releases into a done queue, where a reference
of a delay has gone round the slots; the queues of a delay's slots are primed with their references. -/
inductive EnqueueAct
  | enqueue (p r : Nat)
  | dequeue (p : Nat)
  | acquire (p : Nat)
  | release (p q r : Nat)
  | prime (p r : Nat)

def enqueueStep (s : Enqueues) : EnqueueAct → Option Enqueues
  | .enqueue p r => some (s.ownGraphParameterEnqueueReadyRef G p r).1
  | .dequeue p => (s.vxGraphParameterDequeueDoneRef G p).map Prod.fst
  | .acquire p =>
    match s.readyQ p with
    | [] => none
    | r :: l => some { s with readyQ := Function.update s.readyQ p l, held := (p, r) :: s.held }
  | .release p q r =>
    if (p, r) ∈ s.held ∧ (q = p ∨ (G.ref r).delay ≠ none) ∧ (s.doneQ q).length < objDescQueueMaxDepth then
      some { s with held := s.held.erase (p, r), doneQ := Function.update s.doneQ q (s.doneQ q ++ [r]) }
    else none
  | .prime p r => if (G.ref r).delay ≠ none then some { s with held := (p, r) :: s.held } else none

/-- A reference is included in itself, and the elements of a container in all that includes the container. -/
def QueuePrms.Includes (b r : Nat) : Prop := Relation.ReflTransGen (fun c x => x ∈ (G.ref c).items) b r

open Classical in
/-- The enqueues outstanding of `r` or of a container that includes it. -/
noncomputable def Enqueues.enqueuesOf (s : Enqueues) (r : Nat) : Nat :=
  s.outstanding.countP (fun e => decide (G.Includes e.base r))

/-- **Counts and flags are right**: a count is the number of outstanding enqueues that include the reference, the flag says
that one of them is at an output, and what an enqueue at an output includes no other enqueue includes. -/
structure Enqueues.MarksRight (s : Enqueues) : Prop where
  numEnqueues : ∀ r, (s.desc r).numEnqueues = s.enqueuesOf G r
  enqueued : ∀ r, (s.desc r).enqueued = true ↔ ∃ e ∈ s.outstanding, e.isInput = false ∧ G.Includes e.base r
  exclusive : s.outstanding.Pairwise (fun e e' => e.isInput = false ∨ e'.isInput = false →
    ∀ r, ¬(G.Includes e.base r ∧ G.Includes e'.base r))

/-! ## When the marks are right -/

/-- The reference `b` and the elements of it that an enqueue marks: all of them, each once, none a container itself. -/
def QueuePrms.Flat (b : Nat) (l : List Nat) : Prop := l = (G.ref b).items ∧ l.Nodup ∧ ∀ x ∈ l, (G.ref x).items = []

instance (b : Nat) (l : List Nat) : Decidable (G.Flat b l) := inferInstanceAs (Decidable (_ ∧ _ ∧ _))

/-- No outstanding enqueue is of a container of `b`, unless one is of `b` itself. -/
def Enqueues.Returned (s : Enqueues) (b : Nat) : Prop :=
  (∃ e ∈ s.outstanding, e.base = b) ∨ ∀ e ∈ s.outstanding, b ∉ (G.ref e.base).items

instance (s : Enqueues) (b : Nat) : Decidable (s.Returned G b) := inferInstanceAs (Decidable (_ ∨ _))

/-- A reference is put into a ready queue only with all its elements, no container among them, and below the greatest count;
one is dequeued only where it was enqueued itself or no container of it is outstanding. -/
def marksCond (s : Enqueues) : EnqueueAct → Prop
  | .enqueue p r => s.accepts G p r = true → ∀ m ∈ G.marked p r,
      G.Flat m.1 m.2 ∧ ∀ x ∈ m.1 :: m.2, (s.desc x).numEnqueues + 1 < 2 ^ 16
  | .dequeue p => ∀ r ∈ (s.doneQ p).head?, ∀ b ∈ G.dequeued p r, s.Returned G b
  | _ => True

instance (s : Enqueues) : ∀ a, Decidable (marksCond G s a)
  | .enqueue p r => inferInstanceAs (Decidable (s.accepts G p r = true → ∀ m ∈ G.marked p r,
      G.Flat m.1 m.2 ∧ ∀ x ∈ m.1 :: m.2, (s.desc x).numEnqueues + 1 < 2 ^ 16))
  | .dequeue p => inferInstanceAs (Decidable (∀ r ∈ (s.doneQ p).head?, ∀ b ∈ G.dequeued p r, s.Returned G b))
  | .acquire _ => isTrue trivial
  | .release _ _ _ => isTrue trivial
  | .prime _ _ => isTrue trivial

/-! ## The marks of a list of references -/

theorem updateMarks_of_notMem {f : RefMarks → RefMarks} {l : List Nat} {x : Nat} (hx : x ∉ l) (desc : Nat → RefMarks) :
    updateMarks f desc l x = desc x := by
  induction l generalizing desc with
  | nil => rfl
  | cons y l ih =>
    have h := ih (fun h => hx (List.mem_cons_of_mem _ h)) (Function.update desc y (f (desc y)))
    exact h.trans (Function.update_of_ne (List.ne_of_not_mem_cons hx) _ _)

theorem updateMarks_of_mem {f : RefMarks → RefMarks} {l : List Nat} {x : Nat} (hl : l.Nodup) (hx : x ∈ l)
    (desc : Nat → RefMarks) : updateMarks f desc l x = f (desc x) := by
  induction l generalizing desc with
  | nil => cases hx
  | cons y l ih =>
    obtain ⟨hy, hl⟩ := List.nodup_cons.1 hl
    rcases List.mem_cons.1 hx with rfl | hx
    · exact (updateMarks_of_notMem hy _).trans (Function.update_self _ _ _)
    · have hne : x ≠ y := fun e => hy (e ▸ hx)
      exact (ih hl hx _).trans (congrArg f (Function.update_of_ne hne _ _))

/-- A reference with its elements. -/
def QueuePrms.cover (b : Nat) : List Nat := b :: (G.ref b).items

variable {G}

theorem QueuePrms.Flat.nodup_cover {b : Nat} {l : List Nat} (h : G.Flat b l) : (b :: l).Nodup := by
  obtain ⟨hl, hn, hf⟩ := h
  refine List.nodup_cons.2 ⟨fun hb => ?_, hn⟩
  have := hf b hb
  rw [← hl] at this
  rw [this] at hb
  cases hb

/-- Where no element is a container, a reference includes itself and its elements. -/
theorem QueuePrms.Flat.includes_iff {b r : Nat} (h : G.Flat b (G.ref b).items) : G.Includes b r ↔ r ∈ G.cover b := by
  constructor
  · intro hr
    induction hr with
    | refl => exact List.mem_cons_self
    | tail _ hx ih =>
      rcases List.mem_cons.1 ih with rfl | hc
      · exact List.mem_cons_of_mem _ hx
      · rw [h.2.2 _ hc] at hx
        cases hx
  · intro hr
    rcases List.mem_cons.1 hr with rfl | hr
    · exact .refl
    · exact .single hr

/-! ## What a call keeps -/

/-- The marks count what each outstanding enqueue covers, and an enqueue at an output covers it alone. -/
structure Enqueues.Marked (G : QueuePrms) (s : Enqueues) : Prop where
  flat : ∀ e ∈ s.outstanding, G.Flat e.base (G.ref e.base).items
  num : ∀ r, (s.desc r).numEnqueues = s.outstanding.countP (fun e => decide (r ∈ G.cover e.base))
  flag : ∀ r, (s.desc r).enqueued = true ↔ ∃ e ∈ s.outstanding, e.isInput = false ∧ r ∈ G.cover e.base
  apart : s.outstanding.Pairwise (fun e e' => e.isInput = false ∨ e'.isInput = false →
    List.Disjoint (G.cover e.base) (G.cover e'.base))


variable {s t : Enqueues}

theorem Enqueues.Marked.marksRight (h : s.Marked G) : s.MarksRight G := by
  have hi : ∀ e ∈ s.outstanding, ∀ r, G.Includes e.base r ↔ r ∈ G.cover e.base :=
    fun e he r => (h.flat e he).includes_iff
  constructor
  · intro r
    rw [h.num r]
    unfold Enqueues.enqueuesOf
    apply List.countP_congr
    intro e he
    simp only [decide_eq_true_eq]
    exact (hi e he r).symm
  · intro r
    rw [h.flag r]
    constructor
    · rintro ⟨e, he, ho, hr⟩
      exact ⟨e, he, ho, (hi e he r).2 hr⟩
    · rintro ⟨e, he, ho, hr⟩
      exact ⟨e, he, ho, (hi e he r).1 hr⟩
  · refine h.apart.imp_of_mem (fun he he' hd ho r hr => ?_)
    exact hd ho ((hi _ he r).1 hr.1) ((hi _ he' r).1 hr.2)

theorem Enqueues.Marked.congr (h : s.Marked G) (hd : t.desc = s.desc) (ho : t.outstanding = s.outstanding) :
    t.Marked G :=
  ⟨by rw [ho]; exact h.flat, by rw [ho, hd]; exact h.num, by rw [ho, hd]; exact h.flag, by rw [ho]; exact h.apart⟩

/-- A reference that can be queued is in no outstanding enqueue at an output and, for one at an output, in none. -/
theorem Enqueues.Marked.of_canBeQueued (h : s.Marked G) {isInput : Bool} {x : Nat} (hx : s.canBeQueued isInput x = true)
    {e : Enqueue} (he : e ∈ s.outstanding) (ho : e.isInput = false ∨ isInput = false) : x ∉ G.cover e.base := by
  intro hc
  unfold Enqueues.canBeQueued at hx
  simp only [Bool.not_eq_true', Bool.or_eq_false_iff, Bool.and_eq_false_iff, Bool.not_eq_false', decide_eq_false_iff_not] at hx
  rcases ho with ho | ho
  · have := (h.flag x).2 ⟨e, he, ho, hc⟩
    rw [hx.1] at this
    cases this
  · have hn : ¬ 0 < (s.desc x).numEnqueues := by
      rcases hx.2 with hx | hx
      · rw [ho] at hx; cases hx
      · exact hx
    rw [h.num x] at hn
    exact hn (List.countP_pos_iff.2 ⟨e, he, decide_eq_true hc⟩)

/-- The marks once `e`, whose references can all be queued, is outstanding. -/
theorem Enqueues.Marked.added (h : s.Marked G) {e : Enqueue} (hf : G.Flat e.base (G.ref e.base).items)
    (hq : ∀ x ∈ G.cover e.base, s.canBeQueued e.isInput x = true) (ht : t.outstanding = s.outstanding ++ [e])
    (hin : ∀ x ∈ G.cover e.base, t.desc x = ⟨(s.desc x).numEnqueues + 1, (s.desc x).enqueued || !e.isInput⟩)
    (hout : ∀ x, x ∉ G.cover e.base → t.desc x = s.desc x) : t.Marked G := by
  constructor
  · intro e' he'
    rw [ht] at he'
    rcases List.mem_append.1 he' with he' | he'
    · exact h.flat e' he'
    · rw [List.mem_singleton.1 he']
      exact hf
  · intro x
    rw [ht, List.countP_append, List.countP_singleton, ← h.num x]
    by_cases hx : x ∈ G.cover e.base
    · rw [hin x hx, if_pos (decide_eq_true hx)]
    · rw [hout x hx, if_neg (by simpa using hx), Nat.add_zero]
  · intro x
    simp only [ht, List.mem_append, List.mem_singleton, or_and_right, exists_or, exists_eq_left]
    rw [← h.flag x]
    by_cases hx : x ∈ G.cover e.base
    · rw [hin x hx]
      simp [hx]
    · rw [hout x hx]
      simp [hx]
  · rw [ht]
    refine List.pairwise_append.2 ⟨h.apart, List.pairwise_singleton _ _, fun e₁ he₁ e₂ he₂ ho x hx₁ hx₂ => ?_⟩
    rw [List.mem_singleton.1 he₂] at ho hx₂
    exact h.of_canBeQueued (hq x hx₂) he₁ ho hx₁

theorem Enqueues.Marked.enqueue (h : s.Marked G) {p r : Nat}
    (hc : s.accepts G p r = true → ∀ m ∈ G.marked p r,
      G.Flat m.1 m.2 ∧ ∀ x ∈ m.1 :: m.2, (s.desc x).numEnqueues + 1 < 2 ^ 16) :
    (s.ownGraphParameterEnqueueReadyRef G p r).1.Marked G := by
  unfold Enqueues.ownGraphParameterEnqueueReadyRef
  by_cases ha : s.accepts G p r = true
  · rw [if_pos ha]
    cases hm : G.marked p r with
    | none => exact h
    | some m =>
      obtain ⟨b, l⟩ := m
      obtain ⟨hf, hlt⟩ := hc ha _ hm
      have hq : ∀ x ∈ b :: l, s.canBeQueued (G.prm p).isInput x = true := by
        unfold Enqueues.accepts at ha
        rw [hm] at ha
        exact List.all_eq_true.1 (Bool.and_eq_true_iff.1 ha).2
      obtain rfl : l = (G.ref b).items := hf.1
      refine Enqueues.Marked.added h (e := ⟨b, (G.prm p).isInput⟩) hf hq rfl (fun x hx => ?_)
        (fun x hx => updateMarks_of_notMem hx _)
      refine (updateMarks_of_mem hf.nodup_cover hx _).trans ?_
      unfold RefMarks.enqueue
      rw [Nat.mod_eq_of_lt (hlt x hx)]
  · rw [if_neg ha]
    exact h

/-- A reference in no outstanding enqueue has the marks of one that was never enqueued. -/
theorem Enqueues.Marked.of_notMem (h : s.Marked G) {x : Nat} (hx : ∀ e ∈ s.outstanding, x ∉ G.cover e.base) :
    s.desc x = ⟨0, false⟩ := by
  have hnum : (s.desc x).numEnqueues = 0 := by
    rw [h.num x]
    exact List.countP_eq_zero.2 (fun e he => by simpa using hx e he)
  have hflag : (s.desc x).enqueued = false := by
    rw [Bool.eq_false_iff]
    intro hf
    obtain ⟨e, he, _, hc⟩ := (h.flag x).1 hf
    exact hx e he hc
  calc s.desc x = ⟨(s.desc x).numEnqueues, (s.desc x).enqueued⟩ := rfl
    _ = ⟨0, false⟩ := by rw [hnum, hflag]

/-- The marks once an outstanding enqueue of `b` has ended. -/
theorem Enqueues.Marked.ended (h : s.Marked G) {l₁ l₂ : List Enqueue} {e : Enqueue} (hs : s.outstanding = l₁ ++ e :: l₂)
    (ht : t.outstanding = l₁ ++ l₂) (hin : ∀ x ∈ G.cover e.base, t.desc x = ⟨(s.desc x).numEnqueues - 1, false⟩)
    (hout : ∀ x, x ∉ G.cover e.base → t.desc x = s.desc x) : t.Marked G := by
  have hsub : ∀ e' ∈ t.outstanding, e' ∈ s.outstanding := by
    intro e' he'
    rw [ht] at he'
    rw [hs]
    rcases List.mem_append.1 he' with he' | he'
    · exact List.mem_append_left _ he'
    · exact List.mem_append_right _ (List.mem_cons_of_mem _ he')
  have hap := h.apart
  rw [hs] at hap
  constructor
  · exact fun e' he' => h.flat e' (hsub e' he')
  · intro x
    have hnum := h.num x
    rw [hs, List.countP_append, List.countP_cons] at hnum
    rw [ht, List.countP_append]
    by_cases hx : x ∈ G.cover e.base
    · rw [if_pos (decide_eq_true hx)] at hnum
      rw [hin x hx]
      dsimp only
      omega
    · rw [if_neg (by simpa using hx)] at hnum
      rw [hout x hx]
      omega
  · intro x
    by_cases hx : x ∈ G.cover e.base
    · rw [hin x hx]
      refine ⟨fun hf => (Bool.false_ne_true hf).elim, fun ⟨e', he', ho, hx'⟩ => ?_⟩
      -- an enqueue at an output that covers `x` is apart from the one that has ended
      rw [ht] at he'
      obtain ⟨-, hap₂, hap₁⟩ := List.pairwise_append.1 hap
      rcases List.mem_append.1 he' with he' | he'
      · exact (hap₁ e' he' e List.mem_cons_self (.inl ho) hx' hx).elim
      · exact ((List.pairwise_cons.1 hap₂).1 e' he' (.inr ho) hx hx').elim
    · rw [hout x hx, h.flag x, hs, ht]
      constructor
      · rintro ⟨e', he', ho, hx'⟩
        rcases List.mem_append.1 he' with he' | he'
        · exact ⟨e', List.mem_append_left _ he', ho, hx'⟩
        · rcases List.mem_cons.1 he' with rfl | he'
          · exact (hx hx').elim
          · exact ⟨e', List.mem_append_right _ he', ho, hx'⟩
      · rintro ⟨e', he', ho, hx'⟩
        rw [← ht] at he'
        rw [← hs]
        exact ⟨e', hsub e' he', ho, hx'⟩
  · rw [ht]
    exact hap.sublist (List.Sublist.append_left (List.sublist_cons_self e l₂) l₁)

theorem ownDecrementEnqueueCount_of_pos {desc : Nat → RefMarks} {b : Nat} (hf : G.Flat b (G.ref b).items)
    (hpos : ∀ x ∈ G.cover b, 0 < (desc x).numEnqueues) :
    (∀ x ∈ G.cover b, (ownDecrementEnqueueCount G desc b).1 x = ⟨(desc x).numEnqueues - 1, false⟩) ∧
      ∀ x, x ∉ G.cover b → (ownDecrementEnqueueCount G desc b).1 x = desc x := by
  have hn : (G.cover b).Nodup := hf.nodup_cover
  have hb : b ∈ G.cover b := List.mem_cons_self
  unfold ownDecrementEnqueueCount
  rw [if_pos (hpos b hb)]
  constructor
  · intro x hx
    refine (updateMarks_of_mem hn hx _).trans ?_
    by_cases hxb : x = b
    · rw [hxb, Function.update_self]
      exact if_pos (hpos b hb)
    · rw [Function.update_of_ne hxb]
      exact if_pos (hpos x hx)
  · intro x hx
    refine (updateMarks_of_notMem hx _).trans (Function.update_of_ne ?_ _ _)
    exact fun hxb => hx (hxb ▸ hb)

theorem ownDecrementEnqueueCount_of_zero {desc : Nat → RefMarks} {b : Nat} (hb : desc b = ⟨0, false⟩) :
    (ownDecrementEnqueueCount G desc b).1 = desc := by
  unfold ownDecrementEnqueueCount
  rw [if_neg (by rw [hb]; decide)]
  funext x
  by_cases hx : x = b
  · rw [hx, hb]
    exact (Function.update_self _ _ _).trans rfl
  · exact Function.update_of_ne hx _ _

theorem Enqueues.Marked.dequeue (h : s.Marked G) {b : Nat} (hr : s.Returned G b)
    (hd : t.desc = (ownDecrementEnqueueCount G s.desc b).1)
    (ho : t.outstanding = s.outstanding.eraseP (fun e => decide (e.base = b))) : t.Marked G := by
  by_cases hb : ∃ e ∈ s.outstanding, e.base = b
  · obtain ⟨e, l₁, l₂, -, he, hs, ht⟩ : ∃ e l₁ l₂, (∀ x ∈ l₁, ¬decide (x.base = b) = true) ∧ decide (e.base = b) = true ∧
        s.outstanding = l₁ ++ e :: l₂ ∧ s.outstanding.eraseP (fun e => decide (e.base = b)) = l₁ ++ l₂ := by
      obtain ⟨e, he, heb⟩ := hb
      exact List.exists_of_eraseP he (decide_eq_true heb)
    obtain rfl : e.base = b := of_decide_eq_true he
    have hmem : e ∈ s.outstanding := by rw [hs]; exact List.mem_append_right _ List.mem_cons_self
    have hpos : ∀ x ∈ G.cover e.base, 0 < (s.desc x).numEnqueues := by
      intro x hx
      rw [h.num x]
      exact List.countP_pos_iff.2 ⟨e, hmem, decide_eq_true hx⟩
    obtain ⟨hin, hout⟩ := ownDecrementEnqueueCount_of_pos (h.flat e hmem) hpos
    exact h.ended hs (ho.trans ht) (fun x hx => (congrFun hd x).trans (hin x hx))
      (fun x hx => (congrFun hd x).trans (hout x hx))
  · have hno : ∀ e ∈ s.outstanding, b ∉ G.cover e.base := by
      intro e he hc
      rcases List.mem_cons.1 hc with rfl | hc
      · exact hb ⟨e, he, rfl⟩
      · exact (hr.resolve_left hb) e he hc
    refine h.congr (hd.trans (ownDecrementEnqueueCount_of_zero (h.of_notMem hno))) (ho.trans ?_)
    exact List.eraseP_of_forall_not (fun e he hc => hb ⟨e, he, of_decide_eq_true hc⟩)

/-- One step. -/
theorem Enqueues.Marked.step {a : EnqueueAct} (h : s.Marked G) (hc : marksCond G s a) (hs : enqueueStep G s a = some t) :
    t.Marked G := by
  cases a with
  | enqueue p r =>
    cases hs
    exact h.enqueue hc
  | dequeue p =>
    simp only [enqueueStep, Enqueues.vxGraphParameterDequeueDoneRef] at hs
    simp only [marksCond] at hc
    cases hq : s.doneQ p with
    | nil => simp only [hq] at hs; cases hs
    | cons r l =>
      simp only [hq] at hs hc
      cases hb : G.dequeued p r with
      | none =>
        simp only [hb] at hs
        cases hs
        exact h.congr rfl rfl
      | some b =>
        simp only [hb] at hs
        cases hs
        exact h.dequeue (hc r rfl b hb) rfl rfl
  | acquire p =>
    simp only [enqueueStep] at hs
    split at hs
    · cases hs
    · cases hs
      exact h.congr rfl rfl
  | release p q r =>
    simp only [enqueueStep] at hs
    split at hs
    · cases hs
      exact h.congr rfl rfl
    · cases hs
  | prime p r =>
    simp only [enqueueStep] at hs
    split at hs
    · cases hs
      exact h.congr rfl rfl
    · cases hs

theorem marked_start : Enqueues.Marked G {} :=
  ⟨fun _ he => (List.not_mem_nil he).elim, fun _ => rfl,
    fun _ => ⟨fun h => (Bool.false_ne_true h).elim, fun ⟨_, he, _⟩ => (List.not_mem_nil he).elim⟩, List.Pairwise.nil⟩

/-- **The counts and flags stay right** over any calls of the users and any moves of the targets, where each reference is put
into a queue with all its elements and comes back as it was enqueued. -/
theorem marksRight_of_reach (G : QueuePrms) (s : Enqueues) (hr : Reach (enqueueStep G) (marksCond G) {} s) :
    s.MarksRight G :=
  Enqueues.Marked.marksRight (hr.inv marked_start (fun _ _ _ h hc hs => h.step hc hs))

/-- An object array `0` of two images, the first of which a replicated input is given; the second is listed at an output. -/
def arrayPrms : QueuePrms where
  ref r := if r = 0 then { type := .objectArray, elements := [1, 2] } else { type := .image, scope := some 0 }
  prm p := if p = 0 then ⟨true, true, 2, .image, [1]⟩ else ⟨false, false, 0, .image, [2]⟩

/-- The output is refused while the array is enqueued at the input, and gets its reference once it came back. -/
theorem marksRight_array : ∃ s, Reach (enqueueStep arrayPrms) (marksCond arrayPrms) {} s ∧
    (s.desc 1 = ⟨0, false⟩ ∧ s.desc 2 = ⟨1, true⟩ ∧ s.readyQ 1 = [2]) ∧ s.MarksRight arrayPrms := by
  have hexec : (exec (enqueueStep arrayPrms) (fun s a => decide (marksCond arrayPrms s a)) {}
      [.enqueue 0 1, .enqueue 1 2, .acquire 0, .release 0 0 1, .dequeue 0, .enqueue 1 2]).map
        (fun s => (s.desc 1, s.desc 2, s.readyQ 1)) = some (⟨0, false⟩, ⟨1, true⟩, [2]) := by decide
  obtain ⟨s, hr, hs⟩ := exists_reach_of_exec hexec
  have hc := hr.mono (fun _ _ h => of_decide_eq_true h)
  simp only [Prod.mk.injEq] at hs
  exact ⟨s, hc, hs, marksRight_of_reach arrayPrms s hc⟩

/-- An object array `0` of pyramids, one of them `1` with a level `2`: the array and the level are listed at outputs. -/
def pyramidPrms : QueuePrms where
  ref r := match r with
    | 0 => { type := .objectArray, elements := [1] }
    | 1 => { type := .pyramid, scope := some 0, elements := [2] }
    | _ => { type := .image, scope := some 1 }
  prm p := if p = 0 then ⟨false, false, 0, .objectArray, [0]⟩ else ⟨false, false, 0, .image, [2]⟩

/-- The levels of a pyramid in an object array are not marked: array and level are both enqueued at outputs. -/
theorem levels_not_marksRight :
    ∃ s, Reach (enqueueStep pyramidPrms) (fun s a => anyStep s a = true) {} s ∧ ¬s.MarksRight pyramidPrms := by
  have hexec : (exec (enqueueStep pyramidPrms) anyStep {} [.enqueue 0 0, .enqueue 1 2]).map Enqueues.outstanding =
      some [⟨0, false⟩, ⟨2, false⟩] := by decide
  obtain ⟨s, hr, hs⟩ := exists_reach_of_exec hexec
  refine ⟨s, hr, fun h => ?_⟩
  have hp := h.exclusive
  rw [hs] at hp
  have hlevel : pyramidPrms.Includes 0 2 :=
    .tail (.single (b := 1) (by decide)) (by decide)
  exact (List.pairwise_cons.1 hp).1 _ List.mem_cons_self (.inl rfl) 2 ⟨hlevel, .refl⟩

end Tiovx
