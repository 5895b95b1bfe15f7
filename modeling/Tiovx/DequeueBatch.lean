import Tiovx.EnqueueCounts
/-!
# DequeueBatch — one call of `vxGraphParameterDequeueDoneRef` (`vx_graph_pipeline.c`)

The call waits for its first reference and takes the others without waiting.  Between its looks into the done queue, targets
release into it.  An entry is the id of a descriptor; at a replicated parameter it may be that of the container, which is given
back as its first element.
-/
namespace Tiovx

/-- Before a look into the done queue targets have `released` into it; `waited` is what the wait returns that follows where
there is no reference. -/
structure DonePoll where
  released : List Nat := []
  waited : Int := vxSuccess
deriving DecidableEq

/-- The variables of the call, what it has written to `refs`, and the marks of the references.  `removed` is a record of
the entries it has taken from the queue. -/
structure DequeueCall where
  doneQ : List Nat
  desc : Nat → RefMarks
  refs : Nat → Option Nat := fun _ => none
  numRefs : Nat := 0
  exitLoop : Bool := false
  removed : List Nat := []

variable (G : QueuePrms) (handle : Nat → Option Nat) (p maxRefs : Nat)

namespace DequeueCall

/-- The entry `id` is dequeued, with `q` left; the count is raised whatever becomes of it. -/
def takeRef (s : DequeueCall) (refId id : Nat) (q : List Nat) : DequeueCall × Int :=
  let s := { s with doneQ := q, removed := s.removed ++ [id], exitLoop := true, numRefs := s.numRefs + 1 }
  match handle id with
  | none => (s, vxErrorInvalidParameters)
  | some r =>
    match G.dequeued p r with
    | none => (s, vxFailure)
    | some b =>
      let d := ownDecrementEnqueueCount G s.desc b
      match G.givenBack p b d.2 with
      | (status, none) => ({ s with desc := d.1 }, status)
      | (status, some ref) => ({ s with desc := d.1, refs := Function.update s.refs refId (some ref) }, status)

/-- There is no reference: the call waits for the first, and goes on without the others. -/
def noRef (s : DequeueCall) (waited : Int) : DequeueCall × Int :=
  if s.numRefs = 0 then
    if waited = vxSuccess then (s, vxSuccess) else ({ s with exitLoop := true }, waited)
  else ({ s with exitLoop := true }, vxSuccess)

/-- The body of the inner loop. -/
def body (s : DequeueCall) (refId : Nat) (b : DonePoll) : DequeueCall × Int :=
  match s.doneQ ++ b.released with
  | [] => { s with doneQ := [] }.noRef b.waited
  | id :: q =>
    if id = objDescInvalid then { s with doneQ := q, removed := s.removed ++ [id] }.noRef b.waited
    else s.takeRef G handle p refId id q

/-- The two loops; `exit_loop` is not reset for the next reference.  `none` is a call that has not returned yet. -/
def loop : List DonePoll → Nat → DequeueCall → Option (DequeueCall × Int)
  | [], refId, s => if maxRefs ≤ refId then some (s, vxSuccess) else none
  | b :: l, refId, s =>
    if maxRefs ≤ refId then some (s, vxSuccess)
    else
      match s.body G handle p refId b with
      | (t, status) =>
        if t.exitLoop = false then loop l refId t
        else if status = vxSuccess then loop l (refId + 1) t
        else some (t, status)

end DequeueCall

/-- `vxGraphParameterDequeueDoneRef` at a parameter that has a data reference queue. -/
def QueuePrms.vxGraphParameterDequeueDoneRef (doneQ : List Nat) (desc : Nat → RefMarks) (polls : List DonePoll) :
    Option (DequeueCall × Int) :=
  DequeueCall.loop G handle p maxRefs polls 0 { doneQ := doneQ, desc := desc }

/-- The reference an entry stands for: at a replicated parameter a container is its first element. -/
def QueuePrms.designated (id : Nat) : Option Nat :=
  if id = objDescInvalid then none
  else
    (handle id).bind (fun r =>
      if (G.prm p).isReplicated ∧ (G.ref r).type ≠ (G.prm p).type then (G.ref r).items.head? else some r)

/-- The references whose counts go with an entry. -/
def QueuePrms.countedWith (id : Nat) : List Nat := (((handle id).bind (G.dequeued p)).map G.cover).getD []

/-- The marks after an entry is dequeued. -/
def QueuePrms.dequeueMarks (desc : Nat → RefMarks) (id : Nat) : Nat → RefMarks :=
  ((handle id).bind (G.dequeued p)).elim desc (fun b => (ownDecrementEnqueueCount G desc b).1)

variable {G handle p maxRefs}

/-! ### One entry -/

/-- The status of an entry, and what is written for it. -/
def QueuePrms.entryResult (G : QueuePrms) (handle : Nat → Option Nat) (p : Nat) (desc : Nat → RefMarks) (id : Nat) :
    Int × Option Nat :=
  match handle id with
  | none => (vxErrorInvalidParameters, none)
  | some r =>
    match G.dequeued p r with
    | none => (vxFailure, none)
    | some b => G.givenBack p b (ownDecrementEnqueueCount G desc b).2

theorem QueuePrms.dequeueMarks_of_notMem {desc : Nat → RefMarks} {id x : Nat} (hx : x ∉ G.countedWith handle p id) :
    G.dequeueMarks handle p desc id x = desc x := by
  unfold QueuePrms.countedWith at hx
  unfold QueuePrms.dequeueMarks
  cases hb : (handle id).bind (G.dequeued p) with
  | none => rfl
  | some b =>
    simp only [hb, Option.map_some, Option.getD_some, QueuePrms.cover, List.mem_cons, not_or] at hx
    simp only [Option.elim_some]
    unfold ownDecrementEnqueueCount
    split
    · refine (updateMarks_of_notMem ?_ _).trans (Function.update_of_ne hx.1 _ _)
      exact fun hm => (List.mem_cons.1 hm).elim hx.1 hx.2
    · exact Function.update_of_ne hx.1 _ _

namespace DequeueCall

variable {s t : DequeueCall} {refId id : Nat} {q : List Nat} {b : DonePoll} {l : List DonePoll} {out : DequeueCall × Int}

/-- `refs` after something may have been written to a place of it. -/
def written (refs : Nat → Option Nat) (refId : Nat) : Option Nat → Nat → Option Nat
  | none => refs
  | some r => Function.update refs refId (some r)

theorem takeRef_eq (s : DequeueCall) (refId id : Nat) (q : List Nat) :
    s.takeRef G handle p refId id q =
      ({ s with doneQ := q, removed := s.removed ++ [id], exitLoop := true, numRefs := s.numRefs + 1,
                desc := G.dequeueMarks handle p s.desc id,
                refs := written s.refs refId (G.entryResult handle p s.desc id).2 },
        (G.entryResult handle p s.desc id).1) := by
  unfold takeRef QueuePrms.entryResult QueuePrms.dequeueMarks
  cases hr : handle id with
  | none => rfl
  | some r =>
    simp only [Option.bind_some]
    cases hb : G.dequeued p r with
    | none => rfl
    | some b =>
      simp only [Option.elim_some]
      cases hg : G.givenBack p b (ownDecrementEnqueueCount G s.desc b).2 with
      | mk status ref => cases ref <;> rfl

/-! ### What later looks leave -/

/-- Nothing is taken back: entries are only removed, and places before `refId` stay. -/
structure Later (refId : Nat) (s t : DequeueCall) : Prop where
  removed : s.removed <+: t.removed
  refs : ∀ i < refId, t.refs i = s.refs i

theorem Later.refl : Later refId s s := ⟨List.prefix_refl _, fun _ _ => rfl⟩

theorem Later.trans {u : DequeueCall} (h : Later refId s t) (h' : Later refId t u) : Later refId s u :=
  ⟨h.removed.trans h'.removed, fun i hi => (h'.refs i hi).trans (h.refs i hi)⟩

theorem Later.mono {refId' : Nat} (h : Later refId' s t) (hle : refId ≤ refId') : Later refId s t :=
  ⟨h.removed, fun i hi => h.refs i (by omega)⟩

/-- The first `n` places are written with the entries removed. -/
structure SoFar (G : QueuePrms) (handle : Nat → Option Nat) (p : Nat) (desc : Nat → RefMarks) (s : DequeueCall) (n : Nat) :
    Prop where
  numRefs : s.numRefs = n
  removed : s.removed.length = n
  written : ∀ i id, s.removed[i]? = some id → ∃ r, G.designated handle p id = some r ∧ s.refs i = some r
  others : ∀ i, n ≤ i → s.refs i = none
  counts : ∀ x, s.desc x ≠ desc x → ∃ id ∈ s.removed, x ∈ G.countedWith handle p id

variable {desc : Nat → RefMarks} {n : Nat}

/-- A look that finds nothing. -/
theorem SoFar.congr (h : SoFar G handle p desc s n) (hr : t.refs = s.refs) (hn : t.numRefs = s.numRefs)
    (hrem : t.removed = s.removed) (hd : t.desc = s.desc) : SoFar G handle p desc t n where
  numRefs := hn.trans h.numRefs
  removed := by rw [hrem, h.removed]
  written i id hi := by
    rw [hrem] at hi
    rw [hr]
    exact h.written i id hi
  others i hi := by rw [hr]; exact h.others i hi
  counts x hx := by
    rw [hd] at hx
    rw [hrem]
    exact h.counts x hx

/-- A proper entry is dequeued and written. -/
theorem SoFar.take (h : SoFar G handle p desc s n) {r : Nat}
    (hres : G.entryResult handle p s.desc id = (vxSuccess, some r)) (hd : G.designated handle p id = some r) :
    SoFar G handle p desc (s.takeRef G handle p n id q).1 (n + 1) where
  numRefs := by
    rw [takeRef_eq]
    show s.numRefs + 1 = n + 1
    rw [h.numRefs]
  removed := by
    rw [takeRef_eq]
    show (s.removed ++ [id]).length = n + 1
    rw [List.length_append, h.removed]
    rfl
  written i id' hi := by
    rw [takeRef_eq, hres] at *
    have hi : (s.removed ++ [id])[i]? = some id' := hi
    show ∃ r', _ ∧ Function.update s.refs n (some r) i = some r'
    by_cases hin : i = n
    · subst hin
      rw [List.getElem?_append_right (by rw [h.removed]), h.removed, Nat.sub_self] at hi
      cases hi
      exact ⟨r, hd, Function.update_self _ _ _⟩
    · have hlt : i < s.removed.length := by
        have := (List.getElem?_eq_some_iff.1 hi).1
        rw [List.length_append, List.length_singleton] at this
        rw [h.removed] at this ⊢
        omega
      rw [List.getElem?_append_left hlt] at hi
      rw [Function.update_of_ne hin]
      exact h.written i id' hi
  others i hi := by
    rw [takeRef_eq, hres]
    show Function.update s.refs n (some r) i = none
    rw [Function.update_of_ne (by omega)]
    exact h.others i (by omega)
  counts x hx := by
    rw [takeRef_eq] at *
    show ∃ id' ∈ s.removed ++ [id], x ∈ G.countedWith handle p id'
    have hx : G.dequeueMarks handle p s.desc id x ≠ desc x := hx
    by_cases hmem : x ∈ G.countedWith handle p id
    · exact ⟨id, by simp, hmem⟩
    · rw [QueuePrms.dequeueMarks_of_notMem hmem] at hx
      obtain ⟨id', hid', hmem'⟩ := h.counts x hx
      exact ⟨id', List.mem_append_left _ hid', hmem'⟩

end DequeueCall

end Tiovx
