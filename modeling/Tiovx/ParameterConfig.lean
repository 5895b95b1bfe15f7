import Tiovx.ReferenceLists
import Tiovx.ScheduleStatus
/-!
# ParameterConfig — how the graph parameters of a graph are queued (`vx_graph_pipeline.c`)

`vxSetGraphScheduleConfig` sets the schedule mode of a graph and commits the entries of its list one by one;
`vxAddReferencesToGraphParameterList` appends references to the list of one parameter, and `vxGetGraphParameterRefsList` reads
that list.
-/
namespace Tiovx

/-- `VX_ERROR_INVALID_GRAPH` and `VX_ERROR_INVALID_DIMENSION`. -/
def vxErrorInvalidGraph : Int := -18
def vxErrorInvalidDimension : Int := -15

inductive GraphScheduleMode
  | normal
  | queueAuto
  | queueManual
deriving DecidableEq

/-- `tivx_parameters_t`, as far as the references are concerned that can be queued. -/
@[ext] structure ListedParameter (R : Type) where
  queueEnable : Bool
  numBuf : Nat
  type : MetaType
  refsList : Nat → Option R
  fits : numBuf ≤ objDescQueueMaxDepth

/-- A graph with its schedule mode and its parameters. -/
structure ConfiguredGraph (R : Type) where
  isGraph : Bool
  verified : Bool
  scheduleMode : GraphScheduleMode
  isPipeliningEnabled : Bool
  numParams : Nat
  parameters : Nat → ListedParameter R

/-- `vx_graph_parameter_queue_params_t`; `refsList` may be `NULL`. -/
structure QueueParams (R : Type) where
  graphParameterIndex : Nat
  refsList : Option (Nat → Option R)
  refsListSize : Nat

namespace ListedParameter

variable {R : Type}

/-- The references of the list. -/
def stored (p : ListedParameter R) : List (Option R) := (List.range p.numBuf).map p.refsList

/-- One more reference in the list. -/
def append (p : ListedParameter R) (r : Option R) (h : p.numBuf < objDescQueueMaxDepth) : ListedParameter R :=
  { p with refsList := Function.update p.refsList p.numBuf r, numBuf := p.numBuf + 1, fits := h }

end ListedParameter

namespace ConfiguredGraph

section

variable {R : Type}

/- What the attributes of a reference say. -/
variable (attributes : R → RefAttributes)

def setParameter (g : ConfiguredGraph R) (i : Nat) (p : ListedParameter R) : ConfiguredGraph R :=
  { g with parameters := Function.update g.parameters i p }

/-- What `vxSetGraphScheduleConfig` makes of a parameter whose list has been validated with the status. -/
def configured (p : ListedParameter R) (refs : Nat → Option R) (size : Nat) (type : MetaType) (status : Int)
    (h : size < objDescQueueMaxDepth) : ListedParameter R where
  queueEnable := true
  numBuf := size
  type := type
  refsList := if status = vxSuccess then fun i => if i < size then refs i else p.refsList i else p.refsList
  fits := Nat.le_of_lt h

/-- One entry of `graph_parameters_queue_params_list`; nothing comes back where a null pointer is followed. -/
def commitEntry (g : ConfiguredGraph R) (e : QueueParams R) : Option (Int × ConfiguredGraph R) :=
  match e.refsList with
  | none => some (vxErrorInvalidParameters, g)
  | some refs =>
    if h : e.graphParameterIndex < g.numParams ∧ e.refsListSize < objDescQueueMaxDepth then
      if (g.parameters e.graphParameterIndex).queueEnable then some (vxErrorInvalidParameters, g)
      else
        match refs 0 with
        | none => none
        | some first =>
          let status := ownGraphPipelineValidateRefsList attributes refs e.refsListSize
          some (status, g.setParameter e.graphParameterIndex
            (configured (g.parameters e.graphParameterIndex) refs e.refsListSize (attributes first).type status h.2))
    else some (vxErrorInvalidParameters, g)

/-- The loop over the entries, which ends with the first error. -/
def commitEntries (g : ConfiguredGraph R) : List (QueueParams R) → Option (Int × ConfiguredGraph R)
  | [] => some (vxSuccess, g)
  | e :: es =>
    match g.commitEntry attributes e with
    | none => none
    | some (status, g) => if status = vxSuccess then g.commitEntries es else some (status, g)

/-- `vxSetGraphScheduleConfig`; a value of `graph_schedule_mode` that is no mode is `none`. -/
def vxSetGraphScheduleConfig (g : ConfiguredGraph R) (mode : Option GraphScheduleMode) (entries : List (QueueParams R)) :
    Option (Int × ConfiguredGraph R) :=
  if g.isGraph = false then some (vxErrorInvalidReference, g)
  else if g.verified then some (vxErrorNotSupported, g)
  else
    match mode with
    | some .normal => some (vxSuccess, { g with scheduleMode := .normal })
    | some mode =>
      if entries.length ≤ g.numParams then
        commitEntries attributes { g with scheduleMode := mode, isPipeliningEnabled := true } entries
      else some (vxErrorInvalidParameters, g)
    | none => some (vxErrorInvalidParameters, g)

/-- The call returns, and leaves the graph as it was where it returns an error. -/
def ErrorKeeps (g : ConfiguredGraph R) (mode : Option GraphScheduleMode) (entries : List (QueueParams R)) : Prop :=
  ∃ status g', g.vxSetGraphScheduleConfig attributes mode entries = some (status, g') ∧ (status ≠ vxSuccess → g' = g)

/-- Nothing is written for the entry. -/
def Rejects (g : ConfiguredGraph R) (e : QueueParams R) : Prop :=
  e.refsList = none ∨ g.numParams ≤ e.graphParameterIndex ∨ objDescQueueMaxDepth ≤ e.refsListSize ∨
    (g.parameters e.graphParameterIndex).queueEnable = true

/-- The entry is committed, if no other entry before it is for its parameter. -/
def Admits (g : ConfiguredGraph R) (e : QueueParams R) : Prop :=
  ¬ g.Rejects e ∧ ∃ refs first, e.refsList = some refs ∧ refs 0 = some first ∧
    ownGraphPipelineValidateRefsList attributes refs e.refsListSize = vxSuccess

/-- All entries are committed. -/
def AdmitsAll (g : ConfiguredGraph R) (entries : List (QueueParams R)) : Prop :=
  (∀ e ∈ entries, g.Admits attributes e) ∧ (entries.map (·.graphParameterIndex)).Nodup

/-- The call is refused before it writes, all its entries are committed, or the first of them is rejected and the graph is in the
mode already. -/
def ConfigFits (g : ConfiguredGraph R) (mode : Option GraphScheduleMode) (entries : List (QueueParams R)) : Prop :=
  g.isGraph = false ∨ g.verified = true ∨ mode = none ∨ mode = some .normal ∨ g.numParams < entries.length ∨
    g.AdmitsAll attributes entries ∨
      (mode = some g.scheduleMode ∧ g.isPipeliningEnabled = true ∧ ∃ e ∈ entries.head?, g.Rejects e)

variable {attributes} {g g' : ConfiguredGraph R} {mode : Option GraphScheduleMode} {entries : List (QueueParams R)}
  {e e' : QueueParams R} {status : Int}

theorem commitEntry_of_rejects (h : g.Rejects e) : g.commitEntry attributes e = some (vxErrorInvalidParameters, g) := by
  unfold commitEntry
  split
  · rfl
  · rename_i refs hrefs
    split
    · rename_i hlt
      obtain hn | hi | hs | hq := h
      · cases hn.symm.trans hrefs
      · omega
      · omega
      · rw [if_pos hq]
    · rfl

/-- An entry that is not rejected makes its parameter queued, whatever the validation says. -/
theorem commitEntry_of_not_rejects (h : ¬ g.Rejects e) (hc : g.commitEntry attributes e = some (status, g')) :
    (∃ refs first, e.refsList = some refs ∧ refs 0 = some first ∧
      status = ownGraphPipelineValidateRefsList attributes refs e.refsListSize) ∧
      ∃ p : ListedParameter R, p.queueEnable = true ∧ g' = g.setParameter e.graphParameterIndex p := by
  simp only [Rejects, not_or, not_le, Bool.not_eq_true] at h
  obtain ⟨hn, hi, hs, hq⟩ := h
  obtain ⟨refs, hrefs⟩ := Option.ne_none_iff_exists'.1 hn
  unfold commitEntry at hc
  rw [hrefs] at hc
  simp only [dif_pos (And.intro hi hs), hq, Bool.false_eq_true, if_false] at hc
  split at hc
  · cases hc
  · rename_i first hfirst
    cases hc
    exact ⟨⟨refs, first, hrefs, hfirst, rfl⟩, _, rfl, rfl⟩

theorem commitEntry_of_admits (h : g.Admits attributes e) :
    ∃ p : ListedParameter R, p.queueEnable = true ∧
      g.commitEntry attributes e = some (vxSuccess, g.setParameter e.graphParameterIndex p) := by
  obtain ⟨hnot, refs, first, hrefs, hfirst, hval⟩ := h
  have hnot' := hnot
  simp only [Rejects, not_or, not_le, Bool.not_eq_true] at hnot'
  obtain ⟨-, hi, hs, hq⟩ := hnot'
  refine ⟨configured (g.parameters e.graphParameterIndex) refs e.refsListSize (attributes first).type vxSuccess hs, rfl, ?_⟩
  unfold commitEntry
  rw [hrefs]
  simp only [dif_pos (And.intro hi hs), hq, Bool.false_eq_true, if_false, hfirst, hval]

/-- What an entry writes changes what is rejected for its own parameter only. -/
theorem admits_setParameter {p : ListedParameter R} (hp : p.queueEnable = true) :
    (g.setParameter e.graphParameterIndex p).Admits attributes e' ↔
      g.Admits attributes e' ∧ e'.graphParameterIndex ≠ e.graphParameterIndex := by
  unfold Admits Rejects setParameter
  by_cases hi : e'.graphParameterIndex = e.graphParameterIndex
  · simp [hi, hp]
  · simp [hi]

/-- The entries after an entry that was committed are committed to what it left. -/
theorem admitsAll_cons {p : ListedParameter R} (hp : p.queueEnable = true) (he : g.Admits attributes e) :
    (g.setParameter e.graphParameterIndex p).AdmitsAll attributes entries ↔ g.AdmitsAll attributes (e :: entries) := by
  simp only [AdmitsAll, admits_setParameter hp, List.forall_mem_cons, he, true_and, List.map_cons, List.nodup_cons, List.mem_map,
    not_exists, not_and]
  constructor
  · rintro ⟨hall, hnd⟩
    exact ⟨fun e' h' => (hall e' h').1, fun e' h' => (hall e' h').2, hnd⟩
  · rintro ⟨hall, hne, hnd⟩
    exact ⟨fun e' h' => ⟨hall e' h', hne e' h'⟩, hnd⟩

/-- The loop succeeds when all entries are committed, and only then. -/
theorem commitEntries_success : ∀ {entries : List (QueueParams R)} {g : ConfiguredGraph R},
    (∃ g', g.commitEntries attributes entries = some (vxSuccess, g')) ↔ g.AdmitsAll attributes entries
  | [], g => by simp [commitEntries, AdmitsAll]
  | e :: es, g => by
    by_cases he : g.Admits attributes e
    · obtain ⟨p, hp, hc⟩ := commitEntry_of_admits he
      rw [commitEntries, hc]
      simp only [if_true]
      rw [commitEntries_success, admitsAll_cons hp he]
    · refine ⟨?_, fun h => absurd (h.1 e List.mem_cons_self) he⟩
      rintro ⟨g', h⟩
      rw [commitEntries] at h
      split at h
      · cases h
      · rename_i status g₁ hc
        exfalso
        by_cases hr : g.Rejects e
        · rw [commitEntry_of_rejects hr] at hc
          cases hc
          rw [if_neg vxErrorInvalidParameters_ne] at h
          cases h
        · obtain ⟨⟨refs, first, hrefs, hfirst, hst⟩, -⟩ := commitEntry_of_not_rejects hr hc
          split at h
          · rename_i hs
            exact he ⟨hr, refs, first, hrefs, hfirst, hst.symm.trans hs⟩
          · rename_i hs
            cases h
            exact hs rfl

/-- A parameter that is queued stays so. -/
theorem commitEntries_queueEnable {i : Nat} : ∀ {entries : List (QueueParams R)} {g g' : ConfiguredGraph R} {status : Int},
    g.commitEntries attributes entries = some (status, g') → (g.parameters i).queueEnable = true →
      (g'.parameters i).queueEnable = true
  | [], g, g', status, h, hi => by
    cases h
    exact hi
  | e :: es, g, g', status, h, hi => by
    rw [commitEntries] at h
    split at h
    · cases h
    · rename_i st g₁ hc
      have h₁ : (g₁.parameters i).queueEnable = true := by
        by_cases hr : g.Rejects e
        · rw [commitEntry_of_rejects hr] at hc
          cases hc
          exact hi
        · obtain ⟨-, p, hp, rfl⟩ := commitEntry_of_not_rejects hr hc
          show (Function.update g.parameters e.graphParameterIndex p i).queueEnable = true
          rw [Function.update_apply]
          split
          · exact hp
          · exact hi
      split at h
      · exact commitEntries_queueEnable h h₁
      · cases h
        exact h₁

/-- An entry that is not rejected changes the graph for good. -/
theorem commitEntries_ne (hr : ¬ g.Rejects e) (h : g.commitEntries attributes (e :: entries) = some (status, g')) :
    (g'.parameters e.graphParameterIndex).queueEnable = true ∧ (g.parameters e.graphParameterIndex).queueEnable = false := by
  have hq : (g.parameters e.graphParameterIndex).queueEnable = false :=
    Bool.eq_false_iff.2 (fun hq => hr (.inr (.inr (.inr hq))))
  refine ⟨?_, hq⟩
  rw [commitEntries] at h
  split at h
  · cases h
  · rename_i st g₁ hc
    obtain ⟨-, p, hp, rfl⟩ := commitEntry_of_not_rejects hr hc
    have h₁ : ((g.setParameter e.graphParameterIndex p).parameters e.graphParameterIndex).queueEnable = true := by
      show (Function.update g.parameters e.graphParameterIndex p e.graphParameterIndex).queueEnable = true
      rw [Function.update_self]
      exact hp
    split at h
    · exact commitEntries_queueEnable h h₁
    · cases h
      exact h₁

/-- The loop returns, and where it returns an error it leaves `g`, that it did not begin with unless the mode was set already. -/
theorem commitEntries_keeps_iff {m : GraphScheduleMode} :
    (∃ status g', commitEntries attributes { g with scheduleMode := m, isPipeliningEnabled := true } entries =
        some (status, g') ∧ (status ≠ vxSuccess → g' = g)) ↔
      g.AdmitsAll attributes entries ∨
        (m = g.scheduleMode ∧ g.isPipeliningEnabled = true ∧ ∃ e ∈ entries.head?, g.Rejects e) := by
  have hadmits : ({ g with scheduleMode := m, isPipeliningEnabled := true } : ConfiguredGraph R).AdmitsAll attributes entries ↔
      g.AdmitsAll attributes entries := Iff.rfl
  constructor
  · rintro ⟨status, g', h, hkeep⟩
    by_cases hs : status = vxSuccess
    · subst hs
      exact .inl (hadmits.1 (commitEntries_success.1 ⟨g', h⟩))
    · obtain rfl := hkeep hs
      match entries with
      | [] => exact absurd (congrArg Prod.fst (Option.some.inj h)).symm hs
      | e :: es =>
        by_cases hr : ({ g' with scheduleMode := m, isPipeliningEnabled := true } : ConfiguredGraph R).Rejects e
        · rw [commitEntries, commitEntry_of_rejects hr] at h
          simp only [if_neg vxErrorInvalidParameters_ne, Option.some.injEq, Prod.mk.injEq] at h
          refine .inr ⟨?_, ?_, e, rfl, hr⟩
          · rw [← h.2]
          · rw [← h.2]
        · obtain ⟨h₁, h₂⟩ := commitEntries_ne hr h
          exact absurd (h₁.symm.trans h₂) (by decide)
  · rintro (hall | ⟨rfl, hp, e, he, hr⟩)
    · obtain ⟨g', h⟩ := commitEntries_success.2 (hadmits.2 hall)
      exact ⟨vxSuccess, g', h, fun h => absurd rfl h⟩
    · obtain ⟨es, rfl⟩ : ∃ es, entries = e :: es := by
        cases entries with
        | nil => cases he
        | cons e' es =>
          cases he
          exact ⟨es, rfl⟩
      have hsame : ({ g with scheduleMode := g.scheduleMode, isPipeliningEnabled := true } : ConfiguredGraph R) = g := by
        rw [← hp]
      rw [hsame]
      refine ⟨vxErrorInvalidParameters, g, ?_, fun _ => rfl⟩
      rw [commitEntries, commitEntry_of_rejects hr]
      simp only [if_neg vxErrorInvalidParameters_ne]

/-- **A failed configuration leaves the graph as it was** when the call is refused before it writes, or in the mode it asks for is
rejected at its first entry; and there is no other call that fails and leaves it so. -/
theorem errorKeeps_iff : g.ErrorKeeps attributes mode entries ↔ g.ConfigFits attributes mode entries := by
  unfold ErrorKeeps ConfigFits vxSetGraphScheduleConfig
  by_cases hg : g.isGraph = false
  · simp [hg]
  by_cases hv : g.verified = true
  · simp [hg, hv]
  cases mode with
  | none => simp [hg, hv]
  | some m =>
    by_cases hlen : entries.length ≤ g.numParams
    · cases m with
      | normal => simp [hg, hv]
      | queueAuto =>
        rw [if_neg hg, if_neg hv]
        simp only [if_pos hlen]
        rw [commitEntries_keeps_iff]
        simp [hg, hv, not_lt.2 hlen]
      | queueManual =>
        rw [if_neg hg, if_neg hv]
        simp only [if_pos hlen]
        rw [commitEntries_keeps_iff]
        simp [hg, hv, not_lt.2 hlen]
    · cases m with
      | normal => simp [hg, hv]
      | queueAuto => simp [hg, hv, hlen, not_le.1 hlen]
      | queueManual => simp [hg, hv, hlen, not_le.1 hlen]

end

end ConfiguredGraph

/-- A graph that is not verified, with one parameter that is not queued. -/
def unqueuedGraph : ConfiguredGraph RefAttributes where
  isGraph := true
  verified := false
  scheduleMode := .normal
  isPipeliningEnabled := false
  numParams := 1
  parameters := fun _ =>
    { queueEnable := false, numBuf := 0, type := .image, refsList := fun _ => none, fits := Nat.zero_le _ }

/-- The entry for parameter 0 with two references. -/
def twoRefs (a b : RefAttributes) : QueueParams RefAttributes where
  graphParameterIndex := 0
  refsList := some (fun i => [a, b][i]?)
  refsListSize := 2

/-- A list with a mismatch is refused, but the mode is set and the parameter queued; the same call with a good list, which alone
succeeds, is then refused too. -/
theorem failed_config_stays :
    ¬ unqueuedGraph.ErrorKeeps id (some .queueAuto) [twoRefs largeImage smallImage] ∧
      (unqueuedGraph.vxSetGraphScheduleConfig id (some .queueAuto) [twoRefs largeImage largeImage]).map Prod.fst =
        some vxSuccess ∧
      ((unqueuedGraph.vxSetGraphScheduleConfig id (some .queueAuto) [twoRefs largeImage smallImage]).bind
        (fun r => r.2.vxSetGraphScheduleConfig id (some .queueAuto) [twoRefs largeImage largeImage])).map Prod.fst =
          some vxErrorInvalidParameters := by
  refine ⟨?_, rfl, rfl⟩
  rintro ⟨status, g', h, hkeep⟩
  have hstatus : (unqueuedGraph.vxSetGraphScheduleConfig id (some .queueAuto) [twoRefs largeImage smallImage]).map
      (fun r => (r.1, r.2.isPipeliningEnabled)) = some (vxErrorInvalidParameters, true) := rfl
  rw [h] at hstatus
  obtain ⟨rfl, hp⟩ := Prod.mk.inj (Option.some.inj hstatus)
  rw [hkeep (by decide)] at hp
  cases hp

end Tiovx
