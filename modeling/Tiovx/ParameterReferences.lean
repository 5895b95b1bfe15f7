import Tiovx.ParameterConfig
/-!
# ParameterReferences — references added to the list of a graph parameter, and read (`vx_graph_pipeline.c`)

`vxAddReferencesToGraphParameterList` validates each reference with the first of the list and appends it, and its status is what
the last reference was found to be.  `vxGetGraphParameterRefsList` reads as many entries as it is asked for.
-/
namespace Tiovx

section

variable {R : Type}

/- What the attributes of a reference say. -/
variable (attributes : R → RefAttributes)

namespace ListedParameter

/-- `ownGraphPipelineValidateRefsList` accepts the first reference of the list with `r`. -/
def validated (p : ListedParameter R) (r : Option R) : Bool :=
  ownGraphPipelineValidateRefsList attributes (fun i => if i = 0 then p.refsList 0 else r) 2 = vxSuccess

/-- The loop over the references that are added. -/
def addReferences (p : ListedParameter R) : List (Option R) → Int → Int × ListedParameter R
  | [], status => (status, p)
  | r :: rs, _ =>
    if p.validated attributes r then
      if h : p.numBuf < objDescQueueMaxDepth then addReferences (p.append r h) rs vxSuccess else (vxErrorNoResources, p)
    else addReferences p rs vxErrorInvalidType

/-- Each of the references is validated when its turn comes, and appended. -/
def Takes : List (Option R) → ListedParameter R → ListedParameter R → Prop
  | [], p, p' => p' = p
  | r :: rs, p, p' => p.validated attributes r = true ∧ ∃ h : p.numBuf < objDescQueueMaxDepth, Takes rs (p.append r h) p'

variable {attributes} {p p' : ListedParameter R} {rs : List (Option R)} {status : Int}

theorem addReferences_of_takes : ∀ {rs : List (Option R)} {p : ListedParameter R} {status : Int}, Takes attributes rs p p' →
    p.addReferences attributes rs status = (if rs = [] then status else vxSuccess, p')
  | [], p, status, h => by
    cases h
    rfl
  | r :: rs, p, status, h => by
    obtain ⟨hv, hlt, ht⟩ := h
    rw [addReferences, if_pos hv, dif_pos hlt, addReferences_of_takes ht, if_neg (List.cons_ne_nil r rs)]
    split <;> rfl

theorem Takes.stored_eq : ∀ {rs : List (Option R)} {p : ListedParameter R}, Takes attributes rs p p' →
    p'.stored = p.stored ++ rs
  | [], p, h => by
    cases h
    rw [List.append_nil]
  | r :: rs, p, h => by
    obtain ⟨-, hlt, ht⟩ := h
    have happend : (p.append r hlt).stored = p.stored ++ [r] := by
      unfold stored append
      simp only [List.range_succ, List.map_append, List.map_cons, List.map_nil, Function.update_self]
      congr 1
      apply List.map_congr_left
      intro i hi
      rw [Function.update_of_ne (by have := List.mem_range.1 hi; omega)]
    rw [ht.stored_eq, happend, List.append_assoc, List.singleton_append]

theorem numBuf_addReferences_le : ∀ {rs : List (Option R)} {p : ListedParameter R} {status : Int},
    p.numBuf ≤ (p.addReferences attributes rs status).2.numBuf
  | [], p, status => Nat.le_refl _
  | r :: rs, p, status => by
    rw [addReferences]
    split
    · split
      · exact Nat.le_trans (Nat.le_succ _) (numBuf_addReferences_le (p := p.append r ‹_›))
      · exact Nat.le_refl _
    · exact numBuf_addReferences_le

/-- Where the list has room, a reference that is validated is appended. -/
theorem numBuf_addReferences_lt (hlt : p.numBuf < objDescQueueMaxDepth) : ∀ {rs : List (Option R)} {status : Int},
    (∃ r ∈ rs, p.validated attributes r = true) → p.numBuf < (p.addReferences attributes rs status).2.numBuf
  | [], _, h => by
    obtain ⟨r, hr, -⟩ := h
    cases hr
  | r :: rs, _, h => by
    rw [addReferences]
    by_cases hv : p.validated attributes r = true
    · rw [if_pos hv, dif_pos hlt]
      exact Nat.lt_of_lt_of_le (Nat.lt_succ_self _) (numBuf_addReferences_le (p := p.append r hlt))
    · rw [if_neg hv]
      obtain ⟨r', hr', hv'⟩ := h
      refine numBuf_addReferences_lt hlt ⟨r', ?_, hv'⟩
      rcases List.mem_cons.1 hr' with rfl | hm
      · exact absurd hv' hv
      · exact hm

/-- A list of which nothing is validated is refused. -/
theorem addReferences_of_none : ∀ {rs : List (Option R)} {status : Int}, (∀ r ∈ rs, p.validated attributes r = false) →
    p.addReferences attributes rs status = (if rs = [] then status else vxErrorInvalidType, p)
  | [], _, _ => rfl
  | r :: rs, _, h => by
    rw [addReferences, if_neg (Bool.eq_false_iff.1 (h r List.mem_cons_self)),
      addReferences_of_none (fun r hr => h r (List.mem_cons_of_mem _ hr)), if_neg (List.cons_ne_nil r rs)]
    split <;> rfl

/-- A list that is full takes nothing. -/
theorem addReferences_of_full (h : ¬ p.numBuf < objDescQueueMaxDepth) : ∀ {rs : List (Option R)} {status : Int},
    rs ≠ [] ∨ status ≠ vxSuccess →
      (p.addReferences attributes rs status).1 ≠ vxSuccess ∧ (p.addReferences attributes rs status).2 = p
  | [], _, hs => ⟨hs.resolve_left (fun hne => hne rfl), rfl⟩
  | r :: rs, _, _ => by
    rw [addReferences]
    by_cases hv : p.validated attributes r = true
    · rw [if_pos hv, dif_neg h]
      exact ⟨(by decide : vxErrorNoResources ≠ vxSuccess), rfl⟩
    · rw [if_neg hv]
      exact addReferences_of_full h (.inr (by decide))

end ListedParameter

open ListedParameter (Takes addReferences_of_takes numBuf_addReferences_lt addReferences_of_none addReferences_of_full)

namespace ConfiguredGraph

/-- `vxAddReferencesToGraphParameterList`; `rs` are the `number_to_add` references at `new_references`. -/
def vxAddReferencesToGraphParameterList (g : ConfiguredGraph R) (i : Nat) (rs : List (Option R)) : Int × ConfiguredGraph R :=
  if g.isGraph = true ∧ g.verified = true then
    if i < g.numParams then
      let (status, p) := (g.parameters i).addReferences attributes rs vxSuccess
      (status, g.setParameter i p)
    else (vxErrorInvalidParameters, g)
  else (vxErrorInvalidGraph, g)

/-- `vxGetGraphParameterRefsList`: the entries that are written to `refs_list`, and the external counts after each of these that
is not `NULL` is counted. -/
def vxGetGraphParameterRefsList [DecidableEq R] (g : ConfiguredGraph R) (i size : Nat) (counts : R → UInt32) :
    Int × List (Option R) × (R → UInt32) :=
  if g.isGraph = true then
    if g.verified = true then
      if i < g.numParams ∧ (g.parameters i).numBuf ≤ size then
        let written := (List.range size).map (g.parameters i).refsList
        (vxSuccess, written, fun r => counts r + UInt32.ofNat (written.count (some r)))
      else (vxErrorInvalidDimension, [], counts)
    else (vxErrorInvalidGraph, [], counts)
  else (vxErrorInvalidType, [], counts)

/-- The call succeeds exactly when each reference is validated and appended, the list stays within its capacity, and an error
leaves it as it was. -/
def AddsAll (g : ConfiguredGraph R) (i : Nat) (rs : List (Option R)) : Prop :=
  let r := g.vxAddReferencesToGraphParameterList attributes i rs
  (r.1 = vxSuccess ↔ Takes attributes rs (g.parameters i) (r.2.parameters i)) ∧
    (r.2.parameters i).numBuf ≤ objDescQueueMaxDepth ∧ (r.1 ≠ vxSuccess → r.2 = g)

/-- The call for a parameter of a verified graph writes the references of the list, in order, when it is asked for so many or
more. -/
def ReadsStored [DecidableEq R] (g : ConfiguredGraph R) (i size : Nat) (counts : R → UInt32) : Prop :=
  g.isGraph = true → g.verified = true → i < g.numParams → (g.parameters i).numBuf ≤ size →
    (g.vxGetGraphParameterRefsList i size counts).1 = vxSuccess ∧
      (g.vxGetGraphParameterRefsList i size counts).2.1 = (g.parameters i).stored

/-- All references are validated and there is room for them, or none is appended; a call that is refused is for one or more. -/
def AddFits (g : ConfiguredGraph R) (i : Nat) (rs : List (Option R)) : Prop :=
  if g.isGraph = true ∧ g.verified = true ∧ i < g.numParams then
    (∃ p', Takes attributes rs (g.parameters i) p') ∨
      (rs ≠ [] ∧ ((g.parameters i).numBuf = objDescQueueMaxDepth ∨ ∀ r ∈ rs, (g.parameters i).validated attributes r = false))
  else rs ≠ []

/-- A call of `vxGetGraphParameterRefsList` that is accepted does not ask for more than there is. -/
def ReadFits (g : ConfiguredGraph R) (i size : Nat) : Prop :=
  g.isGraph = true → g.verified = true → i < g.numParams → size ≤ (g.parameters i).numBuf

variable {attributes} {g : ConfiguredGraph R} {i size : Nat} {rs : List (Option R)}

theorem addsAll_of_refused (h : ¬ (g.isGraph = true ∧ g.verified = true ∧ i < g.numParams)) :
    g.AddsAll attributes i rs ↔ rs ≠ [] := by
  obtain ⟨e, he, hr⟩ : ∃ e, e ≠ vxSuccess ∧ g.vxAddReferencesToGraphParameterList attributes i rs = (e, g) := by
    unfold vxAddReferencesToGraphParameterList
    by_cases hg : g.isGraph = true ∧ g.verified = true
    · rw [if_pos hg, if_neg (fun hi => h ⟨hg.1, hg.2, hi⟩)]
      exact ⟨_, by decide, rfl⟩
    · rw [if_neg hg]
      exact ⟨_, by decide, rfl⟩
  unfold AddsAll
  simp only [hr, he, false_iff, ne_eq, not_false_eq_true, implies_true, and_true]
  constructor
  · rintro ⟨hno, -⟩ rfl
    exact hno rfl
  · intro hne
    refine ⟨fun ht => ?_, (g.parameters i).fits⟩
    have hstored := congrArg List.length ht.stored_eq
    rw [List.length_append] at hstored
    have : 0 < rs.length := List.length_pos_iff.2 hne
    omega

/-- Adding to a list that is accepted, where no reference is appended or all are. -/
theorem addsAll_iff : g.AddsAll attributes i rs ↔ g.AddFits attributes i rs := by
  unfold AddFits
  by_cases h : g.isGraph = true ∧ g.verified = true ∧ i < g.numParams
  · obtain ⟨hg, hv, hi⟩ := h
    rw [if_pos ⟨hg, hv, hi⟩]
    have hr : g.vxAddReferencesToGraphParameterList attributes i rs =
        (((g.parameters i).addReferences attributes rs vxSuccess).1,
          g.setParameter i ((g.parameters i).addReferences attributes rs vxSuccess).2) := by
      unfold vxAddReferencesToGraphParameterList
      rw [if_pos ⟨hg, hv⟩, if_pos hi]
    have hself : ∀ p, (g.setParameter i p).parameters i = p := fun p => by
      show Function.update g.parameters i p i = p
      exact Function.update_self ..
    have hkeep : ∀ p, g.setParameter i p = g ↔ p = g.parameters i := fun p =>
      ⟨fun he => by rw [← hself p, he], fun he => by rw [he, setParameter, Function.update_eq_self]⟩
    unfold AddsAll
    simp only [hr, hself, hkeep]
    by_cases htake : ∃ p', Takes attributes rs (g.parameters i) p'
    · obtain ⟨p', hp'⟩ := htake
      have hsucc : (if rs = [] then vxSuccess else vxSuccess) = vxSuccess := ite_self _
      rw [addReferences_of_takes hp', hsucc]
      exact ⟨fun _ => .inl ⟨p', hp'⟩, fun _ => ⟨⟨fun _ => hp', fun _ => rfl⟩, p'.fits, fun hne => absurd rfl hne⟩⟩
    · have hno : ∀ p', ¬ Takes attributes rs (g.parameters i) p' := fun p' hp' => htake ⟨p', hp'⟩
      have hrs : rs ≠ [] := fun he => hno (g.parameters i) (he ▸ rfl)
      simp only [hno, iff_false, exists_false, false_or]
      constructor
      · rintro ⟨hst, -, hsame⟩
        refine ⟨hrs, ?_⟩
        by_cases hfull : (g.parameters i).numBuf = objDescQueueMaxDepth
        · exact .inl hfull
        · right
          intro r hr'
          by_contra hval
          have hlt : (g.parameters i).numBuf < objDescQueueMaxDepth :=
            Nat.lt_of_le_of_ne (g.parameters i).fits hfull
          have hmore : _ < ((g.parameters i).addReferences attributes rs vxSuccess).2.numBuf :=
            numBuf_addReferences_lt hlt ⟨r, hr', by simpa using hval⟩
          rw [hsame hst] at hmore
          omega
      · rintro ⟨-, hfull | hnone⟩
        · have hstays : ((g.parameters i).addReferences attributes rs vxSuccess).1 ≠ vxSuccess ∧ _ :=
            addReferences_of_full (by omega) (.inl hrs)
          exact ⟨hstays.1, ListedParameter.fits _, fun _ => hstays.2⟩
        · rw [addReferences_of_none hnone, if_neg hrs]
          exact ⟨(by decide : vxErrorInvalidType ≠ vxSuccess), (g.parameters i).fits, fun _ => rfl⟩
  · rw [if_neg h]
    exact addsAll_of_refused h

theorem readsStored_iff [DecidableEq R] {counts : R → UInt32} : g.ReadsStored i size counts ↔ g.ReadFits i size := by
  unfold ReadsStored ReadFits
  refine forall_congr' (fun hg => forall_congr' (fun hv => forall_congr' (fun hi => ?_)))
  by_cases hle : (g.parameters i).numBuf ≤ size
  · have hr : g.vxGetGraphParameterRefsList i size counts = (vxSuccess, (List.range size).map (g.parameters i).refsList,
        fun r => counts r + UInt32.ofNat (((List.range size).map (g.parameters i).refsList).count (some r))) := by
      unfold vxGetGraphParameterRefsList
      rw [if_pos hg, if_pos hv, if_pos ⟨hi, hle⟩]
    rw [hr]
    simp only [hle, true_and, forall_const, ListedParameter.stored]
    constructor
    · intro h
      have := congrArg List.length h
      simp only [List.length_map, List.length_range] at this
      omega
    · intro h
      rw [Nat.le_antisymm h hle]
  · exact ⟨fun _ => by omega, fun _ h => absurd h hle⟩

/-- **Adding and reading references.**  References are added all or none, with a status that says so, in the calls that fit, and in
no others; and the list is read as it is stored by a call that does not ask for more entries than there are, and by no other. -/
theorem parameterList_iff [DecidableEq R] {counts : R → UInt32} :
    (g.AddsAll attributes i rs ↔ g.AddFits attributes i rs) ∧ (g.ReadsStored i size counts ↔ g.ReadFits i size) :=
  ⟨addsAll_iff, readsStored_iff⟩

end ConfiguredGraph

end

/-- A verified graph whose parameter has the large image. -/
def oneImageListed : ConfiguredGraph RefAttributes where
  isGraph := true
  verified := true
  scheduleMode := .queueAuto
  isPipeliningEnabled := true
  numParams := 1
  parameters := fun _ =>
    { queueEnable := true, numBuf := 1, type := .image, refsList := fun i => [largeImage][i]?, fits := by decide }

/-- The first reference of two is refused and only the second appended, which succeeds; and three entries are written where one is
stored. -/
theorem references_lost :
    ¬ oneImageListed.AddsAll id 0 [some smallImage, some largeImage] ∧
      (oneImageListed.vxAddReferencesToGraphParameterList id 0 [some smallImage, some largeImage]).1 = vxSuccess ∧
      ((oneImageListed.vxAddReferencesToGraphParameterList id 0 [some smallImage, some largeImage]).2.parameters 0).stored =
        [some largeImage, some largeImage] ∧
      ¬ oneImageListed.ReadsStored 0 3 (fun _ => 1) ∧
      (oneImageListed.vxGetGraphParameterRefsList 0 3 (fun _ => 1)).2.1 = [some largeImage, none, none] := by
  refine ⟨fun h => ?_, rfl, rfl, fun h => ?_, rfl⟩
  · obtain ⟨hv, -⟩ := h.1.1 rfl
    exact absurd hv (by decide)
  · exact absurd (h rfl rfl (by decide) (by decide)).2 (by decide)

end Tiovx
