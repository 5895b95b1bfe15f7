import Tiovx.MetaFormat
/-!
# ReferenceLists — the references listed for a graph parameter (`vx_graph_pipeline.c`)

`ownGraphPipelineValidateRefsList` compares each reference of a list with the first.  One status is set for each entry in turn, so
what comes back is what the last entry was found to be, unless an entry of a type without meta data ends the loop.
-/
namespace Tiovx

open MetaFormat (ownIsMetaFormatEqual ownIsMetaFormatEqual_iff)

/-- `vxSetMetaFormatFromReference` succeeds. -/
def RefAttributes.hasMeta : RefAttributes → Bool
  | data _ => true
  | other _ => false

/-- A reference is a data object of the type of the first, with equal meta data. -/
def RefAttributes.matches : RefAttributes → RefAttributes → Bool
  | data m, data n => m.type = n.type && ownIsMetaFormatEqual m n
  | _, _ => false

section

variable {R : Type}

/- What the attributes of a reference say. -/
variable (attributes : R → RefAttributes)

/-- The loop over the entries of the list after the first, whose meta format is `base`. -/
def validateEntries (base : MetaFormat) : List (Option R) → Int → Int
  | [], status => status
  | none :: rs, _ => validateEntries base rs vxErrorInvalidParameters
  | some r :: rs, _ =>
    match vxSetMetaFormatFromReference (attributes r) with
    | .error e => e
    | .ok m =>
      let differs := decide (base.type = (attributes r).type) && !ownIsMetaFormatEqual base m
      validateEntries base rs (if differs then vxErrorInvalidParameters else vxSuccess)

/-- `ownGraphPipelineValidateRefsList`; `refs` is the memory at `refs_list`, and `size` is `refs_list_size`. -/
def ownGraphPipelineValidateRefsList (refs : Nat → Option R) (size : Nat) : Int :=
  match refs 0 with
  | none => vxSuccess
  | some first =>
    match vxSetMetaFormatFromReference (attributes first) with
    | .error e => e
    | .ok base => validateEntries attributes base ((List.range (size - 1)).map (fun i => refs (i + 1))) vxSuccess

/-- Each of the references is there and matches the first. -/
def RefsMatch (refs : Nat → Option R) (size : Nat) : Prop :=
  ∀ i < size, ∃ first r, refs 0 = some first ∧ refs i = some r ∧ (attributes first).matches (attributes r) = true

/-- The entry is not there, or is a data object of the type of the first with other meta data. -/
def Refused (first : R) : Option R → Prop
  | none => True
  | some r => (attributes first).type = (attributes r).type ∧ (attributes first).matches (attributes r) = false

/-- The list is without a mismatch, or its first entry is there and an entry that has no meta data, or the last one, is
refused.  Of an empty list the memory at `refs_list` is looked at. -/
def MismatchSeen (refs : Nat → Option R) (size : Nat) : Prop :=
  if size = 0 then ∀ first, refs 0 = some first → (attributes first).hasMeta = true
  else RefsMatch attributes refs size ∨ ∃ first, refs 0 = some first ∧
    ((∃ i < size, ∃ r, refs i = some r ∧ (attributes r).hasMeta = false) ∨ Refused attributes first (refs (size - 1)))

variable {attributes} {refs : Nat → Option R} {size : Nat} {base : MetaFormat} {first : R}

theorem RefAttributes.matches_self {a : RefAttributes} : a.matches a = a.hasMeta := by
  cases a with
  | data m => simp [RefAttributes.matches, RefAttributes.hasMeta, ownIsMetaFormatEqual_iff]
  | other type => rfl

/-- What the loop finds: no entry ends it, and the last one is accepted. -/
theorem validateEntries_eq_success (hbase : attributes first = .data base) : ∀ {rs : List (Option R)} {status : Int},
    validateEntries attributes base rs status = vxSuccess ↔
      (∀ r, some r ∈ rs → (attributes r).hasMeta = true) ∧
        match rs.getLast? with
        | none => status = vxSuccess
        | some o => ¬ Refused attributes first o
  | [], status => by
    simp [validateEntries]
  | none :: rs, _ => by
    rw [validateEntries, validateEntries_eq_success hbase, List.getLast?_cons]
    cases rs.getLast? with
    | none =>
      simp [vxErrorInvalidParameters_ne, Refused]
    | some o => simp
  | some r :: rs, _ => by
    rw [validateEntries]
    cases hr : attributes r with
    | other type =>
      refine ⟨fun h => absurd h vxErrorNotSupported_ne, fun h => ?_⟩
      have := h.1 r List.mem_cons_self
      rw [hr] at this
      cases this
    | data m =>
      simp only [vxSetMetaFormatFromReference]
      rw [validateEntries_eq_success hbase, List.getLast?_cons]
      have hmeta : (attributes r).hasMeta = true := by
        rw [hr]
        rfl
      refine and_congr ⟨fun h r' hr' => ?_, fun h r' hr' => h r' (List.mem_cons_of_mem _ hr')⟩ ?_
      · rcases List.mem_cons.1 hr' with he | hm
        · cases he
          exact hmeta
        · exact h r' hm
      · cases rs.getLast? with
        | some o => rfl
        | none =>
          -- the status is what the comparison of this entry, the last, has set
          simp only [Option.getD_none, Refused, hbase, hr, RefAttributes.type, RefAttributes.matches]
          by_cases ht : base.type = m.type
          · cases he : ownIsMetaFormatEqual base m <;> simp [ht, vxErrorInvalidParameters_ne]
          · simp [ht]

/-- The verdict on a list whose first entry has meta data. -/
theorem validate_eq_success (h : refs 0 = some first) (hm : (attributes first).hasMeta = true) :
    ownGraphPipelineValidateRefsList attributes refs size = vxSuccess ↔
      (∀ i < size, ∀ r, refs i = some r → (attributes r).hasMeta = true) ∧
        (size ≠ 0 → ¬ Refused attributes first (refs (size - 1))) := by
  obtain ⟨base, hbase⟩ : ∃ base, attributes first = .data base := by
    cases ha : attributes first with
    | data base => exact ⟨base, rfl⟩
    | other type =>
      rw [ha] at hm
      cases hm
  have hself : ¬ Refused attributes first (some first) := fun hr => by
    rw [Refused, RefAttributes.matches_self, hm] at hr
    cases hr.2
  have hentries : validateEntries attributes base ((List.range (size - 1)).map (fun i => refs (i + 1))) vxSuccess =
      vxSuccess ↔ _ :=
    validateEntries_eq_success hbase
  unfold ownGraphPipelineValidateRefsList
  simp only [h, hbase, vxSetMetaFormatFromReference]
  rw [hentries]
  refine and_congr ⟨fun hall i hi r hr => ?_, fun hall r hr => ?_⟩ ?_
  · cases i with
    | zero =>
      cases h.symm.trans hr
      exact hm
    | succ i => exact hall r (List.mem_map.2 ⟨i, List.mem_range.2 (by omega), hr⟩)
  · obtain ⟨i, hi, hri⟩ := List.mem_map.1 hr
    have := List.mem_range.1 hi
    exact hall (i + 1) (by omega) r hri
  · match size with
    | 0 => simp
    | 1 => simpa [h] using hself
    | n + 2 =>
      rw [List.getLast?_map, show n + 2 - 1 = n + 1 from rfl, List.range_succ, List.getLast?_append]
      simp

theorem RefsMatch.hasMeta (h : RefsMatch attributes refs size) :
    ∀ i < size, ∀ r, refs i = some r → (attributes r).hasMeta = true := by
  intro i hi r hr
  obtain ⟨first, r', -, hr', hmatch⟩ := h i hi
  cases hr.symm.trans hr'
  unfold RefAttributes.matches at hmatch
  split at hmatch
  · rename_i m n hm hn
    rw [hn]
    rfl
  · cases hmatch

theorem RefsMatch.not_refused (h : RefsMatch attributes refs size) (hfirst : refs 0 = some first) (hsize : size ≠ 0) :
    ¬ Refused attributes first (refs (size - 1)) := by
  obtain ⟨first', r, hf, hr, hmatch⟩ := h (size - 1) (by omega)
  cases hfirst.symm.trans hf
  rw [hr]
  exact fun hrefused => Bool.false_ne_true (hrefused.2.symm.trans hmatch)

/-- **When a list is validated.**  The list is accepted exactly when each reference is there and matches the first, whenever the
mismatches of the list are seen, and only then. -/
theorem validation_iff : (ownGraphPipelineValidateRefsList attributes refs size = vxSuccess ↔ RefsMatch attributes refs size) ↔
    MismatchSeen attributes refs size := by
  unfold MismatchSeen
  cases h : refs 0 with
  | none =>
    have hsuccess : ownGraphPipelineValidateRefsList attributes refs size = vxSuccess := by
      unfold ownGraphPipelineValidateRefsList
      rw [h]
    by_cases hsize : size = 0
    · subst hsize
      simp [hsuccess, RefsMatch]
    · have hno : ¬ RefsMatch attributes refs size := fun hr => by
        obtain ⟨first, -, hf, -⟩ := hr 0 (by omega)
        cases h.symm.trans hf
      simp [hsuccess, hsize, hno]
  | some first =>
    by_cases hm : (attributes first).hasMeta = true
    · rw [validate_eq_success h hm]
      by_cases hsize : size = 0
      · simp [hsize, RefsMatch, hm]
      · rw [if_neg hsize]
        by_cases hmatch : RefsMatch attributes refs size
        · exact ⟨fun _ => .inl hmatch, fun _ => ⟨fun _ => hmatch, fun _ => ⟨hmatch.hasMeta, hmatch.not_refused h⟩⟩⟩
        · simp only [hmatch, iff_false, false_or, Option.some.injEq, exists_eq_left', not_and_or]
          push Not
          simp [hsize]
    · -- the first entry has no meta data
      have hm' : (attributes first).hasMeta = false := Bool.eq_false_iff.2 hm
      have hfail : ownGraphPipelineValidateRefsList attributes refs size ≠ vxSuccess := by
        unfold ownGraphPipelineValidateRefsList
        cases ha : attributes first with
        | data base =>
          rw [ha] at hm
          exact absurd rfl hm
        | other type =>
          simpa [h, ha, vxSetMetaFormatFromReference] using vxErrorNotSupported_ne
      by_cases hsize : size = 0
      · simp [hsize, RefsMatch, hm'] at hfail ⊢
        exact hfail
      · have hno : ¬ RefsMatch attributes refs size := fun hr => hm (hr.hasMeta 0 (by omega) first h)
        rw [if_neg hsize]
        refine ⟨fun _ => .inr ⟨first, rfl, .inl ⟨0, by omega, first, h, hm'⟩⟩, fun _ => ?_⟩
        exact ⟨fun hs => absurd hs hfail, fun hr => absurd hr hno⟩

end

/-- An image of 640x480 pixels of a byte, and one of 320x240. -/
def largeImage : RefAttributes := .data (.image ⟨640, 480, .u8, 16⟩)
def smallImage : RefAttributes := .data (.image ⟨320, 240, .u8, 16⟩)

/-- A list that begins with a null pointer is accepted, and so are one with a reference of another type and one whose mismatch is
not in the last place. -/
theorem mismatch_not_seen :
    (ownGraphPipelineValidateRefsList id (fun i => [none, some smallImage][i]?.join) 2 = vxSuccess ∧
      ¬ RefsMatch id (fun i => [none, some smallImage][i]?.join) 2) ∧
    (ownGraphPipelineValidateRefsList id (fun i => [largeImage, .data (.scalar 3)][i]?) 2 = vxSuccess ∧
      ¬ RefsMatch id (fun i => [largeImage, .data (.scalar 3)][i]?) 2) ∧
    ownGraphPipelineValidateRefsList id (fun i => [largeImage, smallImage, largeImage][i]?) 3 = vxSuccess ∧
      ¬ RefsMatch id (fun i => [largeImage, smallImage, largeImage][i]?) 3 := by
  refine ⟨⟨rfl, fun h => ?_⟩, ⟨rfl, fun h => ?_⟩, rfl, fun h => ?_⟩
  · obtain ⟨first, -, hf, -⟩ := h 0 (by decide)
    cases hf
  · obtain ⟨first, r, hf, hr, hmatch⟩ := h 1 (by decide)
    cases hf
    cases hr
    exact absurd hmatch (by decide)
  · obtain ⟨first, r, hf, hr, hmatch⟩ := h 1 (by decide)
    cases hf
    cases hr
    exact absurd hmatch (by decide)

end Tiovx
