import Tiovx.DataReferences
import Tiovx.ScheduleStatus
import Tiovx.SupplementaryData
/-!
# SetGraphParameter — a new reference for a graph parameter (`vx_graph.c`, `vx_node.c`, `vx_parameter.c`, `vx_graph_verify.c`)

At verification each graph parameter is linked with the other node parameters that have its reference.
`vxSetGraphParameterByIndex` sets the parameter's own node parameter, which is checked, and then those it is linked with, which are
not; the status of the first is lost when there are others.
-/
namespace Tiovx

/-- A node parameter: the node and the index. -/
abbrev Place := Nat × Nat

/-- What the signature of a kernel, and the node, say of a parameter; the type `none` is `VX_TYPE_REFERENCE`. -/
structure PlaceSignature where
  type : Option Int
  optional : Bool
  replicated : Bool

/-- A data object as a parameter: its type, that of a scalar, whether it is the first element of an object array or level of a
pyramid, and the id of its descriptor. -/
structure ParameterValue where
  type : Int
  scalarType : Option Int
  isFirstOfScope : Bool
  objDescId : Nat

/-- The references at the node parameters, `data_id` of each in the descriptor of each pipeline instance, and the internal
counts. -/
structure NodeParameters (R : Type) where
  parameter : Place → Option R
  dataId : Place → Nat → Option Nat
  internalCount : R → Nat

section

variable {R : Type} [DecidableEq R]

/-- The node parameters that have the reference that is at `own`, but for `own` itself, as `ownGraphLinkParameters` records
them. -/
def linkedPlaces (places : List Place) (parameter : Place → Option R) (own : Place) : List Place :=
  places.filter (fun o => decide (o ≠ own) && decide (parameter o = parameter own))

/-- A graph that is verified: the node parameters, those that its graph parameters stand for, and what they had when it was
verified. No graph parameter has too many linked node parameters. -/
structure LinkedGraph (R : Type) [DecidableEq R] where
  isGraph : Bool
  places : List Place
  signature : Place → PlaceSignature
  pipelineDepth : Nat → Nat
  value : R → ParameterValue
  graphParameters : List Place
  verifiedWith : Place → Option R
  places_nodup : places.Nodup
  graphParameters_mem : ∀ o ∈ graphParameters, o ∈ places
  linked : ∀ o ∈ graphParameters, (linkedPlaces places verifiedWith o).length ≤ graphMaxParamRefs
  pipelineDepth_pos : ∀ n, 0 < pipelineDepth n

/-- How the calls end that `vxSetGraphParameterByIndex` makes of other parts: the association of delays with a node parameter,
and the allocation of the memory of a reference. -/
structure ParameterCalls (R : Type) where
  associates : Place → R → Bool
  allocates : Place → R → Bool

namespace NodeParameters

/-- The counts with one internal reference less for a parameter that is not `NULL`. -/
def released (count : R → Nat) : Option R → R → Nat
  | none => count
  | some r => Function.update count r (count r - 1)

/-- The counts with one internal reference more. -/
def retained (count : R → Nat) : Option R → R → Nat
  | none => count
  | some r => Function.update count r (count r + 1)

theorem released_add {count : R → Nat} {v : Option R} {r : R} (h : v = some r → 0 < count r) :
    released count v r + (if v = some r then 1 else 0) = count r := by
  cases v with
  | none => simp [released]
  | some q =>
    by_cases hq : r = q
    · have := h (congrArg some hq.symm)
      subst hq
      simp only [released, Function.update_self, if_true]
      omega
    · simp [released, Function.update_of_ne hq, Ne.symm hq]

theorem retained_apply (count : R → Nat) (v : Option R) (r : R) :
    retained count v r = count r + if v = some r then 1 else 0 := by
  cases v with
  | none => simp [retained]
  | some q =>
    by_cases hq : r = q
    · simp [retained, hq]
    · simp [retained, Function.update_of_ne hq, Ne.symm hq]

end NodeParameters

namespace LinkedGraph

open NodeParameters

variable (G : LinkedGraph R) (C : ParameterCalls R)

/-- `params_list` of the graph parameter at `own`. -/
def others (own : Place) : List Place := linkedPlaces G.places G.verifiedWith own

/-- `ownReferenceGetObjDescId`. -/
def objDescId (v : Option R) : Option Nat := v.map (fun r => (G.value r).objDescId)

/-- `ownNodeSetParameter`.  The caller has a reference of its own to the new value, which is not destroyed in between. -/
def ownNodeSetParameter (s : NodeParameters R) (o : Place) (v : Option R) : NodeParameters R where
  parameter := Function.update s.parameter o v
  dataId := Function.update s.dataId o (Function.update (s.dataId o) 0 (G.objDescId v))
  internalCount := retained (released s.internalCount (s.parameter o)) v

/-- The type of the reference is that of the signature. -/
def typeFits (o : Place) (r : R) : Bool :=
  match (G.signature o).type with
  | none => true
  | some type => (G.value r).type = type || (G.value r).scalarType = some type

/-- The checks of `vxSetParameterByIndex` on a reference that is there. -/
def checkParameter (o : Place) (r : R) : Int :=
  if G.typeFits o r = false then vxErrorInvalidType
  else if C.associates o r = false then vxErrorInvalidReference
  else if (G.signature o).replicated && !(G.value r).isFirstOfScope then vxErrorInvalidScope
  else vxSuccess

/-- `vxSetParameterByIndex` of a node parameter that there is; nothing is set where an optional parameter is to be `NULL`. -/
def vxSetParameterByIndex (s : NodeParameters R) (o : Place) : Option R → Int × NodeParameters R
  | none => (if (G.signature o).optional then vxSuccess else vxErrorInvalidReference, s)
  | some r =>
    let status := G.checkParameter C o r
    (status, if status = vxSuccess then G.ownNodeSetParameter s o (some r) else s)

/-- `vxSetGraphParameterByIndex`; nothing comes back where a null pointer is followed. -/
def vxSetGraphParameterByIndex (s : NodeParameters R) (index : Nat) (v : Option R) : Option (Int × NodeParameters R) :=
  if G.isGraph = false then some (vxErrorInvalidReference, s)
  else
    match G.graphParameters[index]? with
    | none => some (vxErrorInvalidValue, s)
    | some own =>
      let first := G.vxSetParameterByIndex C s own v
      let (status, s) := (G.others own).foldl (fun r o => (vxSuccess, G.ownNodeSetParameter r.2 o v)) first
      if status = vxSuccess then
        -- `ownGraphAllocateDataObject` reads the scope or the delay of the reference
        match v with
        | none => none
        | some r => some (if C.allocates own r then vxSuccess else vxErrorNoMemory, s)
      else some (status, s)

/-- The occurrences a new value is for: the parameter's own and, if it was not `NULL` at verification, those that had its
reference. -/
def occurrences (own : Place) : List Place := own :: if G.verifiedWith own = none then [] else G.others own

/-- **The occurrences are replaced**: they have the new value, and each descriptor of their nodes its id; the other node parameters
are as they were; and for each occurrence there is one reference more to the new value, and one less to what it had. -/
def Replaced (s s' : NodeParameters R) (own : Place) (v : Option R) : Prop :=
  (∀ o ∈ G.occurrences own, s'.parameter o = v ∧ ∀ p < G.pipelineDepth o.1, s'.dataId o p = G.objDescId v) ∧
  (∀ o, o ∉ G.occurrences own → s'.parameter o = s.parameter o) ∧
  ∀ r, s'.internalCount r + (G.occurrences own).countP (fun o => s.parameter o = some r) =
    s.internalCount r + if v = some r then (G.occurrences own).length else 0

/-- The call returns; with success the occurrences are replaced, and with an error no reference and no count has changed. -/
def SetsOrKeeps (s : NodeParameters R) (index : Nat) (v : Option R) : Prop :=
  ∃ status s', G.vxSetGraphParameterByIndex C s index v = some (status, s') ∧
    if status = vxSuccess then ∃ own ∈ G.graphParameters[index]?, G.Replaced s s' own v
    else s'.parameter = s.parameter ∧ s'.internalCount = s.internalCount

/-- Every descriptor but the first, of the nodes of the occurrences, has the id already. -/
def InstancesFit (s : NodeParameters R) (own : Place) (r : R) : Prop :=
  ∀ o ∈ G.occurrences own, ∀ p, 0 < p → p < G.pipelineDepth o.1 → s.dataId o p = G.objDescId (some r)

/-- **The condition.**  `NULL` is refused, for a parameter without linked ones.  A reference that the checks accept is set where no
occurrence is pipelined, and nothing else is linked, if its memory is there; and is what all of them have already, if it is not.
A reference that is refused is for a parameter without linked ones, or makes no difference. -/
def SetFits (s : NodeParameters R) (own : Place) : Option R → Prop
  | none => (G.signature own).optional = false ∧ G.others own = []
  | some r =>
    let accepted := G.checkParameter C own r = vxSuccess
    (¬ accepted ∧ G.others own = []) ∨
      if C.allocates own r then
        (accepted ∨ s.parameter own = some r) ∧ G.InstancesFit s own r ∧
          (G.verifiedWith own = none → ∀ o ∈ G.others own, s.parameter o = some r)
      else (accepted → s.parameter own = some r) ∧ ∀ o ∈ G.others own, s.parameter o = some r

/-- A state in which the references of the node parameters are counted, and the first descriptor of each node has their ids. -/
structure CountedParameters extends NodeParameters R where
  counted : ∀ r, G.places.countP (fun o => parameter o = some r) ≤ internalCount r
  described : ∀ o ∈ G.places, dataId o 0 = G.objDescId (parameter o)

variable {G C} {s s' : NodeParameters R} {own o : Place} {v : Option R} {r : R} {T : List Place} {index : Nat}

/-! ### What a list of occurrences that is set becomes -/

/-- The occurrences of a list are set one after the other. -/
def setAll (G : LinkedGraph R) (s : NodeParameters R) (T : List Place) (v : Option R) : NodeParameters R :=
  T.foldl (fun s o => G.ownNodeSetParameter s o v) s

theorem setAll_parameter : ∀ {T : List Place} {s : NodeParameters R},
    (G.setAll s T v).parameter o = if o ∈ T then v else s.parameter o
  | [], s => by
    rw [if_neg List.not_mem_nil]
    rfl
  | t :: T, s => by
    rw [setAll, List.foldl_cons, ← setAll, setAll_parameter]
    by_cases ho : o ∈ T
    · rw [if_pos ho, if_pos (List.mem_cons_of_mem t ho)]
    · rw [if_neg ho]
      show Function.update s.parameter t v o = _
      by_cases hot : o = t
      · rw [hot, Function.update_self, if_pos List.mem_cons_self]
      · rw [Function.update_of_ne hot, if_neg (List.not_mem_cons_of_ne_of_not_mem hot ho)]

theorem setAll_dataId {p : Nat} : ∀ {T : List Place} {s : NodeParameters R},
    (G.setAll s T v).dataId o p = if o ∈ T ∧ p = 0 then G.objDescId v else s.dataId o p
  | [], s => by
    rw [if_neg (fun h => List.not_mem_nil h.1)]
    rfl
  | t :: T, s => by
    rw [setAll, List.foldl_cons, ← setAll, setAll_dataId]
    have hset : (G.ownNodeSetParameter s t v).dataId o p = if o = t ∧ p = 0 then G.objDescId v else s.dataId o p := by
      show Function.update s.dataId t (Function.update (s.dataId t) 0 (G.objDescId v)) o p = _
      by_cases hot : o = t
      · subst hot
        simp [Function.update_apply]
      · simp [hot]
    rw [hset]
    by_cases hp : p = 0
    · by_cases ho : o ∈ T <;> by_cases hot : o = t <;> simp [ho, hot, hp]
    · simp [hp]

/-- One occurrence less of what was there, one more of the new value. -/
theorem set_internalCount (h : s.parameter o = some r → 0 < s.internalCount r) :
    (G.ownNodeSetParameter s o v).internalCount r + (if s.parameter o = some r then 1 else 0) =
      s.internalCount r + if v = some r then 1 else 0 := by
  have hrel := released_add h
  show retained (released s.internalCount (s.parameter o)) v r + _ = _
  rw [retained_apply]
  omega

/-- **The counts** after all occurrences of a list are set, each of which is counted. -/
theorem setAll_internalCount : ∀ {T : List Place} {s : NodeParameters R}, T.Nodup →
    T.countP (fun o => s.parameter o = some r) ≤ s.internalCount r →
    (G.setAll s T v).internalCount r + T.countP (fun o => s.parameter o = some r) =
      s.internalCount r + if v = some r then T.length else 0
  | [], s, _, _ => by
    simp [setAll]
  | t :: T, s, hn, hc => by
    obtain ⟨ht, hT⟩ := List.nodup_cons.1 hn
    rw [List.countP_cons] at hc
    have hrest : T.countP (fun o => (G.ownNodeSetParameter s t v).parameter o = some r) =
        T.countP (fun o => s.parameter o = some r) := by
      apply List.countP_congr
      intro o ho
      have hne : o ≠ t := fun e => ht (e ▸ ho)
      show decide (Function.update s.parameter t v o = some r) = true ↔ _
      rw [Function.update_of_ne hne]
    have hone : (G.ownNodeSetParameter s t v).internalCount r + (if s.parameter t = some r then 1 else 0) =
        s.internalCount r + if v = some r then 1 else 0 := by
      apply set_internalCount
      intro h
      simp only [h, decide_true, if_true] at hc
      omega
    have hstep : (G.setAll (G.ownNodeSetParameter s t v) T v).internalCount r + _ = _ := setAll_internalCount hT (by
      rw [hrest]
      simp only [decide_eq_true_eq] at hc
      omega)
    rw [hrest] at hstep
    rw [setAll, List.foldl_cons, ← setAll, List.countP_cons, List.length_cons]
    simp only [decide_eq_true_eq]
    split_ifs at * <;> omega

/-! ### When the call does what it is for -/

theorem others_nodup : (own :: G.others own).Nodup :=
  List.nodup_cons.2 ⟨fun h => by simpa using (List.mem_filter.1 h).2, G.places_nodup.filter _⟩

/-- What the call does with a reference that is there: it sets the parameter's own node parameter, if the checks accept it, and all
it is linked with. -/
theorem call_some (hg : G.isGraph = true) (hi : G.graphParameters[index]? = some own) :
    G.vxSetGraphParameterByIndex C s index (some r) =
      if G.checkParameter C own r ≠ vxSuccess ∧ G.others own = [] then some (G.checkParameter C own r, s)
      else some (if C.allocates own r then vxSuccess else vxErrorNoMemory,
        G.setAll s (if G.checkParameter C own r = vxSuccess then own :: G.others own else G.others own) (some r)) := by
  have hfold : ∀ (T : List Place) (f : Int × NodeParameters R),
      T.foldl (fun x o => (vxSuccess, G.ownNodeSetParameter x.2 o (some r))) f =
        (if T = [] then f.1 else vxSuccess, G.setAll f.2 T (some r)) := by
    intro T
    induction T with
    | nil => exact fun _ => rfl
    | cons t T ih =>
      intro f
      rw [List.foldl_cons, ih, if_neg (List.cons_ne_nil t T), ite_self]
      rfl
  unfold vxSetGraphParameterByIndex
  rw [hg, hi]
  simp only [Bool.true_eq_false, if_false, hfold, vxSetParameterByIndex]
  by_cases hc : G.checkParameter C own r = vxSuccess
  · simp only [hc, if_true, ne_eq, not_true, false_and, if_false, ite_self]
    rfl
  · by_cases hT : G.others own = []
    · simp only [hc, hT, if_true, if_false, ne_eq, not_false_eq_true, and_self]
      rfl
    · simp [hc, hT]

/-- How many occurrences have a reference, where all have the same. -/
theorem countP_of_all {q : R} (h : ∀ o ∈ T, s.parameter o = some r) :
    T.countP (fun o => s.parameter o = some q) = if some r = some q then T.length else 0 := by
  by_cases hq : some r = some q
  · rw [if_pos hq]
    exact List.countP_eq_length.2 (fun o ho => decide_eq_true ((h o ho).trans hq))
  · rw [if_neg hq]
    exact List.countP_eq_zero.2 (fun o ho hd => hq ((h o ho).symm.trans (of_decide_eq_true hd)))

/-- Occurrences that all have the new value are the same after they are set, and no others are. -/
theorem setAll_same (hn : T.Nodup) (hc : ∀ q, T.countP (fun o => s.parameter o = some q) ≤ s.internalCount q) :
    (G.setAll s T (some r)).parameter = s.parameter ∧ (G.setAll s T (some r)).internalCount = s.internalCount ↔
      ∀ o ∈ T, s.parameter o = some r := by
  constructor
  · rintro ⟨hp, -⟩ o ho
    rw [← hp, setAll_parameter, if_pos ho]
  · intro hall
    refine ⟨?_, ?_⟩
    · funext o
      rw [setAll_parameter]
      split
      · exact (hall o ‹_›).symm
      · rfl
    · funext q
      have hcount := setAll_internalCount (G := G) (r := q) (v := some r) hn (hc q)
      rw [countP_of_all hall] at hcount
      omega

/-- The occurrences are replaced where the list that is set leaves out at most the parameter's own, which has the value then, and
no occurrence is pipelined; what else is in the list has the value already. -/
theorem replaced_iff {accepted : Prop} [Decidable accepted] (hT : T = if accepted then own :: G.others own else G.others own)
    (hc : ∀ q, T.countP (fun o => s.parameter o = some q) ≤ s.internalCount q)
    (hd : s.dataId own 0 = G.objDescId (s.parameter own)) :
    G.Replaced s (G.setAll s T (some r)) own (some r) ↔
      (accepted ∨ s.parameter own = some r) ∧ G.InstancesFit s own r ∧
        (G.verifiedWith own = none → ∀ o ∈ G.others own, s.parameter o = some r) := by
  have hnd : (own :: G.others own).Nodup := others_nodup
  have hnot : own ∉ G.others own := (List.nodup_cons.1 hnd).1
  have hsub : ∀ o ∈ G.others own, o ∈ T := fun o ho => by
    rw [hT]
    split
    · exact List.mem_cons_of_mem own ho
    · exact ho
  have hown : own ∈ T ↔ accepted := by
    rw [hT]
    split
    · exact iff_of_true List.mem_cons_self ‹_›
    · exact iff_of_false hnot ‹_›
  have hmem : ∀ o ∈ T, o = own ∨ o ∈ G.others own := fun o ho => by
    rw [hT] at ho
    split at ho
    · exact List.mem_cons.1 ho
    · exact .inr ho
  have hnT : T.Nodup := by
    rw [hT]
    split
    · exact hnd
    · exact (List.nodup_cons.1 hnd).2
  have hE : ∀ o ∈ G.occurrences own, o = own ∨ o ∈ G.others own := fun o ho => by
    rcases List.mem_cons.1 ho with h | h
    · exact .inl h
    · split at h
      · cases h
      · exact .inr h
  constructor
  · rintro ⟨hin, hout, -⟩
    refine ⟨?_, fun o ho p hp hlt => ?_, fun hnull o ho => ?_⟩
    · by_cases ha : accepted
      · exact .inl ha
      · have := (hin own List.mem_cons_self).1
        rw [setAll_parameter, if_neg (fun h => ha (hown.1 h))] at this
        exact .inr this
    · have := (hin o ho).2 p hlt
      rwa [setAll_dataId, if_neg (fun h => Nat.ne_of_gt hp h.2)] at this
    · have hno : o ∉ G.occurrences own := fun h => by
        rw [occurrences, if_pos hnull, List.mem_singleton] at h
        exact hnot (h ▸ ho)
      rw [← hout o hno, setAll_parameter, if_pos (hsub o ho)]
  · rintro ⟨hval, hinst, hnull⟩
    have hset : ∀ o ∈ G.occurrences own, (G.setAll s T (some r)).parameter o = some r := fun o ho => by
      rw [setAll_parameter]
      split
      · rfl
      · rename_i hoT
        rcases hE o ho with rfl | h
        · exact hval.resolve_left (fun ha => hoT (hown.2 ha))
        · exact absurd (hsub o h) hoT
    refine ⟨fun o ho => ⟨hset o ho, fun p hlt => ?_⟩, fun o ho => ?_, fun q => ?_⟩
    · rw [setAll_dataId]
      split
      · rfl
      · rename_i hoT
        by_cases hp : p = 0
        · rcases hE o ho with rfl | h
          · rw [hp, hd, hval.resolve_left (fun ha => hoT ⟨hown.2 ha, hp⟩)]
          · exact absurd ⟨hsub o h, hp⟩ hoT
        · exact hinst o ho p (Nat.pos_of_ne_zero hp) hlt
    · rw [setAll_parameter]
      split
      · rename_i hoT
        rcases hmem o hoT with rfl | h
        · exact absurd List.mem_cons_self ho
        · by_cases hn : G.verifiedWith own = none
          · exact (hnull hn o h).symm
          · exact absurd (List.mem_cons_of_mem own (by rwa [if_neg hn])) ho
      · rfl
    · -- the counts of the list that is set differ from those of the occurrences where the value was there already
      have hcount := setAll_internalCount (G := G) (r := q) (v := some r) hnT (hc q)
      have howned : ¬ accepted → [own].countP (fun o => s.parameter o = some q) = if some r = some q then 1 else 0 := fun ha =>
        countP_of_all (fun o ho => by
          rw [List.mem_singleton.1 ho]
          exact hval.resolve_left ha)
      have hothers : G.verifiedWith own = none →
          (G.others own).countP (fun o => s.parameter o = some q) = if some r = some q then (G.others own).length else 0 :=
        fun hn => countP_of_all (hnull hn)
      have hcons : (own :: G.others own).countP (fun o => s.parameter o = some q) =
          (G.others own).countP (fun o => s.parameter o = some q) + [own].countP (fun o => s.parameter o = some q) := by
        simp [List.countP_cons]
      unfold occurrences
      subst hT
      by_cases ha : accepted <;> by_cases hn : G.verifiedWith own = none <;>
        simp only [ha, hn, if_true, if_false, hcons, List.length_cons, List.length_nil] at hcount ⊢ <;>
        grind

/-- `NULL` is refused, or followed. -/
theorem setsOrKeeps_none (hg : G.isGraph = true) (hi : G.graphParameters[index]? = some own) :
    G.SetsOrKeeps C s index none ↔ G.SetFits C s own none := by
  have hlast : ∀ (T : List Place) (f : Int × NodeParameters R), T ≠ [] →
      (T.foldl (fun x o => (vxSuccess, G.ownNodeSetParameter x.2 o none)) f).1 = vxSuccess := by
    intro T
    induction T with
    | nil => exact fun _ h => absurd rfl h
    | cons t T ih =>
      intro f _
      rw [List.foldl_cons]
      by_cases hT : T = []
      · rw [hT]
        rfl
      · exact ih _ hT
  unfold SetsOrKeeps vxSetGraphParameterByIndex SetFits
  rw [hg, hi]
  simp only [Bool.true_eq_false, if_false, vxSetParameterByIndex]
  by_cases hT : G.others own = []
  · rw [hT]
    by_cases ho : (G.signature own).optional = true
    · simp [ho]
    · simp [ho, vxErrorInvalidReference_ne]
  · simp [hlast _ _ hT, hT]

/-- A reference is set or refused. -/
theorem setsOrKeeps_some (hg : G.isGraph = true) (hi : G.graphParameters[index]? = some own)
    (hc : ∀ q, (own :: G.others own).countP (fun o => s.parameter o = some q) ≤ s.internalCount q)
    (hd : s.dataId own 0 = G.objDescId (s.parameter own)) :
    G.SetsOrKeeps C s index (some r) ↔ G.SetFits C s own (some r) := by
  unfold SetsOrKeeps SetFits
  rw [call_some hg hi]
  by_cases hrefused : G.checkParameter C own r ≠ vxSuccess ∧ G.others own = []
  · rw [if_pos hrefused]
    refine iff_of_true ⟨_, s, rfl, ?_⟩ (.inl hrefused)
    rw [if_neg hrefused.1]
    exact ⟨rfl, rfl⟩
  · rw [if_neg hrefused]
    have hnot : ¬ (¬ G.checkParameter C own r = vxSuccess ∧ G.others own = []) := hrefused
    simp only [hnot, false_or, Option.some.injEq, Prod.mk.injEq, and_assoc]
    generalize hT : (if G.checkParameter C own r = vxSuccess then own :: G.others own else G.others own) = T
    have hsub : T.Sublist (own :: G.others own) := by
      rw [← hT]
      split
      · exact List.Sublist.refl _
      · exact List.sublist_cons_self own _
    have hcT : ∀ q, T.countP (fun o => s.parameter o = some q) ≤ s.internalCount q := fun q =>
      Nat.le_trans hsub.countP_le (hc q)
    by_cases ha : C.allocates own r = true
    · have hrep := replaced_iff (r := r) hT.symm hcT hd
      simp only [ha, if_true, exists_eq_left', exists_and_left, hi, Option.mem_some_iff, hrep]
    · have hsame := setAll_same (G := G) (r := r) (others_nodup.sublist hsub) hcT
      have hall : (∀ o ∈ T, s.parameter o = some r) ↔ (G.checkParameter C own r = vxSuccess → s.parameter own = some r) ∧
          ∀ o ∈ G.others own, s.parameter o = some r := by
        rw [← hT]
        split
        · simp [*]
        · simp [*]
      simp only [ha, Bool.false_eq_true, if_false, vxErrorNoMemory_ne, exists_and_left, exists_eq_left', hsame, hall]

/-- **A graph parameter is set cleanly**, or refused without a trace, in the calls that fit, and in no others. -/
theorem setsOrKeeps_iff (s : CountedParameters G) :
    G.SetsOrKeeps C s.toNodeParameters index v ↔
      (G.isGraph = true → ∀ own ∈ G.graphParameters[index]?, G.SetFits C s.toNodeParameters own v) := by
  by_cases hg : G.isGraph = true
  · cases hi : G.graphParameters[index]? with
    | none =>
      simp [SetsOrKeeps, vxSetGraphParameterByIndex, hg, hi, vxErrorInvalidValue_ne]
    | some own =>
      have hown : own ∈ G.places := G.graphParameters_mem own (List.mem_of_getElem? hi)
      have hsub : (own :: G.others own).Subperm G.places :=
        List.subperm_of_subset others_nodup (fun o ho => by
          rcases List.mem_cons.1 ho with rfl | h
          · exact hown
          · exact (List.mem_filter.1 h).1)
      have hc : ∀ q, (own :: G.others own).countP (fun o => s.parameter o = some q) ≤ s.internalCount q := fun q =>
        Nat.le_trans (hsub.countP_le _) (s.counted q)
      simp only [hg, Option.mem_some_iff, forall_eq', forall_const]
      cases v with
      | none => exact setsOrKeeps_none hg hi
      | some r => exact setsOrKeeps_some hg hi hc (s.described own hown)
  · simp [SetsOrKeeps, vxSetGraphParameterByIndex, hg, vxErrorInvalidReference_ne]

end LinkedGraph

end

/-- Two nodes of two parameters that take images, in `n + 1` pipeline instances; the first parameter of both has reference 1, and
graph parameter 0 is that of node 0.  References 1 and 2 are images and 3 is a tensor. -/
def twoReaders (n : Nat) : LinkedGraph Nat where
  isGraph := true
  places := [(0, 0), (0, 1), (1, 0), (1, 1)]
  signature := fun _ => ⟨some 0x80F, false, false⟩
  pipelineDepth := fun _ => n + 1
  value := fun r => ⟨if r = 3 then 0x815 else 0x80F, none, false, r + 100⟩
  graphParameters := [(0, 0)]
  verifiedWith := fun o => if o.2 = 0 then some 1 else some (10 + o.1)
  places_nodup := by decide
  graphParameters_mem := by decide
  linked := by decide
  pipelineDepth_pos := fun _ => Nat.succ_pos n

/-- The references of these nodes as they are after the verification. -/
def readersState (n : Nat) : (twoReaders n).CountedParameters where
  parameter := fun o => if o.2 = 0 then some 1 else some (10 + o.1)
  dataId := fun o _ => some (if o.2 = 0 then 101 else 110 + o.1)
  internalCount := fun r => if r = 1 then 2 else 1
  counted := fun r => by
    show [((0 : Nat), (0 : Nat)), (0, 1), (1, 0), (1, 1)].countP _ ≤ _
    simp only [List.countP_cons, List.countP_nil]
    by_cases h1 : r = 1
    · simp [h1]
    · by_cases h2 : r = 10
      · simp [h2]
      · simp [Ne.symm h1, Ne.symm h2, h1]
        split <;> decide
  described := fun o ho => by
    have ho : o ∈ [((0 : Nat), (0 : Nat)), (0, 1), (1, 0), (1, 1)] := ho
    simp only [List.mem_cons, List.not_mem_nil, or_false] at ho
    rcases ho with rfl | rfl | rfl | rfl <;> rfl

/-- Associations and allocations succeed. -/
def allCalls : ParameterCalls Nat := ⟨fun _ _ => true, fun _ _ => true⟩

/-- A tensor is refused for the parameter's own node parameter and set at the other node, with success; and of a graph that is
pipelined only the first descriptor of a node gets the id of the new image. -/
theorem graph_parameter_half_set :
    ((twoReaders 0).vxSetGraphParameterByIndex allCalls (readersState 0).toNodeParameters 0 (some 3)).map
        (fun x => (x.1, x.2.parameter (0, 0), x.2.parameter (1, 0))) = some (vxSuccess, some 1, some 3) ∧
    ¬ (twoReaders 0).SetsOrKeeps allCalls (readersState 0).toNodeParameters 0 (some 3) ∧
    ((twoReaders 1).vxSetGraphParameterByIndex allCalls (readersState 1).toNodeParameters 0 (some 2)).map
        (fun x => (x.1, x.2.dataId (0, 0) 0, x.2.dataId (0, 0) 1)) = some (vxSuccess, some 102, some 101) ∧
    ¬ (twoReaders 1).SetsOrKeeps allCalls (readersState 1).toNodeParameters 0 (some 2) := by
  have hfirst : ((twoReaders 0).vxSetGraphParameterByIndex allCalls (readersState 0).toNodeParameters 0 (some 3)).map
      (fun x => (x.1, x.2.parameter (0, 0), x.2.parameter (1, 0))) = some (vxSuccess, some 1, some 3) := by decide
  have hsecond : ((twoReaders 1).vxSetGraphParameterByIndex allCalls (readersState 1).toNodeParameters 0 (some 2)).map
      (fun x => (x.1, x.2.dataId (0, 0) 0, x.2.dataId (0, 0) 1)) = some (vxSuccess, some 102, some 101) := by decide
  refine ⟨hfirst, ?_, hsecond, ?_⟩
  · rintro ⟨status, s', h, hs⟩
    rw [h] at hfirst
    obtain ⟨rfl, hp, -⟩ := by simpa only [Option.map_some, Option.some.injEq, Prod.mk.injEq] using hfirst
    rw [if_pos rfl] at hs
    obtain ⟨own, hown, hin, -⟩ := hs
    cases hown
    cases hp.symm.trans (hin (0, 0) List.mem_cons_self).1
  · rintro ⟨status, s', h, hs⟩
    rw [h] at hsecond
    obtain ⟨rfl, -, hp⟩ := by simpa only [Option.map_some, Option.some.injEq, Prod.mk.injEq] using hsecond
    rw [if_pos rfl] at hs
    obtain ⟨own, hown, hin, -⟩ := hs
    cases hown
    exact absurd (hp.symm.trans ((hin (0, 0) List.mem_cons_self).2 1 (by decide))) (by decide)

end Tiovx
