import Tiovx.ElementKernels
/-!
# ContainerKernels — the copy, swap and move kernels of object arrays and pyramids (`vx_objarray.c`, `vx_pyramid.c`)

The kernel of a container compares descriptions where it only validates: those of two object arrays and of the elements they have,
and those of two pyramids.  Else it dispatches to the kernels of the elements, one after the other, until one fails.
-/
namespace Tiovx

/-- An object array without its elements. -/
structure ObjectArrayBase where
  ref : Nat
  itemType : ElementType
  isFromList : Bool := false
  isVirtual : Bool := false
  supplementary : Option ElementBuffer := none

/-- A pyramid without its levels; the scale is told by its bits. -/
structure PyramidBase where
  ref : Nat
  width : UInt32
  height : UInt32
  format : DfImage
  scale : UInt32
  isVirtual : Bool := false
  supplementary : Option ElementBuffer := none

/-- A level of a pyramid. -/
structure PyramidLevel where
  ref : Nat
  image : ElementImage
  supplementary : Option ElementBuffer := none

/-- A data object with the objects in it: `ref` of an object array and `img` of a pyramid, which may be `NULL`. -/
inductive VxObject
  | null
  | element (x : Element)
  | objectArray (A : ObjectArrayBase) (items : List VxObject)
  | pyramid (P : PyramidBase) (levels : List (Option PyramidLevel))

/-- A loop over the elements of two containers that dispatches to each pair in turn until one fails; `outs` is what the kernels
of the pairs do. -/
def dispatch {β : Type} : List β → List β → List (Outcome β) → Outcome (List β)
  | [], ys, _ => ⟨vxSuccess, [], ys, []⟩
  | _ :: xs, _ :: ys, o :: outs =>
    if o.status = vxSuccess then
      let r := dispatch xs ys outs
      ⟨r.status, o.input :: r.input, o.output :: r.output, o.moves ++ r.moves⟩
    else ⟨o.status, o.input :: xs, o.output :: ys, o.moves⟩
  -- the output has no such element, and a null pointer is followed
  | xs, ys, _ => ⟨vxFailure, xs, ys, []⟩

/-- What follows the kernel of an element: that of the supplementary data `s` and `t`, when it succeeds. -/
def withSupplementary {β : Type} (k : CopyMoveKernel) (s t : Option ElementBuffer) (set : β → Option ElementBuffer → β)
    (o : Outcome β) : Outcome β :=
  if o.status = vxSuccess then
    let r := processSupplementary k s t
    ⟨r.status, set o.input r.input, set o.output r.output, o.moves ++ r.moves⟩
  else o

section Translated

variable (host2Shared : UInt64 → UInt64)

/-- What `pyramidKernelCallback` does with a level. -/
def levelOutcome (k : CopyMoveKernel) : Option PyramidLevel → Option PyramidLevel → Outcome (Option PyramidLevel)
  | some L, some M =>
    let o := L.image.process host2Shared k M.image
    withSupplementary k L.supplementary M.supplementary (fun N s => N.map (fun N => { N with supplementary := s }))
      ⟨o.status, some { L with image := o.input }, some { M with image := o.output }, o.moves⟩
  | l, m => ⟨vxFailure, l, m, []⟩

namespace VxObject

def hasKernelCallback : VxObject → Bool
  | .null => false
  | .element x => x.desc.hasKernelCallback
  | _ => true

def supplementary : VxObject → Option ElementBuffer
  | .null => none
  | .element x => x.supplementary
  | .objectArray A _ => A.supplementary
  | .pyramid P _ => P.supplementary

def setSupplementary (s : Option ElementBuffer) : VxObject → VxObject
  | .null => .null
  | .element x => .element { x with supplementary := s }
  | .objectArray A items => .objectArray { A with supplementary := s } items
  | .pyramid P levels => .pyramid { P with supplementary := s } levels

/-- What `objectArrayKernelCallback` does with an element, where `o` is what the kernel of the element does. -/
def elementStep (k : CopyMoveKernel) (x y : VxObject) (o : Outcome VxObject) : Outcome VxObject :=
  if x.hasKernelCallback then withSupplementary k x.supplementary y.supplementary (fun x s => x.setSupplementary s) o
  else ⟨vxErrorNotSupported, x, y, []⟩

mutual

/-- The `kernel_callback` of a pair without `validate_only`. -/
def kernelCallback (k : CopyMoveKernel) : VxObject → VxObject → Outcome VxObject
  | .element x, .element y =>
    let o := x.desc.process host2Shared k y.desc
    ⟨o.status, .element { x with desc := o.input }, .element { y with desc := o.output }, o.moves⟩
  | .objectArray A xs, .objectArray B ys =>
    let r := dispatch xs ys (elementOutcomes k xs ys)
    ⟨r.status, .objectArray A r.input, .objectArray B r.output, r.moves⟩
  | .pyramid P ls, .pyramid Q ms =>
    let r := dispatch ls ms (List.zipWith (levelOutcome host2Shared k) ls ms)
    ⟨r.status, .pyramid P r.input, .pyramid Q r.output, r.moves⟩
  -- a null pointer is followed, as the object is none or is cast to another type
  | x, y => ⟨vxFailure, x, y, []⟩

/-- What the kernels of the elements of two object arrays do. -/
def elementOutcomes (k : CopyMoveKernel) : List VxObject → List VxObject → List (Outcome VxObject)
  | x :: xs, y :: ys => elementStep k x y (kernelCallback k x y) :: elementOutcomes k xs ys
  | _, _ => []

end

end VxObject

end Translated

namespace VxObject

/-- `tivxIsReferenceMetaFormatEqual`. -/
def isMetaFormatEqual : VxObject → VxObject → Bool
  | .element x, .element y => x.desc.isMetaFormatEqual y.desc
  | .objectArray A xs, .objectArray B ys =>
    A.itemType = B.itemType && xs.length = ys.length && A.isFromList = B.isFromList
  | .pyramid P ls, .pyramid Q ms =>
    P.width = Q.width && P.height = Q.height && P.format = Q.format && ls.length = ms.length && P.scale = Q.scale
  | _, _ => false

/-- The loop of `objectArrayKernelCallback` over the elements with `validate_only`. -/
def compareItems : List VxObject → List VxObject → Int
  | [], _ => vxSuccess
  | x :: xs, y :: ys => if x.isMetaFormatEqual y then compareItems xs ys else vxErrorNotCompatible
  | _ :: _, [] => vxErrorNotCompatible

end VxObject

/-- `isPyramidCopyable`: the status, and the output it leaves. -/
def isPyramidCopyable (P Q : PyramidBase) (inLevels outLevels : Nat) : Int × PyramidBase :=
  if P.ref = Q.ref then (vxErrorNotCompatible, Q)
  else if inLevels ≠ outLevels ∨ P.scale ≠ Q.scale then (vxErrorNotCompatible, Q)
  else if P.width ≠ Q.width ∧ (Q.width ≠ 0 ∨ Q.isVirtual = false) then (vxErrorNotCompatible, Q)
  else if P.height ≠ Q.height ∧ (Q.height ≠ 0 ∨ Q.isVirtual = false) then (vxErrorNotCompatible, Q)
  else if P.format ≠ Q.format ∧ (Q.format ≠ .virt ∨ Q.isVirtual = false) then (vxErrorNotCompatible, Q)
  else (vxSuccess, { Q with format := P.format, height := P.height, width := P.width })

namespace VxObject

/-- The `kernel_callback` of a pair with `validate_only`: the status, and the output it leaves. -/
def validateOnly (k : CopyMoveKernel) : VxObject → VxObject → Int × VxObject
  | .element x, .element y => ((x.validate k y).1, .element (x.validate k y).2)
  | .objectArray A xs, .objectArray B ys =>
    (if isMetaFormatEqual (.objectArray A xs) (.objectArray B ys) then compareItems xs ys else vxErrorNotCompatible,
      .objectArray B ys)
  | .pyramid P ls, .pyramid Q ms =>
    let r := isPyramidCopyable P Q ls.length ms.length
    (r.1, .pyramid r.2 ms)
  | _, y => (vxErrorNotCompatible, y)

end VxObject

/-- Two object arrays or two pyramids. -/
inductive ContainerPair
  | objectArrays (A B : ObjectArrayBase) (xs ys : List VxObject)
  | pyramids (P Q : PyramidBase) (ls ms : List (Option PyramidLevel))

namespace ContainerPair

def input : ContainerPair → VxObject
  | objectArrays A _ xs _ => .objectArray A xs
  | pyramids P _ ls _ => .pyramid P ls

def output : ContainerPair → VxObject
  | objectArrays _ B _ ys => .objectArray B ys
  | pyramids _ Q _ ms => .pyramid Q ms

def isVirtualOutput : ContainerPair → Bool
  | objectArrays _ B _ _ => B.isVirtual
  | pyramids _ Q _ _ => Q.isVirtual

/-- At each index there are both elements, and the kernel of the element type accepts them. -/
def ElementsAccepted (k : CopyMoveKernel) : ContainerPair → Prop
  | objectArrays _ _ xs ys =>
    List.Forall₂ (fun x y => x ≠ .null ∧ y ≠ .null ∧ (x.validateOnly k y).1 = vxSuccess) xs ys
  | pyramids _ _ ls ms =>
    List.Forall₂ (fun l m => ∃ L M, l = some L ∧ m = some M ∧ L.image.validate k M.image = vxSuccess) ls ms

section Translated

variable (host2Shared : UInt64 → UInt64)

/-- The kernel leaves what the kernels of all pairs of elements leave, each of which succeeds; `y` is the output when the kernel
begins. -/
def ActsOnAll (k : CopyMoveKernel) (y : VxObject) : ContainerPair → Prop
  | objectArrays A B xs ys =>
    let outs := VxObject.elementOutcomes host2Shared k xs ys
    (VxObject.objectArray A xs).kernelCallback host2Shared k y =
        ⟨vxSuccess, .objectArray A (outs.map (·.input)), .objectArray B (outs.map (·.output)), outs.flatMap (·.moves)⟩ ∧
      ∀ o ∈ outs, o.status = vxSuccess
  | pyramids P Q ls ms =>
    let outs := List.zipWith (levelOutcome host2Shared k) ls ms
    (VxObject.pyramid P ls).kernelCallback host2Shared k y =
        ⟨vxSuccess, .pyramid P (outs.map (·.input)),
          .pyramid (isPyramidCopyable P Q ls.length ms.length).2 (outs.map (·.output)), outs.flatMap (·.moves)⟩ ∧
      ∀ o ∈ outs, o.status = vxSuccess

/-- Containers that the kernel accepts have elements that the kernels of the elements accept, the check changes no output that is
not virtual, and the kernel then acts on all elements. -/
def Safe (k : CopyMoveKernel) (p : ContainerPair) : Prop :=
  (p.input.validateOnly k p.output).1 = vxSuccess → p.ElementsAccepted k ∧
    (p.isVirtualOutput = false → (p.input.validateOnly k p.output).2 = p.output) ∧
    p.ActsOnAll host2Shared k (p.input.validateOnly k p.output).2

end Translated

end ContainerPair

/-! ### When the kernels of the elements succeed -/

/-- Each of the first objects has one at its place among the second ones that is related to it. -/
def Covers {β : Type} (R : β → β → Prop) : List β → List β → Prop
  | [], _ => True
  | x :: xs, y :: ys => R x y ∧ Covers R xs ys
  | _ :: _, [] => False

/-- A level is there on both sides and can be processed. -/
def LevelProcessFits (k : CopyMoveKernel) : Option PyramidLevel → Option PyramidLevel → Prop
  | some L, some M => L.image.ProcessFits k M.image ∧ SupplementaryFits k L.supplementary M.supplementary
  | _, _ => False

namespace VxObject

mutual

/-- The pair can be processed: objects of the same kind, and their elements in turn. -/
def ProcessFits (k : CopyMoveKernel) : VxObject → VxObject → Prop
  | .element x, .element y => x.desc.ProcessFits k y.desc
  | .objectArray _ xs, .objectArray _ ys => ItemsFit k xs ys
  | .pyramid _ ls, .pyramid _ ms => Covers (LevelProcessFits k) ls ms
  | _, _ => False

/-- Each element has a kernel and can be processed with the one at its place, and so can the supplementary data. -/
def ItemsFit (k : CopyMoveKernel) : List VxObject → List VxObject → Prop
  | [], _ => True
  | x :: xs, y :: ys =>
    (x.hasKernelCallback = true ∧ ProcessFits k x y ∧ SupplementaryFits k x.supplementary y.supplementary) ∧ ItemsFit k xs ys
  | _ :: _, [] => False

end

/-- What the kernel of the type asks of a pair with the same metadata. -/
def KernelFits (k : CopyMoveKernel) : VxObject → VxObject → Prop
  | .element x, .element y => x.KernelFits k y
  | .objectArray _ xs, .objectArray _ ys => List.Forall₂ (fun x y => x.isMetaFormatEqual y = true) xs ys
  | .pyramid P _, .pyramid Q _ => P.ref ≠ Q.ref
  | _, _ => False

end VxObject

/-- Two pyramids that the kernel accepts, which compares no levels. -/
structure PyramidsMatch (P Q : PyramidBase) (inLevels outLevels : Nat) : Prop where
  refs : P.ref ≠ Q.ref
  levels : inLevels = outLevels
  scale : P.scale = Q.scale
  width : P.width = Q.width ∨ (Q.width = 0 ∧ Q.isVirtual = true)
  height : P.height = Q.height ∨ (Q.height = 0 ∧ Q.isVirtual = true)
  format : P.format = Q.format ∨ (Q.format = .virt ∧ Q.isVirtual = true)

/-- The levels are there and have the same sizes, the kernel of images accepts them and they can be processed. -/
def LevelFits (k : CopyMoveKernel) (l m : Option PyramidLevel) : Prop :=
  ∃ L M, l = some L ∧ m = some M ∧ (L.image.SizesFit M.image ∧ L.image.KernelFits k M.image) ∧
    L.image.ProcessFits k M.image ∧ SupplementaryFits k L.supplementary M.supplementary

/-- Where the descriptions that are compared are the same, each pair of elements fits the kernel of its type and can be
processed. -/
def ContainerPair.Fits (k : CopyMoveKernel) : ContainerPair → Prop
  | objectArrays A B xs ys => VxObject.isMetaFormatEqual (.objectArray A xs) (.objectArray B ys) = true →
      List.Forall₂ (fun x y => x.isMetaFormatEqual y = true) xs ys →
      List.Forall₂ (fun x y => x.KernelFits k y ∧ x.hasKernelCallback = true ∧ x.ProcessFits k y ∧
        SupplementaryFits k x.supplementary y.supplementary) xs ys
  | pyramids P Q ls ms => PyramidsMatch P Q ls.length ms.length → List.Forall₂ (LevelFits k) ls ms

section Dispatch

variable {β : Type} {x y : β} {xs ys : List β} {o : Outcome β} {outs : List (Outcome β)}

theorem dispatch_cons_success : (dispatch (x :: xs) (y :: ys) (o :: outs)).status = vxSuccess ↔
    o.status = vxSuccess ∧ (dispatch xs ys outs).status = vxSuccess := by
  rw [dispatch]
  split
  · rename_i h
    simp only [h, true_and]
  · rename_i h
    simp only [h, false_and]

/-- **A loop that succeeds** leaves what the kernels of all pairs leave. -/
theorem dispatch_eq : ∀ {xs ys : List β} {outs : List (Outcome β)}, xs.length = ys.length → outs.length = xs.length →
    (dispatch xs ys outs).status = vxSuccess →
    dispatch xs ys outs = ⟨vxSuccess, outs.map (·.input), outs.map (·.output), outs.flatMap (·.moves)⟩ ∧
      ∀ o ∈ outs, o.status = vxSuccess
  | [], [], [], _, _, _ => ⟨rfl, fun _ h => absurd h List.not_mem_nil⟩
  | x :: xs, y :: ys, o :: outs, hl, ho, h => by
    obtain ⟨h1, h2⟩ := dispatch_cons_success.1 h
    obtain ⟨hr, hall⟩ := dispatch_eq (Nat.succ.inj hl) (Nat.succ.inj ho) h2
    refine ⟨?_, List.forall_mem_cons.2 ⟨h1, hall⟩⟩
    rw [dispatch, if_pos h1, hr]
    rfl

theorem withSupplementary_success {k : CopyMoveKernel} {s t : Option ElementBuffer} {set : β → Option ElementBuffer → β} :
    (withSupplementary k s t set o).status = vxSuccess ↔ o.status = vxSuccess ∧ SupplementaryFits k s t := by
  rw [← processSupplementary_success, withSupplementary]
  split
  · rename_i h
    simp only [h, true_and]
  · rename_i h
    simp only [h, false_and]

end Dispatch

section Translated

variable {host2Shared : UInt64 → UInt64} {k : CopyMoveKernel}

theorem levelOutcome_success {l m : Option PyramidLevel} :
    (levelOutcome host2Shared k l m).status = vxSuccess ↔ LevelProcessFits k l m := by
  cases l with
  | none => exact ⟨fun h => absurd h vxFailure_ne, fun h => h.elim⟩
  | some L =>
    cases m with
    | none => exact ⟨fun h => absurd h vxFailure_ne, fun h => h.elim⟩
    | some M => exact withSupplementary_success.trans (and_congr_left fun _ => ElementImage.process_success)

theorem levels_success : ∀ {ls ms : List (Option PyramidLevel)},
    (dispatch ls ms (List.zipWith (levelOutcome host2Shared k) ls ms)).status = vxSuccess ↔ Covers (LevelProcessFits k) ls ms
  | [], _ => ⟨fun _ => trivial, fun _ => by rw [dispatch]⟩
  | _ :: _, [] => ⟨fun h => absurd h vxFailure_ne, fun h => h.elim⟩
  | l :: ls, m :: ms => by
    rw [List.zipWith_cons_cons, dispatch_cons_success, levelOutcome_success, levels_success, Covers]

namespace VxObject

theorem elementStep_success {x y : VxObject} {o : Outcome VxObject} : (elementStep k x y o).status = vxSuccess ↔
    x.hasKernelCallback = true ∧ o.status = vxSuccess ∧ SupplementaryFits k x.supplementary y.supplementary := by
  unfold elementStep
  split
  · rename_i h
    rw [withSupplementary_success, and_iff_right h]
  · rename_i h
    exact ⟨fun h' => absurd h' vxErrorNotSupported_ne, fun h' => absurd h'.1 h⟩

mutual

theorem kernelCallback_success : ∀ {x y : VxObject},
    (x.kernelCallback host2Shared k y).status = vxSuccess ↔ x.ProcessFits k y
  | .element x, y => by
    cases y with
    | element y =>
      rw [kernelCallback, ProcessFits]
      exact ElementDesc.process_success
    | _ => exact ⟨fun h => absurd h vxFailure_ne, fun h => h.elim⟩
  | .objectArray A xs, y => by
    cases y with
    | objectArray B ys =>
      rw [kernelCallback, ProcessFits]
      exact items_success
    | _ => exact ⟨fun h => absurd h vxFailure_ne, fun h => h.elim⟩
  | .pyramid P ls, y => by
    cases y with
    | pyramid Q ms =>
      rw [kernelCallback, ProcessFits]
      exact levels_success
    | _ => exact ⟨fun h => absurd h vxFailure_ne, fun h => h.elim⟩
  | .null, y => by
    cases y with
    | _ => exact ⟨fun h => absurd h vxFailure_ne, fun h => h.elim⟩

theorem items_success : ∀ {xs ys : List VxObject},
    (dispatch xs ys (elementOutcomes host2Shared k xs ys)).status = vxSuccess ↔ ItemsFit k xs ys
  | [], _ => ⟨fun _ => trivial, fun _ => by rw [dispatch]⟩
  | _ :: _, [] => ⟨fun h => absurd h vxFailure_ne, fun h => h.elim⟩
  | x :: xs, y :: ys => by
    rw [elementOutcomes, dispatch_cons_success, elementStep_success, kernelCallback_success, items_success, ItemsFit]

end

theorem length_elementOutcomes : ∀ {xs ys : List VxObject}, xs.length = ys.length →
    (elementOutcomes host2Shared k xs ys).length = xs.length
  | [], _, _ => rfl
  | x :: xs, y :: ys, h => by
    rw [elementOutcomes, List.length_cons, length_elementOutcomes (Nat.succ.inj h), List.length_cons]

theorem compareItems_success : ∀ {xs ys : List VxObject}, xs.length = ys.length →
    (compareItems xs ys = vxSuccess ↔ List.Forall₂ (fun x y => x.isMetaFormatEqual y = true) xs ys)
  | [], [], _ => ⟨fun _ => .nil, fun _ => rfl⟩
  | x :: xs, y :: ys, h => by
    rw [compareItems, List.forall₂_cons, ← compareItems_success (Nat.succ.inj h)]
    split
    · rename_i hxy
      rw [and_iff_right hxy]
    · rename_i hxy
      exact ⟨fun h => absurd h vxErrorNotCompatible_ne, fun h => absurd h.1 hxy⟩

theorem not_null_of_isMetaFormatEqual {x y : VxObject} (h : x.isMetaFormatEqual y = true) : x ≠ .null ∧ y ≠ .null := by
  constructor
  · rintro rfl
    exact Bool.false_ne_true h
  · rintro rfl
    cases x <;> exact Bool.false_ne_true h

end VxObject

theorem isPyramidCopyable_success {P Q : PyramidBase} {m n : Nat} :
    (isPyramidCopyable P Q m n).1 = vxSuccess ↔ PyramidsMatch P Q m n := by
  unfold isPyramidCopyable
  constructor
  · intro h
    split at h
    · exact absurd h vxErrorNotCompatible_ne
    split at h
    · exact absurd h vxErrorNotCompatible_ne
    split at h
    · exact absurd h vxErrorNotCompatible_ne
    split at h
    · exact absurd h vxErrorNotCompatible_ne
    split at h
    · exact absurd h vxErrorNotCompatible_ne
    rename_i hr hl hw hh hf
    exact ⟨hr, by grind, by grind, by grind, by grind, by grind⟩
  · rintro ⟨hr, hl, hs, hw, hh, hf⟩
    rw [if_neg hr, if_neg (by grind), if_neg (by grind), if_neg (by grind), if_neg (by grind)]

theorem isPyramidCopyable_output {P Q : PyramidBase} {m n : Nat} (hv : Q.isVirtual = false) :
    (isPyramidCopyable P Q m n).2 = Q := by
  unfold isPyramidCopyable
  split
  · rfl
  split
  · rfl
  split
  · rfl
  split
  · rfl
  split
  · rfl
  rename_i hw hh hf
  have hw : P.width = Q.width := by grind
  have hh : P.height = Q.height := by grind
  have hf : P.format = Q.format := by grind
  rw [hw, hh, hf]

theorem covers_iff_forall₂ {β : Type} {R : β → β → Prop} : ∀ {xs ys : List β}, xs.length = ys.length →
    (Covers R xs ys ↔ List.Forall₂ R xs ys)
  | [], [], _ => ⟨fun _ => .nil, fun _ => trivial⟩
  | x :: xs, y :: ys, h => by rw [Covers, List.forall₂_cons, covers_iff_forall₂ (Nat.succ.inj h)]

namespace VxObject

theorem itemsFit_iff : ∀ {xs ys : List VxObject}, xs.length = ys.length → (ItemsFit k xs ys ↔
    List.Forall₂ (fun x y => x.hasKernelCallback = true ∧ x.ProcessFits k y ∧
      SupplementaryFits k x.supplementary y.supplementary) xs ys)
  | [], [], _ => ⟨fun _ => .nil, fun _ => trivial⟩
  | x :: xs, y :: ys, h => by rw [ItemsFit, List.forall₂_cons, itemsFit_iff (Nat.succ.inj h)]

/-- The kernel of a type accepts objects with the same metadata exactly where they fit it. -/
theorem validateOnly_success {x y : VxObject} (h : x.isMetaFormatEqual y = true) :
    (x.validateOnly k y).1 = vxSuccess ↔ x.KernelFits k y := by
  cases x with
  | null => exact absurd h Bool.false_ne_true
  | element x =>
    cases y with
    | element y => exact Element.validate_success h
    | _ => exact absurd h Bool.false_ne_true
  | objectArray A xs =>
    cases y with
    | objectArray B ys =>
      rw [validateOnly, KernelFits, if_pos h]
      simp only [isMetaFormatEqual, Bool.and_eq_true, decide_eq_true_eq] at h
      exact compareItems_success h.1.2
    | _ => exact absurd h Bool.false_ne_true
  | pyramid P ls =>
    cases y with
    | pyramid Q ms =>
      rw [validateOnly, KernelFits]
      simp only [isMetaFormatEqual, Bool.and_eq_true, decide_eq_true_eq] at h
      obtain ⟨⟨⟨⟨hw, hh⟩, hf⟩, hl⟩, hs⟩ := h
      exact isPyramidCopyable_success.trans ⟨(·.refs), fun hr => ⟨hr, hl, hs, .inl hw, .inl hh, .inl hf⟩⟩
    | _ => exact absurd h Bool.false_ne_true

end VxObject

namespace ContainerPair

theorem arrays_accepted {A B : ObjectArrayBase} {xs ys : List VxObject} :
    ((VxObject.objectArray A xs).validateOnly k (.objectArray B ys)).1 = vxSuccess ↔
      VxObject.isMetaFormatEqual (.objectArray A xs) (.objectArray B ys) = true ∧
        List.Forall₂ (fun x y => x.isMetaFormatEqual y = true) xs ys := by
  rw [VxObject.validateOnly]
  by_cases h : VxObject.isMetaFormatEqual (.objectArray A xs) (.objectArray B ys) = true
  · rw [if_pos h, and_iff_right h]
    simp only [VxObject.isMetaFormatEqual, Bool.and_eq_true, decide_eq_true_eq] at h
    exact VxObject.compareItems_success h.1.2
  · rw [if_neg h]
    exact ⟨fun h' => absurd h' vxErrorNotCompatible_ne, fun h' => absurd h'.1 h⟩

/-- The kernel of an object array acts on all elements exactly where each pair can be processed. -/
theorem arrays_actsOnAll {A B : ObjectArrayBase} {xs ys : List VxObject} (hl : xs.length = ys.length) :
    (objectArrays A B xs ys).ActsOnAll host2Shared k (.objectArray B ys) ↔
      List.Forall₂ (fun x y => x.hasKernelCallback = true ∧ x.ProcessFits k y ∧
        SupplementaryFits k x.supplementary y.supplementary) xs ys := by
  have hitems : (dispatch xs ys (VxObject.elementOutcomes host2Shared k xs ys)).status = vxSuccess ↔ VxObject.ItemsFit k xs ys :=
    VxObject.items_success
  rw [← VxObject.itemsFit_iff hl, ← hitems, ActsOnAll, VxObject.kernelCallback]
  constructor
  · rintro ⟨h, -⟩
    exact congrArg Outcome.status h
  · intro h
    obtain ⟨hr, hall⟩ := dispatch_eq hl (VxObject.length_elementOutcomes hl) h
    exact ⟨by rw [hr], hall⟩

theorem arrays_iff {A B : ObjectArrayBase} {xs ys : List VxObject} :
    (objectArrays A B xs ys).Safe host2Shared k ↔ (objectArrays A B xs ys).Fits k := by
  constructor
  · intro h hmeta hitems
    obtain ⟨hacc, -, hact⟩ := h (arrays_accepted.2 ⟨hmeta, hitems⟩)
    -- what the kernels of the elements accept is what fits them, as the metadata are the same
    have hkernels : List.Forall₂ (fun x y => x.KernelFits k y) xs ys :=
      List.Forall₂.mp (fun x y hxy hm => (VxObject.validateOnly_success hm).1 hxy.2.2) hacc hitems
    exact hkernels.mp (fun x y hk hp => ⟨hk, hp⟩) ((arrays_actsOnAll hitems.length_eq).1 hact)
  · intro h hacc
    obtain ⟨hmeta, hitems⟩ := arrays_accepted.1 hacc
    have hfit := h hmeta hitems
    refine ⟨?_, fun _ => rfl, (arrays_actsOnAll hitems.length_eq).2 (hfit.imp (fun _ _ h => h.2))⟩
    refine hitems.mp (fun x y hm hf => ?_) hfit
    obtain ⟨hx, hy⟩ := VxObject.not_null_of_isMetaFormatEqual hm
    exact ⟨hx, hy, (VxObject.validateOnly_success hm).2 hf.1⟩

theorem pyramids_actsOnAll {P Q : PyramidBase} {ls ms : List (Option PyramidLevel)} (hl : ls.length = ms.length) :
    (pyramids P Q ls ms).ActsOnAll host2Shared k (.pyramid (isPyramidCopyable P Q ls.length ms.length).2 ms) ↔
      List.Forall₂ (LevelProcessFits k) ls ms := by
  have hlevels : (dispatch ls ms (List.zipWith (levelOutcome host2Shared k) ls ms)).status = vxSuccess ↔
      Covers (LevelProcessFits k) ls ms := levels_success
  rw [← covers_iff_forall₂ hl, ← hlevels, ActsOnAll, VxObject.kernelCallback]
  constructor
  · rintro ⟨h, -⟩
    exact congrArg Outcome.status h
  · intro h
    obtain ⟨hr, hall⟩ := dispatch_eq hl (by rw [List.length_zipWith, ← hl, min_self]) h
    exact ⟨by rw [hr], hall⟩

theorem pyramids_iff {P Q : PyramidBase} {ls ms : List (Option PyramidLevel)} :
    (pyramids P Q ls ms).Safe host2Shared k ↔ (pyramids P Q ls ms).Fits k := by
  constructor
  · intro h hmatch
    obtain ⟨hacc, -, hact⟩ := h (isPyramidCopyable_success.2 hmatch)
    refine List.Forall₂.mp (fun l m hv hp => ?_) hacc ((pyramids_actsOnAll hmatch.levels).1 hact)
    obtain ⟨L, M, rfl, rfl, hv⟩ := hv
    exact ⟨L, M, rfl, rfl, ElementImage.validate_eq_success.1 hv, hp⟩
  · intro h hacc
    have hmatch := isPyramidCopyable_success.1 hacc
    have hfit := h hmatch
    refine ⟨hfit.imp ?_, fun hv => congrArg (VxObject.pyramid · ms) (isPyramidCopyable_output hv),
      (pyramids_actsOnAll hmatch.levels).2 (hfit.imp ?_)⟩
    · rintro l m ⟨L, M, rfl, rfl, hv, -⟩
      exact ⟨L, M, rfl, rfl, ElementImage.validate_eq_success.2 hv⟩
    · rintro l m ⟨L, M, rfl, rfl, -, hp⟩
      exact hp

/-- **The kernel of a container that accepts a pair acts on all elements**, which the kernels of the elements accept, exactly where
the elements fit. -/
theorem containerSafe_iff (host2Shared : UInt64 → UInt64) (k : CopyMoveKernel) (p : ContainerPair) :
    p.Safe host2Shared k ↔ p.Fits k := by
  cases p with
  | objectArrays A B xs ys => exact arrays_iff
  | pyramids P Q ls ms => exact pyramids_iff

end ContainerPair

end Translated

/-! ### Elements that are not compared -/

/-- A user data object in a buffer of its size. -/
def userData (ref : Nat) (memSize : UInt32) : VxObject :=
  .element ⟨ref, .buffer ⟨.userDataObject [], memSize, 0x1000 * ref, memSize⟩, none⟩

/-- An array made of two arrays, of one user data object each. -/
def arrayOfArrays (ref : Nat) (first second : UInt32) : List VxObject :=
  [.objectArray ⟨ref, .userDataObject, false, false, none⟩ [userData (ref + 1) first],
    .objectArray ⟨ref + 2, .userDataObject, false, false, none⟩ [userData (ref + 3) second]]

/-- The second user data object is larger than the one it is copied to. -/
def nestedPair : ContainerPair :=
  .objectArrays ⟨1, .objectArray, true, false, none⟩ ⟨11, .objectArray, true, false, none⟩ (arrayOfArrays 2 4 8)
    (arrayOfArrays 12 4 4)

/-- The kernel accepts the arrays, copies the first user data object and stops at the second. -/
theorem nestedArrays_stop :
    (nestedPair.input.validateOnly .copy nestedPair.output).1 = vxSuccess ∧
    (nestedPair.input.kernelCallback (fun a => a) .copy nestedPair.output).status = vxErrorNotCompatible ∧
    (nestedPair.input.kernelCallback (fun a => a) .copy nestedPair.output).moves = [.bytes 0xD000 0x3000 4] ∧
    ¬ nestedPair.Safe (fun a => a) .copy := by
  have hstatus : (nestedPair.input.kernelCallback (fun a => a) .copy nestedPair.output).status = vxErrorNotCompatible := rfl
  refine ⟨rfl, hstatus, rfl, fun h => ?_⟩
  obtain ⟨-, -, hact⟩ := h rfl
  exact vxErrorNotCompatible_ne (hstatus.symm.trans (congrArg Outcome.status hact.1))

end Tiovx
