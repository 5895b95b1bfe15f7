import Tiovx.Lib.HolderCounts
import Tiovx.Lib.Run
/-!
# DescriptorLinks — references, their counts and their object descriptors (`vx_reference.c`, `vx_obj_desc.c`)

A data object is a reference with an entry of the descriptor table; each of the two knows the other.  Supplementary data and the
elements of a container are told by pointers in the references and by ids in the descriptors.

A reference is told by the number of its creation, and a descriptor by its index, which is its id.  What a release still has to do is
kept on a stack, as destructors release further references.
-/
namespace Tiovx

/-- `VX_INTERNAL` and `VX_EXTERNAL`. -/
inductive CountKind
  | internal
  | external
deriving DecidableEq

/-- A count that is held: of which reference, and which of its two. -/
structure Hold where
  ref : Nat
  kind : CountKind
deriving DecidableEq

/-- The types of the references with an object descriptor. -/
inductive StoredType
  | array
  | convolution
  | distribution
  | image
  | lut
  | matrix
  | objectArray
  | pyramid
  | rawImage
  | remap
  | scalar
  | superNode
  | tensor
  | threshold
  | userDataObject
deriving DecidableEq

namespace StoredType

def isContainer (t : StoredType) : Bool := t == objectArray || t == pyramid

/-- The types that set a `kernel_callback`. -/
def hasKernelCallback : StoredType → Bool
  | rawImage | remap | superNode | threshold => false
  | _ => true

/-- `supported_type_table`. -/
def takesSupplementaryData (t : StoredType) : Bool := t != superNode

end StoredType

/-- A reference, with what it points at. -/
structure StoredRef where
  type : StoredType
  internalCount : UInt32 := 0
  externalCount : UInt32 := 0
  objDesc : Option Nat := none
  supplementaryData : Option Nat := none
  /-- `ref` of an object array and `img` of a pyramid. -/
  items : List (Option Nat) := []
  /-- `parent` of an image, a tensor and a user data object. -/
  parent : Option Nat := none
  owner : Option Nat := none

/-- What is counted of an element: `ownReleaseRefFromObjArray` releases both. -/
def itemHolds : Option Nat → List Hold
  | some r => [⟨r, .internal⟩, ⟨r, .external⟩]
  | none => []

namespace StoredRef

def ownIncrementReference (o : StoredRef) : CountKind → StoredRef
  | .internal => { o with internalCount := o.internalCount + 1 }
  | .external => { o with externalCount := o.externalCount + 1 }

def ownDecrementReference (o : StoredRef) : CountKind → StoredRef
  | .internal => { o with internalCount := if o.internalCount = 0 then 0 else o.internalCount - 1 }
  | .external => { o with externalCount := if o.externalCount = 0 then 0 else o.externalCount - 1 }

/-- What `ownDecrementReference` returns of the counts. -/
def count (o : StoredRef) : UInt32 := o.internalCount + o.externalCount

/-- An image or a tensor holds its parent internally, and a user data object that reads another's data holds that externally. -/
def parentKind (o : StoredRef) : CountKind := if o.type = .userDataObject then .external else .internal

/-- The counts of other references that are released with this one. -/
def holds (o : StoredRef) : List Hold :=
  o.items.flatMap itemHolds ++ o.supplementaryData.toList.map (⟨·, .external⟩) ++ o.parent.toList.map (⟨·, o.parentKind⟩)

end StoredRef

/-- An entry of the descriptor table; one that is freed keeps what was written. -/
structure LinkDesc where
  isUsed : Bool := false
  hostRef : Option Nat := none
  suppDataId : Option Nat := none
  /-- `obj_desc_id`, of a container. -/
  itemIds : List Nat := []

/-- What a release has left to do. -/
inductive Pending
  /-- `ownReleaseReferenceInt`. -/
  | release (r : Nat) (k : CountKind)
  /-- An element of a container that is destroyed: its internal count is decremented, and it is released externally. -/
  | releaseItem (r : Nat)
  /-- The `destructor_callback`. -/
  | destruct (r : Nat)
  | objDescFree (r : Nat)
  | objectFree (r : Nat)
deriving DecidableEq

/-- The counts that are yet to be released. -/
def Pending.holds : Pending → List Hold
  | release r k => [⟨r, k⟩]
  | releaseItem r => [⟨r, .internal⟩, ⟨r, .external⟩]
  | _ => []

/-- References and descriptors, with the counts that the application, nodes and graphs hold. -/
structure LinkStore where
  numEntries : Nat
  table : Nat → LinkDesc := fun _ => {}
  lastAllocIndex : Nat := 0
  refs : Nat → Option StoredRef := fun _ => none
  /-- The number of the next reference that is created. -/
  next : Nat := 0
  handles : Hold → Nat := fun _ => 0
  pending : List Pending := []

namespace LinkStore

def modify (S : LinkStore) (r : Nat) (f : StoredRef → StoredRef) : LinkStore :=
  { S with refs := Function.update S.refs r ((S.refs r).map f) }

def modifyDesc (S : LinkStore) (d : Nat) (f : LinkDesc → LinkDesc) : LinkStore :=
  { S with table := Function.update S.table d (f (S.table d)) }

/-- A count is held from outside. -/
def grant (S : LinkStore) (h : Hold) : LinkStore := { S with handles := Function.update S.handles h (S.handles h + 1) }

def revoke (S : LinkStore) (h : Hold) : LinkStore := { S with handles := Function.update S.handles h (S.handles h - 1) }

/-! ### Descriptors -/

/-- `ownReferenceGetObjDescId`. -/
def ownReferenceGetObjDescId (S : LinkStore) (r : Nat) : Option Nat := (S.refs r).bind (·.objDesc)

/-- `ownReferenceGetHandleFromObjDescId`, with `ownObjDescGet`. -/
def ownReferenceGetHandleFromObjDescId (S : LinkStore) (id : Nat) : Option Nat :=
  if id < S.numEntries then (S.table id).hostRef else none

/-- The entry that `ownObjDescAlloc` finds: the first from `last_alloc_index` on that is not used. -/
def freeEntry (S : LinkStore) : Option Nat :=
  ((List.range S.numEntries).map (fun i => (S.lastAllocIndex + i) % S.numEntries)).find? (fun d => !(S.table d).isUsed)

/-- `ownCreateReference` with a descriptor of `ownObjDescAlloc`; without one the reference is released again. -/
def ownCreateReference (S : LinkStore) (type : StoredType) (numItems : Nat) : Option LinkStore :=
  S.freeEntry.map fun d => { S with
    table := Function.update S.table d { isUsed := true, hostRef := some S.next, itemIds := List.replicate numItems 0 }
    lastAllocIndex := (d + 1) % S.numEntries
    refs := Function.update S.refs S.next
      (some { type, externalCount := 1, objDesc := some d, items := List.replicate numItems none })
    next := S.next + 1
    handles := Function.update S.handles ⟨S.next, .external⟩ (S.handles ⟨S.next, .external⟩ + 1) }

/-- `ownIncrementReference` for who asks for it. -/
def retain (S : LinkStore) (r : Nat) (k : CountKind) : LinkStore :=
  (S.modify r (·.ownIncrementReference k)).grant ⟨r, k⟩

/-! ### Containers -/

/-- The container `c` has the element `r` at `i`, and holds it where the caller did. -/
def setItem (S : LinkStore) (c d i r e : Nat) : LinkStore :=
  ((((S.modify c fun x => { x with items := x.items.set i (some r) }).modifyDesc d
    fun x => { x with itemIds := x.itemIds.set i e }).revoke ⟨r, .internal⟩).revoke ⟨r, .external⟩)

/-- `ownAddRefToObjArray`, and the same of a level in `ownInitPyramid`.  An element of a list is retained for the container; one that
has been created for it is handed over. -/
def ownAddRefToObjArray (S : LinkStore) (c i r : Nat) (isFromList : Bool) : Option LinkStore := do
  let x ← S.refs c
  let d ← x.objDesc
  let e ← S.ownReferenceGetObjDescId r
  if i < x.items.length then
    let S := S.retain r .internal
    some ((if isFromList then S.retain r .external else S).setItem c d i r e)
  else none

/-- `ownReleaseRefFromObjArray` where a container that is not complete is cleaned up. -/
def ownReleaseRefFromObjArray (S : LinkStore) (c i : Nat) : Option LinkStore := do
  let x ← S.refs c
  let e ← x.items[i]?.join
  some { S.modify c (fun x => { x with items := x.items.set i none }) with pending := [.releaseItem e] }

/-- The element that `vxGetObjectArrayItem` and `vxGetPyramidLevel` find. -/
def itemRef (S : LinkStore) (c i : Nat) : Option Nat := do
  let x ← S.refs c
  let d ← x.objDesc
  if x.type = .objectArray then
    let id ← (S.table d).itemIds[i]?
    S.ownReferenceGetHandleFromObjDescId id
  else x.items[i]?.join

/-! ### Images and tensors of a part of an image -/

/-- `ownLinkParentSubimage`, and the same of a tensor. -/
def linkParent (S : LinkStore) (child image : Nat) : LinkStore :=
  ((S.retain image .internal).modify child fun x => { x with parent := some image }).revoke ⟨image, .internal⟩

/-- `vxCreateImageFromROI` and `vxCreateImageFromChannel`: without a descriptor a null pointer is followed. -/
def vxCreateImageFromROI (S : LinkStore) (image : Nat) : Option LinkStore := do
  let y ← S.refs image
  if y.type ≠ .image then some S else
  let T ← S.ownCreateReference .image 0
  some (T.linkParent S.next image)

/-- `vxCreateTensorFromROI`: the tensor gets the supplementary data of the image. -/
def vxCreateTensorFromROI (S : LinkStore) (image : Nat) : Option LinkStore := do
  let y ← S.refs image
  let d ← y.objDesc
  if y.type ≠ .image then some S else
  match S.ownCreateReference .tensor 0 with
  | none => some S
  | some T =>
    let T := T.linkParent S.next image
    match (S.table d).suppDataId, T.ownReferenceGetObjDescId S.next with
    | some id, some e => some ((T.modify S.next fun x => { x with supplementaryData := y.supplementaryData }).modifyDesc e
        fun x => { x with suppDataId := some id })
    | _, _ => some T

/-! ### Supplementary data -/

/-- Supplementary data is created for `destination`, with the descriptor `d`, and is held by it. -/
def attach (S : LinkStore) (destination d s : Nat) : LinkStore :=
  (((S.modify s fun x => { x with owner := some destination }).modify destination
    fun x => { x with supplementaryData := some s }).modifyDesc d
      fun x => { x with suppDataId := S.ownReferenceGetObjDescId s }).revoke ⟨s, .external⟩

/-- `vxExtendSupplementaryUserDataObject`, with the object it creates where `destination` has none. -/
def vxExtendSupplementaryUserDataObject (S : LinkStore) (destination : Nat) : Option LinkStore := do
  let y ← S.refs destination
  let d ← y.objDesc
  if y.supplementaryData = none ∧ y.type.takesSupplementaryData ∧ ¬ (y.type = .userDataObject ∧ y.owner ≠ none) then
    match S.ownCreateReference .userDataObject 0 with
    | none => some S
    | some T => some (T.attach destination d S.next)
  else some S

/-- The loop of `vxGetSupplementaryUserDataObject`.  A parent was created before what is built on it, so that no more steps are taken
than references were created. -/
def searchParents (S : LinkStore) : Nat → Nat → Nat
  | 0, r => r
  | fuel + 1, r =>
    match S.refs r with
    | some x =>
      if x.supplementaryData = none ∧ (x.type = .image ∨ x.type = .tensor) then
        match x.parent with
        | some p => S.searchParents fuel p
        | none => r
      else r
    | none => r

/-- `new_ref`: the reference whose supplementary data is got for `r`. -/
def supplemented (S : LinkStore) (r : Nat) (isInKernel isInput : Bool) : Nat :=
  if !isInKernel || isInput then S.searchParents S.next r else r

/-- The supplementary data that is got for `r`. -/
def supplementFor (S : LinkStore) (r : Nat) (isInKernel isInput : Bool) : Option Nat :=
  (S.refs (S.supplemented r isInKernel isInput)).bind (·.supplementaryData)

/-- `ownCreateReadOnlyUserDataObject`, with the `owner` that its caller sets: the descriptor is the parent's. -/
def ownCreateReadOnlyUserDataObject (S : LinkStore) (s owner : Nat) : LinkStore :=
  let S' := S.retain s .external
  ({ S' with
    refs := Function.update S'.refs S.next (some
      { type := .userDataObject, externalCount := 1, objDesc := S.ownReferenceGetObjDescId s, parent := some s, owner })
    next := S.next + 1 }.grant ⟨S.next, .external⟩).revoke ⟨s, .external⟩

/-- `vxGetSupplementaryUserDataObject`. -/
def vxGetSupplementaryUserDataObject (S : LinkStore) (r : Nat) (isInKernel isInput : Bool) : LinkStore :=
  match S.supplementFor r isInKernel isInput with
  | none => S
  | some s =>
    if S.supplemented r isInKernel isInput = r ∨ isInKernel then S.retain s .external
    else S.ownCreateReadOnlyUserDataObject s r

/-! ### Swap and move kernels -/

def isTensor (S : LinkStore) (r : Nat) : Bool := (S.refs r).any (·.type == .tensor)

/-- `moveOrSwapTensor`. -/
def moveOrSwapTensor (S : LinkStore) (a b : Nat) : LinkStore :=
  (S.modify b fun x => { x with objDesc := S.ownReferenceGetObjDescId a }).modify a
    fun x => { x with objDesc := S.ownReferenceGetObjDescId b }

/-- What the swap or move kernel of two objects that are no containers changes in the references. -/
def swapPair (S : LinkStore) (a b : Nat) : LinkStore :=
  if S.isTensor a && S.isTensor b then S.moveOrSwapTensor a b else S

/-- The pairs of elements of two containers. -/
def itemPairs (xs ys : List (Option Nat)) : List (Nat × Nat) :=
  (xs.zip ys).filterMap fun p => p.1.bind fun a => p.2.map fun b => (a, b)

/-- The pairs to which the kernel of `a` and `b` dispatches in turn, through `depth` containers. -/
def dispatched (S : LinkStore) : Nat → Nat → Nat → List (Nat × Nat)
  | 0, _, _ => []
  | depth + 1, a, b =>
    match S.refs a, S.refs b with
    | some x, some y =>
      if x.type.isContainer then (itemPairs x.items y.items).flatMap fun p => S.dispatched depth p.1 p.2 else [(a, b)]
    | _, _ => []

/-- The pairs whose kernels are carried out: those before the first that has none. -/
def swapped (S : LinkStore) (depth a b : Nat) : List (Nat × Nat) :=
  (S.dispatched depth a b).takeWhile fun p => (S.refs p.1).any (·.type.hasKernelCallback)

/-! ### Releasing -/

/-- What the destructor of a reference releases. -/
def destructor (r : Nat) (o : StoredRef) : List Pending :=
  o.items.filterMap (·.map .releaseItem) ++
    match o.parent with
    | none => [.objDescFree r]
    | some p => if o.type = .userDataObject then [.release p .external] else [.objDescFree r, .release p .internal]

/-- The end of `ownReleaseReferenceInt`, where nothing is counted any more. -/
def destroy (S : LinkStore) (r : Nat) (o : StoredRef) : LinkStore :=
  { S with
    refs := Function.update S.refs r (some { o with supplementaryData := none })
    pending := o.supplementaryData.toList.map (.release · .external) ++ .destruct r :: .objectFree r :: S.pending }

/-- `ownReleaseReferenceInt`. -/
def ownReleaseReferenceInt (S : LinkStore) (r : Nat) (k : CountKind) : LinkStore :=
  match S.refs r with
  | none => S
  | some o =>
    let o := o.ownDecrementReference k
    let S := { S with refs := Function.update S.refs r (some o) }
    if o.count = 0 then S.destroy r o else S

def runPending (S : LinkStore) : Pending → LinkStore
  | .release r k => S.ownReleaseReferenceInt r k
  | .releaseItem r => { S.modify r (·.ownDecrementReference .internal) with pending := .release r .external :: S.pending }
  | .destruct r =>
    match S.refs r with
    | none => S
    | some o => { S with
        refs := Function.update S.refs r (some { o with items := [], parent := none })
        pending := destructor r o ++ S.pending }
  | .objDescFree r =>
    match S.ownReferenceGetObjDescId r with
    | none => S
    | some d => (S.modifyDesc d fun x => { x with isUsed := false }).modify r fun x => { x with objDesc := none }
  | .objectFree r => { S with refs := Function.update S.refs r none }

/-! ### Runs -/

/-- A call, or the next thing that the last call has left to do. -/
inductive LinkCall
  | create (type : StoredType) (numItems : Nat)
  | addItem (c i r : Nat) (isFromList : Bool)
  | dropItem (c i : Nat)
  | getItem (c i : Nat)
  | retain (r : Nat) (k : CountKind)
  | release (r : Nat) (k : CountKind)
  | createImageFromROI (image : Nat)
  | createTensorFromROI (image : Nat)
  | extendSupplementary (destination : Nat)
  | getSupplementary (r : Nat) (isInKernel isInput : Bool)
  /-- A swap or move kernel, through `depth` containers. -/
  | swap (depth a b : Nat)
  | proceed

/-- A call.  Its objects exist, and what it releases or hands over is held. -/
def call (S : LinkStore) : LinkCall → Option LinkStore
  | .create type numItems => some ((S.ownCreateReference type (if type.isContainer then numItems else 0)).getD S)
  | .addItem c i r isFromList =>
    if isFromList || 0 < S.handles ⟨r, .external⟩ then S.ownAddRefToObjArray c i r isFromList else none
  | .dropItem c i => S.ownReleaseRefFromObjArray c i
  | .getItem c i => do
    let r ← S.itemRef c i
    let _ ← S.refs r
    some (S.retain r .external)
  | .retain r k => (S.refs r).map fun _ => S.retain r k
  | .release r k => if 0 < S.handles ⟨r, k⟩ then some { S.revoke ⟨r, k⟩ with pending := [.release r k] } else none
  | .createImageFromROI image => S.vxCreateImageFromROI image
  | .createTensorFromROI image => S.vxCreateTensorFromROI image
  | .extendSupplementary destination => S.vxExtendSupplementaryUserDataObject destination
  | .getSupplementary r isInKernel isInput => some (S.vxGetSupplementaryUserDataObject r isInKernel isInput)
  | .swap depth a b => some ((S.swapped depth a b).foldl (fun T p => T.swapPair p.1 p.2) S)
  | .proceed => none

/-- A step of a run: a call ends before the next begins. -/
def step (S : LinkStore) (c : LinkCall) : Option LinkStore :=
  match S.pending with
  | [] => S.call c
  | p :: rest =>
    match c with
    | .proceed => some ({ S with pending := rest }.runPending p)
    | _ => none

/-- No reference is created yet. -/
def init (numEntries : Nat) : LinkStore := { numEntries }

end LinkStore

end Tiovx
