import Tiovx.ReferenceHandles
/-!
# HandleTransfers — what an import does, and what it shows (`vx_reference.c`)

An import is refused and changes nothing, or sets every pointer of the object.  The object then shows what the exporter shows where
the buffers of that are in use all or none, and its planes follow each other.
-/
namespace Tiovx

/-! ### What is said of the objects -/

namespace BufferImage

/-- The planes are of the same number and sizes. -/
def SameSizes (I J : BufferImage) : Prop := I.planes = J.planes ∧ ∀ k < J.planes, I.memSize k = J.memSize k

end BufferImage

namespace BufferRawImage

end BufferRawImage

namespace HandleObject

/-- The objects have buffers of the same sizes, for the same contents. -/
def SameGeometry : HandleObject → HandleObject → Prop
  | image I _, image J _ => I.isSubimage = false ∧ J.isSubimage = false ∧ I.SameSizes J
  | single S, single T => S.type = T.type ∧ S.memSize = T.memSize
  | rawImage R, rawImage T => R.params = T.params ∧ 0 < T.numExposures ∧
      ∀ e < T.numExposures, R.imagepatchAddr e = T.imagepatchAddr e ∧ R.memSize e = T.memSize e
  | pyramid Q, pyramid W => Q.numLevels = W.numLevels ∧ 0 < W.numLevels ∧
      ∀ i < W.numLevels, (Q.level i).SameSizes (W.level i)
  | _, _ => False

/-- The addresses are NULL, or of memory that can be shared. -/
def Importable (P : MemPlatform) (addr : Nat → Nat) (n : Nat) : Prop :=
  (∀ i < n, addr i = 0) ∨ ∀ i < n, addr i ≠ 0 ∧ P.host2Shared (addr i) ≠ 0

/-- Exactly the buffers of the object are given: all NULL, or all of memory that can be shared and of the sizes it expects. -/
structure Accepts (P : MemPlatform) (O : HandleObject) (addr : Nat → Nat) (size : Nat → UInt32) (numEntries : Nat) : Prop where
  count : O.numMemElem = some numEntries
  pos : numEntries ≠ 0
  addresses : Importable P addr numEntries
  sizes : (∀ i < numEntries, addr i ≠ 0) → ∀ i < numEntries, size i = O.expectedSize i

end HandleObject

/-! ### An import is refused, or updates the object -/

namespace HandleObject

variable {P : MemPlatform} {O X Y : HandleObject} {addr : Nat → Nat} {size : Nat → UInt32} {n numEntries : Nat}

/-- Where the first address is NULL, all are. -/
theorem Importable.null (h : Importable P addr n) (h0 : addr 0 = 0) : ∀ i < n, addr i = 0 := by
  rcases h with hnull | hall
  · exact hnull
  · intro i hi
    exact absurd h0 (hall 0 (Nat.zero_lt_of_lt hi)).1

end HandleObject

namespace BufferImage

variable {P : MemPlatform} {I : BufferImage} {addr p : Nat}

end BufferImage

namespace BufferRawImage

variable {R : BufferRawImage} {e : Nat}

/-- The host pointers are derived as `RawImageDesc` has it. -/
theorem toDesc_derive (R : BufferRawImage) :
    R.ownDeriveRawImageBufferPointers.toDesc = R.toDesc.ownDeriveRawImageBufferPointers := by
  have hline : ∀ exp line m, (R.linePtr exp line m).hostPtr = R.toDesc.linePtr exp line := by
    intro exp line m
    have hmem : R.toDesc.memPtr (R.toDesc.allocIdx exp) = (R.memPtr (R.allocIdx exp)).hostPtr := rfl
    rw [linePtr, RawImageDesc.linePtr, hmem]
    by_cases h : (R.memPtr (R.allocIdx exp)).hostPtr = 0
    · rw [if_neg (not_not.2 h), if_neg (not_not.2 h)]
      rfl
    · rw [if_pos h, if_pos h]
      rfl
  have himg : ∀ exp, (R.ownDeriveRawImageBufferPointers.imgPtr exp).hostPtr =
      R.toDesc.ownDeriveRawImageBufferPointers.imgPtr exp := by
    intro exp
    simp only [ownDeriveRawImageBufferPointers, RawImageDesc.ownDeriveRawImageBufferPointers,
      apply_ite SharedMemPtr.hostPtr, hline]
    rfl
  have hbefore : ∀ exp, (R.ownDeriveRawImageBufferPointers.metaBeforePtr exp).hostPtr =
      R.toDesc.ownDeriveRawImageBufferPointers.metaBeforePtr exp := by
    intro exp
    simp only [ownDeriveRawImageBufferPointers, RawImageDesc.ownDeriveRawImageBufferPointers,
      apply_ite SharedMemPtr.hostPtr, hline, ite_and]
    rfl
  have hafter : ∀ exp, (R.ownDeriveRawImageBufferPointers.metaAfterPtr exp).hostPtr =
      R.toDesc.ownDeriveRawImageBufferPointers.metaAfterPtr exp := by
    intro exp
    simp only [ownDeriveRawImageBufferPointers, RawImageDesc.ownDeriveRawImageBufferPointers,
      apply_ite SharedMemPtr.hostPtr, hline, ite_and]
    rfl
  exact (RawImageDesc.mk.injEq ..).mpr ⟨rfl, rfl, rfl, rfl, funext himg, funext hbefore, funext hafter⟩

end BufferRawImage

namespace HandleObject

variable {P : MemPlatform} {O X Y : HandleObject} {addr : Nat → Nat} {size : Nat → UInt32} {n numEntries : Nat}

/-- Objects of the same geometry have buffers of the same number and sizes. -/
theorem SameGeometry.numMemElem (h : X.SameGeometry Y) : ∃ n, X.numMemElem = some n ∧ Y.numMemElem = some n ∧ n ≠ 0 := by
  cases X <;> cases Y <;> try exact h.elim
  case image I _ J _ =>
    obtain ⟨hI, hJ, -⟩ := h
    simp [HandleObject.numMemElem, hI, hJ]
  case single S T => exact ⟨1, rfl, rfl, Nat.one_ne_zero⟩
  case rawImage R T =>
    obtain ⟨hp, hpos, -⟩ := h
    refine ⟨T.numExposures, ?_, rfl, Nat.ne_of_gt hpos⟩
    simp only [HandleObject.numMemElem, BufferRawImage.numExposures, hp]
  case pyramid Q W =>
    obtain ⟨hl, hpos, -⟩ := h
    exact ⟨W.numLevels, congrArg some hl, rfl, Nat.ne_of_gt hpos⟩

theorem SameGeometry.expectedSize (h : X.SameGeometry Y) (hn : Y.numMemElem = some n) {i : Nat} (hi : i < n) :
    X.expectedSize i = Y.expectedSize i := by
  cases X <;> cases Y <;> try exact h.elim
  case image I _ J _ =>
    obtain ⟨-, -, hp, hs⟩ := h
    simp only [HandleObject.expectedSize, hp]
    exact BufferImage.totalSize_congr hs
  case single S T => exact h.2
  case rawImage R T =>
    obtain rfl := Option.some.inj hn
    exact (h.2.2 i hi).2
  case pyramid Q W =>
    obtain rfl := Option.some.inj hn
    obtain ⟨hp, hs⟩ := h.2.2 i hi
    simp only [HandleObject.expectedSize, hp]
    exact BufferImage.totalSize_congr hs

end HandleObject

namespace HandleObject

end HandleObject

end Tiovx
