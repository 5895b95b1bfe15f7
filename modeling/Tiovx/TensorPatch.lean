import Tiovx.Lib.WrappedLayout
import Tiovx.MapSlots
import Tiovx.TensorCopy
/-!
# TensorPatch — views of tensors (`vx_tensor.c`)

`vxCopyTensorPatch` copies the lines of a view, one at a time, to or from a buffer of the user with strides of its own.  The
positions are counted in 64 bits, in the buffer and in the memory of the tensor, which share no bytes.
-/
namespace Tiovx

/-- A dimension of a view, with the stride of the user. -/
structure ViewAxis where
  viewStart : UInt64
  viewEnd : UInt64
  userStride : UInt64
deriving DecidableEq

/-- `view_start`, `view_end` and `user_stride`, which have `number_of_dimensions` entries. -/
abbrev TensorView := List ViewAxis

/-- Memory, by positions from its first byte on. -/
abbrev Memory := UInt64 → UInt8

namespace ViewAxis

def count (a : ViewAxis) : Nat := (a.viewEnd - a.viewStart).toNat

end ViewAxis

namespace TensorView

/-- The checks of `user_stride` from one on. -/
def checkStrides : TensorView → Bool
  | a :: b :: P => !(b.userStride < a.viewEnd - a.viewStart) && checkStrides (b :: P)
  | _ => true

/-- `ownComputePatchSize`. -/
def ownComputePatchSize : TensorView → UInt64
  | [] => 1
  | a :: P => (a.viewEnd - a.viewStart) * ownComputePatchSize P

/-- `ownComputePositionsFromIndex`: `tensor_pos` and `patch_pos`. -/
def ownComputePositionsFromIndex : UInt64 → List Int32 → TensorView → UInt64 × UInt64
  | idx, s :: stride, a :: P =>
    let divisor := a.viewEnd.toUInt32.toInt32 - a.viewStart.toUInt32.toInt32
    let currDimIndex := idx % divisor.toInt64.toUInt64
    let rest := ownComputePositionsFromIndex (idx / divisor.toUInt32.toUInt64) stride P
    (s.toInt64.toUInt64 * (currDimIndex + a.viewStart) + rest.1, a.userStride * currDimIndex + rest.2)
  | _, _, _ => (0, 0)

/-- The dimensions in the buffer of the user. -/
def userAxes (P : TensorView) : List Axis := P.map (fun a => ⟨a.count, a.userStride.toNat⟩)

/-- The dimensions with the strides of the tensor. -/
def strideAxes (P : TensorView) (stride : List Int32) : List Axis := List.zipWith (fun a s => ⟨a.count, s.toInt⟩) P stride

/-- The place of the first element with the strides of the tensor. -/
def startPlace : TensorView → List Int32 → Int
  | a :: P, s :: stride => s.toInt * a.viewStart.toNat + startPlace P stride
  | _, _ => 0

/-- A byte of an element in the buffer of the user. -/
def userByte (P : TensorView) (v : List Nat) (k : Nat) : UInt64 := UInt64.ofInt (Axis.place P.userAxes v + k)

end TensorView

/-- `memcpy` of `n` bytes. -/
def copyLine (dst src : Memory) (d s : UInt64) (n : Nat) : Memory := fun a =>
  if (a - d).toNat < n then src (s + (a - d)) else dst a

/-- The loop over the lines. -/
def copyLines (line : UInt64 → Memory → Memory) (patchSize elementsPerLine : UInt64) : Nat → UInt64 → Memory → Option Memory
  | 0, _, _ => none
  | fuel + 1, i, m =>
    if i < patchSize then copyLines line patchSize elementsPerLine fuel (i + elementsPerLine) (line i m) else some m

namespace TensorDesc

variable (t : TensorDesc) (P : TensorView)

/-- The checks of `vxCopyTensorPatch`. -/
def acceptsPatch : Bool :=
  !(t.dimensions.length < P.length || P.length < 1) &&
    ownTensorCheckSizes t.dimensions (P.map ViewAxis.viewStart) (P.map ViewAxis.viewEnd) && P.checkStrides &&
      (P.map ViewAxis.userStride).headD 0 == (t.stride.headD 0).toInt64.toUInt64

/-- `elements_per_line`. -/
def elementsPerLine : UInt32 := ((P.map ViewAxis.viewEnd).headD 0).toUInt32 - ((P.map ViewAxis.viewStart).headD 0).toUInt32

/-- `bytes_per_line`. -/
def bytesPerLine : UInt32 := (t.stride.headD 0).toUInt32 * elementsPerLine P

/-- A line that is copied from the user. -/
def writeLine (user : Memory) (i : UInt64) (mem : Memory) : Memory :=
  let pos := P.ownComputePositionsFromIndex i t.stride
  copyLine mem user pos.1 pos.2 (t.bytesPerLine P).toNat

/-- A line that is copied to the user. -/
def readLine (mem : Memory) (i : UInt64) (user : Memory) : Memory :=
  let pos := P.ownComputePositionsFromIndex i t.stride
  copyLine user mem pos.2 pos.1 (t.bytesPerLine P).toNat

/-- `vxCopyTensorPatch` that writes. -/
def writePatch (fuel : Nat) (mem user : Memory) : Option Memory :=
  copyLines (t.writeLine P user) P.ownComputePatchSize (elementsPerLine P).toUInt64 fuel 0 mem

/-- `vxCopyTensorPatch` that reads. -/
def readPatch (fuel : Nat) (mem user : Memory) : Option Memory :=
  copyLines (t.readLine P mem) P.ownComputePatchSize (elementsPerLine P).toUInt64 fuel 0 user

/-- The dimensions of a view. -/
def viewAxes : List Axis := P.strideAxes t.stride

/-- A byte of an element in the memory of the tensor. -/
def tensorByte (v : List Nat) (k : Nat) : UInt64 := UInt64.ofInt (P.startPlace t.stride + Axis.place (t.viewAxes P) v + k)

/-- The same byte from the pointer and with the strides of `tivxMapTensorPatch`. -/
def mapByte (v : List Nat) (k : Nat) : UInt64 :=
  (ownComputeTensorOffset (P.map ViewAxis.viewStart) t.stride).toUInt64 + UInt64.ofInt (Axis.place (t.viewAxes P) v + k)

/-- **A view is copied right**: its elements share no bytes, in the buffer of the user and in the tensor, all bytes are in the
memory of the tensor, and what is written is read again, by a copy and by a map. -/
structure PatchOk : Prop where
  user : ∀ v w, Axis.IsIndex v P.userAxes → Axis.IsIndex w P.userAxes → v ≠ w → ∀ j < t.elementSize, ∀ k < t.elementSize,
    P.userByte v j ≠ P.userByte w k
  tensor : ∀ v w, Axis.IsIndex v (t.viewAxes P) → Axis.IsIndex w (t.viewAxes P) → v ≠ w → ∀ j < t.elementSize,
    ∀ k < t.elementSize, t.tensorByte P v j ≠ t.tensorByte P w k
  inMemory : ∀ v, Axis.IsIndex v (t.viewAxes P) → ∀ k < t.elementSize, (t.tensorByte P v k).toNat < t.memSize.toNat
  roundTrip : ∀ mem user user', ∃ fuel mem' user'', t.writePatch P fuel mem user = some mem' ∧
    t.readPatch P fuel mem' user' = some user'' ∧ ∀ v, Axis.IsIndex v (t.viewAxes P) → ∀ k < t.elementSize,
      user'' (P.userByte v k) = user (P.userByte v k) ∧ mem' (t.mapByte P v k) = user (P.userByte v k)

/-- Where a view fits: no sum of multiples of the strides of its lines is less than a line from zero, neither with those of the
user nor with those of the tensor, and the lowest element is as far below the size of the tensor as the strides reach. -/
def PatchFits : Prop :=
  Axis.Apart (2 ^ 64) (t.elementSize * (P.map ViewAxis.count).headD 0) P.userAxes.tail ∧
    Axis.Apart (2 ^ 64) (t.elementSize * (P.map ViewAxis.count).headD 0) (t.viewAxes P).tail ∧
      (P.startPlace t.stride + Axis.lowest (t.viewAxes P)) % (2 ^ 64 : Nat) + (Axis.span (t.viewAxes P) : Nat) + t.elementSize ≤
        t.memSize.toNat

end TensorDesc

/-! ## Positions in 64 bits -/

theorem toNat_ofInt (x : Int) : (UInt64.ofInt x).toNat = (x % 2 ^ 64).toNat := by
  unfold UInt64.ofInt
  rw [UInt64.toNat_ofNat']
  apply Nat.mod_eq_of_lt
  omega

theorem ofInt_inj {x y : Int} : UInt64.ofInt x = UInt64.ofInt y ↔ x % 2 ^ 64 = y % 2 ^ 64 := by
  rw [← UInt64.toNat_inj, toNat_ofInt, toNat_ofInt]
  omega

theorem ofInt_toNat (x : UInt64) : UInt64.ofInt x.toNat = x := by
  apply UInt64.toNat_inj.1
  rw [toNat_ofInt]
  have := x.toNat_lt
  omega

theorem toInt64_toUInt64 (s : Int32) : s.toInt64.toUInt64 = UInt64.ofInt s.toInt := by
  apply UInt64.toNat_inj.1
  rw [toNat_ofInt]
  rfl

theorem ofInt_ofNat (n : Nat) : UInt64.ofInt n = UInt64.ofNat n := by
  apply UInt64.toNat_inj.1
  rw [toNat_ofInt, UInt64.toNat_ofNat']
  omega

/-! ### The lines in order -/

/-- What the checks of the sizes say of a dimension of the view. -/
structure ViewAxis.Fits (a : ViewAxis) : Prop where
  lt : a.viewStart.toNat < a.viewEnd.toNat
  small : a.viewEnd.toNat < 2 ^ 32

namespace ViewAxis

variable {a : ViewAxis}

theorem Fits.count_eq (h : a.Fits) : a.count = a.viewEnd.toNat - a.viewStart.toNat :=
  UInt64.toNat_sub_of_le _ _ (UInt64.le_iff_toNat_le.2 h.lt.le)

theorem Fits.count_pos (h : a.Fits) : 0 < a.count := by
  rw [h.count_eq]
  have := h.lt
  omega

theorem Fits.count_lt (h : a.Fits) : a.count < 2 ^ 32 := by
  rw [h.count_eq]
  have := h.small
  omega

/-- `divisor` in 32 bits. -/
def divisor (a : ViewAxis) : Int32 := a.viewEnd.toUInt32.toInt32 - a.viewStart.toUInt32.toInt32

theorem Fits.divisor_toUInt32 (h : a.Fits) : a.divisor.toUInt32.toNat = a.count := by
  have h1 := h.lt
  have h2 := h.small
  have hle : a.viewStart.toUInt32 ≤ a.viewEnd.toUInt32 := by
    rw [UInt32.le_iff_toNat_le, UInt64.toNat_toUInt32, UInt64.toNat_toUInt32]
    omega
  unfold divisor
  rw [Int32.toUInt32_sub, UInt32.toUInt32_toInt32, UInt32.toUInt32_toInt32, UInt32.toNat_sub_of_le _ _ hle,
    UInt64.toNat_toUInt32, UInt64.toNat_toUInt32, h.count_eq]
  omega

/-- The divisor in 64 bits, which is far too large where its top bit is set in 32 bits. -/
theorem Fits.divisor_toUInt64 (h : a.Fits) : a.divisor.toInt64.toUInt64.toNat =
    if a.count < 2 ^ 31 then a.count else 2 ^ 64 - 2 ^ 32 + a.count := by
  have hc := h.divisor_toUInt32
  have hlt := h.count_lt
  have htoInt : a.divisor.toInt = if 2 * a.count < 2 ^ 32 then (a.count : Int) else a.count - 2 ^ 32 := by
    apply toInt_eq_ite _ hlt
    rw [hc, Nat.mod_eq_of_lt hlt]
  rw [toInt64_toUInt64, toNat_ofInt, htoInt]
  split
  · rw [if_pos (by omega)]
    omega
  · rw [if_neg (by omega)]
    omega

end ViewAxis

namespace TensorView

variable {P : TensorView} {stride : List Int32}

/-- The place of an element in the tensor. -/
theorem map_count_strideAxes (h : P.length ≤ stride.length) : (P.strideAxes stride).map Axis.count = P.map ViewAxis.count := by
  induction P generalizing stride with
  | nil => rfl
  | cons a P ih =>
    cases stride with
    | nil => cases h
    | cons s stride => exact congrArg (a.count :: ·) (ih (Nat.le_of_succ_le_succ h))

theorem map_count_userAxes : P.userAxes.map Axis.count = P.map ViewAxis.count := by
  unfold userAxes
  rw [List.map_map]
  rfl

/-- The index of an element of the view. -/
def indexAt (P : TensorView) (n : Nat) : List Nat := Axis.indexAt P.userAxes n

def size (P : TensorView) : Nat := Axis.size P.userAxes

theorem size_cons (a : ViewAxis) (P : TensorView) : size (a :: P) = a.count * size P := Axis.size_cons

theorem positions_eq (hP : ∀ a ∈ P, a.Fits) (hlen : P.length ≤ stride.length) (hsize : P.size < 2 ^ 32) {n : Nat}
    (hn : n < P.size) : P.ownComputePositionsFromIndex (UInt64.ofNat n) stride =
      (UInt64.ofInt (P.startPlace stride + Axis.place (P.strideAxes stride) (P.indexAt n)),
        UInt64.ofInt (Axis.place P.userAxes (P.indexAt n))) := by
  induction P generalizing stride n with
  | nil => cases stride <;> rfl
  | cons a P ih =>
    cases stride with
    | nil => cases hlen
    | cons s stride =>
      have ha := hP a List.mem_cons_self
      have hpos := ha.count_pos
      rw [size_cons] at hsize hn
      have hn' : n / a.count < size P := Nat.div_lt_of_lt_mul hn
      have hP' : size P < 2 ^ 32 := Nat.lt_of_le_of_lt (Nat.le_mul_of_pos_left _ hpos) hsize
      have hcurr : UInt64.ofNat n % a.divisor.toInt64.toUInt64 = UInt64.ofNat (n % a.count) := by
        apply UInt64.toNat_inj.1
        have hmod := Nat.mod_le n a.count
        rw [UInt64.toNat_mod, ha.divisor_toUInt64, UInt64.toNat_ofNat', UInt64.toNat_ofNat',
          Nat.mod_eq_of_lt (show n < 2 ^ 64 by omega), Nat.mod_eq_of_lt (show n % a.count < 2 ^ 64 by omega)]
        split
        · rfl
        · -- the other dimensions have one element each
          rename_i hbig
          have hone : size P = 1 := by
            by_contra hne
            have hP0 : 0 < size P := Nat.zero_lt_of_lt hn'
            have := Nat.mul_le_mul_left a.count (show 2 ≤ size P by omega)
            omega
          rw [hone, mul_one] at hn
          have := ha.count_lt
          rw [Nat.mod_eq_of_lt hn, Nat.mod_eq_of_lt (show n < 2 ^ 64 - 2 ^ 32 + a.count by omega)]
      have hquot : UInt64.ofNat n / a.divisor.toUInt32.toUInt64 = UInt64.ofNat (n / a.count) := by
        apply UInt64.toNat_inj.1
        have hdiv := Nat.div_le_self n a.count
        rw [UInt64.toNat_div, UInt32.toNat_toUInt64, ha.divisor_toUInt32, UInt64.toNat_ofNat', UInt64.toNat_ofNat',
          Nat.mod_eq_of_lt (show n < 2 ^ 64 by omega), Nat.mod_eq_of_lt (show n / a.count < 2 ^ 64 by omega)]
      have ih := ih (fun b hb => hP b (List.mem_cons_of_mem a hb)) (Nat.le_of_succ_le_succ hlen) hP' hn'
      unfold ViewAxis.divisor at hcurr hquot
      simp only [ownComputePositionsFromIndex, hcurr, hquot, ih]
      have hidx : indexAt (a :: P) n = n % a.count :: indexAt P (n / a.count) := rfl
      rw [hidx, toInt64_toUInt64, ← ofInt_ofNat]
      refine Prod.ext ?_ ?_
      · show UInt64.ofInt s.toInt * (UInt64.ofInt _ + a.viewStart) + UInt64.ofInt _ = UInt64.ofInt _
        rw [← ofInt_toNat a.viewStart, ← UInt64.ofInt_add, ← UInt64.ofInt_mul, ← UInt64.ofInt_add]
        congr 1
        show _ = s.toInt * a.viewStart.toNat + startPlace P stride +
          (s.toInt * (n % a.count : Nat) + Axis.place (strideAxes P stride) (indexAt P (n / a.count)))
        ring
      · show a.userStride * UInt64.ofInt _ + UInt64.ofInt _ = UInt64.ofInt (a.userStride.toNat * (n % a.count : Nat) + _)
        rw [UInt64.ofInt_add, UInt64.ofInt_mul, ofInt_toNat]
        rfl

theorem size_pos (hP : ∀ a ∈ P, a.Fits) : 0 < P.size := by
  induction P with
  | nil => exact Nat.one_pos
  | cons a P ih =>
    rw [size_cons]
    exact Nat.mul_pos (hP a List.mem_cons_self).count_pos (ih (fun b hb => hP b (List.mem_cons_of_mem a hb)))

theorem patchSize_eq (hP : ∀ a ∈ P, a.Fits) (hsize : P.size < 2 ^ 64) : P.ownComputePatchSize.toNat = P.size := by
  induction P with
  | nil => rfl
  | cons a P ih =>
    have ha := (hP a List.mem_cons_self).count_pos
    have hP' : ∀ b ∈ P, b.Fits := fun b hb => hP b (List.mem_cons_of_mem a hb)
    rw [size_cons] at hsize ⊢
    have ih := ih hP' (Nat.lt_of_le_of_lt (Nat.le_mul_of_pos_left _ ha) hsize)
    show ((a.viewEnd - a.viewStart) * ownComputePatchSize P).toNat = _
    rw [UInt64.toNat_mul, ih]
    exact Nat.mod_eq_of_lt hsize

theorem fits_of_checkSizes {dims : List UInt32} (hlen : P.length ≤ dims.length)
    (h : ownTensorCheckSizes dims (P.map ViewAxis.viewStart) (P.map ViewAxis.viewEnd) = true) : ∀ a ∈ P, a.Fits := by
  induction P generalizing dims with
  | nil => exact fun _ ha => absurd ha List.not_mem_nil
  | cons a P ih =>
    cases dims with
    | nil => cases hlen
    | cons d dims =>
      rw [List.map_cons, List.map_cons] at h
      unfold ownTensorCheckSizes at h
      obtain ⟨h1, h2⟩ := Bool.and_eq_true_iff.1 h
      simp only [Bool.not_eq_true', Bool.or_eq_false_iff, decide_eq_false_iff_not, UInt64.lt_iff_toNat_lt,
        UInt64.le_iff_toNat_le, UInt32.toNat_toUInt64, Nat.not_le, Nat.not_lt] at h1
      intro b hb
      obtain rfl | hb := List.mem_cons.1 hb
      · exact ⟨h1.1, Nat.lt_of_le_of_lt h1.2 d.toNat_lt⟩
      · exact ih (Nat.le_of_succ_le_succ hlen) h2 b hb

end TensorView

/-! ### Copies of lines -/

theorem toNat_sub_lt {D : UInt64} {n : Nat} {a : UInt64} (h : (a - D).toNat < n) :
    ∃ k < n, a = D + UInt64.ofNat k := by
  refine ⟨(a - D).toNat, h, ?_⟩
  rw [UInt64.ofNat_toNat, UInt64.add_comm, UInt64.sub_add_cancel]

theorem add_ofNat_sub (D : UInt64) {k : Nat} (hk : k < 2 ^ 64) : (D + UInt64.ofNat k - D).toNat = k := by
  rw [UInt64.add_comm, UInt64.add_sub_cancel, UInt64.toNat_ofNat', Nat.mod_eq_of_lt hk]

/-- Lines that are copied to places which share no bytes. -/
theorem foldl_copyLine {ι : Type} {D S : ι → UInt64} {n : Nat} {l : List ι} {s : Memory} (hn : n ≤ 2 ^ 64)
    (hd : ∀ x ∈ l, ∀ y ∈ l, x ≠ y → ∀ j < n, ∀ k < n, D x + UInt64.ofNat j ≠ D y + UInt64.ofNat k) (m : Memory) {x : ι}
    (hx : x ∈ l) {j : Nat} (hj : j < n) :
    l.foldl (fun m x => copyLine m s (D x) (S x) n) m (D x + UInt64.ofNat j) = s (S x + UInt64.ofNat j) := by
  induction l using List.reverseRecOn with
  | nil => cases hx
  | append_singleton l y ih =>
    rw [List.foldl_append, List.foldl_cons, List.foldl_nil]
    unfold copyLine
    split
    · rename_i hlt
      obtain ⟨k, hk, heq⟩ := toNat_sub_lt hlt
      have hxy : x = y := by
        by_contra hxy
        exact hd x hx y (List.mem_append_right _ List.mem_cons_self) hxy j hj k hk heq
      subst hxy
      rw [UInt64.add_comm (D x), UInt64.add_sub_cancel]
    · rename_i hlt
      have hxy : x ≠ y := by
        rintro rfl
        rw [add_ofNat_sub _ (by omega)] at hlt
        exact hlt hj
      have hxl : x ∈ l := by
        rcases List.mem_append.1 hx with h | h
        · exact h
        · exact absurd (List.mem_singleton.1 h) hxy
      exact ih (fun x hx y hy => hd x (List.mem_append_left _ hx) y (List.mem_append_left _ hy)) hxl

/-- The loop copies the lines from `k` on. -/
theorem copyLines_eq {f : UInt64 → Memory → Memory} {patchSize elementsPerLine : UInt64} {N c : Nat}
    (hsize : patchSize.toNat = N * c) (hline : elementsPerLine.toNat = c) (hc : 0 < c) (hlt : N * c < 2 ^ 63) (n k : Nat)
    (hk : k + n = N) (m : Memory) : copyLines f patchSize elementsPerLine (n + 1) (UInt64.ofNat (k * c)) m =
      some ((List.range' k n).foldl (fun m k => f (UInt64.ofNat (k * c)) m) m) := by
  have hkc : k * c ≤ N * c := Nat.mul_le_mul_right c (by omega)
  have hi : (UInt64.ofNat (k * c)).toNat = k * c := by
    rw [UInt64.toNat_ofNat', Nat.mod_eq_of_lt (by omega)]
  induction n generalizing k m with
  | zero =>
    obtain rfl : k = N := hk
    unfold copyLines
    rw [if_neg]
    · rfl
    · rw [UInt64.lt_iff_toNat_lt, hi, hsize]
      exact Nat.lt_irrefl _
  | succ n ih =>
    have hstep : k * c + c ≤ N * c := by
      have := Nat.mul_le_mul_right c (show k + 1 ≤ N by omega)
      rwa [Nat.succ_mul] at this
    have hnext : UInt64.ofNat (k * c) + elementsPerLine = UInt64.ofNat ((k + 1) * c) := by
      rw [Nat.succ_mul, UInt64.ofNat_add, ← hline, UInt64.ofNat_toNat]
    unfold copyLines
    rw [if_pos]
    · rw [hnext, ih (k + 1) (by omega) (f (UInt64.ofNat (k * c)) m) (by rw [Nat.succ_mul]; exact hstep)
        (by rw [UInt64.toNat_ofNat', Nat.mod_eq_of_lt]; rw [Nat.succ_mul]; omega), List.range'_succ, List.foldl_cons]
    · rw [UInt64.lt_iff_toNat_lt, hi, hsize]
      omega

namespace TensorDesc

variable {t : TensorDesc} {P : TensorView}

theorem headD_tensorStrides (s : Int32) {dims : List UInt32} (h : dims ≠ []) : (tensorStrides s dims).headD 0 = s := by
  cases dims with
  | nil => exact absurd rfl h
  | cons d dims => rfl

theorem headD_of_create {dims : List UInt64} {ty : TensorDataType} {f : Int8} (h : vxCreateTensor dims ty f = some t) :
    t.stride.headD 0 = Int32.ofNat t.elementSize := by
  unfold vxCreateTensor at h
  split at h
  · cases h
  · rename_i hlen
    cases h
    apply headD_tensorStrides
    intro h0
    rw [List.map_eq_nil_iff] at h0
    rw [h0] at hlen
    exact hlen (.inl Nat.one_pos)

/-- The first stride is that of an element. -/
theorem Created.headD_stride (h : t.Created) : t.stride.headD 0 = Int32.ofNat t.elementSize := by
  induction h with
  | vxCreateTensor h => exact headD_of_create h
  | @vxCreateTensorFromROI I rect f t h =>
    unfold ImageDesc.vxCreateTensorFromROI at h
    split at h
    · cases h
    · obtain ⟨tensorType, -, h⟩ := Option.bind_eq_some_iff.1 h
      dsimp only at h
      split at h
      · cases h
      · obtain ⟨u, hu, rfl⟩ := Option.map_eq_some_iff.1 h
        show u.stride.headD 0 = Int32.ofNat u.elementSize
        exact headD_of_create hu
  | memory _ _ ih => exact ih
  | vxSetTensorAttribute _ _ _ _ ih => exact ih

theorem elementSize_bounds (t : TensorDesc) : 0 < t.elementSize ∧ t.elementSize ≤ 8 := by
  unfold elementSize
  cases t.dataType <;> decide

theorem toInt_elementSize (t : TensorDesc) : (Int32.ofNat t.elementSize).toInt = t.elementSize := by
  unfold elementSize
  cases t.dataType <;> rfl

/-- A view `a :: Q` whose first dimension has the elements of a line. -/
structure Lines (t : TensorDesc) (a : ViewAxis) (Q : TensorView) (stride : List Int32) : Prop where
  strides : t.stride = Int32.ofNat t.elementSize :: stride
  len : Q.length ≤ stride.length
  fits : ∀ b ∈ a :: Q, b.Fits
  user : a.userStride.toNat = t.elementSize

theorem lines_of_accepts (h : t.Created) (ha : t.acceptsPatch P = true) :
    ∃ a Q stride, P = a :: Q ∧ Lines t a Q stride := by
  unfold acceptsPatch at ha
  simp only [Bool.and_eq_true, Bool.not_eq_true', Bool.or_eq_false_iff, decide_eq_false_iff_not, Nat.not_lt, beq_iff_eq] at ha
  obtain ⟨⟨⟨⟨hlen, hpos⟩, hsizes⟩, -⟩, huser⟩ := ha
  have hfits := TensorView.fits_of_checkSizes hlen hsizes
  rw [← h.laidOut.lengths] at hlen
  have hhead := h.headD_stride
  cases P with
  | nil => cases hpos
  | cons a Q =>
    cases hs : t.stride with
    | nil =>
      rw [hs] at hlen
      cases hlen
    | cons s stride =>
      rw [hs] at hhead hlen huser
      obtain rfl : s = Int32.ofNat t.elementSize := hhead
      refine ⟨a, Q, stride, rfl, hs, Nat.le_of_succ_le_succ hlen, hfits, ?_⟩
      have huser : a.userStride = (Int32.ofNat t.elementSize).toInt64.toUInt64 := huser
      have he := t.elementSize_bounds
      rw [huser, toInt64_toUInt64, toNat_ofInt, toInt_elementSize]
      omega

section Lines

variable {a : ViewAxis} {Q : TensorView} {stride : List Int32}

theorem Lines.userAxes (L : Lines t a Q stride) :
    TensorView.userAxes (a :: Q) = ⟨a.count, t.elementSize⟩ :: TensorView.userAxes Q := by
  rw [← L.user]
  rfl

theorem Lines.viewAxes (L : Lines t a Q stride) :
    t.viewAxes (a :: Q) = ⟨a.count, t.elementSize⟩ :: TensorView.strideAxes Q stride := by
  unfold TensorDesc.viewAxes
  rw [L.strides, ← toInt_elementSize]
  rfl

theorem Lines.count_pos (L : Lines t a Q stride) : 0 < a.count := (L.fits a List.mem_cons_self).count_pos

theorem Lines.line_le (L : Lines t a Q stride) : t.elementSize * a.count ≤ 2 ^ 64 := by
  have h1 := (L.fits a List.mem_cons_self).count_lt
  have h2 := Nat.mul_le_mul t.elementSize_bounds.2 h1.le
  omega

theorem natCast_two_pow : ((2 ^ 64 : Nat) : Int) = 2 ^ 64 := by norm_num

/-- The elements share no bytes in the buffer of the user where its lines are apart. -/
theorem Lines.user_iff (L : Lines t a Q stride) :
    (∀ v w, Axis.IsIndex v (TensorView.userAxes (a :: Q)) → Axis.IsIndex w (TensorView.userAxes (a :: Q)) → v ≠ w →
      ∀ j < t.elementSize, ∀ k < t.elementSize, TensorView.userByte (a :: Q) v j ≠ TensorView.userByte (a :: Q) w k) ↔
      Axis.Apart (2 ^ 64) (t.elementSize * a.count) (TensorView.userAxes Q) := by
  rw [← Axis.separate_cons_iff t.elementSize_bounds.1 L.count_pos L.line_le, ← L.userAxes]
  unfold Axis.Separate TensorView.userByte
  simp only [Ne, ofInt_inj, natCast_two_pow]

/-- The elements share no bytes in the tensor where its lines are apart. -/
theorem Lines.tensor_iff (L : Lines t a Q stride) :
    (∀ v w, Axis.IsIndex v (t.viewAxes (a :: Q)) → Axis.IsIndex w (t.viewAxes (a :: Q)) → v ≠ w →
      ∀ j < t.elementSize, ∀ k < t.elementSize, t.tensorByte (a :: Q) v j ≠ t.tensorByte (a :: Q) w k) ↔
      Axis.Apart (2 ^ 64) (t.elementSize * a.count) (TensorView.strideAxes Q stride) := by
  rw [← Axis.separate_cons_iff t.elementSize_bounds.1 L.count_pos L.line_le, ← L.viewAxes]
  unfold Axis.Separate tensorByte
  simp only [Ne, ofInt_inj, natCast_two_pow, add_assoc, Int.emod_add_cancel_left]

theorem strideAxes_fits {Q : TensorView} {stride : List Int32} (hQ : ∀ b ∈ Q, b.Fits) (M : Nat) (hM : M < 2 ^ 32) :
    ∀ c ∈ Q.strideAxes stride, 0 < c.count ∧ c.stride.natAbs + M ≤ 2 ^ 64 := by
  intro c hc
  obtain ⟨b, s, hbs, rfl⟩ : ∃ b s, (b, s) ∈ Q.zip stride ∧ c = ⟨ViewAxis.count b, Int32.toInt s⟩ := by
    unfold TensorView.strideAxes at hc
    rw [← List.map_uncurry_zip_eq_zipWith] at hc
    obtain ⟨⟨b, s⟩, hbs, rfl⟩ := List.mem_map.1 hc
    exact ⟨b, s, hbs, rfl⟩
  refine ⟨(hQ b (List.of_mem_zip hbs).1).count_pos, ?_⟩
  have h1 := s.le_toInt
  have h2 := s.toInt_lt
  show s.toInt.natAbs + M ≤ 2 ^ 64
  omega

theorem Lines.viewAxes_fits (L : Lines t a Q stride) : ∀ c ∈ t.viewAxes (a :: Q),
    0 < c.count ∧ c.stride.natAbs + t.memSize.toNat ≤ 2 ^ 64 :=
  strideAxes_fits L.fits _ t.memSize.toNat_lt

/-- The bytes of an element are in the memory where its last byte is. -/
theorem bytes_below_iff {x : Int} {e M : Nat} (he : 0 < e) (hM : M < 2 ^ 32) :
    (∀ k < e, (UInt64.ofInt (x + (k : Nat))).toNat < M) ↔ x % (2 ^ 64 : Nat) + e ≤ M := by
  simp only [toNat_ofInt]
  constructor
  · intro h
    have h0 := h 0 he
    by_contra hlt
    -- the first byte that is not in the memory
    have hk := h (M - (x % 2 ^ 64).toNat) (by omega)
    omega
  · intro h k hk
    omega

/-- The elements are in the memory where the lowest is, with the span of the strides. -/
theorem Lines.inMemory_iff (L : Lines t a Q stride) :
    (∀ v, Axis.IsIndex v (t.viewAxes (a :: Q)) → ∀ k < t.elementSize, (t.tensorByte (a :: Q) v k).toNat < t.memSize.toNat) ↔
      (TensorView.startPlace (a :: Q) t.stride + Axis.lowest (t.viewAxes (a :: Q))) % (2 ^ 64 : Nat) +
        (Axis.span (t.viewAxes (a :: Q)) : Nat) + t.elementSize ≤ t.memSize.toNat := by
  rw [← Axis.below_iff (by decide) L.viewAxes_fits t.elementSize_bounds.1]
  unfold tensorByte
  simp only [bytes_below_iff t.elementSize_bounds.1 t.memSize.toNat_lt]

/-! ### A line at a time -/

theorem elementsPerLine_eq (L : Lines t a Q stride) : (elementsPerLine (a :: Q)).toUInt64.toNat = a.count := by
  rw [UInt32.toNat_toUInt64]
  have h := (L.fits a List.mem_cons_self).divisor_toUInt32
  unfold ViewAxis.divisor at h
  rwa [Int32.toUInt32_sub, UInt32.toUInt32_toInt32, UInt32.toUInt32_toInt32] at h

theorem Lines.bytesPerLine_eq (L : Lines t a Q stride) (h : t.elementSize * a.count < 2 ^ 32) :
    (t.bytesPerLine (a :: Q)).toNat = t.elementSize * a.count := by
  have hline := elementsPerLine_eq L
  rw [UInt32.toNat_toUInt64] at hline
  have he := t.elementSize_bounds
  unfold bytesPerLine
  rw [UInt32.toNat_mul, hline, L.strides]
  show (Int32.ofNat t.dataType.ownSizeOfEnumType).toUInt32.toNat * a.count % 2 ^ 32 = _
  rw [size_toUInt32, Nat.mod_mul_mod]
  exact Nat.mod_eq_of_lt h

theorem tensorByte_line (L : Lines t a Q stride) (j k : Nat) (u : List Nat) :
    t.tensorByte (a :: Q) (j :: u) k = t.tensorByte (a :: Q) (0 :: u) 0 + UInt64.ofNat (t.elementSize * j + k) := by
  unfold tensorByte
  rw [L.viewAxes, Axis.place_cons, Axis.place_cons, ← ofInt_ofNat, ← UInt64.ofInt_add]
  congr 1
  push_cast
  ring

theorem userByte_line (L : Lines t a Q stride) (j k : Nat) (u : List Nat) :
    TensorView.userByte (a :: Q) (j :: u) k =
      TensorView.userByte (a :: Q) (0 :: u) 0 + UInt64.ofNat (t.elementSize * j + k) := by
  unfold TensorView.userByte
  rw [L.userAxes, Axis.place_cons, Axis.place_cons, ← ofInt_ofNat, ← UInt64.ofInt_add]
  congr 1
  push_cast
  ring

/-- The positions of a line. -/
theorem Lines.positions_eq (L : Lines t a Q stride) (hsize : TensorView.size (a :: Q) < 2 ^ 32) {k : Nat}
    (hk : k < TensorView.size Q) : TensorView.ownComputePositionsFromIndex (UInt64.ofNat (k * a.count)) t.stride (a :: Q) =
      (t.tensorByte (a :: Q) (0 :: TensorView.indexAt Q k) 0, TensorView.userByte (a :: Q) (0 :: TensorView.indexAt Q k) 0) := by
  have hn : k * a.count < TensorView.size (a :: Q) := by
    rw [TensorView.size_cons, Nat.mul_comm a.count]
    exact Nat.mul_lt_mul_of_pos_right hk L.count_pos
  have hlen : (a :: Q).length ≤ t.stride.length := by
    rw [L.strides]
    exact Nat.succ_le_succ L.len
  have hidx : TensorView.indexAt (a :: Q) (k * a.count) = 0 :: TensorView.indexAt Q k := by
    show k * a.count % a.count :: TensorView.indexAt Q (k * a.count / a.count) = _
    rw [Nat.mul_mod_left, Nat.mul_div_cancel _ L.count_pos]
  rw [TensorView.positions_eq L.fits hlen hsize hn, hidx]
  unfold tensorByte TensorView.userByte
  rw [Nat.cast_zero, add_zero, add_zero]
  rfl

/-- What the loop copies, where the lines are put to places that share no bytes. -/
theorem Lines.copyLines_spec (L : Lines t a Q stride) (hsize : TensorView.size (a :: Q) < 2 ^ 32)
    (hline : t.elementSize * a.count < 2 ^ 32) {line : UInt64 → Memory → Memory} {src : Memory} {D S : List Nat → UInt64}
    (heq : ∀ k < TensorView.size Q, ∀ m, line (UInt64.ofNat (k * a.count)) m =
      copyLine m src (D (TensorView.indexAt Q k)) (S (TensorView.indexAt Q k)) (t.elementSize * a.count))
    (hd : ∀ u w, Axis.IsIndex u (TensorView.userAxes Q) → Axis.IsIndex w (TensorView.userAxes Q) → u ≠ w →
      ∀ j < t.elementSize * a.count, ∀ k < t.elementSize * a.count, D u + UInt64.ofNat j ≠ D w + UInt64.ofNat k) (m : Memory) :
    ∃ m', copyLines line (TensorView.ownComputePatchSize (a :: Q)) (elementsPerLine (a :: Q)).toUInt64
        (TensorView.size Q + 1) 0 m = some m' ∧
      ∀ u, Axis.IsIndex u (TensorView.userAxes Q) → ∀ x < t.elementSize * a.count,
        m' (D u + UInt64.ofNat x) = src (S u + UInt64.ofNat x) := by
  have hQ : ∀ b ∈ Q, b.Fits := fun b hb => L.fits b (List.mem_cons_of_mem a hb)
  have hpos : ∀ c ∈ TensorView.userAxes Q, 0 < c.count := by
    intro c hc
    obtain ⟨b, hb, rfl⟩ := List.mem_map.1 hc
    exact (hQ b hb).count_pos
  have hpatch : (TensorView.ownComputePatchSize (a :: Q)).toNat = TensorView.size Q * a.count := by
    rw [TensorView.patchSize_eq L.fits (by omega), TensorView.size_cons, Nat.mul_comm]
  rw [TensorView.size_cons, Nat.mul_comm] at hsize
  have hrun := copyLines_eq (f := line) hpatch (elementsPerLine_eq L) L.count_pos (by omega) (TensorView.size Q) 0
    (Nat.zero_add _) m
  rw [Nat.zero_mul] at hrun
  refine ⟨_, hrun, ?_⟩
  intro u hu x hx
  have hlines : (List.range' 0 (TensorView.size Q)).foldl (fun m k => line (UInt64.ofNat (k * a.count)) m) m =
      (List.range' 0 (TensorView.size Q)).foldl (fun m k =>
        copyLine m src (D (TensorView.indexAt Q k)) (S (TensorView.indexAt Q k)) (t.elementSize * a.count)) m := by
    apply List.foldl_ext
    intro m k hk
    exact heq k (by have := List.mem_range'_1.1 hk; omega) m
  have hidx : TensorView.indexAt Q (Axis.rank (TensorView.userAxes Q) u) = u := Axis.indexAt_rank hu
  rw [hlines]
  have hcopied := foldl_copyLine (D := fun k => D (TensorView.indexAt Q k)) (S := fun k => S (TensorView.indexAt Q k))
    (l := List.range' 0 (TensorView.size Q)) (s := src) (n := t.elementSize * a.count) (by omega) ?_ m
    (x := Axis.rank (TensorView.userAxes Q) u) ?_ hx
  · rwa [hidx] at hcopied
  · intro y hy z hz hyz
    have hy : y < TensorView.size Q := by
      have := List.mem_range'_1.1 hy
      omega
    have hz : z < TensorView.size Q := by
      have := List.mem_range'_1.1 hz
      omega
    apply hd _ _ (Axis.isIndex_indexAt hpos y) (Axis.isIndex_indexAt hpos z)
    intro heq
    apply hyz
    rw [← Axis.rank_indexAt hy, ← Axis.rank_indexAt hz]
    exact congrArg _ heq
  · apply List.mem_range'_1.2
    have := Axis.rank_lt hu
    exact ⟨Nat.zero_le _, by rw [Nat.zero_add]; exact this⟩

theorem tensorOffset_eq (P : TensorView) (stride : List Int32) :
    ownComputeTensorOffset (P.map ViewAxis.viewStart) stride = UInt32.ofInt (P.startPlace stride) := by
  induction P generalizing stride with
  | nil => cases stride <;> rfl
  | cons a P ih =>
    cases stride with
    | nil => rfl
    | cons s stride =>
      have hs : UInt32.ofInt s.toInt = s.toUInt32 := by
        apply UInt32.toNat_inj.1
        have hlt := s.toUInt32.toNat_lt
        have hint := toInt_eq_ite (s := s) (Nat.mod_eq_of_lt hlt).symm hlt
        unfold UInt32.ofInt
        rw [UInt32.toNat_ofNat', hint]
        split <;> omega
      have ha : UInt32.ofInt a.viewStart.toNat = a.viewStart.toUInt32 := by
        apply UInt32.toNat_inj.1
        unfold UInt32.ofInt
        rw [UInt32.toNat_ofNat', UInt64.toNat_toUInt32]
        omega
      show s.toUInt32 * a.viewStart.toUInt32 + ownComputeTensorOffset (P.map ViewAxis.viewStart) stride =
        UInt32.ofInt (s.toInt * a.viewStart.toNat + TensorView.startPlace P stride)
      rw [ih, UInt32.ofInt_add, UInt32.ofInt_mul, hs, ha]

/-- The pointer of a map is that of the first element, where this is in the memory. -/
theorem mapByte_eq (h : P.startPlace t.stride % (2 ^ 64 : Nat) < 2 ^ 32) (v : List Nat) (k : Nat) :
    t.mapByte P v k = t.tensorByte P v k := by
  have hstart : (UInt32.ofInt (P.startPlace t.stride)).toUInt64 = UInt64.ofInt (P.startPlace t.stride) := by
    apply UInt64.toNat_inj.1
    rw [UInt32.toNat_toUInt64, toNat_ofInt]
    unfold UInt32.ofInt
    rw [UInt32.toNat_ofNat']
    omega
  unfold mapByte tensorByte
  rw [tensorOffset_eq, hstart, ← UInt64.ofInt_add, add_assoc]

theorem Lines.counts (L : Lines t a Q stride) :
    (t.viewAxes (a :: Q)).map Axis.count = (TensorView.userAxes (a :: Q)).map Axis.count := by
  rw [TensorView.map_count_userAxes]
  apply TensorView.map_count_strideAxes
  rw [L.strides]
  exact Nat.succ_le_succ L.len

theorem Lines.size_le (L : Lines t a Q stride)
    (hap : Axis.Apart (2 ^ 64) (t.elementSize * a.count) (TensorView.strideAxes Q stride))
    (hM : (TensorView.startPlace (a :: Q) t.stride + Axis.lowest (t.viewAxes (a :: Q))) % (2 ^ 64 : Nat) +
      (Axis.span (t.viewAxes (a :: Q)) : Nat) + t.elementSize ≤ t.memSize.toNat) :
    TensorView.size (a :: Q) * t.elementSize ≤ t.memSize.toNat := by
  have hsep := (Axis.separate_cons_iff t.elementSize_bounds.1 L.count_pos L.line_le).2 hap
  rw [← L.viewAxes] at hsep
  have hbelow := (Axis.below_iff (by decide) L.viewAxes_fits t.elementSize_bounds.1).2 hM
  have hsize := Axis.size_mul_le (fun c hc => (L.viewAxes_fits c hc).1) (by decide) hsep hbelow
    (t.memSize.toNat_lt.le.trans (by decide))
  rwa [Axis.size_congr L.counts] at hsize

/-- A line of bytes is one of elements. -/
theorem exists_byte {e c x : Nat} (he : 0 < e) (hx : x < e * c) : ∃ j < c, ∃ k < e, x = e * j + k :=
  ⟨x / e, Nat.div_lt_of_lt_mul hx, x % e, Nat.mod_lt x he, (Nat.div_add_mod x e).symm⟩

theorem isIndex_cons {j : Nat} {u : List Nat} (hj : j < a.count) (hu : Axis.IsIndex u (TensorView.userAxes Q)) :
    Axis.IsIndex (j :: u) (TensorView.userAxes (a :: Q)) := .cons hj hu

/-- What is written, where the elements share no bytes in the tensor. -/
theorem Lines.write_spec (L : Lines t a Q stride) (hsize : TensorView.size (a :: Q) < 2 ^ 32)
    (hline : t.elementSize * a.count < 2 ^ 32) (ht : ∀ v w, Axis.IsIndex v (t.viewAxes (a :: Q)) →
      Axis.IsIndex w (t.viewAxes (a :: Q)) → v ≠ w → ∀ j < t.elementSize, ∀ k < t.elementSize,
        t.tensorByte (a :: Q) v j ≠ t.tensorByte (a :: Q) w k) (mem user : Memory) :
    ∃ mem', t.writePatch (a :: Q) (TensorView.size Q + 1) mem user = some mem' ∧
      ∀ v, Axis.IsIndex v (t.viewAxes (a :: Q)) → ∀ k < t.elementSize,
        mem' (t.tensorByte (a :: Q) v k) = user (TensorView.userByte (a :: Q) v k) := by
  have he := t.elementSize_bounds.1
  have hlines : ∀ k < TensorView.size Q, ∀ m, t.writeLine (a :: Q) user (UInt64.ofNat (k * a.count)) m =
      copyLine m user (t.tensorByte (a :: Q) (0 :: TensorView.indexAt Q k) 0)
        (TensorView.userByte (a :: Q) (0 :: TensorView.indexAt Q k) 0) (t.elementSize * a.count) := by
    intro k hk m
    unfold writeLine
    rw [L.positions_eq hsize hk, L.bytesPerLine_eq hline]
  obtain ⟨mem', hrun, hmem⟩ := L.copyLines_spec (D := fun u => t.tensorByte (a :: Q) (0 :: u) 0)
    (S := fun u => TensorView.userByte (a :: Q) (0 :: u) 0) hsize hline hlines (by
      intro u w hu hw hne j hj k hk
      obtain ⟨i, hi, x, hx, rfl⟩ := exists_byte he hj
      obtain ⟨i', hi', x', hx', rfl⟩ := exists_byte he hk
      rw [← tensorByte_line L, ← tensorByte_line L]
      exact ht _ _ ((Axis.isIndex_congr L.counts).2 (isIndex_cons hi hu)) ((Axis.isIndex_congr L.counts).2 (isIndex_cons hi' hw))
        (fun heq => hne (List.cons.inj heq).2) x hx x' hx') mem
  refine ⟨mem', hrun, ?_⟩
  intro v hv k hk
  cases (Axis.isIndex_congr L.counts).1 hv with
  | @cons j _ u _ hj hu =>
    rw [tensorByte_line L, userByte_line L]
    exact hmem u hu _ (Axis.byte_lt hj hk)

/-- What is read, where the elements share no bytes in the buffer of the user. -/
theorem Lines.read_spec (L : Lines t a Q stride) (hsize : TensorView.size (a :: Q) < 2 ^ 32)
    (hline : t.elementSize * a.count < 2 ^ 32) (hu : ∀ v w, Axis.IsIndex v (TensorView.userAxes (a :: Q)) →
      Axis.IsIndex w (TensorView.userAxes (a :: Q)) → v ≠ w → ∀ j < t.elementSize, ∀ k < t.elementSize,
        TensorView.userByte (a :: Q) v j ≠ TensorView.userByte (a :: Q) w k) (mem user : Memory) :
    ∃ user', t.readPatch (a :: Q) (TensorView.size Q + 1) mem user = some user' ∧
      ∀ v, Axis.IsIndex v (t.viewAxes (a :: Q)) → ∀ k < t.elementSize,
        user' (TensorView.userByte (a :: Q) v k) = mem (t.tensorByte (a :: Q) v k) := by
  have he := t.elementSize_bounds.1
  have hlines : ∀ k < TensorView.size Q, ∀ m, t.readLine (a :: Q) mem (UInt64.ofNat (k * a.count)) m =
      copyLine m mem (TensorView.userByte (a :: Q) (0 :: TensorView.indexAt Q k) 0)
        (t.tensorByte (a :: Q) (0 :: TensorView.indexAt Q k) 0) (t.elementSize * a.count) := by
    intro k hk m
    unfold readLine
    rw [L.positions_eq hsize hk, L.bytesPerLine_eq hline]
  obtain ⟨user', hrun, huser⟩ := L.copyLines_spec (D := fun u => TensorView.userByte (a :: Q) (0 :: u) 0)
    (S := fun u => t.tensorByte (a :: Q) (0 :: u) 0) hsize hline hlines (by
      intro u w hiu hiw hne j hj k hk
      obtain ⟨i, hi, x, hx, rfl⟩ := exists_byte he hj
      obtain ⟨i', hi', x', hx', rfl⟩ := exists_byte he hk
      rw [← userByte_line L, ← userByte_line L]
      exact hu _ _ (isIndex_cons hi hiu) (isIndex_cons hi' hiw) (fun heq => hne (List.cons.inj heq).2) x hx x' hx') user
  refine ⟨user', hrun, ?_⟩
  intro v hv k hk
  cases (Axis.isIndex_congr L.counts).1 hv with
  | @cons j _ u _ hj hu =>
    rw [tensorByte_line L, userByte_line L]
    exact huser u hu _ (Axis.byte_lt hj hk)

/-- The first element is in the memory. -/
theorem Lines.startPlace_lt (L : Lines t a Q stride)
    (hM : (TensorView.startPlace (a :: Q) t.stride + Axis.lowest (t.viewAxes (a :: Q))) % (2 ^ 64 : Nat) +
      (Axis.span (t.viewAxes (a :: Q)) : Nat) + t.elementSize ≤ t.memSize.toNat) :
    TensorView.startPlace (a :: Q) t.stride % (2 ^ 64 : Nat) < 2 ^ 32 := by
  have hbelow := (Axis.below_iff (by decide) L.viewAxes_fits t.elementSize_bounds.1).2 hM
  have h0 := hbelow _ (Axis.isIndex_indexAt (fun c hc => (L.viewAxes_fits c hc).1) 0)
  rw [Axis.place_indexAt_zero, add_zero] at h0
  have := t.memSize.toNat_lt
  omega

/-- **A view is copied right exactly when it fits**. -/
theorem patchOk_iff (h : t.Created) (ha : t.acceptsPatch P = true) : t.PatchOk P ↔ t.PatchFits P := by
  obtain ⟨a, Q, stride, rfl, L⟩ := lines_of_accepts h ha
  constructor
  · intro hok
    refine ⟨?_, ?_, ?_⟩
    · exact L.user_iff.1 hok.user
    · rw [L.viewAxes]
      exact L.tensor_iff.1 hok.tensor
    · exact L.inMemory_iff.1 hok.inMemory
  · rintro ⟨hU, hT, hM⟩
    rw [L.viewAxes] at hT
    have hu := L.user_iff.2 hU
    have ht := L.tensor_iff.2 hT
    have hm := L.inMemory_iff.2 hM
    -- the elements are counted in 32 bits
    have he := t.elementSize_bounds
    have hQpos := TensorView.size_pos (fun b hb => L.fits b (List.mem_cons_of_mem a hb))
    have hlt := Nat.lt_of_le_of_lt (L.size_le hT hM) t.memSize.toNat_lt
    have hsize : TensorView.size (a :: Q) < 2 ^ 32 := Nat.lt_of_le_of_lt (Nat.le_mul_of_pos_right _ he.1) hlt
    have hline : t.elementSize * a.count < 2 ^ 32 := by
      rw [TensorView.size_cons, Nat.mul_comm, ← Nat.mul_assoc] at hlt
      exact Nat.lt_of_le_of_lt (Nat.le_mul_of_pos_right _ hQpos) hlt
    refine ⟨hu, ht, hm, ?_⟩
    intro mem user user'
    obtain ⟨mem', hwrite, hmem⟩ := L.write_spec hsize hline ht mem user
    obtain ⟨user'', hread, huser⟩ := L.read_spec hsize hline hu mem' user'
    refine ⟨_, mem', user'', hwrite, hread, ?_⟩
    intro v hv k hk
    rw [mapByte_eq (L.startPlace_lt hM), huser v hv k hk, hmem v hv k hk]
    exact ⟨rfl, rfl⟩

end Lines

/-- The last three columns of a tensor of 4x2 bytes, to a buffer with rows of 16 bytes. -/
theorem patch_plain : ∃ t, vxCreateTensor [4, 2] .uint8 0 = some t ∧
    t.PatchOk [⟨1, 4, 1⟩, ⟨0, 2, 16⟩] := by
  refine ⟨ownInitTensorObject [4, 2] .uint8 0, rfl, ?_⟩
  have hcreate : vxCreateTensor [4, 2] .uint8 0 = some (ownInitTensorObject [4, 2] .uint8 0) := rfl
  apply (patchOk_iff (.vxCreateTensor hcreate) (by decide)).2
  have huser : Axis.Nested (2 ^ 64) 3 [⟨2, 16⟩] := ⟨by decide, Axis.nested_nil.2 (by decide)⟩
  have htensor : Axis.Nested (2 ^ 64) 3 [⟨2, 4⟩] := ⟨by decide, Axis.nested_nil.2 (by decide)⟩
  exact ⟨huser.apart (by decide), htensor.apart (by decide), by decide⟩

/-- The rows of a tensor of 4x2 halfwords overlap in a buffer with rows of four bytes, which are as many as there are elements; of
65537x65536 bytes only 65536 are allocated; and the rows of a region go on beyond its size. -/
theorem patch_not_ok :
    (∃ t, vxCreateTensor [4, 2] .int16 0 = some t ∧ t.acceptsPatch [⟨0, 4, 2⟩, ⟨0, 2, 4⟩] = true ∧
      ¬ t.PatchOk [⟨0, 4, 2⟩, ⟨0, 2, 4⟩]) ∧
    (∃ t, vxCreateTensor [65537, 65536] .uint8 0 = some t ∧ t.acceptsPatch [⟨0, 65537, 1⟩, ⟨0, 2, 65537⟩] = true ∧
      ¬ t.PatchOk [⟨0, 65537, 1⟩, ⟨0, 2, 65537⟩]) ∧
    (leftHalf 0x100000).Created ∧ (leftHalf 0x100000).acceptsPatch [⟨0, 320, 1⟩, ⟨0, 480, 320⟩] = true ∧
      ¬ (leftHalf 0x100000).PatchOk [⟨0, 320, 1⟩, ⟨0, 480, 320⟩] := by
  refine ⟨⟨ownInitTensorObject [4, 2] .int16 0, rfl, by decide, ?_⟩,
    ⟨ownInitTensorObject [65537, 65536] .uint8 0, rfl, by decide, ?_⟩, ?_, by decide, ?_⟩
  · -- the third element of the first row and the first one of the second
    intro hok
    exact hok.user [2, 0] [0, 1] (.cons (by decide) (.cons (by decide) .nil)) (.cons (by decide) (.cons (by decide) .nil))
      (by decide) 0 (by decide) 0 (by decide) (by decide)
  · intro hok
    have := hok.inMemory [65536, 0] (.cons (by decide) (.cons (by decide) .nil)) 0 (by decide)
    exact absurd this (by decide)
  · have hroi : ((ownInitImage 640 480 .u8).ownAllocImageBuffer 0x100000).vxCreateTensorFromROI (some ⟨0, 0, 320, 480⟩) 0 =
        some (leftHalf 0x100000) := by decide
    exact .vxCreateTensorFromROI hroi
  · intro hok
    have := hok.inMemory [0, 479] (.cons (by decide) (.cons (by decide) .nil)) 0 (by decide)
    exact absurd this (by decide)

end TensorDesc

end Tiovx
