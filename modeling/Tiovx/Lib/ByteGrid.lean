import Mathlib.Tactic.Common
import Mathlib.Tactic.Ring
import Tiovx.Lib.ByteMemory
/-!
# Lib.ByteGrid — cells in the rows of a buffer

A grid has rows at the multiples of a stride, and in each row cells at the multiples of a step.  A grid is copied to another one as
a whole, row by row or cell by cell; each way moves exactly the bytes of the cells where the sizes leave no gap.
-/

/-- Rows of cells from `base` on. -/
structure ByteGrid where
  base : Int
  stride : Nat
  rows : Nat
  step : Nat
  cells : Nat
  bytes : Nat

namespace ByteGrid

/-- Byte `b` of cell `k` in row `r`. -/
def place (g : ByteGrid) (r k b : Nat) : Int := g.base + (g.stride * r + g.step * k + b : Nat)

/-- The byte is in a cell. -/
def Area (g : ByteGrid) (a : Int) : Prop := ∃ r < g.rows, ∃ k < g.cells, ∃ b < g.bytes, a = g.place r k b

/-- There are cells, and the cells of a row end before the next one. -/
structure Fits (g : ByteGrid) : Prop where
  rows : 0 < g.rows
  cells : 0 < g.cells
  bytes : 0 < g.bytes
  last : g.step * (g.cells - 1) + g.bytes ≤ g.stride
  row : g.step * g.cells ≤ g.stride

/-- The cells of a grid are taken from those of another, and nothing is taken elsewhere. -/
def CopiedBy (g h : ByteGrid) (l : List BlockCopy) : Prop :=
  (∀ r < h.rows, ∀ k < h.cells, ∀ b < h.bytes, ∃ c ∈ l, c.Takes (g.place r k b) (h.place r k b)) ∧
    ∀ c ∈ l, ∀ s a, c.Takes s a → h.Area a

/-- The whole buffer. -/
def wholeCopy (g h : ByteGrid) : List BlockCopy := [⟨g.base, h.base, h.stride * h.rows⟩]

/-- `len` bytes of each row. -/
def rowCopies (g h : ByteGrid) (len : Nat) : List BlockCopy :=
  (List.range h.rows).map (fun r : Nat => ⟨g.base + (g.stride * r : Nat), h.base + (h.stride * r : Nat), len⟩)

/-- As many bytes from each cell as are from one to the next. -/
def cellCopies (g h : ByteGrid) : List BlockCopy :=
  (List.range h.rows).flatMap (fun r : Nat => (List.range h.cells).map (fun k : Nat =>
    ⟨g.base + (g.stride * r + g.step * k : Nat), h.base + (h.stride * r + h.step * k : Nat), h.step⟩))

variable {g h : ByteGrid}

/-- A place in a row tells the row. -/
theorem row_eq (stride r r' x x' : Nat) (hx : x < stride) (hx' : x' < stride) (he : stride * r + x = stride * r' + x') :
    r = r' ∧ x = x' := by
  have hpos : 0 < stride := Nat.zero_lt_of_lt hx
  have h1 : (stride * r + x) / stride = r := by rw [Nat.mul_add_div hpos, Nat.div_eq_of_lt hx, Nat.add_zero]
  have h2 : (stride * r' + x') / stride = r' := by rw [Nat.mul_add_div hpos, Nat.div_eq_of_lt hx', Nat.add_zero]
  have hr : r = r' := by rw [← h1, ← h2, he]
  subst hr
  exact ⟨rfl, Nat.add_left_cancel he⟩

theorem cell_lt (F : g.Fits) {k b : Nat} (hk : k < g.cells) (hb : b < g.bytes) : g.step * k + b < g.stride := by
  have h1 : g.step * k ≤ g.step * (g.cells - 1) := Nat.mul_le_mul_left _ (by omega)
  have h2 := F.last
  omega

theorem row_lt (stride x : Nat) {n r : Nat} (hr : r < n) (hx : x < stride) : stride * r + x < stride * n := by
  calc stride * r + x < stride * r + stride := Nat.add_lt_add_left hx _
    _ = stride * (r + 1) := (Nat.mul_succ _ _).symm
    _ ≤ stride * n := Nat.mul_le_mul_left _ hr

/-- The bytes of a row up to `len` are in cells exactly where no gap is between them and none after them. -/
theorem area_row_iff (F : h.Fits) {len : Nat} (hlen : 0 < len) (hle : len ≤ h.stride)
    (hcells : h.cells ≤ 1 ∨ h.step < len) :
    (∀ r < h.rows, ∀ x < len, h.Area (h.base + (h.stride * r + x : Nat))) ↔
      (h.cells ≤ 1 ∨ h.step ≤ h.bytes) ∧ len ≤ h.step * (h.cells - 1) + h.bytes := by
  have hpl : ∀ {r r' x k b : Nat}, x < len → k < h.cells → b < h.bytes → h.base + (h.stride * r + x : Nat) = h.place r' k b →
      x = h.step * k + b := by
    intro r r' x k b hx hk hb he
    have hcell := cell_lt F hk hb
    simp only [place] at he
    exact (row_eq h.stride r r' x (h.step * k + b) (by omega) hcell (by omega)).2
  constructor
  · intro hall
    constructor
    · by_contra hcon
      -- the byte after the first cell
      have hb : h.bytes < len := by omega
      obtain ⟨r', -, k, hk, b, hb', he⟩ := hall 0 F.rows h.bytes hb
      have hx := hpl hb hk hb' he
      rcases Nat.eq_zero_or_pos k with rfl | h0
      · omega
      · have := Nat.le_mul_of_pos_right h.step h0
        omega
    · obtain ⟨r', -, k, hk, b, hb', he⟩ := hall 0 F.rows (len - 1) (by omega)
      have hx := hpl (by omega) hk hb' he
      have : h.step * k ≤ h.step * (h.cells - 1) := Nat.mul_le_mul_left _ (by omega)
      omega
  · rintro ⟨hgap, hend⟩ r hr x hx
    by_cases hlast : h.step * (h.cells - 1) ≤ x
    · exact ⟨r, hr, h.cells - 1, by have := F.cells; omega, x - h.step * (h.cells - 1), by omega, by
        simp only [place]
        omega⟩
    · have hcpos : ¬ h.cells ≤ 1 := fun hc => hlast (by rw [show h.cells - 1 = 0 by omega, Nat.mul_zero]; omega)
      have hspos : 0 < h.step := by
        by_contra h0
        exact hlast (by rw [show h.step = 0 by omega, Nat.zero_mul]; omega)
      have hk : x / h.step < h.cells - 1 := Nat.div_lt_of_lt_mul (by omega)
      have hmod := Nat.mod_lt x hspos
      refine ⟨r, hr, x / h.step, by omega, x % h.step, by have := hgap.resolve_left hcpos; omega, ?_⟩
      have := Nat.div_add_mod x h.step
      simp only [place]
      omega

theorem place_eq (g : ByteGrid) (r k b : Nat) : g.place r k b = g.base + (g.stride * r + (g.step * k + b) : Nat) := by
  rw [place, Nat.add_assoc]

/-- The whole buffer has the cells of a grid with the same rows exactly where the cells are as far apart, and no gaps. -/
theorem copiedBy_whole_iff (F : h.Fits) (hs : g.stride = h.stride) :
    CopiedBy g h (wholeCopy g h) ↔ (h.cells ≤ 1 ∨ g.step = h.step) ∧ (h.cells ≤ 1 ∨ h.step ≤ h.bytes) ∧
      h.stride ≤ h.step * (h.cells - 1) + h.bytes := by
  have hpos := F.bytes
  have hlast := F.last
  have hcells : h.cells ≤ 1 ∨ h.step < h.stride := by
    by_cases hc : h.cells ≤ 1
    · exact .inl hc
    · have := Nat.le_mul_of_pos_right h.step (show 0 < h.cells - 1 by omega)
      exact .inr (by omega)
  have harea : (∀ c ∈ wholeCopy g h, ∀ s a, c.Takes s a → h.Area a) ↔
      ∀ r < h.rows, ∀ x < h.stride, h.Area (h.base + (h.stride * r + x : Nat)) := by
    simp only [wholeCopy, List.forall_mem_singleton]
    constructor
    · intro hall r hr x hx
      have := row_lt h.stride x hr hx
      exact hall (g.base + (h.stride * r + x : Nat)) _ ⟨by simp only []; omega, by simp only []; omega, by simp only []; omega⟩
    · rintro hall s a ⟨h1, h2, -⟩
      obtain ⟨o, rfl⟩ : ∃ o : Nat, a = h.base + o := ⟨(a - h.base).toNat, by simp only [] at h1; omega⟩
      have ho : o < h.stride * h.rows := by simp only [] at h2; omega
      have hspos : 0 < h.stride := by omega
      have := hall (o / h.stride) (Nat.div_lt_of_lt_mul ho) (o % h.stride) (Nat.mod_lt _ hspos)
      rwa [Nat.div_add_mod] at this
  have htaken : (∀ r < h.rows, ∀ k < h.cells, ∀ b < h.bytes, ∃ c ∈ wholeCopy g h, c.Takes (g.place r k b) (h.place r k b)) ↔
      (h.cells ≤ 1 ∨ g.step = h.step) := by
    simp only [wholeCopy, List.mem_singleton, exists_eq_left]
    constructor
    · intro hall
      by_cases hc : h.cells ≤ 1
      · exact .inl hc
      · obtain ⟨-, -, he⟩ := hall 0 F.rows 1 (by omega) 0 hpos
        simp only [place] at he
        exact .inr (by omega)
    · intro hst r hr k hk b hb
      have hcell := row_lt h.stride (h.step * k + b) hr (cell_lt F hk hb)
      have hmul : g.step * k = h.step * k := by
        rcases hst with hc | hst
        · rw [show k = 0 by omega, Nat.mul_zero, Nat.mul_zero]
        · rw [hst]
      simp only [place, hs, hmul]
      exact ⟨by simp only []; omega, by simp only []; omega, by simp only []; omega⟩
  rw [CopiedBy, htaken, harea, area_row_iff F (by omega) (Nat.le_refl _) hcells]

/-- Row by row the cells are copied exactly where they end with the bytes of the row, without gaps. -/
theorem copiedBy_rows_iff (F : h.Fits) {len : Nat} (hlen : 0 < len) (hle : len ≤ h.stride)
    (hcells : h.cells ≤ 1 ∨ g.step = h.step ∧ h.step < len) :
    CopiedBy g h (rowCopies g h len) ↔
      len = h.step * (h.cells - 1) + h.bytes ∧ (h.cells ≤ 1 ∨ h.step ≤ h.bytes) := by
  have hpos := F.bytes
  have harea : (∀ c ∈ rowCopies g h len, ∀ s a, c.Takes s a → h.Area a) ↔
      ∀ r < h.rows, ∀ x < len, h.Area (h.base + (h.stride * r + x : Nat)) := by
    simp only [rowCopies, List.forall_mem_map, List.mem_range]
    refine forall_congr' (fun r => forall_congr' (fun hr => ⟨fun hall x hx => ?_, fun hall s a hs => ?_⟩))
    · exact hall (g.base + (g.stride * r + x : Nat)) _ ⟨by simp only []; omega, by simp only []; omega, by simp only []; omega⟩
    · obtain ⟨h1, h2, -⟩ := hs
      simp only [] at h1 h2
      have := hall (a - (h.base + (h.stride * r : Nat))).toNat (by omega)
      rwa [show h.base + (h.stride * r + (a - (h.base + (h.stride * r : Nat))).toNat : Nat) = a by omega] at this
  have htaken : (∀ r < h.rows, ∀ k < h.cells, ∀ b < h.bytes, ∃ c ∈ rowCopies g h len, c.Takes (g.place r k b) (h.place r k b)) ↔
      h.step * (h.cells - 1) + h.bytes ≤ len := by
    constructor
    · intro hall
      obtain ⟨c, hc, h1, h2, -⟩ := hall 0 F.rows (h.cells - 1) (by have := F.cells; omega) (h.bytes - 1) (by omega)
      obtain ⟨r, hr, rfl⟩ := List.mem_map.1 hc
      have hcell := cell_lt F (show h.cells - 1 < h.cells by have := F.cells; omega) (show h.bytes - 1 < h.bytes by omega)
      simp only [place_eq] at h1 h2
      -- the row of the copy is the first one
      rcases Nat.eq_zero_or_pos r with rfl | h0
      · omega
      · have := Nat.le_mul_of_pos_right h.stride h0
        omega
    · intro hend r hr k hk b hb
      have hcell : h.step * k ≤ h.step * (h.cells - 1) := Nat.mul_le_mul_left _ (by omega)
      have hmul : g.step * k = h.step * k := by
        rcases hcells with hc | hc
        · rw [show k = 0 by omega, Nat.mul_zero, Nat.mul_zero]
        · rw [hc.1]
      refine ⟨_, List.mem_map_of_mem (List.mem_range.2 hr), ?_⟩
      simp only [place, hmul]
      exact ⟨by simp only []; omega, by simp only []; omega, by simp only []; omega⟩
  rw [CopiedBy, htaken, harea, area_row_iff F hlen hle (hcells.imp_right And.right)]
  omega

/-- Cell by cell the cells are copied exactly where they are as far apart as they are wide. -/
theorem copiedBy_cells_iff (F : h.Fits) (hst : h.step < g.step) :
    CopiedBy g h (cellCopies g h) ↔ h.step = h.bytes := by
  have hpos := F.bytes
  have hmem : ∀ {c}, c ∈ cellCopies g h ↔ ∃ r < h.rows, ∃ k < h.cells, c =
      ⟨g.base + (g.stride * r + g.step * k : Nat), h.base + (h.stride * r + h.step * k : Nat), h.step⟩ := by
    intro c
    simp only [cellCopies, List.mem_flatMap, List.mem_map, List.mem_range]
    exact ⟨fun ⟨r, hr, k, hk, he⟩ => ⟨r, hr, k, hk, he.symm⟩, fun ⟨r, hr, k, hk, he⟩ => ⟨r, hr, k, hk, he.symm⟩⟩
  constructor
  · rintro ⟨htaken, harea⟩
    -- the last cell of the first row
    have hc := F.cells
    have hcell := cell_lt F (show h.cells - 1 < h.cells by omega) (show h.bytes - 1 < h.bytes by omega)
    have hle : h.bytes ≤ h.step := by
      obtain ⟨c, hc', h1, h2, h3⟩ := htaken 0 F.rows (h.cells - 1) (by omega) (h.bytes - 1) (by omega)
      obtain ⟨r, hr, k, hk, rfl⟩ := hmem.1 hc'
      have hk1 : h.step * k ≤ h.step * (h.cells - 1) := Nat.mul_le_mul_left _ (by omega)
      have hk2 : h.step * k + h.step ≤ h.stride := by
        rw [← Nat.mul_succ]
        exact Nat.le_trans (Nat.mul_le_mul_left _ hk) F.row
      simp only [place_eq] at h1 h2 h3
      have hr0 : r = 0 := by
        by_contra h0
        have := Nat.le_mul_of_pos_right h.stride (Nat.pos_of_ne_zero h0)
        omega
      subst hr0
      -- only the copy of the cell itself takes its bytes from the cell
      obtain ⟨d, hd⟩ : ∃ d, h.cells - 1 = k + d := ⟨h.cells - 1 - k, by omega⟩
      rw [hd, Nat.mul_add] at h1 h2 h3
      rw [Nat.mul_add] at h3
      have hd0 : g.step * d = h.step * d := by omega
      rcases Nat.eq_zero_or_pos d with rfl | hdpos
      · omega
      · exact absurd (Nat.eq_of_mul_eq_mul_right hdpos hd0) (by omega)
    have hge : h.step ≤ h.bytes := by
      by_contra hcon
      have hin : (⟨g.base + (g.stride * 0 + g.step * (h.cells - 1) : Nat), h.base + (h.stride * 0 + h.step * (h.cells - 1) : Nat),
          h.step⟩ : BlockCopy) ∈ cellCopies g h := hmem.2 ⟨0, F.rows, h.cells - 1, by omega, rfl⟩
      obtain ⟨r, -, k, hk, b, hb, he⟩ := harea _ hin _ _ (BlockCopy.takes_at _ (show h.bytes < h.step by omega))
      have hlt := cell_lt F hk hb
      have hk1 : h.step * k ≤ h.step * (h.cells - 1) := Nat.mul_le_mul_left _ (by omega)
      have hrow : h.step * (h.cells - 1) + h.step ≤ h.stride := by
        rw [← Nat.mul_succ, Nat.succ_eq_add_one, Nat.sub_add_cancel hc]
        exact F.row
      simp only [place_eq] at he
      have := (row_eq h.stride 0 r (h.step * (h.cells - 1) + h.bytes) (h.step * k + b) (by omega) hlt (by omega)).2
      omega
    omega
  · intro hs
    refine ⟨fun r hr k hk b hb => ?_, fun c hc s a hsa => ?_⟩
    · refine ⟨_, hmem.2 ⟨r, hr, k, hk, rfl⟩, ?_⟩
      simp only [place]
      exact ⟨by simp only []; omega, by simp only []; omega, by simp only []; omega⟩
    · obtain ⟨r, hr, k, hk, rfl⟩ := hmem.1 hc
      obtain ⟨h1, h2, -⟩ := hsa
      simp only [] at h1 h2
      exact ⟨r, hr, k, hk, (a - (h.base + (h.stride * r + h.step * k : Nat))).toNat, by omega, by simp only [place]; omega⟩

/-! ### What the copies touch -/

/-- A byte of the buffer. -/
def Holds (g : ByteGrid) (a : Int) : Prop := g.base ≤ a ∧ a < g.base + (g.stride * g.rows : Nat)

theorem holds_place (F : g.Fits) {r k b : Nat} (hr : r < g.rows) (hk : k < g.cells) (hb : b < g.bytes) :
    g.Holds (g.place r k b) := by
  have := row_lt g.stride (g.step * k + b) hr (cell_lt F hk hb)
  rw [place_eq]
  exact ⟨by omega, by omega⟩

/-- The bytes that copies take are in one buffer, and those they write in the other, each from one place. -/
structure Within (g h : ByteGrid) (l : List BlockCopy) : Prop where
  source : ∀ c ∈ l, ∀ s a, c.Takes s a → g.Holds s
  target : ∀ c ∈ l, ∀ s a, c.Takes s a → h.Holds a
  one : ∀ c ∈ l, ∀ c' ∈ l, ∀ s s' a, c.Takes s a → c'.Takes s' a → s = s'

theorem within_whole (hs : g.stride * g.rows = h.stride * h.rows) : Within g h (wholeCopy g h) := by
  refine ⟨?_, ?_, ?_⟩ <;> simp only [wholeCopy, List.forall_mem_singleton]
  · rintro s a ⟨h1, h2, h3⟩
    simp only [] at h1 h2 h3
    exact ⟨by omega, by omega⟩
  · rintro s a ⟨h1, h2, h3⟩
    exact ⟨h1, h2⟩
  · rintro s s' a ⟨-, -, h1⟩ ⟨-, -, h2⟩
    rw [h1, h2]

theorem within_rows (hrows : g.rows = h.rows) {len : Nat} (hg : len ≤ g.stride) (hle : len ≤ h.stride) :
    Within g h (rowCopies g h len) := by
  have hmem : ∀ {c}, c ∈ rowCopies g h len → ∃ r < h.rows,
      c = ⟨g.base + (g.stride * r : Nat), h.base + (h.stride * r : Nat), len⟩ := by
    intro c hc
    obtain ⟨r, hr, rfl⟩ := List.mem_map.1 hc
    exact ⟨r, List.mem_range.1 hr, rfl⟩
  refine ⟨fun c hc s a hs => ?_, fun c hc s a hs => ?_, fun c hc c' hc' s s' a hs hs' => ?_⟩
  · obtain ⟨r, hr, rfl⟩ := hmem hc
    obtain ⟨h1, h2, h3⟩ := hs
    simp only [] at h1 h2 h3
    have := row_lt g.stride (a - (h.base + (h.stride * r : Nat))).toNat hr (by omega)
    rw [← hrows] at this
    exact ⟨by omega, by omega⟩
  · obtain ⟨r, hr, rfl⟩ := hmem hc
    obtain ⟨h1, h2, -⟩ := hs
    simp only [] at h1 h2
    have := row_lt h.stride (a - (h.base + (h.stride * r : Nat))).toNat hr (by omega)
    exact ⟨by omega, by omega⟩
  · obtain ⟨r, hr, rfl⟩ := hmem hc
    obtain ⟨r', hr', rfl⟩ := hmem hc'
    obtain ⟨h1, h2, h3⟩ := hs
    obtain ⟨h1', h2', h3'⟩ := hs'
    simp only [] at h1 h2 h3 h1' h2' h3'
    have hr : r = r' := (row_eq h.stride r r' (a - (h.base + (h.stride * r : Nat))).toNat
      (a - (h.base + (h.stride * r' : Nat))).toNat (by omega) (by omega) (by omega)).1
    subst hr
    rw [h3, h3']

theorem within_cells (hrows : g.rows = h.rows) (hcells : g.cells = h.cells) (hst : h.step ≤ g.step)
    (hg : g.step * g.cells ≤ g.stride) (hh : h.step * h.cells ≤ h.stride) : Within g h (cellCopies g h) := by
  have hmem : ∀ {c}, c ∈ cellCopies g h → ∃ r < h.rows, ∃ k < h.cells,
      h.step * k + h.step ≤ h.stride ∧ g.step * k + g.step ≤ g.stride ∧ c =
      ⟨g.base + (g.stride * r + g.step * k : Nat), h.base + (h.stride * r + h.step * k : Nat), h.step⟩ := by
    intro c hc
    simp only [cellCopies, List.mem_flatMap, List.mem_map, List.mem_range] at hc
    obtain ⟨r, hr, k, hk, rfl⟩ := hc
    refine ⟨r, hr, k, hk, ?_, ?_, rfl⟩
    · rw [← Nat.mul_succ]
      exact Nat.le_trans (Nat.mul_le_mul_left _ hk) hh
    · rw [← Nat.mul_succ]
      exact Nat.le_trans (Nat.mul_le_mul_left _ (hcells ▸ hk)) hg
  refine ⟨fun c hc s a hs => ?_, fun c hc s a hs => ?_, fun c hc c' hc' s s' a hs hs' => ?_⟩
  · obtain ⟨r, hr, k, hk, -, hlt, rfl⟩ := hmem hc
    obtain ⟨h1, h2, h3⟩ := hs
    simp only [] at h1 h2 h3
    have := row_lt g.stride (g.step * k + (a - (h.base + (h.stride * r + h.step * k : Nat))).toNat) hr (by omega)
    rw [← hrows] at this
    exact ⟨by omega, by omega⟩
  · obtain ⟨r, hr, k, hk, hlt, -, rfl⟩ := hmem hc
    obtain ⟨h1, h2, -⟩ := hs
    simp only [] at h1 h2
    have := row_lt h.stride (h.step * k + (a - (h.base + (h.stride * r + h.step * k : Nat))).toNat) hr (by omega)
    exact ⟨by omega, by omega⟩
  · obtain ⟨r, hr, k, hk, hlt, -, rfl⟩ := hmem hc
    obtain ⟨r', hr', k', hk', hlt', -, rfl⟩ := hmem hc'
    obtain ⟨h1, h2, h3⟩ := hs
    obtain ⟨h1', h2', h3'⟩ := hs'
    simp only [] at h1 h2 h3 h1' h2' h3'
    obtain ⟨hr, hx⟩ := row_eq h.stride r r'
      (h.step * k + (a - (h.base + (h.stride * r + h.step * k : Nat))).toNat)
      (h.step * k' + (a - (h.base + (h.stride * r' + h.step * k' : Nat))).toNat) (by omega) (by omega) (by omega)
    have hk : k = k' := (row_eq h.step k k' (a - (h.base + (h.stride * r + h.step * k : Nat))).toNat
      (a - (h.base + (h.stride * r' + h.step * k' : Nat))).toNat (by omega) (by omega) hx).1
    subst hr hk
    rw [h3, h3']

/-! ### Writing the cells -/

/-- The bytes of all cells, each with a value for the cell and the byte. -/
def writes (g : ByteGrid) (v : Nat → Nat → UInt8) : List (Int × UInt8) :=
  (List.range g.rows).flatMap (fun r => (List.range g.cells).flatMap (fun k =>
    (List.range g.bytes).map (fun b => (g.place r k b, v k b))))

theorem mem_writes {v : Nat → Nat → UInt8} {w : Int × UInt8} :
    w ∈ g.writes v ↔ ∃ r < g.rows, ∃ k < g.cells, ∃ b < g.bytes, w = (g.place r k b, v k b) := by
  simp only [writes, List.mem_flatMap, List.mem_map, List.mem_range]
  constructor
  · rintro ⟨r, hr, k, hk, b, hb, rfl⟩
    exact ⟨r, hr, k, hk, b, hb, rfl⟩
  · rintro ⟨r, hr, k, hk, b, hb, rfl⟩
    exact ⟨r, hr, k, hk, b, hb, rfl⟩

/-- Cells that end before the next one have each byte once. -/
theorem place_inj (F : g.Fits) (hstep : g.bytes ≤ g.step) {r r' k k' b b' : Nat} (hk : k < g.cells) (hk' : k' < g.cells)
    (hb : b < g.bytes) (hb' : b' < g.bytes) (he : g.place r k b = g.place r' k' b') : r = r' ∧ k = k' ∧ b = b' := by
  rw [place_eq, place_eq] at he
  obtain ⟨hr, hx⟩ := row_eq g.stride r r' _ _ (cell_lt F hk hb) (cell_lt F hk' hb') (by omega)
  obtain ⟨hkk, hbb⟩ := row_eq g.step k k' b b' (by omega) (by omega) hx
  exact ⟨hr, hkk, hbb⟩

/-- What is written of grids that are apart. -/
theorem foldl_writes {g : Nat → ByteGrid} {v : Nat → Nat → Nat → UInt8} {n : Nat} (F : ∀ p < n, (g p).Fits)
    (hstep : ∀ p < n, (g p).bytes ≤ (g p).step)
    (apart : ∀ p < n, ∀ q < n, ∀ a, (g p).Holds a → (g q).Holds a → p = q) (m : ByteMem) :
    (∀ p < n, ∀ r < (g p).rows, ∀ k < (g p).cells, ∀ b < (g p).bytes,
      ((List.range n).flatMap (fun p => (g p).writes (v p))).foldl ByteMem.set m ((g p).place r k b) = v p k b) ∧
    ∀ a, (∀ p < n, ¬ (g p).Holds a) → ((List.range n).flatMap (fun p => (g p).writes (v p))).foldl ByteMem.set m a = m a := by
  have hmem : ∀ {w}, w ∈ (List.range n).flatMap (fun p => (g p).writes (v p)) ↔
      ∃ p < n, ∃ r < (g p).rows, ∃ k < (g p).cells, ∃ b < (g p).bytes, w = ((g p).place r k b, v p k b) := by
    intro w
    simp only [List.mem_flatMap, List.mem_range, mem_writes]
  refine ⟨fun p hp r hr k hk b hb => ?_, fun a ha => ?_⟩
  · refine ByteMem.foldl_set_of_mem (fun w hw hwa => ?_) ⟨_, hmem.2 ⟨p, hp, r, hr, k, hk, b, hb, rfl⟩, rfl⟩ m
    obtain ⟨q, hq, r', hr', k', hk', b', hb', rfl⟩ := hmem.1 hw
    have hholds := holds_place (F q hq) hr' hk' hb'
    rw [show (g q).place r' k' b' = (g p).place r k b from hwa] at hholds
    obtain rfl := apart p hp q hq _ (holds_place (F p hp) hr hk hb) hholds
    obtain ⟨-, rfl, rfl⟩ := place_inj (F p hp) (hstep p hp) hk' hk hb' hb hwa
    rfl
  · refine ByteMem.foldl_set_of_not (fun w hw hwa => ?_) m
    obtain ⟨q, hq, r', hr', k', hk', b', hb', rfl⟩ := hmem.1 hw
    subst hwa
    exact ha q hq (holds_place (F q hq) hr' hk' hb')

end ByteGrid
