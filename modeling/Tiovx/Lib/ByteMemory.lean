import Mathlib.Tactic.Common
import Mathlib.Logic.Function.Basic
/-!
# Lib.ByteMemory — writes and copies in a memory

A list of steps writes what each of its steps writes, where every step finds its sources as they were and two steps write the same
value to a place.  For copies of blocks this says which byte each byte is taken from, and what a list of copies does to every
memory is told by these pairs.
-/

section Fold

variable {ι β α : Type} {f : (ι → β) → α → ι → β} {R : α → ι → Prop} {S : ι → Prop} {v : ι → β}

/-- What is written by steps that read no more than `S`, which none of them writes. -/
theorem foldl_written {l : List α} {n : ι → β}
    (on : ∀ x ∈ l, ∀ m, (∀ a, S a → m a = n a) → ∀ a, R x a → f m x a = v a)
    (off : ∀ x ∈ l, ∀ m a, ¬ R x a → f m x a = m a) (kept : ∀ x ∈ l, ∀ a, S a → ¬ R x a) (a : ι) :
    ((∃ x ∈ l, R x a) → l.foldl f n a = v a) ∧ ((∀ x ∈ l, ¬ R x a) → l.foldl f n a = n a) := by
  -- the steps before a place in the list
  suffices h : ∀ (l' : List α), (∀ x ∈ l', x ∈ l) → ∀ m, (∀ a, S a → m a = n a) → ∀ a,
      ((∃ x ∈ l', R x a) → l'.foldl f m a = v a) ∧ ((∀ x ∈ l', ¬ R x a) → l'.foldl f m a = m a) from
    h l (fun _ hx => hx) n (fun _ _ => rfl) a
  intro l'
  induction l' with
  | nil => exact fun _ m _ a => ⟨fun ⟨x, hx, _⟩ => absurd hx (List.not_mem_nil), fun _ => rfl⟩
  | cons x l' ih =>
    intro hl m hm a
    have hx := hl x List.mem_cons_self
    have hm' : ∀ a, S a → f m x a = n a := fun a ha => (off x hx m a (kept x hx a ha)).trans (hm a ha)
    obtain ⟨h1, h2⟩ := ih (fun y hy => hl y (List.mem_cons_of_mem x hy)) (f m x) hm' a
    rw [List.foldl_cons]
    constructor
    · rintro ⟨y, hy, hya⟩
      by_cases hrest : ∃ z ∈ l', R z a
      · exact h1 hrest
      · rw [h2 (fun z hz hza => hrest ⟨z, hz, hza⟩)]
        rcases List.mem_cons.1 hy with rfl | hy
        · exact on y hx m hm a hya
        · exact absurd ⟨y, hy, hya⟩ hrest
    · intro hnone
      rw [h2 (fun z hz => hnone z (List.mem_cons_of_mem x hz))]
      exact off x hx m a (hnone x List.mem_cons_self)

end Fold

/-- A memory of bytes. -/
abbrev ByteMem := Int → UInt8

/-- A block that is copied to another place. -/
structure BlockCopy where
  src : Int
  dst : Int
  len : Nat
deriving DecidableEq

namespace BlockCopy

/-- The byte at `a` is taken from `s`. -/
def Takes (c : BlockCopy) (s a : Int) : Prop := c.dst ≤ a ∧ a < c.dst + c.len ∧ s = c.src + (a - c.dst)

/-- The copy back. -/
def reverse (c : BlockCopy) : BlockCopy := ⟨c.dst, c.src, c.len⟩

theorem takes_reverse {c : BlockCopy} {s a : Int} : c.reverse.Takes a s ↔ c.Takes s a := by
  simp only [Takes, reverse]
  omega

theorem takes_at (c : BlockCopy) {j : Nat} (hj : j < c.len) : c.Takes (c.src + j) (c.dst + j) :=
  ⟨by omega, by omega, by omega⟩

end BlockCopy

namespace ByteMem

def copy (m : ByteMem) (c : BlockCopy) : ByteMem := fun a =>
  if c.dst ≤ a ∧ a < c.dst + c.len then m (c.src + (a - c.dst)) else m a

theorem copy_of_takes {m : ByteMem} {c : BlockCopy} {s a : Int} (h : c.Takes s a) : m.copy c a = m s := by
  obtain ⟨h1, h2, rfl⟩ := h
  exact if_pos ⟨h1, h2⟩

theorem copy_of_not {m : ByteMem} {c : BlockCopy} {a : Int} (h : ∀ s, ¬ c.Takes s a) : m.copy c a = m a :=
  if_neg (fun hc => h _ ⟨hc.1, hc.2, rfl⟩)

/-- One byte. -/
def set (m : ByteMem) (w : Int × UInt8) : ByteMem := Function.update m w.1 w.2

/-- Two bytes, the lower one first. -/
def half (m : ByteMem) (a : Int) : UInt16 := (m a).toUInt16 ||| (m (a + 1)).toUInt16 <<< 8

def setHalf (m : ByteMem) (a : Int) (v : UInt16) : ByteMem := (m.set (a, v.toUInt8)).set (a + 1, (v >>> 8).toUInt8)

/-- Four bytes, the lowest one first. -/
def word (m : ByteMem) (a : Int) : UInt32 := (m.half a).toUInt32 ||| (m.half (a + 2)).toUInt32 <<< 16

theorem foldl_set_of_not {l : List (Int × UInt8)} {a : Int} (h : ∀ w ∈ l, w.1 ≠ a) (m : ByteMem) : l.foldl set m a = m a := by
  induction l generalizing m with
  | nil => rfl
  | cons w l ih =>
    rw [List.foldl_cons, ih (fun w' hw' => h w' (List.mem_cons_of_mem w hw')), set,
      Function.update_of_ne (h w List.mem_cons_self).symm]

/-- A byte that is written with one value only. -/
theorem foldl_set_of_mem {l : List (Int × UInt8)} {a : Int} {b : UInt8} (h : ∀ w ∈ l, w.1 = a → w.2 = b) (hex : ∃ w ∈ l, w.1 = a)
    (m : ByteMem) : l.foldl set m a = b := by
  induction l generalizing m with
  | nil =>
    obtain ⟨w, hw, -⟩ := hex
    cases hw
  | cons w l ih =>
    have hl := fun w' hw' => h w' (List.mem_cons_of_mem w hw')
    rw [List.foldl_cons]
    by_cases hrest : ∃ w' ∈ l, w'.1 = a
    · exact ih hl hrest _
    · rw [foldl_set_of_not (fun w' hw' ha => hrest ⟨w', hw', ha⟩)]
      obtain ⟨w', hw', ha⟩ := hex
      rcases List.mem_cons.1 hw' with rfl | hw'
      · rw [set, ← ha, Function.update_self]
        exact h w' List.mem_cons_self ha
      · exact absurd ⟨w', hw', ha⟩ hrest

/-- No byte that is taken is written, and none is taken from two places. -/
structure Consistent (l : List BlockCopy) : Prop where
  one : ∀ c ∈ l, ∀ c' ∈ l, ∀ s s' a, c.Takes s a → c'.Takes s' a → s = s'
  kept : ∀ c ∈ l, ∀ c' ∈ l, ∀ s s' a, c.Takes s a → ¬ c'.Takes s' s

section Copies

variable {l : List BlockCopy} {m : ByteMem}

/-- What copies write where the bytes they take have the values to be written. -/
theorem foldl_copy_value {v : Int → UInt8} (hv : ∀ c ∈ l, ∀ s a, c.Takes s a → m s = v a)
    (kept : ∀ c ∈ l, ∀ c' ∈ l, ∀ s s' a, c.Takes s a → ¬ c'.Takes s' s) (a : Int) :
    ((∃ c ∈ l, ∃ s, c.Takes s a) → l.foldl copy m a = v a) ∧ ((∀ c ∈ l, ∀ s, ¬ c.Takes s a) → l.foldl copy m a = m a) := by
  have h := foldl_written (f := copy) (R := fun c a => ∃ s, c.Takes s a) (S := fun s => ∃ c ∈ l, ∃ a, c.Takes s a) (v := v)
    (l := l) (n := m) (fun c hc m' hm a ⟨s, hs⟩ => by rw [copy_of_takes hs, hm s ⟨c, hc, a, hs⟩, hv c hc s a hs])
    (fun c _ m' a ha => copy_of_not (fun s hs => ha ⟨s, hs⟩))
    (fun c hc s ⟨c', hc', a, ha⟩ ⟨s', hs'⟩ => kept c' hc' c hc s s' a ha hs') a
  exact ⟨h.1, fun hn => h.2 (fun c hc ⟨s, hs⟩ => hn c hc s hs)⟩

theorem foldl_copy_of_takes (h : Consistent l) {c : BlockCopy} (hc : c ∈ l) {s a : Int} (hs : c.Takes s a) :
    l.foldl copy m a = m s := by
  -- the value of the place that a byte is taken from
  classical
  let v : Int → UInt8 := fun a => if h : ∃ s, ∃ c ∈ l, c.Takes s a then m h.choose else m a
  have hv : ∀ c ∈ l, ∀ s a, c.Takes s a → m s = v a := by
    intro c hc s a hs
    have hex : ∃ s, ∃ c ∈ l, c.Takes s a := ⟨s, c, hc, hs⟩
    obtain ⟨c', hc', hs'⟩ := hex.choose_spec
    simp only [v, dif_pos hex]
    rw [h.one c hc c' hc' s _ a hs hs']
  rw [(foldl_copy_value hv h.kept a).1 ⟨c, hc, s, hs⟩, ← hv c hc s a hs]

theorem foldl_copy_of_not (h : ∀ c ∈ l, ∀ s, ¬ c.Takes s a) : l.foldl copy m a = m a := by
  induction l generalizing m with
  | nil => rfl
  | cons c l ih =>
    rw [List.foldl_cons, ih (fun c' hc' => h c' (List.mem_cons_of_mem c hc')), copy_of_not (h c List.mem_cons_self)]

/-- What has been copied comes back, also where nothing is left but the copy. -/
theorem foldl_copy_back (h : Consistent l) {n : ByteMem} (hn : ∀ c ∈ l, ∀ s a, c.Takes s a → n a = l.foldl copy m a)
    {c : BlockCopy} (hc : c ∈ l) {s a : Int} (hs : c.Takes s a) : (l.map BlockCopy.reverse).foldl copy n s = m s := by
  have hv : ∀ c ∈ l.map BlockCopy.reverse, ∀ a s, c.Takes a s → n a = m s := by
    intro c' hc' a s hs
    obtain ⟨c, hc, rfl⟩ := List.mem_map.1 hc'
    rw [BlockCopy.takes_reverse] at hs
    rw [hn c hc s a hs, foldl_copy_of_takes h hc hs]
  have hkept : ∀ c ∈ l.map BlockCopy.reverse, ∀ c' ∈ l.map BlockCopy.reverse, ∀ s s' a, c.Takes s a → ¬ c'.Takes s' s := by
    intro c₁ hc₁ c₂ hc₂ s s' a h₁ h₂
    obtain ⟨d₁, hd₁, rfl⟩ := List.mem_map.1 hc₁
    obtain ⟨d₂, hd₂, rfl⟩ := List.mem_map.1 hc₂
    rw [BlockCopy.takes_reverse] at h₁ h₂
    exact h.kept d₂ hd₂ d₁ hd₁ s a s' h₂ h₁
  exact (foldl_copy_value hv hkept s).1 ⟨_, List.mem_map_of_mem hc, a, BlockCopy.takes_reverse.2 hs⟩

/-- **Copies give the bytes of `T` those of their partners and change nothing outside `D` exactly when** each pair of `T` is taken
and nothing is taken to a place outside `D`. -/
theorem foldl_copy_iff (h : Consistent l) {T : Int → Int → Prop} {D : Int → Prop} (hT : ∀ s a, T s a → s ≠ a) :
    (∀ m : ByteMem, (∀ s a, T s a → l.foldl copy m a = m s) ∧ ∀ a, ¬ D a → l.foldl copy m a = m a) ↔
      (∀ s a, T s a → ∃ c ∈ l, c.Takes s a) ∧ ∀ c ∈ l, ∀ s a, c.Takes s a → D a := by
  classical
  constructor
  · intro hm
    refine ⟨fun s a hsa => ?_, fun c hc s a hs => ?_⟩
    · -- the memory that is zero but for `s`
      have h1 := (hm (Function.update (fun _ => 0) s 1)).1 s a hsa
      rw [Function.update_self] at h1
      by_cases htaken : ∃ c ∈ l, ∃ s', c.Takes s' a
      · obtain ⟨c, hc, s', hs'⟩ := htaken
        rw [foldl_copy_of_takes h hc hs'] at h1
        by_cases hss : s' = s
        · exact ⟨c, hc, hss ▸ hs'⟩
        · rw [Function.update_of_ne hss] at h1
          exact absurd h1 (by decide)
      · rw [foldl_copy_of_not (fun c hc s' hs' => htaken ⟨c, hc, s', hs'⟩), Function.update_of_ne (hT s a hsa).symm] at h1
        exact absurd h1 (by decide)
    · by_contra hD
      have h1 := (hm (Function.update (fun _ => 0) s 1)).2 a hD
      have hne : a ≠ s := fun has => h.kept c hc c hc s s a hs (has ▸ hs)
      rw [foldl_copy_of_takes h hc hs, Function.update_self, Function.update_of_ne hne] at h1
      exact absurd h1 (by decide)
  · rintro ⟨h1, h2⟩ m
    refine ⟨fun s a hsa => ?_, fun a hD => ?_⟩
    · obtain ⟨c, hc, hs⟩ := h1 s a hsa
      exact foldl_copy_of_takes h hc hs
    · exact foldl_copy_of_not (fun c hc s hs => hD (h2 c hc s a hs))

end Copies

end ByteMem
