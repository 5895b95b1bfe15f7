import Mathlib.Data.List.Basic
/-!
# Lib.FoldExcept — loops that stop at a failure

A loop over a list whose body may fail is `List.foldlM` in `Except`.  The rules here split a loop that succeeds at a
position, and carry an invariant of what was done so far to its end.
-/
namespace FoldExcept

variable {α β ε : Type} {f : β → α → Except ε β}

theorem bind_eq_ok {γ : Type} {x : Except ε β} {g : β → Except ε γ} {c : γ} :
    x.bind g = .ok c ↔ ∃ b, x = .ok b ∧ g b = .ok c := by
  cases x with
  | error e => simp [Except.bind]
  | ok b => simp [Except.bind]

/-- A check that is passed. -/
theorem check_eq_ok {c : Prop} [Decidable c] {e : ε} {x : Except ε β} {b : β} :
    (if c then .error e else x) = .ok b ↔ ¬ c ∧ x = .ok b := by
  split
  · simp_all
  · simp_all

theorem cons_eq_ok {a : α} {l : List α} {b c : β} :
    (a :: l).foldlM f b = .ok c ↔ ∃ d, f b a = .ok d ∧ l.foldlM f d = .ok c := by
  rw [List.foldlM_cons]
  exact bind_eq_ok

/-- **A loop that succeeds** succeeds up to each position, and from there on. -/
theorem append_eq_ok {l l' : List α} {b c : β} :
    (l ++ l').foldlM f b = .ok c ↔ ∃ d, l.foldlM f b = .ok d ∧ l'.foldlM f d = .ok c := by
  rw [List.foldlM_append]
  exact bind_eq_ok

theorem singleton_eq_ok {a : α} {b c : β} : [a].foldlM f b = .ok c ↔ f b a = .ok c := by
  rw [cons_eq_ok]
  constructor
  · rintro ⟨d, hd, hc⟩
    rw [hd, ← hc]
    rfl
  · exact fun h => ⟨c, h, rfl⟩

/-- **The loop rule**: `I` says what holds when the elements of its list are done; `I` of the whole list holds at the end
of a loop that succeeds. -/
theorem inv {I : List α → β → Prop} {l : List α} {b c : β} (h0 : I [] b)
    (hstep : ∀ done a left b c, l = done ++ a :: left → I done b → f b a = .ok c → I (done ++ [a]) c)
    (h : l.foldlM f b = .ok c) : I l c := by
  -- by induction on the elements that are left
  have hrun : ∀ left done b, l = done ++ left → I done b → left.foldlM f b = .ok c → I l c := by
    intro left
    induction left with
    | nil =>
      intro done b hl hI hr
      cases hr
      rwa [hl, List.append_nil]
    | cons a left ih =>
      intro done b hl hI hr
      obtain ⟨d, hd, hr⟩ := cons_eq_ok.1 hr
      exact ih (done ++ [a]) d (by rw [hl, List.append_assoc]; rfl) (hstep done a left b d hl hI hd) hr
  exact hrun l [] b rfl h0 h

/-- What the body keeps for the elements of the list, a loop that succeeds keeps. -/
theorem keep {I : β → Prop} {l : List α} {b c : β} (h0 : I b) (hstep : ∀ a ∈ l, ∀ b c, I b → f b a = .ok c → I c)
    (h : l.foldlM f b = .ok c) : I c := by
  refine inv (I := fun _ b => I b) h0 (fun done a left b c hl hI hc => hstep a ?_ b c hI hc) h
  rw [hl]
  exact List.mem_append_right _ List.mem_cons_self

/-- A loop each of whose steps adds something adds it all. -/
theorem gain {γ : Type} {P : β → γ → Prop} {Q : α → γ → Prop} {l : List α} {b c : β}
    (hstep : ∀ a ∈ l, ∀ b c, f b a = .ok c → ∀ x, P c x ↔ P b x ∨ Q a x) (h : l.foldlM f b = .ok c) (x : γ) :
    P c x ↔ P b x ∨ ∃ a ∈ l, Q a x := by
  induction l generalizing b with
  | nil =>
    cases h
    simp
  | cons a l ih =>
    obtain ⟨d, hd, h⟩ := cons_eq_ok.1 h
    rw [ih (fun a' ha' => hstep a' (List.mem_cons_of_mem a ha')) h, hstep a List.mem_cons_self b d hd x, or_assoc,
      List.exists_mem_cons_iff]

/-- Two loops whose bodies agree wherever `I` holds, and keep `I`. -/
theorem congr {f' : β → α → Except ε β} {I : β → Prop} {l : List α} {b : β} (h0 : I b)
    (hstep : ∀ a ∈ l, ∀ b c, I b → f b a = .ok c → I c) (hf : ∀ a ∈ l, ∀ b, I b → f b a = f' b a) :
    l.foldlM f b = l.foldlM f' b := by
  induction l generalizing b with
  | nil => rfl
  | cons a l ih =>
    rw [List.foldlM_cons, List.foldlM_cons, ← hf a List.mem_cons_self b h0]
    cases hb : f b a with
    | error e => rfl
    | ok c =>
      exact ih (hstep a List.mem_cons_self b c h0 hb) (fun x hx => hstep x (List.mem_cons_of_mem a hx))
        (fun x hx => hf x (List.mem_cons_of_mem a hx))

/-- A loop over the parts of a list is a loop over its elements. -/
theorem flatMap {γ : Type} (g : γ → List α) (l : List γ) (b : β) :
    (l.flatMap g).foldlM f b = l.foldlM (fun b c => (g c).foldlM f b) b := by
  induction l generalizing b with
  | nil => rfl
  | cons c l ih =>
    rw [List.flatMap_cons, List.foldlM_append, List.foldlM_cons]
    exact congrArg _ (funext ih)

end FoldExcept
