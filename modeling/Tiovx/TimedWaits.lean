import Mathlib.Tactic
import Tiovx.CmdObjects
/-!
# TimedWaits — the deadlines of the timed waits (`tivx_event.c`, `tivx_queue.c`)

The event and the queue wait on a condition until an absolute time of day, which both compute in one way from the current time
and a timeout in milliseconds.  The microseconds are cut to 32 bits before the whole seconds are taken out of them, and the
seconds are kept in 32 bits, so a timeout from about 71 minutes on ends too early.
-/
namespace Tiovx

/-- The width of `unsigned long`. -/
inductive LongWidth
  | bits32
  | bits64
  deriving DecidableEq

def LongWidth.bits : LongWidth → Nat
  | .bits32 => 32
  | .bits64 => 64

/-- `struct timeval`, as `gettimeofday` fills it in: the time since the epoch. -/
structure TimeVal where
  tvSec : Nat
  tvUsec : Nat
  usec_lt : tvUsec < 1000000

/-- `struct timespec` -/
structure TimeSpec where
  tvSec : Nat
  tvNsec : Nat
  deriving DecidableEq

def timeoutNoWait : UInt32 := 0
def timeoutWaitForever : UInt32 := 0xFFFFFFFF

/-- The `ts` that both functions compute before they wait. -/
def deadline (w : LongWidth) (tv : TimeVal) (timeout : UInt32) : TimeSpec :=
  let micro := (tv.tvUsec + timeout.toNat * 1000 % 2 ^ 64) % 2 ^ 64 % 2 ^ w.bits
  let sec := tv.tvSec % 2 ^ 32
  if 1000000 ≤ micro then
    -- `sec += (uint32_t)micro/(uint32_t)1000000LLU`: the cast comes first
    { tvSec := (sec + micro % 2 ^ 32 / 1000000) % 2 ^ 32, tvNsec := micro % 1000000 * 1000 }
  else { tvSec := sec, tvNsec := micro * 1000 }

/-- What one turn of a waiting loop comes to. -/
inductive WaitTurn
  | returns (status : Int)
  | tryAgain
  | waitForever
  | waitUntil (ts : TimeSpec)
  deriving DecidableEq

/-- One turn of the loop of `tivxEventWait`; `now` is `none` when `gettimeofday` fails. -/
def tivxEventWait (w : LongWidth) (isSet : Bool) (timeout : UInt32) (now : Option TimeVal) : WaitTurn :=
  if isSet then .returns vxSuccess
  else if timeout = timeoutNoWait then .returns vxErrorTimeout
  else if timeout ≠ timeoutWaitForever then
    match now with
    | some tv => .waitUntil (deadline w tv timeout)
    | none => .returns vxFailure
  else .waitForever

/-- One turn of the loop of `tivxQueueGet`. -/
def tivxQueueGet (w : LongWidth) (count : Nat) (blockOnGet : Bool) (timeout : UInt32) (now : Option TimeVal) : WaitTurn :=
  if 0 < count then .returns vxSuccess
  else if timeout = timeoutNoWait then .returns vxFailure
  else if blockOnGet then
    if timeoutWaitForever = timeout then .waitForever
    else
      match now with
      | some tv => .waitUntil (deadline w tv timeout)
      -- the queue goes round again when `gettimeofday` fails
      | none => .tryAgain
  else .returns vxFailure

/-- `ts` is the time `tv` plus `timeout` milliseconds, in nanoseconds. -/
def TimeSpec.IsAfter (ts : TimeSpec) (tv : TimeVal) (timeout : UInt32) : Prop :=
  ts.tvNsec < 1000000000 ∧
    ts.tvSec * 1000000000 + ts.tvNsec = (tv.tvSec * 1000000 + tv.tvUsec) * 1000 + timeout.toNat * 1000000

/-- Microseconds that fit 32 bits, and whole seconds that do. -/
def FitsDeadline (tv : TimeVal) (timeout : UInt32) : Prop :=
  tv.tvUsec + timeout.toNat * 1000 < 2 ^ 32 ∧ tv.tvSec + (tv.tvUsec + timeout.toNat * 1000) / 1000000 < 2 ^ 32

section Deadline

variable (w : LongWidth) (tv : TimeVal) (timeout : UInt32)

theorem LongWidth.le_bits : 32 ≤ w.bits := by
  cases w <;> decide

/-- The microseconds within the type they are computed in. -/
theorem micro_eq : (tv.tvUsec + timeout.toNat * 1000 % 2 ^ 64) % 2 ^ 64 % 2 ^ w.bits =
    (tv.tvUsec + timeout.toNat * 1000) % 2 ^ w.bits := by
  have hu := tv.usec_lt
  have ht := timeout.toNat_lt
  rw [Nat.mod_eq_of_lt (show timeout.toNat * 1000 < 2 ^ 64 by omega),
    Nat.mod_eq_of_lt (show tv.tvUsec + timeout.toNat * 1000 < 2 ^ 64 by omega)]

/-- The carry and what it leaves, in one form for both branches. -/
theorem deadline_eq : deadline w tv timeout =
    { tvSec := (tv.tvSec % 2 ^ 32 + (tv.tvUsec + timeout.toNat * 1000) % 2 ^ w.bits % 2 ^ 32 / 1000000) % 2 ^ 32
      tvNsec := (tv.tvUsec + timeout.toNat * 1000) % 2 ^ w.bits % 1000000 * 1000 } := by
  unfold deadline
  simp only [micro_eq]
  split
  · rfl
  · rename_i h
    have hm : (tv.tvUsec + timeout.toNat * 1000) % 2 ^ w.bits < 1000000 := by omega
    rw [Nat.mod_eq_of_lt (hm.trans (by decide) : _ < 2 ^ 32), Nat.div_eq_of_lt hm, Nat.mod_eq_of_lt hm, Nat.add_zero, Nat.mod_mod]

/-- With nothing cut off, the deadline is the quotient and the remainder. -/
theorem deadline_of_fits (h : FitsDeadline tv timeout) : deadline w tv timeout =
    { tvSec := tv.tvSec + (tv.tvUsec + timeout.toNat * 1000) / 1000000
      tvNsec := (tv.tvUsec + timeout.toNat * 1000) % 1000000 * 1000 } := by
  obtain ⟨hm, hs⟩ := h
  have hw : tv.tvUsec + timeout.toNat * 1000 < 2 ^ w.bits := hm.trans_le (Nat.pow_le_pow_right (by decide) w.le_bits)
  have hsec : tv.tvSec < 2 ^ 32 := by omega
  rw [deadline_eq, Nat.mod_eq_of_lt hw, Nat.mod_eq_of_lt hm, Nat.mod_eq_of_lt hsec, Nat.mod_eq_of_lt hs]

/-- The seconds of the deadline never pass those that the microseconds within 32 bits give. -/
theorem deadline_tvSec_le : (deadline w tv timeout).tvSec ≤
    tv.tvSec + (tv.tvUsec + timeout.toNat * 1000) % 2 ^ 32 / 1000000 := by
  rw [deadline_eq]
  have hd : (tv.tvUsec + timeout.toNat * 1000) % 2 ^ w.bits % 2 ^ 32 = (tv.tvUsec + timeout.toNat * 1000) % 2 ^ 32 :=
    Nat.mod_mod_of_dvd _ (Nat.pow_dvd_pow 2 w.le_bits)
  calc (tv.tvSec % 2 ^ 32 + (tv.tvUsec + timeout.toNat * 1000) % 2 ^ w.bits % 2 ^ 32 / 1000000) % 2 ^ 32
      ≤ tv.tvSec % 2 ^ 32 + (tv.tvUsec + timeout.toNat * 1000) % 2 ^ w.bits % 2 ^ 32 / 1000000 := Nat.mod_le _ _
    _ ≤ tv.tvSec + (tv.tvUsec + timeout.toNat * 1000) % 2 ^ 32 / 1000000 := by
      rw [hd]
      exact Nat.add_le_add_right (Nat.mod_le _ _) _

theorem deadline_tvSec_lt : (deadline w tv timeout).tvSec < 2 ^ 32 := by
  rw [deadline_eq]
  exact Nat.mod_lt _ (by decide)

/-- The seconds that an exact deadline must have. -/
theorem TimeSpec.IsAfter.tvSec_eq {ts : TimeSpec} (h : ts.IsAfter tv timeout) :
    ts.tvSec = tv.tvSec + (tv.tvUsec + timeout.toNat * 1000) / 1000000 := by
  obtain ⟨hn, heq⟩ := h
  have hdiv := Nat.div_add_mod (tv.tvUsec + timeout.toNat * 1000) 1000000
  have hmod := Nat.mod_lt (tv.tvUsec + timeout.toNat * 1000) (show 0 < 1000000 by decide)
  omega

theorem deadline_isAfter_iff : (deadline w tv timeout).IsAfter tv timeout ↔ FitsDeadline tv timeout := by
  constructor
  · intro h
    have hsec := h.tvSec_eq
    have hle := deadline_tvSec_le w tv timeout
    have hlt := deadline_tvSec_lt w tv timeout
    refine ⟨?_, by rwa [← hsec]⟩
    -- a cut of the microseconds takes at least one whole second away
    by_contra hbig
    have hcut : (tv.tvUsec + timeout.toNat * 1000) % 2 ^ 32 + 2 ^ 32 ≤ tv.tvUsec + timeout.toNat * 1000 := by omega
    have hdiv : (tv.tvUsec + timeout.toNat * 1000) % 2 ^ 32 / 1000000 < (tv.tvUsec + timeout.toNat * 1000) / 1000000 := by omega
    omega
  · intro h
    have hdiv := Nat.div_add_mod (tv.tvUsec + timeout.toNat * 1000) 1000000
    have hmod := Nat.mod_lt (tv.tvUsec + timeout.toNat * 1000) (show 0 < 1000000 by decide)
    rw [deadline_of_fits w tv timeout h]
    refine ⟨?_, ?_⟩
    · show (tv.tvUsec + timeout.toNat * 1000) % 1000000 * 1000 < 1000000000
      omega
    · show (tv.tvSec + (tv.tvUsec + timeout.toNat * 1000) / 1000000) * 1000000000 +
        (tv.tvUsec + timeout.toNat * 1000) % 1000000 * 1000 = _
      omega

end Deadline

/-! ### The two functions -/

section Waits

variable {w : LongWidth} {timeout : UInt32} {now : Option TimeVal} {ts : TimeSpec}

theorem tivxEventWait_waitUntil_iff {isSet : Bool} : tivxEventWait w isSet timeout now = .waitUntil ts ↔
    isSet = false ∧ timeout ≠ timeoutNoWait ∧ timeout ≠ timeoutWaitForever ∧ ∃ tv, now = some tv ∧ ts = deadline w tv timeout := by
  unfold tivxEventWait
  cases isSet <;> cases now <;> split_ifs <;> simp_all [eq_comm]

theorem tivxQueueGet_waitUntil_iff {count : Nat} {blockOnGet : Bool} :
    tivxQueueGet w count blockOnGet timeout now = .waitUntil ts ↔
    count = 0 ∧ blockOnGet = true ∧ timeout ≠ timeoutNoWait ∧ timeout ≠ timeoutWaitForever ∧
      ∃ tv, now = some tv ∧ ts = deadline w tv timeout := by
  unfold tivxQueueGet
  rcases Nat.eq_zero_or_pos count with rfl | hc
  · cases blockOnGet <;> cases now <;> split_ifs <;> simp_all [eq_comm]
  · rw [if_pos hc]
    simp [hc.ne']

end Waits

/-- Every deadline that the two waits compute at the time `tv` is `timeout` milliseconds later. -/
def WaitsExactly (w : LongWidth) (tv : TimeVal) (timeout : UInt32) : Prop :=
  (∀ isSet ts, tivxEventWait w isSet timeout (some tv) = .waitUntil ts → ts.IsAfter tv timeout) ∧
    ∀ count blockOnGet ts, tivxQueueGet w count blockOnGet timeout (some tv) = .waitUntil ts → ts.IsAfter tv timeout

theorem waitsExactly_iff (w : LongWidth) (tv : TimeVal) (timeout : UInt32) : WaitsExactly w tv timeout ↔
    timeout = timeoutNoWait ∨ timeout = timeoutWaitForever ∨ FitsDeadline tv timeout := by
  constructor
  · intro h
    by_cases h0 : timeout = timeoutNoWait
    · exact .inl h0
    by_cases h1 : timeout = timeoutWaitForever
    · exact .inr (.inl h1)
    have hw : tivxEventWait w false timeout (some tv) = .waitUntil (deadline w tv timeout) :=
      tivxEventWait_waitUntil_iff.2 ⟨rfl, h0, h1, tv, rfl, rfl⟩
    exact .inr (.inr ((deadline_isAfter_iff w tv timeout).1 (h.1 false _ hw)))
  · intro h
    have hdead : timeout ≠ timeoutNoWait → timeout ≠ timeoutWaitForever → (deadline w tv timeout).IsAfter tv timeout :=
      fun h0 h1 => (deadline_isAfter_iff w tv timeout).2 ((h.resolve_left h0).resolve_left h1)
    refine ⟨fun isSet ts hts => ?_, fun count blockOnGet ts hts => ?_⟩
    · obtain ⟨-, h0, h1, tv', htv, rfl⟩ := tivxEventWait_waitUntil_iff.1 hts
      obtain rfl := Option.some.inj htv
      exact hdead h0 h1
    · obtain ⟨-, -, h0, h1, tv', htv, rfl⟩ := tivxQueueGet_waitUntil_iff.1 hts
      obtain rfl := Option.some.inj htv
      exact hdead h0 h1

/-- A timeout of two hours: the deadline is 48 minutes away. -/
theorem waits_too_short : ¬ ∀ (w : LongWidth) (tv : TimeVal) (timeout : UInt32), timeout ≠ timeoutWaitForever →
    WaitsExactly w tv timeout := by
  intro h
  have hw := h .bits64 ⟨0, 0, by decide⟩ 7200000 (by decide)
  have hts : tivxEventWait .bits64 false 7200000 (some ⟨0, 0, by decide⟩) = .waitUntil { tvSec := 2905, tvNsec := 0 } := by
    decide
  obtain ⟨-, heq⟩ := hw.1 false _ hts
  revert heq
  decide

end Tiovx
