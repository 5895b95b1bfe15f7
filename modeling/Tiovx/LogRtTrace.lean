import Mathlib.Tactic
import Tiovx.Lib.RingQueue
import Tiovx.Lib.Run
/-!
# LogRtTrace — the run-time log and its export (`vx_log_rt_trace.c`, `vx_log_rt_trace_host.c`)

Loggers on any core put entries into the ring under a lock.  An export takes the count and the cells in use under the lock,
writes the cells without it, and takes as many entries off the ring as it counted, again under the lock.
-/
namespace Tiovx

open StepSystem

/-- `tivx_log_rt_entry_t`. -/
structure LogRtEntry where
  timestamp : UInt64
  eventId : UInt64
  eventValue : UInt32
  eventClass : UInt16
  eventType : UInt16
deriving DecidableEq, Inhabited

/-- `sizeof(tivx_log_rt_shm_header_t)`: the queue's four words and 128 index entries of 80 bytes. -/
def logRtHeaderSize : UInt32 := 16 + 128 * 80

/-- `sizeof(tivx_log_rt_entry_t)`. -/
def logRtEntrySize : UInt32 := 24

/-- `event_log_max_entries` as `ownLogRtInit` computes it from the size of the shared memory. -/
def eventLogMaxEntries (shmSize : UInt32) : UInt32 := (shmSize - logRtHeaderSize) / logRtEntrySize

/-- Where a call of `tivxLogRtTraceExportToFile` is.  `writeFile` is `is_write_to_file`, `ok` that its status is success;
`left` are the cells it still has to write and `written` what it has read of the others. -/
inductive ExportPhase
  | opened (writeFile ok : Bool)
  | counted (writeFile ok : Bool) (numLogEntries : UInt32) (left : List Nat) (written : List LogRtEntry)
deriving DecidableEq

/-- An export that has returned: what it wrote, and the entries it took off the ring. -/
structure LogExport where
  writeFile : Bool
  ok : Bool
  written : List LogRtEntry
  cleared : List LogRtEntry
deriving DecidableEq

/-- The queue, the entries and the calls of the export.  `accepted` are the entries the loggers have put in, `exports` the calls
that have come to their end, and `taken` the calls whose count is still to be taken off. -/
structure LogRt where
  rdIndex : UInt32 := 0
  wrIndex : UInt32 := 0
  count : UInt32 := 0
  eventLogBase : Nat → LogRtEntry := fun _ => default
  calls : Nat → Option ExportPhase := fun _ => none
  accepted : List LogRtEntry := []
  exports : List LogExport := []
  taken : List Nat := []

namespace LogRt

/-- `ownLogRtTraceLogEvent` on a valid log. -/
def ownLogRtTraceLogEvent (n : UInt32) (s : LogRt) (e : LogRtEntry) : LogRt :=
  if s.count < n then
    { s with
      eventLogBase := Function.update s.eventLogBase s.wrIndex.toNat e
      wrIndex := (s.wrIndex + 1) % n
      count := s.count + 1
      accepted := s.accepted ++ [e] }
  else s

/-- The cells of the segments `buf_1` and `buf_2` of an export that finds entries. -/
def segments (n : UInt32) (s : LogRt) : List Nat :=
  if 0 < s.count.toNat ∧ s.count.toNat < 2 ^ 31 then
    if s.rdIndex < s.wrIndex then List.range' s.rdIndex.toNat (s.wrIndex.toNat - s.rdIndex.toNat)
    else List.range' s.rdIndex.toNat (n.toNat - s.rdIndex.toNat) ++ List.range' 0 s.wrIndex.toNat
  else []

/-- The entries between the read index and the write index, oldest first. -/
def ring (n : UInt32) (s : LogRt) : List LogRtEntry :=
  (List.range s.count.toNat).map (fun i => s.eventLogBase ((s.rdIndex.toNat + i) % n.toNat))

/-- Takes the entries an export counted off the ring. -/
def takeOff (n : UInt32) (s : LogRt) (numLogEntries : UInt32) : LogRt :=
  if 0 < numLogEntries then
    { s with
      count := s.count - numLogEntries
      rdIndex := (s.rdIndex + numLogEntries) % n }
  else s

end LogRt

/-- What happens next: an entry is logged, an export is called (whether it has a filename, whether the file opens, whether the
buffer is allocated and whether the index is written), it counts the entries, reads one of them for the file, fails to
write, or takes the entries off. -/
inductive LogRtAction
  | logEvent (e : LogRtEntry)
  | exportToFile (x : Nat) (filename opens allocates writesIndex : Bool)
  | countEntries (x : Nat)
  | writeEntry (x : Nat)
  | writeFails (x : Nat)
  | finish (x : Nat)

/-- One step over a ring of `n` entries. -/
def logRtStep (n : UInt32) (s : LogRt) : LogRtAction → Option LogRt
  | .logEvent e => some (s.ownLogRtTraceLogEvent n e)
  | .exportToFile x filename opens allocates writesIndex =>
    match s.calls x with
    | some _ => none
    | none =>
      -- a file that does not open and a buffer that is not allocated end the call at once
      if filename && !opens || !allocates then some s
      else some { s with calls := Function.update s.calls x (some (.opened filename (!filename || writesIndex))) }
  | .countEntries x =>
    match s.calls x with
    | some (.opened writeFile ok) =>
      some { s with
        calls := Function.update s.calls x
          (some (.counted writeFile ok s.count (if writeFile && ok then s.segments n else []) []))
        taken := if 0 < s.count then x :: s.taken else s.taken }
    | _ => none
  | .writeEntry x =>
    match s.calls x with
    | some (.counted writeFile ok numLogEntries (i :: left) written) =>
      some { s with
        calls := Function.update s.calls x
          (some (.counted writeFile ok numLogEntries left (written ++ [s.eventLogBase i]))) }
    | _ => none
  | .writeFails x =>
    match s.calls x with
    | some (.counted true true numLogEntries left written) =>
      -- only a segment with bytes in it is written
      if left = [] ∧ written = [] then none
      else some { s with calls := Function.update s.calls x (some (.counted true false numLogEntries [] written)) }
    | _ => none
  | .finish x =>
    match s.calls x with
    | some (.counted writeFile ok numLogEntries [] written) =>
      some { s.takeOff n numLogEntries with
        calls := Function.update s.calls x none
        exports := s.exports ++ [⟨writeFile, ok, written, (s.ring n).take numLogEntries.toNat⟩]
        taken := s.taken.filter (· ≠ x) }
    | _ => none

/-- Two exports that find entries do not run at the same time, and one with a file has written what it takes off. -/
def exportsApart (s : LogRt) : LogRtAction → Bool
  | .countEntries _ => s.taken.isEmpty
  | .finish x =>
    match s.calls x with
    | some (.counted writeFile ok numLogEntries _ _) => numLogEntries = 0 || !writeFile || ok
    | _ => true
  | _ => true

/-! ### The ring of the log -/

/-- The log's queue and entries are a ring. -/
structure InRing (n : UInt32) (s : LogRt) (r : RingQueue LogRtEntry n.toNat) : Prop where
  rd : r.rd = s.rdIndex.toNat
  wr : r.wr = s.wrIndex.toNat
  count : r.count = s.count.toNat
  mem : ∀ i : Fin n.toNat, r.mem.get i = s.eventLogBase i

theorem InRing.ring {n : UInt32} {s : LogRt} {r : RingQueue LogRtEntry n.toNat} (h : InRing n s r) :
    s.ring n = r.toList := by
  unfold LogRt.ring RingQueue.toList
  rw [h.count]
  refine List.map_congr_left (fun i _ => ?_)
  simp only [RingQueue.cell, h.mem, h.rd]

/-- An entry that is accepted is pushed. -/
theorem InRing.logEvent {n : UInt32} {s : LogRt} {r : RingQueue LogRtEntry n.toNat} (h : InRing n s r)
    (hn : n.toNat < 2 ^ 31) (hc : s.count < n) (e : LogRtEntry) :
    ∃ r' : RingQueue LogRtEntry n.toNat, r.push e = some r' ∧ InRing n (s.ownLogRtTraceLogEvent n e) r' := by
  have hc' : s.count.toNat < n.toNat := UInt32.lt_iff_toNat_lt.1 hc
  obtain ⟨r', hp, hm, hr, hw, hk⟩ := r.push_of_lt e (by rw [h.count]; exact hc')
  have hwr : s.wrIndex.toNat < n.toNat := by rw [← h.wr]; exact r.wr_lt
  refine ⟨r', hp, ?_⟩
  unfold LogRt.ownLogRtTraceLogEvent
  rw [if_pos hc]
  refine ⟨by rw [hr, h.rd], ?_, ?_, fun i => ?_⟩
  · rw [hw, h.wr]
    have hw1 : (s.wrIndex.toNat + 1) % 2 ^ 32 = s.wrIndex.toNat + 1 := Nat.mod_eq_of_lt (by omega)
    simp only [UInt32.toNat_mod, UInt32.toNat_add, UInt32.reduceToNat, hw1]
  · rw [hk, h.count]
    simp only [UInt32.toNat_add, UInt32.reduceToNat]
    omega
  · rw [hm]
    by_cases hi : (i : Nat) = s.wrIndex.toNat
    · simp only [hi, Function.update_self]
      exact (Vector.getElem_set ..).trans (if_pos (by rw [h.wr, hi]))
    · simp only [Function.update_of_ne hi, ← h.mem]
      exact (Vector.getElem_set ..).trans (if_neg (by rw [h.wr]; exact Ne.symm hi))

/-- The entries an export counted are skipped. -/
theorem InRing.takeOff {n : UInt32} {s : LogRt} {r : RingQueue LogRtEntry n.toNat} (h : InRing n s r)
    (hn : n.toNat < 2 ^ 31) {k : UInt32} (h0 : 0 < k) (hk : k.toNat ≤ r.count) :
    InRing n (s.takeOff n k) (r.skip k.toNat hk) := by
  have hc := h.count
  have hr := r.rd_lt
  have hl := r.count_le
  unfold LogRt.takeOff
  rw [if_pos h0]
  refine ⟨?_, h.wr, ?_, h.mem⟩
  · have hk1 : (s.rdIndex.toNat + k.toNat) % 2 ^ 32 = s.rdIndex.toNat + k.toNat :=
      Nat.mod_eq_of_lt (by rw [← h.rd]; omega)
    simp only [RingQueue.skip, UInt32.toNat_mod, UInt32.toNat_add, hk1, h.rd]
  · simp only [RingQueue.skip]
    rw [UInt32.toNat_sub_of_le _ _ (UInt32.le_iff_toNat_le.2 (by omega)), h.count]

/-- The log is a ring, or has no room for any entry. -/
def Ringed (n : UInt32) (s : LogRt) : Prop :=
  (n.toNat = 0 ∧ s.count.toNat = 0 ∧ s.rdIndex = s.wrIndex) ∨ ∃ r, InRing n s r

theorem Ringed.start (n : UInt32) : Ringed n {} := by
  by_cases hn : n.toNat = 0
  · exact .inl ⟨hn, rfl, rfl⟩
  · refine .inr ⟨.empty (Vector.ofFn (fun _ => default)) (Nat.pos_of_ne_zero hn), rfl, rfl, rfl, fun i => ?_⟩
    exact Vector.getElem_ofFn ..

theorem Ringed.of_eq {n : UInt32} {s t : LogRt} (h : Ringed n s) (hr : t.rdIndex = s.rdIndex) (hw : t.wrIndex = s.wrIndex)
    (hc : t.count = s.count) (hm : t.eventLogBase = s.eventLogBase) : Ringed n t := by
  obtain ⟨h1, h2, h3⟩ | ⟨r, h⟩ := h
  · exact .inl ⟨h1, by rw [hc, h2], by rw [hr, hw, h3]⟩
  · exact .inr ⟨r, by rw [hr, h.rd], by rw [hw, h.wr], by rw [hc, h.count], by rw [hm]; exact h.mem⟩

theorem Ringed.count_le {n : UInt32} {s : LogRt} (h : Ringed n s) : s.count.toNat ≤ n.toNat := by
  obtain ⟨_, h0, _⟩ | ⟨r, h⟩ := h
  · omega
  · rw [← h.count]; exact r.count_le

theorem Ringed.index_eq {n : UInt32} {s : LogRt} (h : Ringed n s) :
    (s.rdIndex.toNat + s.count.toNat) % n.toNat = s.wrIndex.toNat % n.toNat := by
  obtain ⟨_, h0, h1⟩ | ⟨r, h⟩ := h
  · rw [h0, h1, Nat.add_zero]
  · rw [← h.count, ← h.rd, ← h.wr, Nat.mod_eq_of_lt r.wr_lt, r.wr_eq]

/-- Logging appends to the ring what it accepts. -/
theorem Ringed.logEvent {n : UInt32} {s : LogRt} (h : Ringed n s) (hn : n.toNat < 2 ^ 31) (e : LogRtEntry) :
    Ringed n (s.ownLogRtTraceLogEvent n e) ∧ ∃ l, (s.ownLogRtTraceLogEvent n e).ring n = s.ring n ++ l ∧
      (s.ownLogRtTraceLogEvent n e).accepted = s.accepted ++ l ∧
      (s.ownLogRtTraceLogEvent n e).count.toNat = s.count.toNat + l.length := by
  by_cases hc : s.count < n
  · obtain ⟨hn0, _⟩ | ⟨r, hr⟩ := h
    · have := UInt32.lt_iff_toNat_lt.1 hc
      omega
    · obtain ⟨r', hp, hr'⟩ := hr.logEvent hn hc e
      have hl := r.toList_push e r' hp
      refine ⟨.inr ⟨r', hr'⟩, [e], by rw [hr'.ring, hr.ring, hl], ?_, ?_⟩
      · rw [LogRt.ownLogRtTraceLogEvent, if_pos hc]
      · rw [← hr'.count, ← hr.count, ← r'.length_toList, ← r.length_toList, hl, List.length_append]
  · rw [LogRt.ownLogRtTraceLogEvent, if_neg hc]
    exact ⟨h, [], by simp, by simp, by simp⟩

/-- Taking off drops the oldest entries. -/
theorem Ringed.takeOff {n : UInt32} {s : LogRt} (h : Ringed n s) (hn : n.toNat < 2 ^ 31) {k : UInt32}
    (hk : k.toNat ≤ s.count.toNat) :
    Ringed n (s.takeOff n k) ∧ (s.takeOff n k).ring n = (s.ring n).drop k.toNat := by
  by_cases h0 : 0 < k
  · have := UInt32.lt_iff_toNat_lt.1 h0
    obtain ⟨_, hc, _⟩ | ⟨r, hr⟩ := h
    · simp only [UInt32.toNat_zero] at this
      omega
    · have ht := hr.takeOff hn h0 (by rw [hr.count]; exact hk)
      exact ⟨.inr ⟨_, ht⟩, by rw [ht.ring, hr.ring, r.toList_skip]⟩
  · have hk0 : k.toNat = 0 := by
      have := mt UInt32.lt_iff_toNat_lt.2 h0
      simp only [UInt32.toNat_zero] at this
      omega
    rw [LogRt.takeOff, if_neg h0, hk0]
    exact ⟨h, List.drop_zero.symm⟩

/-- The segments of an export are the cells in use, oldest first. -/
theorem Ringed.segments {n : UInt32} {s : LogRt} (h : Ringed n s) (hn : n.toNat < 2 ^ 31) :
    s.segments n = (List.range s.count.toNat).map (fun i => (s.rdIndex.toNat + i) % n.toNat) := by
  have hl := h.count_le
  unfold LogRt.segments
  by_cases hc : 0 < s.count.toNat
  · rw [if_pos ⟨hc, by omega⟩]
    obtain ⟨_, h0, _⟩ | ⟨r, hr⟩ := h
    · omega
    · have he := r.cells_eq (by rw [hr.count]; exact hc)
      rw [hr.count, hr.rd, hr.wr] at he
      rw [he]
      simp only [UInt32.lt_iff_toNat_lt]
  · rw [if_neg (by omega), Nat.eq_zero_of_not_pos hc]
    rfl

theorem Ringed.length_ring (n : UInt32) (s : LogRt) : (s.ring n).length = s.count.toNat := by simp [LogRt.ring]

/-! ### Exports that do not overlap -/

/-- What is known of a call that has counted `k` entries. -/
structure CountedCall (n : UInt32) (s : LogRt) (x : Nat) (writeFile ok : Bool) (k : UInt32) (left : List Nat)
    (written : List LogRtEntry) : Prop where
  alone : k ≠ 0 → s.taken = [x]
  counted : k.toNat ≤ s.count.toNat
  noFile : writeFile = false → written = []
  notOk : k = 0 → written = []
  writes : left ≠ [] → writeFile = true ∧ ok = true
  reads : writeFile = true → ok = true → ∃ j ≤ k.toNat, written = (s.ring n).take j ∧
    left = ((List.range k.toNat).map (fun i => (s.rdIndex.toNat + i) % n.toNat)).drop j

/-- What holds of the log in every state of a run whose exports are apart. -/
structure LogRtInv (n : UInt32) (s : LogRt) : Prop where
  ringed : Ringed n s
  calls : ∀ x f ok k left written, s.calls x = some (.counted f ok k left written) →
    CountedCall n s x f ok k left written
  accepted : s.accepted = s.exports.flatMap (·.cleared) ++ s.ring n
  exports : ∀ e ∈ s.exports, e.written = if e.writeFile then e.cleared else []

theorem LogRtInv.start (n : UInt32) : LogRtInv n {} where
  ringed := .start n
  calls := fun _ _ _ _ _ _ h => nomatch h
  accepted := rfl
  exports := fun _ h => nomatch h

theorem LogRtInv.logEvent {n : UInt32} {s : LogRt} (I : LogRtInv n s) (hn : n.toNat < 2 ^ 31) (e : LogRtEntry) :
    LogRtInv n (s.ownLogRtTraceLogEvent n e) := by
  obtain ⟨hr, l, hring, hacc, hcount⟩ := I.ringed.logEvent hn e
  have hrd : (s.ownLogRtTraceLogEvent n e).rdIndex = s.rdIndex := by unfold LogRt.ownLogRtTraceLogEvent; split <;> rfl
  have hcalls : (s.ownLogRtTraceLogEvent n e).calls = s.calls := by unfold LogRt.ownLogRtTraceLogEvent; split <;> rfl
  have htaken : (s.ownLogRtTraceLogEvent n e).taken = s.taken := by unfold LogRt.ownLogRtTraceLogEvent; split <;> rfl
  have hexp : (s.ownLogRtTraceLogEvent n e).exports = s.exports := by unfold LogRt.ownLogRtTraceLogEvent; split <;> rfl
  refine ⟨hr, fun x f ok k left written h => ?_, by rw [hacc, I.accepted, hexp, hring, List.append_assoc],
    by rw [hexp]; exact I.exports⟩
  rw [hcalls] at h
  have C := I.calls x f ok k left written h
  refine ⟨by rw [htaken]; exact C.alone, by have := C.counted; omega, C.noFile, C.notOk, C.writes, fun hf ho => ?_⟩
  obtain ⟨j, hj, hw, hleft⟩ := C.reads hf ho
  refine ⟨j, hj, ?_, by rw [hrd]; exact hleft⟩
  -- what the export reads was there before
  have hlen := Ringed.length_ring n s
  rw [hring, List.take_append_of_le_length (by have := C.counted; omega)]
  exact hw

/-- A call moves on, and the log stays. -/
theorem LogRtInv.setCall {n : UInt32} {s : LogRt} (I : LogRtInv n s) (x : Nat) (p : Option ExportPhase)
    (hp : ∀ f ok k left written, p = some (.counted f ok k left written) → CountedCall n s x f ok k left written) :
    LogRtInv n { s with calls := Function.update s.calls x p } := by
  refine ⟨I.ringed.of_eq rfl rfl rfl rfl, fun y f ok k left written h => ?_, I.accepted, I.exports⟩
  have C : CountedCall n s y f ok k left written := by
    by_cases hy : y = x
    · subst hy
      exact hp f ok k left written (by simpa using h)
    · exact I.calls y f ok k left written (by simpa [Function.update_of_ne hy] using h)
  exact ⟨C.alone, C.counted, C.noFile, C.notOk, C.writes, C.reads⟩

theorem LogRtInv.countEntries {n : UInt32} {s : LogRt} (I : LogRtInv n s) (hn : n.toNat < 2 ^ 31) (x : Nat)
    (f ok : Bool) (ht : s.taken = []) :
    LogRtInv n { s with
      calls := Function.update s.calls x
        (some (.counted f ok s.count (if f && ok then s.segments n else []) []))
      taken := if 0 < s.count then x :: s.taken else s.taken } := by
  have hpos : s.count ≠ 0 → 0 < s.count := fun h => UInt32.pos_iff_ne_zero.2 h
  refine ⟨I.ringed.of_eq rfl rfl rfl rfl, fun y g ok' k left written h => ?_, I.accepted, I.exports⟩
  by_cases hy : y = x
  · subst hy
    simp only [Function.update_self, Option.some.injEq, ExportPhase.counted.injEq] at h
    obtain ⟨rfl, rfl, rfl, rfl, rfl⟩ := h
    refine ⟨fun hk => ?_, Nat.le_refl _, fun _ => rfl, fun _ => rfl, fun hl => ?_,
      fun hf ho => ⟨0, Nat.zero_le _, rfl, ?_⟩⟩
    · simp only [if_pos (hpos hk), ht]
    · by_cases hfo : (f && ok) = true
      · exact Bool.and_eq_true_iff.1 hfo
      · exact absurd (if_neg hfo) hl
    · rw [hf, ho, Bool.and_self, if_pos rfl, I.ringed.segments hn, List.drop_zero]
  · have C := I.calls y g ok' k left written (by simpa [Function.update_of_ne hy] using h)
    -- an export that has counted entries and is not at its end would be in `taken`
    have hk : k = 0 := Classical.byContradiction (fun hk => by have := C.alone hk; simp [ht] at this)
    exact ⟨fun h => absurd hk h, C.counted, C.noFile, C.notOk, C.writes, C.reads⟩

/-- The entry read next is the next one of the ring. -/
theorem CountedCall.writeEntry {n : UInt32} {s : LogRt} {x i : Nat} {f ok : Bool} {k : UInt32} {left : List Nat}
    {written : List LogRtEntry} (C : CountedCall n s x f ok k (i :: left) written) :
    CountedCall n s x f ok k left (written ++ [s.eventLogBase i]) := by
  obtain ⟨hf, ho⟩ := C.writes (List.cons_ne_nil i left)
  obtain ⟨j, hj, hw, hleft⟩ := C.reads hf ho
  have hc := C.counted
  have hlen := congrArg List.length hleft
  simp only [List.length_cons, List.length_drop, List.length_map, List.length_range] at hlen
  have hjk : j < k.toNat := by omega
  have hi : i = (s.rdIndex.toNat + j) % n.toNat ∧
      left = ((List.range k.toNat).map (fun i => (s.rdIndex.toNat + i) % n.toNat)).drop (j + 1) := by
    rw [List.drop_eq_getElem_cons (by simpa using hjk)] at hleft
    simpa using hleft
  refine ⟨C.alone, hc, fun h => absurd (hf.symm.trans h) (by decide), fun h => ?_, fun _ => ⟨hf, ho⟩,
    fun _ _ => ⟨j + 1, hjk, ?_, hi.2⟩⟩
  · rw [h] at hjk
    exact absurd hjk (Nat.not_lt_zero _)
  · have hjl : j < (s.ring n).length := by rw [Ringed.length_ring]; omega
    rw [hw, List.take_add_one, List.getElem?_eq_getElem hjl]
    simp [LogRt.ring, hi.1]

/-- An export with a file that comes to its end has written what it takes off. -/
theorem CountedCall.written_eq {n : UInt32} {s : LogRt} {x : Nat} {f ok : Bool} {k : UInt32} {written : List LogRtEntry}
    (C : CountedCall n s x f ok k [] written) (h : k = 0 ∨ f = false ∨ ok = true) :
    written = if f then (s.ring n).take k.toNat else [] := by
  cases f with
  | false => exact C.noFile rfl
  | true =>
    by_cases hk : k = 0
    · rw [C.notOk hk, hk]; rfl
    · have ho : ok = true := by simpa [hk] using h
      obtain ⟨j, hj, hw, hleft⟩ := C.reads rfl ho
      have hjk : k.toNat ≤ j := by simpa using hleft
      rw [hw, if_pos rfl, Nat.le_antisymm hj hjk]

theorem LogRtInv.finish {n : UInt32} {s : LogRt} (I : LogRtInv n s) (hn : n.toNat < 2 ^ 31) {x : Nat} {f ok : Bool}
    {k : UInt32} {written : List LogRtEntry} (hx : s.calls x = some (.counted f ok k [] written))
    (hc : k = 0 ∨ f = false ∨ ok = true) :
    LogRtInv n { s.takeOff n k with
      calls := Function.update s.calls x none
      exports := s.exports ++ [⟨f, ok, written, (s.ring n).take k.toNat⟩]
      taken := s.taken.filter (· ≠ x) } := by
  have C := I.calls x f ok k [] written hx
  obtain ⟨hr, hring⟩ := I.ringed.takeOff hn C.counted
  have hacc : (s.takeOff n k).accepted = s.accepted := by unfold LogRt.takeOff; split <;> rfl
  refine ⟨hr.of_eq rfl rfl rfl rfl, fun y g ok' k' left' written' h => ?_, ?_, fun e he => ?_⟩
  · by_cases hy : y = x
    · simp [hy] at h
    · have D := I.calls y g ok' k' left' written' (by simpa [Function.update_of_ne hy] using h)
      by_cases hk : k = 0
      · -- nothing was counted, so nothing changes
        have hs : s.takeOff n k = s := by rw [LogRt.takeOff, if_neg (by simp [hk])]
        rw [hs]
        exact ⟨fun h0 => by simp [D.alone h0, hy], D.counted, D.noFile, D.notOk, D.writes, D.reads⟩
      · -- the other call has counted nothing
        have hk' : k' = 0 := Classical.byContradiction (fun h0 => hy (by simpa using (D.alone h0).symm.trans (C.alone hk)))
        subst hk'
        refine ⟨fun h0 => absurd rfl h0, Nat.zero_le _, D.noFile, D.notOk, D.writes, fun hf ho => ?_⟩
        obtain ⟨j, hj, hw, hleft⟩ := D.reads hf ho
        have hj0 : j = 0 := Nat.le_zero.1 hj
        exact ⟨0, Nat.le_refl _, by simpa [hj0] using hw, by simpa [hj0] using hleft⟩
  · have h1 := List.take_append_drop k.toNat (s.ring n)
    show (s.takeOff n k).accepted = _ ++ (s.takeOff n k).ring n
    rw [hacc, hring, I.accepted, List.flatMap_append, List.append_assoc]
    simp only [List.flatMap_cons, List.flatMap_nil, List.append_nil, h1]
  · rcases List.mem_append.1 he with he | he
    · exact I.exports e he
    · rw [List.mem_singleton.1 he]
      exact C.written_eq hc

/-- Every step of exports that are apart keeps the invariant. -/
theorem LogRtInv.step {n : UInt32} (hn : n.toNat < 2 ^ 31) {s t : LogRt} {a : LogRtAction} (I : LogRtInv n s)
    (hc : exportsApart s a = true) (h : logRtStep n s a = some t) : LogRtInv n t := by
  cases a with
  | logEvent e =>
    cases h
    exact I.logEvent hn e
  | exportToFile x filename opens allocates writesIndex =>
    simp only [logRtStep] at h
    split at h
    · cases h
    · split at h
      · cases h; exact I
      · cases h
        exact I.setCall x _ (fun _ _ _ _ _ h => nomatch h)
  | countEntries x =>
    simp only [logRtStep] at h
    split at h
    · cases h
      exact I.countEntries hn x _ _ (List.isEmpty_iff.1 hc)
    · cases h
  | writeEntry x =>
    simp only [logRtStep] at h
    split at h
    · rename_i f ok k i left written hx
      cases h
      refine I.setCall x _ (fun f' ok' k' left' written' h => ?_)
      cases h
      exact (I.calls x f ok k _ written hx).writeEntry
    · cases h
  | writeFails x =>
    simp only [logRtStep] at h
    split at h
    · rename_i k left written hx
      split at h
      · cases h
      · cases h
        refine I.setCall x _ (fun f' ok' k' left' written' h => ?_)
        cases h
        have C := I.calls x true true k left written hx
        exact ⟨C.alone, C.counted, fun h => absurd h (by decide), C.notOk, fun h => absurd rfl h,
          fun _ h => absurd h (by decide)⟩
    · cases h
  | finish x =>
    simp only [logRtStep] at h
    split at h
    · rename_i f ok k written hx
      cases h
      refine I.finish hn hx ?_
      simpa [exportsApart, hx, or_assoc] using hc
    · cases h

theorem eventLogMaxEntries_lt (shmSize : UInt32) : (eventLogMaxEntries shmSize).toNat < 2 ^ 31 := by
  have := (shmSize - logRtHeaderSize).toNat_lt
  simp only [eventLogMaxEntries, logRtEntrySize, UInt32.toNat_div, UInt32.reduceToNat]
  omega

/-- The count goes from the read index to the write index, and each entry that was accepted is in the ring or was taken off by
one export, in the order of acceptance; an export with a file has written what it took off. -/
structure LogRtKept (n : UInt32) (s : LogRt) : Prop where
  countLe : s.count.toNat ≤ n.toNat
  indexEq : (s.rdIndex.toNat + s.count.toNat) % n.toNat = s.wrIndex.toNat % n.toNat
  accepted : s.accepted = s.exports.flatMap (·.cleared) ++ s.ring n
  written : ∀ e ∈ s.exports, e.written = if e.writeFile then e.cleared else []

/-- **An entry is written once, in order, before it is overwritten**, in every run whose exports are apart. -/
theorem logRtKept_of_reach (shmSize : UInt32) {s : LogRt}
    (h : Reach (logRtStep (eventLogMaxEntries shmSize)) (fun s a => exportsApart s a = true) {} s) :
    LogRtKept (eventLogMaxEntries shmSize) s := by
  have I : LogRtInv (eventLogMaxEntries shmSize) s :=
    h.inv (.start _) (fun _ _ _ I hc hs => I.step (eventLogMaxEntries_lt shmSize) hc hs)
  exact ⟨I.ringed.count_le, I.ringed.index_eq, I.accepted, I.exports⟩

/-- An entry with an id, to tell entries apart. -/
def logRtEntry (eventId : UInt64) : LogRtEntry := ⟨0, eventId, 0, 0, 0⟩

/-- An export with a file over a ring of two entries that goes round, a logger in between, and an export without a file. -/
def logRtRun : List LogRtAction :=
  [.logEvent (logRtEntry 1), .exportToFile 0 true true true true, .countEntries 0, .logEvent (logRtEntry 2), .writeEntry 0,
    .logEvent (logRtEntry 3), .finish 0, .logEvent (logRtEntry 4), .exportToFile 1 false false true false, .countEntries 1,
    .finish 1, .logEvent (logRtEntry 5)]

theorem logRtKept_run : ∃ s : LogRt, (s.accepted.map (·.eventId) = [1, 2, 4, 5] ∧
    s.exports = [⟨true, true, [logRtEntry 1], [logRtEntry 1]⟩, ⟨false, true, [], [logRtEntry 2, logRtEntry 4]⟩] ∧
    s.ring 2 = [logRtEntry 5]) ∧ LogRtKept 2 s := by
  have hexec : (exec (logRtStep (eventLogMaxEntries 10304)) exportsApart {} logRtRun).map
      (fun s => (s.accepted.map (·.eventId), s.exports, s.ring 2)) = some ([1, 2, 4, 5],
        [⟨true, true, [logRtEntry 1], [logRtEntry 1]⟩, ⟨false, true, [], [logRtEntry 2, logRtEntry 4]⟩],
        [logRtEntry 5]) := by
    decide +kernel
  obtain ⟨s, hs, hx⟩ := exists_reach_of_exec hexec
  simp only [Prod.mk.injEq] at hx
  exact ⟨s, hx, logRtKept_of_reach 10304 hs⟩

/-- The count is that of the entries in the ring, and each entry that was accepted is there or was written by one export whose
writes succeeded. -/
structure LogRtWritten (n : UInt32) (s : LogRt) : Prop where
  indexEq : (s.rdIndex.toNat + s.count.toNat) % n.toNat = s.wrIndex.toNat % n.toNat
  accepted : s.accepted = (s.exports.filter (fun e => e.writeFile && e.ok)).flatMap (·.written) ++ s.ring n

/-- An export without a file clears an entry that no file gets, and so does one whose write fails; two exports that count the
same entry both write it, and the count goes below zero. -/
theorem exports_clear :
    (∃ s, Reach (logRtStep (eventLogMaxEntries 10328)) (fun s a => anyStep s a = true) {} s ∧ ¬ LogRtWritten 3 s ∧
      s.exports = [⟨false, true, [], [logRtEntry 1]⟩]) ∧
    (∃ s, Reach (logRtStep (eventLogMaxEntries 10328)) (fun s a => anyStep s a = true) {} s ∧ ¬ LogRtWritten 3 s ∧
      s.exports = [⟨true, false, [logRtEntry 1], [logRtEntry 1]⟩]) ∧
    (∃ s, Reach (logRtStep (eventLogMaxEntries 10328)) (fun s a => anyStep s a = true) {} s ∧ ¬ LogRtWritten 3 s ∧
      s.exports.map (·.written) = [[logRtEntry 1], [logRtEntry 1]] ∧ s.count = 4294967295) := by
  have h1 : (exec (logRtStep (eventLogMaxEntries 10328)) anyStep {} [.logEvent (logRtEntry 1),
      .exportToFile 0 false false true false, .countEntries 0, .finish 0]).map
      (fun s => (s.accepted, s.ring 3, s.exports)) =
      some ([logRtEntry 1], [], [⟨false, true, [], [logRtEntry 1]⟩]) := by decide +kernel
  have h2 : (exec (logRtStep (eventLogMaxEntries 10328)) anyStep {} [.logEvent (logRtEntry 1),
      .exportToFile 0 true true true true, .countEntries 0, .writeEntry 0, .writeFails 0, .finish 0]).map
      (fun s => (s.accepted, s.ring 3, s.exports)) =
      some ([logRtEntry 1], [], [⟨true, false, [logRtEntry 1], [logRtEntry 1]⟩]) := by decide +kernel
  have h3 : (exec (logRtStep (eventLogMaxEntries 10328)) anyStep {} [.logEvent (logRtEntry 1),
      .exportToFile 0 true true true true, .exportToFile 1 true true true true, .countEntries 0, .countEntries 1,
      .writeEntry 0, .writeEntry 1, .finish 0, .finish 1]).map
      (fun s => (s.rdIndex, s.wrIndex, s.count, s.exports.map (·.written))) =
      some (2, 1, 4294967295, [[logRtEntry 1], [logRtEntry 1]]) := by decide +kernel
  obtain ⟨s1, hr1, hx1⟩ := exists_reach_of_exec h1
  obtain ⟨s2, hr2, hx2⟩ := exists_reach_of_exec h2
  obtain ⟨s3, hr3, hx3⟩ := exists_reach_of_exec h3
  simp only [Prod.mk.injEq] at hx1 hx2 hx3
  refine ⟨⟨s1, hr1, fun h => ?_, hx1.2.2⟩, ⟨s2, hr2, fun h => ?_, hx2.2.2⟩, ⟨s3, hr3, fun h => ?_, hx3.2.2.2, hx3.2.2.1⟩⟩
  · have := h.accepted
    simp [hx1.1, hx1.2.1, hx1.2.2] at this
  · have := h.accepted
    simp [hx2.1, hx2.2.1, hx2.2.2] at this
  · have := h.indexEq
    rw [hx3.1, hx3.2.1, hx3.2.2.1] at this
    exact absurd this (by decide)

end Tiovx
