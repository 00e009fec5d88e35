import Mathlib.Data.List.Chain
import Mathlib.Data.List.DropRight
import Mathlib.Tactic.Linarith
import SystemMonitor.Overview.Sample
import SystemMonitor.Lib.Ring

/-! The retained history of completed snapshots.

A ring of 120 samples with the generation and the time of the newest one. A recorded
snapshot pushes one sample, or a gap marker and a sample. The ring is compared with a
list that grows without bound (`Log`): it holds the end of that list
(`lsmOverviewHistory_eq`), whose times increase and whose gap markers stand alone, between
two samples. -/
namespace SystemMonitor.Overview
open Lib

def lsmOverviewHistoryCapacity : Nat := 120

/-- As `calloc` leaves it. -/
structure LsmOverviewHistory where
  samples : Nat → LsmOverviewSample := fun _ => {}
  count : Nat := 0
  next : Nat := 0
  lastGeneration : Nat := 0
  lastTimestamp : ℚ := 0
  haveLast : Bool := false

def historyPush (history : LsmOverviewHistory) (sample : LsmOverviewSample) : LsmOverviewHistory :=
  { history with
    samples := Function.update history.samples history.next sample
    next := (history.next + 1) % lsmOverviewHistoryCapacity
    count :=
      if history.count < lsmOverviewHistoryCapacity then history.count + 1 else history.count }

def historySlot (history : LsmOverviewHistory) (index : Nat) : Nat :=
  let oldest := (history.next + lsmOverviewHistoryCapacity - history.count) % lsmOverviewHistoryCapacity
  (oldest + index) % lsmOverviewHistoryCapacity

/-- `lsm_overview_history_reset`. -/
def lsmOverviewHistoryReset : LsmOverviewHistory := {}

/-- The generation that follows. -/
def successor (generation : Nat) : Nat := if generation = uint64Max then 1 else generation + 1

def gapMarker (before after : ℚ) : LsmOverviewSample :=
  { gap := true, monotonicSeconds := before + (after - before) / 2 }

/-- The end of `lsm_overview_history_record`, which every accepted snapshot reaches. -/
def retain (history : LsmOverviewHistory) (monitor : LsmMonitor) (seconds : ℚ) : LsmOverviewHistory :=
  { historyPush history (deriveSample monitor seconds) with
    lastGeneration := monitor.sampleGeneration
    lastTimestamp := seconds
    haveLast := true }

def lsmOverviewHistoryRecord (history : LsmOverviewHistory) (monitor : LsmMonitor) :
    Bool × LsmOverviewHistory :=
  if monitor.sampleGeneration = 0 then (false, history)
  else
    match finite monitor.sampleMonotonicSeconds with
    | none => (false, history)
    | some seconds =>
      if seconds ≤ 0 then (false, history)
      else if history.haveLast then
        if monitor.sampleGeneration = history.lastGeneration then (false, history)
        else if seconds ≤ history.lastTimestamp then (false, history)
        else if monitor.sampleGeneration ≠ successor history.lastGeneration then
          (true, retain (historyPush history (gapMarker history.lastTimestamp seconds)) monitor seconds)
        else (true, retain history monitor seconds)
      else (true, retain history monitor seconds)

/-- `lsm_overview_history_get`. -/
def lsmOverviewHistoryGet (history : LsmOverviewHistory) (index : Nat) : Option LsmOverviewSample :=
  if history.count ≤ index then none else some (history.samples (historySlot history index))

/-- `lsm_overview_history_latest`. -/
def lsmOverviewHistoryLatest (history : LsmOverviewHistory) : Option LsmOverviewSample :=
  if history.count = 0 then none else lsmOverviewHistoryGet history (history.count - 1)

/-- A call from outside. -/
inductive Call where
  | record (monitor : LsmMonitor)
  | reset

def LsmOverviewHistory.call (history : LsmOverviewHistory) : Call → LsmOverviewHistory
  | .record monitor => (lsmOverviewHistoryRecord history monitor).2
  | .reset => lsmOverviewHistoryReset

/-- From `lsm_overview_history_create` on. -/
def LsmOverviewHistory.run (calls : List Call) : LsmOverviewHistory :=
  calls.foldl LsmOverviewHistory.call {}

/-! ### The list behind the ring -/

/-- All elements since the last reset, with the generation and the time of the last accepted snapshot. -/
structure Log where
  elements : List LsmOverviewSample := []
  last : Option (Nat × ℚ) := none

/-- The snapshot has no generation, the last one's, no time, or one that is not later. -/
def Log.Rejects (log : Log) (monitor : LsmMonitor) : Prop :=
  monitor.sampleGeneration = 0 ∨ (∃ last ∈ log.last, monitor.sampleGeneration = last.1) ∨
    finite monitor.sampleMonotonicSeconds = none ∨
    ∃ seconds ∈ finite monitor.sampleMonotonicSeconds,
      seconds ≤ 0 ∨ ∃ last ∈ log.last, seconds ≤ last.2

/-- What stands between the last accepted snapshot and this one. -/
def Log.gap (log : Log) (generation : Nat) (seconds : ℚ) : List LsmOverviewSample :=
  match log.last with
  | none => []
  | some (last, before) => if generation ≠ successor last then [gapMarker before seconds] else []

def Log.accept (log : Log) (monitor : LsmMonitor) (seconds : ℚ) : Log where
  elements := log.elements ++ log.gap monitor.sampleGeneration seconds ++ [deriveSample monitor seconds]
  last := some (monitor.sampleGeneration, seconds)

instance (log : Log) (monitor : LsmMonitor) : Decidable (log.Rejects monitor) :=
  inferInstanceAs (Decidable (_ ∨ _ ∨ _ ∨ _))

def Log.record (log : Log) (monitor : LsmMonitor) : Log :=
  if log.Rejects monitor then log
  else ((finite monitor.sampleMonotonicSeconds).map (log.accept monitor)).getD log

def Log.call (log : Log) : Call → Log
  | .record monitor => log.record monitor
  | .reset => {}

def Log.run (calls : List Call) : Log := calls.foldl Log.call {}

/-! ### Stamps

What a derived sample says of itself is settled before any device is looked at. -/

def LsmOverviewSample.stamp (sample : LsmOverviewSample) : Bool × Nat × ℚ :=
  (sample.gap, sample.generation, sample.monotonicSeconds)

section Stamps
variable (monitor : LsmMonitor) (sample : LsmOverviewSample)

theorem deriveDisk_stamp : (deriveDisk monitor sample).stamp = sample.stamp := by
  simp only [deriveDisk]
  split <;> rfl

theorem deriveNetwork_stamp : (deriveNetwork monitor sample).stamp = sample.stamp := by
  rw [deriveNetwork]
  split <;> rfl

theorem deriveGpu_stamp : (deriveGpu monitor sample).stamp = sample.stamp := by
  rw [deriveGpu]
  split <;> rfl

theorem deriveTemperature_stamp : (deriveTemperature monitor sample).stamp = sample.stamp :=
  deriveTemperature_frame monitor sample LsmOverviewSample.stamp fun _ _ _ _ _ _ _ => rfl

theorem deriveMemory_stamp : (deriveMemory monitor sample).stamp = sample.stamp := by
  rw [deriveMemory]
  split <;> rfl

theorem deriveSample_stamp (seconds : ℚ) :
    (deriveSample monitor seconds).stamp = (false, monitor.sampleGeneration, seconds) := by
  rw [deriveSample]
  calc (derivePressure monitor _).stamp
      = (deriveTemperature monitor _).stamp := rfl
    _ = (deriveCpu monitor _).stamp := by
        rw [deriveTemperature_stamp, deriveGpu_stamp, deriveNetwork_stamp, deriveDisk_stamp, deriveMemory_stamp]
    _ = (false, monitor.sampleGeneration, seconds) := rfl

end Stamps

theorem deriveSample_gap (monitor : LsmMonitor) (seconds : ℚ) : (deriveSample monitor seconds).gap = false :=
  congrArg (·.1) (deriveSample_stamp monitor seconds)

theorem deriveSample_seconds (monitor : LsmMonitor) (seconds : ℚ) :
    (deriveSample monitor seconds).monotonicSeconds = seconds :=
  congrArg (·.2.2) (deriveSample_stamp monitor seconds)

/-! ### What the list looks like -/

/-- Times increase, and no gap marker follows another. -/
structure Marked (elements : List LsmOverviewSample) : Prop where
  increasing : elements.Pairwise (·.monotonicSeconds < ·.monotonicSeconds)
  apart : elements.IsChain fun sample next => sample.gap = true → next.gap = false

theorem Marked.empty : Marked [] := ⟨.nil, .nil⟩

theorem Marked.rtake {elements : List LsmOverviewSample} (h : Marked elements) (n : Nat) :
    Marked (elements.rtake n) :=
  ⟨h.increasing.sublist (List.drop_sublist _ _), h.apart.suffix (List.drop_suffix _ _)⟩

/-- Every time is at most the newest one. -/
theorem Marked.le_newest {elements : List LsmOverviewSample} (h : Marked elements) {newest : LsmOverviewSample}
    (hnewest : newest ∈ elements.getLast?) {sample : LsmOverviewSample} (hmem : sample ∈ elements) :
    sample.monotonicSeconds ≤ newest.monotonicSeconds := by
  obtain ⟨older, rfl⟩ := List.mem_getLast?_eq_getLast hnewest |>.elim fun hne heq =>
    (⟨elements.dropLast, by rw [heq, List.dropLast_append_getLast hne]⟩ : ∃ older, elements = older ++ [newest])
  rcases List.mem_append.mp hmem with hmem | hmem
  · exact ((List.pairwise_append.mp h.increasing).2.2 sample hmem newest (List.mem_singleton_self _)).le
  · rw [List.mem_singleton.mp hmem]

theorem Marked.concat {elements : List LsmOverviewSample} (h : Marked elements) {sample : LsmOverviewSample}
    (hlater : ∀ newest ∈ elements.getLast?, newest.monotonicSeconds < sample.monotonicSeconds)
    (happart : ∀ newest ∈ elements.getLast?, newest.gap = true → sample.gap = false) :
    Marked (elements ++ [sample]) := by
  refine ⟨List.pairwise_append.mpr ⟨h.increasing, List.pairwise_singleton _ _, ?_⟩,
    List.isChain_append.mpr ⟨h.apart, .singleton _, ?_⟩⟩
  · intro older hmem _ hlast
    obtain rfl := List.mem_singleton.mp hlast
    obtain ⟨newest, hnewest⟩ := Option.isSome_iff_exists.mp
      (List.getLast?_isSome.mpr (List.ne_nil_of_mem hmem))
    exact (h.le_newest hnewest hmem).trans_lt (hlater newest hnewest)
  · intro newest hnewest _ hlast
    obtain rfl := Option.some.inj hlast
    exact happart newest hnewest

/-- The list is marked, and ends with the sample of the last accepted snapshot. -/
structure Log.Valid (log : Log) : Prop where
  marked : Marked log.elements
  newest : ∀ sample ∈ log.elements.getLast?,
    ∃ last ∈ log.last, sample.gap = false ∧ sample.monotonicSeconds = last.2
  bare : log.last = none → log.elements = []

theorem Log.Valid.empty : Log.Valid {} := ⟨.empty, fun _ h => (nomatch h), fun _ => rfl⟩

theorem gapMarker_between {before after : ℚ} (h : before < after) :
    before < (gapMarker before after).monotonicSeconds ∧ (gapMarker before after).monotonicSeconds < after := by
  simp only [gapMarker]
  constructor <;> linarith

/-- A gap marker goes between the newest sample and a later one. -/
theorem Log.Valid.gap {log : Log} (h : log.Valid) (generation : Nat) {seconds : ℚ}
    (hlater : ∀ last ∈ log.last, last.2 < seconds) :
    Marked (log.elements ++ log.gap generation seconds) ∧
      ∀ newest ∈ (log.elements ++ log.gap generation seconds).getLast?, newest.monotonicSeconds < seconds := by
  rw [Log.gap]
  cases hlast : log.last with
  | none =>
    rw [h.bare hlast]
    exact ⟨.empty, fun _ hnewest => nomatch hnewest⟩
  | some last =>
    have hbetween := gapMarker_between (hlater last hlast)
    have hnewest : ∀ newest ∈ log.elements.getLast?, newest.gap = false ∧ newest.monotonicSeconds = last.2 := by
      intro newest hmem
      obtain ⟨last', hlast', hnewest⟩ := h.newest newest hmem
      obtain rfl := Option.some.inj (hlast.symm.trans hlast')
      exact hnewest
    dsimp only
    split
    next =>
      refine ⟨h.marked.concat ?_ ?_, ?_⟩
      · intro newest hmem
        exact (hnewest newest hmem).2.trans_lt hbetween.1
      · intro newest hmem hgap
        exact Bool.noConfusion (hgap.symm.trans (hnewest newest hmem).1)
      · intro newest hmem
        rw [List.getLast?_concat] at hmem
        exact Option.some.inj hmem ▸ hbetween.2
    next =>
      rw [List.append_nil]
      exact ⟨h.marked, fun newest hmem => (hnewest newest hmem).2.trans_lt (hlater last hlast)⟩

theorem Log.Valid.accept {log : Log} (h : log.Valid) (monitor : LsmMonitor) {seconds : ℚ}
    (hlater : ∀ last ∈ log.last, last.2 < seconds) : (log.accept monitor seconds).Valid := by
  obtain ⟨hmarked, hnewest⟩ := h.gap monitor.sampleGeneration hlater
  refine ⟨hmarked.concat ?_ ?_, ?_, fun hnone => nomatch hnone⟩
  · intro newest hmem
    exact (hnewest newest hmem).trans_eq (deriveSample_seconds monitor seconds).symm
  · intro newest hmem hgap
    exact deriveSample_gap monitor seconds
  · intro sample hmem
    rw [Log.accept, List.getLast?_concat] at hmem
    obtain rfl := Option.some.inj hmem
    exact ⟨_, rfl, deriveSample_gap monitor seconds, deriveSample_seconds monitor seconds⟩

/-- An accepted snapshot has a time, and a later one than the last. -/
theorem Log.time_of_accepted {log : Log} {monitor : LsmMonitor} (h : ¬log.Rejects monitor) :
    ∃ seconds, finite monitor.sampleMonotonicSeconds = some seconds ∧ 0 < seconds ∧
      ∀ last ∈ log.last, last.2 < seconds := by
  simp only [Log.Rejects, not_or] at h
  obtain ⟨-, -, hfinite, htime⟩ := h
  obtain ⟨seconds, hseconds⟩ := Option.ne_none_iff_exists'.mp hfinite
  refine ⟨seconds, hseconds, ?_, ?_⟩
  · exact lt_of_not_ge fun hle => htime ⟨seconds, hseconds, .inl hle⟩
  · intro last hlast
    exact lt_of_not_ge fun hle => htime ⟨seconds, hseconds, .inr ⟨last, hlast, hle⟩⟩

theorem Log.record_of_accepted {log : Log} {monitor : LsmMonitor} (h : ¬log.Rejects monitor) {seconds : ℚ}
    (hseconds : finite monitor.sampleMonotonicSeconds = some seconds) :
    log.record monitor = log.accept monitor seconds := by
  rw [Log.record, if_neg h, hseconds]
  rfl

theorem Log.Valid.call {log : Log} (h : log.Valid) (call : Call) : (log.call call).Valid := by
  cases call with
  | record monitor =>
    show (log.record monitor).Valid
    by_cases hrejects : log.Rejects monitor
    · rwa [Log.record, if_pos hrejects]
    · obtain ⟨seconds, hseconds, -, hlater⟩ := Log.time_of_accepted hrejects
      rw [Log.record_of_accepted hrejects hseconds]
      exact h.accept monitor hlater
  | reset => exact .empty

theorem Log.run_valid (calls : List Call) : (Log.run calls).Valid := by
  induction calls using List.reverseRecOn with
  | nil => exact .empty
  | append_singleton calls call ih =>
    rw [Log.run, List.foldl_concat]
    exact ih.call call

/-! ### The ring holds the end of the list -/

structure Refines (history : LsmOverviewHistory) (log : Log) : Prop where
  ring : Ring.Holds lsmOverviewHistoryCapacity history.samples history.next history.count log.elements
  last : log.last = if history.haveLast then some (history.lastGeneration, history.lastTimestamp) else none

theorem Refines.empty : Refines {} {} := ⟨Ring.Holds.empty _ _, rfl⟩

theorem historyPush_holds {history : LsmOverviewHistory} {elements : List LsmOverviewSample}
    (h : Ring.Holds lsmOverviewHistoryCapacity history.samples history.next history.count elements)
    (sample : LsmOverviewSample) :
    Ring.Holds lsmOverviewHistoryCapacity (historyPush history sample).samples (historyPush history sample).next
      (historyPush history sample).count (elements ++ [sample]) := h.push sample

theorem retain_refines {history : LsmOverviewHistory} {log : Log} {monitor : LsmMonitor} {seconds : ℚ}
    (h : Ring.Holds lsmOverviewHistoryCapacity history.samples history.next history.count
      (log.elements ++ log.gap monitor.sampleGeneration seconds)) :
    Refines (retain history monitor seconds) (log.accept monitor seconds) :=
  ⟨historyPush_holds h (deriveSample monitor seconds), rfl⟩

/-- A rejected snapshot changes nothing. -/
theorem lsmOverviewHistoryRecord_of_rejects {history : LsmOverviewHistory} {log : Log} (h : Refines history log)
    {monitor : LsmMonitor} (hrejects : log.Rejects monitor) :
    lsmOverviewHistoryRecord history monitor = (false, history) := by
  rw [lsmOverviewHistoryRecord]
  split
  next => rfl
  next hgeneration =>
    cases hseconds : finite monitor.sampleMonotonicSeconds with
    | none => rfl
    | some seconds =>
      dsimp only
      split
      next => rfl
      next hpositive =>
        have hlast := h.last
        simp only [Log.Rejects, hgeneration, hseconds, hpositive, hlast, false_or, reduceCtorEq,
          Option.mem_some_iff, exists_eq_left'] at hrejects
        split
        next hhave =>
          simp only [hhave, if_true, Option.mem_some_iff, exists_eq_left'] at hrejects
          rcases hrejects with heq | hle
          · rw [if_pos heq]
          · rw [if_pos hle, ite_self]
        next hhave =>
          simp only [hhave, Bool.false_eq_true, if_false, Option.mem_def, reduceCtorEq, false_and, exists_false,
            or_self] at hrejects

theorem lsmOverviewHistoryRecord_of_accepted {history : LsmOverviewHistory} {log : Log} (h : Refines history log)
    {monitor : LsmMonitor} (haccepts : ¬log.Rejects monitor) :
    (lsmOverviewHistoryRecord history monitor).1 = true ∧
      Refines (lsmOverviewHistoryRecord history monitor).2 (log.record monitor) := by
  obtain ⟨seconds, hseconds, hpositive, hlater⟩ := Log.time_of_accepted haccepts
  have hgeneration : monitor.sampleGeneration ≠ 0 := fun heq => haccepts (.inl heq)
  have hrepeat : ∀ last ∈ log.last, monitor.sampleGeneration ≠ last.1 :=
    fun last hlast heq => haccepts (.inr (.inl ⟨last, hlast, heq⟩))
  have hlast := h.last
  rw [Log.record_of_accepted haccepts hseconds, lsmOverviewHistoryRecord, if_neg hgeneration, hseconds]
  dsimp only
  rw [if_neg (not_le.mpr hpositive)]
  cases hhave : history.haveLast with
  | false =>
    rw [hhave, if_neg (by decide)] at hlast
    rw [if_neg (by decide)]
    refine ⟨rfl, retain_refines ?_⟩
    rw [Log.gap, hlast, List.append_nil]
    exact h.ring
  | true =>
    rw [hhave, if_pos rfl] at hlast
    rw [if_pos rfl, if_neg (hrepeat _ hlast), if_neg (not_le.mpr (hlater _ hlast))]
    by_cases hnext : monitor.sampleGeneration = successor history.lastGeneration
    · rw [if_neg (not_not.mpr hnext)]
      refine ⟨rfl, retain_refines ?_⟩
      rw [Log.gap, hlast]
      dsimp only
      rw [if_neg (not_not.mpr hnext), List.append_nil]
      exact h.ring
    · rw [if_pos hnext]
      refine ⟨rfl, retain_refines ?_⟩
      rw [Log.gap, hlast]
      dsimp only
      rw [if_pos hnext]
      exact historyPush_holds h.ring _

theorem Refines.call {history : LsmOverviewHistory} {log : Log} (h : Refines history log) (call : Call) :
    Refines (history.call call) (log.call call) := by
  cases call with
  | record monitor =>
    show Refines (lsmOverviewHistoryRecord history monitor).2 (log.record monitor)
    by_cases hrejects : log.Rejects monitor
    · rw [lsmOverviewHistoryRecord_of_rejects h hrejects, Log.record, if_pos hrejects]
      exact h
    · exact (lsmOverviewHistoryRecord_of_accepted h hrejects).2
  | reset => exact .empty

theorem run_refines (calls : List Call) : Refines (.run calls) (.run calls) := by
  induction calls using List.reverseRecOn with
  | nil => exact .empty
  | append_singleton calls call ih =>
    rw [LsmOverviewHistory.run, Log.run, List.foldl_concat, List.foldl_concat]
    exact ih.call call

theorem Refines.window {history : LsmOverviewHistory} {log : Log} (h : Refines history log) :
    (List.range history.count).map (lsmOverviewHistoryGet history) =
      (log.elements.rtake lsmOverviewHistoryCapacity).map some := by
  rw [← h.ring.replay, ← h.ring.oldest, List.map_map]
  apply List.map_congr_left
  intro index hindex
  exact if_neg (not_le.mpr (List.mem_range.mp hindex))

theorem getLast?_rtake {α : Type} (l : List α) {n : Nat} (h : n ≠ 0) : (l.rtake n).getLast? = l.getLast? := by
  rw [List.rtake, List.getLast?_drop]
  split
  next hle =>
    have hnil : l = [] := List.length_eq_zero_iff.mp (by omega)
    rw [hnil, List.getLast?_nil]
  next => rfl

theorem Refines.latest {history : LsmOverviewHistory} {log : Log} (h : Refines history log) :
    lsmOverviewHistoryLatest history = log.elements.getLast? := by
  have hlast := congrArg List.getLast? h.window
  rw [List.getLast?_map, List.getLast?_map, getLast?_rtake _ (by decide), List.getLast?_range] at hlast
  rw [lsmOverviewHistoryLatest]
  split
  next hzero =>
    rw [if_pos hzero, Option.map_none] at hlast
    exact (Option.map_eq_none_iff.mp hlast.symm).symm
  next hcount =>
    rw [if_neg hcount, Option.map_some] at hlast
    obtain ⟨newest, hnewest, hget⟩ := Option.map_eq_some_iff.mp hlast.symm
    rw [hnewest, ← hget]

/-- **After any calls, what can be read is the end of the list of all accepted snapshots and gap
markers since the last reset**: times increase, no two markers are adjacent, the newest element
is a sample, and a rejected snapshot changes nothing. -/
theorem lsmOverviewHistory_eq (calls : List Call) :
    let history := LsmOverviewHistory.run calls
    let log := Log.run calls
    let window := log.elements.rtake 120
    (List.range history.count).map (lsmOverviewHistoryGet history) = window.map some ∧
      (∀ index, history.count ≤ index → lsmOverviewHistoryGet history index = none) ∧
      lsmOverviewHistoryLatest history = log.elements.getLast? ∧
      window.Pairwise (·.monotonicSeconds < ·.monotonicSeconds) ∧
      window.IsChain (fun sample next => ¬(sample.gap = true ∧ next.gap = true)) ∧
      (∀ newest ∈ window.getLast?, newest.gap = false) ∧
      ∀ monitor, (lsmOverviewHistoryRecord history monitor).1 = !decide (log.Rejects monitor) ∧
        (log.Rejects monitor → (lsmOverviewHistoryRecord history monitor).2 = history) := by
  intro history log window
  have hrefines := run_refines calls
  have hvalid := Log.run_valid calls
  have hmarked : Marked window := hvalid.marked.rtake 120
  refine ⟨hrefines.window, fun index hle => if_pos hle, hrefines.latest, hmarked.increasing,
    hmarked.apart.imp ?_, ?_, ?_⟩
  · intro sample next hapart hboth
    exact Bool.noConfusion ((hapart hboth.1).symm.trans hboth.2)
  · intro newest hmem
    rw [getLast?_rtake _ (by decide)] at hmem
    obtain ⟨last, -, hgap, -⟩ := hvalid.newest newest hmem
    exact hgap
  · intro monitor
    by_cases hrejects : log.Rejects monitor
    · rw [lsmOverviewHistoryRecord_of_rejects hrefines hrejects, decide_eq_true hrejects]
      exact ⟨rfl, fun _ => rfl⟩
    · refine ⟨?_, fun h => absurd h hrejects⟩
      rw [(lsmOverviewHistoryRecord_of_accepted hrefines hrejects).1, decide_eq_false hrejects]
      rfl

end SystemMonitor.Overview
