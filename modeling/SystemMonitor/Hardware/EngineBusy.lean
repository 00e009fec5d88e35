import SystemMonitor.Hardware.Pairing

/-! Utilisation from the engine-busy counters, over runs of refreshes and updates.

The utilisation of an adapter is sampled from its native backend, from its busy file or, when
neither answers, from the total of its engine counters against the total retained before. A
total that cannot be read resets the baseline; a sample from one of the other two leaves it.
`engine_busy_adjacent_iff` says when a baseline is the total of the sample directly before. -/
namespace SystemMonitor.Hardware
open Lib

/-- What the loop body of an update samples: the adapter, if it has a baseline, and the source. -/
def sampleRecord (reads : UpdateReads) (monitor : LsmMonitor) (index : Nat) : Option (Chars 512 × UtilizationSource) :=
  monitor.gpus[index]?.bind fun gpu =>
    (findGpuState monitor.gpuStates (gpuStableIdentity gpu)).map fun _ =>
      (gpuStableIdentity gpu, utilizationSource reads monitor.gpuTelemetry[index]?)

/-- The samples of the adapters below a count. -/
def samplesBelow (lib : Library) (reads : UpdateReads) (count : Nat) (monitor : LsmMonitor) :
    List (Chars 512 × UtilizationSource) :=
  (List.range count).flatMap fun index => (sampleRecord reads (updateGpusBelow lib reads index monitor) index).toList

def samples (lib : Library) (monitor : LsmMonitor) : Action → List (Chars 512 × UtilizationSource)
  | .refresh _ => []
  | .update reads _ => samplesBelow lib reads monitor.gpus.length monitor

/-- What an adapter was sampled from last. -/
def lastSample (log : List (Chars 512 × UtilizationSource)) (identity : Chars 512) : Option UtilizationSource :=
  lastOf (fun sample => if sample.1 = identity then some sample.2 else none) log

/-- Neither the native backend nor the busy file answered. -/
def UtilizationSource.FromEngines (source : UtilizationSource) : Prop := ∃ total, source = .engines total

/-- A run from the start, in which every refresh lists each adapter once. -/
structure HardwareRun (lib : Library) where
  history : List Action
  monitor : LsmMonitor
  distinct : ∀ action ∈ history, action.Distinct
  run : (hardware lib).run {} history = some monitor

namespace HardwareRun
variable {lib : Library} (run : HardwareRun lib) (reads : UpdateReads) (index : Nat)

/-- The monitor in the next update, when the loop comes to an index. -/
def reached : LsmMonitor := updateGpusBelow lib reads index run.monitor

/-- All samples before that. -/
def log : List (Chars 512 × UtilizationSource) :=
  (hardware lib).trace (samples lib) {} run.history ++ samplesBelow lib reads index run.monitor

/-- A utilisation that is computed from the engine counters is computed against the total that the
last sample of the adapter read. -/
def Adjacent : Prop :=
  ∀ gpu ∈ (run.reached reads index).gpus[index]?, ∀ state ∈ findGpuState (run.reached reads index).gpuStates (gpuStableIdentity gpu),
    ∀ total, utilizationSource reads (run.reached reads index).gpuTelemetry[index]? = .engines (some total) →
      ∀ percent, engineUtilization lib reads state total = some percent →
        lastSample (run.log reads index) (gpuStableIdentity gpu) = some (.engines (some state.previousEngineBusyNs))

/-- Where the engine counters are read, a baseline is retained and it is not ahead of the total, the
last sample was not taken from the native backend or the busy file. -/
def NotBypassed : Prop :=
  ∀ gpu ∈ (run.reached reads index).gpus[index]?, ∀ state ∈ findGpuState (run.reached reads index).gpuStates (gpuStableIdentity gpu),
    ∀ total, utilizationSource reads (run.reached reads index).gpuTelemetry[index]? = .engines (some total) →
      state.engineBusyInitialized = true → state.previousEngineBusyNs ≤ total → 0 < reads.elapsed →
        ∀ source ∈ lastSample (run.log reads index) (gpuStableIdentity gpu), source.FromEngines

end HardwareRun

/-! ### Baselines and the last sample -/

/-- A retained total is the one that was read last, unless the last sample came from elsewhere. -/
def Tracked (log : List (Chars 512 × UtilizationSource)) (state : LsmLinuxGpuState) : Prop :=
  state.engineBusyInitialized = true →
    ∃ source ∈ lastSample log state.platformIdentity,
      source.FromEngines → source = .engines (some state.previousEngineBusyNs)

theorem lastSample_append (log : List (Chars 512 × UtilizationSource)) (sample : Chars 512 × UtilizationSource)
    (identity : Chars 512) :
    lastSample (log ++ [sample]) identity = if sample.1 = identity then some sample.2 else lastSample log identity := by
  rw [lastSample, lastOf_concat]
  split <;> rfl

section
variable {lib : Library} {log : List (Chars 512 × UtilizationSource)} {monitor : LsmMonitor} {reads : UpdateReads}

theorem Tracked.reconcile (h : ∀ state ∈ monitor.gpuStates, Tracked log state) (gpu : LsmGpuInfo) :
    Tracked log (reconcileGpuState lib monitor.gpuStates gpu) := by
  intro hinitialized
  cases hfind : findGpuState monitor.gpuStates (gpuStableIdentity gpu) with
  | none =>
    simp only [reconcileGpuState, hfind, Option.getD_none] at hinitialized
    cases hinitialized
  | some state =>
    have hstate := h state (List.mem_of_find?_eq_some hfind)
    have hidentity : state.platformIdentity = gpuStableIdentity gpu := by simpa using List.find?_some hfind
    simp only [reconcileGpuState, hfind, Option.getD_some] at hinitialized ⊢
    rw [← hidentity]
    exact hstate hinitialized

/-- The baseline that a sample moves. -/
theorem tracked_sampled (log : List (Chars 512 × UtilizationSource)) (source : UtilizationSource)
    (state : LsmLinuxGpuState) : Tracked (log ++ [(state.platformIdentity, source)]) (sampledState source state) := by
  intro hinitialized
  rw [sampledState_platformIdentity, lastSample_append, if_pos rfl]
  refine ⟨source, rfl, fun hengines => ?_⟩
  obtain ⟨total, rfl⟩ := hengines
  cases total with
  | none => exact nomatch hinitialized
  | some total => rfl

/-- The baselines that it does not. -/
theorem Tracked.other {state : LsmLinuxGpuState} (h : Tracked log state) {sample : Chars 512 × UtilizationSource}
    (hne : sample.1 ≠ state.platformIdentity) : Tracked (log ++ [sample]) state := by
  intro hinitialized
  rw [lastSample_append, if_neg hne]
  exact h hinitialized

/-- What the loop body does to the baselines, beside what it samples. -/
theorem updateGpu_sampled (lib : Library) (reads : UpdateReads) (monitor : LsmMonitor) (index : Nat) :
    (sampleRecord reads monitor index = none ∧ (updateGpu lib reads monitor index).gpuStates = monitor.gpuStates) ∨
      ∃ i found source, monitor.gpuStates[i]? = some found ∧
        sampleRecord reads monitor index = some (found.platformIdentity, source) ∧
        (updateGpu lib reads monitor index).gpuStates = monitor.gpuStates.modify i (sampledState source) := by
  rw [updateGpu, sampleRecord]
  cases hgpu : monitor.gpus[index]? with
  | none => exact .inl ⟨rfl, rfl⟩
  | some gpu =>
    rw [Option.bind_some]
    dsimp only
    cases hfind : monitor.gpuStates.findIdx? fun state => state.platformIdentity = gpuStableIdentity gpu with
    | none =>
      have hnone : findGpuState monitor.gpuStates (gpuStableIdentity gpu) = none := by
        apply List.find?_eq_none.mpr
        simpa using List.findIdx?_eq_none_iff.mp hfind
      rw [hnone]
      exact .inl ⟨rfl, rfl⟩
    | some i =>
      obtain ⟨hlt, hmatch, -⟩ := List.findIdx?_eq_some_iff_getElem.mp hfind
      have hi : monitor.gpuStates[i]? = some monitor.gpuStates[i] := List.getElem?_eq_getElem hlt
      have hidentity : monitor.gpuStates[i].platformIdentity = gpuStableIdentity gpu := of_decide_eq_true hmatch
      have hsome : (findGpuState monitor.gpuStates (gpuStableIdentity gpu)).isSome = true :=
        List.find?_isSome.mpr ⟨_, List.mem_of_getElem? hi, hmatch⟩
      obtain ⟨found, hfound⟩ := Option.isSome_iff_exists.mp hsome
      refine .inr ⟨i, _, _, hi, ?_, rfl⟩
      rw [hfound, Option.map_some, hidentity]

theorem tracked_updateGpu (hdistinct : (monitor.gpuStates.map LsmLinuxGpuState.platformIdentity).Nodup)
    (h : ∀ state ∈ monitor.gpuStates, Tracked log state) (index : Nat) :
    ∀ state ∈ (updateGpu lib reads monitor index).gpuStates,
      Tracked (log ++ (sampleRecord reads monitor index).toList) state := by
  rcases updateGpu_sampled lib reads monitor index with ⟨hnone, hstates⟩ | ⟨i, found, source, hi, hsample, hstates⟩
  · rw [hnone, hstates, Option.toList_none, List.append_nil]
    exact h
  · rw [hsample, hstates, Option.toList_some]
    intro state hstate
    rcases mem_modify hstate with ⟨old, hold, rfl⟩ | ⟨k, hki, hk⟩
    · obtain rfl := Option.some.inj (hi.symm.trans hold)
      exact tracked_sampled log source found
    · refine (h state (List.mem_of_getElem? hk)).other ?_
      exact identity_ne hdistinct hi hk hki.symm

/-! ### Runs -/

theorem samplesBelow_succ (lib : Library) (reads : UpdateReads) (count : Nat) (monitor : LsmMonitor) :
    samplesBelow lib reads (count + 1) monitor = samplesBelow lib reads count monitor ++
      (sampleRecord reads (updateGpusBelow lib reads count monitor) count).toList := by
  rw [samplesBelow, List.range_succ, List.flatMap_append, List.flatMap_singleton]
  rfl

theorem tracked_updateGpusBelow {paired : List (Chars 512 × Option Nat)} (hpaired : Paired paired monitor)
    (h : ∀ state ∈ monitor.gpuStates, Tracked log state) (count : Nat) :
    ∀ state ∈ (updateGpusBelow lib reads count monitor).gpuStates,
      Tracked (log ++ samplesBelow lib reads count monitor) state := by
  induction count with
  | zero =>
    rw [show samplesBelow lib reads 0 monitor = [] from rfl, List.append_nil]
    exact h
  | succ count ih =>
    rw [updateGpusBelow_succ, samplesBelow_succ, ← List.append_assoc]
    exact tracked_updateGpu (hpaired.updateGpusBelow lib reads count).states_nodup ih count

/-- NVML has no part in the baselines. -/
theorem lsmNvmlRefresh_gpuStates (lib : Library) (report : Option NvmlReport) (monitor : LsmMonitor) :
    (lsmNvmlRefresh lib report monitor).gpuStates = monitor.gpuStates := by
  cases report with
  | none => rfl
  | some report =>
    rw [lsmNvmlRefresh]
    generalize report.devices.zipIdx = devices
    induction devices generalizing monitor with
    | nil => rfl
    | cons p rest ih =>
      rw [List.foldl_cons, ih]
      have hlisting := nvmlDevice_cases lib report.driverVersion monitor p
      generalize nvmlDevice lib report.driverVersion monitor p.1 p.2 = next at hlisting ⊢
      cases hlisting with
      | kept gpus _ _ => rfl
      | appended gpus card _ _ _ _ => rfl

theorem refreshHardwareTopology_gpuStates (lib : Library) (input : RefreshInput) (monitor : LsmMonitor) :
    ∀ state ∈ (refreshHardwareTopology lib input monitor).gpuStates,
      ∃ gpu, state = reconcileGpuState lib monitor.gpuStates gpu := by
  intro state hstate
  rw [refreshHardwareTopology] at hstate
  split at hstate
  all_goals
    obtain ⟨gpu, -, rfl⟩ := List.mem_map.mp hstate
    exact ⟨gpu, rfl⟩

end

namespace HardwareRun
variable {lib : Library} (run : HardwareRun lib) (reads : UpdateReads) (index : Nat)

/-- Wherever an update comes to, every baseline is tracked. -/
theorem tracked : ∀ state ∈ (run.reached reads index).gpuStates, Tracked (run.log reads index) state := by
  have h : (∃ paired, Paired paired run.monitor) ∧ ∀ state ∈ run.monitor.gpuStates,
      Tracked ([] ++ (hardware lib).trace (samples lib) {} run.history) state := by
    apply (hardware lib).run_trace_invariant (samples lib) (fun _ action => action.Distinct)
      (fun log monitor => (∃ paired, Paired paired monitor) ∧ ∀ state ∈ monitor.gpuStates, Tracked log state) _
      ⟨⟨[], .start⟩, fun state hstate => nomatch hstate⟩ _ run.run
    · intro log monitor action next hinv hrule hstep
      obtain ⟨⟨paired, hpaired⟩, htracked⟩ := hinv
      refine ⟨⟨_, hpaired.step hrule hstep⟩, ?_⟩
      cases action with
      | refresh input =>
        cases hstep
        rw [show samples lib monitor (.refresh input) = [] from rfl, List.append_nil]
        intro state hstate
        obtain ⟨gpu, rfl⟩ := refreshHardwareTopology_gpuStates lib input monitor state hstate
        exact Tracked.reconcile htracked gpu
      | update reads report =>
        cases hstep
        intro state hstate
        rw [updateGpus, lsmNvmlRefresh_gpuStates] at hstate
        exact tracked_updateGpusBelow hpaired htracked _ state hstate
    · exact (hardware lib).admissible_of_forall (fun action haction _ => run.distinct action haction) _
  rw [List.nil_append] at h
  obtain ⟨⟨paired, hpaired⟩, htracked⟩ := h
  exact tracked_updateGpusBelow hpaired htracked index

/-- A utilisation is computed where a baseline is retained and the total has not fallen. -/
theorem engineUtilization_isSome {state : LsmLinuxGpuState} {total : Nat} :
    (∃ percent, engineUtilization lib reads state total = some percent) ↔
      state.engineBusyInitialized = true ∧ state.previousEngineBusyNs ≤ total ∧ 0 < reads.elapsed := by
  rw [engineUtilization]
  by_cases hinitialized : state.engineBusyInitialized = true
  · rw [if_pos hinitialized, lib.counterRate_eq]
    by_cases hmoved : state.previousEngineBusyNs ≤ total ∧ 0 < reads.elapsed
    · rw [if_pos hmoved]
      exact iff_of_true ⟨_, rfl⟩ ⟨hinitialized, hmoved⟩
    · rw [if_neg hmoved]
      exact iff_of_false (fun ⟨_, h⟩ => nomatch h) fun h => hmoved h.2
  · rw [if_neg hinitialized]
    exact iff_of_false (fun ⟨_, h⟩ => nomatch h) fun h => hinitialized h.1

end HardwareRun

/-- **In any run a utilisation from the engine counters is computed against the total of the sample
directly before exactly where that sample was not taken from the native backend or the busy
file.** -/
theorem engine_busy_adjacent_iff {lib : Library} (run : HardwareRun lib) (reads : UpdateReads) (index : Nat) :
    run.Adjacent reads index ↔ run.NotBypassed reads index := by
  constructor
  · intro h gpu hgpu state hstate total hsource hinitialized hle helapsed source hlast
    obtain ⟨percent, hpercent⟩ := (@HardwareRun.engineUtilization_isSome lib reads state total).mpr
      ⟨hinitialized, hle, helapsed⟩
    have hadjacent := h gpu hgpu state hstate total hsource percent hpercent
    obtain rfl := Option.some.inj (hlast.symm.trans hadjacent)
    exact ⟨_, rfl⟩
  · intro h gpu hgpu state hstate total hsource percent hpercent
    obtain ⟨hinitialized, hle, helapsed⟩ := (HardwareRun.engineUtilization_isSome reads).mp ⟨percent, hpercent⟩
    have hidentity : state.platformIdentity = gpuStableIdentity gpu := by simpa using List.find?_some hstate
    obtain ⟨source, hlast, hengines⟩ := run.tracked reads index state (List.mem_of_find?_eq_some hstate) hinitialized
    rw [hidentity] at hlast
    have hnot := h gpu hgpu state hstate total hsource hinitialized hle helapsed source hlast
    rw [← hengines hnot]
    exact hlast

/-! ### A busy file that answers once -/

/-- An adapter with a busy file and one engine counter. -/
def bypassedRefresh : RefreshInput where
  gpus := some [renderRecord]
  batteries := some []
  npus := some []
  bluetoothDevices := some []
  sysfs _ := {gpuBusy := true, engines := [ascii "/engine/rcs0/busy"]}
  npuCreated _ := false
  accessible _ := true

/-- The engine total, and the busy file when it answers. -/
def bypassedReads (busy : Option Nat) (total : Nat) : UpdateReads where
  elapsed := 1
  readU64 path := if path = ascii "/sys/devices/render" ++ gpuBusyFile then busy else some total
  intelRefresh _ := none

def bypassedHistory : List Action :=
  [.refresh bypassedRefresh, .update (bypassedReads none 0) none, .update (bypassedReads (some 5) 50000000) none]

theorem bypassed_runs : ((hardware .documented).run {} bypassedHistory).isSome = true := rfl

theorem bypassed_run : (hardware .documented).run {} bypassedHistory =
    some (((hardware .documented).run {} bypassedHistory).get bypassed_runs) := (Option.some_get _).symm

theorem bypassed_distinct : ∀ action ∈ bypassedHistory, action.Distinct := by decide

def bypassedRun : HardwareRun .documented where
  history := bypassedHistory
  monitor := ((hardware .documented).run {} bypassedHistory).get bypassed_runs
  distinct := bypassed_distinct
  run := bypassed_run

deriving instance DecidableEq for UtilizationSource

/-- The total of two seconds is divided by one: ten percent where there were five. -/
theorem bypassed_not_adjacent :
    ((updateGpu .documented (bypassedReads none 100000000) bypassedRun.monitor 0).gpus.map
      (·.utilizationPercent)) = [some 10] ∧ ¬bypassedRun.Adjacent (bypassedReads none 100000000) 0 := by
  have hpercent : ((updateGpu .documented (bypassedReads none 100000000) bypassedRun.monitor 0).gpus.map
      (·.utilizationPercent)) = [some 10] := by decide +kernel
  refine ⟨hpercent, fun h => ?_⟩
  have hcase : ∃ gpu ∈ (bypassedRun.reached (bypassedReads none 100000000) 0).gpus[0]?,
      ∃ state ∈ findGpuState (bypassedRun.reached (bypassedReads none 100000000) 0).gpuStates (gpuStableIdentity gpu),
        utilizationSource (bypassedReads none 100000000)
          (bypassedRun.reached (bypassedReads none 100000000) 0).gpuTelemetry[0]? = .engines (some 100000000) ∧
        engineUtilization .documented (bypassedReads none 100000000) state 100000000 = some 10 ∧
        lastSample (bypassedRun.log (bypassedReads none 100000000) 0) (gpuStableIdentity gpu) = some (.busy 5) := by
    decide +kernel
  obtain ⟨gpu, hgpu, state, hstate, hsource, hutilization, hlast⟩ := hcase
  exact nomatch hlast.symm.trans (h gpu hgpu state hstate _ hsource _ hutilization)

end SystemMonitor.Hardware
