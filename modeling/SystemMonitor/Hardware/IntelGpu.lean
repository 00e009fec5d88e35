import SystemMonitor.Common
import SystemMonitor.Lib.Meter

/-! Rates of the native Intel graphics backend.

Every engine, either frequency and the energy of an adapter is a cumulative counter with a
baseline of its own. A counter that cannot be read keeps its baseline, and so does the
energy while an averaged power is read in its place; the next reading divides by the time
since the last refresh. `intel_rates_iff` says at which refreshes of a run the rates are
those between two readings. -/
namespace SystemMonitor.Hardware.Intel
open Lib

inductive LsmIntelEngineClass where
  | render
  | compute
  | video
  | videoEnhance
  | copy
  | other
  deriving DecidableEq

structure LsmPerfRead where
  value : Nat
  timeEnabled : Nat
  timeRunning : Nat
  deriving DecidableEq

/-- `previous` is `none` until the counter is initialised. -/
structure LsmIntelCounter where
  /-- `fd >= 0`. -/
  opened : Bool := false
  /-- There is a `mock_value_path`. -/
  mocked : Bool := false
  engineClass : LsmIntelEngineClass := .other
  previous : Option LsmPerfRead := none
  deriving DecidableEq

structure LsmIntelGpuBackend where
  engines : List LsmIntelCounter := []
  graphicsFrequency : LsmIntelCounter := {}
  mediaFrequency : LsmIntelCounter := {}
  /-- `none` until the energy is initialised. -/
  previousEnergyUj : Option Nat := none
  sharedSystemMemory : Bool := false
  perfAccessDenied : Bool := false

/-- What one refresh is given and reads; `none` where there is nothing to read or it fails. -/
structure IntelReads where
  elapsed : ℚ
  engines : Nat → Option LsmPerfRead := fun _ => none
  graphicsFrequency : Option LsmPerfRead := none
  mediaFrequency : Option LsmPerfRead := none
  graphicsFrequencyPath : Option ℚ := none
  mediaFrequencyPath : Option ℚ := none
  temperature : Option Nat := none
  powerAverage : Option Nat := none
  energy : Option Nat := none
  energyRange : Option Nat := none

/-- What a refresh publishes of an adapter; `none` is a value that is not available. -/
structure IntelMetrics where
  utilizationPercent : Option ℚ := none
  /-- The percentages of all classes but `other`, which has none. -/
  enginePercent : LsmIntelEngineClass → Option ℚ := fun _ => none
  coreClockMhz : Option ℚ := none
  memoryClockMhz : Option ℚ := none
  temperatureC : Option ℚ := none
  powerWatts : Option ℚ := none
  engineMetricsCapable : Bool := false
  sharedSystemMemory : Bool := false
  integratedCooling : Bool := false
  metricsSource : Text := []
  supportedMetrics : Bool := false

def readCounterSample (counter : LsmIntelCounter) (read : Option LsmPerfRead) : Option LsmPerfRead :=
  if counter.mocked then read.map fun sample => ⟨sample.value, 1, 1⟩
  else if counter.opened then read
  else none

/-- A counter that ran for a part of the time only is extrapolated. -/
def extrapolated (mocked : Bool) (delta enabled running : Nat) : ℚ :=
  if !mocked && 0 < running && running < enabled then (delta : ℚ) * ((enabled : ℚ) / running) else delta

def lsmClampDouble (value low high : ℚ) : ℚ := max low (min high value)

section
variable (arith : Arithmetic)

def counterDelta (counter : LsmIntelCounter) (read : Option LsmPerfRead) (elapsed divisor scale : ℚ) :
    Option ℚ × LsmIntelCounter :=
  if elapsed ≤ 0 then (none, counter)
  else
    match readCounterSample counter read with
    | none => (none, counter)
    | some sample =>
      let counter' := { counter with previous := some sample }
      match counter.previous with
      | none => (none, counter')
      | some previous =>
        match arith.u64CounterDelta sample.value previous.value,
            arith.u64CounterDelta sample.timeEnabled previous.timeEnabled,
            arith.u64CounterDelta sample.timeRunning previous.timeRunning with
        | some delta, some enabled, some running =>
          (some (extrapolated counter.mocked delta enabled running / divisor / elapsed * scale), counter')
        | _, _, _ => (none, counter')

def updateFrequency (counter : LsmIntelCounter) (read : Option LsmPerfRead) (fallback : Option ℚ) (elapsed : ℚ)
    (frequency : Option ℚ) : Option ℚ × LsmIntelCounter :=
  let sampled := if counter.opened || counter.mocked then counterDelta arith counter read elapsed 1 1 else (none, counter)
  match sampled.1 with
  | some value => (some (max 0 value), sampled.2)
  | none => ((fallback.filter (0 ≤ ·)).or frequency, sampled.2)

/-- How far the energy has moved, over a wrap when its range is advertised. -/
def energyDelta (value previous : Nat) (range : Option Nat) : Option Nat :=
  (arith.u64CounterDelta value previous).or
    (range.bind fun range => if previous < range ∧ value < range then some (range - previous + value) else none)

/-- The power when there is one, and the energy that is kept. -/
def updatePower (previousEnergyUj : Option Nat) (reads : IntelReads) : Option ℚ × Option Nat :=
  match reads.powerAverage with
  | some value => (some ((value : ℚ) / 1000000), previousEnergyUj)
  | none =>
    if reads.elapsed ≤ 0 then (none, previousEnergyUj)
    else
      match reads.energy with
      | none => (none, previousEnergyUj)
      | some value =>
        (previousEnergyUj.bind fun previous =>
          (energyDelta arith value previous reads.energyRange).map fun delta =>
            (delta : ℚ) / 1000000 / reads.elapsed, some value)

/-- The engines, sampled one by one. -/
def sampleEngines (backend : LsmIntelGpuBackend) (reads : IntelReads) : List (Option ℚ × LsmIntelCounter) :=
  backend.engines.zipIdx.map fun (counter, index) =>
    counterDelta arith counter (reads.engines index) reads.elapsed 1000000000 100

/-- The class and the percentage of every engine that was sampled. -/
def engineShares (sampled : List (Option ℚ × LsmIntelCounter)) : List (LsmIntelEngineClass × ℚ) :=
  sampled.filterMap fun (percentage, counter) =>
    percentage.map fun percentage => (counter.engineClass, lsmClampDouble percentage 0 100)

/-- `fmax` over some percentages, from zero on; none of none. -/
def highestShare (shares : List (LsmIntelEngineClass × ℚ)) : Option ℚ :=
  if shares = [] then none else some (shares.foldl (fun highest share => max highest share.2) 0)

def publishEngines (shares : List (LsmIntelEngineClass × ℚ)) (gpu : IntelMetrics) : IntelMetrics :=
  if shares = [] then gpu
  else
    { gpu with
      utilizationPercent := highestShare shares
      enginePercent := fun engineClass =>
        if engineClass = .other then none else highestShare (shares.filter fun share => share.1 = engineClass) }

/-- Whether anything was sampled, the backend and what is published. -/
def lsmIntelGpuRefresh (backend : LsmIntelGpuBackend) (gpu : IntelMetrics) (reads : IntelReads) :
    Bool × LsmIntelGpuBackend × IntelMetrics :=
  if reads.elapsed ≤ 0 then (false, backend, gpu)
  else
    let sampled := sampleEngines arith backend reads
    let shares := engineShares sampled
    let graphics := updateFrequency arith backend.graphicsFrequency reads.graphicsFrequency reads.graphicsFrequencyPath
      reads.elapsed gpu.coreClockMhz
    let media := updateFrequency arith backend.mediaFrequency reads.mediaFrequency reads.mediaFrequencyPath
      reads.elapsed gpu.memoryClockMhz
    let power := updatePower arith backend.previousEnergyUj reads
    let any := !shares.isEmpty || graphics.1.isSome || media.1.isSome || reads.temperature.isSome || power.1.isSome
    (any,
      { backend with
        engines := sampled.map (·.2)
        graphicsFrequency := graphics.2
        mediaFrequency := media.2
        previousEnergyUj := power.2 },
      { publishEngines shares gpu with
        coreClockMhz := graphics.1
        memoryClockMhz := media.1
        temperatureC := (reads.temperature.map fun value : Nat => (value : ℚ) / 1000).or gpu.temperatureC
        powerWatts := power.1.or gpu.powerWatts
        engineMetricsCapable := true
        sharedSystemMemory := backend.sharedSystemMemory
        integratedCooling := backend.sharedSystemMemory
        metricsSource :=
          if any then
            if shares.isEmpty then ascii "Native Intel driver telemetry" else ascii "Native Intel PMU"
          else if backend.perfAccessDenied then ascii "Intel PMU restricted by system policy"
          else gpu.metricsSource
        supportedMetrics := any || gpu.supportedMetrics })

/-- What `update_gpus` withdraws before it samples an adapter. -/
def IntelMetrics.withdrawn (gpu : IntelMetrics) : IntelMetrics :=
  { gpu with
    utilizationPercent := none
    enginePercent := fun _ => none
    coreClockMhz := none
    memoryClockMhz := none
    temperatureC := none
    powerWatts := none
    supportedMetrics := false }

/-- One refresh of a run. -/
def refresh (s : LsmIntelGpuBackend × IntelMetrics) (reads : IntelReads) : LsmIntelGpuBackend × IntelMetrics :=
  (lsmIntelGpuRefresh arith s.1 s.2.withdrawn reads).2

end

/-- A backend as it is created, and its refreshes. -/
structure IntelRun where
  backend : LsmIntelGpuBackend
  engines_new : ∀ counter ∈ backend.engines, counter.previous = none
  graphics_new : backend.graphicsFrequency.previous = none
  media_new : backend.mediaFrequency.previous = none
  energy_new : backend.previousEnergyUj = none
  refreshes : List IntelReads

def IntelRun.after (arith : Arithmetic) (run : IntelRun) (earlier : List IntelReads) :
    LsmIntelGpuBackend × IntelMetrics :=
  earlier.foldl (refresh arith) (run.backend, {})

/-! ### Counters as meters -/

/-- The counters that are read as performance events. -/
inductive CounterName where
  | engine (index : Nat)
  | graphicsFrequency
  | mediaFrequency

namespace CounterName

def counter (backend : LsmIntelGpuBackend) : CounterName → Option LsmIntelCounter
  | engine index => backend.engines[index]?
  | graphicsFrequency => some backend.graphicsFrequency
  | mediaFrequency => some backend.mediaFrequency

def read (reads : IntelReads) : CounterName → Option LsmPerfRead
  | engine index => reads.engines index
  | graphicsFrequency => reads.graphicsFrequency
  | mediaFrequency => reads.mediaFrequency

/-- The units of a second of time, or of one clock. -/
def divisor : CounterName → ℚ
  | engine _ => 1000000000
  | _ => 1

def scale : CounterName → ℚ
  | engine _ => 100
  | _ => 1

end CounterName

/-- The amount between two readings of a counter, when none of its three numbers has fallen. -/
def usage (mocked : Bool) (divisor scale : ℚ) (later earlier : LsmPerfRead) : Option ℚ :=
  if earlier.value ≤ later.value ∧ earlier.timeEnabled ≤ later.timeEnabled ∧ earlier.timeRunning ≤ later.timeRunning then
    some (extrapolated mocked (later.value - earlier.value) (later.timeEnabled - earlier.timeEnabled)
      (later.timeRunning - earlier.timeRunning) / divisor * scale)
  else none

/-- The joules between two readings of the energy, each with the range that was advertised at it. -/
def joules (later earlier : Nat × Option Nat) : Option ℚ :=
  ((if earlier.1 ≤ later.1 then some (later.1 - earlier.1) else none).or
    (later.2.bind fun range =>
      if earlier.1 < range ∧ later.1 < range then some (range - earlier.1 + later.1) else none)).map
    fun delta => (delta : ℚ) / 1000000

/-- A refresh as a tick of a counter. -/
def counterTick (counter : LsmIntelCounter) (name : CounterName) (reads : IntelReads) : Meter.Tick LsmPerfRead :=
  ⟨reads.elapsed, readCounterSample counter (name.read reads)⟩

/-- A refresh as a tick of the energy, which is not read beside an averaged power. -/
def energyTick (reads : IntelReads) : Meter.Tick (Nat × Option Nat) :=
  ⟨reads.elapsed, if reads.powerAverage.isSome then none else reads.energy.map fun value => (value, reads.energyRange)⟩

/-- The refreshes that do not return at once. -/
def timed (refreshes : List IntelReads) : List IntelReads := refreshes.filter fun reads => 0 < reads.elapsed

theorem timed_concat (refreshes : List IntelReads) (reads : IntelReads) :
    timed (refreshes ++ [reads]) = if 0 < reads.elapsed then timed refreshes ++ [reads] else timed refreshes := by
  rw [timed, List.filter_append, List.filter_singleton]
  by_cases h : 0 < reads.elapsed
  · rw [if_pos h, decide_eq_true h]
    rfl
  · rw [if_neg h, decide_eq_false h]
    exact List.append_nil _

theorem elapsed_of_timed {α : Type} {refreshes : List IntelReads} {tick : IntelReads → Meter.Tick α}
    (htick : ∀ reads, (tick reads).elapsed = reads.elapsed) :
    ∀ t ∈ (timed refreshes).map tick, 0 < t.elapsed := by
  intro t hmem
  obtain ⟨reads, hreads, rfl⟩ := List.mem_map.mp hmem
  rw [htick]
  exact of_decide_eq_true (List.mem_filter.mp hreads).2

section
variable (arith : Arithmetic)

/-- A counter is a meter that keeps its last sample. -/
theorem counterDelta_eq (counter : LsmIntelCounter) (read : Option LsmPerfRead) {elapsed : ℚ} (h : 0 < elapsed)
    (divisor scale : ℚ) :
    counterDelta arith counter read elapsed divisor scale =
      let shown := Meter.step (usage counter.mocked divisor scale) counter.previous
        ⟨elapsed, readCounterSample counter read⟩
      (shown.1, { counter with previous := shown.2 }) := by
  rw [counterDelta, if_neg (not_le.mpr h), Meter.step]
  cases readCounterSample counter read with
  | none => rfl
  | some sample =>
    dsimp only
    cases hprevious : counter.previous with
    | none => rfl
    | some previous =>
      dsimp only
      rw [arith.counterDelta_eq, arith.counterDelta_eq, arith.counterDelta_eq, Option.bind_some, usage]
      by_cases hvalue : previous.value ≤ sample.value
      · by_cases henabled : previous.timeEnabled ≤ sample.timeEnabled
        · by_cases hrunning : previous.timeRunning ≤ sample.timeRunning
          · rw [if_pos hvalue, if_pos henabled, if_pos hrunning, if_pos ⟨hvalue, henabled, hrunning⟩, Option.map_some]
            refine Prod.ext (congrArg some ?_) rfl
            ring
          · have hnot : ¬(previous.value ≤ sample.value ∧ previous.timeEnabled ≤ sample.timeEnabled ∧
                previous.timeRunning ≤ sample.timeRunning) := fun hall => hrunning hall.2.2
            rw [if_pos hvalue, if_pos henabled, if_neg hrunning, if_neg hnot]
            rfl
        · have hnot : ¬(previous.value ≤ sample.value ∧ previous.timeEnabled ≤ sample.timeEnabled ∧
              previous.timeRunning ≤ sample.timeRunning) := fun hall => henabled hall.2.1
          rw [if_pos hvalue, if_neg henabled, if_neg hnot]
          rfl
      · have hnot : ¬(previous.value ≤ sample.value ∧ previous.timeEnabled ≤ sample.timeEnabled ∧
            previous.timeRunning ≤ sample.timeRunning) := fun hall => hvalue hall.1
        rw [if_neg hvalue, if_neg hnot]
        rfl

/-- The energy is a meter that keeps its last reading. -/
theorem updatePower_eq (keptEnergy : Option (Nat × Option Nat)) {reads : IntelReads} (h : 0 < reads.elapsed) :
    updatePower arith (keptEnergy.map (·.1)) reads =
      let shown := Meter.step joules keptEnergy (energyTick reads)
      ((reads.powerAverage.map fun value : Nat => (value : ℚ) / 1000000).or shown.1, shown.2.map (·.1)) := by
  rw [updatePower, energyTick]
  cases reads.powerAverage with
  | some value => rfl
  | none =>
    dsimp only
    rw [if_neg (not_le.mpr h), Meter.step]
    cases reads.energy with
    | none => rfl
    | some value =>
      cases keptEnergy with
      | none => rfl
      | some previous =>
        refine Prod.ext ?_ rfl
        simp only [Option.map_some, Option.bind_some, Option.isSome_none, Bool.false_eq_true, if_false, Option.map_none,
          Option.none_or, joules, energyDelta, arith.counterDelta_eq, Option.map_map]
        rfl

/-! ### One refresh -/

theorem updateFrequency_counter (counter : LsmIntelCounter) (read : Option LsmPerfRead) (fallback frequency : Option ℚ)
    {elapsed : ℚ} (h : 0 < elapsed) :
    (updateFrequency arith counter read fallback elapsed frequency).2 =
      { counter with previous := (readCounterSample counter read).or counter.previous } := by
  rw [updateFrequency]
  by_cases hthere : (counter.opened || counter.mocked) = true
  · rw [if_pos hthere, counterDelta_eq arith counter read h]
    dsimp only
    rw [Meter.step_kept]
    split <;> rfl
  · have hgone : readCounterSample counter read = none := by
      rw [Bool.or_eq_true, not_or] at hthere
      rw [readCounterSample, if_neg hthere.2, if_neg hthere.1]
    rw [if_neg hthere, hgone, Option.none_or]

/-- A frequency that was not there before comes from the counter, or from the file. -/
theorem updateFrequency_source {counter : LsmIntelCounter} {read : Option LsmPerfRead} {fallback : Option ℚ}
    {elapsed frequency : ℚ} (h : (updateFrequency arith counter read fallback elapsed none).1 = some frequency) :
    (∃ rate, (counterDelta arith counter read elapsed 1 1).1 = some rate ∧ frequency = max 0 rate) ∨
      fallback = some frequency := by
  rw [updateFrequency] at h
  split at h
  next rate hrate =>
    left
    refine ⟨rate, ?_, (Option.some.inj h).symm⟩
    split at hrate
    next => exact hrate
    next => exact nomatch hrate
  next =>
    right
    rw [Option.or_none] at h
    exact (Option.filter_eq_some_iff.mp h).1

theorem getElem?_sampleEngines (backend : LsmIntelGpuBackend) (reads : IntelReads) (index : Nat) :
    (sampleEngines arith backend reads)[index]? = backend.engines[index]?.map fun counter =>
      counterDelta arith counter (reads.engines index) reads.elapsed 1000000000 100 := by
  rw [sampleEngines, List.getElem?_map, List.getElem?_zipIdx, Option.map_map]
  simp only [Nat.zero_add]
  rfl

/-- A refresh is one tick of every counter and of the energy. -/
theorem refresh_kept (s : LsmIntelGpuBackend × IntelMetrics) {reads : IntelReads} (h : 0 < reads.elapsed) :
    (∀ name : CounterName, name.counter (refresh arith s reads).1 = (name.counter s.1).map fun counter =>
        { counter with previous := (counterTick counter name reads).reading.or counter.previous }) ∧
      ∀ keptEnergy : Option (Nat × Option Nat), s.1.previousEnergyUj = keptEnergy.map (·.1) →
        (refresh arith s reads).1.previousEnergyUj = ((energyTick reads).reading.or keptEnergy).map (·.1) := by
  rw [refresh, lsmIntelGpuRefresh, if_neg (not_le.mpr h)]
  constructor
  · intro name
    cases name with
    | engine index =>
      show ((sampleEngines arith s.1 reads).map (·.2))[index]? = _
      rw [List.getElem?_map, getElem?_sampleEngines, Option.map_map]
      refine congrArg (Option.map · _) (funext fun counter => ?_)
      show (counterDelta arith counter _ _ _ _).2 = _
      rw [counterDelta_eq arith counter _ h]
      dsimp only
      rw [Meter.step_kept]
      rfl
    | graphicsFrequency => exact congrArg some (updateFrequency_counter arith _ _ _ _ h)
    | mediaFrequency => exact congrArg some (updateFrequency_counter arith _ _ _ _ h)
  · intro keptEnergy hkept
    show (updatePower arith s.1.previousEnergyUj reads).2 = _
    rw [hkept, updatePower_eq arith keptEnergy h]
    dsimp only
    rw [Meter.step_kept]

theorem refresh_untimed (s : LsmIntelGpuBackend × IntelMetrics) {reads : IntelReads} (h : ¬0 < reads.elapsed) :
    refresh arith s reads = (s.1, s.2.withdrawn) := by
  rw [refresh, lsmIntelGpuRefresh, if_pos (not_lt.mp h)]

theorem IntelRun.after_concat (run : IntelRun) (earlier : List IntelReads) (reads : IntelReads) :
    run.after arith (earlier ++ [reads]) = refresh arith (run.after arith earlier) reads :=
  List.foldl_concat _ _ _ _

/-- Every counter keeps its last reading, and so does the energy. -/
theorem IntelRun.after_kept (run : IntelRun) (earlier : List IntelReads) :
    (∀ name : CounterName, name.counter (run.after arith earlier).1 = (name.counter run.backend).map fun counter =>
        { counter with previous := Meter.kept ((timed earlier).map (counterTick counter name)) }) ∧
      (run.after arith earlier).1.previousEnergyUj = (Meter.kept ((timed earlier).map energyTick)).map (·.1) := by
  induction earlier using List.reverseRecOn with
  | nil =>
    refine ⟨fun name => ?_, run.energy_new⟩
    have hnew : ∀ counter ∈ name.counter run.backend, counter.previous = none := by
      intro counter hcounter
      cases name with
      | engine index => exact run.engines_new counter (List.mem_of_getElem? hcounter)
      | graphicsFrequency => exact Option.some.inj hcounter ▸ run.graphics_new
      | mediaFrequency => exact Option.some.inj hcounter ▸ run.media_new
    show name.counter run.backend = _
    cases hcounter : name.counter run.backend with
    | none => rfl
    | some counter =>
      have hprevious := hnew counter hcounter
      rw [Option.map_some]
      cases counter
      cases hprevious
      rfl
  | append_singleton earlier reads ih =>
    obtain ⟨hcounters, henergy⟩ := ih
    rw [run.after_concat, timed_concat]
    by_cases h : 0 < reads.elapsed
    · obtain ⟨hcounters', henergy'⟩ := refresh_kept arith (run.after arith earlier) h
      rw [if_pos h]
      constructor
      · intro name
        rw [hcounters', hcounters, Option.map_map]
        refine congrArg (Option.map · _) (funext fun counter => ?_)
        rw [List.map_append, List.map_singleton, Meter.kept_concat]
        rfl
      · rw [henergy' _ henergy, List.map_append, List.map_singleton, Meter.kept_concat]
    · rw [if_neg h, refresh_untimed arith _ h]
      exact ⟨hcounters, henergy⟩

end

/-! ### Rates between readings -/

/-- The rate a counter gives at a refresh. -/
def shownRate (arith : Arithmetic) (backend : LsmIntelGpuBackend) (name : CounterName) (reads : IntelReads) : Option ℚ :=
  (name.counter backend).bind fun counter =>
    (counterDelta arith counter (name.read reads) reads.elapsed name.divisor name.scale).1

/-- The power that the energy gives at a refresh. -/
def shownPower (arith : Arithmetic) (backend : LsmIntelGpuBackend) (reads : IntelReads) : Option ℚ :=
  if reads.powerAverage.isSome then none else (updatePower arith backend.previousEnergyUj reads).1

/-- The rate between this reading of a counter and the one before, after some refreshes. -/
def CounterRate (earlier : List IntelReads) (reads : IntelReads) (counter : LsmIntelCounter) (name : CounterName)
    (rate : ℚ) : Prop :=
  Meter.FromReadings (usage counter.mocked name.divisor name.scale) ((timed earlier).map (counterTick counter name))
    (counterTick counter name reads) rate

def EnergyRate (earlier : List IntelReads) (reads : IntelReads) (rate : ℚ) : Prop :=
  Meter.FromReadings joules ((timed earlier).map energyTick) (energyTick reads) rate

namespace IntelRun
variable (arith : Arithmetic) (run : IntelRun) (earlier : List IntelReads) (reads : IntelReads)

/-- Whatever a counter or the energy gives is a rate between two readings. -/
def RatesMatch : Prop :=
  (∀ name counter, CounterName.counter run.backend name = some counter →
    ∀ rate, shownRate arith (run.after arith earlier).1 name reads = some rate →
      CounterRate earlier reads counter name rate) ∧
  ∀ rate, shownPower arith (run.after arith earlier).1 reads = some rate → EnergyRate earlier reads rate

/-- Every counter that is read, and the energy where it is, was read at the last refresh too, or has
not moved. -/
def Steady : Prop :=
  0 < reads.elapsed →
    (∀ name counter, CounterName.counter run.backend name = some counter →
      Meter.Steady (usage counter.mocked name.divisor name.scale) ((timed earlier).map (counterTick counter name))
        (counterTick counter name reads)) ∧
    Meter.Steady joules ((timed earlier).map energyTick) (energyTick reads)

/-- Every percentage, every frequency that is not read from a file and every power that is not an
average is the rate between two readings of one counter. -/
def Matches : Prop :=
  let gpu := (refresh arith (run.after arith earlier) reads).2
  (∀ percent, gpu.utilizationPercent = some percent → ∃ index counter rate, run.backend.engines[index]? = some counter ∧
    CounterRate earlier reads counter (.engine index) rate ∧ percent = lsmClampDouble rate 0 100) ∧
  (∀ engineClass percent, gpu.enginePercent engineClass = some percent →
    ∃ index counter rate, run.backend.engines[index]? = some counter ∧ counter.engineClass = engineClass ∧
      CounterRate earlier reads counter (.engine index) rate ∧ percent = lsmClampDouble rate 0 100) ∧
  (∀ frequency, gpu.coreClockMhz = some frequency →
    (∃ rate, CounterRate earlier reads run.backend.graphicsFrequency .graphicsFrequency rate ∧ frequency = max 0 rate) ∨
      reads.graphicsFrequencyPath = some frequency) ∧
  (∀ frequency, gpu.memoryClockMhz = some frequency →
    (∃ rate, CounterRate earlier reads run.backend.mediaFrequency .mediaFrequency rate ∧ frequency = max 0 rate) ∨
      reads.mediaFrequencyPath = some frequency) ∧
  ∀ power, gpu.powerWatts = some power →
    EnergyRate earlier reads power ∨ ∃ value ∈ reads.powerAverage, power = (value : ℚ) / 1000000

end IntelRun

/-! ### What is published -/

theorem clamp_range (value : ℚ) : 0 ≤ lsmClampDouble value 0 100 := le_max_left _ _

/-- The highest of some shares is one of them. -/
theorem foldl_max_mem {shares : List (LsmIntelEngineClass × ℚ)} (hne : shares ≠ []) (hpositive : ∀ s ∈ shares, 0 ≤ s.2) :
    ∃ share ∈ shares, shares.foldl (fun highest share => max highest share.2) 0 = share.2 := by
  induction shares using List.reverseRecOn with
  | nil => exact absurd rfl hne
  | append_singleton shares last ih =>
    have hlast : last ∈ shares ++ [last] := List.mem_append_right _ (List.mem_singleton_self last)
    rw [List.foldl_concat]
    by_cases hnil : shares = []
    · rw [hnil]
      exact ⟨last, hnil ▸ hlast, max_eq_right (hpositive last hlast)⟩
    · obtain ⟨share, hmem, hhighest⟩ := ih hnil fun s hs => hpositive s (List.mem_append_left _ hs)
      rw [hhighest]
      rcases max_choice share.2 last.2 with h | h
      · exact ⟨share, List.mem_append_left _ hmem, h⟩
      · exact ⟨last, hlast, h⟩

theorem highestShare_mem {shares : List (LsmIntelEngineClass × ℚ)} (hpositive : ∀ s ∈ shares, 0 ≤ s.2) {percent : ℚ}
    (h : highestShare shares = some percent) : ∃ share ∈ shares, percent = share.2 := by
  rw [highestShare] at h
  split at h
  next => exact nomatch h
  next hne =>
    obtain rfl := Option.some.inj h
    exact foldl_max_mem hne hpositive

/-- Where there was no utilisation before, it is the highest share. -/
theorem publishEngines_utilization {shares : List (LsmIntelEngineClass × ℚ)} {gpu : IntelMetrics} {percent : ℚ}
    (h : (publishEngines shares gpu.withdrawn).utilizationPercent = some percent) :
    highestShare shares = some percent := by
  rw [publishEngines] at h
  split at h
  next => exact nomatch h
  next => exact h

theorem publishEngines_class {shares : List (LsmIntelEngineClass × ℚ)} {gpu : IntelMetrics}
    {engineClass : LsmIntelEngineClass} {percent : ℚ}
    (h : (publishEngines shares gpu.withdrawn).enginePercent engineClass = some percent) :
    highestShare (shares.filter fun share => share.1 = engineClass) = some percent := by
  rw [publishEngines] at h
  split at h
  next => exact nomatch h
  next =>
    dsimp only at h
    split at h
    next => exact nomatch h
    next => exact h

section
variable {arith : Arithmetic}

theorem counterDelta_engineClass (counter : LsmIntelCounter) (read : Option LsmPerfRead) (elapsed divisor scale : ℚ) :
    (counterDelta arith counter read elapsed divisor scale).2.engineClass = counter.engineClass := by
  rw [counterDelta]
  split
  next => rfl
  next =>
    split
    next => rfl
    next =>
      dsimp only
      split
      next => rfl
      next => split <;> rfl

/-- A share is the clamped rate of an engine. -/
theorem mem_engineShares {backend : LsmIntelGpuBackend} {reads : IntelReads} {share : LsmIntelEngineClass × ℚ}
    (h : share ∈ engineShares (sampleEngines arith backend reads)) :
    ∃ index counter rate, backend.engines[index]? = some counter ∧ counter.engineClass = share.1 ∧
      shownRate arith backend (.engine index) reads = some rate ∧ share.2 = lsmClampDouble rate 0 100 := by
  obtain ⟨⟨percentage, sampled⟩, hmem, hshare⟩ := List.mem_filterMap.mp h
  obtain ⟨rate, rfl, rfl⟩ := Option.map_eq_some_iff.mp hshare
  obtain ⟨index, hindex⟩ := List.mem_iff_getElem?.mp hmem
  rw [getElem?_sampleEngines] at hindex
  obtain ⟨counter, hcounter, hdelta⟩ := Option.map_eq_some_iff.mp hindex
  refine ⟨index, counter, rate, hcounter, ?_, ?_, rfl⟩
  · exact (counterDelta_engineClass counter _ _ _ _).symm.trans
      (congrArg (fun delta : Option ℚ × LsmIntelCounter => delta.2.engineClass) hdelta)
  · show (backend.engines[index]?).bind _ = _
    rw [hcounter, Option.bind_some]
    exact congrArg (·.1) hdelta

variable {run : IntelRun} {earlier : List IntelReads} {reads : IntelReads}

theorem shownRate_eq {name : CounterName} {counter : LsmIntelCounter}
    (hcounter : name.counter run.backend = some counter) (h : 0 < reads.elapsed) :
    shownRate arith (run.after arith earlier).1 name reads =
      (Meter.step (usage counter.mocked name.divisor name.scale)
        (Meter.kept ((timed earlier).map (counterTick counter name))) (counterTick counter name reads)).1 := by
  rw [shownRate, (run.after_kept arith earlier).1 name, hcounter, Option.map_some, Option.bind_some,
    counterDelta_eq arith _ _ h]
  rfl

theorem shownPower_eq (h : 0 < reads.elapsed) :
    shownPower arith (run.after arith earlier).1 reads =
      (Meter.step joules (Meter.kept ((timed earlier).map energyTick)) (energyTick reads)).1 := by
  rw [shownPower, (run.after_kept arith earlier).2]
  cases haverage : reads.powerAverage with
  | some value =>
    have hread : (energyTick reads).reading = none := by
      rw [energyTick, haverage]
      rfl
    rw [Meter.step, hread]
    rfl
  | none =>
    rw [updatePower_eq arith _ h, haverage]
    rfl

theorem IntelRun.ratesMatch_iff : run.RatesMatch arith earlier reads ↔ run.Steady earlier reads := by
  by_cases h : 0 < reads.elapsed
  · refine Iff.trans ?_ (imp_iff_right h).symm
    refine and_congr (forall_congr' fun name => forall_congr' fun counter => imp_congr_right fun hcounter => ?_) ?_
    · rw [shownRate_eq hcounter h]
      exact Meter.fromReadings_iff (elapsed_of_timed fun _ => rfl) h
    · rw [shownPower_eq h]
      exact Meter.fromReadings_iff (elapsed_of_timed fun _ => rfl) h
  · refine iff_of_true ⟨fun name counter _ rate hrate => ?_, fun rate hrate => ?_⟩ fun hpositive => absurd hpositive h
    · obtain ⟨counter', -, hdelta⟩ := Option.bind_eq_some_iff.mp hrate
      rw [counterDelta, if_pos (not_lt.mp h)] at hdelta
      exact nomatch hdelta
    · rw [shownPower] at hrate
      split at hrate
      next => exact nomatch hrate
      next hnone =>
        rw [Option.not_isSome_iff_eq_none] at hnone
        rw [updatePower, hnone] at hrate
        dsimp only at hrate
        rw [if_pos (not_lt.mp h)] at hrate
        exact nomatch hrate

/-- What is published is made of the rates. -/
theorem IntelRun.RatesMatch.matches (h : run.RatesMatch arith earlier reads) : run.Matches arith earlier reads := by
  obtain ⟨hcounters, henergy⟩ := h
  by_cases htimed : 0 < reads.elapsed
  · have hshares : ∀ share ∈ engineShares (sampleEngines arith (run.after arith earlier).1 reads),
        ∃ index counter rate, run.backend.engines[index]? = some counter ∧ counter.engineClass = share.1 ∧
          CounterRate earlier reads counter (.engine index) rate ∧ share.2 = lsmClampDouble rate 0 100 := by
      intro share hmem
      obtain ⟨index, counter', rate, hcounter', hclass, hrate, hshare⟩ := mem_engineShares hmem
      have hkept := (run.after_kept arith earlier).1 (.engine index)
      rw [show CounterName.counter (run.after arith earlier).1 (.engine index) = some counter' from hcounter'] at hkept
      obtain ⟨counter, hcounter, rfl⟩ := Option.map_eq_some_iff.mp hkept.symm
      exact ⟨index, counter, rate, hcounter, hclass, hcounters (.engine index) counter hcounter rate hrate, hshare⟩
    have hpositive : ∀ share ∈ engineShares (sampleEngines arith (run.after arith earlier).1 reads), 0 ≤ share.2 := by
      intro share hmem
      obtain ⟨-, -, rate, -, -, -, hshare⟩ := hshares share hmem
      exact hshare ▸ clamp_range rate
    rw [Matches, refresh, lsmIntelGpuRefresh, if_neg (not_le.mpr htimed)]
    refine ⟨fun percent hpercent => ?_, fun engineClass percent hpercent => ?_, fun frequency hfrequency => ?_,
      fun frequency hfrequency => ?_, fun power hpower => ?_⟩
    · obtain ⟨share, hmem, rfl⟩ := highestShare_mem hpositive (publishEngines_utilization hpercent)
      obtain ⟨index, counter, rate, hcounter, -, hrate, hshare⟩ := hshares share hmem
      exact ⟨index, counter, rate, hcounter, hrate, hshare⟩
    · obtain ⟨share, hmem, rfl⟩ := highestShare_mem (fun share hmem => hpositive share (List.mem_filter.mp hmem).1)
        (publishEngines_class hpercent)
      obtain ⟨hmem, hclass⟩ := List.mem_filter.mp hmem
      obtain ⟨index, counter, rate, hcounter, hengine, hrate, hshare⟩ := hshares share hmem
      exact ⟨index, counter, rate, hcounter, hengine.trans (of_decide_eq_true hclass), hrate, hshare⟩
    · rcases updateFrequency_source arith hfrequency with ⟨rate, hrate, hvalue⟩ | hfile
      · exact .inl ⟨rate, hcounters .graphicsFrequency _ rfl rate hrate, hvalue⟩
      · exact .inr hfile
    · rcases updateFrequency_source arith hfrequency with ⟨rate, hrate, hvalue⟩ | hfile
      · exact .inl ⟨rate, hcounters .mediaFrequency _ rfl rate hrate, hvalue⟩
      · exact .inr hfile
    · have hsource : (updatePower arith (run.after arith earlier).1.previousEnergyUj reads).1 = some power := by
        rw [← Option.or_none (o := (updatePower arith (run.after arith earlier).1.previousEnergyUj reads).1)]
        exact hpower
      cases haverage : reads.powerAverage with
      | some value =>
        rw [updatePower, haverage] at hsource
        exact .inr ⟨value, rfl, (Option.some.inj hsource).symm⟩
      | none =>
        left
        refine henergy power ?_
        rw [shownPower, haverage]
        exact hsource
  · rw [Matches, refresh_untimed arith _ htimed]
    exact ⟨fun _ h => (nomatch h), fun _ _ h => (nomatch h), fun _ h => (nomatch h), fun _ h => (nomatch h),
      fun _ h => nomatch h⟩

end

/-- **At a refresh of a run every rate is the one between two readings of its counter exactly where
the refresh is steady**, and then so is everything that is published. -/
theorem intel_rates_iff (arith : Arithmetic) (run : IntelRun) (i : Fin run.refreshes.length) :
    let earlier := run.refreshes.take i
    let reads := run.refreshes.get i
    (run.RatesMatch arith earlier reads ↔ run.Steady earlier reads) ∧
      (run.Steady earlier reads → run.Matches arith earlier reads) :=
  ⟨IntelRun.ratesMatch_iff, fun hsteady => (IntelRun.ratesMatch_iff.mpr hsteady).matches⟩

/-! ### A reading that is missed -/

/-- One engine that is busy half of the time, in every second that it is read. -/
def missedRefreshes : List IntelReads :=
  [{ elapsed := 1, engines := fun _ => some ⟨0, 0, 0⟩ }, { elapsed := 1 },
   { elapsed := 1, engines := fun _ => some ⟨1000000000, 2000000000, 2000000000⟩ }]

def missedRun : IntelRun where
  backend := { engines := [{ opened := true, engineClass := .render }] }
  engines_new := fun _ h => List.mem_singleton.mp h ▸ rfl
  graphics_new := rfl
  media_new := rfl
  energy_new := rfl
  refreshes := missedRefreshes

/-- The engine is shown busy all the time. -/
theorem missed_refresh :
    (refresh .documented (missedRun.after .documented (missedRefreshes.take 2))
      { elapsed := 1, engines := fun _ => some ⟨1000000000, 2000000000, 2000000000⟩ }).2.utilizationPercent =
        some 100 ∧
      ¬missedRun.Matches .documented (missedRefreshes.take 2)
        { elapsed := 1, engines := fun _ => some ⟨1000000000, 2000000000, 2000000000⟩ } := by
  have hshown : (refresh .documented (missedRun.after .documented (missedRefreshes.take 2))
      { elapsed := 1, engines := fun _ => some ⟨1000000000, 2000000000, 2000000000⟩ }).2.utilizationPercent =
        some 100 := by decide +kernel
  refine ⟨hshown, fun h => ?_⟩
  obtain ⟨index, counter, rate, hcounter, ⟨age, first, later, amount, hlast, hlater, hamount, rfl⟩, hpercent⟩ :=
    h.1 100 hshown
  -- two seconds between the readings, and one of them busy
  have hengine : counter = { opened := true, engineClass := .render } :=
    List.mem_singleton.mp (List.mem_of_getElem? hcounter)
  subst hengine
  obtain rfl : index = 0 := Nat.lt_one_iff.mp (List.getElem?_eq_some_iff.mp hcounter).1
  have hfirst : Meter.lastReading ((timed (missedRefreshes.take 2)).map (counterTick
      { opened := true, engineClass := .render } (.engine 0))) = some (1, ⟨0, 0, 0⟩) := by decide +kernel
  obtain ⟨rfl, rfl⟩ := Prod.mk.inj (Option.some.inj (hlast.symm.trans hfirst))
  obtain rfl := Option.some.inj hlater
  have hhundred : usage false 1000000000 100 ⟨1000000000, 2000000000, 2000000000⟩ ⟨0, 0, 0⟩ = some 100 := by
    decide +kernel
  obtain rfl := Option.some.inj (hamount.symm.trans hhundred)
  exact absurd hpercent (by decide +kernel)

end SystemMonitor.Hardware.Intel
