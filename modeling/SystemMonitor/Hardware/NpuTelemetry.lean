import SystemMonitor.Common

/-! The telemetry of an NPU.

Each attribute is a file of its own that may be there or not and is read anew in every
sample. How busy the NPU is comes from a percentage where the driver has one, and from a
counter of busy time where that cannot be read. -/
namespace SystemMonitor.Hardware.Npu

def lsmNpuMinBusySampleSeconds : ℚ := 9 / 10

/-- What the telemetry uses of Common. -/
structure Library extends Arithmetic where
  clampDouble : ℚ → ℚ → ℚ → ℚ
  clampDouble_eq : ∀ value low high, clampDouble value low high = max low (min high value)

/-- The documented behaviour as functions. -/
def Library.documented : Library where
  toArithmetic := .documented
  clampDouble value low high := max low (min high value)
  clampDouble_eq _ _ _ := rfl

/-- The paths of the attributes; an attribute that is not there has the empty one. -/
structure Attributes where
  utilization : Text := []
  busyTimeUs : Text := []
  memoryUsed : Text := []
  memoryTotal : Text := []
  clock : Text := []
  temperature : Text := []
  power : Text := []
  intelIvpu : Bool := false
  deriving DecidableEq

structure LsmNpuTelemetry extends Attributes where
  previousBusyTimeUs : Nat := 0
  busyElapsedSeconds : ℚ := 0
  lastBusyPercent : ℚ := 0
  busyInitialised : Bool := false
  lastBusyValid : Bool := false
  deriving DecidableEq

/-- The measured fields of `LsmNpuInfo`. -/
structure LsmNpuInfo where
  utilizationPercent : ℚ
  memoryPercent : ℚ
  memoryUsedBytes : Nat
  memoryTotalBytes : Nat
  temperatureC : Option ℚ
  clockMhz : Option ℚ
  powerWatts : Option ℚ
  utilizationAvailable : Bool
  memoryUsedAvailable : Bool
  memoryTotalAvailable : Bool
  temperatureAvailable : Bool
  clockAvailable : Bool
  powerAvailable : Bool
  supportedMetrics : Bool
  metricsSource : Text
  deriving DecidableEq

/-! ### Discovery -/

section
variable (readable : Text → Bool)

/-- `infiltratr_first_readable_path` -/
def firstReadablePath (base : Text) (suffixes : List String) : Text :=
  ((suffixes.map fun suffix => base ++ ascii suffix).find? readable).getD []

def discoverAttributes (driver base : Text) : Attributes :=
  if driver = ascii "intel_vpu" ∨ driver = ascii "ivpu" then
    { busyTimeUs := firstReadablePath readable base ["/npu_busy_time_us"]
      memoryUsed := firstReadablePath readable base ["/npu_memory_utilization"]
      clock := firstReadablePath readable base ["/freq/current_freq"]
      intelIvpu := true }
  else
    { utilization := firstReadablePath readable base ["/utilization_percent", "/busy_percent", "/npu_busy_percent"]
      busyTimeUs := firstReadablePath readable base ["/busy_time_us"]
      memoryUsed := firstReadablePath readable base ["/memory_used_bytes", "/mem_used_bytes"]
      memoryTotal := firstReadablePath readable base ["/memory_total_bytes", "/mem_total_bytes"]
      clock := firstReadablePath readable base ["/clock_mhz", "/cur_freq_mhz"]
      temperature := firstReadablePath readable base ["/temperature_millicelsius", "/temp_millicelsius", "/temp1_input"]
      power := firstReadablePath readable base ["/power_uw", "/power1_input"] }

def Attributes.hasSource (a : Attributes) : Bool :=
  [a.utilization, a.busyTimeUs, a.memoryUsed, a.memoryTotal, a.clock, a.temperature, a.power].any (· ≠ [])

/-- `none` where there is nothing to sample. -/
def lsmNpuTelemetryCreate (driver base : Text) : Option LsmNpuTelemetry :=
  if base = [] then none
  else
    let attributes := discoverAttributes readable driver base
    if attributes.hasSource then some { attributes with } else none

end

/-! ### A sample -/

section
variable (lib : Library)

/-- An attribute that is there and can be read. -/
def readAttribute (files : Text → Option Nat) (path : Text) : Option Nat := if path = [] then none else files path

def LsmNpuInfo.showBusy (npu : LsmNpuInfo) (percent : ℚ) : LsmNpuInfo :=
  {npu with utilizationPercent := percent, utilizationAvailable := true}

/-- Whether a percentage is shown, and what is kept and shown. -/
def refreshBusyTime (t : LsmNpuTelemetry) (npu : LsmNpuInfo) (elapsedSeconds : ℚ) (files : Text → Option Nat) :
    Bool × LsmNpuTelemetry × LsmNpuInfo :=
  if t.busyTimeUs = [] ∨ elapsedSeconds ≤ 0 then (false, t, npu)
  else
    let t := {t with busyElapsedSeconds := t.busyElapsedSeconds + elapsedSeconds}
    if t.busyElapsedSeconds < lsmNpuMinBusySampleSeconds then
      if !t.lastBusyValid then (false, t, npu) else (true, t, npu.showBusy t.lastBusyPercent)
    else match files t.busyTimeUs with
      | none => (false, {t with busyElapsedSeconds := 0, busyInitialised := false, lastBusyValid := false}, npu)
      | some current =>
        if !t.busyInitialised then
          (false, {t with
            previousBusyTimeUs := current
            busyElapsedSeconds := 0
            busyInitialised := true
            lastBusyValid := false}, npu)
        else match lib.u64CounterRate current t.previousBusyTimeUs (1 / 10000) t.busyElapsedSeconds with
          | none => (false, {t with previousBusyTimeUs := current, busyElapsedSeconds := 0, lastBusyValid := false}, npu)
          | some percent =>
            let shown := lib.clampDouble percent 0 100
            (true, {t with
              previousBusyTimeUs := current
              busyElapsedSeconds := 0
              lastBusyPercent := shown
              lastBusyValid := true}, npu.showBusy shown)

/-- No value of an earlier sample. -/
def LsmNpuInfo.cleared : LsmNpuInfo where
  utilizationPercent := 0
  memoryPercent := 0
  memoryUsedBytes := 0
  memoryTotalBytes := 0
  temperatureC := none
  clockMhz := none
  powerWatts := none
  utilizationAvailable := false
  memoryUsedAvailable := false
  memoryTotalAvailable := false
  temperatureAvailable := false
  clockAvailable := false
  powerAvailable := false
  supportedMetrics := false
  metricsSource := []

/-- How busy the NPU is: the percentage where it can be read, the busy time else. -/
def refreshUtilization (t : LsmNpuTelemetry) (elapsedSeconds : ℚ) (files : Text → Option Nat) :
    Bool × LsmNpuTelemetry × LsmNpuInfo :=
  match readAttribute files t.utilization with
  | some value => (true, t, LsmNpuInfo.cleared.showBusy (lib.clampDouble value 0 100))
  | none => refreshBusyTime lib t .cleared elapsedSeconds files

def refreshMemory (t : LsmNpuTelemetry) (files : Text → Option Nat) (npu : LsmNpuInfo) : LsmNpuInfo :=
  let used := readAttribute files t.memoryUsed
  let total := (readAttribute files t.memoryTotal).filter (0 < ·)
  {npu with
    memoryUsedBytes := used.getD 0
    memoryUsedAvailable := used.isSome
    memoryTotalBytes := total.getD 0
    memoryTotalAvailable := total.isSome
    memoryPercent := if used.isSome && total.isSome then lib.percentU64 (used.getD 0) (total.getD 0) else 0}

def refreshSensors (t : LsmNpuTelemetry) (files : Text → Option Nat) (npu : LsmNpuInfo) : LsmNpuInfo :=
  let clock := readAttribute files t.clock
  let temperature := readAttribute files t.temperature
  let power := readAttribute files t.power
  {npu with
    clockMhz := clock.map fun value => (value : ℚ)
    clockAvailable := clock.isSome
    temperatureC := temperature.map fun value => (value : ℚ) / 1000
    temperatureAvailable := temperature.isSome
    powerWatts := power.map fun value => (value : ℚ) / 1000000
    powerAvailable := power.isSome}

def lsmNpuTelemetryRefresh (t : LsmNpuTelemetry) (elapsedSeconds : ℚ) (files : Text → Option Nat) :
    Bool × LsmNpuTelemetry × LsmNpuInfo :=
  let (any, t, npu) := refreshUtilization lib t elapsedSeconds files
  let npu := refreshSensors t files (refreshMemory lib t files npu)
  let any := any || npu.memoryUsedAvailable || npu.memoryTotalAvailable || npu.clockAvailable || npu.temperatureAvailable ||
    npu.powerAvailable
  (any, t, if any then {npu with
    metricsSource := ascii (if t.intelIvpu then "Native Intel IVPU sysfs" else "Native accelerator sysfs (explicit units)")
    supportedMetrics := true} else npu)

end

end SystemMonitor.Hardware.Npu
