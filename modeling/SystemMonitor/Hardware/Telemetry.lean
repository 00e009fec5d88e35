import SystemMonitor.Hardware.Model
import SystemMonitor.Lib.Last
import SystemMonitor.Lib.Machine

/-! Telemetry caches and counter baselines of the accelerators.

A refresh matches the retained baselines with the new list by identity
(`reconcile_gpu_states`) and moves the caches of resolved attribute paths to the new
positions (`synchronise_telemetry_caches`); an update then reads each adapter through
the cache at its own index. -/
namespace SystemMonitor.Hardware
open Lib

/-! ### Building caches -/

/-- What the files of one device offer when its cache is built. -/
structure DeviceFiles where
  gpuBusy : Bool := false
  /-- The other attribute files, below the device. -/
  metrics : List Text := []
  /-- Whether the native Intel backend can be created. -/
  intelCreated : Bool := false
  engines : List Text := []
  /-- Whether the engine directory was read to its end, within the limit. -/
  enginesComplete : Bool := true
  hwmon : List Text := []
  hwmonComplete : Bool := true

def lsmIntelGpuDriverSupported (lib : Library) (driver : Text) : Bool :=
  lib.asciiEqualCi driver (ascii "i915") || lib.asciiEqualCi driver (ascii "xe")

def gpuBusyFile : Text := ascii "/gpu_busy_percent"

/-- The directory of the device: of its platform identity, or of its DRM card. -/
def gpuBase (gpu : LsmGpuInfo) : Text :=
  if gpu.platformIdentity = .empty
  then ascii "/sys/class/drm/" ++ gpu.displayIdentifier.text.take 63 ++ ascii "/device"
  else gpu.platformIdentity.text

/-- The paths that `existing_metric_path` duplicates. -/
def cachePaths (base : Text) : List Text → Arena → List CachedPath × Arena
  | [], arena => ([], arena)
  | relative :: rest, arena =>
    let tail := cachePaths base rest arena.grow
    (⟨base ++ relative, arena.next⟩ :: tail.1, tail.2)

/-- A directory that was not read to its end leaves no path. -/
def keepComplete (complete : Bool) (paths : List CachedPath × Arena) : List CachedPath × Arena :=
  if complete then paths else ([], paths.2.release (paths.1.map CachedPath.pointer))

def cacheOne (present : Bool) (arena : Arena) : Option Nat × Arena :=
  if present then (some arena.next, arena.grow) else (none, arena)

def buildGpuTelemetryCache (lib : Library) (sysfs : Text → DeviceFiles) (gpu : LsmGpuInfo) (arena : Arena) :
    LsmGpuTelemetryCache × Arena :=
  let base := gpuBase gpu
  let files := sysfs base
  let busy := cacheOne files.gpuBusy arena
  let metrics := cachePaths base files.metrics busy.2
  let intel := cacheOne (lsmIntelGpuDriverSupported lib gpu.driver.text && files.intelCreated) metrics.2
  let engines := keepComplete files.enginesComplete (cachePaths base files.engines intel.2)
  let hwmon := keepComplete files.hwmonComplete (cachePaths base files.hwmon engines.2)
  ({ identity := gpuStableIdentity gpu
     gpuBusy := busy.1.map (⟨base ++ gpuBusyFile, ·⟩)
     metrics := metrics.1 ++ hwmon.1
     intelBackend := intel.1
     engineBusy := engines.1 }, hwmon.2)

def buildNpuTelemetryCache (created : Text → Bool) (npu : LsmNpuInfo) (arena : Arena) :
    LsmNpuTelemetryCache × Arena :=
  let backend := cacheOne (created npu.platformIdentity.text) arena
  ({identity := npuStableIdentity npu, backend := backend.1}, backend.2)

def LsmGpuTelemetryCache.paths (cache : LsmGpuTelemetryCache) : List CachedPath :=
  cache.gpuBusy.toList ++ cache.metrics ++ cache.engineBusy

/-- What `destroy_gpu_telemetry` frees. -/
def LsmGpuTelemetryCache.pointers (cache : LsmGpuTelemetryCache) : List Nat :=
  cache.paths.map CachedPath.pointer ++ cache.intelBackend.toList

def gpuTelemetryCachePathsValid (accessible : Text → Bool) (cache : LsmGpuTelemetryCache) : Bool :=
  cache.paths.all fun p => accessible p.path

/-! ### The refresh -/

/-- What a refresh observes besides the lists. -/
structure TelemetryInput where
  sysfs : Text → DeviceFiles
  npuCreated : Text → Bool
  /-- `access(path, F_OK)`. -/
  accessible : Text → Bool

def gpuCaches (lib : Library) (input : TelemetryInput) : CacheKind LsmGpuInfo LsmGpuTelemetryCache (Chars 512) where
  key := gpuStableIdentity
  slotKey := LsmGpuTelemetryCache.identity
  zero := {}
  pointers := LsmGpuTelemetryCache.pointers
  usable := gpuTelemetryCachePathsValid input.accessible
  build := buildGpuTelemetryCache lib input.sysfs

/-- A backend is kept whatever its files are. -/
def npuCaches (input : TelemetryInput) : CacheKind LsmNpuInfo LsmNpuTelemetryCache (Chars 512) where
  key := npuStableIdentity
  slotKey := LsmNpuTelemetryCache.identity
  zero := {}
  pointers cache := cache.backend.toList
  usable _ := true
  build := buildNpuTelemetryCache input.npuCreated

def synchroniseTelemetryCaches (lib : Library) (input : TelemetryInput) (monitor : LsmMonitor) : LsmMonitor :=
  let gpus := (gpuCaches lib input).synchronise monitor.gpus monitor.gpuTelemetry monitor.heap
  let npus := (npuCaches input).synchronise monitor.npus monitor.npuTelemetry gpus.2
  {monitor with gpuTelemetry := gpus.1, npuTelemetry := npus.1, heap := npus.2}

def findGpuState (states : List LsmLinuxGpuState) (identity : Chars 512) : Option LsmLinuxGpuState :=
  states.find? fun state => state.platformIdentity = identity

/-- The baseline of the adapter's identity, or a new one. -/
def reconcileGpuState (lib : Library) (states : List LsmLinuxGpuState) (gpu : LsmGpuInfo) : LsmLinuxGpuState :=
  let identity := gpuStableIdentity gpu
  {(findGpuState states identity).getD {platformIdentity := identity} with
    platformIdentity := identity
    intelNativeBackend := lsmIntelGpuDriverSupported lib gpu.driver.text}

def reconcileGpuStates (lib : Library) (monitor : LsmMonitor) : LsmMonitor :=
  {monitor with gpuStates := (monitor.gpus.take lsmMaxGpus).map (reconcileGpuState lib monitor.gpuStates)}

structure RefreshInput extends TopologyInput, TelemetryInput

def refreshHardwareTopology (lib : Library) (input : RefreshInput) (monitor : LsmMonitor) : LsmMonitor :=
  let reconciled := lsmHardwareTopologyReconcile monitor (discovered lib input.toTopologyInput monitor)
  let synchronised := synchroniseTelemetryCaches lib input.toTelemetryInput (reconcileGpuStates lib reconciled.1)
  if reconciled.2 then {synchronised with topologyGeneration := synchronised.topologyGeneration + 1} else synchronised

/-! ### The update -/

/-- What an update reads. -/
structure UpdateReads where
  elapsed : ℚ
  /-- `lsm_read_u64_file`. -/
  readU64 : Text → Option Nat
  /-- What a native backend samples: `none` when its refresh fails, else the utilisation it has. -/
  intelRefresh : Nat → Option (Option ℚ)

def addChecked (sum : Nat) (value : Option Nat) : Option Nat :=
  value.bind fun value => if sum + value ≤ uint64Max then some (sum + value) else none

def readGpuEngineBusy (reads : UpdateReads) (cache : LsmGpuTelemetryCache) : Option Nat :=
  if cache.engineBusy = [] then none
  else cache.engineBusy.foldl (fun sum p => sum.bind fun sum => addChecked sum (reads.readU64 p.path)) (some 0)

/-- What the utilisation of an adapter is sampled from. -/
inductive UtilizationSource where
  | native (percent : Option ℚ)
  | busy (percent : Nat)
  /-- The cumulative engine time, when it can be read. -/
  | engines (total : Option Nat)

def utilizationSource (reads : UpdateReads) (cache : Option LsmGpuTelemetryCache) : UtilizationSource :=
  match (cache.bind (·.intelBackend)).bind reads.intelRefresh with
  | some percent => .native percent
  | none =>
    match (cache.bind (·.gpuBusy)).bind fun p => reads.readU64 p.path with
    | some busy => .busy busy
    | none => .engines (cache.bind (readGpuEngineBusy reads))

/-- The utilisation an engine total gives over the baseline. -/
def engineUtilization (lib : Library) (reads : UpdateReads) (state : LsmLinuxGpuState) (total : Nat) : Option ℚ :=
  if state.engineBusyInitialized
  then (lib.u64CounterRate total state.previousEngineBusyNs (1 / 10000000) reads.elapsed).map fun percent =>
    max 0 (min 100 percent)
  else none

def sampledUtilization (lib : Library) (reads : UpdateReads) (source : UtilizationSource)
    (state : Option LsmLinuxGpuState) : Option ℚ :=
  match source with
  | .native percent => percent
  | .busy percent => some (min 100 (percent : ℚ))
  | .engines total => state.bind fun state => total.bind (engineUtilization lib reads state)

/-- A failed cumulative reading resets the baseline. -/
def sampledState (source : UtilizationSource) (state : LsmLinuxGpuState) : LsmLinuxGpuState :=
  match source with
  | .native _ | .busy _ => state
  | .engines (some total) => {state with previousEngineBusyNs := total, engineBusyInitialized := true}
  | .engines none => {state with previousEngineBusyNs := 0, engineBusyInitialized := false}

/-- The loop body of `update_gpus` for the adapter at an index. -/
def updateGpu (lib : Library) (reads : UpdateReads) (monitor : LsmMonitor) (index : Nat) : LsmMonitor :=
  match monitor.gpus[index]? with
  | none => monitor
  | some gpu =>
    let identity := gpuStableIdentity gpu
    let source := utilizationSource reads monitor.gpuTelemetry[index]?
    let utilization := sampledUtilization lib reads source (findGpuState monitor.gpuStates identity)
    {monitor with
      gpus := monitor.gpus.set index {gpu with utilizationPercent := utilization}
      gpuStates :=
        match monitor.gpuStates.findIdx? fun state => state.platformIdentity = identity with
        | none => monitor.gpuStates
        | some i => monitor.gpuStates.modify i (sampledState source)}

/-- The adapters below a count, one after the other. -/
def updateGpusBelow (lib : Library) (reads : UpdateReads) (count : Nat) (monitor : LsmMonitor) : LsmMonitor :=
  (List.range count).foldl (updateGpu lib reads) monitor

def updateGpus (lib : Library) (reads : UpdateReads) (report : Option NvmlReport) (monitor : LsmMonitor) : LsmMonitor :=
  lsmNvmlRefresh lib report (updateGpusBelow lib reads monitor.gpus.length monitor)

/-! ### Runs -/

inductive Action where
  | refresh (input : RefreshInput)
  | update (reads : UpdateReads) (report : Option NvmlReport)

def hardware (lib : Library) : Machine LsmMonitor Action where
  step monitor
    | .refresh input => some (refreshHardwareTopology lib input monitor)
    | .update reads report => some (updateGpus lib reads report monitor)

/-- What the loop body writes into a baseline: for which identity, and the total that
was read through the cache at that index, if there is one. -/
def baselineRecord (reads : UpdateReads) (monitor : LsmMonitor) (index : Nat) : Option (Chars 512 × Option Nat) :=
  monitor.gpus[index]?.bind fun gpu =>
    (findGpuState monitor.gpuStates (gpuStableIdentity gpu)).bind fun _ =>
      match utilizationSource reads monitor.gpuTelemetry[index]? with
      | .engines total => some (gpuStableIdentity gpu, total)
      | _ => none

/-- What the adapters below a count record. -/
def recordsBelow (lib : Library) (reads : UpdateReads) (count : Nat) (monitor : LsmMonitor) :
    List (Chars 512 × Option Nat) :=
  (List.range count).flatMap fun index => (baselineRecord reads (updateGpusBelow lib reads index monitor) index).toList

def records (lib : Library) (monitor : LsmMonitor) : Action → List (Chars 512 × Option Nat)
  | .refresh _ => []
  | .update reads _ => recordsBelow lib reads monitor.gpus.length monitor

/-- The last record of an identity. -/
def lastRecord (log : List (Chars 512 × Option Nat)) (identity : Chars 512) : Option (Option Nat) :=
  lastOf (fun record => if record.1 = identity then some record.2 else none) log

end SystemMonitor.Hardware
