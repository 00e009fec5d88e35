import SystemMonitor.Common
import SystemMonitor.Lib.OpenTable
import SystemMonitor.Lib.WideStrings

/-! How busy the engines of the graphics adapters are.

The performance counters give one item for each process and engine, named after the
adapter, the engine and its type. The items of an engine are added up in a table of fixed
size with a hash table in front of it, and each adapter shows its busiest engine of each
type. A table that is full takes back what every adapter shows. -/
namespace SystemMonitor.Windows.GpuEngines
open Lib OpenTable WideStrings

def lsmWindowsGpuEngineLimit : Nat := 256
def lsmWindowsGpuEngineLookupSize : Nat := 512

inductive LsmWindowsGpuEngineType where
  | other
  | render
  | compute
  | video
  | videoEnhance
  | copy
  deriving DecidableEq

/-- The types that are shown, in the order in which they are considered. -/
def shownTypes : List LsmWindowsGpuEngineType := [.render, .compute, .video, .videoEnhance, .copy]

/-- `HighPart` and `LowPart`. -/
structure Luid where
  high : UInt32
  low : UInt32
  deriving DecidableEq

/-- The two fields of one engine type, such as `render_available` and `render_percent`. -/
structure EngineMetric where
  available : Bool
  percent : ℚ
  deriving DecidableEq

structure LsmGpuInfo where
  engine : LsmWindowsGpuEngineType → EngineMetric
  utilizationPercent : ℚ
  activeEnginePercent : ℚ
  utilizationAvailable : Bool
  engineMetricsCapable : Bool
  activeEngine : Text
  supportedMetrics : Bool
  metricsSource : Text

/-- An item of the counter's array. -/
structure PdhItem where
  szName : Wide
  cStatus : UInt32
  doubleValue : ℚ

/-- What one engine is known by. -/
structure EngineKey where
  gpuIndex : Nat
  physicalIndex : UInt32
  engineIndex : UInt32
  type : LsmWindowsGpuEngineType
  deriving DecidableEq

structure LsmWindowsGpuEngineSample extends EngineKey where
  used : Bool
  utilisation : ℚ

/-! ### Instance names -/

/-- The value of a numeral, and the text behind it. -/
def parseHexComponent (text : Wide) : Option (UInt32 × Wide) := (wcstoul text).map fun (n, rest) => (n.toUInt32, rest)

def parseGpuEngineLuid (name : Wide) : Option Luid :=
  (wcsstr (wide "luid_") name).bind fun found =>
    (parseHexComponent (found.drop 5)).bind fun (high, rest) =>
      if rest.head? = some 95 then (parseHexComponent rest.tail).map fun (low, _) => { high, low } else none

def parseGpuEngineIndex (name token : Wide) : Option UInt32 :=
  (wcsstr token name).bind fun found => (parseHexComponent (found.drop token.length)).map Prod.fst

def gpuEngineType (name : Wide) : Option Wide := (wcsstr (wide "engtype_") name).map fun found => found.drop 8

def towlower (c : UInt16) : UInt16 := if 65 ≤ c ∧ c ≤ 90 then c + 32 else c

/-- `_wcsnicmp(type, prefix, wcslen(prefix)) == 0` -/
def wcsnicmpEqual (type start : Wide) : Bool := (type.take start.length).map towlower == start.map towlower

def classifyGpuEngine : Option Wide → LsmWindowsGpuEngineType
  | none => .other
  | some type =>
    if wcsnicmpEqual type (wide "3D") then .render
    else if wcsnicmpEqual type (wide "Compute") then .compute
    else if wcsnicmpEqual type (wide "VideoDecode") || wcsnicmpEqual type (wide "VideoEncode") then .video
    else if wcsnicmpEqual type (wide "VideoProcessing") then .videoEnhance
    else if wcsnicmpEqual type (wide "Copy") then .copy
    else .other

/-- The first adapter that has the identifier. -/
def gpuIndexForLuid (gpuLuids : List (Option Luid)) (gpuCount : Nat) (luid : Luid) : Option Nat :=
  (gpuLuids.take gpuCount).findIdx? (· == some luid)

def pdhCstatusValidData : UInt32 := 0
def pdhCstatusNewData : UInt32 := 1

/-- The engine that an item counts for; the other items are passed over. -/
def countedEngine (gpuLuids : List (Option Luid)) (gpuCount : Nat) (item : PdhItem) : Option EngineKey :=
  if item.cStatus ≠ pdhCstatusValidData ∧ item.cStatus ≠ pdhCstatusNewData then none
  else if ¬ 0 ≤ item.doubleValue ∨ 1000000 < item.doubleValue then none
  else (parseGpuEngineLuid item.szName).bind fun luid =>
    (parseGpuEngineIndex item.szName (wide "phys_")).bind fun physicalIndex =>
      (parseGpuEngineIndex item.szName (wide "eng_")).bind fun engineIndex =>
        (gpuIndexForLuid gpuLuids gpuCount luid).bind fun gpuIndex =>
          let type := classifyGpuEngine (gpuEngineType item.szName)
          if type = .other then none else some { gpuIndex, physicalIndex, engineIndex, type }

/-! ### The table of engines -/

def LsmWindowsGpuEngineType.toUInt64 : LsmWindowsGpuEngineType → UInt64
  | .other => 0
  | .render => 1
  | .compute => 2
  | .video => 3
  | .videoEnhance => 4
  | .copy => 5

def gpuEngineLookupStart (key : EngineKey) : Nat :=
  let mix (hash value : UInt64) := (hash ^^^ value) * 1099511628211
  let hash := mix 1469598103934665603 key.gpuIndex.toUInt64
  let hash := mix hash key.physicalIndex.toUInt64
  let hash := mix hash key.engineIndex.toUInt64
  let hash := mix hash key.type.toUInt64
  hash.toNat % lsmWindowsGpuEngineLookupSize

/-- `engines` as far as they are used, and `engine_lookup`. -/
structure Engines where
  engines : List LsmWindowsGpuEngineSample
  engineLookup : Nat → Option Nat

def Engines.empty : Engines := ⟨[], fun _ => none⟩

def Engines.keys (e : Engines) : List EngineKey := e.engines.map (·.toEngineKey)

/-- The slot of a key, its place, or the end of the probing. -/
def Engines.lookup (e : Engines) (key : EngineKey) : Probed :=
  probe lsmWindowsGpuEngineLookupSize e.engineLookup (isAt e.keys key) lsmWindowsGpuEngineLookupSize (gpuEngineLookupStart key)

/-- `none`: the inventory is not complete. -/
def Engines.add (e : Engines) (key : EngineKey) (value : ℚ) : Option Engines :=
  match e.lookup key with
  | .found engine =>
    some {e with engines := e.engines.modify engine fun sample => {sample with utilisation := sample.utilisation + value}}
  | .free slot =>
    if lsmWindowsGpuEngineLimit ≤ e.engines.length then none
    else some { engines := e.engines ++ [{ key with used := true, utilisation := 0 + value }]
                engineLookup := Function.update e.engineLookup slot (some e.engines.length) }
  | .exhausted => none

def addItems (gpuLuids : List (Option Luid)) (gpuCount : Nat) : List PdhItem → Engines → Option Engines
  | [], e => some e
  | item :: rest, e =>
    match countedEngine gpuLuids gpuCount item with
    | none => addItems gpuLuids gpuCount rest e
    | some key => (e.add key item.doubleValue).bind (addItems gpuLuids gpuCount rest)

/-! ### What an adapter shows -/

def resetGpuEngineMetrics (gpu : LsmGpuInfo) : LsmGpuInfo :=
  {gpu with
    engine := fun _ => ⟨false, 0⟩
    utilizationPercent := 0
    activeEnginePercent := 0
    utilizationAvailable := false
    engineMetricsCapable := false
    activeEngine := []}

def clampPercent (value : ℚ) : ℚ := if value < 0 then 0 else if 100 < value then 100 else value

/-- One branch of the switch, for the fields of a type that is shown. -/
def EngineMetric.apply (metric : EngineMetric) (bounded : ℚ) : EngineMetric where
  available := true
  percent := if !metric.available || decide (metric.percent < bounded) then bounded else metric.percent

def applyGpuEngineSample (gpu : LsmGpuInfo) (type : LsmWindowsGpuEngineType) (value : ℚ) : LsmGpuInfo :=
  let bounded := clampPercent value
  {gpu with
    engine := if type = .other then gpu.engine else Function.update gpu.engine type ((gpu.engine type).apply bounded)
    utilizationPercent := if gpu.utilizationPercent < bounded then bounded else gpu.utilizationPercent}

def LsmWindowsGpuEngineType.label : LsmWindowsGpuEngineType → Text
  | .other => []
  | .render => ascii "3D"
  | .compute => ascii "Compute"
  | .video => ascii "Video"
  | .videoEnhance => ascii "Video processing"
  | .copy => ascii "Copy"

/-- `CONSIDER_GPU_ENGINE` -/
def considerGpuEngine (gpu : LsmGpuInfo) (best : ℚ × Text) (type : LsmWindowsGpuEngineType) : ℚ × Text :=
  if (gpu.engine type).available && decide (best.1 < (gpu.engine type).percent) then ((gpu.engine type).percent, type.label)
  else best

def finaliseGpuEngineMetrics (gpu : LsmGpuInfo) : LsmGpuInfo :=
  let capable := shownTypes.any fun type => (gpu.engine type).available
  let gpu := {gpu with engineMetricsCapable := capable, utilizationAvailable := capable}
  if !capable then gpu
  else
    let best := shownTypes.foldl (considerGpuEngine gpu) (0, ascii "Idle")
    {gpu with
      activeEnginePercent := best.1
      activeEngine := best.2
      supportedMetrics := true
      metricsSource := ascii "Windows GPU Engine performance counters"}

def applyEngines (engines : List LsmWindowsGpuEngineSample) (gpus : List LsmGpuInfo) : List LsmGpuInfo :=
  engines.foldl (fun gpus engine =>
    if !engine.used || decide (gpus.length ≤ engine.gpuIndex) then gpus
    else gpus.modify engine.gpuIndex fun gpu => applyGpuEngineSample gpu engine.type engine.utilisation) gpus

/-- The items are `none` where the counters could not be collected. -/
def updateGpuEngineMetrics (gpuLuids : List (Option Luid)) (gpus : List LsmGpuInfo) (items : Option (List PdhItem)) :
    List LsmGpuInfo :=
  let gpus := gpus.map resetGpuEngineMetrics
  match items with
  | none => gpus
  | some items =>
    match addItems gpuLuids gpus.length items .empty with
    | none => gpus.map resetGpuEngineMetrics
    | some e => (applyEngines e.engines gpus).map finaliseGpuEngineMetrics

end SystemMonitor.Windows.GpuEngines
