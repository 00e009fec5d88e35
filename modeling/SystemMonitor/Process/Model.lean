import SystemMonitor.Common

/-! The platform-neutral process record, and the graphics counters behind its GPU
fields.

A `double` is an exact rational here and a `long double` the same one: what the
results rest on is which samples a value is computed from, not how it is rounded. -/
namespace SystemMonitor.Process

inductive LsmProcessPriority where
  | high | aboveNormal | normal | belowNormal | low
  deriving DecidableEq

def priorityFromNice (niceValue : Int) : LsmProcessPriority :=
  if niceValue ≤ -10 then .high
  else if niceValue < 0 then .aboveNormal
  else if niceValue = 0 then .normal
  else if niceValue ≤ 10 then .belowNormal
  else .low

/-- The optional fields a scan collects. -/
structure ScanFlags where
  executable : Bool := false
  handleCount : Bool := false
  gpu : Bool := false
  cgroup : Bool := false
  technical : Bool := false
  deriving DecidableEq

/-- Whether any bit is set. -/
def ScanFlags.any (f : ScanFlags) : Bool := f.executable || f.handleCount || f.gpu || f.cgroup || f.technical

/-- What the advanced views show. -/
structure TechnicalInfo where
  waitingChannel : Chars 64 := .empty
  securityContext : Chars 256 := .empty
  unit : Chars 128 := .empty
  session : Chars 64 := .empty
  seat : Chars 64 := .empty
  owner : Chars 64 := .empty
  writableMemoryBytes : Nat := 0
  writableMemoryAvailable : Bool := false
  deriving DecidableEq

structure GpuInfo where
  gpuPercent : ℚ := 0
  gpuMemoryBytes : Nat := 0
  gpuEngine : Chars 256 := .empty
  gpuAvailable : Bool := false
  gpuMemoryAvailable : Bool := false
  deriving DecidableEq

/-- One row. A count with its availability flag is an option; the account
identity is the UID the backend prints as `uid:N`, or nothing when the status
record gave none. -/
structure LsmProcessInfo where
  pid : Nat
  ppid : Nat := 0
  account : Option Nat := none
  instanceId : Nat := 0
  ownedByCurrentUser : Bool := false
  user : Chars 64 := .empty
  name : Chars 128 := .empty
  state : Char := '?'
  executable : Chars 512 := .empty
  command : Chars 1024 := .empty
  cgroupPath : Chars 512 := .empty
  cgroupV2 : Bool := false
  technical : TechnicalInfo := {}
  threads : Nat := 0
  handleCount : Option Nat := none
  priority : LsmProcessPriority := .high
  niceValue : Int := 0
  efficiencyMode : Bool := false
  cpuPercent : ℚ := 0
  memoryPercent : ℚ := 0
  readBytesPerSec : ℚ := 0
  writeBytesPerSec : ℚ := 0
  ioRateAvailable : Bool := false
  rssBytes : Nat := 0
  virtualMemoryBytes : Option Nat := none
  sharedMemoryBytes : Option Nat := none
  readBytes : Nat := 0
  writeBytes : Nat := 0
  ioTotalsAvailable : Bool := false
  contextSwitches : Nat := 0
  pageFaults : Nat := 0
  cpuTimeNanoseconds : Nat := 0
  cpuTimeSeconds : Nat := 0
  startTimeEpoch : Int := 0
  elapsedSeconds : Nat := 0
  gpu : GpuInfo := {}
  deriving DecidableEq

/-! ### Graphics counters -/

structure LsmProcessGpuEngine where
  name : Chars 256
  timeNs : Nat
  capacity : Nat
  deriving DecidableEq

structure LsmProcessGpuSnapshot where
  engines : List LsmProcessGpuEngine := []
  memoryBytes : Nat := 0
  engineCountersAvailable : Bool := false
  memoryAvailable : Bool := false
  deriving DecidableEq

def findEngine (snapshot : LsmProcessGpuSnapshot) (name : Chars 256) : Option LsmProcessGpuEngine :=
  snapshot.engines.find? fun e => e.name = name

/-- A counter a driver lets fall briefly is held at its previous value. -/
def lsmProcessGpuNormalise (current previous : LsmProcessGpuSnapshot) : LsmProcessGpuSnapshot :=
  {current with engines := current.engines.map fun engine =>
    match findEngine previous engine.name with
    | some old => if engine.timeNs < old.timeNs then {engine with timeNs := old.timeNs} else engine
    | none => engine}

/-- The text after the last colon: `strrchr(name, ':') + 1`, or the whole name. -/
def displayName (name : Text) : Text :=
  (name.reverse.takeWhile (· != 58)).reverse

theorem mem_of_mem_displayName {name : Text} {b : UInt8} (h : b ∈ displayName name) : b ∈ name := by
  unfold displayName at h
  exact List.mem_reverse.mp (List.takeWhile_subset _ (List.mem_reverse.mp h))

/-- The engine loop: the greatest busy share so far, with its engine. -/
def peakEngine (previous : LsmProcessGpuSnapshot) (intervalNs : ℚ) (peak : Option (ℚ × Chars 256))
    (engine : LsmProcessGpuEngine) : Option (ℚ × Chars 256) :=
  match findEngine previous engine.name with
  | none => peak
  | some old =>
    if engine.timeNs < old.timeNs then peak
    else
      let capacity := if 0 < engine.capacity then engine.capacity else 1
      let value : ℚ := ((engine.timeNs - old.timeNs : Nat) : ℚ) * 100 / (intervalNs * capacity)
      match peak with
      | none => some (value, engine.name)
      | some (best, _) => if best < value then some (value, engine.name) else peak

/-- `none`: no matching counter, and the outputs are left at zero and empty. -/
def lsmProcessGpuCalculateEngine (current previous : LsmProcessGpuSnapshot) (elapsedSeconds : ℚ) :
    Option (ℚ × Chars 256) :=
  if elapsedSeconds ≤ 0 || !current.engineCountersAvailable || !previous.engineCountersAvailable then none
  else
    (current.engines.foldl (peakEngine previous (elapsedSeconds * 1000000000)) none).map fun (value, engine) =>
      (min 100 (max 0 value),
        .copyString (displayName engine.text) fun h => engine.nulFree (mem_of_mem_displayName h))

end SystemMonitor.Process
