import Mathlib.Data.List.Sort
import SystemMonitor.Process.Model
import SystemMonitor.Lib.SortedVector
import SystemMonitor.Lib.Machine

/-! `lsm_process_scan` on Windows.

What a scan can observe is its input: the two system clocks, the snapshot's
entries in order, what each query of an opened process returns, and which
reservations fail. The retained samples are a vector sorted by PID into which new
processes are inserted during the scan; a backup of it is copied back when the
scan is abandoned. A failed clock reading is an ordinary zero, as in the source. -/
namespace SystemMonitor.WindowsScan
open Lib
open Process (LsmProcessPriority ScanFlags)

/-! ### Accounts -/

/-- The account fields of a row and of a sample. -/
structure Account where
  identity : Chars 128 := .empty
  user : Chars 64 := .empty
  ownedByCurrentUser : Bool := false
  deriving DecidableEq

structure LsmWindowsAccountCacheEntry where
  accountIdentity : Chars 128
  user : Chars 64
  deriving DecidableEq

/-- What the access token of a process yields, when its SID can be copied. -/
structure AccountReading where
  /-- `EqualSid` with the current user. -/
  ownedByCurrentUser : Bool
  /-- `ConvertSidToStringSidA`. -/
  sidText : Option {t : Text // 0 ∉ t}
  /-- `LookupAccountSidA`. -/
  account : Option (Chars 256)
  cacheReserved : Bool

def sidPrefix : Text := ascii "sid:"

/-- The prefixed SID, when it fits the field. -/
def sidIdentity (sid : {t : Text // 0 ∉ t}) : Option (Chars 128) :=
  if fits : (sidPrefix ++ sid.1).length ≤ 127 then
    some ⟨sidPrefix ++ sid.1, fits, fun h => (List.mem_append.mp h).elim (by decide) sid.2⟩
  else none

def cachedAccountName (accounts : List LsmWindowsAccountCacheEntry) (identity : Chars 128) : Option (Chars 64) :=
  if identity = .empty then none
  else (accounts.find? fun entry => entry.accountIdentity = identity).map (·.user)

def cacheAccountName (accounts : List LsmWindowsAccountCacheEntry) (identity : Chars 128) (user : Chars 64)
    (reserved : Bool) : List LsmWindowsAccountCacheEntry :=
  if identity = .empty ∨ user = .empty ∨ reserved = false then accounts else accounts ++ [⟨identity, user⟩]

structure AccountResult where
  account : Account
  accounts : List LsmWindowsAccountCacheEntry
  available : Bool

def populateProcessAccount (accounts : List LsmWindowsAccountCacheEntry) (reading : Option AccountReading)
    (account : Account) : AccountResult :=
  match reading with
  | none => ⟨account, accounts, false⟩
  | some reading =>
    let owned := {account with ownedByCurrentUser := reading.ownedByCurrentUser}
    match reading.sidText.bind sidIdentity with
    | none => ⟨owned, accounts, false⟩
    | some identity =>
      match cachedAccountName accounts identity with
      | some user => ⟨{owned with identity, user}, accounts, true⟩
      | none =>
        match reading.account with
        | none => ⟨{owned with identity}, accounts, true⟩
        | some name =>
          let user : Chars 64 := .copyString name.text name.nulFree
          ⟨{owned with identity, user}, cacheAccountName accounts identity user reading.cacheReserved, true⟩

/-! ### Readings of one process -/

/-- `GetProcessTimes`, each `FILETIME` as the number it encodes. -/
structure ProcessTimes where
  creation : Nat
  kernel : Nat
  user : Nat
  deriving DecidableEq

inductive PriorityClass where
  | realtime | high | aboveNormal | normal | belowNormal | idle
  /-- A value the switch has no case for. -/
  | other
  deriving DecidableEq

def priorityFromClass : PriorityClass → LsmProcessPriority
  | .realtime | .high => .high
  | .aboveNormal => .aboveNormal
  | .belowNormal => .belowNormal
  | .idle => .low
  | .normal | .other => .normal

structure MemoryCounters where
  workingSetSize : Nat
  pageFaultCount : Nat

structure IoCounters where
  readTransferCount : Nat
  writeTransferCount : Nat

/-- What the queries of an opened process return. -/
structure ProcessReads where
  times : Option ProcessTimes
  memory : Option MemoryCounters
  io : Option IoCounters
  /-- `none`: the call returned zero. -/
  priorityClass : Option PriorityClass
  account : Option AccountReading
  executable : Option (Chars 512)
  handleCount : Option Nat

/-- `PROCESSENTRY32W`, what can be read of the process, and the reservations of its turn. -/
structure Entry where
  pid : Nat
  ppid : Nat
  threads : Nat
  /-- The converted name, empty when the conversion fails. -/
  name : Chars 128
  rowReserved : Bool
  /-- `none`: the process cannot be opened. -/
  process : Option ProcessReads
  sampleReserved : Bool

/-! ### Clocks -/

def ticksPerSecond : Nat := 10000000
def windowsToUnix : Nat := 11644473600

structure CpuTime where
  cpuTime : Nat := 0
  instanceId : Nat := 0
  startTimeEpoch : Int := 0

def ProcessTimes.total (lib : Arithmetic) (times : ProcessTimes) : Nat := lib.u64AddSaturating times.kernel times.user

/-- On failure the time is zero and the outputs keep their zeros. -/
def processCpuTime100ns (lib : Arithmetic) (times : Option ProcessTimes) : CpuTime :=
  match times with
  | none => {}
  | some times =>
    { cpuTime := times.total lib
      instanceId := times.creation
      startTimeEpoch := ((times.creation / ticksPerSecond - windowsToUnix : Nat) : Int) }

structure SystemTimes where
  kernel : Nat
  user : Nat
  deriving DecidableEq

def SystemTimes.total (lib : Arithmetic) (times : SystemTimes) : Nat := lib.u64AddSaturating times.kernel times.user

/-- On failure the time is zero. -/
def systemCpuTime100ns (lib : Arithmetic) (times : Option SystemTimes) : Nat :=
  (times.map (SystemTimes.total lib)).getD 0

def lsmProcessCpuTotalPercent (lib : Arithmetic) (processDelta systemDelta : Nat) : ℚ :=
  lib.percentU64 processDelta systemDelta

/-! ### Samples and rows -/

structure LsmWindowsProcessSample where
  pid : Nat
  instanceId : Nat := 0
  cpuTime100ns : Nat := 0
  readBytes : Nat := 0
  writeBytes : Nat := 0
  ioAvailable : Bool := false
  sampledAtMs : Nat := 0
  generation : Nat := 0
  account : Account := {}
  accountAvailable : Bool := false
  deriving DecidableEq

structure LsmProcessBackend where
  samples : List LsmWindowsProcessSample := []
  accounts : List LsmWindowsAccountCacheEntry := []
  generation : Nat := 0
  previousSystemCpu100ns : Nat
  totalMemoryBytes : Nat
  deriving DecidableEq

theorem nul_notMem_unknown : 0 ∉ ascii "Unknown" := by decide

def unknownState : Chars 32 := .copyString (ascii "Unknown") nul_notMem_unknown

/-- The fields of a row that this backend fills; it leaves the others zero. -/
structure LsmProcessInfo where
  pid : Nat
  ppid : Nat
  account : Account := {}
  instanceId : Nat := 0
  name : Chars 128
  state : Chars 32 := unknownState
  executable : Chars 512 := .empty
  threads : Nat
  handleCount : Option Nat := none
  priority : LsmProcessPriority := .normal
  cpuPercent : ℚ := 0
  memoryPercent : ℚ := 0
  readBytesPerSec : ℚ := 0
  writeBytesPerSec : ℚ := 0
  ioRateAvailable : Bool := false
  rssBytes : Nat := 0
  readBytes : Nat := 0
  writeBytes : Nat := 0
  ioTotalsAvailable : Bool := false
  pageFaults : Nat := 0
  cpuTimeNanoseconds : Nat := 0
  cpuTimeSeconds : Nat := 0
  startTimeEpoch : Int := 0
  elapsedSeconds : Nat := 0
  deriving DecidableEq

def processSampleLowerBound (samples : List LsmWindowsProcessSample) (pid : Nat) : Nat :=
  lowerBound (fun i => (samples[i]?.map (·.pid)).getD 0) pid samples.length 0 samples.length

/-- The vector with a sample of the PID, and its index; `none` when it cannot grow. -/
def findOrCreateSample (samples : List LsmWindowsProcessSample) (pid : Nat) (reserved : Bool) :
    Option (List LsmWindowsProcessSample × Nat) :=
  let position := processSampleLowerBound samples pid
  if samples[position]?.map (·.pid) = some pid then some (samples, position)
  else if reserved then some (samples.take position ++ {pid} :: samples.drop position, position)
  else none

def pruneProcessSamples (samples : List LsmWindowsProcessSample) (generation : Nat) : List LsmWindowsProcessSample :=
  samples.filter fun sample => sample.generation = generation

/-! ### One process -/

/-- What stays fixed during a scan. -/
structure ScanContext where
  flags : ScanFlags
  systemDelta : Nat
  nowMs : Nat
  nowEpoch : Nat
  generation : Nat
  totalMemoryBytes : Nat

/-- The row as the snapshot entry fills it. -/
def Entry.row (entry : Entry) : LsmProcessInfo :=
  {pid := entry.pid, ppid := entry.ppid, name := entry.name, threads := entry.threads}

def sameInstance (sample : LsmWindowsProcessSample) (instanceId : Nat) : Bool :=
  sample.instanceId != 0 && sample.instanceId == instanceId

/-- The account fields after a visit. -/
structure AccountVisit where
  row : Account
  sample : Account
  available : Bool
  accounts : List LsmWindowsAccountCacheEntry

/-- A retained account is shown again, and its name looked up while it has none. -/
def visitAccount (accounts : List LsmWindowsAccountCacheEntry) (reading : Option AccountReading)
    (sample : LsmWindowsProcessSample) (same : Bool) : AccountVisit :=
  if same && sample.accountAvailable then
    if sample.account.user = .empty then
      let result := populateProcessAccount accounts reading sample.account
      ⟨result.account,
        if result.available ∧ result.account.user ≠ .empty then {sample.account with user := result.account.user}
          else sample.account,
        true, result.accounts⟩
    else ⟨sample.account, sample.account, true, accounts⟩
  else
    let result := populateProcessAccount accounts reading {}
    ⟨result.account, if result.available then result.account else {},
      result.available && result.account.identity != .empty, result.accounts⟩

/-- The share of the system delta, when the sample is of this instance. -/
def cpuShare (lib : Arithmetic) (ctx : ScanContext) (sample : LsmWindowsProcessSample) (clock : CpuTime) : ℚ :=
  if sameInstance sample clock.instanceId ∧ sample.cpuTime100ns ≤ clock.cpuTime
  then lsmProcessCpuTotalPercent lib (clock.cpuTime - sample.cpuTime100ns) ctx.systemDelta else 0

structure IoRates where
  readBytesPerSec : ℚ := 0
  writeBytesPerSec : ℚ := 0
  available : Bool := false

def ioRates (lib : Arithmetic) (ctx : ScanContext) (sample : LsmWindowsProcessSample) (same : Bool)
    (io : Option IoCounters) : IoRates :=
  match io with
  | none => {}
  | some io =>
    if same ∧ sample.ioAvailable ∧ sample.sampledAtMs < ctx.nowMs then
      let elapsed : ℚ := ((ctx.nowMs - sample.sampledAtMs : Nat) : ℚ) / 1000
      let read := lib.u64CounterRate io.readTransferCount sample.readBytes 1 elapsed
      let write := lib.u64CounterRate io.writeTransferCount sample.writeBytes 1 elapsed
      ⟨read.getD 0, write.getD 0, read.isSome && write.isSome⟩
    else {}

structure Visit where
  row : LsmProcessInfo
  sample : LsmWindowsProcessSample
  accounts : List LsmWindowsAccountCacheEntry

/-- `populate_process_metrics` once its sample was found or created. -/
def populateProcessMetrics (lib : Arithmetic) (ctx : ScanContext) (reads : ProcessReads) (row : LsmProcessInfo)
    (sample : LsmWindowsProcessSample) (accounts : List LsmWindowsAccountCacheEntry) : Visit :=
  let clock := processCpuTime100ns lib reads.times
  let same := sameInstance sample clock.instanceId
  let account := visitAccount accounts reads.account sample same
  let rates := ioRates lib ctx sample same reads.io
  { row := {row with
      account := account.row
      instanceId := clock.instanceId
      startTimeEpoch := clock.startTimeEpoch
      cpuTimeSeconds := clock.cpuTime / ticksPerSecond
      cpuTimeNanoseconds := min uint64Max (clock.cpuTime * 100)
      elapsedSeconds := if 0 < clock.startTimeEpoch then ctx.nowEpoch - clock.startTimeEpoch.toNat else 0
      rssBytes := (reads.memory.map (·.workingSetSize)).getD 0
      memoryPercent := (reads.memory.map fun memory =>
        lib.percentU64 memory.workingSetSize ctx.totalMemoryBytes).getD 0
      pageFaults := (reads.memory.map (·.pageFaultCount)).getD 0
      readBytes := (reads.io.map (·.readTransferCount)).getD 0
      writeBytes := (reads.io.map (·.writeTransferCount)).getD 0
      ioTotalsAvailable := reads.io.isSome
      priority := (reads.priorityClass.map priorityFromClass).getD row.priority
      executable := if ctx.flags.executable then reads.executable.getD .empty else row.executable
      handleCount := if ctx.flags.handleCount then reads.handleCount else row.handleCount
      cpuPercent := cpuShare lib ctx sample clock
      readBytesPerSec := rates.readBytesPerSec
      writeBytesPerSec := rates.writeBytesPerSec
      ioRateAvailable := rates.available}
    sample :=
      { pid := sample.pid
        instanceId := clock.instanceId
        cpuTime100ns := clock.cpuTime
        readBytes := (reads.io.map (·.readTransferCount)).getD sample.readBytes
        writeBytes := (reads.io.map (·.writeTransferCount)).getD sample.writeBytes
        ioAvailable := reads.io.isSome
        sampledAtMs := ctx.nowMs
        generation := ctx.generation
        account := account.sample
        accountAvailable := account.available }
    accounts := account.accounts }

/-! ### The scan -/

/-- Everything one call observes. -/
structure ScanInput where
  flags : ScanFlags := {}
  systemTimes : Option SystemTimes
  /-- `GetTickCount64`. -/
  tickCount : Nat
  /-- `GetSystemTimeAsFileTime`. -/
  systemTime : Nat
  /-- The backup holds the samples, or could be grown to. -/
  backupReserved : Bool := true
  snapshot : Bool := true
  entries : List Entry
  /-- The enumeration ended with an error other than the end of the snapshot. -/
  enumerationError : Bool := false
  /-- The one-row allocation of an empty result. -/
  emptyReserved : Bool := true

structure ScanState where
  samples : List LsmWindowsProcessSample
  accounts : List LsmWindowsAccountCacheEntry
  processes : List LsmProcessInfo := []

/-- One turn of the loop; `none` when a reservation fails. -/
def scanEntry (lib : Arithmetic) (ctx : ScanContext) (s : ScanState) (entry : Entry) : Option ScanState :=
  if entry.rowReserved = false then none
  else
    match entry.process with
    | none => some {s with processes := s.processes ++ [entry.row]}
    | some reads =>
      match findOrCreateSample s.samples entry.pid entry.sampleReserved with
      | none => none
      | some (samples, position) =>
        let sample := samples[position]?.getD {pid := entry.pid}
        let visit := populateProcessMetrics lib ctx reads entry.row sample s.accounts
        some ⟨samples.set position visit.sample, visit.accounts, s.processes ++ [visit.row]⟩

/-- The loop, with whether it was left by a failed reservation. The account cache
of an abandoned scan is kept: it is not part of the backup. -/
def scanEntries (lib : Arithmetic) (ctx : ScanContext) : ScanState → List Entry → ScanState × Bool
  | s, [] => (s, false)
  | s, entry :: rest =>
    match scanEntry lib ctx s entry with
    | none => (s, true)
    | some t => scanEntries lib ctx t rest

/-- The generation of the scan: it wraps past zero. -/
def nextGeneration (generation : Nat) : Nat := if (generation + 1) % 2 ^ 32 = 0 then 1 else (generation + 1) % 2 ^ 32

/-- A wrap takes every sample out of the generations in use. -/
def scanSamples (backend : LsmProcessBackend) : List LsmWindowsProcessSample :=
  if (backend.generation + 1) % 2 ^ 32 = 0
  then backend.samples.map fun sample => {sample with generation := 0} else backend.samples

def scanContext (lib : Arithmetic) (backend : LsmProcessBackend) (input : ScanInput) : ScanContext where
  flags := input.flags
  systemDelta := (lib.u64CounterDelta (systemCpuTime100ns lib input.systemTimes)
    backend.previousSystemCpu100ns).getD 0
  nowMs := input.tickCount
  nowEpoch := input.systemTime / ticksPerSecond - windowsToUnix
  generation := nextGeneration backend.generation
  totalMemoryBytes := backend.totalMemoryBytes

/-- `compare_process_identity` is not positive. -/
def compareProcessIdentity (a b : LsmProcessInfo) : Prop :=
  a.pid < b.pid ∨ (a.pid = b.pid ∧ a.instanceId ≤ b.instanceId)

instance : DecidableRel compareProcessIdentity := fun a b =>
  inferInstanceAs (Decidable (a.pid < b.pid ∨ (a.pid = b.pid ∧ a.instanceId ≤ b.instanceId)))

def scanLoop (lib : Arithmetic) (backend : LsmProcessBackend) (input : ScanInput) : ScanState × Bool :=
  scanEntries lib (scanContext lib backend input) ⟨scanSamples backend, backend.accounts, []⟩ input.entries

/-- The tail of an abandoned scan: the backup is copied back. -/
def scanRestore (backend : LsmProcessBackend) (s : ScanState) : LsmProcessBackend :=
  {backend with accounts := s.accounts}

def scanCommit (lib : Arithmetic) (backend : LsmProcessBackend) (input : ScanInput) (s : ScanState) :
    LsmProcessBackend :=
  {backend with
    samples := pruneProcessSamples s.samples (nextGeneration backend.generation)
    accounts := s.accounts
    generation := nextGeneration backend.generation
    previousSystemCpu100ns := systemCpuTime100ns lib input.systemTimes}

/-- The sorted rows; `none` for a call that returns zero and a null array. -/
def scanOutput (input : ScanInput) (processes : List LsmProcessInfo) : Option (List LsmProcessInfo) :=
  if processes = [] then if input.emptyReserved then some [] else none
  else some (processes.insertionSort compareProcessIdentity)

def lsmProcessScan (lib : Arithmetic) (backend : LsmProcessBackend) (input : ScanInput) :
    LsmProcessBackend × Option (List LsmProcessInfo) :=
  if input.backupReserved = false then (backend, none)
  else if input.snapshot = false then (backend, none)
  else
    let scanned := scanLoop lib backend input
    if scanned.2 || input.enumerationError then (scanRestore backend scanned.1, none)
    else (scanCommit lib backend input scanned.1, scanOutput input scanned.1.processes)

/-! ### Histories of scans -/

def lsmProcessBackendCreate (lib : Arithmetic) (totalMemoryBytes : Nat) (systemTimes : Option SystemTimes) :
    LsmProcessBackend where
  previousSystemCpu100ns := systemCpuTime100ns lib systemTimes
  totalMemoryBytes

/-- A backend with what its last scan that returned rows observed. -/
structure Scanned where
  backend : LsmProcessBackend
  last : Option ScanInput := none

def Scanned.scan (lib : Arithmetic) (s : Scanned) (input : ScanInput) : Scanned :=
  let outcome := lsmProcessScan lib s.backend input
  ⟨outcome.1, if outcome.2.isSome then some input else s.last⟩

/-- One scan after the other. -/
def scans (lib : Arithmetic) : Machine Scanned ScanInput where
  step s input := some (s.scan lib input)

end SystemMonitor.WindowsScan
