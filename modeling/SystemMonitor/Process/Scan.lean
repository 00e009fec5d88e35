import SystemMonitor.Process.Samples

/-! `lsm_process_scan` on Linux.

What a scan can observe is its input: the directory entries in the order
`readdir` yields them, what each file under `/proc/PID` holds when it is read,
and which allocations and directory calls fail. A process neither exits nor is
replaced while its own entry is read, so one visit is one `ProcReads`. -/
namespace SystemMonitor.Process
open Lib

/-! ### What a visit reads -/

structure LinuxProcessStat where
  name : Chars 128
  state : Char
  ppid : Nat
  cpuTicks : Nat
  startTicks : Nat
  niceValue : Int
  threads : Nat
  pageFaults : Nat

/-- `/proc/PID/status`, with the account the UID resolves to. -/
structure LinuxProcessStatus where
  uid : Option Nat
  user : Chars 64
  rssBytes : Nat
  virtualMemoryBytes : Option Nat
  sharedMemoryBytes : Option Nat
  threads : Option Nat
  contextSwitches : Nat

structure ProcReads where
  /-- `none`: unreadable or malformed, and the entry is skipped. -/
  stat : Option LinuxProcessStat
  status : Option LinuxProcessStatus
  /-- The bytes of a non-empty `cmdline`, at most as many as the buffer takes. -/
  cmdline : Option {bytes : List UInt8 // bytes.length < 1024}
  /-- The target of `exe`, empty when `readlink` fails. -/
  executable : Chars 512
  readBytes : Option Nat
  writeBytes : Option Nat
  cgroupPath : Chars 512
  cgroupV2 : Bool
  descriptors : Option Nat
  /-- The technical fields, which also depend on the row's cgroup and user. -/
  technical : Chars 512 → Chars 64 → TechnicalInfo
  gpu : Option LsmProcessGpuSnapshot
  /-- Whether the record can be read again before and after the enrichment. -/
  rereadBefore : Bool
  rereadAfter : Bool

/-- Which reservations and `strdup`s succeed during a visit. -/
structure Allocations where
  row : Bool
  sample : Bool
  command : Bool
  executable : Bool
  cgroup : Bool

/-! ### Collectors -/

/-- Control bytes, and the NULs between arguments, become spaces. -/
def commandByte (b : UInt8) : UInt8 := if b < 32 ∨ b = 127 then 32 else b

def trimSpaces (t : Text) : Text := (t.reverse.dropWhile (· == 32)).reverse

theorem commandByte_ne_zero (b : UInt8) : commandByte b ≠ 0 := by
  unfold commandByte
  split
  · decide
  · rename_i h
    intro hb
    exact h (Or.inl (by rw [hb]; decide))

theorem trimSpaces_sublist (t : Text) : (trimSpaces t).Sublist t := by
  unfold trimSpaces
  have := (List.dropWhile_sublist (l := t.reverse) (fun b => b == 32)).reverse
  rwa [List.reverse_reverse] at this

/-- The command line, or the bracketed name of a process without one. -/
def readProcessCommand (name : Chars 128) : Option {bytes : List UInt8 // bytes.length < 1024} → Chars 1024
  | none => ⟨91 :: (name.text ++ [93]), by have := name.fits; simp; omega, by have := name.nulFree; simp [this]⟩
  | some ⟨bytes, fits⟩ =>
    ⟨trimSpaces (bytes.map commandByte),
      by have := (trimSpaces_sublist (bytes.map commandByte)).length_le; simp at this; omega,
      fun h => by
        obtain ⟨b, _, hb⟩ := List.mem_map.mp ((trimSpaces_sublist _).subset h)
        exact commandByte_ne_zero b hb⟩

/-- `process_identity_pid` on a live process: instance zero is never confirmed. -/
def identityConfirmed (instanceId : Nat) (reread : Bool) : Bool := instanceId != 0 && reread

/-- The fields the flags ask for; the technical ones need a cgroup path. -/
def enrichCollect (reads : ProcReads) (process : LsmProcessInfo) (flags : ScanFlags) : LsmProcessInfo :=
  let cgroupRead := flags.cgroup || (flags.technical && process.cgroupPath = .empty)
  let cgroupPath := if cgroupRead then reads.cgroupPath else process.cgroupPath
  {process with
    executable := if flags.executable then reads.executable else process.executable
    handleCount := if flags.handleCount then reads.descriptors else process.handleCount
    cgroupPath
    cgroupV2 := if cgroupRead then reads.cgroupV2 else process.cgroupV2
    technical := if flags.technical then reads.technical cgroupPath process.user else process.technical}

/-- The same fields, cleared when the identity was lost meanwhile. -/
def enrichClear (process : LsmProcessInfo) (flags : ScanFlags) : LsmProcessInfo :=
  {process with
    executable := if flags.executable then .empty else process.executable
    handleCount := if flags.handleCount then none else process.handleCount
    cgroupPath := if flags.cgroup then .empty else process.cgroupPath
    cgroupV2 := if flags.cgroup then false else process.cgroupV2
    technical := if flags.technical then {} else process.technical}

def lsmProcessEnrich (reads : ProcReads) (process : LsmProcessInfo) (flags : ScanFlags) : LsmProcessInfo × Bool :=
  if !identityConfirmed process.instanceId reads.rereadBefore then (process, false)
  else
    let collected := enrichCollect reads process flags
    if identityConfirmed process.instanceId reads.rereadAfter then (collected, true)
    else (enrichClear collected flags, false)

def lsmProcessCpuTotalPercent (lib : Arithmetic) (processDelta systemDelta : Nat) : ℚ :=
  lib.percentU64 processDelta systemDelta

/-! ### One visit -/

/-- What stays fixed during a scan. -/
structure ScanContext where
  flags : ScanFlags
  sampledAt : ℚ
  uptime : ℚ
  totalDelta : Nat
  generation : Nat
  totalMemoryBytes : Nat
  ticksPerSecond : Int
  bootTimeEpoch : Int
  currentUid : Nat

/-- The row as the stat and status records fill it. -/
def baseRow (lib : Arithmetic) (ctx : ScanContext) (pid : Nat) (stat : LinuxProcessStat) (reads : ProcReads) :
    LsmProcessInfo :=
  let started : ℚ := (stat.startTicks : ℚ) / ctx.ticksPerSecond
  let timed : Bool := 0 < ctx.ticksPerSecond
  let rss := (reads.status.map (·.rssBytes)).getD 0
  { pid
    ppid := stat.ppid
    instanceId := stat.startTicks
    name := stat.name
    state := stat.state
    priority := priorityFromNice stat.niceValue
    niceValue := stat.niceValue
    efficiencyMode := 10 ≤ stat.niceValue
    pageFaults := stat.pageFaults
    account := reads.status.bind (·.uid)
    ownedByCurrentUser := reads.status.bind (·.uid) = some ctx.currentUid
    user := (reads.status.map (·.user)).getD .empty
    rssBytes := rss
    virtualMemoryBytes := reads.status.bind (·.virtualMemoryBytes)
    sharedMemoryBytes := reads.status.bind (·.sharedMemoryBytes)
    threads := (reads.status.bind (·.threads)).getD stat.threads
    contextSwitches := (reads.status.map (·.contextSwitches)).getD 0
    readBytes := reads.readBytes.getD 0
    writeBytes := reads.writeBytes.getD 0
    ioTotalsAvailable := reads.readBytes.isSome && reads.writeBytes.isSome
    memoryPercent := lib.percentU64 rss ctx.totalMemoryBytes
    cpuTimeSeconds := if timed then stat.cpuTicks / ctx.ticksPerSecond.toNat else 0
    cpuTimeNanoseconds := if timed then min uint64Max (stat.cpuTicks * 1000000000 / ctx.ticksPerSecond.toNat) else 0
    startTimeEpoch := if timed ∧ 0 < ctx.bootTimeEpoch then ctx.bootTimeEpoch + started.floor else 0
    elapsedSeconds := if timed ∧ started < ctx.uptime then (ctx.uptime - started).floor.toNat else 0 }

/-- The retained sample is of this instance. -/
def sameProcess (sample : PreviousProcessSample) (instanceId : Nat) : Bool :=
  sample.startTicks == instanceId && sample.startTicks != 0

/-- The share of the total delta, when the sample is of this instance. -/
def cpuShare (lib : Arithmetic) (ctx : ScanContext) (sample : PreviousProcessSample) (stat : LinuxProcessStat) : ℚ :=
  if sameProcess sample stat.startTicks && 0 < ctx.totalDelta then
    match lib.u64CounterDelta stat.cpuTicks sample.cpuTicks with
    | some processDelta => lsmProcessCpuTotalPercent lib processDelta ctx.totalDelta
    | none => 0
  else 0

structure IoRates where
  readBytesPerSec : ℚ := 0
  writeBytesPerSec : ℚ := 0
  available : Bool := false
  deriving DecidableEq

def ioRates (lib : Arithmetic) (ctx : ScanContext) (sample : PreviousProcessSample) (row : LsmProcessInfo) : IoRates :=
  let interval := ctx.sampledAt - sample.sampledAt
  if sameProcess sample row.instanceId ∧ row.ioTotalsAvailable ∧ sample.ioAvailable ∧
      0 < sample.sampledAt ∧ 0 < interval then
    let read := lib.u64CounterRate row.readBytes sample.readBytes 1 interval
    let write := lib.u64CounterRate row.writeBytes sample.writeBytes 1 interval
    ⟨read.getD 0, write.getD 0, read.isSome && write.isSome⟩
  else {}

/-- Whether the retained GPU values may not be shown any more. -/
def gpuDue (ctx : ScanContext) (sample : PreviousProcessSample) (same : Bool) : Bool :=
  let interval := ctx.sampledAt - sample.gpu.sampledAt
  let refresh := if same && !sample.gpu.snapshotValid
    then processGpuNegativeRefreshSeconds else processGpuRefreshSeconds
  !same || decide (sample.gpu.sampledAt ≤ 0) || decide (interval < 0) || decide (refresh ≤ interval)

/-- What a collection shows: its memory, and the busiest engine if there was a baseline. -/
def gpuInfo (collected : LsmProcessGpuSnapshot) (busy : Option (ℚ × Chars 256)) : GpuInfo :=
  { gpuPercent := (busy.map Prod.fst).getD 0
    gpuEngine := (busy.map Prod.snd).getD .empty
    gpuAvailable := busy.isSome
    gpuMemoryBytes := if collected.memoryAvailable then collected.memoryBytes else 0
    gpuMemoryAvailable := collected.memoryAvailable }

/-- A due collection: memory from the new counters, utilisation against the
retained ones when they are of the same instance. -/
def collectGpu (ctx : ScanContext) (sample : PreviousProcessSample) (same : Bool)
    (read : Option LsmProcessGpuSnapshot) : RetainedGpu :=
  match read with
  | none => {sample.gpu with info := {}, snapshotValid := false, sampledAt := ctx.sampledAt}
  | some collected =>
    let baseline := same && sample.gpu.snapshotValid
    let gpu := if baseline then lsmProcessGpuNormalise collected sample.gpu.gpu else collected
    let busy := if baseline
      then lsmProcessGpuCalculateEngine gpu sample.gpu.gpu (ctx.sampledAt - sample.gpu.sampledAt) else none
    {gpu, info := gpuInfo collected busy, snapshotValid := true, sampledAt := ctx.sampledAt}

/-- The GPU state after a visit; what the row shows is its `info`. -/
def refreshGpu (ctx : ScanContext) (sample : PreviousProcessSample) (instanceId : Nat)
    (read : Option LsmProcessGpuSnapshot) : RetainedGpu :=
  if gpuDue ctx sample (sameProcess sample instanceId)
  then collectGpu ctx sample (sameProcess sample instanceId) read else sample.gpu

/-- The retained cgroup path, when it is asked for and may be served. -/
def cgroupServed (ctx : ScanContext) (sample : PreviousProcessSample) (instanceId : Nat) : Option (Chars 512) :=
  if ctx.flags.cgroup then sample.cgroup.serve (sameProcess sample instanceId) ctx.sampledAt else none

/-- What is left to enrich: the executable has its own path, a served cgroup is done. -/
def enrichFlags (ctx : ScanContext) (sample : PreviousProcessSample) (instanceId : Nat) : ScanFlags :=
  {ctx.flags with
    executable := false
    cgroup := ctx.flags.cgroup && (cgroupServed ctx sample instanceId).isNone}

def serveCgroup (ctx : ScanContext) (sample : PreviousProcessSample) (row : LsmProcessInfo) : LsmProcessInfo :=
  {row with
    cgroupPath := (cgroupServed ctx sample row.instanceId).getD row.cgroupPath
    cgroupV2 := if (cgroupServed ctx sample row.instanceId).isSome then sample.cgroupV2 else row.cgroupV2}

def enrichRow (ctx : ScanContext) (reads : ProcReads) (sample : PreviousProcessSample) (row : LsmProcessInfo) :
    LsmProcessInfo :=
  let flags := enrichFlags ctx sample row.instanceId
  if flags.any then (lsmProcessEnrich reads (serveCgroup ctx sample row) flags).1 else serveCgroup ctx sample row

/-- The cgroup fields of the sample: what was enriched is stored. -/
def storeCgroup (ctx : ScanContext) (alloc : Allocations) (sample : PreviousProcessSample) (row : LsmProcessInfo)
    (heap : Heap) : RetainedText 512 × Bool × Heap :=
  if (enrichFlags ctx sample row.instanceId).cgroup then
    let stored := sample.cgroup.store alloc.cgroup ctx.sampledAt row.cgroupPath heap
    (stored.1, if alloc.cgroup then row.cgroupV2 else sample.cgroupV2, stored.2)
  else (sample.cgroup, sample.cgroupV2, heap)

def visitCommand (ctx : ScanContext) (stat : LinuxProcessStat) (reads : ProcReads) (alloc : Allocations)
    (sample : PreviousProcessSample) (heap : Heap) : Chars 1024 × RetainedText 1024 × Heap :=
  sample.command.refresh (sameProcess sample stat.startTicks) ctx.sampledAt
    (readProcessCommand stat.name reads.cmdline) alloc.command heap

def visitExecutable (ctx : ScanContext) (stat : LinuxProcessStat) (reads : ProcReads) (alloc : Allocations)
    (sample : PreviousProcessSample) (heap : Heap) : Chars 512 × RetainedText 512 × Heap :=
  if ctx.flags.executable
  then sample.executable.refresh (sameProcess sample stat.startTicks) ctx.sampledAt reads.executable
    alloc.executable heap
  else (.empty, sample.executable, heap)

def visitGpu (ctx : ScanContext) (stat : LinuxProcessStat) (reads : ProcReads) (sample : PreviousProcessSample) :
    RetainedGpu :=
  if ctx.flags.gpu then refreshGpu ctx sample stat.startTicks reads.gpu else sample.gpu

structure Visit where
  row : LsmProcessInfo
  sample : PreviousProcessSample
  heap : Heap

/-- The body of the scan loop for a process whose sample was found or created. -/
def visit (lib : Arithmetic) (ctx : ScanContext) (pid : Nat) (stat : LinuxProcessStat) (reads : ProcReads)
    (alloc : Allocations) (sample : PreviousProcessSample) (heap : Heap) : Visit :=
  let base := baseRow lib ctx pid stat reads
  let command := visitCommand ctx stat reads alloc sample heap
  let executable := visitExecutable ctx stat reads alloc sample command.2.2
  let row := enrichRow ctx reads sample {base with command := command.1, executable := executable.1}
  let cgroup := storeCgroup ctx alloc sample row executable.2.2
  let rates := ioRates lib ctx sample base
  let gpu := visitGpu ctx stat reads sample
  { row := {row with
      cpuPercent := cpuShare lib ctx sample stat
      readBytesPerSec := rates.readBytesPerSec
      writeBytesPerSec := rates.writeBytesPerSec
      ioRateAvailable := rates.available
      gpu := if ctx.flags.gpu then gpu.info else {}}
    sample :=
      { pid := sample.pid
        startTicks := stat.startTicks
        cpuTicks := stat.cpuTicks
        readBytes := if base.ioTotalsAvailable then base.readBytes else sample.readBytes
        writeBytes := if base.ioTotalsAvailable then base.writeBytes else sample.writeBytes
        ioAvailable := base.ioTotalsAvailable
        sampledAt := ctx.sampledAt
        gpu
        command := command.2.1
        executable := executable.2.1
        cgroup := cgroup.1
        cgroupV2 := cgroup.2.1
        generation := ctx.generation }
    heap := cgroup.2.2 }

/-! ### The scan -/

inductive DirEntry where
  /-- A name that is not a PID. -/
  | other
  | process (pid : Nat) (reads : ProcReads) (alloc : Allocations)

/-- Everything one call observes. -/
structure ScanInput where
  flags : ScanFlags
  /-- `/proc/stat`, when it can be read. -/
  currentTotalTicks : Option Nat
  opendir : Bool
  processesAllocated : Bool
  mutationsReserved : Bool
  uptime : ℚ
  sampledAt : ℚ
  entries : List DirEntry
  /-- Whether the enumeration ended without an error. -/
  readdir : Bool
  closedir : Bool

structure LsmProcessBackend where
  samples : List PreviousProcessSample := []
  generation : Nat := 0
  previousTotalCpuTicks : Nat := 0
  totalMemoryBytes : Nat
  ticksPerSecond : Int
  bootTimeEpoch : Int
  currentUid : Nat
  heap : Heap := {}

/-- `generation++`, skipping zero when it wraps. -/
def nextGeneration (generation : Nat) : Nat :=
  let next := (generation + 1) % 2 ^ 32
  if next = 0 then 1 else next

/-- The variables of the scan loop. -/
structure ScanState where
  samples : List PreviousProcessSample
  heap : Heap
  mutations : List PreviousProcessMutation := []
  processes : List LsmProcessInfo := []

/-- One turn of the loop; the flag is `scan_failed`. -/
def scanEntry (lib : Arithmetic) (ctx : ScanContext) (searchableCount : Nat) (s : ScanState) :
    DirEntry → ScanState × Bool
  | .other => (s, false)
  | .process pid reads alloc =>
    if !alloc.row then (s, true)
    else match reads.stat with
      | none => (s, false)
      | some stat =>
        match findOrCreateSample s.samples searchableCount pid alloc.sample with
        | none => (s, true)
        | some found =>
          let visited := visit lib ctx pid stat reads alloc found.sample s.heap
          ({ samples := found.samples.set found.index visited.sample
             heap := visited.heap
             mutations := if found.index < searchableCount
               then s.mutations ++ [(found.index, found.sample)] else s.mutations
             processes := s.processes ++ [visited.row] }, false)

/-- The loop, left at the first failure. -/
def scanEntries (lib : Arithmetic) (ctx : ScanContext) (searchableCount : Nat) (s : ScanState) :
    List DirEntry → ScanState × Bool
  | [] => (s, false)
  | entry :: rest =>
    let turn := scanEntry lib ctx searchableCount s entry
    if turn.2 then turn else scanEntries lib ctx searchableCount turn.1 rest

def scanContext (lib : Arithmetic) (backend : LsmProcessBackend) (input : ScanInput) (currentTotalTicks : Nat) :
    ScanContext :=
  { flags := input.flags
    sampledAt := input.sampledAt
    uptime := input.uptime
    totalDelta := (lib.u64CounterDelta currentTotalTicks backend.previousTotalCpuTicks).getD 0
    generation := nextGeneration backend.generation
    totalMemoryBytes := backend.totalMemoryBytes
    ticksPerSecond := backend.ticksPerSecond
    bootTimeEpoch := backend.bootTimeEpoch
    currentUid := backend.currentUid }

/-- The scan loop, from the retained samples. -/
def scanLoop (lib : Arithmetic) (backend : LsmProcessBackend) (input : ScanInput) (currentTotalTicks : Nat) :
    ScanState × Bool :=
  scanEntries lib (scanContext lib backend input currentTotalTicks) backend.samples.length
    {samples := backend.samples, heap := backend.heap} input.entries

/-- The tail of a failed scan. -/
def scanRollback (backend : LsmProcessBackend) (s : ScanState) : LsmProcessBackend :=
  let undone := rollbackSampleMutations s.samples s.heap s.mutations backend.samples.length
  {backend with samples := undone.1, heap := undone.2}

/-- The tail of a complete scan: release, compact, and sort if something was appended. -/
def scanCommit (backend : LsmProcessBackend) (s : ScanState) (generation currentTotalTicks : Nat) :
    LsmProcessBackend :=
  let heap := commitSampleMutations s.samples s.heap s.mutations
  let kept := dropStaleSamples s.samples heap generation
  let samplesAppended := backend.samples.length < s.samples.length
  {backend with
    samples := if samplesAppended ∧ 1 < kept.1.length then sortSamples kept.1 else kept.1
    generation
    previousTotalCpuTicks := currentTotalTicks
    heap := kept.2}

/-- The rows of a complete scan; `none` when the call fails and publishes nothing. -/
def lsmProcessScan (lib : Arithmetic) (backend : LsmProcessBackend) (input : ScanInput) :
    LsmProcessBackend × Option (List LsmProcessInfo) :=
  match input.currentTotalTicks with
  | none => (backend, none)
  | some currentTotalTicks =>
    if !input.opendir || !input.processesAllocated || !input.mutationsReserved then (backend, none)
    else
      let scanned := scanLoop lib backend input currentTotalTicks
      if scanned.2 || !input.readdir || !input.closedir then (scanRollback backend scanned.1, none)
      else (scanCommit backend scanned.1 (nextGeneration backend.generation) currentTotalTicks,
        some scanned.1.processes)

/-! ### Histories of scans -/

def lsmProcessBackendCreate (totalMemoryBytes : Nat) (ticksPerSecond bootTimeEpoch : Int) (currentUid : Nat) :
    LsmProcessBackend :=
  {totalMemoryBytes, ticksPerSecond, bootTimeEpoch, currentUid}

/-- A backend with what its last complete scan observed. -/
structure Scanned where
  backend : LsmProcessBackend
  last : Option ScanInput := none

def Scanned.scan (lib : Arithmetic) (s : Scanned) (input : ScanInput) : Scanned :=
  let outcome := lsmProcessScan lib s.backend input
  ⟨outcome.1, if outcome.2.isSome then some input else s.last⟩

/-- The given scans, one after the other. -/
def scanHistory (lib : Arithmetic) (backend : LsmProcessBackend) (history : List ScanInput) : Scanned :=
  history.foldl (Scanned.scan lib) ⟨backend, none⟩

/-! ### Plain observations -/

/-- A process of which nothing but the stat record can be read. -/
def ProcReads.ofStat (stat : LinuxProcessStat) : ProcReads where
  stat := some stat
  status := none
  cmdline := none
  executable := .empty
  readBytes := none
  writeBytes := none
  cgroupPath := .empty
  cgroupV2 := false
  descriptors := none
  technical _ _ := {}
  gpu := none
  rereadBefore := true
  rereadAfter := true

def LinuxProcessStat.ofTicks (startTicks cpuTicks : Nat) : LinuxProcessStat where
  name := .empty
  state := 'R'
  ppid := 1
  cpuTicks
  startTicks
  niceValue := 0
  threads := 1
  pageFaults := 0

def Allocations.all : Allocations := ⟨true, true, true, true, true⟩

/-- A scan in which no call fails. -/
def ScanInput.complete (flags : ScanFlags) (totalTicks : Nat) (sampledAt : ℚ) (entries : List DirEntry) :
    ScanInput where
  flags
  currentTotalTicks := some totalTicks
  opendir := true
  processesAllocated := true
  mutationsReserved := true
  uptime := sampledAt
  sampledAt
  entries
  readdir := true
  closedir := true

end SystemMonitor.Process
