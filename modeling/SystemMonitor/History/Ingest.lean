import SystemMonitor.History.Model
import SystemMonitor.History.Numerals

/-! Accounting a process snapshot, merging the loaded file, and resetting. -/
namespace SystemMonitor.History
open Lib Process

/-- A process with the time at which an entry for it would be created. -/
structure Reading where
  process : LsmProcessInfo
  createdAt : Int

/-- One call of `lsm_app_history_ingest`. -/
structure Snapshot where
  processes : List Reading
  nowMono : ℚ
  nowEpoch : Int
  walk : Walk LsmHistoryEntry
  allocated : Bool

def Snapshot.keys (snapshot : Snapshot) : List Text := snapshot.processes.map fun r => historyKey r.process

def historyProcessKey (process : LsmProcessInfo) : LsmHistoryProcessKey := ⟨process.pid, process.instanceId⟩

/-! ### One process -/

/-- The entry of the process's identity, created if there is none. -/
def historyEntryGet (s : LsmHistoryState) (reading : Reading) : LsmHistoryState × LsmHistoryEntry :=
  match s.appHistory.find? (historyKey reading.process) with
  | some entry => (s, entry)
  | none =>
    let entry : LsmHistoryEntry :=
      { key := historyKey reading.process
        name := reading.process.name.text
        user := reading.process.user.text
        identity := historyExecutable reading.process
        firstSeen := reading.createdAt
        lastSeen := reading.createdAt }
    ({s with appHistory := s.appHistory.put entry, entryCount := s.entryCount + 1}, entry)

/-- The first process of an identity in a snapshot starts its live totals. -/
def beginLive (generation : Nat) (elapsed : ℚ) (entry : LsmHistoryEntry) : LsmHistoryEntry :=
  if entry.liveGeneration ≠ generation then
    {entry with
      liveGeneration := generation
      currentRssBytes := 0
      activeSeconds := entry.activeSeconds + elapsed}
  else entry

def addRss (lib : Arithmetic) (entry : LsmHistoryEntry) (rssBytes : Nat) : LsmHistoryEntry :=
  let current := lib.u64AddSaturating entry.currentRssBytes rssBytes
  {entry with
    currentRssBytes := current
    peakRssBytes := if entry.peakRssBytes < current then current else entry.peakRssBytes}

/-- What the counters of an instance grew by since its sample. -/
structure Deltas where
  cpu : Nat := 0
  read : Nat := 0
  write : Nat := 0
  deriving DecidableEq

def counterGrowth (current previous : Nat) : Nat := if previous ≤ current then current - previous else 0

def sampleDeltas (samples : Samples) (process : LsmProcessInfo) : Deltas :=
  match samples.find? (historyProcessKey process) with
  | none => {}
  | some sample =>
    { cpu := counterGrowth process.cpuTimeNanoseconds sample.cpuTimeNanoseconds
      read := counterGrowth process.readBytes sample.readBytes
      write := counterGrowth process.writeBytes sample.writeBytes }

def historySample (generation : Nat) (process : LsmProcessInfo) : LsmHistorySample :=
  { key := historyProcessKey process
    cpuTimeNanoseconds := process.cpuTimeNanoseconds
    readBytes := process.readBytes
    writeBytes := process.writeBytes
    generation }

def creditEntry (lib : Arithmetic) (nowEpoch : Int) (process : LsmProcessInfo) (deltas : Deltas)
    (entry : LsmHistoryEntry) : LsmHistoryEntry :=
  {entry with
    cpuSeconds := entry.cpuSeconds + (deltas.cpu : ℚ) / 1000000000
    readBytes := lib.u64AddSaturating entry.readBytes deltas.read
    writeBytes := lib.u64AddSaturating entry.writeBytes deltas.write
    lastSeen := if deltas.cpu ≠ 0 ∨ deltas.read ≠ 0 ∨ deltas.write ≠ 0 ∨ 5 / 100 < process.cpuPercent
      then nowEpoch else entry.lastSeen}

/-- The entry of a process after its reading is accounted. -/
def accountedEntry (lib : Arithmetic) (generation : Nat) (elapsed : ℚ) (nowEpoch : Int) (samples : Samples)
    (process : LsmProcessInfo) (entry : LsmHistoryEntry) : LsmHistoryEntry :=
  creditEntry lib nowEpoch process (sampleDeltas samples process)
    (addRss lib (beginLive generation elapsed entry) process.rssBytes)

def ingestProcess (lib : Arithmetic) (generation : Nat) (elapsed : ℚ) (nowEpoch : Int) (s : LsmHistoryState)
    (reading : Reading) : LsmHistoryState :=
  let got := historyEntryGet s reading
  let entry := accountedEntry lib generation elapsed nowEpoch s.appHistorySamples reading.process got.2
  {got.1 with
    appHistory := got.1.appHistory.put entry
    appHistorySamples := got.1.appHistorySamples.put (historySample generation reading.process)}

/-! ### One snapshot -/

/-- `remove_stale_sample`, in unsigned arithmetic. -/
def staleSample (current : Nat) (sample : LsmHistorySample) : Bool := (sample.generation + 2) % 2 ^ 32 < current

def ingestElapsed (s : LsmHistoryState) (nowMono : ℚ) : ℚ :=
  let elapsed := if 0 < s.lastSample then nowMono - s.lastSample else 0
  if elapsed < 0 ∨ 60 < elapsed then 0 else elapsed

def nextGeneration (generation : Nat) : Nat := (generation + 1) % 2 ^ 32

/-- The snapshot accounted, nothing trimmed yet. -/
def ingestAccount (lib : Arithmetic) (s : LsmHistoryState) (snapshot : Snapshot) : LsmHistoryState :=
  let generation := nextGeneration s.generation
  let accounted := snapshot.processes.foldl
    (ingestProcess lib generation (ingestElapsed s snapshot.nowMono) snapshot.nowEpoch)
    {s with generation, lastSample := snapshot.nowMono}
  {accounted with appHistorySamples := accounted.appHistorySamples.filter fun x => !staleSample generation x}

def lsmAppHistoryIngest (lib : Arithmetic) (s : LsmHistoryState) (snapshot : Snapshot) : LsmHistoryState :=
  let accounted := ingestAccount lib s snapshot
  let trimmed := (historyTrimToLimit snapshot.walk snapshot.allocated accounted accounted.generation).1
  if snapshot.processes ≠ [] then historyMarkDirty trimmed else trimmed

theorem foldl_ingestProcess_frame (lib : Arithmetic) (generation : Nat) (elapsed : ℚ) (nowEpoch : Int)
    (readings : List Reading) (s : LsmHistoryState) :
    let t := readings.foldl (ingestProcess lib generation elapsed nowEpoch) s
    t = {s with appHistory := t.appHistory, appHistorySamples := t.appHistorySamples, entryCount := t.entryCount} := by
  induction readings generalizing s with
  | nil => rfl
  | cons reading rest ih =>
    have hstep : ingestProcess lib generation elapsed nowEpoch s reading =
        {s with
          appHistory := (ingestProcess lib generation elapsed nowEpoch s reading).appHistory
          appHistorySamples := (ingestProcess lib generation elapsed nowEpoch s reading).appHistorySamples
          entryCount := (ingestProcess lib generation elapsed nowEpoch s reading).entryCount} := by
      simp only [ingestProcess, historyEntryGet]
      split <;> rfl
    intro t
    have hrest := ih (ingestProcess lib generation elapsed nowEpoch s reading)
    simp only [t, List.foldl_cons]
    rw [hrest, hstep]

theorem ingestAccount_frame (lib : Arithmetic) (s : LsmHistoryState) (snapshot : Snapshot) :
    let t := ingestAccount lib s snapshot
    t = {s with
      generation := nextGeneration s.generation
      lastSample := snapshot.nowMono
      appHistory := t.appHistory
      appHistorySamples := t.appHistorySamples
      entryCount := t.entryCount} := by
  have hframe := foldl_ingestProcess_frame lib (nextGeneration s.generation) (ingestElapsed s snapshot.nowMono)
    snapshot.nowEpoch snapshot.processes
    {s with generation := nextGeneration s.generation, lastSample := snapshot.nowMono}
  simp only [ingestAccount]
  rw [hframe]

/-- All that a snapshot changes. -/
theorem lsmAppHistoryIngest_frame (lib : Arithmetic) (s : LsmHistoryState) (snapshot : Snapshot) :
    let t := lsmAppHistoryIngest lib s snapshot
    t = {s with
      generation := nextGeneration s.generation
      lastSample := snapshot.nowMono
      appHistory := t.appHistory
      appHistorySamples := (ingestAccount lib s snapshot).appHistorySamples
      entryCount := t.entryCount
      mutationGeneration :=
        if snapshot.processes ≠ [] then (historyMarkDirty s).mutationGeneration else s.mutationGeneration
      dirty := if snapshot.processes ≠ [] then true else s.dirty} := by
  have htrim := historyTrimToLimit_frame snapshot.walk snapshot.allocated (ingestAccount lib s snapshot)
    (ingestAccount lib s snapshot).generation
  simp only [lsmAppHistoryIngest]
  by_cases hany : snapshot.processes ≠ []
  · simp only [if_pos hany, historyMarkDirty]
    rw [htrim, ingestAccount_frame]
  · simp only [if_neg hany]
    rw [htrim, ingestAccount_frame]

/-! ### The loaded file -/

/-- What a successful load hands over: a table of its own, within the limit, whose
entries carry no generation. -/
structure LsmHistoryLoadResult where
  entries : Entries
  truncated : Bool
  bounded : entries.rows.length ≤ lsmHistoryMaxEntries
  unstamped : ∀ e ∈ entries.rows, e.liveGeneration = 0

def mergeEntry (lib : Arithmetic) (current loaded : LsmHistoryEntry) : LsmHistoryEntry :=
  {current with
    cpuSeconds := min secondsLimit (current.cpuSeconds + loaded.cpuSeconds)
    activeSeconds := min secondsLimit (current.activeSeconds + loaded.activeSeconds)
    readBytes := lib.u64AddSaturating current.readBytes loaded.readBytes
    writeBytes := lib.u64AddSaturating current.writeBytes loaded.writeBytes
    peakRssBytes := if current.peakRssBytes < loaded.peakRssBytes then loaded.peakRssBytes else current.peakRssBytes
    firstSeen := if 0 < loaded.firstSeen ∧ (current.firstSeen ≤ 0 ∨ loaded.firstSeen < current.firstSeen)
      then loaded.firstSeen else current.firstSeen
    lastSeen := if current.lastSeen < loaded.lastSeen then loaded.lastSeen else current.lastSeen}

def mergeLoadedEntry (lib : Arithmetic) (s : LsmHistoryState) (loaded : LsmHistoryEntry) : LsmHistoryState :=
  match s.appHistory.find? loaded.key with
  | none => {s with appHistory := s.appHistory.put loaded, entryCount := s.entryCount + 1}
  | some current => {s with appHistory := s.appHistory.put (mergeEntry lib current loaded)}

/-- How the iterations and the allocation of a merge turn out. -/
structure MergeRun where
  loadedWalk : Walk LsmHistoryEntry
  walk : Walk LsmHistoryEntry
  allocated : Bool

/-- The loaded entries merged, nothing trimmed yet. -/
def mergeAccount (lib : Arithmetic) (s : LsmHistoryState) (result : LsmHistoryLoadResult) (run : MergeRun) :
    LsmHistoryState :=
  (run.loadedWalk.order result.entries.rows).foldl (mergeLoadedEntry lib) s

def historyMergeLoaded (lib : Arithmetic) (s : LsmHistoryState) (result : LsmHistoryLoadResult) (run : MergeRun) :
    LsmHistoryState :=
  let merged := mergeAccount lib s result run
  let trimmed := historyTrimToLimit run.walk run.allocated merged merged.generation
  if result.truncated || trimmed.2 then historyMarkDirty trimmed.1 else trimmed.1

/-! ### Reset -/

/-- The accepted reset, before it is saved. -/
def historyClear (s : LsmHistoryState) : LsmHistoryState :=
  historyMarkDirty {s with appHistory := .empty, appHistorySamples := .empty, entryCount := 0}

end SystemMonitor.History
