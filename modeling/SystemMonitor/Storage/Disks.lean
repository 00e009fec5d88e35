import Mathlib.Data.List.Sort
import SystemMonitor.Lib.Last
import SystemMonitor.Lib.LowerBound
import SystemMonitor.Lib.Machine
import SystemMonitor.Storage.Model

/-! Finding the disks and accounting for their activity.

A refresh lists the block devices and the partitions and, when both succeed,
replaces the published disks and carries the baselines of the same instances
over. An update reads `/proc/diskstats` and accounts each disk against its
baseline; a disk without a usable line loses it. -/
namespace SystemMonitor.Storage
open Lib

/-! ### Accounting -/

/-- A pair of differences, as the two-part condition leaves them. -/
def countersDelta (lib : Library) (operations previousOperations ms previousMs : Nat) : Option (Nat × Nat) :=
  (lib.u64CounterDelta operations previousOperations).bind fun operations =>
    (lib.u64CounterDelta ms previousMs).map fun time => (operations, time)

/-- Milliseconds for each operation. -/
def responseMs (operations time : Nat) : ℚ := if 0 < operations then (time : ℚ) / (operations : ℚ) else 0

def accountedRates (lib : Library) (state : LsmDiskAccountingState) (counters : LsmDiskCounters) (elapsed : ℚ) :
    LsmDiskRates :=
  let read := countersDelta lib counters.readOperations state.previousReadOperations counters.readMs state.previousReadMs
  let write := countersDelta lib counters.writeOperations state.previousWriteOperations counters.writeMs
    state.previousWriteMs
  { readBytesPerSec := lib.u64CounterRate counters.readSectors state.previousReadSectors 512 elapsed
    writeBytesPerSec := lib.u64CounterRate counters.writeSectors state.previousWriteSectors 512 elapsed
    activePercent := (lib.u64CounterRate counters.ioMs state.previousIoMs 1 elapsed).map fun rate =>
      lib.clampDouble (rate / 10) 0 100
    averageResponseMs := read.bind fun r => write.map fun w =>
      responseMs (lib.u64AddSaturating r.1 w.1) (lib.u64AddSaturating r.2 w.2)
    readResponseMs := read.map fun r => responseMs r.1 r.2
    writeResponseMs := write.map fun w => responseMs w.1 w.2
    queueLength := (lib.u64CounterRate counters.weightedIoMs state.previousWeightedIoMs 1 elapsed).map fun rate =>
      max 0 (rate / 1000) }

/-- The baseline that an observation leaves. -/
def retained (counters : LsmDiskCounters) : LsmDiskAccountingState where
  previousReadSectors := counters.readSectors
  previousWriteSectors := counters.writeSectors
  previousReadOperations := counters.readOperations
  previousWriteOperations := counters.writeOperations
  previousReadMs := counters.readMs
  previousWriteMs := counters.writeMs
  previousIoMs := counters.ioMs
  previousWeightedIoMs := counters.weightedIoMs
  initialized := true

def lsmDiskAccountingUpdate (lib : Library) (disk : LsmDiskInfo) (state : LsmDiskAccountingState)
    (counters : Option LsmDiskCounters) (elapsed : ℚ) : LsmDiskInfo × LsmDiskAccountingState :=
  match counters with
  | none => ({disk with rates := .nan}, {state with initialized := false})
  | some counters =>
    ({ disk with
        readBytesTotal := lib.u64MultiplySaturating counters.readSectors 512
        writeBytesTotal := lib.u64MultiplySaturating counters.writeSectors 512
        inProgressOperations := if uintMax < counters.inProgressOperations then uintMax else counters.inProgressOperations
        rates := if state.initialized && decide (0 < elapsed) then accountedRates lib state counters elapsed else .nan },
      retained counters)

/-! ### Baselines -/

def findDiskState (states : List LsmLinuxDiskState) (name : Name) : Option LsmLinuxDiskState :=
  states.find? fun state => state.name = name

/-- The accounting of the state that `find_disk_state` points to, changed in place. -/
def setAccounting (name : Name) (accounting : LsmDiskAccountingState) :
    List LsmLinuxDiskState → List LsmLinuxDiskState
  | [] => []
  | state :: rest => if state.name = name then {state with accounting} :: rest else state :: setAccounting name accounting rest

def diskInstanceMatches (left right : Identity) : Bool :=
  decide (left.text ≠ []) && decide (right.text ≠ []) && decide (left = right)

def reconcileDiskState (states : List LsmLinuxDiskState) (disk : LsmDiskInfo) : LsmLinuxDiskState :=
  match findDiskState states disk.name with
  | some old =>
    if diskInstanceMatches old.instanceIdentity disk.instanceIdentity then
      {old with name := disk.name, instanceIdentity := disk.instanceIdentity}
    else {name := disk.name, instanceIdentity := disk.instanceIdentity}
  | none => {name := disk.name, instanceIdentity := disk.instanceIdentity}

def reconcileDiskStates (states : List LsmLinuxDiskState) (disks : List LsmDiskInfo) : List LsmLinuxDiskState :=
  (disks.take lsmMaxDisks).map (reconcileDiskState states)

def findOldDisk (disks : List LsmDiskInfo) (disk : LsmDiskInfo) : Option LsmDiskInfo :=
  disks.find? fun old => old.name = disk.name && diskInstanceMatches old.instanceIdentity disk.instanceIdentity

/-! ### Partitions -/

/-- `statvfs`: fragment size, block size, blocks and free blocks. -/
structure Statvfs where
  frsize : Nat
  bsize : Nat
  blocks : Nat
  bfree : Nat

/-- Total and used bytes of a mounted file system. -/
def partitionUsage (lib : Library) (information : Statvfs) : Option (Nat × Nat) :=
  let blockSize := if information.frsize ≠ 0 then information.frsize else information.bsize
  (lib.u64MultiplyChecked information.blocks blockSize).bind fun total =>
    (lib.u64MultiplyChecked information.bfree blockSize).map fun free =>
      (total, if free ≤ total then total - free else 0)

def partitionText : Chars 64 := ⟨ascii "partition", by decide, by decide⟩

def appendPartition (lib : Library) (statvfs : Path → Option Statvfs) (disk : LsmDiskInfo)
    (record : LsmPartitionRecord) : LsmDiskInfo :=
  if lsmMaxPartitions ≤ disk.partitions.length then disk
  else
    let partition : LsmPartitionInfo :=
      { device := record.device
        mountPoint := record.mountPoint
        filesystem := if record.filesystem.text ≠ [] then record.filesystem else partitionText
        totalBytes := record.sizeBytes }
    let usage := if record.mounted && decide (record.mountPoint.text ≠ []) then
      (statvfs record.mountPoint).bind (partitionUsage lib) else none
    match usage with
    | none => {disk with partitions := disk.partitions ++ [partition]}
    | some (totalBytes, usedBytes) =>
      let usedPercent := if 0 < totalBytes then (lib.percentU64 usedBytes totalBytes + 1 / 2).floor.toNat else 0
      {disk with partitions := disk.partitions ++ [{partition with totalBytes, usedBytes, usedPercent, usageKnown := true}]}

/-- A partition goes to the first disk of its name that has room for it. -/
def joinPartition (lib : Library) (statvfs : Path → Option Statvfs) (record : LsmPartitionRecord) :
    List LsmDiskInfo → List LsmDiskInfo
  | [] => []
  | disk :: rest =>
    if disk.name = record.parentDisk then
      if lsmMaxPartitions ≤ disk.partitions.length then disk :: rest
      else
        let joined := appendPartition lib statvfs disk record
        (if record.mounted && decide (record.mountPoint.text = ascii "/") then {joined with systemDisk := true}
          else joined) :: rest
    else disk :: joinPartition lib statvfs record rest

def updateAllDiskPartitions (lib : Library) (statvfs : Path → Option Statvfs) (partitions : List LsmPartitionRecord)
    (disks : List LsmDiskInfo) : List LsmDiskInfo :=
  let cleared := disks.map fun disk => {disk with partitions := [], systemDisk := false}
  (partitions.foldl (fun disks record => joinPartition lib statvfs record disks) cleared).map fun disk =>
    {disk with partitions := disk.partitions.insertionSort fun a b => lib.strverscmp a.device.text b.device.text ≤ 0}

/-! ### Refresh -/

/-- What `lsm_sources_list_block_devices_checked` stores in the array it is given. -/
structure BlockDevices where
  records : List LsmBlockDeviceRecord
  fits : records.length ≤ lsmMaxDisks

/-- What a refresh finds; `none` is a failed enumeration. -/
structure DiskListing where
  devices : Option BlockDevices
  partitions : Option (List LsmPartitionRecord)
  statvfs : Path → Option Statvfs := fun _ => none

def discoveredDisk (record : LsmBlockDeviceRecord) : LsmDiskInfo where
  name := record.name
  instanceIdentity := record.instanceIdentity
  model := record.model
  mediaType := record.mediaType
  connectionType := record.connectionType
  sizeBytes := record.sizeBytes

/-- A disk that was there before keeps what was published of it. -/
def retainPublished (disks : List LsmDiskInfo) (disk : LsmDiskInfo) : LsmDiskInfo :=
  match findOldDisk disks disk with
  | none => disk
  | some old =>
    { disk with
      rates := old.rates
      readBytesTotal := old.readBytesTotal
      writeBytesTotal := old.writeBytesTotal
      inProgressOperations := old.inProgressOperations }

def disksChanged (discovered disks : List LsmDiskInfo) : Bool :=
  decide (discovered.length ≠ disks.length) ||
    (discovered.zip disks).any fun p =>
      decide (p.1.name ≠ p.2.name) || !diskInstanceMatches p.1.instanceIdentity p.2.instanceIdentity

def refreshDisks (lib : Library) (m : LsmMonitor) (listing : DiskListing) : LsmMonitor × Bool :=
  match listing.devices with
  | none => (m, false)
  | some devices =>
    match listing.partitions with
    | none => (m, false)
    | some partitions =>
      let found := (devices.records.map discoveredDisk).map (retainPublished m.disks)
      let discovered := lib.qsortDisks (updateAllDiskPartitions lib listing.statvfs partitions found)
      let changed := disksChanged discovered m.disks || decide (m.diskGeneration = 0)
      ({ m with
          diskStates := reconcileDiskStates m.diskStates discovered
          disks := discovered
          diskGeneration := if changed then (m.diskGeneration + 1) % 2 ^ 64 else m.diskGeneration
          topologyGeneration := if changed then (m.topologyGeneration + 1) % 2 ^ 64 else m.topologyGeneration }, true)

/-! ### Update -/

/-- The index `find_disk` points at. -/
def findDisk (disks : List LsmDiskInfo) (name : Text) : Option Nat :=
  let keyAt := fun i => (disks[i]?.map fun disk => strcmpKey disk.name.text).getD []
  let low := lowerBound keyAt (strcmpKey name) disks.length 0 disks.length
  if low < disks.length ∧ keyAt low = strcmpKey name then some low else none

/-- The lines of `/proc/diskstats` with all fourteen fields, and how the stream ended. -/
structure Diskstats where
  lines : List (Text × LsmDiskCounters)
  readOk : Bool := true
  closeOk : Bool := true

/-- The loop over the disks, with the counters of each. -/
def accountDisks (lib : Library) (elapsed : ℚ) :
    List (LsmDiskInfo × Option LsmDiskCounters) → List LsmLinuxDiskState →
      List LsmDiskInfo × List LsmLinuxDiskState
  | [], states => ([], states)
  | (disk, counters) :: rest, states =>
    match findDiskState states disk.name with
    | none =>
      let accounted := accountDisks lib elapsed rest states
      (disk :: accounted.1, accounted.2)
    | some state =>
      let updated := lsmDiskAccountingUpdate lib disk state.accounting counters elapsed
      let accounted := accountDisks lib elapsed rest (setAccounting disk.name updated.2 states)
      (updated.1 :: accounted.1, accounted.2)

/-- The counters of each disk; `none` when the file cannot be opened. -/
def diskSnapshots (disks : List LsmDiskInfo) (diskstats : Option Diskstats) : List (Option LsmDiskCounters) :=
  match diskstats with
  | none => List.replicate disks.length none
  | some file =>
    let snapshots := fill (fun line => findDisk disks line.1) Prod.snd disks.length file.lines
    if file.readOk && file.closeOk then snapshots else snapshots.map fun _ => none

def updateDisks (lib : Library) (m : LsmMonitor) (diskstats : Option Diskstats) (elapsed : ℚ) : LsmMonitor :=
  let accounted := accountDisks lib elapsed (m.disks.zip (diskSnapshots m.disks diskstats)) m.diskStates
  {m with disks := accounted.1, diskStates := accounted.2}

end SystemMonitor.Storage
