import SystemMonitor.Lib.Parallel
import SystemMonitor.Storage.Model

/-! The disks of the Windows monitor.

A due sample discovers the drives and their volumes anew, and puts everything back when a
part of that fails. Any other sample, and one whose discovery has failed, asks the drives
that are known for their performance alone. What a drive, the device interfaces and the
volume search answer is the input of a sample. -/
namespace SystemMonitor.Windows.Disks
open Lib Storage

/-- What `IOCTL_DISK_PERFORMANCE` returns, its times in units of 100 ns. -/
structure DiskPerformance where
  bytesRead : Nat
  bytesWritten : Nat
  readTime : Nat
  writeTime : Nat
  readCount : Nat
  writeCount : Nat
  queueDepth : Nat
  deriving DecidableEq

structure LsmWindowsDiskBaseline where
  valid : Bool
  number : UInt32
  readBytes : Nat
  writeBytes : Nat
  readCount : Nat
  writeCount : Nat
  readTime100ns : Nat
  writeTime100ns : Nat
  deriving DecidableEq

/-- Zeroed memory. -/
def LsmWindowsDiskBaseline.zero : LsmWindowsDiskBaseline := ⟨false, 0, 0, 0, 0, 0, 0, 0⟩

structure LsmMonitor where
  disks : List LsmDiskInfo
  diskGeneration : UInt64
  topologyGeneration : UInt64

structure LsmWindowsMonitorBackendState where
  disks : List LsmWindowsDiskBaseline

/-- What a sample works on. -/
structure State where
  monitor : LsmMonitor
  state : LsmWindowsMonitorBackendState

def State.initial : State where
  monitor := { disks := [], diskGeneration := 0, topologyGeneration := 0 }
  state := { disks := List.replicate lsmMaxDisks .zero }

/-! ### What a sample meets -/

/-- One device interface of the class: it cannot be read, or gives a device number. -/
inductive DiskInterface where
  | failed
  | device (isDisk : Bool) (number : UInt32)

structure StorageDescriptor where
  vendor : Text
  product : Text
  busName : Text
  removable : Bool

/-- A drive that was opened by the discovery. -/
structure OpenDrive where
  size : Option Nat
  descriptor : Option StorageDescriptor
  performance : Option DiskPerformance
  closed : Bool

structure Volume where
  name : Text
  mountPoints : Text
  filesystem : Text
  /-- The total and the free bytes. -/
  usage : Option (Nat × Nat)
  /-- The drives of its extents; `none` where they cannot be read. -/
  extents : Option (List UInt32)
  isSystemVolume : Bool

structure Sample where
  elapsed : ℚ
  due : Bool
  /-- The backups and the discovered disks can be allocated. -/
  memory : Bool
  /-- The interfaces of the class, if the list can be had. -/
  interfaces : Option (List DiskInterface)
  drive : UInt32 → Option OpenDrive
  /-- The volumes, if the search comes to its end. -/
  volumes : Option (List Volume)
  /-- What a drive answers that is opened for its performance alone. -/
  performance : UInt32 → Option DiskPerformance

/-! ### Performance -/

section
variable (lib : Arithmetic)

def responseMs (time operations : Nat) : ℚ := if 0 < operations then (time : ℚ) / 10000 / operations else 0

/-- Milliseconds of the operations since then, the saturating sum of the counts with the wrapping sum of the times. -/
def averageResponseMs (readTime writeTime readOps writeOps : Nat) : ℚ :=
  responseMs ((readTime + writeTime) % 2 ^ 64) (lib.u64AddSaturating readOps writeOps)

def performanceRates (baseline : LsmWindowsDiskBaseline) (p : DiskPerformance) (elapsed : ℚ) : LsmDiskRates :=
  let valid := decide (baseline.readTime100ns ≤ p.readTime ∧ baseline.readCount ≤ p.readCount) &&
    decide (baseline.writeTime100ns ≤ p.writeTime ∧ baseline.writeCount ≤ p.writeCount)
  let readTime := p.readTime - baseline.readTime100ns
  let writeTime := p.writeTime - baseline.writeTime100ns
  let readOps := p.readCount - baseline.readCount
  let writeOps := p.writeCount - baseline.writeCount
  { readBytesPerSec := lib.u64CounterRate p.bytesRead baseline.readBytes 1 elapsed
    writeBytesPerSec := lib.u64CounterRate p.bytesWritten baseline.writeBytes 1 elapsed
    activePercent :=
      if valid then some (max 0 (min 100 (((readTime : ℚ) + (writeTime : ℚ)) * 100 / (elapsed * 10000000)))) else none
    readResponseMs := if valid then some (responseMs readTime readOps) else none
    writeResponseMs := if valid then some (responseMs writeTime writeOps) else none
    averageResponseMs := if valid then some (averageResponseMs lib readTime writeTime readOps writeOps) else none
    queueLength := some p.queueDepth }

/-- The baseline that a query leaves behind. -/
def retained (number : UInt32) (p : DiskPerformance) : LsmWindowsDiskBaseline :=
  ⟨true, number, p.bytesRead, p.bytesWritten, p.readCount, p.writeCount, p.readTime, p.writeTime⟩

def updateDiskPerformance (disk : LsmDiskInfo) (baseline : LsmWindowsDiskBaseline) (p : DiskPerformance) (elapsed : ℚ) :
    LsmDiskInfo × LsmWindowsDiskBaseline :=
  ({disk with
      readBytesTotal := p.bytesRead
      writeBytesTotal := p.bytesWritten
      inProgressOperations := p.queueDepth
      rates := if baseline.valid && decide (0 < elapsed) then performanceRates lib baseline p elapsed
        else {LsmDiskRates.nan with queueLength := some p.queueDepth}},
    retained baseline.number p)

def markDiskPerformanceUnavailable (disk : LsmDiskInfo) (baseline : LsmWindowsDiskBaseline) :
    LsmDiskInfo × LsmWindowsDiskBaseline :=
  ({disk with rates := .nan, inProgressOperations := 0}, {baseline with valid := false})

/-- One drive on the fast path. -/
def sampleDisk (sample : Sample) (disk : LsmDiskInfo) (baseline : LsmWindowsDiskBaseline) :
    LsmDiskInfo × LsmWindowsDiskBaseline :=
  match sample.performance baseline.number with
  | none => markDiskPerformanceUnavailable disk baseline
  | some p => updateDiskPerformance lib disk baseline p sample.elapsed

def updatePhysicalDiskPerformance (s : State) (sample : Sample) : State :=
  let updated := updateBoth (sampleDisk lib sample) s.monitor.disks s.state.disks
  { monitor := {s.monitor with disks := updated.1}
    state := { disks := updated.2 } }

/-! ### Discovery -/

/-- The drives' numbers, each once; any failure gives up the whole list. -/
def diskNumbers : List DiskInterface → List UInt32 → Option (List UInt32)
  | [], numbers => some numbers
  | .failed :: _, _ => none
  | .device isDisk number :: rest, numbers =>
    if !isDisk then diskNumbers rest numbers
    else if number ∈ numbers then diskNumbers rest numbers
    else if lsmMaxDisks ≤ numbers.length then none
    else diskNumbers rest (numbers ++ [number])

def enumeratePhysicalDiskNumbers (sample : Sample) : Option (List UInt32) :=
  sample.interfaces.bind fun interfaces => diskNumbers interfaces []

def drivePath (number : UInt32) : Text := ascii "\\\\.\\PhysicalDrive" ++ Decimal.print number.toNat

def queryDiskIdentity (descriptor : StorageDescriptor) (info : LsmDiskInfo) : LsmDiskInfo :=
  {info with
    model :=
      if descriptor.vendor ≠ [] ∧ descriptor.product ≠ [] then
        .ofText (descriptor.vendor.take 48 ++ 32 :: descriptor.product.take 72)
      else if descriptor.product ≠ [] then .ofText descriptor.product
      else if descriptor.vendor ≠ [] then .ofText descriptor.vendor
      else info.model
    connectionType := .ofText descriptor.busName
    mediaType := .ofText (ascii (if descriptor.removable then "Removable" else "Fixed"))}

/-- A record of zeroed memory with its name, identity and size. -/
def discoveredDisk (number : UInt32) (opened : OpenDrive) : LsmDiskInfo :=
  let info : LsmDiskInfo := { name := .ofText (ascii "Disk " ++ Decimal.print number.toNat)
                              instanceIdentity := .ofText (drivePath number)
                              model := .empty
                              mediaType := .empty
                              connectionType := .empty
                              sizeBytes := opened.size.getD 0 }
  opened.descriptor.elim info (queryDiskIdentity · info)

def findDiskBaseline (s : State) (number : UInt32) : Option LsmWindowsDiskBaseline :=
  s.state.disks.find? fun baseline => baseline.valid && baseline.number == number

/-- A drive of the discovery. A query that fails leaves the record as it is. -/
def discoverDisk (s : State) (elapsed : ℚ) (number : UInt32) (opened : OpenDrive) :
    LsmDiskInfo × LsmWindowsDiskBaseline :=
  let info := discoveredDisk number opened
  let baseline := {(findDiskBaseline s number).getD .zero with number}
  match opened.performance with
  | none => (info, {baseline with valid := false})
  | some p => updateDiskPerformance lib info baseline p elapsed

def discoverDisks (s : State) (sample : Sample) : List UInt32 → Option (List (LsmDiskInfo × LsmWindowsDiskBaseline))
  | [] => some []
  | number :: rest =>
    match sample.drive number with
    | none => none
    | some opened =>
      if opened.closed then (discoverDisks s sample rest).map (discoverDisk lib s sample.elapsed number opened :: ·) else none

def diskIdentityChanged (old new : List LsmDiskInfo) : Bool :=
  old.map (·.instanceIdentity) != new.map (·.instanceIdentity)

def enumeratePhysicalDisks (s : State) (sample : Sample) : Option State :=
  (enumeratePhysicalDiskNumbers sample).bind fun numbers =>
    (discoverDisks lib s sample numbers).map fun discovered =>
      let disks := discovered.map Prod.fst
      let changed : UInt64 := if diskIdentityChanged s.monitor.disks disks then 1 else 0
      { monitor :=
          { disks
            diskGeneration := s.monitor.diskGeneration + changed
            topologyGeneration := s.monitor.topologyGeneration + changed }
        state :=
          { disks := discovered.map Prod.snd ++ List.replicate (lsmMaxDisks - discovered.length) .zero } }

/-! ### Volumes -/

def physicalDiskIndex (disks : List LsmDiskInfo) (number : UInt32) : Option Nat :=
  disks.findIdx? fun disk => disk.instanceIdentity.text == drivePath number

def Volume.partition (volume : Volume) : LsmPartitionInfo :=
  let total := (volume.usage.map Prod.fst).getD 0
  let used := (volume.usage.map fun usage => usage.1 - usage.2).getD 0
  let displayMount := if volume.mountPoints = [] then volume.name else volume.mountPoints
  { device := .ofText (if volume.name = [] then ascii "Volume" else volume.name)
    mountPoint := .ofText (if displayMount = [] then ascii "N/A" else displayMount)
    filesystem := .ofText (if volume.filesystem = [] then ascii "N/A" else volume.filesystem)
    totalBytes := total
    usedBytes := used
    usageKnown := volume.usage.isSome
    usedPercent := if volume.usage.isSome ∧ 0 < total then (lib.percentU64 used total).floor.toNat else 0 }

def appendVolumeToDisk (disks : List LsmDiskInfo) (index : Option Nat) (volume : Volume) : Option (List LsmDiskInfo) :=
  index.bind fun index => (disks[index]?).bind fun disk =>
    if lsmMaxPartitions ≤ disk.partitions.length then none
    else some (disks.set index {disk with
      partitions := disk.partitions ++ [volume.partition lib]
      systemDisk := disk.systemDisk || volume.isSystemVolume})

def appendExtents (volume : Volume) : List UInt32 → List LsmDiskInfo → Option (List LsmDiskInfo)
  | [], disks => some disks
  | number :: rest, disks =>
    (appendVolumeToDisk lib disks (physicalDiskIndex disks number) volume).bind (appendExtents volume rest)

def appendVolumes : List Volume → List LsmDiskInfo → Option (List LsmDiskInfo)
  | [], disks => some disks
  | volume :: rest, disks => (appendExtents lib volume (volume.extents.getD []) disks).bind (appendVolumes rest)

def enumerateDiskVolumes (s : State) (sample : Sample) : Option State :=
  if s.monitor.disks = [] then some s
  else sample.volumes.bind fun volumes =>
    (appendVolumes lib volumes (s.monitor.disks.map fun disk => {disk with partitions := [], systemDisk := false})).map
      fun disks => {s with monitor := {s.monitor with disks}}

/-! ### A sample -/

/-- The state that a discovery leaves, unless it is put back. -/
def discovery (s : State) (sample : Sample) : Option State :=
  if sample.due && sample.memory then
    (enumeratePhysicalDisks lib s sample).bind fun t => enumerateDiskVolumes lib t sample
  else none

/-- The disks' part of `refresh_topology_and_devices`. -/
def refreshTopologyAndDevices (s : State) (sample : Sample) : State :=
  match discovery lib s sample with
  | some t => t
  | none => updatePhysicalDiskPerformance lib s sample

end

end SystemMonitor.Windows.Disks
