import Mathlib.Data.List.Lex
import Mathlib.Data.List.Sort
import SystemMonitor.Common
import SystemMonitor.Sources.Netlink

/-! The disks and network interfaces of a monitor.

The published snapshot and the retained counter baselines are two arrays each,
joined by name and instance identity. A `double` that may be NaN is an
`Option`. -/
namespace SystemMonitor.Storage
open Sources

def lsmMaxDisks : Nat := 64
def lsmMaxNets : Nat := 64
def lsmMaxPartitions : Nat := 64

abbrev Name := Chars 64
abbrev Identity := Chars 512
abbrev Path := Chars 512

/-- Bytes compare unsigned. -/
def strcmpKey (t : Text) : List Nat := t.map UInt8.toNat

/-! ### What the system sources list -/

structure LsmBlockDeviceRecord where
  name : Name
  instanceIdentity : Identity
  model : Chars 128
  mediaType : Chars 16
  connectionType : Chars 32
  sizeBytes : Nat
  deriving DecidableEq

structure LsmPartitionRecord where
  device : Path
  mountPoint : Path
  filesystem : Chars 64
  parentDisk : Name
  sizeBytes : Nat
  mounted : Bool
  deriving DecidableEq

structure LsmNetworkRecord where
  name : Name
  instanceIdentity : Identity
  mac : Chars 32
  product : Chars 128
  vendor : Chars 128
  wireless : Bool
  deriving DecidableEq

structure LsmNetworkCounterRecord where
  name : Name
  instanceIdentity : Identity
  rxBytes : Nat
  txBytes : Nat
  deriving DecidableEq

/-! ### Disks -/

structure LsmPartitionInfo where
  device : Path
  mountPoint : Path
  filesystem : Chars 64
  totalBytes : Nat
  usedBytes : Nat := 0
  usedPercent : Nat := 0
  usageKnown : Bool := false
  deriving DecidableEq

/-- The values derived from two observations. -/
structure LsmDiskRates where
  readBytesPerSec : Option ℚ
  writeBytesPerSec : Option ℚ
  activePercent : Option ℚ
  averageResponseMs : Option ℚ
  readResponseMs : Option ℚ
  writeResponseMs : Option ℚ
  queueLength : Option ℚ
  deriving DecidableEq

/-- Zeroed memory. -/
def LsmDiskRates.zero : LsmDiskRates := ⟨some 0, some 0, some 0, some 0, some 0, some 0, some 0⟩

def LsmDiskRates.nan : LsmDiskRates := ⟨none, none, none, none, none, none, none⟩

structure LsmDiskInfo where
  name : Name
  instanceIdentity : Identity
  model : Chars 128
  mediaType : Chars 16
  connectionType : Chars 32
  sizeBytes : Nat
  rates : LsmDiskRates := .zero
  readBytesTotal : Nat := 0
  writeBytesTotal : Nat := 0
  inProgressOperations : Nat := 0
  systemDisk : Bool := false
  partitions : List LsmPartitionInfo := []
  deriving DecidableEq

/-- One line of `/proc/diskstats`. -/
structure LsmDiskCounters where
  readOperations : Nat
  readSectors : Nat
  readMs : Nat
  writeOperations : Nat
  writeSectors : Nat
  writeMs : Nat
  inProgressOperations : Nat
  ioMs : Nat
  weightedIoMs : Nat
  deriving DecidableEq

structure LsmDiskAccountingState where
  previousReadSectors : Nat := 0
  previousWriteSectors : Nat := 0
  previousReadOperations : Nat := 0
  previousWriteOperations : Nat := 0
  previousReadMs : Nat := 0
  previousWriteMs : Nat := 0
  previousIoMs : Nat := 0
  previousWeightedIoMs : Nat := 0
  initialized : Bool := false
  deriving DecidableEq

structure LsmLinuxDiskState where
  name : Name
  instanceIdentity : Identity
  accounting : LsmDiskAccountingState := {}
  deriving DecidableEq

/-! ### Networks -/

structure LsmNetInfo where
  name : Name
  instanceIdentity : Identity
  ipv4 : Chars 64 := .empty
  ipv6 : Chars 128 := .empty
  mac : Chars 32
  product : Chars 128
  vendor : Chars 128
  rxBytesTotal : Nat := 0
  txBytesTotal : Nat := 0
  rxBytesPerSec : Option ℚ := some 0
  txBytesPerSec : Option ℚ := some 0
  wireless : Bool
  linkSpeedMbps : ℚ := 0
  utilisationPercent : Option ℚ := some 0
  utilisationAvailable : Bool := false
  connectionState : Chars 32 := .empty
  deriving DecidableEq

structure LsmLinuxNetworkState where
  name : Name
  instanceIdentity : Identity
  previousRx : Nat := 0
  previousTx : Nat := 0
  initialized : Bool := false
  deriving DecidableEq

/-- The storage and network part of a monitor and of its Linux backend. -/
structure LsmMonitor where
  disks : List LsmDiskInfo := []
  diskGeneration : Nat := 0
  nets : List LsmNetInfo := []
  topologyGeneration : Nat := 0
  diskStates : List LsmLinuxDiskState := []
  networkStates : List LsmLinuxNetworkState := []
  systemSources : LsmSystemSources
  deriving DecidableEq

/-! ### The library -/

/-- What the collectors use besides the integer helpers: more of Common, and the
C library's sorting, whose order of equal elements is its own. -/
structure Library extends Arithmetic where
  u64MultiplySaturating : Nat → Nat → Nat
  u64MultiplyChecked : Nat → Nat → Option Nat
  clampDouble : ℚ → ℚ → ℚ → ℚ
  strverscmp : Text → Text → Int
  qsortDisks : List LsmDiskInfo → List LsmDiskInfo
  qsortNets : List LsmNetInfo → List LsmNetInfo
  multiplySaturating_eq : ∀ a b, u64MultiplySaturating a b = min (a * b) uint64Max
  multiplyChecked_eq : ∀ a b, u64MultiplyChecked a b = if a * b ≤ uint64Max then some (a * b) else none
  clampDouble_eq : ∀ value low high, clampDouble value low high = max low (min high value)
  qsortDisks_perm : ∀ disks, (qsortDisks disks).Perm disks
  qsortDisks_sorted : ∀ disks, (qsortDisks disks).Pairwise fun a b => strcmpKey a.name.text ≤ strcmpKey b.name.text
  qsortNets_perm : ∀ nets, (qsortNets nets).Perm nets
  qsortNets_sorted : ∀ nets, (qsortNets nets).Pairwise fun a b => strcmpKey a.name.text ≤ strcmpKey b.name.text

/-- Names in the order of `strcmp`. -/
def nameLe {α : Type} (name : α → Name) (a b : α) : Prop := strcmpKey (name a).text ≤ strcmpKey (name b).text

instance {α : Type} (name : α → Name) : DecidableRel (nameLe name) := fun a b =>
  inferInstanceAs (Decidable (strcmpKey (name a).text ≤ strcmpKey (name b).text))

instance {α : Type} (name : α → Name) : Std.Total (nameLe name) := ⟨fun _ _ => le_total _ _⟩

instance {α : Type} (name : α → Name) : IsTrans α (nameLe name) := ⟨fun _ _ _ => le_trans⟩

theorem multiplyChecked_documented (a b : Nat) :
    (fun a b : Nat => if a * b ≤ uint64Max then some (a * b) else none) a b =
      if a * b ≤ uint64Max then some (a * b) else none := rfl

theorem clampDouble_documented (value low high : ℚ) :
    (fun value low high : ℚ => max low (min high value)) value low high = max low (min high value) := rfl

/-- The documented behaviour as functions; the sort is stable. -/
def Library.documented : Library where
  toArithmetic := .documented
  u64MultiplySaturating a b := min (a * b) uint64Max
  u64MultiplyChecked a b := if a * b ≤ uint64Max then some (a * b) else none
  clampDouble value low high := max low (min high value)
  strverscmp a b := if strcmpKey a ≤ strcmpKey b then 0 else 1
  qsortDisks disks := disks.insertionSort (nameLe LsmDiskInfo.name)
  qsortNets nets := nets.insertionSort (nameLe LsmNetInfo.name)
  multiplySaturating_eq _ _ := rfl
  multiplyChecked_eq := multiplyChecked_documented
  clampDouble_eq := clampDouble_documented
  qsortDisks_perm disks := List.perm_insertionSort _ disks
  qsortDisks_sorted disks := List.pairwise_insertionSort _ disks
  qsortNets_perm nets := List.perm_insertionSort _ nets
  qsortNets_sorted nets := List.pairwise_insertionSort _ nets

end SystemMonitor.Storage
