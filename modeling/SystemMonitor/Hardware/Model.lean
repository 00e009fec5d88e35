import Mathlib.Data.List.Sort
import SystemMonitor.Lib.SlotCaches
import SystemMonitor.Storage.Model

/-! Graphics adapters, accelerators, batteries and Bluetooth devices of a monitor.

The published lists come from enumerations, each of which may fail and then leaves
its list alone. A refresh sorts them by identity and compares them with the lists
before (`lsm_hardware_topology_reconcile`); NVML later appends the adapters that no
DRM record stands for (`append_nvml_gpu`). Of a record the model keeps the identity
and what decides about it. -/
namespace SystemMonitor.Hardware
open Lib
open Storage (strcmpKey)

def lsmMaxGpus : Nat := 16

/-- What `snprintf` leaves of a text: it ends at the first NUL. -/
def printed {n : Nat} (t : Text) : Chars n :=
  .copyString (t.takeWhile (· != 0)) fun h => absurd (List.mem_takeWhile_imp h) (by decide)

/-! ### Records -/

/-- A path that `realpath` resolved. -/
structure AbsolutePath where
  path : Chars 512
  absolute : path.text.head? = some 47
  deriving DecidableEq

/-- A DRM adapter; without a bound driver `driver` is `unknown`. -/
structure LsmGpuRecord where
  card : Chars 64
  product : Chars 128
  vendor : Chars 128
  driver : Chars 64
  deviceSyspath : AbsolutePath
  deriving DecidableEq

structure LsmGpuInfo where
  name : Chars 128 := .empty
  displayIdentifier : Chars 64
  driver : Chars 64
  platformIdentity : Chars 512 := .empty
  /-- `none`: no utilisation is available. -/
  utilizationPercent : Option ℚ := none
  deriving DecidableEq

structure LsmNpuInfo where
  displayIdentifier : Chars 64
  platformIdentity : Chars 512
  deriving DecidableEq

/-- An entry of `/sys/class/accel`: its resolved device, or the link itself. -/
structure NpuRecord where
  accel : Chars 64
  device : AbsolutePath
  deriving DecidableEq

structure LsmBatteryInfo where
  name : Chars 64
  deriving DecidableEq

structure LsmBluetoothDeviceInfo where
  controller : Chars 64
  address : Chars 32
  deriving DecidableEq

/-- Linux-only identity and cumulative-counter state of an adapter. -/
structure LsmLinuxGpuState where
  platformIdentity : Chars 512
  previousEngineBusyNs : Nat := 0
  engineBusyInitialized : Bool := false
  intelNativeBackend : Bool := false
  deriving DecidableEq

/-- A resolved attribute file, and the allocation that holds its path. -/
structure CachedPath where
  path : Text
  pointer : Nat
  deriving DecidableEq

structure LsmGpuTelemetryCache where
  identity : Chars 512 := .empty
  gpuBusy : Option CachedPath := none
  /-- The other attribute files of the device and of its hwmon nodes. -/
  metrics : List CachedPath := []
  intelBackend : Option Nat := none
  engineBusy : List CachedPath := []
  deriving DecidableEq

structure LsmNpuTelemetryCache where
  identity : Chars 512 := .empty
  backend : Option Nat := none
  deriving DecidableEq

/-- The hardware part of a monitor and of its Linux backend, once `hardware_state` is
allocated, with the allocations of its telemetry caches. -/
structure LsmMonitor where
  gpus : List LsmGpuInfo := []
  batteries : List LsmBatteryInfo := []
  npus : List LsmNpuInfo := []
  bluetoothDevices : List LsmBluetoothDeviceInfo := []
  topologyGeneration : Nat := 0
  gpuStates : List LsmLinuxGpuState := []
  gpuTelemetry : List LsmGpuTelemetryCache := []
  npuTelemetry : List LsmNpuTelemetryCache := []
  heap : Arena := {}
  deriving DecidableEq

/-! ### The library -/

/-- What the collector uses of Common and of the C library. The order of equal
elements is the sort's own. -/
structure Library extends Arithmetic where
  qsort : {α : Type} → (α → Text) → List α → List α
  asciiEqualCi : Text → Text → Bool
  asciiStartsWithCi : Text → Text → Bool
  pathBasename : Text → Text
  /-- The number at the cursor in the given base, and the text behind it. -/
  parseU64Token : Text → Nat → Option (Nat × Text)
  qsort_perm : ∀ {α : Type} (key : α → Text) (l : List α), (qsort key l).Perm l
  qsort_sorted : ∀ {α : Type} (key : α → Text) (l : List α),
    (qsort key l).Pairwise fun a b => strcmpKey (key a) ≤ strcmpKey (key b)

def hexValue (b : UInt8) : Option Nat :=
  if 48 ≤ b ∧ b ≤ 57 then some (b.toNat - 48)
  else if 97 ≤ b ∧ b ≤ 102 then some (b.toNat - 87)
  else if 65 ≤ b ∧ b ≤ 70 then some (b.toNat - 55)
  else none

/-- The documented behaviour as functions; the sort is stable. -/
def Library.documented : Library where
  toArithmetic := .documented
  qsort key l := l.insertionSort fun a b => strcmpKey (key a) ≤ strcmpKey (key b)
  asciiEqualCi a b := decide (a.map asciiToLower = b.map asciiToLower)
  asciiStartsWithCi a b := (b.map asciiToLower).isPrefixOf (a.map asciiToLower)
  pathBasename t := (t.reverse.takeWhile (· != 47)).reverse
  parseU64Token t base :=
    let digits := t.takeWhile fun b => (hexValue b).any fun value => decide (value < base)
    let value := digits.foldl (fun value b => value * base + (hexValue b).getD 0) 0
    if digits = [] ∨ uint64Max < value then none else some (value, t.drop digits.length)
  qsort_perm _ l := List.perm_insertionSort _ l
  qsort_sorted key l :=
    have : Std.Total (fun a b => strcmpKey (key a) ≤ strcmpKey (key b)) := ⟨fun _ _ => le_total _ _⟩
    have : IsTrans _ (fun a b => strcmpKey (key a) ≤ strcmpKey (key b)) := ⟨fun _ _ _ => le_trans⟩
    List.pairwise_insertionSort _ l

/-! ### Identities -/

/-- The platform identity, or the display identifier without one. -/
def gpuStableIdentity (gpu : LsmGpuInfo) : Chars 512 :=
  if gpu.platformIdentity = .empty
  then ⟨gpu.displayIdentifier.text, gpu.displayIdentifier.fits.trans (by decide), gpu.displayIdentifier.nulFree⟩
  else gpu.platformIdentity

def npuStableIdentity (npu : LsmNpuInfo) : Chars 512 :=
  if npu.platformIdentity = .empty
  then ⟨npu.displayIdentifier.text, npu.displayIdentifier.fits.trans (by decide), npu.displayIdentifier.nulFree⟩
  else npu.platformIdentity

def sameGpuIdentity (left right : LsmGpuInfo) : Bool :=
  if left.platformIdentity ≠ .empty ∧ right.platformIdentity ≠ .empty
  then left.platformIdentity = right.platformIdentity
  else left.displayIdentifier = right.displayIdentifier

def sameNpuIdentity (left right : LsmNpuInfo) : Bool :=
  if left.platformIdentity ≠ .empty ∧ right.platformIdentity ≠ .empty
  then left.platformIdentity = right.platformIdentity
  else left.displayIdentifier = right.displayIdentifier

/-! ### Enumeration -/

def notAvailable : Text := ascii "N/A"
def graphicsSuffix : Text := ascii " graphics"

/-- The name of the record at an index. -/
def gpuName (record : LsmGpuRecord) (index : Nat) : Chars 128 :=
  if record.product ≠ .empty ∧ record.product.text ≠ notAvailable then record.product
  else if record.vendor ≠ .empty ∧ record.vendor.text ≠ notAvailable
  then printed (record.vendor.text.take 118 ++ graphicsSuffix)
  else printed (ascii "GPU " ++ Decimal.print index)

def gpuInfo (record : LsmGpuRecord) (index : Nat) : LsmGpuInfo where
  name := gpuName record index
  displayIdentifier := record.card
  driver := record.driver
  platformIdentity := record.deviceSyspath.path

/-- A failed enumeration leaves the list alone. -/
def enumerateGpus (records : Option (List LsmGpuRecord)) (gpus : List LsmGpuInfo) : List LsmGpuInfo :=
  match records with
  | none => gpus
  | some records => records.zipIdx.map fun p => gpuInfo p.1 p.2

def enumerateNpus (records : Option (List NpuRecord)) (npus : List LsmNpuInfo) : List LsmNpuInfo :=
  match records with
  | none => npus
  | some records => records.map fun record => ⟨record.accel, record.device.path⟩

/-! ### Reconciliation -/

/-- A surviving record keeps its metrics under the identity just discovered. -/
def reconcileGpu (old : List LsmGpuInfo) (identity : LsmGpuInfo) : LsmGpuInfo :=
  match old.find? fun gpu => sameGpuIdentity gpu identity with
  | none => identity
  | some gpu =>
    {gpu with
      displayIdentifier := identity.displayIdentifier
      platformIdentity := identity.platformIdentity
      name := if identity.name ≠ .empty then identity.name else gpu.name
      driver := if identity.driver ≠ .empty then identity.driver else gpu.driver}

/-- The counts differ, or a record of now has no record before. -/
def membersChanged {α : Type} (same : α → α → Bool) (old new : List α) : Bool :=
  old.length != new.length || new.any fun member => !old.any fun before => same before member

def hardwareMembershipChanged (old new : LsmMonitor) : Bool :=
  membersChanged sameGpuIdentity old.gpus new.gpus ||
    membersChanged (fun a b => decide (a.name = b.name)) old.batteries new.batteries ||
    membersChanged sameNpuIdentity old.npus new.npus

def bluetoothMembershipChanged (old new : LsmMonitor) : Bool :=
  membersChanged (fun a b => decide (a = b)) old.bluetoothDevices new.bluetoothDevices

/-- What a refresh observes; `none` is an enumeration that fails. -/
structure TopologyInput where
  gpus : Option (List LsmGpuRecord)
  batteries : Option (List LsmBatteryInfo)
  npus : Option (List NpuRecord)
  bluetoothDevices : Option (List LsmBluetoothDeviceInfo)

/-- The lists after the enumerations, sorted. -/
def discovered (lib : Library) (input : TopologyInput) (monitor : LsmMonitor) : LsmMonitor :=
  {monitor with
    gpus := lib.qsort (fun gpu => (gpuStableIdentity gpu).text) (enumerateGpus input.gpus monitor.gpus)
    batteries := lib.qsort (fun battery => battery.name.text) (input.batteries.getD monitor.batteries)
    npus := lib.qsort (fun npu => (npuStableIdentity npu).text) (enumerateNpus input.npus monitor.npus)
    bluetoothDevices := input.bluetoothDevices.getD monitor.bluetoothDevices}

/-- `lsm_hardware_topology_reconcile`, with whether any membership changed. -/
def lsmHardwareTopologyReconcile (old new : LsmMonitor) : LsmMonitor × Bool :=
  ({new with gpus := new.gpus.map (reconcileGpu old.gpus)},
    hardwareMembershipChanged old new || bluetoothMembershipChanged old new)

/-! ### NVML -/

/-- One device of an NVML enumeration. -/
structure NvmlDevice where
  /-- Whether its handle is returned. -/
  answers : Bool := true
  /-- The bus id it reports, where the library has the call and it succeeds. -/
  pciBusId : Option Text
  name : Chars 128 := .empty
  utilization : Option Nat := none

structure NvmlReport where
  /-- Empty where it is not available. -/
  driverVersion : Text := []
  devices : List NvmlDevice

def nvidia : Text := ascii "nvidia"

def isNvidiaGpu (lib : Library) (gpu : LsmGpuInfo) : Bool :=
  lib.asciiStartsWithCi gpu.driver.text nvidia || lib.asciiStartsWithCi gpu.name.text nvidia

/-- `%0<width>x`. -/
def hexPadded (width n : Nat) : Text :=
  let digits : Text := (Nat.toDigits 16 n).map fun c => c.toNat.toUInt8
  List.replicate (width - digits.length) 48 ++ digits

/-- The four numbers of a bus id, when nothing else is in the text. -/
def pciNumbers (lib : Library) (text : Text) : Option (Nat × Nat × Nat × Nat) :=
  match lib.parseU64Token text 16 with
  | some (domain, 58 :: text) =>
    match lib.parseU64Token text 16 with
    | some (bus, 58 :: text) =>
      match lib.parseU64Token text 16 with
      | some (device, 46 :: text) =>
        match lib.parseU64Token text 16 with
        | some (function, []) => some (domain, bus, device, function)
        | _ => none
      | _ => none
    | _ => none
  | _ => none

def normalisePciBusId (lib : Library) (text : Text) : Option (Chars 32) :=
  match pciNumbers lib text with
  | none => none
  | some (domain, bus, device, function) =>
    if uintMax < domain ∨ uintMax < bus ∨ uintMax < device ∨ uintMax < function then none
    else
      let written := hexPadded 8 domain ++ [58] ++ hexPadded 2 bus ++ [58] ++ hexPadded 2 device ++ [46] ++
        hexPadded 1 function
      if written.length < 32 then some (printed written) else none

def gpuPciBusId (lib : Library) (gpu : LsmGpuInfo) : Option (Chars 32) :=
  if gpu.platformIdentity = .empty then none
  else normalisePciBusId lib (lib.pathBasename gpu.platformIdentity.text)

/-- The device's bus id, when it is usable. -/
def nvmlBusId (lib : Library) (device : NvmlDevice) : Option (Chars 32) := device.pciBusId.bind (normalisePciBusId lib)

/-- The adapter of a bus id, or else the one at the ordinal among the NVIDIA adapters. -/
def matchedGpu (lib : Library) (gpus : List LsmGpuInfo) (index : Nat) (device : NvmlDevice) : Option Nat :=
  match nvmlBusId lib device with
  | some id => gpus.findIdx? fun gpu => gpuPciBusId lib gpu = some id
  | none => ((gpus.zipIdx.filter fun p => isNvidiaGpu lib p.1)[index]?).map Prod.snd

/-- The display identifier of an adapter that only NVML knows. -/
def nvmlCard (lib : Library) (index : Nat) (device : NvmlDevice) : Chars 64 :=
  match nvmlBusId lib device with
  | some id => printed (ascii "nvml-" ++ id.text)
  | none => printed (ascii "nvidia" ++ Decimal.print index)

def nvmlDriver : Chars 64 := printed (ascii "NVIDIA")

/-- The list with an adapter of that card, and its index; `none` when the list is full. -/
def appendNvmlGpu (monitor : LsmMonitor) (card : Chars 64) : LsmMonitor × Option Nat :=
  match monitor.gpus.findIdx? fun gpu => gpu.displayIdentifier = card with
  | some i => (monitor, some i)
  | none =>
    if lsmMaxGpus ≤ monitor.gpus.length then (monitor, none)
    else
      ({monitor with
        gpus := monitor.gpus ++ [{displayIdentifier := card, driver := nvmlDriver}]
        topologyGeneration := monitor.topologyGeneration + 1}, some monitor.gpus.length)

def gpuForNvmlDevice (lib : Library) (monitor : LsmMonitor) (index : Nat) (device : NvmlDevice) :
    LsmMonitor × Option Nat :=
  match matchedGpu lib monitor.gpus index device with
  | some i => (monitor, some i)
  | none => appendNvmlGpu monitor (nvmlCard lib index device)

/-- What NVML tells about the adapter of a device. -/
def nvmlFields (driverVersion : Text) (device : NvmlDevice) (gpu : LsmGpuInfo) : LsmGpuInfo :=
  {gpu with
    name := if device.name ≠ .empty then device.name else gpu.name
    driver := if driverVersion ≠ [] then printed (ascii "NVIDIA " ++ driverVersion.take 55)
      else if gpu.driver = .empty then nvmlDriver else gpu.driver
    utilizationPercent := (device.utilization.map fun percent => (percent : ℚ)).or gpu.utilizationPercent}

def nvmlDevice (lib : Library) (driverVersion : Text) (monitor : LsmMonitor) (device : NvmlDevice) (index : Nat) :
    LsmMonitor :=
  if device.answers then
    let found := gpuForNvmlDevice lib monitor index device
    match found.2 with
    | none => found.1
    | some i => {found.1 with gpus := found.1.gpus.modify i (nvmlFields driverVersion device)}
  else monitor

/-- `none`: the library is missing, or does not answer. -/
def lsmNvmlRefresh (lib : Library) (report : Option NvmlReport) (monitor : LsmMonitor) : LsmMonitor :=
  match report with
  | none => monitor
  | some report => report.devices.zipIdx.foldl (fun monitor p => nvmlDevice lib report.driverVersion monitor p.1 p.2) monitor

end SystemMonitor.Hardware
